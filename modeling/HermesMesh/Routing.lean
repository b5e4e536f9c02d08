import HermesMesh.AgentNames
import HermesMesh.ExactlyOnce
import HermesMesh.IntakeSafety
import HermesMesh.Lib.Replace
import HermesMesh.MessageTurns

/-!
# Whose chat a message goes into

The source of an event decides which session of the agent a message ends up in. A sender may ask for a
session by name, but only the receiver's configuration says which chat that is; where it says nothing, a
message gets a chat of its own, named after its sender and its id. Every event carries the name under
whose key its request was verified (`events_attributed`), and no chat of its own is entered twice within
the replay window (`isolated_chats_unshared`): the colon that separates the parts of its name occurs in
no agent name.
-/

namespace HermesMesh.Routing

open Lib Intake

variable {cfg : Config} {kit : Kit} {parsed : Parsed} {event : MessageEvent} {s t : Adapter}
  {e : Event} {es : List Event} {sender target : String} {source : Source}

/-! ## Where an event goes -/

/-- The target session is one of the receiver's own. -/
def Configured (cfg : Config) (target : String) : Prop :=
  target ≠ "" ∧ (cfg.targetSession = some target ∨ ∃ name, cfg.sessionMap.lookup name = some target)

/-- The event names its sender, also to a gateway that takes it for a direct message. -/
structure Attributed (sender : String) (source : Source) : Prop where
  userName : source.userName = sender
  chatName : source.chatName = "mesh/" ++ sender
  user : source.userId = "mesh:" ++ sender ∨ source.userIdAlt = some ("mesh:" ++ sender)

/-- The event goes into the chat of a target session. -/
structure Joins (kit : Kit) (target : String) (source : Source) : Prop where
  chat : (source.chatType, source.chatId) = (targetParts target).2
  platform : ∀ platform, source.platform = some platform →
    kit.platform (targetParts target).1 = .ok platform

theorem effectiveTarget_configured {session : Option String}
    (h : effectiveTarget cfg session = some target) : Configured cfg target := by
  unfold effectiveTarget at h
  split at h
  · rename_i mapped hmapped
    obtain rfl := Option.some.inj h
    obtain ⟨hlookup, hne⟩ := Option.filter_eq_some_iff.mp hmapped
    obtain ⟨name, -, hname⟩ := Option.bind_eq_some_iff.mp hlookup
    exact ⟨of_decide_eq_true hne, .inr ⟨name, hname⟩⟩
  · obtain ⟨htarget, hne⟩ := Option.filter_eq_some_iff.mp h
    exact ⟨of_decide_eq_true hne, .inl htarget⟩

theorem routedSource_ok (h : routedSource cfg kit sender target = .ok source) :
    Attributed sender source ∧ Joins kit target source := by
  have huser : ∀ {dm : Prop} [Decidable dm] {chatId : String},
      (if dm then chatId else "mesh:" ++ sender) = "mesh:" ++ sender ∨
        (if dm then some ("mesh:" ++ sender) else none) = some ("mesh:" ++ sender) := by
    intro dm _ chatId
    split_ifs
    · exact .inr rfl
    · exact .inl rfl
  unfold routedSource at h
  by_cases hstamp : (!cfg.coreBindsPlatform || cfg.routedBinding) = true
  · simp only [hstamp, if_true] at h
    obtain ⟨platform, hplatform, h⟩ := bind_ok h
    obtain rfl := Except.ok.inj h
    refine ⟨⟨rfl, rfl, huser⟩, rfl, fun platform' h => ?_⟩
    obtain rfl := Option.some.inj h
    exact hplatform
  · simp only [hstamp] at h
    obtain rfl := Except.ok.inj h
    exact ⟨⟨rfl, rfl, huser⟩, rfl, nofun⟩

theorem meshSource_attributed (sender msgId : String) : Attributed sender (meshSource sender msgId) :=
  ⟨rfl, rfl, .inl rfl⟩

/-- **Where an event goes.** Into a chat that the receiver has configured, or into one of its own. -/
theorem buildEvent_routed (h : buildEvent cfg kit parsed = .ok event) :
    Attributed parsed.sender event.source ∧
      ((∃ target, Configured cfg target ∧ Joins kit target event.source) ∨
        event.source = meshSource parsed.sender parsed.msgId) := by
  obtain ⟨-, h⟩ := buildEvent_ok h
  split at h
  · rename_i target htarget
    obtain ⟨hattributed, hjoins⟩ := routedSource_ok h
    exact ⟨hattributed, .inl ⟨target, effectiveTarget_configured htarget, hjoins⟩⟩
  · rw [h]
    exact ⟨meshSource_attributed _ _, .inr rfl⟩

/-! ## The name of a chat of its own -/

/-- No agent name has a colon. -/
theorem colon_not_mem_lowerName {c : Char} (h : isNameChar c = true) : ':' ∉ lowerName c := by
  by_cases hascii : c.toNat < 128
  · have hlower := lowerChar_ascii c.toNat hascii
    rw [Char.ofNat_toNat] at hlower
    obtain ⟨hlower, hlowered, -⟩ := hlower h
    rw [hlower, List.mem_singleton]
    intro hcolon
    rw [← hcolon] at hlowered
    exact absurd hlowered (by decide)
  · rcases isNameChar_special h hascii with hn | hn | hn | hn
    all_goals
      obtain rfl : c = Char.ofNat _ := (Char.ofNat_toNat c).symm.trans (congrArg Char.ofNat hn)
      decide

theorem colon_not_mem {repr : String → String} {raw name : String}
    (h : validateAgentName repr raw = .ok name) : ':' ∉ name.toList := by
  obtain ⟨c, rest, -, -, hchars, -, hname⟩ := validateAgentName_ok h
  rw [hname, List.mem_flatMap]
  rintro ⟨d, hd, hcolon⟩
  exact colon_not_mem_lowerName (hchars d hd) hcolon

/-- **A chat of its own has one owner**: its name gives back the sender and the id. -/
theorem meshSource_inj {sender sender' msgId msgId' : String} (hsender : ':' ∉ sender.toList)
    (hsender' : ':' ∉ sender'.toList)
    (h : (meshSource sender msgId).chatId = (meshSource sender' msgId').chatId) :
    sender = sender' ∧ msgId = msgId' := by
  have hlist := congrArg String.toList h
  unfold meshSource at hlist
  simp only [String.toList_append, List.append_assoc] at hlist
  obtain ⟨hs, hm⟩ := append_cons_inj hsender hsender' (List.append_cancel_left hlist)
  exact ⟨String.toList_inj.mp hs, String.toList_inj.mp hm⟩

theorem parseEnvelope_sender {valid : TokenRule} {repr : String → String} {text : String}
    (h : parseEnvelope valid repr text = some parsed) :
    ∃ raw, validateAgentName repr raw = .ok parsed.sender := by
  unfold parseEnvelope at h
  simp only [Option.bind_eq_bind, Option.bind_eq_some_iff] at h
  obtain ⟨groups, -, name, hname, recipient, -, session, -, fromSession, -, action, -, reply, -,
    msgId, -, ref, -, hparsed⟩ := h
  obtain rfl := Option.some.inj hparsed
  refine ⟨groups.sender, ?_⟩
  cases hvalid : validateAgentName repr groups.sender with
  | ok name' =>
    rw [hvalid] at hname
    exact congrArg Except.ok (Option.some.inj hname)
  | error e =>
    rw [hvalid] at hname
    cases hname

/-! ## Runs -/

/-- The signature is good under the key, over timestamp and body or over the body alone. -/
def Signed (kit : Kit) (key : String) (r : Request) : Prop :=
  kit.verify key (r.timestamp ++ "\n" ++ r.body) r.signature = .ok true ∨
    kit.verify key r.body r.signature = .ok true

/-- The event is what the adapter makes of this request, whose envelope names this sender. -/
def MadeOf (cfg : Config) (kit : Kit) (r : Request) (sender : String) (event : MessageEvent) : Prop :=
  ∃ parsed, parseEnvelope kit.valid kit.repr (requestText kit r) = some parsed ∧
    parsed.sender = sender ∧ buildEvent cfg kit parsed = .ok event

/-- **Every event is its sender's.** With authentication on, in every run from an adapter in which no
request waits, an event that comes into the inbox is made of the request that the step resumes, which
has arrived and was signed under the key of one name. The event carries that name, and goes into a chat
that the receiver has configured, or into one named after this sender and the id of the message. -/
theorem events_attributed {s₀ : Adapter} (hauth : cfg.insecure = false)
    (h0 : ∀ conn, s₀.waiting conn = none) (hrun : Run (step cfg kit) Free s₀ es s)
    (hstep : step cfg kit s e = some t) (hput : s.inbox.length < t.inbox.length) :
    ∃ event conn meets r publicKey now name, t.inbox = s.inbox ++ [event] ∧
      e = .resume conn meets ∧ (∃ p, s.waiting conn = some p ∧ p.request = r) ∧
      .arrive conn r publicKey now ∈ es ∧ MadeOf cfg kit r name event ∧
      Signed kit (publicKey name) r ∧ Attributed name event.source ∧
      ((∃ target, Configured cfg target ∧ Joins kit target event.source) ∨
        event.source = meshSource name event.messageId) := by
  obtain ⟨-, -, hrefuses | ⟨conn, meets, p, parsed, htakes⟩⟩ :=
    step_cases (run_checked h0 hrun) hstep
  · exact absurd hrefuses.inbox (not_le.mpr hput)
  · have htext := (run_checked h0 hrun conn p htakes.waits).text
    obtain ⟨before, after, publicKey, now, rfl, -, hreceived⟩ :=
      run_arrived hauth h0 hrun conn p htakes.waits
    obtain ⟨fields, raw, name, -, -, -, hsender, hverified⟩ := hreceived.verified htakes.passes
    obtain rfl := Json.str.inj (hsender.symm.trans (htakes.sender_eq hreceived))
    obtain ⟨event, hevent, hinbox⟩ := htakes.inbox
    obtain ⟨hattributed, hchat⟩ := buildEvent_routed hevent
    rw [← (buildEvent_ok hevent).1] at hchat
    have hmade : MadeOf cfg kit p.request parsed.sender event :=
      ⟨parsed, htext ▸ htakes.envelope, rfl, hevent⟩
    exact ⟨event, conn, meets, p.request, publicKey, now, parsed.sender, hinbox, htakes.event,
      ⟨p, htakes.waits, rfl⟩, by simp, hmade, hverified, hattributed, hchat⟩

/-- What was taken in, as the message it was read as and the event it became. -/
structure Became (cfg : Config) (kit : Kit) (a : Accepted) (parsed : Parsed) (event : MessageEvent) :
    Prop where
  envelope : parseEnvelope kit.valid kit.repr (requestText kit a.request) = some parsed
  id : parsed.msgId = a.messageId
  event : buildEvent cfg kit parsed = .ok event

/-- Everything that was taken in became an event. -/
def AllBecame (cfg : Config) (kit : Kit) (s : Adapter) : Prop :=
  ∀ a ∈ s.accepted, ∃ parsed event, Became cfg kit a parsed event

theorem step_became (hchecks : Checked cfg kit s) (h : AllBecame cfg kit s)
    (hstep : step cfg kit s e = some t) : AllBecame cfg kit t := by
  unfold AllBecame
  obtain ⟨-, -, hrefuses | ⟨conn, meets, p, parsed, htakes⟩⟩ := step_cases hchecks hstep
  · rw [hrefuses.accepted]
    exact h
  · obtain ⟨event, hevent, -⟩ := htakes.inbox
    rw [htakes.accepted]
    refine List.forall_mem_cons.mpr ⟨⟨parsed, event, ?_, rfl, hevent⟩, h⟩
    rw [← (hchecks conn p htakes.waits).text]
    exact htakes.envelope

/-- Two messages in one chat of its own have one sender and one id. -/
theorem Became.same_chat {a b : Accepted} {parsed' : Parsed} {event' : MessageEvent}
    (h : Became cfg kit a parsed event) (h' : Became cfg kit b parsed' event')
    (hown : event.source = meshSource parsed.sender parsed.msgId)
    (hown' : event'.source = meshSource parsed'.sender parsed'.msgId)
    (hchat : event'.source.chatId = event.source.chatId) :
    parsed'.sender = parsed.sender ∧ b.messageId = a.messageId := by
  obtain ⟨raw, hraw⟩ := parseEnvelope_sender h.envelope
  obtain ⟨raw', hraw'⟩ := parseEnvelope_sender h'.envelope
  rw [hown, hown'] at hchat
  obtain ⟨hsender, hid⟩ := meshSource_inj (colon_not_mem hraw') (colon_not_mem hraw) hchat
  exact ⟨hsender, by rw [← h.id, ← h'.id, hid]⟩

/-- **Chats of their own are not shared.** In every run in which the seen-id table never evicts for want
of room, everything that is taken in becomes an event, and where two events have a chat of their own and
it is the same one, they are from one sender with one id, and the later one came more than the replay
window after the earlier. -/
theorem isolated_chats_unshared (h0 : Start s) (hrun : Run (step cfg kit) (Roomy cfg kit) s es t) :
    (∀ a ∈ t.accepted, ∃ parsed event, Became cfg kit a parsed event) ∧
      t.accepted.Pairwise fun b a => ∀ parsed parsed' event event',
        Became cfg kit a parsed event → Became cfg kit b parsed' event' →
        event.source = meshSource parsed.sender parsed.msgId →
        event'.source = meshSource parsed'.sender parsed'.msgId →
        event'.source.chatId = event.source.chatId →
          parsed'.sender = parsed.sender ∧ b.messageId = a.messageId ∧
            cfg.replayWindowTtl < b.sweptAt - a.seenAt := by
  have hstart : AllBecame cfg kit s := by
    intro a ha
    rw [h0.accepted] at ha
    cases ha
  have hboth := hrun.invariant (I := fun s => Kept cfg kit s ∧ AllBecame cfg kit s)
    (fun _ _ _ h hroom hstep => ⟨step_kept h.1 hroom hstep, step_became h.1.checked h.2 hstep⟩)
    ⟨h0.kept, hstart⟩
  refine ⟨hboth.2, (Verdicts.run_spaced h0 hrun).imp ?_⟩
  intro b a hfar parsed parsed' event event' ha hb hown hown' hchat
  obtain ⟨hsender, hid⟩ := ha.same_chat hb hown hown' hchat
  exact ⟨hsender, hid, hfar hid⟩

/-- The copy that is taken in again after the window. -/
theorem isolated_chats_unshared_replayed :
    ∃ t, exec (step vera sampleKit) freshAdapter replayed = some t ∧ t.accepted.length = 3 ∧
      ∀ a ∈ t.accepted, ∃ parsed event, Became vera sampleKit a parsed event := by
  have hends : (exec (checked hasRoom (step vera sampleKit)) freshAdapter replayed).map
      (fun t => t.accepted.length) = some 3 := by
    decide +kernel
  obtain ⟨t, ht, hlength⟩ := Option.map_eq_some_iff.mp hends
  have hrun : Run (step vera sampleKit) (Roomy vera sampleKit) freshAdapter replayed t :=
    (run_of_checked ht).mono fun s e h => roomy_of_hasRoom h
  exact ⟨t, hrun.exec_eq, hlength, (isolated_chats_unshared freshAdapter_start hrun).1⟩

end HermesMesh.Routing
