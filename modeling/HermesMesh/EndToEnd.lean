import HermesMesh.EnvelopeRoundTrip
import HermesMesh.ExactlyOnce
import HermesMesh.Routing

/-!
# From the send to the turn

The sending gateway at one end, the agent of the receiving one at the other. `mesh_send` reports a
delivery where the intake has answered that the message is there; the intake puts what it has taken in
into the inbox as the event that the envelope was read as; and the processor gives every event a turn of
its own. Put together: a message that is reported as delivered is shown to the agent it is for, once, as
it was written and under the name of its sender (`delivered_is_shown`).
-/

namespace HermesMesh

open Intake (Adapter requestText Accepted Checked Start)

variable {env : Env} {args kwargs : List (String × Json)} {w w₀ w' : World} {mail : Mail}
  {session fromSession : Option String} {url : String} {resp : Response}

/-! ## The send -/

/-- The call comes to one use of `_deliver_webhook`, and reports that it was delivered. -/
structure Completes (env : Env) (args kwargs : List (String × Json)) (w : World) (mail : Mail)
    (session fromSession : Option String) (url : String) : Prop where
  prepared : ∃ w₀, prepare env args kwargs w = (.ok mail, w₀)
  sessions : sessions env mail = .ok (session, fromSession)
  target : env.target mail.agent = .ok (.ok url)
  completed : ∃ resp w', handleMeshSend env args kwargs w = (.ok resp, w') ∧
    resp.state = some "completed"

/-- It comes past the gate, and what it reports is what it makes of the delivery. -/
theorem Completes.dispatches (h : Completes env args kwargs w mail session fromSession url) :
    ∃ w₀ held w₁, prepare env args kwargs w = (.ok mail, w₀) ∧ gate env mail w₀ = (.ok held, w₁) ∧
      handleMeshSend env args kwargs w =
        dispatch env mail held (mail.padded session fromSession) url w₁ := by
  obtain ⟨w₀, hprep⟩ := h.prepared
  obtain ⟨resp, w', hsend, hstate⟩ := h.completed
  obtain hrefused | ⟨held, w₁, hgate, hforward⟩ := handleMeshSend_returns hprep hsend
  · rw [gate_refusal hrefused] at hstate
    cases hstate
  refine ⟨w₀, held, w₁, hprep, hgate, ?_⟩
  by_cases ha : Attempted env mail
  · obtain ⟨session', fromSession', url', hsessions, hurl, heq⟩ := forward_attempted (w := w₁) held ha
    obtain rfl := Except.ok.inj (Except.ok.inj (h.target.symm.trans hurl))
    obtain ⟨rfl, rfl⟩ := Prod.mk.inj (Except.ok.inj (h.sessions.symm.trans hsessions))
    rw [handleMeshSend_granted hprep hgate, heq]
  · have hnone := ((forward_unattempted held w₁ ha).2 resp (congrArg Prod.fst hforward)).2
    rw [hstate] at hnone
    cases hnone

/-- Only a delivery is reported as one. -/
theorem Completes.delivers (h : Completes env args kwargs w mail session fromSession url) :
    ∃ d, env.post env.net env.signature url = .ok d ∧ d.deliveryId ≠ .null := by
  obtain ⟨w₀, held, w₁, -, -, hsend⟩ := h.dispatches
  obtain ⟨resp, w', hcompleted, hstate⟩ := h.completed
  have hfst : (dispatch env mail held (mail.padded session fromSession) url w₁).1 = .ok resp := by
    rw [← hsend, hcompleted]
  rcases dispatch_cases env mail held (mail.padded session fromSession) url w₁ with
    ⟨e, w₂, -, hres⟩ | ⟨w₂, -, ⟨e, -, hres⟩ | ⟨d, hpost, -, ⟨hid, hres⟩ | ⟨-, hres | hres⟩⟩⟩
  · rw [hres] at hfst
    cases hfst
  · rw [hres] at hfst
    cases hfst
  · exact ⟨d, hpost, Json.isSome_iff.mp hid⟩
  · rw [hres] at hfst
    rw [queued_state hfst] at hstate
    exact absurd (Option.some.inj hstate) (by decide)
  · rw [hres] at hfst
    rw [failed_state hfst] at hstate
    cases hstate

/-- The receiver reads what the sender writes: the names are in ASCII, the two validators agree and let
no bracket pass, and `json.loads` takes back what `json.dumps` gives. -/
structure Legible (env : Env) (pen : Pen) (kit : Intake.Kit) (mail : Mail) (padded : String) : Prop where
  agent : Ascii mail.agent
  self : Ascii mail.self
  valid : kit.valid = env.valid
  tokens : env.Tokens (Bracketless env.valid)
  loads : kit.loads (pen.dumps [("from", .str mail.self), ("text", .str padded)]) =
    .ok (.obj [("from", .str mail.self), ("text", .str padded)])

/-- What the intake makes of a message as it was written. -/
def Mail.parsed (mail : Mail) (session fromSession : Option String) : Parsed :=
  { mail.header session fromSession with
    bodyText := String.ofList (mail.message.toList.dropWhile isSpace) }

section

variable {pen : Pen} {kit : Intake.Kit} {key timestamp : String} {post : Post}

/-- The text arrives as it was written, and is read so. -/
theorem Legible.reads (hlegible : Legible env pen kit mail (mail.padded session fromSession))
    (hprep : prepare env args kwargs w = (.ok mail, w₀))
    (hsessions : sessions env mail = .ok (session, fromSession)) {wire : Wire}
    (htext : wire.text = mail.padded session fromSession) (hsender : wire.sender = mail.self)
    (hheaders : wire.headers = []) (hpost : compose pen key timestamp wire = .ok post) :
    requestText kit post.received = mail.padded session fromSession ∧
      parseEnvelope kit.valid kit.repr (mail.padded session fromSession) =
        some (mail.parsed session fromSession) ∧ mail.taskId ≠ "" := by
  have hmade := hlegible.tokens.prepare hprep
  obtain ⟨_, hself⟩ := hmade.self
  obtain ⟨signature, -, hreceived⟩ := compose_received false hheaders hpost
  have hpayload : wire.payload =
      [("from", .str mail.self), ("text", .str (mail.padded session fromSession))] := by
    unfold Wire.payload Wire.from_
    rw [hsender, htext, if_neg (fits_agentName hself).1]
  have hloads : kit.loads post.received.body = .ok (.obj
      [("from", .str mail.self), ("text", .str (mail.padded session fromSession))]) := by
    rw [hreceived, hpayload]
    exact hlegible.loads
  refine ⟨?_, ?_, (hmade.taskId _ rfl).2⟩
  · unfold requestText
    rw [hloads]
    rfl
  · rw [hlegible.valid]
    exact parseEnvelope_padded kit.repr hmade hlegible.agent hlegible.self
      (hlegible.tokens.sessions hsessions)

/-- The same, of the call that sends a message. -/
theorem Completes.reads (h : Completes env args kwargs w mail session fromSession url)
    (hlegible : Legible env pen kit mail (mail.padded session fromSession))
    (hpost : compose pen key timestamp (env.wire mail (mail.padded session fromSession) url) =
      .ok post) :
    requestText kit post.received = mail.padded session fromSession ∧
      parseEnvelope kit.valid kit.repr (mail.padded session fromSession) =
        some (mail.parsed session fromSession) ∧ mail.taskId ≠ "" := by
  obtain ⟨w₀, hprep⟩ := h.prepared
  exact hlegible.reads hprep h.sessions rfl rfl rfl hpost

end

end HermesMesh

namespace HermesMesh.Intake

open Lib

variable {cfg : Config} {kit : Kit} {s t : Adapter} {e : Event} {es : List Event} {r : Request}

/-! ## What was taken in has arrived -/

/-- The request has arrived. -/
def Came (es : List Event) (r : Request) : Prop :=
  ∃ conn publicKey now, .arrive conn r publicKey now ∈ es

theorem Came.append (h : Came es r) (e : Event) : Came (es ++ [e]) r := by
  obtain ⟨conn, publicKey, now, hmem⟩ := h
  exact ⟨conn, publicKey, now, List.mem_append_left _ hmem⟩

/-- Everything that waits or was taken in has arrived. -/
structure AllCame (es : List Event) (s : Adapter) : Prop where
  waiting : ∀ conn p, s.waiting conn = some p → Came es p.request
  accepted : ∀ a ∈ s.accepted, Came es a.request

/-- A step that touches one connection keeps the others. -/
theorem waiting_came {conn : ℕ} (waits : Option Pending)
    (h : ∀ conn p, s.waiting conn = some p → Came es p.request)
    (hwaits : ∀ p, waits = some p → Came (es ++ [e]) p.request)
    (ht : t.waiting = Function.update s.waiting conn waits) :
    ∀ conn p, t.waiting conn = some p → Came (es ++ [e]) p.request := by
  intro conn' p hp
  rw [ht] at hp
  rcases update_eq_some hp with ⟨-, hset⟩ | ⟨-, hold⟩
  · exact hwaits p hset
  · exact (h conn' p hold).append e

theorem step_waiting (h : AllCame es s) (hstep : step cfg kit s e = some t) :
    ∀ conn p, t.waiting conn = some p → Came (es ++ [e]) p.request := by
  cases e with
  | arrive conn request publicKey now =>
    rcases (step_arrive hstep).2 with ⟨p, hreceive, rfl⟩ | ⟨answer, -, rfl⟩
    · obtain ⟨fields, -, -, hrequest, -⟩ := receive_waits hreceive
      refine waiting_came (some p) h.waiting ?_ rfl
      intro q hq
      obtain rfl := Option.some.inj hq
      rw [hrequest]
      exact ⟨conn, publicKey, now, List.mem_append_right _ List.mem_cons_self⟩
    · exact waiting_came none h.waiting nofun rfl
  | resume conn meets =>
    obtain ⟨p, hp, hstep⟩ := Option.bind_eq_some_iff.mp hstep
    split_ifs at hstep
    obtain rfl := Option.some.inj hstep
    obtain ⟨waits, hwaiting, hwaits⟩ :=
      resume_waiting cfg kit conn meets p { s with clock := meets.sweptAt }
    refine waiting_came waits h.waiting ?_ hwaiting
    rintro q rfl
    rcases hwaits with hnone | ⟨key, -, hq⟩
    · cases hnone
    · obtain rfl := Option.some.inj hq
      exact (h.waiting conn p hp).append _
  | take =>
    obtain rfl := Option.some.inj hstep
    exact fun conn p hp => (h.waiting conn p hp).append _
  | closedElsewhere file =>
    obtain rfl := Option.some.inj hstep
    exact fun conn p hp => (h.waiting conn p hp).append _

theorem step_came (hchecked : Checked cfg kit s) (h : AllCame es s)
    (hstep : step cfg kit s e = some t) : AllCame (es ++ [e]) t := by
  refine ⟨step_waiting h hstep, ?_⟩
  obtain ⟨-, -, hrefuses | ⟨conn, meets, p, parsed, htakes⟩⟩ := step_cases hchecked hstep
  · rw [hrefuses.accepted]
    exact fun a ha => (h.accepted a ha).append e
  · rw [htakes.accepted]
    exact List.forall_mem_cons.mpr ⟨(h.waiting conn p htakes.waits).append e,
      fun a ha => (h.accepted a ha).append e⟩

theorem run_came (h0 : Start s) (hrun : Run (step cfg kit) Free s es t) : AllCame es t := by
  have hboth := hrun.history (I := fun es s => Checked cfg kit s ∧ AllCame es s)
    (fun _ _ _ _ h _ hstep => ⟨(step_cases h.1 hstep).1, step_came h.1 h.2 hstep⟩)
    ⟨h0.kept.checked, fun conn p hp => ?_, fun a ha => ?_⟩
  · exact hboth.2
  · rw [h0.waiting conn] at hp
    cases hp
  · rw [h0.accepted] at ha
    cases ha

end HermesMesh.Intake

namespace HermesMesh.Turns

open Lib Intake
open Routing (Became Attributed buildEvent_routed)
open Verdicts (Adapter.under)

variable {cfg : Config} {kit : Kit} {g g' : Gateway} {e : Event} {es : List Event} {r : Request}

/-! ## The turns are those of the messages -/

/-- The event is the one that this message became. -/
def Shows (cfg : Config) (kit : Kit) (a : Accepted) (event : MessageEvent) : Prop :=
  ∃ parsed, Became cfg kit a parsed event

/-- The processor was given the events of what was accepted. -/
structure Showing (cfg : Config) (kit : Kit) (g : Gateway) : Prop where
  coupled : Coupled g
  checked : Checked cfg kit g.adapter
  arrived : ∃ messages : List MessageEvent, g.processor.arrived = messages.map some ∧
    List.Forall₂ (Shows cfg kit) g.adapter.accepted.reverse messages

theorem step_showing (h : Showing cfg kit g) (hstep : step cfg kit g e = some g') :
    Showing cfg kit g' := by
  obtain ⟨messages, harrived, hshows⟩ := h.arrived
  cases e with
  | request e =>
    obtain ⟨-, hintake, hways⟩ := step_request hstep
    obtain ⟨hchecked, -, hcases⟩ := step_cases h.checked hintake
    refine ⟨step_coupled h.coupled hstep, hchecked, ?_⟩
    obtain ⟨-, haccepted, hprocessor⟩ | ⟨event, a, hinbox, haccepted, -, -, hprocessor⟩ := hways
    · refine ⟨messages, ?_, ?_⟩
      · rw [hprocessor, harrived]
      · rwa [haccepted]
    obtain hrefuses | ⟨conn, meets, p, parsed, htakes⟩ := hcases
    · exact absurd (haccepted.symm.trans hrefuses.accepted) (List.cons_ne_self _ _)
    obtain ⟨event', hevent, hinbox'⟩ := htakes.inbox
    obtain rfl : event' = event := by
      rw [hinbox'] at hinbox
      exact List.singleton_inj.mp (List.append_cancel_left hinbox)
    obtain rfl : a = ⟨p.request, parsed.msgId, meets.seenAt, meets.sweptAt⟩ := by
      have heq := haccepted.symm.trans htakes.accepted
      exact (List.cons.inj heq).1
    have hshow : Shows cfg kit ⟨p.request, parsed.msgId, meets.seenAt, meets.sweptAt⟩ event' := by
      refine ⟨parsed, ?_, rfl, hevent⟩
      rw [← (h.checked conn p htakes.waits).text]
      exact htakes.envelope
    refine ⟨messages ++ [event'], ?_, ?_⟩
    · rw [hprocessor, List.map_append, ← harrived]
      rfl
    · rw [haccepted, List.reverse_cons]
      exact List.rel_append hshows (.cons hshow .nil)
  | processor e =>
    obtain ⟨he, hprocessor, hadapter, hcoupled⟩ := step_processor h.coupled hstep
    have hsame : g'.adapter.accepted = g.adapter.accepted ∧ g'.adapter.waiting = g.adapter.waiting := by
      obtain hsame | htakes := hadapter
      · rw [hsame]
        exact ⟨rfl, rfl⟩
      · rw [htakes]
        exact ⟨rfl, rfl⟩
    refine ⟨hcoupled, ?_, messages, ?_, ?_⟩
    · intro conn p hp
      rw [hsame.2] at hp
      exact h.checked conn p hp
    · rw [Processor.step_arrived he hprocessor, harrived]
    · rwa [hsame.1]

theorem Opened.showing (h : Opened g) (h0 : Start g.adapter) : Showing cfg kit g where
  coupled := h.inTurn.coupled
  checked := h0.kept.checked
  arrived := by
    refine ⟨[], ?_, ?_⟩
    · rw [h.processor]
      rfl
    · rw [h.accepted]
      exact .nil

/-! ## Both ends -/

/-- Every answer that the delivery gets is one that the gateway gave to this request in this run. -/
def AnsweredBy (cfg : Config) (kit : Kit) (g : Gateway) (es : List Event) (g' : Gateway) (r : Request)
    (d : Delivery) : Prop :=
  ∀ o ∈ d.dials, o.Answered → ∃ before e after conn u v answer, es = before ++ .request e :: after ∧
    Run (step cfg kit) Free g before u ∧ step cfg kit u (.request e) = some v ∧
    Run (step cfg kit) Free v after g' ∧ Verdicts.StepOf u.adapter e r ∧
    v.adapter.answers = (conn, answer) :: u.adapter.answers ∧ o = Verdicts.dialed answer

theorem run_coupled (hg : Coupled g) (h : Run (step cfg kit) Free g es g') : Coupled g' :=
  h.invariant (fun _ _ _ hg _ hstep => step_coupled hg hstep) hg

theorem run_guarded (h : Run (step cfg kit) Free g es g') :
    Run (step cfg kit) (Guarded Free) g es g' :=
  h.mono fun _ e _ => by cases e <;> trivial

/-- For the intake it is an answer in a run of its own. -/
theorem AnsweredBy.intake {d : Delivery} (hg : Coupled g) (h : AnsweredBy cfg kit g es g' r d)
    {o : DialOutcome} (ho : o ∈ d.dials) (hanswered : o.Answered) :
    ∃ fs u v answer, Verdicts.Answering cfg kit g.adapter fs g'.adapter r u v answer ∧
      o = Verdicts.dialed answer := by
  obtain ⟨before, e, after, conn, u, v, answer, -, hbefore, hstep, hafter, hof, hanswer, heq⟩ :=
    h o ho hanswered
  have hu := run_coupled hg hbefore
  obtain ⟨fs, hfs, -⟩ := gateway_intake (fun _ => trivial) hg (run_guarded hbefore)
  obtain ⟨fs', hfs', -⟩ := gateway_intake (fun _ => trivial) (step_coupled hu hstep)
    (run_guarded hafter)
  exact ⟨fs ++ e :: fs', u.adapter, v.adapter, answer,
    ⟨fs, e, fs', conn, rfl, hfs, (step_request hstep).2.1, hfs', hof, hanswer⟩, heq⟩

variable {env : Env} {args kwargs : List (String × Json)} {w : World} {mail : Mail}
  {session fromSession : Option String} {key timestamp : String} {pen : Pen} {post : Post}
  {exceptionToReason : Exc → String} {budget : Budget} {net : Net} {allowLoopback : Bool} {url : String}
  {signature : Except PyError String}

/-- What was delivered has been taken in. -/
theorem taken_in (h0 : Start g.adapter) (hg : Coupled g) {d : Delivery}
    (hcall : deliverWebhook exceptionToReason budget net allowLoopback url signature = .ok d)
    (hid : d.deliveryId ≠ .null) (hanswers : AnsweredBy cfg kit g es g' r d) :
    ∃ msgId, Verdicts.Carries kit (requestText kit r) msgId ∧
      ∃ a ∈ g'.adapter.accepted, a.messageId = msgId := by
  obtain ⟨o, ho, hlanded, -⟩ := Verdicts.deliveryId_of_dial hcall hid
  obtain ⟨fs, u, v, answer, hanswering, rfl⟩ := hanswers.intake hg ho hlanded.answered
  obtain ⟨msgId, hcarries, htaken, -⟩ := hanswering.landed h0 hlanded
  exact ⟨msgId, hcarries, htaken⟩

/-- The turns of one id are as many as the messages that were taken in under it. -/
theorem filter_served {accepted : List Accepted} {messages : List MessageEvent}
    (h : List.Forall₂ (Shows cfg kit) accepted messages) (msgId : String) :
    (messages.filter fun event => event.messageId = msgId).length =
      (accepted.filter fun a => a.messageId = msgId).length := by
  induction h with
  | nil => rfl
  | @cons a event accepted messages hshow _ ih =>
    obtain ⟨parsed, hbecame⟩ := hshow
    have hid : event.messageId = a.messageId := by
      rw [(buildEvent_ok hbecame.event).1, hbecame.id]
    rw [List.filter_cons, List.filter_cons, hid]
    split_ifs
    · rw [List.length_cons, List.length_cons, ih]
    · exact ih

theorem exists_shows {accepted : List Accepted} {messages : List MessageEvent}
    (h : List.Forall₂ (Shows cfg kit) accepted messages) {event : MessageEvent}
    (hmem : event ∈ messages) : ∃ a ∈ accepted, Shows cfg kit a event := by
  induction h with
  | nil => cases hmem
  | @cons a event' accepted messages hshow _ ih =>
    rcases List.mem_cons.mp hmem with rfl | hmem
    · exact ⟨a, List.mem_cons_self, hshow⟩
    · obtain ⟨b, hb, hshow⟩ := ih hmem
      exact ⟨b, List.mem_cons_of_mem _ hb, hshow⟩

theorem buildEvent_text {parsed : Parsed} {event : MessageEvent}
    (h : buildEvent cfg kit parsed = .ok event) :
    event.text = formatDisplayText parsed.sender parsed.bodyText parsed.action parsed.reply
      (if parsed.msgId = "" then [] else [parsed.msgId]) parsed.ref := by
  unfold buildEvent at h
  dsimp only at h
  split at h
  · obtain ⟨source, -, h⟩ := bind_ok h
    obtain rfl := Except.ok.inj h
    rfl
  · obtain rfl := Except.ok.inj h
    rfl

theorem roomy_take (s : Adapter) : Roomy cfg kit s .take := by
  intro t a hstep haccepted
  obtain rfl := Option.some.inj hstep
  exact absurd haccepted.symm (List.cons_ne_self _ _)

/-- One turn for one message, whoever delivered it: where it has been taken in at all, no other text
arrives under its id, and no two of the messages under it lie further apart than the window. -/
theorem shown_once {text : String} {parsed : Parsed}
    (hparse : parseEnvelope kit.valid kit.repr text = some parsed)
    (htaken : ∃ a ∈ g'.adapter.accepted, a.messageId = parsed.msgId) (hopen : Opened g)
    (h0 : Start g.adapter) (hrun : Run (step cfg kit) (Guarded (Roomy cfg kit)) g es g')
    (hown : ∀ conn r publicKey now, .request (.arrive conn r publicKey now) ∈ es →
      Verdicts.Carries kit (requestText kit r) parsed.msgId → requestText kit r = text)
    (hwindow : ∀ a ∈ Adapter.under g'.adapter parsed.msgId,
      ∀ b ∈ Adapter.under g'.adapter parsed.msgId, b.sweptAt - a.seenAt ≤ cfg.replayWindowTtl)
    (hloop : ∀ e ∈ es, e.cancelsLoop = false) (hrest : Processor.AtRest g'.processor) :
    ∃ a event outcome,
      g'.processor.served.filter (fun x => x.1.messageId = parsed.msgId) = [(event, outcome)] ∧
      Became cfg kit a parsed event := by
  have hfree : Run (step cfg kit) Free g es g' := hrun.mono fun _ _ _ => trivial
  obtain ⟨fs, hfs, hmem⟩ := gateway_intake roomy_take hopen.inTurn.coupled hrun
  have hshowing : Showing cfg kit g' :=
    hfree.invariant (fun _ _ _ h _ hstep => step_showing h hstep) (hopen.showing h0)
  obtain ⟨messages, harrived, hshows⟩ := hshowing.arrived
  obtain ⟨hturn, hu⟩ := run_uncancelled hopen hfree hloop
  have hserved := hturn.all_served hu hrest harrived
  -- one was taken in under the id
  have hone : (Adapter.under g'.adapter parsed.msgId).length = 1 := by
    refine le_antisymm ((Verdicts.run_spaced h0 hfs).once hwindow) ?_
    obtain ⟨a, ha, hid⟩ := htaken
    exact List.length_pos_of_mem (List.mem_filter.mpr ⟨ha, decide_eq_true hid⟩)
  have hcount : (g'.processor.served.filter fun x => x.1.messageId = parsed.msgId).length = 1 := by
    have hmap : (g'.processor.served.filter fun x => x.1.messageId = parsed.msgId).map Prod.fst =
        messages.filter fun event => event.messageId = parsed.msgId := by
      rw [← hserved, List.filter_map]
      rfl
    have hlength := congrArg List.length hmap
    rw [List.length_map, filter_served hshows, List.filter_reverse, List.length_reverse] at hlength
    exact hlength.trans hone
  obtain ⟨⟨event, outcome⟩, hturns⟩ := List.length_eq_one_iff.mp hcount
  have hin : (event, outcome) ∈ g'.processor.served.filter fun x => x.1.messageId = parsed.msgId := by
    rw [hturns]
    exact List.mem_singleton_self _
  obtain ⟨hin, hid⟩ := List.mem_filter.mp hin
  have hmessage : event ∈ messages := by
    rw [← hserved]
    exact List.mem_map_of_mem hin
  obtain ⟨a, ha, parsed', hbecame⟩ := exists_shows hshows hmessage
  refine ⟨a, event, outcome, hturns, ?_⟩
  -- and what was taken in is what was written
  obtain ⟨conn, publicKey, now, harrive⟩ :=
    (run_came h0 (hfs.mono fun _ _ _ => trivial)).accepted a (List.mem_reverse.mp ha)
  have hmsgId : parsed'.msgId = parsed.msgId :=
    (buildEvent_ok hbecame.event).1.symm.trans (of_decide_eq_true hid)
  have hwritten := hown conn a.request publicKey now (hmem _ harrive rfl)
    ⟨parsed', hbecame.envelope, hmsgId.symm⟩
  have henvelope := hbecame.envelope
  rw [hwritten, hparse] at henvelope
  obtain rfl := Option.some.inj henvelope
  exact hbecame

/-- The event of a message shows it as it was written, and names its sender. -/
theorem shows_mail {a : Accepted} {event : MessageEvent} (hne : mail.taskId ≠ "")
    (h : Became cfg kit a (mail.parsed session fromSession) event) :
    event.text = formatDisplayText mail.self (String.ofList (mail.message.toList.dropWhile isSpace))
        mail.action mail.reply [mail.taskId] mail.ref ∧
      Attributed mail.self event.source := by
  refine ⟨?_, (buildEvent_routed h.event).1⟩
  rw [buildEvent_text h.event, if_neg (by exact hne)]
  rfl

/-- **What is delivered is shown.** Let a `mesh_send` report a delivery, and every answer that it got be
one that the gateway of the recipient gave to its request. Let no other message arrive there under its
id, nor this one for longer than the replay window, and let the seen-id table never evict for want of
room. Then, at rest, the gateway has given the message one turn, not none and not two, however often it
was sent: its event shows the agent the message as it was written, and names its sender. -/
theorem delivered_is_shown (hsent : Completes env args kwargs w mail session fromSession url)
    (hlegible : Legible env pen kit mail (mail.padded session fromSession))
    (hpost : compose pen key timestamp (env.wire mail (mail.padded session fromSession) url) = .ok post)
    (hopen : Opened g) (h0 : Start g.adapter)
    (hrun : Run (step cfg kit) (Guarded (Roomy cfg kit)) g es g')
    (hanswers : ∀ d, env.post env.net env.signature url = .ok d →
      AnsweredBy cfg kit g es g' post.received d)
    (hown : ∀ conn r publicKey now, .request (.arrive conn r publicKey now) ∈ es →
      Verdicts.Carries kit (requestText kit r) mail.taskId →
        requestText kit r = mail.padded session fromSession)
    (hwindow : ∀ a ∈ Adapter.under g'.adapter mail.taskId, ∀ b ∈ Adapter.under g'.adapter mail.taskId,
      b.sweptAt - a.seenAt ≤ cfg.replayWindowTtl)
    (hloop : ∀ e ∈ es, e.cancelsLoop = false) (hrest : Processor.AtRest g'.processor) :
    ∃ event outcome,
      g'.processor.served.filter (fun x => x.1.messageId = mail.taskId) = [(event, outcome)] ∧
      event.text = formatDisplayText mail.self (String.ofList (mail.message.toList.dropWhile isSpace))
        mail.action mail.reply [mail.taskId] mail.ref ∧
      Attributed mail.self event.source := by
  obtain ⟨htext, hparse, hne⟩ := hsent.reads hlegible hpost
  obtain ⟨d, hd, hid⟩ := hsent.delivers
  obtain ⟨loopback, -, hcall⟩ := bind_ok hd
  obtain ⟨msgId, ⟨parsed, hparsed, rfl⟩, htaken⟩ :=
    taken_in h0 hopen.inTurn.coupled hcall hid (hanswers d hd)
  rw [htext, hparse] at hparsed
  obtain rfl := Option.some.inj hparsed
  obtain ⟨a, event, outcome, hturns, hbecame⟩ :=
    shown_once hparse htaken hopen h0 hrun hown hwindow hloop hrest
  exact ⟨event, outcome, hturns, shows_mail hne hbecame⟩

/-! ### A message of zero's -/

/-- What a gateway of zero's makes of these arguments, for a recipient who reads with this kit. -/
structure Written (env : Env) (args : List (String × Json)) (kit : Kit) (text : String)
    (mail : Mail) : Prop where
  prepared : ∃ w₀, prepare env args [] emptyWorld = (.ok mail, w₀)
  sessions : sessions env mail = .ok (none, none)
  self : mail.self = "zero"
  padded : mail.padded none none = text
  legible : Legible env plainPen kit mail (mail.padded none none)

def isWritten (env : Env) (text : String) (mail : Mail) : Bool :=
  mail.self = "zero" ∧ mail.agent = "vera" ∧ mail.padded none none = text ∧
    (sessions env mail).toOption = some (none, none)

theorem ok_of_toOption {ε α : Type} {result : Except ε α} {out : α} (h : result.toOption = some out) :
    result = .ok out := by
  cases result with
  | error e => cases h
  | ok out' => exact congrArg _ (Option.some.inj h)

theorem exists_written {text body : String} {has : Mail → Bool} (hkit : kit.valid = nameToken)
    (hvalid : env.valid = nameToken) (htokens : env.Tokens (Bracketless env.valid))
    (hdumps : plainPen.dumps [("from", .str "zero"), ("text", .str text)] = body)
    (hloads : kit.loads body = .ok (.obj [("from", .str "zero"), ("text", .str text)]))
    (hread : (prepare env args [] emptyWorld).1.toOption.map
      (fun mail => (isWritten env text mail, has mail)) = some (true, true)) :
    ∃ mail, Written env args kit text mail ∧ has mail = true := by
  generalize hprep : prepare env args [] emptyWorld = p at hread
  obtain ⟨stop | mail, w₀⟩ := p
  · cases hread
  obtain ⟨hwritten, hhas⟩ := Prod.mk.inj (Option.some.inj hread)
  obtain ⟨hself, hagent, hpadded, hsessions⟩ := of_decide_eq_true hwritten
  refine ⟨mail, ⟨⟨w₀, hprep⟩, ok_of_toOption hsessions, hself, hpadded,
    ascii_of_all (by rw [hagent]; decide), ascii_of_all (by rw [hself]; decide),
    hkit.trans hvalid.symm, htokens, ?_⟩, hhas⟩
  rw [hself, hpadded, hdumps]
  exact hloads

theorem Written.completes {text : String} (h : Written env args kit text mail)
    (hurl : env.target mail.agent = .ok (.ok url))
    (hstate : (handleMeshSend env args [] emptyWorld).1.toOption.map Response.state =
      some (some "completed")) : Completes env args [] emptyWorld mail none none url := by
  obtain ⟨resp, hresp, hstate⟩ := Option.map_eq_some_iff.mp hstate
  exact ⟨h.prepared, h.sessions, hurl, resp, _, Prod.ext (ok_of_toOption hresp) rfl, hstate⟩

/-- The request that it is sent in. -/
theorem received_written {wire : Wire} {text body : String}
    (hdumps : plainPen.dumps [("from", .str "zero"), ("text", .str text)] = body)
    (htext : wire.text = text) (hsender : wire.sender = "zero") (hheaders : wire.headers = [])
    (hsigns : wire.signTimestamp = true) (hpost : compose plainPen "key" "1000" wire = .ok post) :
    post.received = ⟨"1000", "key:1000\n" ++ body, false, body⟩ := by
  obtain ⟨signature, hsign, hreceived⟩ := compose_received false hheaders hpost
  have hpayload : wire.payload = [("from", .str "zero"), ("text", .str text)] := by
    unfold Wire.payload Wire.from_
    rw [hsender, htext, if_neg (by decide)]
  obtain rfl := Except.ok.inj hsign
  rw [hreceived, hpayload, hdumps]
  unfold Wire.signedBody
  rw [hsigns, if_pos rfl]
  have hsigned : "key" ++ ":" ++ ("1000" ++ "\n" ++ body) = "key:1000\n" ++ body := by
    rw [← String.append_assoc, ← String.append_assoc]
    exact congrArg (· ++ body) (by decide)
  exact congrArg (Request.mk "1000" · false body) hsigned

/-! ### Good news from zero -/

/-- A gateway of zero's whose messages are taken in. -/
def zeroSends : Env :=
  { zeroDown with
    net := onePeer 1 fun _ => Verdicts.dialed (.ok ⟨202, Verdicts.acceptedBody "t1", none⟩) }

/-- A kit that can read the good news and the clock. -/
def newsKit : Kit := { lookAlikeKit with float := fun text => if text = "1000" then some 1000 else none }

def news : Request where
  timestamp := "1000"
  signature := "key:1000\n" ++ lookAlikeBody
  body := lookAlikeBody

def newsArrives : Event := .request (.arrive 0 news (fun _ => "key") 1000)

def newsResumes : Event := .request (.resume 0 { rateAt := 1000, seenAt := 1000, sweptAt := 1000 })

/-- The turn of the message. -/
def newsTurn : List Event :=
  [.processor .run, .processor (.turn (.begin_ false)), .processor (.turn (.recovered .session)),
    .processor (.turn (.sessionEnds .returned)), .processor (.turn .wake), .processor .run]

/-- There is room in the seen-id table. -/
def roomy (g : Gateway) (_ : Event) : Bool := hasRoom g.adapter .take

theorem roomy_guarded (h : roomy g e = true) : Guarded (Roomy vera kit) g e := by
  cases e with
  | request e => exact roomy_of_hasRoom h
  | processor e => trivial

/-- The answer that vera's gateway gives to the news. -/
theorem news_answered {u v : Gateway}
    (hbefore : Run (step vera newsKit) Free ⟨freshAdapter, {}⟩ [newsArrives] u)
    (hstep : step vera newsKit u newsResumes = some v) :
    Verdicts.StepOf u.adapter (.resume 0 { rateAt := 1000, seenAt := 1000, sweptAt := 1000 }) news ∧
      v.adapter.answers =
        (0, .ok ⟨202, Verdicts.acceptedBody "t1", none⟩) :: u.adapter.answers := by
  have hanswers : (exec (step vera newsKit) ⟨freshAdapter, {}⟩ [newsArrives]).bind (fun u =>
      (step vera newsKit u newsResumes).map fun v =>
        ((u.adapter.waiting 0).map (·.request), u.adapter.answers.length,
          v.adapter.answers.map fun answer => (answer.1, answer.2.toOption.map (·.status)))) =
      some (some news, 0, [(0, some 202)]) := by
    decide +kernel
  rw [hbefore.exec_eq, Option.bind_some, hstep, Option.map_some] at hanswers
  simp only [Option.some.injEq, Prod.mk.injEq, List.length_eq_zero_iff] at hanswers
  obtain ⟨hwaits, hnone, hanswered⟩ := hanswers
  obtain ⟨p, hp, hrequest⟩ := Option.map_eq_some_iff.mp hwaits
  have hof : Verdicts.StepOf u.adapter
      (.resume 0 { rateAt := 1000, seenAt := 1000, sweptAt := 1000 }) news := ⟨p, hp, hrequest⟩
  refine ⟨hof, ?_⟩
  obtain ⟨⟨conn, answer⟩, rest, hv, hanswer, hrest⟩ := List.map_eq_cons_iff.mp hanswered
  obtain rfl := List.map_eq_nil_iff.mp hrest
  obtain ⟨rfl, hstatus⟩ := Prod.mk.inj hanswer
  cases answer with
  | error e => cases hstatus
  | ok answer =>
    rw [hnone, hv]
    have hchecked : Checked vera newsKit u.adapter := by
      have hstart : Showing vera newsKit ⟨freshAdapter, {}⟩ :=
        Opened.showing ⟨rfl, rfl, rfl⟩ freshAdapter_start
      exact (hbefore.invariant (fun _ _ _ h _ hstep => step_showing h hstep) hstart).checked
    have hreport := Verdicts.step_report hchecked (step_request hstep).2.1
      (by rw [hnone, hv]) hof
    obtain ⟨msgId, ⟨parsed, hparsed, rfl⟩, rfl⟩ := hreport.of_accepted (Option.some.inj hstatus)
    have hparses : (parseEnvelope newsKit.valid newsKit.repr (requestText newsKit news)).map
        (·.msgId) = some "t1" := by
      decide +kernel
    rw [hparsed] at hparses
    have hid : parsed.msgId = "t1" := Option.some.inj hparses
    rw [hid]

/-- The run of vera's gateway, and the step of it that answers. -/
theorem news_run : ∃ g' u v, Run (step vera newsKit) (Guarded (Roomy vera newsKit)) ⟨freshAdapter, {}⟩
      (newsArrives :: newsResumes :: newsTurn) g' ∧
    Run (step vera newsKit) Free ⟨freshAdapter, {}⟩ [newsArrives] u ∧
    step vera newsKit u newsResumes = some v ∧ Run (step vera newsKit) Free v newsTurn g' ∧
    Verdicts.StepOf u.adapter (.resume 0 { rateAt := 1000, seenAt := 1000, sweptAt := 1000 }) news ∧
    v.adapter.answers = (0, .ok ⟨202, Verdicts.acceptedBody "t1", none⟩) :: u.adapter.answers ∧
    Processor.AtRest g'.processor ∧
    ∀ a ∈ Adapter.under g'.adapter "t1", ∀ b ∈ Adapter.under g'.adapter "t1",
      b.sweptAt - a.seenAt ≤ vera.replayWindowTtl := by
  have hends : (exec (checked roomy (step vera newsKit)) ⟨freshAdapter, {}⟩
      (newsArrives :: newsResumes :: newsTurn)).map (fun g =>
        (g.processor.run.isNone, g.processor.loop.current.length,
          (Adapter.under g.adapter "t1").all fun a => (Adapter.under g.adapter "t1").all fun b =>
            b.sweptAt - a.seenAt ≤ vera.replayWindowTtl)) = some (true, 0, true) := by
    decide +kernel
  obtain ⟨g', hg', hends⟩ := Option.map_eq_some_iff.mp hends
  simp only [Prod.mk.injEq, Option.isNone_iff_eq_none, List.length_eq_zero_iff] at hends
  obtain ⟨hidle, hcurrent, hwindow⟩ := hends
  have hrun : Run (step vera newsKit) (Guarded (Roomy vera newsKit)) ⟨freshAdapter, {}⟩
      (newsArrives :: newsResumes :: newsTurn) g' :=
    (run_of_checked hg').mono fun _ _ h => roomy_guarded h
  have hfree : Run (step vera newsKit) Free ⟨freshAdapter, {}⟩
      ([newsArrives] ++ newsResumes :: newsTurn) g' := hrun.mono fun _ _ _ => trivial
  obtain ⟨u, v, hbefore, -, hstep, hafter⟩ := hfree.split
  obtain ⟨hof, hanswers⟩ := news_answered hbefore hstep
  refine ⟨g', u, v, hrun, hbefore, hstep, hafter, hof, hanswers, ⟨hidle, ?_⟩, ?_⟩
  · intro message task hserving
    rw [hserving] at hcurrent
    cases hcurrent
  · intro a ha b hb
    exact of_decide_eq_true (List.all_eq_true.mp (List.all_eq_true.mp hwindow a ha) b hb)

/-- What a gateway of zero's makes of the news. -/
structure News (env : Env) (mail : Mail) : Prop extends
    Written env lookAlike newsKit lookAlikeText mail where
  taskId : mail.taskId = "t1"
  message : String.ofList (mail.message.toList.dropWhile isSpace) = "[ref:m7] up"
  choices : mail.action = .info ∧ mail.reply = .no ∧ mail.ref = none

def isNews (mail : Mail) : Bool :=
  mail.taskId = "t1" ∧ String.ofList (mail.message.toList.dropWhile isSpace) = "[ref:m7] up" ∧
    mail.action = .info ∧ mail.reply = .no ∧ mail.ref = none

theorem news_dumps : plainPen.dumps [("from", .str "zero"), ("text", .str lookAlikeText)] =
    lookAlikeBody := by
  decide +kernel

theorem exists_news (hvalid : env.valid = nameToken) (htokens : env.Tokens (Bracketless env.valid))
    (hread : (prepare env lookAlike [] emptyWorld).1.toOption.map
      (fun mail => (isWritten env lookAlikeText mail, isNews mail)) = some (true, true)) :
    ∃ mail, News env mail := by
  have hwrites : ∃ mail, Written env lookAlike newsKit lookAlikeText mail ∧ isNews mail = true :=
    exists_written rfl hvalid htokens news_dumps lookAlike_loads hread
  obtain ⟨mail, hwritten, hnews⟩ := hwrites
  obtain ⟨htaskId, hmessage, hchoices⟩ := of_decide_eq_true hnews
  exact ⟨mail, hwritten, htaskId, hmessage, hchoices⟩

/-- Nothing but the news arrives. -/
theorem only_news {conn : ℕ} {publicKey : String → String} {now : Time}
    (h : Event.request (.arrive conn r publicKey now) ∈ newsArrives :: newsResumes :: newsTurn) :
    r = news := by
  have hr : conn = 0 ∧ r = news ∧ publicKey = (fun _ => "key") ∧ now = 1000 := by
    simpa [newsArrives, newsResumes, newsTurn] using h
  exact hr.2.1

theorem delivered_is_shown_news : ∃ mail g' event outcome,
    Completes zeroSends lookAlike [] emptyWorld mail none none "http://peer" ∧
    Run (step vera newsKit) Free ⟨freshAdapter, {}⟩ (newsArrives :: newsResumes :: newsTurn) g' ∧
    g'.processor.served.filter (fun x => x.1.messageId = "t1") = [(event, outcome)] ∧
    event.text = formatDisplayText "zero" "[ref:m7] up" .info .no ["t1"] none ∧
    Attributed "zero" event.source := by
  obtain ⟨mail, hnews⟩ : ∃ mail, News zeroSends mail := exists_news rfl
    ⟨zeroDown_tokens.valid, zeroDown_tokens.coerce, zeroDown_tokens.uuid, zeroDown_tokens.uuid_ne⟩
    (by decide +kernel)
  have hsent : Completes zeroSends lookAlike [] emptyWorld mail none none "http://peer" :=
    hnews.toWritten.completes rfl (by decide +kernel)
  obtain ⟨post, hpost⟩ : ∃ post, compose plainPen "key" "1000"
      (zeroSends.wire mail (mail.padded none none) "http://peer") = .ok post := ⟨_, rfl⟩
  have hreceived : post.received = news :=
    received_written news_dumps hnews.padded hnews.self rfl rfl hpost
  obtain ⟨g', u, v, hrun, hbefore, hstep, hafter, hof, hanswer, hrest, hwindow⟩ := news_run
  obtain ⟨event, outcome, hturns, hshown, hattributed⟩ :=
    delivered_is_shown hsent hnews.legible hpost ⟨rfl, rfl, rfl⟩ freshAdapter_start hrun
      (fun d hd o ho _ => by
        obtain ⟨loopback, -, hcall⟩ := bind_ok hd
        obtain ⟨index, ip, rfl⟩ := Verdicts.mem_dials hcall ho
        rw [hreceived]
        exact ⟨[newsArrives], _, newsTurn, 0, u, v, _, rfl, hbefore, hstep, hafter, hof, hanswer, rfl⟩)
      (fun conn r publicKey now harrives _ => by
        rw [only_news harrives, ← hreceived]
        exact (hsent.reads hnews.legible hpost).1)
      (by rw [hnews.taskId]; exact hwindow) (by decide) hrest
  obtain ⟨haction, hreply, href⟩ := hnews.choices
  refine ⟨mail, g', event, outcome, hsent, hrun.mono fun _ _ _ => trivial, ?_, ?_, ?_⟩
  · rw [← hnews.taskId, hturns]
  · rw [hshown, hnews.self, hnews.message, haction, hreply, hnews.taskId, href]
  · rw [← hnews.self]
    exact hattributed

end HermesMesh.Turns
