import HermesMesh.ReplayWindow

/-!
# What reaches the inbox

A request is judged in two places: some of it as it arrives, the rest when its signature has been
verified, with any other requests in between. `Arrived` ties a waiting request to the arrival it
comes from, so that both halves can be told of the request whose event goes into the inbox
(`inbox_vetted`). A verified request carries a timestamp and a body that its sender signed together
(`verified_pair`), although the signature may be checked over the body alone.
-/

namespace HermesMesh.Intake

open Lib

variable {cfg : Config} {kit : Kit} {meets : Meets} {p : Pending} {parsed : Parsed}
  {s t : Adapter} {e : Event} {conn : ℕ} {r : Request} {publicKey : String → String} {now : Time}
  {es : List Event}

/-! ## From the socket to the verification -/

/-- What is known of a request that waits: the vault was read for the name its body gives, and its
timestamp was compared with the clock. -/
structure Received (cfg : Config) (kit : Kit) (publicKey : String → String) (now : Time)
    (p : Pending) : Prop where
  body : ∃ fields raw name, kit.loads p.request.body = .ok (.obj fields) ∧
    Json.get "from" fields = .str raw ∧ validateAgentName kit.repr raw = .ok name ∧
    p.sender = .str name ∧ (p.stage = .signed (publicKey name) ∨ p.stage = .bare (publicKey name))
  timely : ∃ ts, kit.float p.request.timestamp = some ts ∧ |now - ts| ≤ cfg.replayWindowTtl

theorem Received.bare {key : String} (h : Received cfg kit publicKey now p)
    (hstage : p.stage = .signed key) :
    Received cfg kit publicKey now { p with stage := .bare key } := by
  obtain ⟨⟨fields, raw, name, hloads, hraw, hname, hsender, hkey⟩, htimely⟩ := h
  refine ⟨⟨fields, raw, name, hloads, hraw, hname, hsender, .inr ?_⟩, htimely⟩
  rw [hstage] at hkey
  rcases hkey with hkey | hkey
  · exact congrArg Stage.bare (Stage.signed.inj hkey)
  · cases hkey

theorem openVerification_some {sender : Json} {name key : String}
    (h : openVerification kit publicKey sender = some (name, key)) :
    ∃ raw, sender = .str raw ∧ validateAgentName kit.repr raw = .ok name ∧ key = publicKey name := by
  unfold openVerification at h
  split at h
  · rename_i raw
    split at h
    · rename_i found hfound
      split_ifs at h
      obtain ⟨rfl, rfl⟩ := Prod.mk.inj (Option.some.inj h)
      exact ⟨raw, rfl, hfound, rfl⟩
    · cases h
  · cases h

theorem validTimestamp_iff {ttl : Time} {timestamp : String} :
    validTimestamp kit ttl now timestamp = true ↔
      ∃ ts, kit.float timestamp = some ts ∧ |now - ts| ≤ ttl := by
  unfold validTimestamp
  cases kit.float timestamp with
  | none => simp
  | some ts => simp

theorem receive_received (hauth : cfg.insecure = false)
    (h : receive cfg kit publicKey now r = .ok (.inr p)) :
    p.request = r ∧ Received cfg kit publicKey now p := by
  obtain ⟨fields, hloads, hvalid, rfl, -, hrest⟩ := receive_waits h
  rcases hrest with ⟨hinsecure, -⟩ | ⟨-, name, key, hopen, hsender, hstage⟩
  · cases hauth.symm.trans hinsecure
  · obtain ⟨raw, hraw, hname, rfl⟩ := openVerification_some hopen
    exact ⟨rfl, ⟨fields, raw, name, hloads, hraw, hname, hsender, .inl hstage⟩,
      validTimestamp_iff.mp hvalid⟩

/-- A step of a waiting request ends its wait, or begins the second verification. -/
theorem resume_waiting (cfg : Config) (kit : Kit) (conn : ℕ) (meets : Meets) (p : Pending)
    (s : Adapter) :
    ∃ waits, (resume cfg kit conn meets p s).waiting = Function.update s.waiting conn waits ∧
      (waits = none ∨
        ∃ key, p.stage = .signed key ∧ waits = some { p with stage := .bare key }) := by
  have hfinish : ((takeIn cfg kit meets p s).2.answer conn (takeIn cfg kit meets p s).1).waiting =
      Function.update s.waiting conn none := by
    rw [← (takeIn_cases cfg kit meets p s).1]
    rfl
  unfold resume
  cases hstage : p.stage with
  | ready => exact ⟨none, hfinish, .inl rfl⟩
  | signed key =>
    dsimp only
    split
    · exact ⟨none, hfinish, .inl rfl⟩
    · exact ⟨_, rfl, .inr ⟨key, rfl, rfl⟩⟩
    · exact ⟨none, rfl, .inl rfl⟩
  | bare key =>
    dsimp only
    split
    · exact ⟨none, hfinish, .inl rfl⟩
    · exact ⟨none, rfl, .inl rfl⟩

/-! ## The arrival behind a waiting request -/

/-- The event is an arrival on this connection. -/
def Event.arrivesOn (conn : ℕ) : Event → Prop
  | .arrive conn' _ _ _ => conn' = conn
  | _ => False

/-- The request `p` on `conn` has arrived, it is the last one that did so, and is known from then
on. -/
def ArrivedOn (cfg : Config) (kit : Kit) (es : List Event) (conn : ℕ) (p : Pending) : Prop :=
  ∃ before after publicKey now, es = before ++ .arrive conn p.request publicKey now :: after ∧
    (∀ e ∈ after, ¬ e.arrivesOn conn) ∧ Received cfg kit publicKey now p

/-- Every waiting request has arrived. -/
def Arrived (cfg : Config) (kit : Kit) (es : List Event) (s : Adapter) : Prop :=
  ∀ conn p, s.waiting conn = some p → ArrivedOn cfg kit es conn p

theorem ArrivedOn.append (h : ArrivedOn cfg kit es conn p) (he : ¬ e.arrivesOn conn) :
    ArrivedOn cfg kit (es ++ [e]) conn p := by
  obtain ⟨before, after, publicKey, now, rfl, hafter, hreceived⟩ := h
  refine ⟨before, after ++ [e], publicKey, now, by simp, ?_, hreceived⟩
  intro e' he'
  rcases List.mem_append.mp he' with he' | he'
  · exact hafter e' he'
  · rwa [List.mem_singleton.mp he']

theorem ArrivedOn.bare {key : String} (h : ArrivedOn cfg kit es conn p)
    (hstage : p.stage = .signed key) : ArrivedOn cfg kit es conn { p with stage := .bare key } := by
  obtain ⟨before, after, publicKey, now, hes, hafter, hreceived⟩ := h
  exact ⟨before, after, publicKey, now, hes, hafter, hreceived.bare hstage⟩

theorem Arrived.update (h : Arrived cfg kit es s) (waits : Option Pending)
    (he : ∀ conn', conn' ≠ conn → ¬ e.arrivesOn conn')
    (hwaits : ∀ p, waits = some p → ArrivedOn cfg kit (es ++ [e]) conn p)
    (ht : t.waiting = Function.update s.waiting conn waits) : Arrived cfg kit (es ++ [e]) t := by
  intro conn' p hp
  rw [ht] at hp
  rcases update_eq_some hp with ⟨rfl, hset⟩ | ⟨hconn, hold⟩
  · exact hwaits p hset
  · exact (h conn' p hold).append (he conn' hconn)

theorem step_arrived (hauth : cfg.insecure = false) (h : Arrived cfg kit es s)
    (hstep : step cfg kit s e = some t) : Arrived cfg kit (es ++ [e]) t := by
  cases e with
  | arrive conn request publicKey now =>
    have he : ∀ conn', conn' ≠ conn → ¬ (Event.arrive conn request publicKey now).arrivesOn conn' :=
      fun conn' hne heq => hne heq.symm
    rcases (step_arrive hstep).2 with ⟨p, hreceive, rfl⟩ | ⟨answer, -, rfl⟩
    · obtain ⟨hrequest, hreceived⟩ := receive_received hauth hreceive
      refine h.update (some p) he ?_ rfl
      intro q hq
      obtain rfl := Option.some.inj hq
      subst hrequest
      exact ⟨es, [], publicKey, now, rfl, fun _ h => absurd h List.not_mem_nil, hreceived⟩
    · exact h.update none he nofun rfl
  | resume conn meets =>
    obtain ⟨p, hp, hstep⟩ := Option.bind_eq_some_iff.mp hstep
    split_ifs at hstep with hclock
    obtain rfl := Option.some.inj hstep
    obtain ⟨waits, hwaiting, hwaits⟩ :=
      resume_waiting cfg kit conn meets p { s with clock := meets.sweptAt }
    refine h.update waits (fun _ _ => id) ?_ hwaiting
    rintro q rfl
    rcases hwaits with hnone | ⟨key, hstage, hq⟩
    · cases hnone
    · obtain rfl := Option.some.inj hq
      exact ((h conn p hp).append id).bare hstage
  | take =>
    obtain rfl := Option.some.inj hstep
    exact fun conn p hp => (h conn p hp).append id
  | closedElsewhere file =>
    obtain rfl := Option.some.inj hstep
    exact fun conn p hp => (h conn p hp).append id

theorem run_arrived {s₀ : Adapter} (hauth : cfg.insecure = false)
    (h0 : ∀ conn, s₀.waiting conn = none) (hrun : Run (step cfg kit) Free s₀ es s) :
    Arrived cfg kit es s :=
  hrun.history (fun _ _ _ _ h _ hstep => step_arrived hauth h hstep) fun conn p hp => by
    rw [h0 conn] at hp
    cases hp

theorem run_checked {s₀ : Adapter} (h0 : ∀ conn, s₀.waiting conn = none)
    (hrun : Run (step cfg kit) Free s₀ es s) : Checked cfg kit s :=
  hrun.invariant (fun _ _ _ h _ hstep => (step_cases h hstep).1) fun conn p hp => by
    rw [h0 conn] at hp
    cases hp

/-! ## What the inbox takes -/

/-- Everything that holds of a request whose event goes into the inbox: the vault was read as
`publicKey` when the clock showed `now`, and the step leads from `s` to `t`. -/
structure Vetted (cfg : Config) (kit : Kit) (r : Request) (publicKey : String → String) (now : Time)
    (meets : Meets) (parsed : Parsed) (s t : Adapter) : Prop where
  envelope : parseEnvelope kit.valid kit.repr (requestText kit r) = some parsed
  /-- The sender of the envelope is the name that the body gives, and the signature is good under
  the key of that name. -/
  signed : ∃ fields raw, kit.loads r.body = .ok (.obj fields) ∧ Json.get "from" fields = .str raw ∧
    validateAgentName kit.repr raw = .ok parsed.sender ∧
    (kit.verify (publicKey parsed.sender) (r.timestamp ++ "\n" ++ r.body) r.signature = .ok true ∨
      kit.verify (publicKey parsed.sender) r.body r.signature = .ok true)
  recipient : parsed.recipient = cfg.agentName
  timely : ∃ ts, kit.float r.timestamp = some ts ∧ |now - ts| ≤ cfg.replayWindowTtl
  unseen : s.seen.lookup parsed.msgId = none
  recorded : t.seen = expireSeenMessages cfg meets.sweptAt (s.seen ++ [(parsed.msgId, meets.seenAt)])
  /-- The sweep that follows leaves the id there, unless there is no room at all or the clock has
  jumped over the window. -/
  remembered : 0 < cfg.replayWindowSize → meets.sweptAt - meets.seenAt ≤ cfg.replayWindowTtl →
    (t.seen.lookup parsed.msgId).isSome = true
  thread : parsed.ref = none ∨ r.isDsn = true ∨ parsed.reply = .end_ ∨
    (Threads.isClosed kit.valid meets.closedIo parsed.ref s.closed).1 = false

theorem lookup_expireSeenMessages {id : String} {seenAt sweptAt : Time} (seen : List (String × Time))
    (hsize : 0 < cfg.replayWindowSize) (htime : sweptAt - seenAt ≤ cfg.replayWindowTtl) :
    ((expireSeenMessages cfg sweptAt (seen ++ [(id, seenAt)])).lookup id).isSome = true := by
  have hkept : unexpired cfg.replayWindowTtl sweptAt (seen ++ [(id, seenAt)]) =
      unexpired cfg.replayWindowTtl sweptAt seen ++ [(id, seenAt)] := by
    unfold unexpired
    rw [List.filter_append, List.filter_cons_of_pos (by simpa using htime), List.filter_nil]
  have hmem : (id, seenAt) ∈ expireSeenMessages cfg sweptAt (seen ++ [(id, seenAt)]) := by
    unfold expireSeenMessages
    dsimp only
    rw [hkept, List.length_append, List.length_singleton, List.drop_append_of_le_length (by omega)]
    exact List.mem_append_right _ List.mem_cons_self
  rw [List.lookup_isSome_iff]
  exact ⟨_, hmem, beq_self_eq_true id⟩

theorem Received.verified (h : Received cfg kit publicKey now p) (hpass : p.passes kit) :
    ∃ fields raw name, kit.loads p.request.body = .ok (.obj fields) ∧
      Json.get "from" fields = .str raw ∧ validateAgentName kit.repr raw = .ok name ∧
      p.sender = .str name ∧
      (kit.verify (publicKey name) (p.request.timestamp ++ "\n" ++ p.request.body)
          p.request.signature = .ok true ∨
        kit.verify (publicKey name) p.request.body p.request.signature = .ok true) := by
  obtain ⟨fields, raw, name, hloads, hraw, hname, hsender, hstage⟩ := h.body
  refine ⟨fields, raw, name, hloads, hraw, hname, hsender, ?_⟩
  unfold Pending.passes Request.signedBody at hpass
  rcases hstage with hstage | hstage
  · rw [hstage] at hpass
    dsimp only at hpass
    split_ifs at hpass
    · exact .inr hpass
    · exact .inl hpass
  · rw [hstage] at hpass
    exact .inr hpass

theorem Takes.sender_eq (h : Takes cfg kit s e t conn meets p parsed)
    (hreceived : Received cfg kit publicKey now p) : p.sender = .str parsed.sender := by
  obtain ⟨fields, raw, name, -, -, hname, hsender, -⟩ := hreceived.body
  apply h.screened.sender
  rw [hsender]
  exact decide_eq_true (fits_agentName hname).1

/-- **Intake safety.** With authentication on, in every run from an adapter in any state in which no
request waits, a step that puts an event into the inbox goes on with a request that has arrived
before, and everything holds of it that the handler is to check. -/
theorem inbox_vetted {s₀ : Adapter} (hauth : cfg.insecure = false)
    (h0 : ∀ conn, s₀.waiting conn = none) (hrun : Run (step cfg kit) Free s₀ es s)
    (hstep : step cfg kit s e = some t) (hput : s.inbox.length < t.inbox.length) :
    ∃ conn meets r publicKey now before after parsed event,
      es = before ++ .arrive conn r publicKey now :: after ∧ (∀ e ∈ after, ¬ e.arrivesOn conn) ∧
      e = .resume conn meets ∧ Vetted cfg kit r publicKey now meets parsed s t ∧
      buildEvent cfg kit parsed = .ok event ∧ t.inbox = s.inbox ++ [event] := by
  obtain ⟨-, -, hrefuses | ⟨conn, meets, p, parsed, htakes⟩⟩ :=
    step_cases (run_checked h0 hrun) hstep
  · exact absurd hrefuses.inbox (not_le.mpr hput)
  · obtain ⟨before, after, publicKey, now, hes, hafter, hreceived⟩ :=
      run_arrived hauth h0 hrun conn p htakes.waits
    obtain ⟨fields, raw, name, hloads, hraw, hname, hsender, hverified⟩ :=
      hreceived.verified htakes.passes
    obtain ⟨event, hevent, hinbox⟩ := htakes.inbox
    have hchecked := run_checked h0 hrun conn p htakes.waits
    obtain rfl := Json.str.inj (hsender.symm.trans (htakes.sender_eq hreceived))
    refine ⟨conn, meets, p.request, publicKey, now, before, after, parsed, event, hes, hafter,
      htakes.event, ?_, hevent, hinbox⟩
    exact
      { envelope := hchecked.text ▸ htakes.screened.envelope
        signed := ⟨fields, raw, hloads, hraw, hname, hverified⟩
        recipient := htakes.screened.recipient
        timely := hreceived.timely
        unseen := htakes.unseen
        recorded := htakes.seen
        remembered := fun hsize htime => by
          rw [htakes.seen]
          exact lookup_expireSeenMessages s.seen hsize htime
        thread := htakes.screened.thread }

theorem inbox_vetted_notice :
    ∃ s t parsed, Run (step vera sampleKit) Free freshAdapter
        [.arrive 0 (signedNotice "1300" "m1") (fun _ => "key") 1000] s ∧
      Vetted vera sampleKit (signedNotice "1300" "m1") (fun _ => "key") 1000
        { rateAt := 1000, seenAt := 1000, sweptAt := 1000 } parsed s t := by
  have hends : ((exec (step vera sampleKit) freshAdapter
      [.arrive 0 (signedNotice "1300" "m1") (fun _ => "key") 1000]).bind fun s =>
        (step vera sampleKit s (.resume 0 { rateAt := 1000, seenAt := 1000, sweptAt := 1000 })).map
          fun t => decide (s.inbox.length < t.inbox.length)) = some true := by
    decide +kernel
  obtain ⟨s, hs, hends⟩ := Option.bind_eq_some_iff.mp hends
  obtain ⟨t, ht, hput⟩ := Option.map_eq_some_iff.mp hends
  obtain ⟨conn, meets, r, publicKey, now, before, after, parsed, event, hes, hafter, he, hvetted, -⟩ :=
    inbox_vetted rfl freshAdapter_start.waiting (run_of_exec hs) ht (of_decide_eq_true hput)
  cases he
  cases before with
  | nil =>
    cases (List.cons.inj hes).1
    exact ⟨s, t, parsed, run_of_exec hs, hvetted⟩
  | cons first before => exact absurd (List.cons.inj hes).2 (by simp)

/-! ## Timestamp and body together -/

/-- A text of the clock, `str(time.time())`. -/
def ClockText (text : String) : Prop :=
  '\n' ∉ text.toList ∧ ∃ c rest, text.toList = c :: rest ∧ (c.isDigit = true ∨ c = '-')

/-- What a run lets `sender`'s signatures say: each arrival brings a header of one line, and meets a
key of `sender` under which nothing verifies but what `sender` has signed, a timestamp and a body. -/
def OnlySigned (kit : Kit) (sender : String) (Signed : String → String → Prop) : Event → Prop
  | .arrive _ r publicKey _ => '\n' ∉ r.timestamp.toList ∧
      ∀ data signature, kit.verify (publicKey sender) data signature = .ok true →
        ∃ timestamp body, Signed timestamp body ∧ data = timestamp ++ "\n" ++ body
  | _ => True

theorem line_unique {a b x y : String} (ha : '\n' ∉ a.toList) (hb : '\n' ∉ b.toList)
    (h : a ++ "\n" ++ x = b ++ "\n" ++ y) : a = b ∧ x = y := by
  have hlist : a.toList ++ '\n' :: x.toList = b.toList ++ '\n' :: y.toList := by
    simpa using congrArg String.toList h
  have hto : ∀ l : List Char, '\n' ∉ l → ∀ rest,
      (l ++ '\n' :: rest).takeWhile (· ≠ '\n') = l := by
    intro l hl rest
    have hall : ∀ c ∈ l, decide (c ≠ '\n') = true := by
      intro c hc
      rw [decide_eq_true_iff]
      rintro rfl
      exact hl hc
    rw [List.takeWhile_append_of_pos hall]
    simp
  have hab := congrArg (List.takeWhile (· ≠ '\n')) hlist
  rw [hto _ ha, hto _ hb] at hab
  rw [hab] at hlist
  exact ⟨String.toList_injective hab,
    String.toList_injective (List.cons.inj (List.append_cancel_left hlist)).2⟩

/-- The sender that the envelope of a message names. -/
def Accepted.sender (kit : Kit) (a : Accepted) : Option String :=
  (parseEnvelope kit.valid kit.repr (requestText kit a.request)).map (·.sender)

variable {sender : String} {Signed : String → String → Prop}

/-- **One verified request.** Either of the two framings gives the pair that was signed: over
timestamp and body there is one way to read the bytes, and what is signed as a pair does not parse as
the JSON object that the body has to be. -/
theorem Received.signed_pair (hclock : ∀ timestamp body, Signed timestamp body → ClockText timestamp)
    (hloads : ∀ text c rest, text.toList = c :: rest → c.isDigit = true ∨ c = '-' →
      ∀ fields, kit.loads text ≠ .ok (.obj fields))
    (h : Received cfg kit publicKey now p)
    (honly : OnlySigned kit sender Signed (.arrive conn p.request publicKey now))
    (hsender : p.sender = .str sender) (hpass : p.passes kit) :
    Signed p.request.timestamp p.request.body := by
  obtain ⟨hheader, honly⟩ := honly
  obtain ⟨fields, raw, name, hobj, -, -, hname, hverified⟩ := h.verified hpass
  obtain rfl := Json.str.inj (hname.symm.trans hsender)
  rcases hverified with hverified | hverified
  · obtain ⟨timestamp, body, hsigned, hdata⟩ := honly _ _ hverified
    obtain ⟨htimestamp, hbody⟩ := line_unique hheader (hclock _ _ hsigned).1 hdata
    rwa [htimestamp, hbody]
  · obtain ⟨timestamp, body, hsigned, hdata⟩ := honly _ _ hverified
    obtain ⟨-, c, rest, hfirst, hdigit⟩ := hclock _ _ hsigned
    refine absurd hobj (hloads _ c (rest ++ '\n' :: body.toList) ?_ hdigit fields)
    rw [hdata]
    simp [hfirst]

/-- **Timestamp binding.** If nothing verifies under `sender`'s key but pairs of a clock text and a
body that `sender` signed, every request that is verified as coming from `sender`, and so every one
that is taken in, carries such a pair. -/
theorem verified_pair {s₀ : Adapter} (hauth : cfg.insecure = false)
    (h0 : ∀ conn, s₀.waiting conn = none) (hnone : s₀.accepted = [])
    (hclock : ∀ timestamp body, Signed timestamp body → ClockText timestamp)
    (hloads : ∀ text c rest, text.toList = c :: rest → c.isDigit = true ∨ c = '-' →
      ∀ fields, kit.loads text ≠ .ok (.obj fields))
    (hrun : Run (step cfg kit) (fun _ e => OnlySigned kit sender Signed e) s₀ es s) :
    (∀ conn p, s.waiting conn = some p → p.sender = .str sender → p.passes kit →
      Signed p.request.timestamp p.request.body) ∧
    ∀ a ∈ s.accepted, a.sender kit = some sender → Signed a.request.timestamp a.request.body := by
  have hwaiting : ∀ {es s}, Arrived cfg kit es s → (∀ e ∈ es, OnlySigned kit sender Signed e) →
      ∀ conn p, s.waiting conn = some p → p.sender = .str sender → p.passes kit →
        Signed p.request.timestamp p.request.body := by
    intro es s harrived honly conn p hp hsender hpass
    obtain ⟨before, after, publicKey, now, rfl, -, hreceived⟩ := harrived conn p hp
    exact hreceived.signed_pair hclock hloads
      (honly _ (List.mem_append_right before List.mem_cons_self)) hsender hpass
  have hhistory := hrun.history (I := fun es s => (Arrived cfg kit es s ∧ Checked cfg kit s) ∧
      (∀ e ∈ es, OnlySigned kit sender Signed e) ∧
      ∀ a ∈ s.accepted, a.sender kit = some sender → Signed a.request.timestamp a.request.body)
    ?_ ⟨⟨fun conn p hp => ?_, fun conn p hp => ?_⟩, by simp, by simp [hnone]⟩
  · exact ⟨hwaiting hhistory.1.1 hhistory.2.1, hhistory.2.2⟩
  · rintro es s e t ⟨⟨harrived, hchecked⟩, honly, haccepted⟩ he hstep
    obtain ⟨hchecked', -, hcases⟩ := step_cases hchecked hstep
    refine ⟨⟨step_arrived hauth harrived hstep, hchecked'⟩, ?_, ?_⟩
    · simpa [or_imp, forall_and] using ⟨honly, he⟩
    · rcases hcases with hrefuses | ⟨conn, meets, p, parsed, htakes⟩
      · rwa [hrefuses.accepted]
      · rw [htakes.accepted]
        refine List.forall_mem_cons.mpr ⟨fun hsender => ?_, haccepted⟩
        refine hwaiting harrived honly conn p htakes.waits ?_ htakes.passes
        obtain ⟨-, -, publicKey, now, -, -, hreceived⟩ := harrived conn p htakes.waits
        unfold Accepted.sender at hsender
        rw [← (hchecked conn p htakes.waits).text, htakes.envelope] at hsender
        rw [htakes.sender_eq hreceived]
        exact congrArg Json.str (Option.some.inj hsender)
  · rw [h0 conn] at hp
    cases hp
  · rw [h0 conn] at hp
    cases hp

/-- A kit under which one signature of zero is good, and nothing else. -/
def zeroKit : Kit :=
  { sampleKit with
    verify := fun _ data signature =>
      .ok (data == signature && data == "1300" ++ "\n" ++ noticeBody "m1") }

/-- The notice, and its body and signature under another timestamp. -/
theorem verified_pair_notice : ∃ s, exec (step vera zeroKit) freshAdapter
      (atOnce 0 (signedNotice "1300" "m1") 1000 ++
        [.arrive 1 { signedNotice "1300" "m1" with timestamp := "1301" } (fun _ => "key") 1001]) =
        some s ∧
      ∀ a ∈ s.accepted, a.sender zeroKit = some "zero" →
        a.request.timestamp = "1300" ∧ a.request.body = noticeBody "m1" := by
  have hends : (exec (step vera zeroKit) freshAdapter
      (atOnce 0 (signedNotice "1300" "m1") 1000 ++ [.arrive 1
        { signedNotice "1300" "m1" with timestamp := "1301" } (fun _ => "key") 1001])).isSome =
        true := by
    decide +kernel
  obtain ⟨s, hs⟩ := Option.isSome_iff_exists.mp hends
  have honly : ∀ data signature, zeroKit.verify "key" data signature = .ok true →
      ∃ timestamp body, (timestamp = "1300" ∧ body = noticeBody "m1") ∧
        data = timestamp ++ "\n" ++ body := by
    intro data signature h
    have hdata := (Bool.and_eq_true_iff.mp (Except.ok.inj h)).2
    exact ⟨_, _, ⟨rfl, rfl⟩, beq_iff_eq.mp hdata⟩
  have hloads : ∀ text c rest, text.toList = c :: rest → c.isDigit = true ∨ c = '-' →
      ∀ fields, zeroKit.loads text ≠ .ok (.obj fields) := by
    intro text c rest hfirst hdigit fields h
    have hbrace : ∀ msgId, text = noticeBody msgId → c = '\x7b' := by
      rintro msgId rfl
      unfold noticeBody at hfirst
      simp only [String.toList_append] at hfirst
      exact (List.cons.inj hfirst).1.symm
    have hc : c = '\x7b' := by
      change sampleKit.loads text = _ at h
      unfold sampleKit at h
      dsimp only at h
      split_ifs at h with h1 h2
      · exact hbrace _ h1
      · exact hbrace _ h2
    rw [hc] at hdigit
    exact absurd hdigit (by decide)
  have hauth : vera.insecure = false := rfl
  refine ⟨s, hs, (verified_pair hauth freshAdapter_start.waiting rfl ?_ hloads
    ((run_of_exec hs).of_forall (P := OnlySigned zeroKit "zero"
      fun timestamp body => timestamp = "1300" ∧ body = noticeBody "m1") ?_)).2⟩
  · rintro timestamp body ⟨rfl, rfl⟩
    exact ⟨by decide, '1', _, rfl, .inl rfl⟩
  · intro e he
    simp only [atOnce, List.cons_append, List.nil_append, List.mem_cons, List.not_mem_nil, or_false]
      at he
    rcases he with rfl | rfl | rfl
    · exact ⟨by decide, honly⟩
    · trivial
    · exact ⟨by decide, honly⟩

end HermesMesh.Intake
