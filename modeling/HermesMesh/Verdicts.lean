import HermesMesh.AcceptingPeers
import HermesMesh.DeliveryOutcome
import HermesMesh.DuplicateAnswers

/-!
# What the sender makes of the receiver's answer

The intake of one gateway answers the delivery of another. Every answer of the intake says what became
of the request (`Report`); `_deliver_webhook` reads it off the status and the body. Whether the message
is there they agree about (`delivered_is_taken_in`). Of the refusals the sender understands two only: its
table of tokens is written with hyphens and the intake answers with blanks, so a message that was
certainly refused is reported as `unconfirmed` (`verdict_of_refusal`).
-/

namespace HermesMesh.Verdicts

open Lib Intake

variable {cfg : Config} {kit : Kit} {meets : Meets} {p : Pending} {parsed : Parsed}
  {s t : Adapter} {e : Event} {es : List Event} {conn : ℕ} {r : Request}
  {answer : Except PyError Answer} {Id Id' : String → Prop}

/-! ## What an answer reports -/

/-- The refusals of the intake that carry a status text. -/
def refusals : List (ℕ × String) :=
  [(400, "invalid json"), (401, "unauthorized"), (400, "bad request"), (429, "rate limited"),
    (404, "not found")]

def acceptedBody (msgId : String) : List (String × Json) :=
  [("status", .str "accepted"), ("delivery_id", .str msgId)]

def busyBody (msgId : String) : List (String × Json) :=
  [("status", .str "busy"), ("delivery_id", .str msgId)]

def closedBody (ref recipient : String) : List (String × Json) :=
  [("error", .str ("THREAD_CLOSED: thread closed by terminal message " ++ ref)),
    ("hint", .str ("open a new message (no ref) to reach " ++ recipient))]

/-- The message with this id is taken in. -/
structure Took (msgId : String) (s t : Adapter) : Prop where
  inbox : ∃ event, t.inbox = s.inbox ++ [event]
  accepted : ∃ a, t.accepted = a :: s.accepted ∧ a.messageId = msgId

/-- The adapter keeps what it has taken in. -/
structure Left (s t : Adapter) : Prop where
  inbox : t.inbox = s.inbox
  accepted : t.accepted = s.accepted

/-- What an answer of the intake says of the step that gave it; `Id` is the id of the message. -/
inductive Report (Id : String → Prop) (s t : Adapter) : Except PyError Answer → Prop
  | taken {msgId : String} (hid : Id msgId) (h : Took msgId s t) :
      Report Id s t (.ok ⟨202, acceptedBody msgId, none⟩)
  | known {msgId : String} (hid : Id msgId) (hseen : (s.seen.lookup msgId).isSome = true)
      (h : Left s t) : Report Id s t (.ok duplicate)
  | full {msgId : String} {notice : Option Notice} (hfull : inboxSize ≤ s.inbox.length)
      (h : Left s t) : Report Id s t (.ok ⟨503, busyBody msgId, notice⟩)
  | refused {status : ℕ} {text : String} {notice : Option Notice}
      (hstatus : (status, text) ∈ refusals) (h : Left s t) :
      Report Id s t (.ok ⟨status, [("status", .str text)], notice⟩)
  | closed {ref recipient : String} (h : Left s t) :
      Report Id s t (.ok ⟨400, closedBody ref recipient, none⟩)
  | crashed {e : PyError} (h : Left s t) : Report Id s t (.error e)

theorem Left.refl (s : Adapter) : Left s s := ⟨rfl, rfl⟩

/-- What the adapter holds besides does not matter. -/
theorem Report.congr {s' t' : Adapter} (h : Report Id s t answer) (hs : s'.inbox = s.inbox)
    (hsa : s'.accepted = s.accepted) (hseen : s'.seen = s.seen) (ht : t'.inbox = t.inbox)
    (hta : t'.accepted = t.accepted) : Report Id s' t' answer := by
  have hleft : Left s t → Left s' t' := fun h =>
    ⟨by rw [ht, hs, h.inbox], by rw [hta, hsa, h.accepted]⟩
  cases h with
  | taken hid h =>
    refine .taken hid ⟨?_, ?_⟩
    · rw [ht, hs]
      exact h.inbox
    · rw [hta, hsa]
      exact h.accepted
  | known hid hlookup h => exact .known hid (hseen ▸ hlookup) (hleft h)
  | full hfull h => exact .full (hs ▸ hfull) (hleft h)
  | refused hstatus h => exact .refused hstatus (hleft h)
  | closed h => exact .closed (hleft h)
  | crashed h => exact .crashed (hleft h)

theorem Report.mono (hId : ∀ msgId, Id msgId → Id' msgId) (h : Report Id s t answer) :
    Report Id' s t answer := by
  cases h with
  | taken hid h => exact .taken (hId _ hid) h
  | known hid hseen h => exact .known (hId _ hid) hseen h
  | full hfull h => exact .full hfull h
  | refused hstatus h => exact .refused hstatus h
  | closed h => exact .closed h
  | crashed h => exact .crashed h

theorem receive_report {publicKey : String → String} {now : Time} {answer : Except PyError Answer}
    (h : receive cfg kit publicKey now r = answer.map .inl) (hleft : Left s t) :
    Report Id s t answer := by
  have hsaid : ∀ {status text}, (status, text) ∈ refusals → answer = .ok (said status text) →
      Report Id s t answer := by
    rintro status text hmem rfl
    exact .refused hmem hleft
  obtain e | answer := answer
  · exact .crashed hleft
  · have hinl : ∀ {given : Answer}, (.ok (.inl given) : Except PyError (Answer ⊕ Pending)) =
        .ok (.inl answer) → (.ok answer : Except PyError Answer) = .ok given :=
      fun heq => congrArg Except.ok (Sum.inl.inj (Except.ok.inj heq)).symm
    unfold receive at h
    split at h
    · exact hsaid (by decide) (hinl h)
    · cases h
    · dsimp only at h
      split_ifs at h
      · exact hsaid (by decide) (hinl h)
      · cases h
      · exact hsaid (by decide) (hinl h)
      · split at h
        · cases h
        · exact hsaid (by decide) (hinl h)
    · exact hsaid (by decide) (hinl h)

theorem screen_report {given : Answer} {s' : Adapter}
    (h : screen cfg kit meets p s = (.error given, s')) (hleft : Left s t) :
    Report Id s t (.ok given) := by
  unfold screen at h
  split at h
  · obtain rfl := Except.error.inj (Prod.mk.inj h).1
    exact .refused (by decide) hleft
  · dsimp only at h
    split_ifs at h
    · obtain rfl := Except.error.inj (Prod.mk.inj h).1
      exact .refused (by decide) hleft
    · obtain rfl := Except.error.inj (Prod.mk.inj h).1
      exact .refused (by decide) hleft
    · obtain rfl := Except.error.inj (Prod.mk.inj h).1
      exact .refused (by decide) hleft
    · obtain rfl := Except.error.inj (Prod.mk.inj h).1
      exact .closed hleft
    · cases (Prod.mk.inj h).1
    · cases (Prod.mk.inj h).1

theorem enqueue_report (cfg : Config) (kit : Kit) (meets : Meets) (p : Pending) (parsed : Parsed)
    (s : Adapter) : Report (· = parsed.msgId) s (enqueue cfg kit meets p parsed s).2
      (enqueue cfg kit meets p parsed s).1 := by
  have hbooks := recordAnchor_books kit meets parsed s
  unfold enqueue
  split_ifs with hseen
  · exact .known rfl hseen (.refl s)
  generalize recordAnchor kit meets parsed s = recorded at hbooks
  simp only [Adapter.books, Prod.mk.injEq] at hbooks
  obtain ⟨-, haccepted, -, -, hinbox, -⟩ := hbooks
  obtain ⟨e | ⟨⟩, s'⟩ := recorded
  · exact .crashed ⟨hinbox, haccepted⟩
  · dsimp only at haccepted hinbox ⊢
    cases buildEvent cfg kit parsed with
    | error e => exact .crashed ⟨hinbox, haccepted⟩
    | ok event =>
      dsimp only
      split_ifs with hfull
      · exact .full (hinbox ▸ hfull) ⟨hinbox, haccepted⟩
      · refine .taken rfl ⟨⟨event, ?_⟩,
          ⟨p.request, parsed.msgId, meets.seenAt, meets.sweptAt⟩, ?_, rfl⟩
        · rw [← hinbox]
          rfl
        · rw [← haccepted]
          rfl

/-- The text's envelope carries this id. -/
def Carries (kit : Kit) (text msgId : String) : Prop :=
  ∃ parsed, parseEnvelope kit.valid kit.repr text = some parsed ∧ msgId = parsed.msgId

theorem takeIn_report (cfg : Config) (kit : Kit) (meets : Meets) (p : Pending) (s : Adapter) :
    Report (Carries kit p.text) s (takeIn cfg kit meets p s).2 (takeIn cfg kit meets p s).1 := by
  have hbooks := screen_books cfg kit meets p s
  unfold takeIn
  generalize hscreen : screen cfg kit meets p s = screened at hbooks
  simp only [Adapter.books, Prod.mk.injEq] at hbooks
  obtain ⟨hseen, haccepted, -, -, hinbox, -⟩ := hbooks
  obtain ⟨answer | parsed, s'⟩ := screened
  · exact screen_report hscreen ⟨hinbox, haccepted⟩
  · have henvelope := (screen_ok hscreen).envelope
    exact ((enqueue_report cfg kit meets p parsed s').congr hinbox.symm haccepted.symm hseen.symm rfl
      rfl).mono fun msgId hid => ⟨parsed, henvelope, hid⟩

/-- The event is a step of the request `r`. -/
def StepOf (s : Adapter) (e : Event) (r : Request) : Prop :=
  match e with
  | .arrive _ request _ _ => request = r
  | .resume conn _ => ∃ p, s.waiting conn = some p ∧ p.request = r
  | _ => False

/-- **Every answer** reports what its step did. -/
theorem step_report (hchecked : Checked cfg kit s) (hstep : step cfg kit s e = some t)
    (hanswer : t.answers = (conn, answer) :: s.answers) (hof : StepOf s e r) :
    Report (Carries kit (requestText kit r)) s t answer := by
  cases e with
  | arrive conn' request publicKey now =>
    obtain ⟨-, ⟨p, -, rfl⟩ | ⟨given, hreceive, rfl⟩⟩ := step_arrive hstep
    · exact absurd hanswer.symm (List.cons_ne_self _ _)
    · obtain rfl : given = answer := (Prod.mk.inj (List.cons.inj hanswer).1).2
      exact receive_report hreceive ⟨rfl, rfl⟩
  | resume conn' meets =>
    obtain ⟨p, hp, hstep⟩ := Option.bind_eq_some_iff.mp hstep
    split_ifs at hstep
    obtain rfl := Option.some.inj hstep
    obtain ⟨p', hp', rfl⟩ := hof
    obtain rfl : p = p' := Option.some.inj (hp.symm.trans hp')
    rw [← (hchecked conn' p hp).text]
    by_cases hpass : p.passes kit
    · have hanswers := (takeIn_cases cfg kit meets p { s with clock := meets.sweptAt }).2.2.1
      rw [resume_passes hpass] at hanswer ⊢
      have hgiven := (List.cons.inj hanswer).1
      obtain rfl : (takeIn cfg kit meets p { s with clock := meets.sweptAt }).1 = answer :=
        (Prod.mk.inj hgiven).2
      exact (takeIn_report cfg kit meets p { s with clock := meets.sweptAt }).congr rfl rfl rfl rfl rfl
    · obtain ⟨answers, waits, -, hanswers, heq⟩ := resume_fails cfg conn' meets
        { s with clock := meets.sweptAt } hpass
      rw [heq] at hanswer ⊢
      obtain hsame | hgiven := hanswers
      · exact absurd (hsame.symm.trans hanswer).symm (List.cons_ne_self _ _)
      · obtain rfl : answer = .ok (said 401 "unauthorized") :=
          (Prod.mk.inj (List.cons.inj (hanswer.symm.trans hgiven)).1).2
        exact .refused (by decide) ⟨rfl, rfl⟩
  | take =>
    obtain rfl := Option.some.inj hstep
    exact absurd hanswer.symm (List.cons_ne_self _ _)
  | closedElsewhere file =>
    obtain rfl := Option.some.inj hstep
    exact absurd hanswer.symm (List.cons_ne_self _ _)

/-! ## What it says to the sender -/

/-- How the dial ends. A handler that raised is answered by the server, with a text that is no JSON. -/
def dialed : Except PyError Answer → DialOutcome
  | .ok answer => .answered answer.status (some (.obj answer.body))
  | .error _ => .answered 500 none

/-- What a body with a status text says first is that text. -/
theorem declaresArrival_status (text : String) (rest : List (String × Json)) :
    declaresArrival (some (.obj (("status", .str text) :: rest))) =
      arrivalTokens.contains (lower text) := rfl

theorem refusals_status {status : ℕ} {text : String} (h : (status, text) ∈ refusals) :
    400 ≤ status ∧ arrivalTokens.contains (lower text) = false := by
  have hall : ∀ entry ∈ refusals, 400 ≤ entry.1 ∧ arrivalTokens.contains (lower entry.2) = false := by
    decide
  exact hall _ h

/-- The body of an answer that did not take the message in says that it arrived nowhere. -/
theorem not_landed_of {status : ℕ} {body : Body} (hstatus : 400 ≤ status)
    (hbody : declaresArrival body = false) : ¬ (DialOutcome.answered status body).Landed := by
  rintro (⟨hlt, -⟩ | ⟨-, harrival⟩)
  · omega
  · rw [hbody] at harrival
    cases harrival

/-- An answer says that the message landed where its id was taken in now or is remembered, and only
there. -/
theorem Report.landed (h : Report Id s t answer) (hlanded : (dialed answer).Landed) :
    ∃ msgId, Id msgId ∧ ((Took msgId s t ∧ (dialed answer).deliveryId = .str msgId) ∨
      ((s.seen.lookup msgId).isSome = true ∧ (dialed answer).deliveryId = .str "unknown")) := by
  cases h with
  | @taken msgId hid h => exact ⟨msgId, hid, .inl ⟨h, rfl⟩⟩
  | @known msgId hid hseen h => exact ⟨msgId, hid, .inr ⟨hseen, rfl⟩⟩
  | @full msgId notice hfull h =>
    have hbody : declaresArrival (some (.obj (busyBody msgId))) = false :=
      (declaresArrival_status "busy" _).trans (by decide)
    exact absurd hlanded (not_landed_of (show 400 ≤ 503 by omega) hbody)
  | @refused status text notice hstatus h =>
    obtain ⟨hge, htoken⟩ := refusals_status hstatus
    exact absurd hlanded (not_landed_of hge htoken)
  | closed h => exact absurd hlanded (not_landed_of (show 400 ≤ 400 by omega) rfl)
  | crashed h => exact absurd hlanded (not_landed_of (show 400 ≤ 500 by omega) rfl)

/-- An answer that says nothing of an arrival changed nothing of what is taken in. -/
theorem Report.left (h : Report Id s t answer) (hlanded : ¬ (dialed answer).Landed) : Left s t := by
  cases h with
  | taken hid h => exact absurd (.inl ⟨show 202 < 400 by omega, _, rfl⟩) hlanded
  | known hid hseen h => exact h
  | full hfull h => exact h
  | refused hstatus h => exact h
  | closed h => exact h
  | crashed h => exact h

/-! ## The whole call -/

/-- In this run the step from `u` to `v` answers the request `r`. -/
def Answering (cfg : Config) (kit : Kit) (s : Adapter) (es : List Event) (t : Adapter) (r : Request)
    (u v : Adapter) (answer : Except PyError Answer) : Prop :=
  ∃ before e after conn, es = before ++ e :: after ∧ Run (step cfg kit) Free s before u ∧
    step cfg kit u e = some v ∧ Run (step cfg kit) Free v after t ∧ StepOf u e r ∧
    v.answers = (conn, answer) :: u.answers

variable {u v : Adapter}

theorem start_checked (h0 : Start s) (hrun : Run (step cfg kit) Free s es t) :
    Checked cfg kit t ∧ Tabled t := by
  refine hrun.invariant (I := fun s => Checked cfg kit s ∧ Tabled s) ?_ ⟨h0.kept.checked, ?_⟩
  · exact fun _ _ _ h _ hstep => ⟨(step_cases h.1 hstep).1, step_tabled h.1 h.2 hstep⟩
  · intro id time hmem
    rw [h0.seen] at hmem
    cases hmem

/-- What was accepted once stays so. -/
theorem accepted_stays (hchecked : Checked cfg kit s) (hrun : Run (step cfg kit) Free s es t)
    {a : Accepted} (ha : a ∈ s.accepted) : a ∈ t.accepted := by
  refine (hrun.invariant (I := fun s => Checked cfg kit s ∧ a ∈ s.accepted) ?_ ⟨hchecked, ha⟩).2
  rintro s e t ⟨hchecked, ha⟩ - hstep
  obtain ⟨hchecked', -, hrefuses | ⟨conn, meets, p, parsed, htakes⟩⟩ := step_cases hchecked hstep
  · exact ⟨hchecked', hrefuses.accepted ▸ ha⟩
  · refine ⟨hchecked', ?_⟩
    rw [htakes.accepted]
    exact List.mem_cons_of_mem _ ha

/-- The step and the end of the run see the message alike. -/
theorem Answering.report (h0 : Start s) (h : Answering cfg kit s es t r u v answer) :
    Report (Carries kit (requestText kit r)) u v answer := by
  obtain ⟨before, e, after, conn, -, hbefore, hstep, -, hof, hanswer⟩ := h
  exact step_report (start_checked h0 hbefore).1 hstep hanswer hof

theorem Answering.landed (h0 : Start s) (h : Answering cfg kit s es t r u v answer)
    (hlanded : (dialed answer).Landed) :
    ∃ msgId, Carries kit (requestText kit r) msgId ∧ (∃ a ∈ t.accepted, a.messageId = msgId) ∧
      ((dialed answer).deliveryId = .str msgId ∨ (dialed answer).deliveryId = .str "unknown") := by
  obtain ⟨msgId, hid, hways⟩ := (h.report h0).landed hlanded
  obtain ⟨before, e, after, conn, -, hbefore, hstep, hafter, -, -⟩ := h
  obtain ⟨hchecked, htabled⟩ := start_checked h0 hbefore
  have hchecked' := (step_cases hchecked hstep).1
  refine ⟨msgId, hid, ?_⟩
  obtain ⟨htook, hdelivered⟩ | ⟨hseen, hdelivered⟩ := hways
  · obtain ⟨a, haccepted, rfl⟩ := htook.accepted
    refine ⟨⟨a, accepted_stays hchecked' hafter ?_, rfl⟩, .inl hdelivered⟩
    rw [haccepted]
    exact List.mem_cons_self
  · obtain ⟨time, hmem⟩ := lookup_isSome_iff_mem.mp hseen
    obtain ⟨a, -, ha⟩ := htabled msgId time hmem
    exact ⟨⟨a, accepted_stays hchecked (.cons trivial hstep hafter) ha.mem.1, ha.mem.2⟩,
      .inr hdelivered⟩

section Call

variable {exceptionToReason : Exc → String} {budget : Budget} {net : Net} {allowLoopback : Bool}
  {url : String} {signature : Except PyError String} {d : Delivery}

/-- The id that a call returns is that of an answer. -/
theorem deliveryId_of_dial
    (hcall : deliverWebhook exceptionToReason budget net allowLoopback url signature = .ok d)
    (hid : d.deliveryId ≠ .null) : ∃ o ∈ d.dials, o.Landed ∧ o.deliveryId = d.deliveryId := by
  obtain ⟨hsound, ⟨-, hnull, -⟩ | hends⟩ := deliverWebhook_ends hcall
  · exact absurd hnull hid
  · cases hends with
    | @landed init a hmade hinit hok hreason =>
      have ha : a ∈ d.attempts := by
        rw [hmade]
        simp
      obtain ⟨front, o, hdials, -, hlanded, ho⟩ := (hsound a ha).landed _ hok
      refine ⟨o, List.mem_flatMap.mpr ⟨a, ha, ?_⟩, hlanded, ho⟩
      rw [hdials]
      simp
    | overdue hfailed hnull hreason hlast => exact absurd hnull hid
    | gaveUp init hmade hinit herr hnull hreason hlast => exact absurd hnull hid

variable {ips : List Ip}

theorem deliverLoop_made (fuel : ℕ) : ∀ (attempt : ℕ) (deadline : Time) (extended : Bool),
    ∀ a ∈ (deliverLoop exceptionToReason budget net allowLoopback ips fuel attempt deadline
      extended).attempts, ∃ index timeout, a = tryOnce net allowLoopback ips index timeout := by
  induction fuel with
  | zero => exact fun _ _ _ => nofun
  | succ fuel ih =>
    intro attempt deadline extended
    obtain h | ⟨timeout, rest, h, hrest⟩ := deliverLoop_attempts exceptionToReason budget net
      allowLoopback ips fuel attempt deadline extended
    · rw [h]
      exact nofun
    · rw [h, List.forall_mem_cons]
      refine ⟨⟨attempt, timeout, rfl⟩, ?_⟩
      obtain rfl | ⟨deadline', extended', rfl⟩ := hrest
      · exact nofun
      · exact ih _ _ _

/-- Every dial of a call is one that the network answers. -/
theorem mem_dials
    (hcall : deliverWebhook exceptionToReason budget net allowLoopback url signature = .ok d)
    {o : DialOutcome} (ho : o ∈ d.dials) : ∃ index ip, o = net.dial index ip := by
  obtain ⟨a, ha, ho⟩ := List.mem_flatMap.mp ho
  obtain ⟨text, -, -, -, hnil, -⟩ | ⟨ips, key, -, -, -, hd⟩ := deliverWebhook_ok hcall
  · rw [hnil] at ha
    cases ha
  · rw [hd] at ha
    obtain ⟨index, timeout, rfl⟩ := deliverLoop_made _ _ _ _ _ ha
    obtain ⟨ip, -, rfl⟩ := List.mem_map.mp ho
    exact ⟨index, ip, rfl⟩

/-- Every answer of the call is one that the intake gave to the request in this run. -/
def AnsweredBy (cfg : Config) (kit : Kit) (s : Adapter) (es : List Event) (t : Adapter) (r : Request)
    (d : Delivery) : Prop :=
  ∀ o ∈ d.dials, o.Answered → ∃ u v answer, Answering cfg kit s es t r u v answer ∧ o = dialed answer

theorem AnsweredBy.landed (h0 : Start s) (hdials : AnsweredBy cfg kit s es t r d) {o : DialOutcome}
    (ho : o ∈ d.dials) (hlanded : o.Landed) :
    ∃ msgId, Carries kit (requestText kit r) msgId ∧ (∃ a ∈ t.accepted, a.messageId = msgId) ∧
      (o.deliveryId = .str msgId ∨ o.deliveryId = .str "unknown") := by
  obtain ⟨u, v, answer, h, rfl⟩ := hdials o ho hlanded.answered
  exact h.landed h0 hlanded

theorem AnsweredBy.exact (h0 : Start s) (hdials : AnsweredBy cfg kit s es t r d)
    (hcall : deliverWebhook exceptionToReason budget net allowLoopback url signature = .ok d) :
    Exact d := by
  refine (exact_iff_dials hcall).mpr fun o ho hlanded => ?_
  obtain ⟨msgId, -, -, hid | hid⟩ := hdials.landed h0 ho hlanded
  · rw [hid]
    exact nofun
  · rw [hid]
    exact nofun

/-- A success is the arrival of a message under the id that the request carries. -/
theorem AnsweredBy.taken_in (h0 : Start s) (hdials : AnsweredBy cfg kit s es t r d)
    (hcall : deliverWebhook exceptionToReason budget net allowLoopback url signature = .ok d)
    (hreason : d.reason = none) :
    ∃ msgId, Carries kit (requestText kit r) msgId ∧ (∃ a ∈ t.accepted, a.messageId = msgId) ∧
      (d.deliveryId = .str msgId ∨ d.deliveryId = .str "unknown") := by
  have hone := not_iff.mp (hdials.exact h0 hcall).one
  obtain ⟨o, ho, hlanded, hid⟩ := deliveryId_of_dial hcall (hone.mpr hreason)
  rw [← hid]
  exact hdials.landed h0 ho hlanded

/-- **The two sides agree.** Let every answer that a delivery gets be one that the intake gave to its
request. If it reports a success, a message is taken in under the id that the request carries; if it
reports a failure, no answer that it got comes from a step that took anything in. -/
theorem delivered_is_taken_in (h0 : Start s)
    (hcall : deliverWebhook exceptionToReason budget net allowLoopback url signature = .ok d)
    (hdials : AnsweredBy cfg kit s es t r d) :
    (d.deliveryId ≠ .null ↔ d.reason = none) ∧
      (d.reason = none → ∃ msgId, Carries kit (requestText kit r) msgId ∧
        (∃ a ∈ t.accepted, a.messageId = msgId) ∧
        (d.deliveryId = .str msgId ∨ d.deliveryId = .str "unknown")) ∧
      (d.reason ≠ none → ∀ o ∈ d.dials, ∀ u v answer,
        Answering cfg kit s es t r u v answer → o = dialed answer → Left u v) := by
  have hexact := hdials.exact h0 hcall
  have hone : d.deliveryId ≠ .null ↔ d.reason = none := not_iff.mp hexact.one
  refine ⟨hone, hdials.taken_in h0 hcall, fun hreason o ho u v answer h heq => ?_⟩
  refine (h.report h0).left fun hlanded => hreason (hone.mp (hexact.landed.mpr ⟨o, ho, ?_⟩))
  rwa [heq]

/-- What a request that goes on at once is answered: the request that waits, the answers before, and
those after. -/
def exchange (cfg : Config) (kit : Kit) (conn : ℕ) (r : Request) (now : Time) :
    Option (Option Request × ℕ × List (ℕ × Option ℕ)) :=
  (step cfg kit freshAdapter (.arrive conn r (fun _ => "key") now)).bind fun u =>
    (step cfg kit u (.resume conn { rateAt := now, seenAt := now, sweptAt := now })).map fun v =>
      ((u.waiting conn).map (·.request), u.answers.length,
        v.answers.map fun answer => (answer.1, answer.2.toOption.map (·.status)))

theorem exchange_answering {now : Time} {status : ℕ}
    (h : exchange cfg kit conn r now = some (some r, 0, [(conn, some status)])) :
    ∃ u v answer, Answering cfg kit freshAdapter (atOnce conn r now) v r u v (.ok answer) ∧
      answer.status = status ∧ Run (step cfg kit) Free freshAdapter (atOnce conn r now) v := by
  obtain ⟨u, hu, h⟩ := Option.bind_eq_some_iff.mp h
  obtain ⟨v, hv, h⟩ := Option.map_eq_some_iff.mp h
  simp only [Prod.mk.injEq, List.length_eq_zero_iff] at h
  obtain ⟨hwaits, hnone, hanswers⟩ := h
  obtain ⟨p, hp, hrequest⟩ := Option.map_eq_some_iff.mp hwaits
  obtain ⟨⟨conn', answer⟩, rest, hv', hanswer, hrest⟩ := List.map_eq_cons_iff.mp hanswers
  obtain rfl := List.map_eq_nil_iff.mp hrest
  obtain ⟨rfl, hstatus⟩ := Prod.mk.inj hanswer
  have hfirst := Run.cons trivial hu (.nil (G := Free) u)
  cases answer with
  | error e => cases hstatus
  | ok answer =>
    refine ⟨u, v, answer, ⟨_, _, [], conn', rfl, hfirst, hv, .nil v, ⟨p, hp, hrequest⟩, ?_⟩,
      Option.some.inj hstatus, .cons trivial hu (.cons trivial hv (.nil v))⟩
    rw [hv', hnone]

theorem Report.of_accepted {answer : Answer} (h : Report Id s t (.ok answer))
    (hstatus : answer.status = 202) : ∃ msgId, Id msgId ∧ answer = ⟨202, acceptedBody msgId, none⟩ := by
  cases h with
  | @taken msgId hid h => exact ⟨msgId, hid, rfl⟩
  | known hid hseen h => cases hstatus
  | full hfull h => cases hstatus
  | refused hmem h =>
    have := (refusals_status hmem).1
    dsimp only at hstatus
    omega
  | closed h => cases hstatus

theorem notice_carries {msgId : String}
    (h : Carries sampleKit (requestText sampleKit (signedNotice "1300" "m1")) msgId) : msgId = "m1" := by
  have hparses : (parseEnvelope sampleKit.valid sampleKit.repr
      (requestText sampleKit (signedNotice "1300" "m1"))).map (·.msgId) = some "m1" := by
    decide +kernel
  obtain ⟨parsed, hparsed, rfl⟩ := h
  rw [hparsed] at hparses
  exact Option.some.inj hparses

/-- A notice that is taken in at the first attempt. -/
theorem notice_delivered : ∃ u t d,
    Answering vera sampleKit freshAdapter (atOnce 0 (signedNotice "1300" "m1") 1000) t
      (signedNotice "1300" "m1") u t (.ok ⟨202, acceptedBody "m1", none⟩) ∧
    Run (step vera sampleKit) Free freshAdapter (atOnce 0 (signedNotice "1300" "m1") 1000) t ∧
    deliverWebhook sharedReason {} (onePeer 1 fun _ => dialed (.ok ⟨202, acceptedBody "m1", none⟩))
      false "http://peer" (.ok "") = .ok d ∧ d.reason = none := by
  have hends : exchange vera sampleKit 0 (signedNotice "1300" "m1") 1000 =
      some (some (signedNotice "1300" "m1"), 0, [(0, some 202)]) := by
    decide +kernel
  have hreported : reported (deliverWebhook sharedReason {}
      (onePeer 1 fun _ => dialed (.ok ⟨202, acceptedBody "m1", none⟩)) false "http://peer" (.ok "")) =
        some (true, none, [(false, true)]) := by
    decide +kernel
  obtain ⟨u, t, answer, h, hstatus, hrun⟩ := exchange_answering hends
  obtain ⟨msgId, hid, rfl⟩ := (h.report freshAdapter_start).of_accepted hstatus
  obtain rfl := notice_carries hid
  obtain ⟨d, hd⟩ := deliverWebhook_returns sharedReason
    (onePeer 1 fun _ => dialed (.ok ⟨202, acceptedBody "m1", none⟩)) false "http://peer" ""
    defaultRetries rfl
  refine ⟨u, t, d, h, hrun, hd, ?_⟩
  rw [hd] at hreported
  exact (Prod.mk.inj (Prod.mk.inj (Option.some.inj hreported)).2).1

/-- One answer that is the only one. -/
theorem Answering.answeredBy {answer : Except PyError Answer} {wait : Time}
    (h : Answering cfg kit s es t r u v answer)
    (hcall : deliverWebhook exceptionToReason budget (onePeer wait fun _ => dialed answer) allowLoopback
      url signature = .ok d) : AnsweredBy cfg kit s es t r d := by
  intro o ho _
  obtain ⟨index, ip, rfl⟩ := mem_dials hcall ho
  exact ⟨u, v, answer, h, rfl⟩

theorem delivered_is_taken_in_notice : ∃ t,
    Run (step vera sampleKit) Free freshAdapter (atOnce 0 (signedNotice "1300" "m1") 1000) t ∧
    ∃ a ∈ t.accepted, a.messageId = "m1" := by
  obtain ⟨u, t, d, h, hrun, hd, hreason⟩ := notice_delivered
  obtain ⟨msgId, hcarries, htaken, -⟩ :=
    (delivered_is_taken_in freshAdapter_start hd (h.answeredBy hd)).2.1 hreason
  obtain rfl := notice_carries hcarries
  exact ⟨t, hrun, htaken⟩

/-! ## Which refusal it was -/

/-- What the sender makes of a refusal. -/
def verdictOn (exceptionToReason : Exc → String) : Except PyError Answer → String
  | .error _ => exceptionToReason (.http 500 none)
  | .ok answer =>
    match answer.body.lookup "status" with
    | none => exceptionToReason (.http answer.status (some (.obj answer.body)))
    | some _ =>
      if answer.status = 503 then "busy"
      else if answer.status = 401 then "unauthorized"
      else unconfirmed

/-- The refusals have tokens of their own, which the sender's table lacks but for one. -/
theorem refusals_reason {status : ℕ} {text : String} (h : (status, text) ∈ refusals) :
    (refusalReasons.lookup (lower text)).getD unconfirmed =
      if status = 503 then "busy" else if status = 401 then "unauthorized" else unconfirmed := by
  simp only [refusals, List.mem_cons, Prod.mk.injEq, List.not_mem_nil, or_false] at h
  obtain ⟨rfl, rfl⟩ | ⟨rfl, rfl⟩ | ⟨rfl, rfl⟩ | ⟨rfl, rfl⟩ | ⟨rfl, rfl⟩ := h <;> decide +kernel

/-- Reading a token off a body. -/
theorem deliveryFailureReason_status (status : ℕ) {text : String} (rest : List (String × Json))
    (htoken : arrivalTokens.contains (lower text) = false) :
    deliveryFailureReason exceptionToReason
        (.http status (some (.obj (("status", .str text) :: rest)))) =
      (refusalReasons.lookup (lower text)).getD unconfirmed := by
  show (if arrivalTokens.contains (lower text) = true then _ else _) = _
  rw [htoken]
  rfl

theorem Report.verdict (exceptionToReason : Exc → String) (h : Report Id s t answer)
    (hlanded : ¬ (dialed answer).Landed) :
    ∃ status body, dialed answer = .answered status body ∧ 400 ≤ status ∧
      deliveryFailureReason exceptionToReason (.http status body) =
        verdictOn exceptionToReason answer := by
  cases h with
  | taken hid h => exact absurd (.inl ⟨show 202 < 400 by omega, _, rfl⟩) hlanded
  | known hid hseen h => exact absurd (.inl ⟨show 200 < 400 by omega, _, rfl⟩) hlanded
  | @full msgId notice hfull h =>
    have hbusy : (refusalReasons.lookup (lower "busy")).getD unconfirmed = "busy" := by decide +kernel
    exact ⟨503, _, rfl, by omega, (deliveryFailureReason_status 503 _ (by decide)).trans hbusy⟩
  | @refused status text notice hstatus h =>
    obtain ⟨hge, htoken⟩ := refusals_status hstatus
    refine ⟨status, _, rfl, hge, ?_⟩
    exact (deliveryFailureReason_status status _ htoken).trans (refusals_reason hstatus)
  | closed h => exact ⟨400, _, rfl, by omega, rfl⟩
  | crashed h => exact ⟨500, _, rfl, by omega, rfl⟩

/-- A request that raised after a refusal raised that refusal. -/
theorem pinnedRequest_raised {dial : Ip → DialOutcome} {ips : List Ip}
    (hips : ∀ ip ∈ ips, isIpBlocked allowLoopback ip = false) :
    ∀ {lastExc : Option Exc} {dialed : List Ip} {exc : Exc},
      pinnedRequest allowLoopback dial lastExc ips = (dialed, .error exc) →
      (dialed = [] ∧ exc = lastExc.getD (.other "Could not connect to any resolved IP")) ∨
        ∃ init ip, dialed = init ++ [ip] ∧
          ∀ status body, dial ip = .answered status body → exc = .http status body := by
  induction ips with
  | nil =>
    intro lastExc dialed exc h
    obtain ⟨rfl, hexc⟩ := Prod.mk.inj h
    exact .inl ⟨rfl, (Except.error.inj hexc).symm⟩
  | cons ip rest ih =>
    obtain ⟨hip, hrest⟩ := List.forall_mem_cons.mp hips
    intro lastExc dialed exc h
    have hnext : ∀ e, (∀ status body, dial ip = .answered status body → e = .http status body) →
        (ip :: (pinnedRequest allowLoopback dial (some e) rest).1,
          (pinnedRequest allowLoopback dial (some e) rest).2) = (dialed, .error exc) →
        ∃ init ip', dialed = init ++ [ip'] ∧
          ∀ status body, dial ip' = .answered status body → exc = .http status body := by
      intro e he h
      obtain ⟨rfl, hexc⟩ := Prod.mk.inj h
      obtain ⟨hnil, rfl⟩ | ⟨init, ip', hdialed, hexc'⟩ := ih hrest (Prod.ext rfl hexc)
      · exact ⟨[], ip, congrArg (ip :: ·) hnil, he⟩
      · exact ⟨ip :: init, ip', congrArg (ip :: ·) hdialed, hexc'⟩
    have hsilent : ∀ {e : Exc}, (∀ status body, dial ip ≠ .answered status body) →
        ∀ status body, dial ip = .answered status body → e = .http status body :=
      fun hno status body h => absurd h (hno status body)
    refine .inr ?_
    unfold pinnedRequest at h
    rw [hip, if_neg Bool.false_ne_true] at h
    cases hdial : dial ip with
    | answered status body =>
      rw [hdial] at h
      dsimp only at h
      split_ifs at h
      · cases (Prod.mk.inj h).2
      · refine hnext _ ?_ h
        intro status' body' heq
        rw [hdial] at heq
        cases heq
        rfl
      · cases (Prod.mk.inj h).2
    | timedOut =>
      rw [hdial] at h
      exact hnext _ (hsilent (by simp [hdial])) h
    | failed text =>
      rw [hdial] at h
      exact hnext _ (hsilent (by simp [hdial])) h
    | aborted text =>
      rw [hdial] at h
      obtain ⟨rfl, -⟩ := Prod.mk.inj h
      exact ⟨[], ip, rfl, hsilent (by simp [hdial])⟩

/-- An attempt that raised after a refusal raised that refusal. -/
theorem tryOnce_raised {index : ℕ} {timeout : Time} {exc : Exc} {front : List DialOutcome}
    {status : ℕ} {body : Body} (hrefused : net.refused = none)
    (hips : ∀ ip ∈ ips, isIpBlocked allowLoopback ip = false)
    (herr : (tryOnce net allowLoopback ips index timeout).ended = .error exc)
    (hdials : (tryOnce net allowLoopback ips index timeout).dials = front ++ [.answered status body])
    (hstatus : 400 ≤ status) (hlanded : ¬ (DialOutcome.answered status body).Landed) :
    exc = .http status body := by
  have hpinned := request_spec net allowLoopback ips index
  have hraised : ∀ {dialed}, pinnedRequest allowLoopback (net.dial index) none ips =
      (dialed, .error exc) → _ := fun h => pinnedRequest_raised hips h
  unfold tryOnce at herr hdials
  unfold Net.request at hpinned herr hdials
  rw [hrefused] at hpinned herr hdials
  dsimp only at hpinned herr hdials
  generalize pinnedRequest allowLoopback (net.dial index) none ips = made at *
  cases hpinned with
  | @answered init ip status' body' hinit hdial hbody =>
    rw [List.map_append] at hdials
    have hlast := (List.cons.inj (List.append_inj' hdials rfl).2).1
    rw [hdial] at hlast
    obtain ⟨rfl, rfl⟩ := DialOutcome.answered.inj hlast
    obtain hlt | harrival := hbody
    · omega
    · exact absurd (.inr ⟨hstatus, harrival⟩) hlanded
  | @raised dialed exc' hdialed hexc =>
    obtain rfl : exc' = exc := Except.error.inj herr
    obtain ⟨rfl, -⟩ | ⟨init, ip, rfl, hexc'⟩ := hraised rfl
    · exact absurd hdials.symm (by simp)
    · rw [List.map_append] at hdials
      exact hexc' status body (List.cons.inj (List.append_inj' hdials rfl).2).1

/-- **What a refusal is called.** Let the last answer that a failing delivery gets, with nothing left
after it, be one that the intake gave to its request. The message was not taken in, and the reason is
`verdictOn` of the answer: of the refusals with a token the sender understands `busy` and
`unauthorized`, and takes every other one for an arrival that is unconfirmed. -/
theorem verdict_of_refusal (h0 : Start s) (hrefused : net.refused = none)
    (hcall : deliverWebhook exceptionToReason budget net allowLoopback url signature = .ok d)
    (hreason : d.reason ≠ none) {init : List HermesMesh.Attempt} {a : HermesMesh.Attempt}
    {front : List DialOutcome} (hattempts : d.attempts = init ++ [a])
    (hspent : Spent budget net (net.deadline budget d.attempts) a)
    (hdials : a.dials = front ++ [dialed answer]) (h : Answering cfg kit s es t r u v answer) :
    Left u v ∧ d.reason = some (verdictOn exceptionToReason answer) := by
  have hreport := h.report h0
  obtain ⟨hsound, ⟨hnil, -, -⟩ | hends⟩ := deliverWebhook_ends hcall
  · rw [hnil] at hattempts
    exact absurd hattempts (by simp)
  obtain ⟨text, -, -, -, hnil, -⟩ | ⟨ips, key, hresolve, -, -, hd⟩ := deliverWebhook_ok hcall
  · rw [hnil] at hattempts
    exact absurd hattempts (by simp)
  have ha : a ∈ d.attempts := by
    rw [hattempts]
    simp
  cases hends with
  | landed init' hmade hinit hok hnone => exact absurd hnone hreason
  | overdue hfailed hid hlate hlast => exact absurd hspent (hlast init a hattempts)
  | @gaveUp init' a' exc hmade hinit herr hid hgiven hlast =>
    obtain rfl : a = a' := (List.cons.inj (List.append_inj' (hattempts.symm.trans hmade) rfl).2).1
    have hlanded : ¬ (dialed answer).Landed := (hsound a ha).failed exc herr _ (by rw [hdials]; simp)
    obtain ⟨status, body, hdialed, hstatus, hverdict⟩ := hreport.verdict exceptionToReason hlanded
    obtain ⟨index, timeout, rfl⟩ : ∃ index timeout, a = tryOnce net allowLoopback ips index timeout := by
      rw [hd] at ha
      exact deliverLoop_made _ _ _ _ _ ha
    rw [hdialed] at hdials hlanded
    obtain rfl := tryOnce_raised hrefused (resolveTargetUrl_ok hresolve).2 herr hdials hstatus hlanded
    refine ⟨hreport.left ?_, ?_⟩
    · rwa [hdialed]
    · rw [hgiven, hverdict]

theorem Report.of_not_found {answer : Answer} (h : Report Id s t (.ok answer))
    (hstatus : answer.status = 404) :
    dialed (.ok answer) = .answered 404 (some (.obj (said 404 "not found").body)) := by
  cases h with
  | taken hid h => cases hstatus
  | known hid hseen h => cases hstatus
  | full hfull h => cases hstatus
  | @refused status text notice hmem h =>
    dsimp only at hstatus
    subst hstatus
    obtain rfl : text = "not found" := by simpa [refusals] using hmem
    rfl
  | closed h => cases hstatus

/-- An agent of another name. -/
def otto : Config := { agentName := "otto" }

def notFound : Net := onePeer 1 fun _ => .answered 404 (some (.obj (said 404 "not found").body))

/-- A notice that reaches the wrong agent is refused, and the refusal is not understood. -/
theorem verdict_of_refusal_not_found : ∃ u v answer d,
    Answering otto sampleKit freshAdapter (atOnce 0 (signedNotice "1300" "m1") 1000) v
      (signedNotice "1300" "m1") u v (.ok answer) ∧ answer.status = 404 ∧
    deliverWebhook sharedReason { retries := 1 } notFound false "http://peer" (.ok "") = .ok d ∧
    Left u v ∧ d.reason = some unconfirmed := by
  have hends : exchange otto sampleKit 0 (signedNotice "1300" "m1") 1000 =
      some (some (signedNotice "1300" "m1"), 0, [(0, some 404)]) := by
    decide +kernel
  have hreported : reported (deliverWebhook sharedReason { retries := 1 } notFound false "http://peer"
      (.ok "")) = some (false, some unconfirmed, [(false, true)]) := by
    decide +kernel
  obtain ⟨u, v, answer, h, hstatus, -⟩ := exchange_answering hends
  have hdialed := (h.report freshAdapter_start).of_not_found hstatus
  have hfew : ({ retries := 1 } : Budget).retries ≤ 1025 := by decide
  obtain ⟨d, hd⟩ := deliverWebhook_returns sharedReason notFound false "http://peer" "" hfew rfl
  rw [hd] at hreported
  obtain ⟨hreason, hattempts⟩ := Prod.mk.inj (Prod.mk.inj (Option.some.inj hreported)).2
  obtain ⟨a, rest, ha, hended, hrest⟩ := List.map_eq_cons_iff.mp hattempts
  obtain rfl := List.map_eq_nil_iff.mp hrest
  obtain ⟨o, ho, -⟩ : a.Answered := of_decide_eq_true (Prod.mk.inj hended).2
  obtain hnil | ⟨front, last, hdials⟩ := List.eq_nil_or_concat a.dials
  · rw [hnil] at ho
    cases ho
  rw [List.concat_eq_append] at hdials
  have hlast : last ∈ d.dials := by
    refine List.mem_flatMap.mpr ⟨a, ?_, ?_⟩
    · rw [ha]
      exact List.mem_singleton_self a
    · rw [hdials]
      simp
  obtain ⟨index, ip, rfl⟩ := mem_dials hd hlast
  have hspent : Spent { retries := 1 } notFound (notFound.deadline { retries := 1 } d.attempts) a :=
    .inl (show (1 : ℤ) ≤ a.index + 1 by omega)
  refine ⟨u, v, answer, d, h, hstatus, hd, ?_, hreason⟩
  exact (verdict_of_refusal freshAdapter_start rfl hd (by rw [hreason]; nofun)
    (show d.attempts = [] ++ [a] from ha) hspent (hdials.trans (by rw [hdialed]; rfl)) h).1

end Call

end HermesMesh.Verdicts
