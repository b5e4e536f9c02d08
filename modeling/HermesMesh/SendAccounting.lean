import HermesMesh.DeliveryCounts
import HermesMesh.ThirdParties

/-!
# Send accounting

A send is accounted for twice: by a line of the meter, "one structured line per attempt", and by the
counter `send.failed`. The meter is written on three exits of `handle_mesh_send`, so a call that
fails before its delivery, or whose message is queued, leaves no line. The counter is written by
`handle_mesh_send` for every failed delivery, and by `_deliver_webhook` once more where it gives up.
`accounted_iff` says for which calls both are right.
-/

namespace HermesMesh

open OpenThreads

variable {env : Env} {mail : Mail} {args kwargs : List (String × Json)} {w w₀ w₁ w' w'' : World}
  {held : Bool} {resp : Response} {lines lines' : List MeterLine} {calls calls' : List Wire}
  {own own' : ℕ}

/-- The counter `send.failed`. -/
def failures (w : World) : ℕ := w.metrics.count ("send", "failed")

/-- The call of `_deliver_webhook` sends a notice. -/
def Wire.isNotice (wire : Wire) : Bool := wire.headers.contains dsnHeader

/-- What `_deliver_webhook` counts as failed for a notice. -/
def noticeFailed (env : Env) (wire : Wire) : ℕ :=
  match env.post env.dsnNet env.dsnSignature wire.url with
  | .ok d => d.metrics.count "failed"
  | .error _ => 0

/-- The same for the notices among several calls. -/
def noticeFailures (env : Env) (calls : List Wire) : ℕ :=
  ((calls.filter Wire.isNotice).map (noticeFailed env)).sum

/-- The calls of `_deliver_webhook` since an earlier state. -/
def World.callsSince (after before : World) : List Wire :=
  after.sent.take (after.sent.length - before.sent.length)

/-- A delivery attempt was made, and came back without an id. -/
def AttemptFailed (env : Env) (calls : List Wire) : Prop :=
  ∃ wire ∈ calls, wire.isNotice = false ∧
    ∃ d, env.post env.net env.signature wire.url = .ok d ∧ d.deliveryId.isSome = false

/-- The outcome that a response stands for. -/
def Response.outcome (r : Response) : String :=
  if r.state = some "completed" then "delivered"
  else if r.state = some "queued" then "queued"
  else if (Json.get "error" r).isStr "E-BUSY" then "refused"
  else "failed"

/-- Send accounting is exact: one line with the outcome of the response, and one failure for a
delivery attempt that failed. What `_deliver_webhook` counts for notices is left out. -/
structure Accounted (env : Env) (before after : World) (resp : Response) : Prop where
  meter : ∃ line, after.meter = line :: before.meter ∧ line.outcome = resp.outcome
  failed : AttemptFailed env (after.callsSince before) →
    failures after = failures before + noticeFailures env (after.callsSince before) + 1
  other : ¬ AttemptFailed env (after.callsSince before) →
    failures after = failures before + noticeFailures env (after.callsSince before)

/-- The addresses that the delivery of the message dials. -/
def Routes (env : Env) (mail : Mail) (allowLoopback : Bool) (ips : List Ip) : Prop :=
  ∃ url, env.target mail.agent = .ok (.ok url) ∧ env.loopback url = .ok allowLoopback ∧
    resolveTargetUrl url env.net.host env.net.resolved allowLoopback = .ok ips

/-- An attempt to deliver the message is answered under an id. -/
def MailLands (env : Env) (mail : Mail) : Prop :=
  ∃ allowLoopback ips, Routes env mail allowLoopback ips ∧
    ∃ deliveryId, deliveryId.isSome = true ∧ Lands env.budget env.net allowLoopback ips deliveryId

/-- The delivery of the message gives up on an attempt. -/
def MailGivesUp (env : Env) (mail : Mail) : Prop :=
  ∃ allowLoopback ips, Routes env mail allowLoopback ips ∧
    GivesUp env.budget env.net allowLoopback ips

/-! ## The books of one stage -/

/-- What a stage adds to the meter, which deliveries it makes, and what it counts as failed besides
the notices. -/
structure Books (env : Env) (w w' : World) (lines : List MeterLine) (calls : List Wire) (own : ℕ) :
    Prop where
  meter : w'.meter = lines ++ w.meter
  sent : w'.sent = calls ++ w.sent
  failed : failures w' = failures w + own + noticeFailures env calls

theorem noticeFailures_append (env : Env) (calls calls' : List Wire) :
    noticeFailures env (calls ++ calls') =
      noticeFailures env calls + noticeFailures env calls' := by
  unfold noticeFailures
  rw [List.filter_append, List.map_append, List.sum_append]

theorem Books.trans (h : Books env w w' lines calls own)
    (h' : Books env w' w'' lines' calls' own') :
    Books env w w'' (lines' ++ lines) (calls' ++ calls) (own + own') where
  meter := by rw [h'.meter, h.meter, List.append_assoc]
  sent := by rw [h'.sent, h.sent, List.append_assoc]
  failed := by
    rw [h'.failed, h.failed, noticeFailures_append]
    omega

/-- A stage that comes after one that writes nothing. -/
theorem Books.after (hbefore : Books env w w' [] [] 0) (h : Books env w' w'' lines calls own) :
    Books env w w'' lines calls own := by
  have hboth := hbefore.trans h
  rwa [List.append_nil, List.append_nil, Nat.zero_add] at hboth

/-- A stage that writes none of the three. -/
theorem Books.same (hmeter : w'.meter = w.meter) (hsent : w'.sent = w.sent)
    (hmetrics : w'.metrics = w.metrics) : Books env w w' [] [] 0 where
  meter := hmeter
  sent := hsent
  failed := by
    unfold failures
    rw [hmetrics]
    rfl

theorem Books.callsSince (h : Books env w w' lines calls own) : w'.callsSince w = calls := by
  unfold World.callsSince
  rw [h.sent, List.length_append, Nat.add_sub_cancel]
  exact List.take_left

theorem books_measure (h : Books env w w' [] calls own) (mail : Mail) (thread : Json)
    (outcome : String) :
    ∃ line, line.outcome = outcome ∧
      Books env w (w'.measure mail thread outcome) [line] calls own :=
  ⟨_, rfl, congrArg (List.cons _) h.meter, h.sent, h.failed⟩

theorem books_deliver {net : Net} {signature : Except PyError String} {wire : Wire} {d : Delivery}
    (h : deliver env net signature wire w = (.ok d, w')) :
    env.post net signature wire.url = .ok d ∧ w'.meter = w.meter ∧ w'.sent = wire :: w.sent ∧
      failures w' = failures w + d.metrics.count "failed" := by
  have hpost := deliver_fst env net signature wire w
  rw [h] at hpost
  have hloop : (env.loopback wire.url).isOk = true := by
    obtain ⟨allowed, hallowed, -⟩ := bind_ok hpost.symm
    rw [hallowed]
    rfl
  refine ⟨hpost.symm, ?_⟩
  unfold deliver at h
  rw [← hpost, if_pos hloop] at h
  obtain rfl := (Prod.mk.inj h).2
  refine ⟨rfl, rfl, ?_⟩
  have hcount : (d.metrics.map (Prod.mk "send")).count ("send", "failed") =
      d.metrics.count "failed" :=
    List.count_map_of_injective _ _ (Prod.mk_right_injective "send") "failed"
  unfold failures
  rw [List.count_append, hcount, Nat.add_comm]

/-- The delivery of the message itself. -/
theorem books_own {padded url : String} {d : Delivery}
    (h : deliver env env.net env.signature (env.wire mail padded url) w = (.ok d, w')) :
    Books env w w' [] [env.wire mail padded url] (d.metrics.count "failed") := by
  obtain ⟨-, hmeter, hsent, hfailed⟩ := books_deliver h
  exact ⟨hmeter, hsent, hfailed⟩

/-- The delivery of a notice counts nothing of its own. -/
theorem books_dsn {dsnFrom text url : String} {d : Delivery}
    (h : deliver env env.dsnNet env.dsnSignature (env.dsnWire dsnFrom text url) w = (.ok d, w')) :
    Books env w w' [] [env.dsnWire dsnFrom text url] 0 := by
  obtain ⟨hpost, hmeter, hsent, hfailed⟩ := books_deliver h
  refine ⟨hmeter, hsent, ?_⟩
  have hnotice : noticeFailures env [env.dsnWire dsnFrom text url] = d.metrics.count "failed" := by
    show noticeFailed env (env.dsnWire dsnFrom text url) + 0 = _
    unfold noticeFailed
    rw [hpost, Nat.add_zero]
  rw [hfailed, hnotice, Nat.add_zero]

theorem books_queueMessage {item : Outbox.Uuid} {fromAgent toAgent text : String}
    {ref anchor : Option String} {isDsn : Bool}
    (h : queueMessage env item fromAgent toAgent text ref isDsn anchor w = (.ok (), w')) :
    Books env w w' [] [] 0 := by
  unfold queueMessage at h
  split at h
  · cases h
  · obtain rfl := (Prod.mk.inj h).2
    refine ⟨rfl, rfl, ?_⟩
    exact List.count_cons_of_ne (by decide)

/-- A notice writes no line, and makes no delivery but its own. -/
theorem books_notice {dsnFrom dsnTo originalId reason originalFrom originalTo : String}
    (h : sendDeliveryError env dsnFrom dsnTo originalId reason originalFrom originalTo w =
      (.ok (), w')) :
    ∃ calls, (∀ wire ∈ calls, wire.isNotice = true) ∧ Books env w w' [] calls 0 := by
  have hquiet : w = w' → ∃ calls, (∀ wire ∈ calls, wire.isNotice = true) ∧
      Books env w w' [] calls 0 := by
    rintro rfl
    exact ⟨[], nofun, .same rfl rfl rfl⟩
  unfold sendDeliveryError at h
  split at h
  · exact hquiet (Prod.mk.inj h).2
  · split at h
    · dsimp only at h
      split at h
      · cases h
      · split at h
        · cases h
        · rename_i hdeliver
          have hbooks := books_dsn hdeliver
          split at h
          · exact ⟨_, List.forall_mem_singleton.mpr rfl, hbooks.trans (books_queueMessage h)⟩
          · obtain rfl := (Prod.mk.inj h).2
            exact ⟨_, List.forall_mem_singleton.mpr rfl, hbooks⟩
      · exact hquiet (Prod.mk.inj h).2
    · exact hquiet (Prod.mk.inj h).2

theorem books_recordPending {result : Except PyError Unit}
    (h : recordPending env mail w = (result, w')) : Books env w w' [] [] 0 := by
  unfold recordPending at h
  split at h
  · dsimp only at h
    split at h <;> obtain rfl := (Prod.mk.inj h).2 <;> exact .same rfl rfl rfl
  · obtain rfl := (Prod.mk.inj h).2
    exact .same rfl rfl rfl

theorem books_withdrawPending (env : Env) (mail : Mail) (w : World) :
    Books env w (withdrawPending env mail w) [] [] 0 := by
  unfold withdrawPending
  split <;> exact .same rfl rfl rfl

theorem books_promotePending (env : Env) (mail : Mail) (w : World) :
    Books env w (promotePending env mail w) [] [] 0 := by
  unfold promotePending
  split <;> exact .same rfl rfl rfl

theorem books_prepare (hprep : prepare env args kwargs w = (.ok mail, w₀)) :
    Books env w w₀ [] [] 0 := by
  unfold prepare at hprep
  split at hprep
  · cases hprep
  · dsimp only at hprep
    split_ifs at hprep
    · cases hprep
    · obtain rfl := (Prod.mk.inj hprep).2
      exact .same rfl rfl rfl

/-! ## The gate -/

theorem books_granted (hgate : gate env mail w = (.ok held, w₁)) : Books env w w₁ [] [] 0 := by
  rcases gate_cases env mail w with ⟨-, heq⟩ | ⟨-, _, _, heq, -⟩ | ⟨-, heq⟩ | ⟨-, -, -, heq⟩ <;>
    rw [hgate] at heq <;> cases heq <;> exact .same rfl rfl rfl

theorem books_refused {refusal : Response} (hgate : gate env mail w = (.error refusal, w₁)) :
    refusal.outcome = "refused" ∧
      ∃ line, line.outcome = "refused" ∧ Books env w w₁ [line] [] 0 := by
  unfold gate at hgate
  cases hreply : mail.reply with
  | no => rw [hreply] at hgate; cases hgate
  | end_ => rw [hreply] at hgate; cases hgate
  | yes =>
    rw [hreply] at hgate
    dsimp only at hgate
    have hclaim : Books env w { w with leases := (env.claimDoor mail w.leases).2 } [] [] 0 :=
      .same rfl rfl rfl
    split_ifs at hgate
    · cases hgate
    · split at hgate <;> cases hgate
      · exact ⟨rfl, books_measure hclaim mail _ "refused"⟩
      · exact ⟨rfl, books_measure hclaim mail _ "refused"⟩

theorem refused_of_gate {refusal : Response} (hgate : gate env mail w = (.error refusal, w₁)) :
    Refused env mail w.leases := by
  rcases gate_cases env mail w with ⟨-, heq⟩ | ⟨hrefused, -⟩ | ⟨-, heq⟩ | ⟨-, -, -, heq⟩
  · rw [hgate] at heq; cases heq
  · exact hrefused
  · rw [hgate] at heq; cases heq
  · rw [hgate] at heq; cases heq

theorem not_refused_of_gate (hgate : gate env mail w = (.ok held, w₁)) :
    ¬ Refused env mail w.leases := by
  intro hrefused
  rcases gate_cases env mail w with ⟨hjoined, -⟩ | ⟨-, _, _, heq, -⟩ | ⟨hopens, -⟩ | ⟨-, hno, -⟩
  · exact hrefused.not_joined hjoined
  · rw [hgate] at heq; cases heq
  · exact hopens.not_refused hrefused
  · exact hno hrefused

/-! ## After the gate -/

theorem books_unresolved {text : String} (h : unresolved env mail text w = (.ok resp, w')) :
    ∃ calls, (∀ wire ∈ calls, wire.isNotice = true) ∧ Books env w w' [] calls 0 := by
  unfold unresolved at h
  split at h
  · cases h
  · rename_i hnotify
    obtain rfl := (Prod.mk.inj h).2
    exact books_notice hnotify

/-- Before the attempt no line is written. -/
theorem books_unattempted (ha : ¬ Attempted env mail)
    (h : forward env mail held w = (.ok resp, w')) :
    ∃ calls, (∀ wire ∈ calls, wire.isNotice = true) ∧ Books env w w' [] calls 0 := by
  rcases forward_stops held w ha with ⟨stop, -, heq⟩ | ⟨text, heq⟩ <;> rw [heq] at h
  · obtain rfl := (Prod.mk.inj h).2
    exact ⟨[], List.forall_mem_nil _, .same rfl rfl rfl⟩
  · exact books_unresolved h

theorem books_delivered {padded : String} {deliveryId : Json}
    (h : delivered env mail padded deliveryId w = (.ok resp, w')) :
    resp.outcome = "delivered" ∧
      ∃ line, line.outcome = "delivered" ∧ Books env w w' [line] [] 0 := by
  have hstate : resp.state = some "completed" := delivered_state (congrArg Prod.fst h)
  obtain ⟨-, h⟩ := delivered_ok h
  unfold completed at h
  dsimp only at h
  obtain rfl := (Prod.mk.inj h).2
  refine ⟨if_pos hstate, ?_⟩
  have hbook : Books env w { w with
      floats := (padded, mail.self) :: w.floats
      leases := (bookkeeping env mail deliveryId w.leases).2 } [] [] 0 := .same rfl rfl rfl
  exact books_measure (hbook.trans (books_promotePending env mail _)) mail _ "delivered"

theorem books_queued {padded : String} (h : queued env mail padded w = (.ok resp, w')) :
    Books env w w' [] [] 0 := by
  unfold queued at h
  dsimp only at h
  split at h
  · cases h
  · rename_i hqueue
    obtain rfl := (Prod.mk.inj h).2
    exact books_queueMessage hqueue

theorem webhook_text_ne (rest : String) : "Webhook to agent '" ++ rest ≠ "E-BUSY" := by
  intro h
  have hfirst := congrArg (fun s : String => s.toList.head?) h
  simp only [String.toList_append] at hfirst
  cases hfirst

theorem failed_outcome {reason : Option String}
    (h : (failed env mail held reason w).1 = .ok resp) : resp.outcome = "failed" := by
  have hnone : resp.state = none := failed_state h
  have hbusy : (Json.get "error" resp).isStr "E-BUSY" = false := by
    unfold failed at h
    split at h
    · cases h
    · obtain rfl := Except.ok.inj h
      have htext : "Webhook to agent '" ++ mail.agent ++ "' failed after " ++
          toString env.budget.retries ++ " attempts" ≠ "E-BUSY" := by
        rw [String.append_assoc, String.append_assoc, String.append_assoc]
        exact webhook_text_ne _
      exact decide_eq_false htext
  unfold Response.outcome
  rw [hnone, hbusy]
  rfl

theorem books_failed {reason : Option String}
    (h : failed env mail held reason w = (.ok resp, w')) :
    resp.outcome = "failed" ∧ ∃ line calls, line.outcome = "failed" ∧
      (∀ wire ∈ calls, wire.isNotice = true) ∧ Books env w w' [line] calls 0 := by
  refine ⟨failed_outcome (congrArg Prod.fst h), ?_⟩
  unfold failed at h
  split at h
  · cases h
  · rename_i w₁ hnotify
    obtain rfl := (Prod.mk.inj h).2
    obtain ⟨calls, hcalls, hbooks⟩ := books_notice hnotify
    obtain ⟨line, hline, hmeasured⟩ := books_measure hbooks mail (.str mail.taskId) "failed"
    exact ⟨line, calls, hline, hcalls, hmeasured.meter, hmeasured.sent, hmeasured.failed⟩

/-- How a call that comes to the delivery attempt ends: with the delivery `d` of `wire`. -/
inductive Ended (env : Env) (w w' : World) (resp : Response) (wire : Wire) (d : Delivery) : Prop
  | delivered {line : MeterLine} (hid : d.deliveryId.isSome = true)
      (hbooks : Books env w w' [line] [wire] (d.metrics.count "failed"))
      (hline : line.outcome = resp.outcome)
  | queued (hid : d.deliveryId.isSome = false) (houtbox : env.outboxEnabled = true)
      (hbooks : Books env w w' [] [wire] (d.metrics.count "failed" + 1))
  | failed {line : MeterLine} {notices : List Wire} (hid : d.deliveryId.isSome = false)
      (houtbox : env.outboxEnabled = false) (hnotices : ∀ wire ∈ notices, wire.isNotice = true)
      (hbooks : Books env w w' [line] (notices ++ [wire]) (d.metrics.count "failed" + 1))
      (hline : line.outcome = resp.outcome)

theorem dispatch_ended {padded url : String}
    (h : dispatch env mail held padded url w = (.ok resp, w')) :
    ∃ d, env.post env.net env.signature url = .ok d ∧
      Ended env w w' resp (env.wire mail padded url) d := by
  unfold dispatch at h
  generalize hrec : recordPending env mail w = r at h
  obtain ⟨e | ⟨⟩, w₁⟩ := r
  · cases h
  · dsimp only at h
    have hpending := books_recordPending hrec
    generalize hdel : deliver env env.net env.signature (env.wire mail padded url) w₁ = p at h
    obtain ⟨e | d, w₂⟩ := p
    · cases h
    · dsimp only at h
      have hpost := (books_deliver hdel).1
      have hbooks : Books env w w₂ [] [env.wire mail padded url] (d.metrics.count "failed") :=
        hpending.after (books_own hdel)
      refine ⟨d, hpost, ?_⟩
      cases hid : d.deliveryId.isSome with
      | true =>
        rw [hid, if_pos rfl] at h
        obtain ⟨hresp, line, hline, hdelivered⟩ := books_delivered h
        exact .delivered hid (hbooks.trans hdelivered) (hline.trans hresp.symm)
      | false =>
        rw [hid, if_neg Bool.false_ne_true] at h
        have hcounted : Books env w₂ { w₂ with metrics := ("send", "failed") :: w₂.metrics } [] []
            1 := ⟨rfl, rfl, List.count_cons_self⟩
        have hlost := (hbooks.trans hcounted).trans (books_withdrawPending env mail _)
        cases houtbox : env.outboxEnabled with
        | true =>
          rw [houtbox, if_pos rfl] at h
          exact .queued hid houtbox (hlost.trans (books_queued h))
        | false =>
          rw [houtbox, if_neg Bool.false_ne_true] at h
          obtain ⟨hresp, line, notices, hline, hnotices, hfailed⟩ := books_failed h
          exact .failed hid houtbox hnotices (hlost.trans hfailed) (hline.trans hresp.symm)

/-! ## What the delivery comes to -/

variable {url : String} {d : Delivery}

theorem routes_iff (hurl : env.target mail.agent = .ok (.ok url)) {allowLoopback : Bool}
    (hloop : env.loopback url = .ok allowLoopback) {P : Bool → List Ip → Prop} :
    (∃ allowLoopback ips, Routes env mail allowLoopback ips ∧ P allowLoopback ips) ↔
      ∃ ips, resolveTargetUrl url env.net.host env.net.resolved allowLoopback = .ok ips ∧
        P allowLoopback ips := by
  constructor
  · rintro ⟨allowed, ips, ⟨url', hurl', hloop', hres⟩, hP⟩
    obtain rfl := Except.ok.inj (Except.ok.inj (hurl.symm.trans hurl'))
    obtain rfl := Except.ok.inj (hloop.symm.trans hloop')
    exact ⟨ips, hres, hP⟩
  · rintro ⟨ips, hres, hP⟩
    exact ⟨allowLoopback, ips, ⟨url, hurl, hloop, hres⟩, hP⟩

theorem MailLands.not_givesUp (h : MailLands env mail) : ¬ MailGivesUp env mail := by
  rintro ⟨allowed', ips', ⟨url', hurl', hloop', hres'⟩, hgives⟩
  obtain ⟨allowed, ips, ⟨url, hurl, hloop, hres⟩, deliveryId, -, hlands⟩ := h
  obtain rfl := Except.ok.inj (Except.ok.inj (hurl.symm.trans hurl'))
  obtain rfl := Except.ok.inj (hloop.symm.trans hloop')
  obtain rfl := Except.ok.inj (hres.symm.trans hres')
  exact hlands.not_givesUp hgives

theorem mailLands_iff (hurl : env.target mail.agent = .ok (.ok url))
    (hpost : env.post env.net env.signature url = .ok d) :
    MailLands env mail ↔ d.deliveryId.isSome = true := by
  obtain ⟨allowed, hloop, hweb⟩ := bind_ok hpost
  rw [deliveryId_isSome_iff hweb]
  exact routes_iff hurl hloop

theorem mailGivesUp_count (hurl : env.target mail.agent = .ok (.ok url))
    (hpost : env.post env.net env.signature url = .ok d) :
    (d.metrics.count "failed" = 1 ∧ MailGivesUp env mail) ∨
      (d.metrics.count "failed" = 0 ∧ ¬ MailGivesUp env mail) := by
  obtain ⟨allowed, hloop, hweb⟩ := bind_ok hpost
  have hiff : MailGivesUp env mail ↔ _ := routes_iff hurl hloop
  rw [hiff]
  exact failed_count hweb

/-! ## When the accounting is exact -/

theorem Books.exact_iff (h : Books env w w' lines calls own) :
    Accounted env w w' resp ↔ (∃ line, lines = [line] ∧ line.outcome = resp.outcome) ∧
      (AttemptFailed env calls → own = 1) ∧ (¬ AttemptFailed env calls → own = 0) := by
  have hcalls := h.callsSince
  have hfailed := h.failed
  constructor
  · intro ha
    obtain ⟨line, hmeter, hline⟩ := ha.meter
    have hlines : lines ++ w.meter = [line] ++ w.meter := h.meter.symm.trans hmeter
    refine ⟨⟨line, List.append_cancel_right hlines, hline⟩, fun hlost => ?_, fun hno => ?_⟩
    · have hcount := ha.failed (by rwa [hcalls])
      rw [hcalls] at hcount
      omega
    · have hcount := ha.other (by rwa [hcalls])
      rw [hcalls] at hcount
      omega
  · rintro ⟨⟨line, rfl, hline⟩, hlost, hno⟩
    refine ⟨⟨line, h.meter, hline⟩, fun hf => ?_, fun hf => ?_⟩ <;> rw [hcalls] at hf ⊢
    · have hown := hlost hf
      omega
    · have hown := hno hf
      omega

theorem attemptFailed_append {notices : List Wire} {wire : Wire}
    (hnotices : ∀ wire ∈ notices, wire.isNotice = true) (hown : wire.isNotice = false)
    (hpost : env.post env.net env.signature wire.url = .ok d) :
    AttemptFailed env (notices ++ [wire]) ↔ d.deliveryId.isSome = false := by
  constructor
  · rintro ⟨wire', hmem, hno, d', hpost', hid⟩
    rcases List.mem_append.mp hmem with hmem | hmem
    · rw [hnotices wire' hmem] at hno
      cases hno
    · obtain rfl := List.mem_singleton.mp hmem
      obtain rfl := Except.ok.inj (hpost.symm.trans hpost')
      exact hid
  · exact fun hid => ⟨wire, List.mem_append_right _ (List.mem_singleton_self _), hown, d, hpost, hid⟩

theorem not_accounted_of_no_line (h : Books env w w' [] calls own) : ¬ Accounted env w w' resp := by
  intro ha
  obtain ⟨line, hnil, -⟩ := (h.exact_iff.mp ha).1
  cases hnil

/-- A call that comes to the delivery attempt is accounted for where the message lands, and where it
does not, with the outbox off, and `_deliver_webhook` has not given up. -/
theorem attempted_accounted_iff (ha : Attempted env mail) (hbefore : Books env w w₁ [] [] 0)
    (h : forward env mail held w₁ = (.ok resp, w')) :
    Accounted env w w' resp ↔
      MailLands env mail ∨ env.outboxEnabled = false ∧ ¬ MailGivesUp env mail := by
  obtain ⟨session, fromSession, url, -, hurl, heq⟩ := forward_attempted (w := w₁) held ha
  rw [heq] at h
  obtain ⟨d, hpost, hended⟩ := dispatch_ended h
  have hlands := mailLands_iff hurl hpost
  have hwire : env.post env.net env.signature
      (env.wire mail (mail.padded session fromSession) url).url = .ok d := hpost
  cases hended with
  | @delivered line hid hbooks hline =>
    have hland : MailLands env mail := hlands.mpr hid
    refine iff_of_true ((hbefore.after hbooks).exact_iff.mpr ⟨⟨line, rfl, hline⟩, ?_, ?_⟩)
      (.inl hland)
    · intro hlost
      have hnone := (attemptFailed_append (List.forall_mem_nil _) rfl hwire).mp hlost
      rw [hid] at hnone
      cases hnone
    · intro _
      rcases mailGivesUp_count hurl hpost with ⟨-, hgives⟩ | ⟨hcount, -⟩
      · exact absurd hgives hland.not_givesUp
      · exact hcount
  | queued hid houtbox hbooks =>
    refine iff_of_false (not_accounted_of_no_line (hbefore.after hbooks)) ?_
    rintro (hland | ⟨hoff, -⟩)
    · rw [hlands.mp hland] at hid
      cases hid
    · rw [houtbox] at hoff
      cases hoff
  | @failed line notices hid houtbox hnotices hbooks hline =>
    have hlost := (attemptFailed_append hnotices rfl hwire).mpr hid
    have hno : ¬ MailLands env mail := by
      rw [hlands, hid]
      exact Bool.false_ne_true
    rw [(hbefore.after hbooks).exact_iff]
    rcases mailGivesUp_count hurl hpost with ⟨hcount, hgives⟩ | ⟨hcount, hgives⟩ <;> rw [hcount]
    · refine iff_of_false (fun h => absurd (h.2.1 hlost) (by decide)) ?_
      rintro (hland | ⟨-, hnot⟩)
      · exact hno hland
      · exact hnot hgives
    · exact iff_of_true ⟨⟨line, rfl, hline⟩, fun _ => rfl, fun h => absurd hlost h⟩
        (.inr ⟨houtbox, hgives⟩)

/-- **When send accounting is exact.** For every call that gets to the busy gate and returns: one
line with the outcome of the response, and one failure for a delivery that failed, exactly where the
gate refuses, or the delivery is attempted and the message lands, or it is lost with the outbox off
without `_deliver_webhook` giving up on an attempt. -/
theorem accounted_iff (hprep : prepare env args kwargs w = (.ok mail, w₀))
    (hsend : handleMeshSend env args kwargs w = (.ok resp, w')) :
    Accounted env w w' resp ↔ Refused env mail w.leases ∨
      Attempted env mail ∧
        (MailLands env mail ∨ env.outboxEnabled = false ∧ ¬ MailGivesUp env mail) := by
  have hbefore := books_prepare hprep
  rw [← prepared_leases hprep]
  rcases handleMeshSend_returns hprep hsend with hgate | ⟨held, w₁, hgate, hforward⟩
  · obtain ⟨hrefusal, line, hline, hbooks⟩ := books_refused hgate
    have hnotFailed : ¬ AttemptFailed env [] := nofun
    refine iff_of_true ?_ (.inl (refused_of_gate hgate))
    exact (hbefore.after hbooks).exact_iff.mpr ⟨⟨line, rfl, hline.trans hrefusal.symm⟩,
      fun h => absurd h hnotFailed, fun _ => rfl⟩
  · have hnot := not_refused_of_gate hgate
    have hgranted := hbefore.after (books_granted hgate)
    by_cases ha : Attempted env mail
    · rw [attempted_accounted_iff ha hgranted hforward]
      exact ⟨fun h => .inr ⟨ha, h⟩, fun h => (h.resolve_left hnot).2⟩
    · obtain ⟨calls, -, hbooks⟩ := books_unattempted ha hforward
      refine iff_of_false (not_accounted_of_no_line (hgranted.after hbooks)) ?_
      rintro (hrefused | ⟨hattempted, -⟩)
      · exact hnot hrefused
      · exact ha hattempted

/-- What a call comes to: whether it got to the gate, its outcome, the lines of the meter, and the
failures counted in all and for its notices. -/
def booked (env : Env) (args : List (String × Json)) (w : World) :
    Bool × Option String × ℕ × ℕ × ℕ :=
  let call := handleMeshSend env args [] w
  ((prepare env args [] w).1.isOk, call.1.toOption.map fun r : Response => r.outcome,
    call.2.meter.length, failures call.2, noticeFailures env (call.2.callsSince w))

theorem exists_of_booked {outcome : String} {written counted notices : ℕ}
    (h : booked env args w = (true, some outcome, written, counted, notices)) :
    ∃ mail w₀ resp w', prepare env args [] w = (.ok mail, w₀) ∧
      handleMeshSend env args [] w = (.ok resp, w') ∧ resp.outcome = outcome ∧
      w'.meter.length = written ∧ failures w' = counted ∧
      noticeFailures env (w'.callsSince w) = notices := by
  unfold booked at h
  dsimp only at h
  simp only [Prod.mk.injEq] at h
  obtain ⟨hprep, houtcome, hwritten, hcounted, hnotices⟩ := h
  generalize prepare env args [] w = p at hprep ⊢
  generalize handleMeshSend env args [] w = c at houtcome hwritten hcounted hnotices ⊢
  obtain ⟨stop | mail, w₀⟩ := p
  · cases hprep
  · obtain ⟨e | resp, w'⟩ := c
    · cases houtcome
    · exact ⟨mail, w₀, resp, w', rfl, rfl, Option.some.inj houtcome, hwritten, hcounted, hnotices⟩

theorem accounted_iff_up :
    ∃ mail w₀ resp w', prepare zeroUp question [] emptyWorld = (.ok mail, w₀) ∧
      handleMeshSend zeroUp question [] emptyWorld = (.ok resp, w') ∧
      resp.outcome = "delivered" ∧ w'.meter.length = 1 ∧ failures w' = 0 ∧
      (Accounted zeroUp emptyWorld w' resp ↔ Refused zeroUp mail emptyWorld.leases ∨
        Attempted zeroUp mail ∧
          (MailLands zeroUp mail ∨ zeroUp.outboxEnabled = false ∧ ¬ MailGivesUp zeroUp mail)) := by
  have hbooked : booked zeroUp question emptyWorld = (true, some "delivered", 1, 0, 0) := by
    decide +kernel
  obtain ⟨mail, w₀, resp, w', hprep, hsend, houtcome, hwritten, hcounted, -⟩ :=
    exists_of_booked hbooked
  exact ⟨mail, w₀, resp, w', hprep, hsend, houtcome, hwritten, hcounted,
    accounted_iff hprep hsend⟩

/-- The question to a peer that is down leaves no line where it is queued, and is counted twice
where it is not. -/
theorem question_miscounted :
    (∃ mail w₀ resp w', prepare zeroQueues question [] emptyWorld = (.ok mail, w₀) ∧
      handleMeshSend zeroQueues question [] emptyWorld = (.ok resp, w') ∧
      resp.outcome = "queued" ∧ w'.meter.length = 0 ∧
      ¬ Accounted zeroQueues emptyWorld w' resp) ∧
    ∃ mail w₀ resp w', prepare zeroDown question [] emptyWorld = (.ok mail, w₀) ∧
      handleMeshSend zeroDown question [] emptyWorld = (.ok resp, w') ∧
      resp.outcome = "failed" ∧ failures w' = 2 ∧ ¬ Accounted zeroDown emptyWorld w' resp := by
  have hqueued : booked zeroQueues question emptyWorld = (true, some "queued", 0, 2, 0) := by
    decide +kernel
  have hfailed : booked zeroDown question emptyWorld = (true, some "failed", 1, 2, 0) := by
    decide +kernel
  obtain ⟨mail, w₀, resp, w', hprep, hsend, houtcome, hwritten, -⟩ := exists_of_booked hqueued
  obtain ⟨mail', v₀, resp', v', hprep', hsend', houtcome', -, hcounted, hnotices⟩ :=
    exists_of_booked hfailed
  refine ⟨⟨mail, w₀, resp, w', hprep, hsend, houtcome, hwritten, fun h => ?_⟩,
    mail', v₀, resp', v', hprep', hsend', houtcome', hcounted, fun h => ?_⟩
  · obtain ⟨line, hline, -⟩ := h.meter
    rw [hline, List.length_cons] at hwritten
    omega
  · have hbefore : failures emptyWorld = 0 := rfl
    by_cases hlost : AttemptFailed zeroDown (v'.callsSince emptyWorld)
    · have hcount := h.failed hlost
      omega
    · have hcount := h.other hlost
      omega

end HermesMesh
