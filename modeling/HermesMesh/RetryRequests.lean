import HermesMesh.EnvelopeRoundTrip
import HermesMesh.QueuedItems

/-!
# The requests of the retries

`handle_mesh_send`, `_send_delivery_error` and `_attempt_item` each compose a call of
`_deliver_webhook` of their own. The retry passes no extra headers, so a notice loses its `X-Mesh-DSN`
and with it the receiver's promise not to answer it by a notice; and it signs with the timestamp
wherever `extra` asks for it, which the first attempt does not look at. `retry_same_request_iff` says
where nothing of this shows.
-/

namespace HermesMesh

variable {env env' : Env} {item : Outbox.Item} {wire wire' : Wire} {extra : List (String × Json)}
  {v v₁ : World} {p : Posting} {pen : Pen} {key time : String} {post : Post}

/-- The header by which a receiver knows a notice. -/
def Post.marked (post : Post) : Bool := post.headers.lookup dsnHeader.1 = some dsnHeader.2

/-- The same request, up to the timestamp and the signature. -/
structure SamePost (post post' : Post) : Prop where
  body : post'.body = post.body
  headers : ∀ name, name ≠ "X-Mesh-Timestamp" → name ≠ "X-Mesh-Signature" →
    post'.headers.lookup name = post.headers.lookup name

/-- Whatever a receiver answers to the request, it sends no notice. -/
def Quiet (request : Intake.Request) : Prop :=
  ∀ cfg kit meets p s answer s', p.request = request →
    Intake.takeIn cfg kit meets p s = (.ok answer, s') → answer.notice = none

/-- The retry of an item sends what its first attempt sent, and no notice is ever answered by a
notice. -/
structure RetryEquals (item : Outbox.Item) (wire wire' : Wire) : Prop where
  url : wire'.url = wire.url
  signTimestamp : wire'.signTimestamp = wire.signTimestamp
  post : ∀ pen key time time' post post', compose pen key time wire = .ok post →
    compose pen key time' wire' = .ok post' → SamePost post post'
  marked : ∀ pen key time post', compose pen key time wire' = .ok post' →
    post'.marked = item.isDsn
  quiet : item.isDsn = true → ∀ pen key time post, (compose pen key time wire = .ok post ∨
    compose pen key time wire' = .ok post) → Quiet post.received

/-! ## What is composed -/

/-- The headers in their order. -/
theorem compose_post (dsn : Bool) (hheaders : wire.headers = if dsn then [dsnHeader] else [])
    (h : compose pen key time wire = .ok post) :
    ∃ signature, post = ⟨[("Content-Type", "application/json"), ("X-Mesh-Timestamp", time)] ++
      (if dsn then [dsnHeader] else []) ++ [("X-Mesh-Signature", signature)],
      pen.dumps wire.payload⟩ := by
  obtain ⟨signature, -, h⟩ := bind_ok h
  obtain rfl := Except.ok.inj h
  refine ⟨signature, ?_⟩
  unfold Wire.opening
  rw [hheaders]
  cases dsn <;> rfl

theorem marked_compose (dsn : Bool) (hheaders : wire.headers = if dsn then [dsnHeader] else [])
    (h : compose pen key time wire = .ok post) : post.marked = dsn := by
  obtain ⟨signature, rfl⟩ := compose_post dsn hheaders h
  cases dsn <;> rfl

/-- One call composes the same request at any time. -/
theorem samePost_compose {time' : String} {post' : Post} (dsn : Bool)
    (hheaders : wire.headers = if dsn then [dsnHeader] else [])
    (h : compose pen key time wire = .ok post) (h' : compose pen key time' wire = .ok post') :
    SamePost post post' := by
  obtain ⟨signature, rfl⟩ := compose_post dsn hheaders h
  obtain ⟨signature', rfl⟩ := compose_post dsn hheaders h'
  refine ⟨rfl, fun name htime hsignature => ?_⟩
  have htime : (name == "X-Mesh-Timestamp") = false := beq_eq_false_iff_ne.mpr htime
  have hsignature : (name == "X-Mesh-Signature") = false := beq_eq_false_iff_ne.mpr hsignature
  cases dsn <;> simp [List.lookup_cons, dsnHeader, htime, hsignature]

/-- Every call can be composed. -/
theorem compose_some (wire : Wire) :
    ∃ post, compose ⟨fun _ => "", fun _ _ => .ok ""⟩ "" "" wire = .ok post := ⟨_, rfl⟩

/-! ## What a receiver answers -/

theorem receiveDsn_marked {cfg : Intake.Config} {request : Intake.Request} {sender : Json}
    {msgId reason : String} (h : request.isDsn = true) :
    Intake.receiveDsn cfg request sender msgId reason = none := by
  unfold Intake.receiveDsn
  rw [h, Bool.or_true, Bool.true_or, Bool.true_or, if_pos rfl]

theorem screen_notice {cfg : Intake.Config} {kit : Intake.Kit} {meets : Intake.Meets}
    {q : Intake.Pending} {s s' : Intake.Adapter} {answer : Intake.Answer}
    (hdsn : q.request.isDsn = true)
    (h : Intake.screen cfg kit meets q s = (.error answer, s')) : answer.notice = none := by
  unfold Intake.screen at h
  split at h
  · obtain rfl := Except.error.inj (Prod.mk.inj h).1
    rfl
  · dsimp only at h
    split_ifs at h
    · obtain rfl := Except.error.inj (Prod.mk.inj h).1
      exact receiveDsn_marked hdsn
    · obtain rfl := Except.error.inj (Prod.mk.inj h).1
      exact receiveDsn_marked hdsn
    · obtain rfl := Except.error.inj (Prod.mk.inj h).1
      exact receiveDsn_marked hdsn
    · obtain rfl := Except.error.inj (Prod.mk.inj h).1
      rfl
    · cases (Prod.mk.inj h).1
    · cases (Prod.mk.inj h).1

theorem enqueue_notice {cfg : Intake.Config} {kit : Intake.Kit} {meets : Intake.Meets}
    {q : Intake.Pending} {parsed : Parsed} {s s' : Intake.Adapter} {answer : Intake.Answer}
    (hdsn : q.request.isDsn = true)
    (h : Intake.enqueue cfg kit meets q parsed s = (.ok answer, s')) : answer.notice = none := by
  unfold Intake.enqueue at h
  split_ifs at h
  · obtain rfl := Except.ok.inj (Prod.mk.inj h).1
    rfl
  · split at h
    · cases (Prod.mk.inj h).1
    · split at h
      · cases (Prod.mk.inj h).1
      · split_ifs at h
        · obtain rfl := Except.ok.inj (Prod.mk.inj h).1
          exact receiveDsn_marked hdsn
        · obtain rfl := Except.ok.inj (Prod.mk.inj h).1
          rfl

/-- A request with the header is not answered by a notice. -/
theorem quiet_marked {request : Intake.Request} (h : request.isDsn = true) : Quiet request := by
  rintro cfg kit meets q s answer s' rfl htake
  unfold Intake.takeIn at htake
  split at htake
  · rename_i answer' s'' hscreen
    obtain rfl := Except.ok.inj (Prod.mk.inj htake).1
    exact screen_notice h hscreen
  · exact enqueue_notice h htake

/-- The first attempt of a notice is not answered by one. -/
theorem quiet_compose (hheaders : wire.headers = [dsnHeader])
    (h : compose pen key time wire = .ok post) : Quiet post.received := by
  obtain ⟨signature, -, hreceived⟩ := compose_received true hheaders h
  apply quiet_marked
  rw [hreceived]

/-! ## The retry -/

/-- The call of the retry. -/
theorem Outbox.Item.StandsFor.posting (h : item.StandsFor env wire) (henv : env.Unchanged env')
    {attempt : ℕ} {nextRetry : Time}
    (hbegin : beginAttempt env' extra (item.later attempt nextRetry).fields v = (.posting p, v₁)) :
    p.wire = some { wire with headers := [], signTimestamp := env'.retrySigns extra } := by
  have hresolve := beginAttempt_posting hbegin
  rw [h.resolveItem henv] at hresolve
  obtain rfl := Option.some.inj (Except.ok.inj hresolve)
  rfl

/-- **When a retry equals the first attempt.** For every message and every notice that is queued,
and every later attempt at it in the same environment: the retry sends the same request, and no
notice is answered by one, exactly where the item is no notice and `extra` asks for no timestamp
that the environment does not sign. -/
theorem retry_same_request_iff (hqueued : Queued env item wire) (henv : env.Unchanged env')
    {attempt : ℕ} {nextRetry : Time}
    (hbegin : beginAttempt env' extra (item.later attempt nextRetry).fields v = (.posting p, v₁)) :
    ∃ wire', p.wire = some wire' ∧ (RetryEquals item wire wire' ↔ item.isDsn = false ∧
      ((Json.get "sign_timestamp" extra).truthy = true → env.signTimestamp = true)) := by
  have hstands := hqueued.standsFor
  refine ⟨_, hstands.posting henv hbegin, ?_⟩
  have hsigns : env'.retrySigns extra = wire.signTimestamp ↔
      ((Json.get "sign_timestamp" extra).truthy = true → env.signTimestamp = true) := by
    have hor : ∀ a b : Bool, (a || b) = b ↔ (a = true → b = true) := by decide
    rw [hstands.signTimestamp, ← henv.signTimestamp]
    exact hor _ _
  constructor
  · intro h
    obtain ⟨post, hpost⟩ := compose_some
      { wire with headers := [], signTimestamp := env'.retrySigns extra }
    have hmarked := h.marked _ _ _ _ hpost
    rw [marked_compose false rfl hpost] at hmarked
    exact ⟨hmarked.symm, hsigns.mp h.signTimestamp⟩
  · rintro ⟨hdsn, hsign⟩
    have hheaders : wire.headers = [] := by
      rw [hstands.headers, hdsn]
      rfl
    have hwire : { wire with headers := [], signTimestamp := env'.retrySigns extra } = wire := by
      rw [hsigns.mpr hsign, ← hheaders]
    rw [hwire]
    refine ⟨rfl, rfl, fun pen key time time' post post' h h' => ?_, ?_, ?_⟩
    · exact samePost_compose false hheaders h h'
    · intro pen key time post' h
      rw [hdsn]
      exact marked_compose false hheaders h
    · intro h
      rw [hdsn] at h
      cases h

/-- A notice to vera that her message did not arrive. -/
def lostNotice : String :=
  "[mesh][v:1][from:zero][to:vera][id:d1][action:info][reply:no][ref:m9] " ++
    "[mesh-dsn][status:failed][reason:unreachable]"

/-- A gateway that sends notices. -/
def zeroNotifies : Env := { zeroQueues with dsnEnabled := true, dsnText := fun _ => lostNotice }

def lostItem : Outbox.Item :=
  Outbox.newItem 0 0 0 "zero" "vera" lostNotice lostNotice 0 (some "m9") true none

/-- The call of the notice, and the call of its retry. -/
def lostWire : Wire :=
  { url := "http://peer", text := lostNotice, sender := "zero", headers := [dsnHeader] }

def lostRetry : Wire := { url := "http://peer", text := lostNotice, sender := "zero" }

/-- The wire of an attempt that comes to its delivery. -/
def Begun.request : Begun → Option Wire
  | .posting p => p.wire
  | _ => none

theorem lost_queued : Queued zeroNotifies lostItem lostWire ∧
    ∃ p v₁, beginAttempt zeroNotifies [] (lostItem.later 1 0).fields emptyWorld = (.posting p, v₁) ∧
      p.wire = some lostRetry := by
  have hleft : ((sendDeliveryError zeroNotifies "zero" "vera" "m9" "unreachable" "vera" "zero"
        emptyWorld).2.outbox,
      (sendDeliveryError zeroNotifies "zero" "vera" "m9" "unreachable" "vera" "zero"
        emptyWorld).2.sent.head?) = ([lostItem], some lostWire) := by
    decide +kernel
  have hwire : (beginAttempt zeroNotifies [] (lostItem.later 1 0).fields emptyWorld).1.request =
      some lostRetry := by
    decide +kernel
  obtain ⟨houtbox, hsent⟩ := Prod.mk.inj hleft
  refine ⟨.notice Prod.mk.eta.symm ?_ ?_ hsent, ?_⟩
  · rw [houtbox]
    exact List.cons_ne_nil _ _
  · rw [houtbox]
    rfl
  · generalize beginAttempt zeroNotifies [] (lostItem.later 1 0).fields emptyWorld = b at hwire
    obtain ⟨e | - | - | p, v₁⟩ := b
    · cases hwire
    · cases hwire
    · cases hwire
    · exact ⟨p, v₁, rfl, hwire⟩

theorem retry_same_request_iff_lost :
    ∃ p v₁, beginAttempt zeroNotifies [] (lostItem.later 1 0).fields emptyWorld = (.posting p, v₁) ∧
      ∃ wire', p.wire = some wire' ∧ (RetryEquals lostItem lostWire wire' ↔
        lostItem.isDsn = false ∧
          ((Json.get "sign_timestamp" []).truthy = true → zeroNotifies.signTimestamp = true)) := by
  obtain ⟨hqueued, p, v₁, hbegin, -⟩ := lost_queued
  exact ⟨p, v₁, hbegin, retry_same_request_iff hqueued ⟨rfl, rfl, rfl⟩ hbegin⟩

/-- The gateway of ada, which answers refused messages by a notice. -/
def adaNotifies : Intake.Config := { agentName := "ada", dsnEnabled := true }

def lostKit : Intake.Kit where
  valid := nameToken
  loads _ := .ok (.obj [("from", .str "zero"), ("text", .str lostNotice)])
  float _ := none
  verify _ _ _ := .ok true

def emptyAdapter : Intake.Adapter where
  closed := emptyWorld.closed

/-- The retry of the notice has lost its header, and a gateway that it reaches by mistake answers it
by a notice of its own. -/
theorem retried_notice_is_answered :
    ∃ p v₁ wire' post, Queued zeroNotifies lostItem lostWire ∧ lostItem.isDsn = true ∧
      zeroNotifies.Unchanged zeroNotifies ∧
      beginAttempt zeroNotifies [] (lostItem.later 1 0).fields emptyWorld = (.posting p, v₁) ∧
      p.wire = some wire' ∧ compose plainPen "key" "1000" wire' = .ok post ∧
      ¬ RetryEquals lostItem lostWire wire' ∧
      ∃ meets q answer s', q.request = post.received ∧
        Intake.takeIn adaNotifies lostKit meets q emptyAdapter = (.ok answer, s') ∧
        answer.status = 404 ∧ answer.notice.isSome = true := by
  obtain ⟨hqueued, p, v₁, hbegin, hwire⟩ := lost_queued
  obtain ⟨post, hpost⟩ : ∃ post, compose plainPen "key" "1000" lostRetry = .ok post := ⟨_, rfl⟩
  obtain ⟨signature, hsign, hreceived⟩ := compose_received false rfl hpost
  obtain rfl := Except.ok.inj hsign
  refine ⟨p, v₁, lostRetry, post, hqueued, rfl, ⟨rfl, rfl, rfl⟩, hbegin, hwire, hpost, fun h => ?_,
    ?_⟩
  · have hmarked := h.marked _ _ _ _ hpost
    rw [marked_compose false rfl hpost] at hmarked
    cases hmarked
  · have hanswer : ((Intake.takeIn adaNotifies lostKit ⟨1000, {}, {}, 1000, 1000⟩
        ⟨post.received, lostNotice, .str "zero", .ready⟩ emptyAdapter).1.toOption.map fun a =>
          (a.status, a.notice.isSome)) = some (404, true) := by
      rw [hreceived]
      decide +kernel
    generalize htake : Intake.takeIn adaNotifies lostKit ⟨1000, {}, {}, 1000, 1000⟩
      ⟨post.received, lostNotice, .str "zero", .ready⟩ emptyAdapter = c at hanswer
    obtain ⟨e | answer, s'⟩ := c
    · cases hanswer
    · obtain ⟨hstatus, hnotice⟩ := Prod.mk.inj (Option.some.inj hanswer)
      exact ⟨_, _, answer, s', rfl, htake, hstatus, hnotice⟩

end HermesMesh
