import HermesMesh.Attempt
import HermesMesh.FailedSends
import HermesMesh.SendTokens

/-!
# From the first attempt to the outbox

What the item of a failed send and of a failed notice holds, and what the retry makes of it. Later
sweeps rewrite two of its fields only, `attempt` and `next_retry`.
-/

namespace HermesMesh

open OpenThreads

variable {env env' : Env} {mail : Mail} {args kwargs extra : List (String × Json)} {w w₀ w' v v₁ : World}
  {resp : Response} {held : Bool} {item : Outbox.Item} {wire : Wire} {p : Posting}

/-- The item of a message. -/
def Env.queuedItem (env : Env) (mail : Mail) (padded : String) : Outbox.Item :=
  Outbox.newItem env.item env.createdAt env.nextRetry mail.self mail.agent padded padded 0 mail.ref
    false (if mail.reply = .end_ then some mail.taskId else none)

/-- The item of a notice. -/
def Env.queuedNotice (env : Env) (dsnFrom dsnTo text originalId : String) : Outbox.Item :=
  Outbox.newItem env.dsnItem env.createdAt env.nextRetry dsnFrom dsnTo text text 0 (some originalId)
    true none

/-- The item as a later sweep finds it. -/
def Outbox.Item.later (item : Outbox.Item) (attempt : ℕ) (nextRetry : Time) : Outbox.Item :=
  { item with attempt, nextRetry }

/-- The first attempt at a message that was then queued: the item, and the request of that attempt. -/
inductive Queued (env : Env) (item : Outbox.Item) (wire : Wire) : Prop where
  | message {args kwargs : List (String × Json)} {w w' : World} {resp : Response}
      (hsend : handleMeshSend env args kwargs w = (.ok resp, w'))
      (hstate : resp.state = some "queued") (hitem : w'.outbox.head? = some item)
      (hwire : w'.sent.head? = some wire)
  | notice {dsnFrom dsnTo originalId reason originalFrom originalTo : String} {w w' : World}
      {result : Except PyError Unit}
      (hcall : sendDeliveryError env dsnFrom dsnTo originalId reason originalFrom originalTo w =
        (result, w'))
      (hqueued : w'.outbox ≠ w.outbox) (hitem : w'.outbox.head? = some item)
      (hwire : w'.sent.head? = some wire)

/-! ## Messages -/

theorem readChoice_answer {α : Type} {choose : String → Option α} {refused : String} {v : Json}
    {r : Response} (h : readChoice choose refused v = .error (.answer r)) : r.Fails := by
  unfold readChoice at h
  split at h
  · split at h
    · cases h
    · cases h
      exact ⟨rfl, rfl⟩
  · cases h
  · cases h
  · cases h
    exact ⟨rfl, rfl⟩

theorem checkArgs_answer {merged : List (String × Json)} {r : Response}
    (h : checkArgs env args merged = .error (.answer r)) : r.Fails := by
  have hunknown : ∀ r, unknownArgumentError env args = some r → r.Fails := by
    intro r hr
    obtain ⟨⟨name, value⟩, -, rfl⟩ := Option.map_eq_some_iff.mp hr
    dsimp only
    split <;> exact ⟨rfl, rfl⟩
  unfold checkArgs at h
  dsimp only at h
  cases hr : unknownArgumentError env args with
  | some r' =>
    rw [hr] at h
    cases h
    exact hunknown _ hr
  | none =>
    rw [hr] at h
    dsimp only at h
    split_ifs at h <;> cases h <;> exact ⟨rfl, rfl⟩

theorem readArgs_answer {r : Response} (h : readArgs env args kwargs = .error (.answer r)) :
    r.Fails := by
  unfold readArgs at h
  rcases bind_error h with h | ⟨-, -, h⟩
  · exact checkArgs_answer h
  rcases bind_error h with h | ⟨agent, -, h⟩
  · unfold readAgent at h
    split at h <;> cases h
    exact ⟨rfl, rfl⟩
  rcases bind_error h with h | ⟨action, -, h⟩
  · exact readChoice_answer h
  rcases bind_error h with h | ⟨reply, -, h⟩
  · exact readChoice_answer h
  rcases bind_error h with h | ⟨ref, -, h⟩
  · unfold readRef at h
    split_ifs at h
    split at h <;> cases h
  rcases bind_error h with h | ⟨thread, -, h⟩
  · exact optToken_answer h
  · cases h

theorem address_answer {draft : Draft} {r : Response}
    (h : address env draft = .error (.answer r)) : r.Fails := by
  unfold address at h
  rcases bind_error h with h | ⟨taskId, -, h⟩
  · exact optToken_answer h
  cases hself : validateAgentName env.repr env.selfName with
  | error e =>
    rw [hself] at h
    cases h
    exact ⟨rfl, rfl⟩
  | ok self =>
    rw [hself] at h
    cases h

/-- A call that is answered before the gate fails. -/
theorem prepare_answer {r : Response} (h : prepare env args kwargs w = (.error (.answer r), w₀)) :
    r.Fails := by
  unfold prepare at h
  split at h
  · rename_i hread
    obtain rfl := Except.error.inj (Prod.mk.inj h).1
    exact readArgs_answer hread
  · dsimp only at h
    split_ifs at h
    · obtain rfl := Stop.answer.inj (Except.error.inj (Prod.mk.inj h).1)
      exact ⟨rfl, rfl⟩
    · exact address_answer (Prod.mk.inj h).1

theorem gate_refusal {refusal : Response} (h : gate env mail w = (.error refusal, w')) :
    refusal.state = none := by
  unfold gate at h
  split at h
  · cases h
  · cases h
  · split_ifs at h
    · cases h
    · dsimp only at h
      split at h <;> cases h <;> rfl

theorem queued_outbox {padded : String} (h : queued env mail padded w = (.ok resp, w')) :
    w'.outbox = env.queuedItem mail padded :: w.outbox ∧ w'.sent = w.sent := by
  unfold queued queueMessage at h
  dsimp only at h
  split at h
  · cases h
  · rename_i heq
    split at heq
    · cases heq
    · cases heq
      cases h
      exact ⟨rfl, rfl⟩

/-- A queued call had its one delivery attempted, and left its item on top. -/
theorem forward_queuedItem (h : forward env mail held w = (.ok resp, w'))
    (hqueued : resp.state = some "queued") :
    ∃ session fromSession url, sessions env mail = .ok (session, fromSession) ∧
      env.target mail.agent = .ok (.ok url) ∧
      (∃ key, resolveSender env.privateKey mail.self = .ok key) ∧
      w'.sent.head? = some (env.wire mail (mail.padded session fromSession) url) ∧
      w'.outbox.head? = some (env.queuedItem mail (mail.padded session fromSession)) := by
  have hfst : (forward env mail held w).1 = .ok resp := by rw [h]
  by_cases ha : Attempted env mail
  · obtain ⟨session, fromSession, url, hsessions, hurl, heq⟩ := forward_attempted (w := w) held ha
    rw [heq] at h hfst
    rcases dispatch_cases env mail held (mail.padded session fromSession) url w with
      ⟨e, w₁, -, hres⟩ | ⟨w₁, -, ⟨e, -, hres⟩ | ⟨d, -, hsent, ⟨-, hres⟩ | ⟨-, hres | hres⟩⟩⟩
    · rw [hres] at hfst
      cases hfst
    · rw [hres] at hfst
      cases hfst
    · rw [hres] at hfst
      rw [delivered_state hfst] at hqueued
      exact absurd (Option.some.inj hqueued) (by decide)
    · rw [hres] at h
      obtain ⟨houtbox, hsent'⟩ := queued_outbox h
      exact ⟨session, fromSession, url, hsessions, hurl, ha.2.2, by rw [hsent', hsent],
        by rw [houtbox]; rfl⟩
    · rw [hres] at hfst
      rw [failed_state hfst] at hqueued
      cases hqueued
  · have hnone := ((forward_unattempted held w ha).2 resp hfst).2
    rw [hqueued] at hnone
    cases hnone

theorem handleMeshSend_queued (hsend : handleMeshSend env args kwargs w = (.ok resp, w'))
    (hqueued : resp.state = some "queued") :
    ∃ mail w₀ held w₁, prepare env args kwargs w = (.ok mail, w₀) ∧
      gate env mail w₀ = (.ok held, w₁) ∧ forward env mail held w₁ = (.ok resp, w') := by
  unfold handleMeshSend at hsend
  cases hprep : prepare env args kwargs w with
  | mk result w₀ =>
    rw [hprep] at hsend
    cases result with
    | error stop =>
      cases stop with
      | raise e => cases (Prod.mk.inj hsend).1
      | answer r =>
        obtain rfl := Except.ok.inj (Prod.mk.inj hsend).1
        rw [(prepare_answer hprep).2] at hqueued
        cases hqueued
    | ok mail =>
      dsimp only at hsend
      cases hgate : gate env mail w₀ with
      | mk result w₁ =>
        rw [hgate] at hsend
        cases result with
        | error refusal =>
          obtain rfl := Except.ok.inj (Prod.mk.inj hsend).1
          rw [gate_refusal hgate] at hqueued
          cases hqueued
        | ok held => exact ⟨mail, w₀, held, w₁, rfl, hgate, hsend⟩

/-! ## Notices -/

theorem deliver_outbox {net : Net} {signature : Except PyError String} :
    (deliver env net signature wire w).2.outbox = w.outbox := by
  unfold deliver
  dsimp only
  cases env.post net signature wire.url <;> dsimp only <;> split_ifs <;> rfl

/-- A notice that was queued had its one delivery attempted. -/
theorem sendDeliveryError_queued
    {dsnFrom dsnTo originalId reason originalFrom originalTo : String} {result : Except PyError Unit}
    (h : sendDeliveryError env dsnFrom dsnTo originalId reason originalFrom originalTo w =
      (result, w')) (hqueued : w'.outbox ≠ w.outbox) :
    ∃ from_ to_ id text url, validateAgentName env.repr dsnFrom = .ok from_ ∧
      validateAgentName env.repr dsnTo = .ok to_ ∧ env.target to_ = .ok (.ok url) ∧
      (∃ key, resolveSender env.privateKey from_ = .ok key) ∧
      w'.sent.head? = some (env.dsnWire from_ text url) ∧
      w'.outbox.head? = some (env.queuedNotice from_ to_ text id) := by
  unfold sendDeliveryError at h
  split at h
  · exact absurd (congrArg World.outbox (Prod.mk.inj h).2).symm hqueued
  · split at h
    · rename_i from_ to_ id hfrom hto _
      dsimp only at h
      split at h
      · exact absurd (congrArg World.outbox (Prod.mk.inj h).2).symm hqueued
      · rename_i url key hurl hkey
        have hfst := deliver_fst env env.dsnNet env.dsnSignature
          (env.dsnWire from_ (env.dsnText [from_, to_, id, reason, originalFrom, originalTo]) url) w
        have hsent := @deliver_sent env env.dsnNet env.dsnSignature
          (env.dsnWire from_ (env.dsnText [from_, to_, id, reason, originalFrom, originalTo]) url) w
        have houtbox := @deliver_outbox env w
          (env.dsnWire from_ (env.dsnText [from_, to_, id, reason, originalFrom, originalTo]) url)
          env.dsnNet env.dsnSignature
        generalize deliver env env.dsnNet env.dsnSignature _ w = r at h hfst hsent houtbox
        obtain ⟨e | d, w₁⟩ := r
        · obtain rfl := (Prod.mk.inj h).2
          exact absurd houtbox hqueued
        · dsimp only at h
          split_ifs at h
          · unfold queueMessage at h
            split at h
            · obtain rfl := (Prod.mk.inj h).2
              exact absurd houtbox hqueued
            · obtain rfl := (Prod.mk.inj h).2
              exact ⟨from_, to_, id, _, url, hfrom, hto, hurl, ⟨key, hkey⟩, hsent hfst.symm, rfl⟩
          · obtain rfl := (Prod.mk.inj h).2
            exact absurd houtbox hqueued
      · exact absurd (congrArg World.outbox (Prod.mk.inj h).2).symm hqueued
    · exact absurd (congrArg World.outbox (Prod.mk.inj h).2).symm hqueued

/-! ## What the retry makes of it -/

/-- The request that the item stands for. -/
structure Outbox.Item.StandsFor (env : Env) (item : Outbox.Item) (wire : Wire) : Prop where
  text : item.paddedMessage = wire.text
  body : item.body = wire.text
  sender : item.from_ = wire.sender
  sender_ne : wire.sender ≠ ""
  recipient_ne : item.to_ ≠ ""
  url : env.target item.to_ = .ok (.ok wire.url)
  key : ∃ key, resolveSender env.privateKey wire.sender = .ok key
  headers : wire.headers = if item.isDsn then [dsnHeader] else []
  signTimestamp : wire.signTimestamp = env.signTimestamp

/-- **What is queued is what was sent.** -/
theorem Queued.standsFor (h : Queued env item wire) : item.StandsFor env wire := by
  cases h with
  | message hsend hstate hitem hwire =>
    obtain ⟨mail, w₀, held, w₁, hprep, -, hforward⟩ := handleMeshSend_queued hsend hstate
    obtain ⟨session, fromSession, url, -, hurl, hkey, hsent, houtbox⟩ :=
      forward_queuedItem hforward hstate
    obtain rfl := Option.some.inj (hitem.symm.trans houtbox)
    obtain rfl := Option.some.inj (hwire.symm.trans hsent)
    obtain ⟨_, hagent⟩ := prepare_agent hprep
    exact ⟨rfl, rfl, rfl, (fits_agentName (prepare_self hprep)).1, (fits_agentName hagent).1, hurl,
      hkey, rfl, rfl⟩
  | notice hcall hqueued hitem hwire =>
    obtain ⟨from_, to_, id, text, url, hfrom, hto, hurl, hkey, hsent, houtbox⟩ :=
      sendDeliveryError_queued hcall hqueued
    obtain rfl := Option.some.inj (hitem.symm.trans houtbox)
    obtain rfl := Option.some.inj (hwire.symm.trans hsent)
    exact ⟨rfl, rfl, rfl, (fits_agentName hfrom).1, (fits_agentName hto).1, hurl, hkey, rfl, rfl⟩

/-- Neither the identities nor the keys nor the setting of the timestamp have changed. -/
structure Env.Unchanged (env env' : Env) : Prop where
  target : env'.target = env.target
  privateKey : env'.privateKey = env.privateKey
  signTimestamp : env'.signTimestamp = env.signTimestamp

/-- The retry of a queued item resolves as the first attempt did. -/
theorem Outbox.Item.StandsFor.resolveItem (h : item.StandsFor env wire) (henv : env.Unchanged env')
    (attempt : ℕ) (nextRetry : Time) :
    resolveItem env' extra (item.later attempt nextRetry).fields =
      .ok (some ⟨wire.url, .str wire.text, .str wire.sender, env'.retrySigns extra,
        optText item.anchor⟩) := by
  obtain ⟨key, hkey⟩ := h.key
  have htruthy : (Json.str item.to_).truthy = true := decide_eq_true h.recipient_ne
  have hto : targetOf env' (.str item.to_) = .ok (.ok wire.url) := by
    unfold targetOf
    rw [htruthy, henv.target, ← h.url]
    rfl
  have henvelope : itemEnvelope (item.later attempt nextRetry).fields = .ok (.str wire.text) := by
    change (if (Json.str item.paddedMessage).truthy then .ok (.str item.paddedMessage)
      else .ok (.str item.body) : Except PyError Json) = _
    rw [h.text, h.body, ite_self]
  have hkey : resolveSender env'.privateKey
      (env'.text (.str (item.later attempt nextRetry).from_)) = .ok key := by
    rw [henv.privateKey]
    exact (congrArg _ h.sender).trans hkey
  rw [resolveItem_eq rfl rfl henvelope hto, ← h.sender]
  unfold postingOf
  rw [hkey]
  rfl

end HermesMesh
