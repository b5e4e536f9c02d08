import HermesMesh.Send

/-!
# One attempt of the outbox

`_attempt_item` of `outbox.py`, on whatever JSON object the file holds: up to the delivery
(`beginAttempt`), the delivery, and what follows it (`settleAttempt`). While the delivery is under
way the pending close of a terminator is on record.
-/

namespace HermesMesh

open OpenThreads (Lease)

/-- The JSON of a text that may be missing. -/
def optText (s : Option String) : Json := (s.map Json.str).getD .null

/-- The object that `queue_message` dumps. -/
def Outbox.Item.fields (item : Outbox.Item) : List (String × Json) :=
  [("id", .str (toString item.id)), ("from", .str item.from_), ("to", .str item.to_),
    ("padded_message", .str item.paddedMessage), ("body", .str item.body),
    ("attempt", .num item.attempt), ("created_at", .num item.createdAt),
    ("next_retry", .num item.nextRetry), ("ref", optText item.ref), ("is_dsn", .bool item.isDsn),
    ("anchor", optText item.anchor)]

/-- `is_closed` of any value: what cannot be hashed raises once the snapshot is there. -/
def isClosedValue (valid : TokenRule) (io : Io) (ref : Json) (v : Threads.View) :
    Except PyError Bool × Threads.View :=
  match ref with
  | .null => (.ok false, v)
  | .str anchor =>
    let (closed, v) := Threads.isClosed valid io (some anchor) v
    (.ok closed, v)
  | .arr _ | .obj _ =>
    let v := (Threads.isClosed valid io (some "") v).2
    (if io.lockable then .error (.other "unhashable type") else .ok false, v)
  | _ => (.ok false, (Threads.isClosed valid io (some "") v).2)

/-- `withdraw` of a truthy anchor; it swallows what its validation raises. -/
def withdrawAnchor (env : Env) (meets : Stamped) (anchor : Json) (w : World) : World :=
  if anchor.truthy then
    match env.token anchor with
    | .ok anchor =>
      { w with closed := Threads.withdraw env.valid meets.io meets.stamp anchor w.closed }
    | .error _ => w
  else w

/-- `promote` of a truthy anchor. -/
def promoteAnchor (env : Env) (anchor : Json) (w : World) : World :=
  if anchor.truthy then
    match env.token anchor with
    | .ok anchor =>
      { w with
        closed := Threads.promote env.valid env.promote.io env.promote.stamp anchor w.closed }
    | .error _ => w
  else w

/-- `record` of two values. -/
def recordValues (env : Env) (anchor closedBy : Json) (v : Threads.View) :
    Except PyError Unit × Threads.View :=
  match env.token anchor, env.token closedBy with
  | .ok anchor, .ok by_ =>
    Threads.record env.valid env.record.io env.record.stamp env.record.closedAt anchor by_ true v
  | .error e, _ | _, .error e => (.error e, v)

/-- The pending close, recorded again: a registry that fails is logged, anything else is raised. -/
def pendAnchor (env : Env) (anchor closedBy : Json) (w : World) : Except PyError Unit × World :=
  if anchor.truthy then
    let (result, view) := recordValues env anchor closedBy w.closed
    let w := { w with closed := view }
    match result with
    | .ok () | .error (.osError _) | .error (.valueError _) => (.ok (), w)
    | .error e => (.error e, w)
  else (.ok (), w)

/-! ## Up to the delivery -/

/-- A call of `_deliver_webhook`, as an item asks for it: no extra headers. -/
structure Posting where
  url : String
  envelope : Json
  sender : Json
  signTimestamp : Bool
  anchor : Json

/-- The same call, where its two texts are strings. -/
def Posting.wire (p : Posting) : Option Wire :=
  match p.envelope, p.sender with
  | .str text, .str sender => some { url := p.url, text, sender, signTimestamp := p.signTimestamp }
  | _, _ => none

/-- `item[key]`. -/
def itemField (key : String) (item : List (String × Json)) : Except PyError Json :=
  match item.lookup key with
  | some v => .ok v
  | none => .error (.other ("'" ++ key ++ "'"))

/-- `resolve_target` of any value: only a string makes a path, and only a dict of dicts has a URL. -/
def targetOf (env : Env) (name : Json) : Except PyError (Except String String) :=
  if !name.truthy then .ok (.error ("target '" ++ env.text name ++ "' not found in local cache"))
  else
    match name with
    | .str name => env.target name
    | _ => .error (.other "unsupported operand type(s) for /")

/-- `bool(extra and extra.get("sign_timestamp")) or _sign_timestamp_enabled()`. -/
def Env.retrySigns (env : Env) (extra : List (String × Json)) : Bool :=
  (Json.get "sign_timestamp" extra).truthy || env.signTimestamp

/-- `item.get("padded_message") or item["body"]`. -/
def itemEnvelope (item : List (String × Json)) : Except PyError Json :=
  let padded := Json.get "padded_message" item
  if padded.truthy then .ok padded else itemField "body" item

/-- The call of an item whose recipient resolves to this; `none` where an agent does not resolve. -/
def postingOf (env : Env) (extra item : List (String × Json)) (from_ envelope : Json)
    (target : Except String String) : Option Posting :=
  match target, resolveSender env.privateKey (env.text from_) with
  | .ok url, .ok _ =>
    some
      { url, envelope, sender := from_, signTimestamp := env.retrySigns extra
        anchor := Json.get "anchor" item }
  | _, _ => none

/-- The fields of the item, and the two resolutions. -/
def resolveItem (env : Env) (extra item : List (String × Json)) :
    Except PyError (Option Posting) := do
  let from_ ← itemField "from" item
  let to_ ← itemField "to" item
  let envelope ← itemEnvelope item
  let target ← targetOf env to_
  return postingOf env extra item from_ envelope target

/-- How an attempt begins. -/
inductive Begun where
  | raised (e : PyError)
  /-- The thread that the item refers to is closed. -/
  | dropped
  | unresolved
  | posting (p : Posting)

/-- The check of the reference, from which a notice is exempt. -/
def checkRef (env : Env) (item : List (String × Json)) (w : World) : Except PyError Bool × World :=
  let ref := Json.get "ref" item
  if ref.isSome && !(Json.get "is_dsn" item).truthy then
    let (closed, view) := isClosedValue env.valid env.closedIo ref w.closed
    (closed, { w with closed := view })
  else (.ok false, w)

/-- `_attempt_item` up to the delivery. -/
def beginAttempt (env : Env) (extra item : List (String × Json)) (w : World) : Begun × World :=
  let anchor := Json.get "anchor" item
  match checkRef env item w with
  | (.error e, w) => (.raised e, w)
  | (.ok true, w) => (.dropped, withdrawAnchor env env.withdraw anchor w)
  | (.ok false, w) =>
    match resolveItem env extra item with
    | .error e => (.raised e, w)
    | .ok none => (.unresolved, withdrawAnchor env env.withdraw anchor w)
    | .ok (some p) =>
      match pendAnchor env anchor p.sender w with
      | (.error e, w) => (.raised e, w)
      | (.ok (), w) => (.posting p, w)

/-! ## The delivery and after -/

/-- The sender that is read out of the envelope where the item names none: only a string can be
searched. -/
def Posting.readSender (p : Posting) : Except PyError Unit :=
  match p.envelope with
  | .str _ => .ok ()
  | v =>
    if !p.sender.truthy && v.truthy then .error (.other "expected string or bytes-like object")
    else .ok ()

/-- The delivery; what `_is_local_url` raises is raised in the same `try`. -/
def Posting.deliver (env : Env) (p : Posting) : Except PyError Delivery := do
  let _ ← env.loopback p.url
  p.readSender
  env.post env.net env.signature p.url

/-- From the end of the delivery on: whether the item is done with. -/
def settleAttempt (env : Env) (anchor : Json) (ended : Except PyError Delivery) (w : World) :
    Except PyError Bool × World :=
  match ended with
  | .error e => (.error e, withdrawAnchor env env.withdraw anchor w)
  | .ok d =>
    let w := { w with metrics := d.metrics.map ("send", ·) ++ w.metrics }
    if d.deliveryId.isSome then
      let w := promoteAnchor env anchor w
      (.ok true, { w with metrics := ("send", "outbox_delivered") :: w.metrics })
    else (.ok false, withdrawAnchor env env.withdraw anchor w)

/-- `_attempt_item`. -/
def attemptItem (env : Env) (extra item : List (String × Json)) (w : World) :
    Except PyError Bool × World :=
  match beginAttempt env extra item w with
  | (.raised e, w) => (.error e, w)
  | (.dropped, w) => (.ok true, w)
  | (.unresolved, w) => (.ok false, w)
  | (.posting p, w) => settleAttempt env p.anchor (p.deliver env) w

/-- An item whose fields are there. -/
theorem resolveItem_eq {env : Env} {extra item : List (String × Json)} {from_ to_ envelope : Json}
    {target : Except String String} (hfrom : itemField "from" item = .ok from_)
    (hto : itemField "to" item = .ok to_) (henvelope : itemEnvelope item = .ok envelope)
    (htarget : targetOf env to_ = .ok target) :
    resolveItem env extra item = .ok (postingOf env extra item from_ envelope target) := by
  unfold resolveItem
  rw [hfrom, hto, henvelope]
  dsimp only [bind, Except.bind]
  rw [htarget]
  rfl

/-- The ways in which an attempt begins, each with what it meets. -/
inductive Begins (env : Env) (extra item : List (String × Json)) (w : World) : Begun × World → Prop
  | refRaised {e : PyError} {w₁ : World} (hcheck : checkRef env item w = (.error e, w₁)) :
      Begins env extra item w (.raised e, w₁)
  | dropped {w₁ : World} (hcheck : checkRef env item w = (.ok true, w₁)) :
      Begins env extra item w
        (.dropped, withdrawAnchor env env.withdraw (Json.get "anchor" item) w₁)
  | itemRaised {e : PyError} {w₁ : World} (hcheck : checkRef env item w = (.ok false, w₁))
      (hitem : resolveItem env extra item = .error e) : Begins env extra item w (.raised e, w₁)
  | unresolved {w₁ : World} (hcheck : checkRef env item w = (.ok false, w₁))
      (hitem : resolveItem env extra item = .ok none) :
      Begins env extra item w
        (.unresolved, withdrawAnchor env env.withdraw (Json.get "anchor" item) w₁)
  | pendRaised {p : Posting} {e : PyError} {w₁ w₂ : World}
      (hcheck : checkRef env item w = (.ok false, w₁))
      (hitem : resolveItem env extra item = .ok (some p))
      (hpend : pendAnchor env (Json.get "anchor" item) p.sender w₁ = (.error e, w₂)) :
      Begins env extra item w (.raised e, w₂)
  | posting {p : Posting} {w₁ w₂ : World} (hcheck : checkRef env item w = (.ok false, w₁))
      (hitem : resolveItem env extra item = .ok (some p))
      (hpend : pendAnchor env (Json.get "anchor" item) p.sender w₁ = (.ok (), w₂)) :
      Begins env extra item w (.posting p, w₂)

/-- **How an attempt begins.** -/
theorem beginAttempt_begins (env : Env) (extra item : List (String × Json)) (w : World) :
    Begins env extra item w (beginAttempt env extra item w) := by
  unfold beginAttempt
  dsimp only
  generalize hcheck : checkRef env item w = c
  obtain ⟨e | closed, w₁⟩ := c
  · exact .refRaised hcheck
  cases closed with
  | true => exact .dropped hcheck
  | false =>
    dsimp only
    cases hitem : resolveItem env extra item with
    | error e => exact .itemRaised hcheck hitem
    | ok found =>
      cases found with
      | none => exact .unresolved hcheck hitem
      | some p =>
        dsimp only
        generalize hpend : pendAnchor env (Json.get "anchor" item) p.sender w₁ = q
        obtain ⟨e | _, w₂⟩ := q
        · exact .pendRaised hcheck hitem hpend
        · exact .posting hcheck hitem hpend

/-- An attempt that comes to its delivery has resolved both agents. -/
theorem beginAttempt_posting {env : Env} {extra item : List (String × Json)} {w w₁ : World}
    {p : Posting} (h : beginAttempt env extra item w = (.posting p, w₁)) :
    resolveItem env extra item = .ok (some p) := by
  have hbegins := beginAttempt_begins env extra item w
  rw [h] at hbegins
  cases hbegins with
  | posting _ hitem _ => exact hitem

/-! ## What an attempt leaves alone -/

section

variable {env : Env} {extra item : List (String × Json)} {w w' : World} {meets : Stamped}
  {anchor closedBy : Json} {p : Posting}

@[simp] theorem withdrawAnchor_leases : (withdrawAnchor env meets anchor w).leases = w.leases := by
  unfold withdrawAnchor
  split_ifs
  · split <;> rfl
  · rfl

@[simp] theorem promoteAnchor_leases : (promoteAnchor env anchor w).leases = w.leases := by
  unfold promoteAnchor
  split_ifs
  · split <;> rfl
  · rfl

theorem pendAnchor_leases {result : Except PyError Unit}
    (h : pendAnchor env anchor closedBy w = (result, w')) : w'.leases = w.leases := by
  unfold pendAnchor at h
  split_ifs at h
  · dsimp only at h
    split at h <;> cases h <;> rfl
  · cases h
    rfl

theorem checkRef_leases {result : Except PyError Bool} (h : checkRef env item w = (result, w')) :
    w'.leases = w.leases := by
  unfold checkRef at h
  dsimp only at h
  split_ifs at h <;> cases h <;> rfl

/-- Up to the delivery no lease is touched. -/
theorem beginAttempt_leases : (beginAttempt env extra item w).2.leases = w.leases := by
  have hbegins := beginAttempt_begins env extra item w
  generalize beginAttempt env extra item w = b at hbegins
  cases hbegins with
  | refRaised hcheck => exact checkRef_leases hcheck
  | dropped hcheck => exact withdrawAnchor_leases.trans (checkRef_leases hcheck)
  | itemRaised hcheck _ => exact checkRef_leases hcheck
  | unresolved hcheck _ => exact withdrawAnchor_leases.trans (checkRef_leases hcheck)
  | pendRaised hcheck _ hpend => exact (pendAnchor_leases hpend).trans (checkRef_leases hcheck)
  | posting hcheck _ hpend => exact (pendAnchor_leases hpend).trans (checkRef_leases hcheck)

theorem settleAttempt_leases {ended : Except PyError Delivery} :
    (settleAttempt env anchor ended w).2.leases = w.leases := by
  unfold settleAttempt
  cases ended with
  | error e => exact withdrawAnchor_leases
  | ok d =>
    dsimp only
    split_ifs
    · exact promoteAnchor_leases
    · exact withdrawAnchor_leases

/-- `outbox.py` never opens the lease registry. -/
theorem attemptItem_leases : (attemptItem env extra item w).2.leases = w.leases := by
  have hbegun : (beginAttempt env extra item w).2.leases = w.leases := beginAttempt_leases
  unfold attemptItem
  generalize beginAttempt env extra item w = b at hbegun
  obtain ⟨e | - | - | p, w₁⟩ := b
  · exact hbegun
  · exact hbegun
  · exact hbegun
  · exact settleAttempt_leases.trans hbegun

end

end HermesMesh
