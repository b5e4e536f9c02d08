import HermesMesh.Attempt
import Mathlib.Algebra.Order.Field.Rat

/-!
# The sweep over the items

The loop of `retry_outbox` over files of any JSON content, with all that `_attempt_item` does in a
turn. The file operations of the sweep itself come through here; `Outbox` is about those.
-/

namespace HermesMesh.Retry

/-- What `json.load` makes of a file. -/
inductive Loaded where
  | json (v : Json)
  /-- A `JSONDecodeError`, or an `OSError` in opening it. -/
  | unreadable
  /-- Any other exception: for bytes that are no UTF-8, an integer of too many digits, lists that are
  nested too deep. -/
  | raised (e : PyError)

/-- The arguments and the clock of one sweep. -/
structure Sweep where
  maxAttempts : ℤ := 5
  backoff : ℚ := 5
  extra : List (String × Json) := []
  now : Time
  /-- `2 ** k` of a fraction. -/
  root : ℚ → ℚ := fun _ => 1

/-- What `parse_envelope` reads of a dead letter. -/
structure DeadHeader where
  sender : String
  recipient : String
  msgId : String
  ref : Option String

/-- What the turn of one file meets. -/
structure Meets where
  env : Env
  /-- The withdrawal after the last attempt. -/
  deadWithdraw : Stamped := {}
  parse : Json → Option DeadHeader := fun _ => none

/-- What becomes of a file. -/
inductive Turn where
  | skipped
  | removed
  | buried
  | postponed (item : List (String × Json))
  | raised (e : PyError)

/-- The two names of a notice are strings; its `ref` may be any value of the item. -/
def Meets.notify (m : Meets) (item : List (String × Json)) (w : World) : World :=
  if (Json.get "is_dsn" item).truthy then w
  else
    match m.parse ((item.lookup "padded_message").getD (.str "")) with
    | none => w
    | some header =>
      let ref := Json.get "ref" item
      let answers := ref.truthy || (optText header.ref).truthy
      let dsnTo := if answers then header.recipient else header.sender
      (sendDeliveryError m.env header.sender dsnTo header.msgId "dead-letter" header.sender
        header.recipient w).2

/-- What follows once the item lies in `dead/`. -/
def Meets.deadLetter (m : Meets) (item : List (String × Json)) (w : World) : World :=
  let w := withdrawAnchor m.env m.deadWithdraw (Json.get "anchor" item) w
  m.notify item { w with metrics := ("send", "outbox_dead") :: w.metrics }

/-- `item[key] = value`. -/
def setField (key : String) (value : Json) : List (String × Json) → List (String × Json)
  | [] => [(key, value)]
  | (key', value') :: rest =>
    if key' = key then (key, value) :: rest else (key', value') :: setField key value rest

theorem lookup_setField (key key' : String) (value : Json) (item : List (String × Json)) :
    (setField key' value item).lookup key = if key = key' then some value else item.lookup key := by
  induction item with
  | nil =>
    by_cases h : key = key'
    · simp [setField, h]
    · simp [setField, h, List.lookup_cons, beq_false_of_ne h]
  | cons field rest ih =>
    obtain ⟨k, v⟩ := field
    unfold setField
    by_cases hk : k = key'
    · rw [if_pos hk, List.lookup_cons, List.lookup_cons, hk]
      by_cases h : key = key'
      · simp [h]
      · simp [h, beq_false_of_ne h]
    · rw [if_neg hk, List.lookup_cons, List.lookup_cons, ih]
      by_cases h : key = key'
      · simp [h, beq_false_of_ne (Ne.symm hk)]
      · simp [h]

/-- The other fields stay as they are. -/
theorem lookup_setField_of_ne {key key' : String} (h : key ≠ key') (value : Json)
    (item : List (String × Json)) : (setField key' value item).lookup key = item.lookup key := by
  rw [lookup_setField, if_neg h]

theorem get_setField_of_ne {key key' : String} (h : key ≠ key') (value : Json)
    (item : List (String × Json)) : Json.get key (setField key' value item) = Json.get key item := by
  unfold Json.get
  rw [lookup_setField_of_ne h]

/-- A value as arithmetic takes it. -/
def number : Json → Except PyError ℚ
  | .num q => .ok q
  | .bool b => .ok (if b then 1 else 0)
  | _ => .error (.other "unsupported operand type(s)")

/-- No float holds `2 ** k` from 1024 on, nor an exponent this far below zero. -/
def Overflows (k : ℚ) : Prop := 1024 ≤ k ∨ k ≤ -(2 ^ 1024 - 2 ^ 970)

instance (k : ℚ) : Decidable (Overflows k) := inferInstanceAs (Decidable (_ ∨ _))

/-- `backoff * (2 ** k)`. -/
def Sweep.delay (s : Sweep) (k : ℚ) : Except PyError Time :=
  if Overflows k then .error (.other "OverflowError")
  else .ok (s.backoff * if k.den = 1 then 2 ^ k.num else s.root k)

/-- What follows the attempt with this count. -/
def Sweep.finish (s : Sweep) (m : Meets) (item : List (String × Json)) (attempt : ℚ) (done : Bool)
    (w : World) : Turn × World :=
  if done then (.removed, w)
  else if s.maxAttempts ≤ attempt then (.buried, m.deadLetter item w)
  else
    match s.delay (attempt - 1) with
    | .error e => (.raised e, w)
    | .ok delay => (.postponed (setField "next_retry" (.num (s.now + delay)) item), w)

/-- The fields that the loop reads, with their defaults. -/
def nextRetry (item : List (String × Json)) : Json := (item.lookup "next_retry").getD (.num 0)

def attemptOf (item : List (String × Json)) : Json := (item.lookup "attempt").getD (.num 0)

/-- The item with the attempt counted. -/
def counted (count : ℚ) (item : List (String × Json)) : List (String × Json) :=
  setField "attempt" (.num (count + 1)) item

/-- The turn of one file. -/
def Sweep.turn (s : Sweep) (m : Meets) (content : Loaded) (w : World) : Turn × World :=
  match content with
  | .unreadable => (.skipped, w)
  | .raised e => (.raised e, w)
  | .json (.obj item) =>
    match number (nextRetry item) with
    | .error e => (.raised e, w)
    | .ok due =>
      if s.now < due then (.skipped, w)
      else
        match number (attemptOf item) with
        | .error e => (.raised e, w)
        | .ok count =>
          match attemptItem m.env s.extra (counted count item) w with
          | (.error e, w) => (.raised e, w)
          | (.ok done, w) => s.finish m (counted count item) (count + 1) done w
  | .json _ => (.raised (.attributeError "get"), w)

/-! ## The loop -/

abbrev Files := List (String × Loaded)

/-- The files in the order of their names, each with its turn as far as the sweep comes: an
exception leaves the loop. -/
def Sweep.sweep (s : Sweep) (meets : String → Meets) : Files → World → List (String × Turn) × World
  | [], w => ([], w)
  | (name, content) :: rest, w =>
    match s.turn (meets name) content w with
    | (.raised e, w) => ([(name, .raised e)], w)
    | (turn, w) =>
      let (turns, w) := s.sweep meets rest w
      ((name, turn) :: turns, w)

/-- What the file holds after its turn, if it is still there. -/
def Turn.leaves (content : Loaded) : Turn → Option Loaded
  | .removed | .buried => none
  | .postponed item => some (.json (.obj item))
  | .skipped | .raised _ => some content

/-- The outbox after a sweep with these turns. -/
def leftover (turns : List (String × Turn)) (files : Files) : Files :=
  files.filterMap fun (name, content) =>
    match turns.lookup name with
    | some turn => (turn.leaves content).map (name, ·)
    | none => some (name, content)

/-- The names that went to `dead/`. -/
def buriedNames (turns : List (String × Turn)) : List String :=
  turns.filterMap fun (name, turn) =>
    match turn with
    | .buried => some name
    | _ => none

/-- Whether the turn counts as `retried`, and as `delivered`. -/
def Turn.counts : Turn → ℕ × ℕ
  | .removed => (1, 1)
  | .buried | .postponed _ => (1, 0)
  | .skipped | .raised _ => (0, 0)

/-- `retry_outbox` on an outbox that is there: what it returns, and what is left. -/
def Sweep.retryOutbox (s : Sweep) (meets : String → Meets) (files : Files) (w : World) :
    Except PyError (ℕ × ℕ) × Files × World :=
  let (turns, w) := s.sweep meets files w
  let result :=
    match turns.getLast? with
    | some (_, .raised e) => .error e
    | _ => .ok (turns.map fun turn => turn.2.counts).sum
  (result, leftover turns files, w)

end HermesMesh.Retry
