import Mathlib.Data.Rat.Defs

/-!
# Values and tokens shared by the modules

`Json` is what `json.loads` returns; `.null` is also Python's `None`. Clock readings are rational
numbers of seconds (every float is one). The envelope-token validator belongs to `mesh_core`: it is a
parameter (`TokenRule`), with what its users rely on as a field, that what it returns is its argument.
-/

namespace HermesMesh

/-- A JSON value as `json.loads` returns it. -/
inductive Json where
  | null
  | bool (b : Bool)
  | num (q : ℚ)
  | str (s : String)
  | arr (items : List Json)
  | obj (fields : List (String × Json))
  deriving Repr

namespace Json

/-- Python's truth value. -/
def truthy : Json → Bool
  | null => false
  | bool b => b
  | num q => q ≠ 0
  | str s => s ≠ ""
  | arr items => !items.isEmpty
  | obj fields => !fields.isEmpty

/-- `is not None`. -/
def isSome : Json → Bool
  | null => false
  | _ => true

/-- `value == s` for a string `s`. -/
def isStr (s : String) : Json → Bool
  | str t => t = s
  | _ => false

@[simp] theorem isStr_str (s t : String) : isStr s (str t) = decide (t = s) := rfl

theorem isStr_iff {s : String} {j : Json} : j.isStr s = true ↔ j = str s := by
  cases j <;> simp [isStr]

theorem isSome_iff {j : Json} : j.isSome = true ↔ j ≠ null := by
  cases j <;> simp [isSome]

/-- `d.get(key)` on the fields of a dict. -/
def get (key : String) (fields : List (String × Json)) : Json := (fields.lookup key).getD null

/-- `d.pop(key, None)`: the fields that stay. -/
def pop (key : String) (fields : List (String × Json)) : List (String × Json) :=
  fields.filter (·.1 ≠ key)

theorem lookup_pop (key key' : String) (fields : List (String × Json)) :
    (pop key' fields).lookup key = if key = key' then none else fields.lookup key := by
  unfold pop
  induction fields with
  | nil => simp
  | cons f fields ih =>
    obtain ⟨k, v⟩ := f
    rw [List.filter_cons]
    by_cases hk : k = key'
    · rw [if_neg (by simpa using hk), ih, List.lookup_cons]
      by_cases h : key = key'
      · rw [if_pos h, if_pos h]
      · have hb : (key == k) = false := by simpa [hk] using h
        rw [if_neg h, if_neg h, hb]
    · rw [if_pos (by simpa using hk), List.lookup_cons, List.lookup_cons, ih]
      by_cases h : key = k
      · simp [h, hk]
      · have hb : (key == k) = false := by simpa using h
        rw [hb]

theorem get_pop_of_ne {key key' : String} (h : key ≠ key') (fields : List (String × Json)) :
    get key (pop key' fields) = get key fields := by
  unfold get
  rw [lookup_pop, if_neg h]

theorem get_pop_self (key : String) (fields : List (String × Json)) :
    get key (pop key fields) = null := by
  unfold get
  rw [lookup_pop, if_pos rfl]
  rfl

end Json

/-- A clock reading, in seconds. -/
abbrev Time := ℚ

/-- `mesh_core`'s envelope-token validator: what it returns, or the text of its `ValueError`. -/
structure TokenRule where
  validate : String → Except String String
  /-- It normalises nothing: "returns the token". -/
  returns : ∀ {token out}, validate token = .ok out → out = token

namespace TokenRule

/-- The token is accepted. -/
def accepts (valid : TokenRule) (token : String) : Bool := (valid.validate token).isOk

instance : CoeFun TokenRule fun _ => String → Bool := ⟨accepts⟩

/-- The validator that accepts these tokens, with the refused token as its text. -/
def of (accepted : String → Bool) : TokenRule where
  validate token := if accepted token then .ok token else .error token
  returns h := by
    split_ifs at h
    exact (Except.ok.inj h).symm

@[simp] theorem of_apply (accepted : String → Bool) (token : String) :
    of accepted token = accepted token := by
  unfold accepts of
  dsimp only
  cases accepted token <;> rfl

/-- The text of a refusal. -/
def refusal (valid : TokenRule) (token : String) : String :=
  match valid.validate token with
  | .error text => text
  | .ok _ => ""

end TokenRule

/-- The exceptions of Python that the modelled code raises or lets through. -/
inductive PyError where
  | valueError (text : String)
  | attributeError (text : String)
  | osError (text : String)
  | other (text : String)
  deriving DecidableEq, Repr

/-- `str(exc)`. -/
def PyError.text : PyError → String
  | valueError text | attributeError text | osError text | other text => text

/-- What a computation that came through was made of. -/
theorem bind_ok {ε α β : Type} {x : Except ε α} {f : α → Except ε β} {b : β}
    (h : x >>= f = .ok b) : ∃ a, x = .ok a ∧ f a = .ok b := by
  cases x with
  | error e => cases h
  | ok a => exact ⟨a, rfl, h⟩

/-- A computation that failed did so in its first part, or in what follows. -/
theorem bind_error {ε α β : Type} {x : Except ε α} {f : α → Except ε β} {e : ε}
    (h : x >>= f = .error e) : x = .error e ∨ ∃ a, x = .ok a ∧ f a = .error e := by
  cases x with
  | error e' => exact .inl (congrArg _ (Except.error.inj h))
  | ok a => exact .inr ⟨a, rfl, h⟩

/-- How one section meets the disk: the stat of the path, the sidecar lock, the read, the write. -/
structure Io where
  statOk : Bool := true
  lockable : Bool := true
  readable : Bool := true
  writable : Bool := true
  deriving DecidableEq, Repr

/-- The section can both read and replace its file. -/
def Io.healthy (io : Io) : Bool := io.lockable && io.readable && io.writable

/-- One access under a lock, with the clock reading taken before it. -/
structure Clocked where
  io : Io := {}
  now : Time := 0

/-- One write of the closed-thread registry: the mtime it gives the file and the time it stores. -/
structure Stamped where
  io : Io := {}
  stamp : Time := 0
  closedAt : Time := 0

/-- `validate_envelope_token`. -/
def validateEnvelopeToken (valid : TokenRule) (token : String) : Except PyError String :=
  (valid.validate token).mapError .valueError

/-- It gives the token itself, or a `ValueError`. -/
theorem validateEnvelopeToken_eq (valid : TokenRule) (token : String) :
    validateEnvelopeToken valid token =
      if valid token then .ok token else .error (.valueError (valid.refusal token)) := by
  unfold validateEnvelopeToken TokenRule.accepts TokenRule.refusal
  cases h : valid.validate token with
  | error text => rfl
  | ok out =>
    obtain rfl := valid.returns h
    rfl

theorem validateEnvelopeToken_ok {valid : TokenRule} {token : String} (h : valid token = true) :
    validateEnvelopeToken valid token = .ok token :=
  (validateEnvelopeToken_eq valid token).trans (if_pos h)

end HermesMesh
