import Mathlib.Data.List.Infix

/-!
# Python strings

The string methods that the modelled code calls, on Lean's strings.
-/

namespace HermesMesh

/-- The characters that `str.strip` takes off and `\s` matches. -/
def isSpace (c : Char) : Bool :=
  let n := c.toNat
  (9 ≤ n && n ≤ 13) || (28 ≤ n && n ≤ 32) || n = 0x85 || n = 0xA0 || n = 0x1680 ||
    (0x2000 ≤ n && n ≤ 0x200A) || n = 0x2028 || n = 0x2029 || n = 0x202F || n = 0x205F || n = 0x3000

/-- `str.strip`. -/
def strip (s : String) : String :=
  String.ofList ((s.toList.dropWhile isSpace).reverse.dropWhile isSpace).reverse

/-- One character of `str.lower`, as far as the result is an ASCII letter: the Kelvin sign is the
only other character whose lower case is one. -/
def lowerChar (c : Char) : Char := if c.toNat = 0x212A then 'k' else c.toLower

/-- `str.lower`, compared with ASCII words only. -/
def lower (s : String) : String := String.ofList (s.toList.map lowerChar)

/-- `sub in s`. -/
def hasText (sub s : String) : Bool := decide (sub.toList <:+: s.toList)

/-- `str.split` at one character, at most `n` times. -/
def splitMax (c : Char) : ℕ → List Char → List String
  | 0, cs => [String.ofList cs]
  | n + 1, cs =>
    match cs.span (· ≠ c) with
    | (head, _ :: rest) => String.ofList head :: splitMax c n rest
    | (head, []) => [String.ofList head]

/-- The last place below `n` that is marked. -/
def lastIndex (p : ℕ → Bool) : ℕ → Option ℕ
  | 0 => none
  | n + 1 => if p n then some n else lastIndex p n

/-- `s.rfind(sub, 0, stop)`. -/
def rfind (sub s : List Char) (stop : ℕ) : Option ℕ :=
  lastIndex (fun i => sub.isPrefixOf (s.drop i)) (stop + 1 - sub.length)

/-- `s.find(c, start)`. -/
def findFrom (c : Char) (s : List Char) (start : ℕ) : Option ℕ :=
  ((s.drop start).idxOf? c).map (start + ·)

/-- `s.startswith(start)`. -/
def startsWith (start s : String) : Bool := decide (start.toList <+: s.toList)

theorem lastIndex_eq_some_iff {p : ℕ → Bool} {n i : ℕ} :
    lastIndex p n = some i ↔ i < n ∧ p i = true ∧ ∀ j, i < j → j < n → p j = false := by
  induction n with
  | zero => simp [lastIndex]
  | succ n ih =>
    unfold lastIndex
    split_ifs with hp
    · rw [Option.some.injEq]
      constructor
      · rintro rfl
        exact ⟨n.lt_succ_self, hp, fun j h1 h2 => by omega⟩
      · rintro ⟨hi, -, hlast⟩
        by_contra hne
        have := hlast n (by omega) n.lt_succ_self
        simp [hp] at this
    · rw [ih]
      constructor
      · rintro ⟨hi, hpi, hlast⟩
        refine ⟨by omega, hpi, fun j h1 h2 => ?_⟩
        rcases Nat.lt_succ_iff_lt_or_eq.mp h2 with hj | rfl
        · exact hlast j h1 hj
        · exact Bool.eq_false_iff.mpr hp
      · rintro ⟨hi, hpi, hlast⟩
        have hne : i ≠ n := by
          rintro rfl
          exact hp hpi
        exact ⟨by omega, hpi, fun j h1 h2 => hlast j h1 (by omega)⟩

/-- A found text ends before `stop`. -/
theorem rfind_add_length_le {sub s : List Char} {stop i : ℕ} (h : rfind sub s stop = some i) :
    i + sub.length ≤ stop := by
  have hi := (lastIndex_eq_some_iff.mp h).1
  omega

theorem singleton_isPrefixOf_drop (c : Char) (s : List Char) (i : ℕ) :
    [c].isPrefixOf (s.drop i) = true ↔ s[i]? = some c := by
  rw [List.isPrefixOf_iff_prefix, ← List.head?_drop]
  cases s.drop i with
  | nil => simp
  | cons d l => simp [eq_comm]

theorem rfind_singleton_eq_some_iff {c : Char} {s : List Char} {stop i : ℕ} :
    rfind [c] s stop = some i ↔
      i < stop ∧ s[i]? = some c ∧ ∀ j, i < j → j < stop → s[j]? ≠ some c := by
  have hstop : stop + 1 - [c].length = stop := by simp
  unfold rfind
  simp only [lastIndex_eq_some_iff, singleton_isPrefixOf_drop, hstop, ← Bool.not_eq_true, ne_eq]

theorem idxOf?_append_cons {c : Char} {body : List Char} (hc : c ∉ body) (rest : List Char) :
    (body ++ c :: rest).idxOf? c = some body.length := by
  induction body with
  | nil => simp [List.idxOf?_cons]
  | cons d body ih =>
    rw [List.mem_cons, not_or] at hc
    have hne : (d == c) = false := by simpa using Ne.symm hc.1
    rw [List.cons_append, List.idxOf?_cons, hne, ih hc.2]
    rfl

/-- The first `c` from a position on. -/
theorem findFrom_eq {c : Char} {s front body rest : List Char} (hs : s = front ++ (body ++ c :: rest))
    (hc : c ∉ body) : findFrom c s front.length = some (front.length + body.length) := by
  unfold findFrom
  rw [hs, List.drop_left, idxOf?_append_cons hc]
  rfl

end HermesMesh
