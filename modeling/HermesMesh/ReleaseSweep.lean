import HermesMesh.Text
import Mathlib.Data.List.TakeWhile
import Mathlib.Data.Nat.Find

/-!
# The sweep for bare releases

`offenders_in` of `fleet-bare-release-sweep.py` looks for the first `release(` on each line, and lets it
pass where `release_if_party` stands in the forty characters before it. So the verdict on one call
depends on what stands next to it: a call of `release` behind one of `release_if_party` is let pass
(`Hidden`). `sweep_iff` says on which texts the sweep is right. The lines are read as text: a call is
an identifier and a parenthesis, wherever they stand on the line.

Which characters belong to an identifier is a table of the Python version and hence a parameter.
-/

namespace HermesMesh.ReleaseSweep

/-! ## Lines -/

/-- Where `str.splitlines` ends a line. -/
def isLineEnd (c : Char) : Bool :=
  let n := c.toNat
  (10 ≤ n && n ≤ 13) || (28 ≤ n && n ≤ 30) || n = 0x85 || n = 0x2028 || n = 0x2029

def splitChars : List Char → List (List Char)
  | [] => []
  | '\r' :: '\n' :: cs => [] :: splitChars cs
  | c :: cs =>
    if isLineEnd c then [] :: splitChars cs
    else
      match splitChars cs with
      | [] => [[c]]
      | line :: lines => (c :: line) :: lines

/-- `str.splitlines`. -/
def splitlines (text : String) : List String := (splitChars text.toList).map String.ofList

/-! ## The search -/

/-- `\b` before a character of a word. -/
def wordStart (word : Char → Bool) (line : List Char) (i : ℕ) : Bool :=
  !(line.take i).getLast?.any word

/-- `\s*\(` at the head of the text. -/
def opens (rest : List Char) : Bool := (rest.dropWhile isSpace).head? == some '('

/-- `RELEASE_CALL` at one place: `(?<!def )\brelease\s*\(`. -/
def releaseCallAt (word : Char → Bool) (line : List Char) (i : ℕ) : Bool :=
  !"def ".toList.isSuffixOf (line.take i) && wordStart word line i &&
    "release".toList.isPrefixOf (line.drop i) && opens (line.drop (i + 7))

/-- `RELEASE_CALL.search`: where the first match starts, and where it ends. -/
def searchReleaseCall (word : Char → Bool) (line : List Char) : Option (ℕ × ℕ) :=
  ((List.range (line.length + 1)).find? (releaseCallAt word line)).map fun start =>
    (start, start + 7 + ((line.drop (start + 7)).takeWhile isSpace).length + 1)

def safe : String := "release_if_party"

/-- The line is no comment, and the first match on it has no `SAFE` shortly before it. -/
def isOffender (word : Char → Bool) (line : String) : Bool :=
  if startsWith "#" (strip line) then false
  else
    match searchReleaseCall word line.toList with
    | none => false
    | some (start, stop) =>
      !hasText safe (String.ofList ((line.toList.take stop).drop (start - 40)))

/-- How a line is reported. -/
def entry (i : ℕ) (line : String) : String := toString i ++ ": " ++ strip line

/-- `offenders_in`. -/
def offendersIn (word : Char → Bool) (text : String) : List String :=
  ((splitlines text).zipIdx 1).filterMap fun (line, i) =>
    if isOffender word line then some (entry i line) else none

/-! ## What the sweep is for -/

/-- The identifier that starts at a place. -/
def calleeAt (word : Char → Bool) (line : List Char) (i : ℕ) : List Char :=
  (line.drop i).takeWhile word

/-- The place comes after the keyword `def`. -/
def afterDef (word : Char → Bool) (line : List Char) (i : ℕ) : Bool :=
  let before := (line.take i).reverse
  let rest := before.dropWhile isSpace
  before.head?.any isSpace && "fed".toList.isPrefixOf rest && !(rest.drop 3).head?.any word

/-- A call starts at the place: an identifier, blanks or none, and a parenthesis, and no `def`. -/
def callAt (word : Char → Bool) (line : List Char) (i : ℕ) : Bool :=
  wordStart word line i && !(calleeAt word line i).isEmpty &&
    opens (line.drop (i + (calleeAt word line i).length)) && !afterDef word line i

/-- There is a call of `release` on the line. -/
def CallsRelease (word : Char → Bool) (line : List Char) : Prop :=
  ∃ i, callAt word line i = true ∧ calleeAt word line i = "release".toList

/-- The only calls on the line that begin with `release` are those of `release_if_party`. -/
def OnlyIfParty (word : Char → Bool) (line : List Char) : Prop :=
  ∀ i, callAt word line i = true → "release".toList <+: calleeAt word line i →
    calleeAt word line i = safe.toList

/-- **No false verdict.** Every line that is no comment and calls `release` is reported, and no line is
that calls, of all that begins with `release`, only `release_if_party`. -/
structure NoFalseVerdict (word : Char → Bool) (text : String) : Prop where
  green : ∀ i line, (splitlines text)[i]? = some line → startsWith "#" (strip line) = false →
    CallsRelease word line.toList → entry (i + 1) line ∈ offendersIn word text
  red : ∀ i line, (splitlines text)[i]? = some line → OnlyIfParty word line.toList →
    entry (i + 1) line ∉ offendersIn word text

/-! ## Where it goes wrong -/

/-- `release(` at the place, called or defined, but not directly behind `def` and one blank. -/
structure Named (word : Char → Bool) (line : List Char) (i : ℕ) : Prop where
  start : wordStart word line i = true
  callee : calleeAt word line i = "release".toList
  opens : opens (line.drop (i + 7)) = true
  behind : ¬ "def ".toList <:+ line.take i

/-- The first of these places. -/
def First (word : Char → Bool) (line : List Char) (i : ℕ) : Prop :=
  Named word line i ∧ ∀ j < i, ¬ Named word line j

/-- `release_if_party` stands in the forty characters before the place. -/
def NearParty (line : List Char) (i : ℕ) : Prop := safe.toList <:+: (line.take i).drop (i - 40)

/-- There is a call of `release`, and the first `release(` is close behind a `release_if_party`. -/
def Hidden (word : Char → Bool) (line : List Char) : Prop :=
  CallsRelease word line ∧ ∃ i, First word line i ∧ NearParty line i

/-- There is a call of `release`, and every `release(` stands directly behind `def` and one blank, with
more letters before the `def` where it is a call. -/
def Swallowed (word : Char → Bool) (line : List Char) : Prop :=
  CallsRelease word line ∧ ∀ i, ¬ Named word line i

/-- There is no call of `release`, only a definition with more or other blanks behind the `def`, and no
`release_if_party` close before the first one. -/
def FalseAlarm (word : Char → Bool) (line : List Char) : Prop :=
  OnlyIfParty word line ∧ ∃ i, First word line i ∧ ¬ NearParty line i

/-- What the table of characters says of ASCII, and of blanks. -/
structure WordChars (word : Char → Bool) : Prop where
  ascii : ∀ c : Char, c.toNat < 128 → word c = (c.isAlphanum || c == '_')
  blank : ∀ c, isSpace c = true → word c = false

variable {word : Char → Bool} {text : String} {line tail a l : List Char} {c : Char} {i j : ℕ}

/-! ## One place -/

theorem WordChars.paren (h : WordChars word) : word '(' = false := h.ascii '(' (by decide)

theorem WordChars.release (h : WordChars word) : ∀ c ∈ "release".toList, word c = true := by
  have hascii : "release".toList.all (fun c => decide (c.toNat < 128) && c.isAlphanum) = true := by
    decide +kernel
  intro c hc
  obtain ⟨hlt, hletter⟩ := (Bool.and_eq_true _ _).mp (List.all_eq_true.mp hascii c hc)
  rw [h.ascii c (of_decide_eq_true hlt), hletter, Bool.true_or]

theorem WordChars.opens (h : WordChars word) {rest : List Char} (hopens : opens rest = true) :
    rest.takeWhile word = [] := by
  cases rest with
  | nil => rfl
  | cons c rest =>
    refine List.takeWhile_cons_of_neg ?_
    by_cases hc : isSpace c = true
    · rw [h.blank c hc]
      exact Bool.false_ne_true
    · have hparen : c = '(' := by simpa [ReleaseSweep.opens, List.dropWhile_cons, hc] using hopens
      rw [hparen, h.paren]
      exact Bool.false_ne_true

theorem calleeAt_eq_release (h : WordChars word) (hopens : opens (line.drop (i + 7)) = true) :
    calleeAt word line i = "release".toList ↔ "release".toList <+: line.drop i := by
  unfold calleeAt
  constructor
  · intro hcallee
    rw [← hcallee]
    exact List.takeWhile_prefix word
  · rintro ⟨rest, hrest⟩
    have hdrop : line.drop (i + 7) = rest := by
      rw [← List.drop_drop, ← hrest]
      rfl
    rw [hdrop] at hopens
    rw [← hrest, List.takeWhile_append_of_pos h.release, h.opens hopens, List.append_nil]

theorem releaseCallAt_iff (h : WordChars word) :
    releaseCallAt word line i = true ↔ Named word line i := by
  unfold releaseCallAt
  simp only [Bool.and_eq_true, Bool.not_eq_true', List.isPrefixOf_iff_prefix,
    ← Bool.not_eq_true, List.isSuffixOf_iff_suffix]
  constructor
  · rintro ⟨⟨⟨hbehind, hstart⟩, hcallee⟩, hopens⟩
    exact ⟨hstart, (calleeAt_eq_release h hopens).mpr hcallee, hopens, hbehind⟩
  · rintro ⟨hstart, hcallee, hopens, hbehind⟩
    exact ⟨⟨⟨hbehind, hstart⟩, (calleeAt_eq_release h hopens).mp hcallee⟩, hopens⟩

/-! ## The forty characters -/

/-- A text whose last character is not in the tail is in the whole where it is before the tail. -/
theorem infix_append_iff (hc : c ∉ tail) : l ++ [c] <:+: a ++ tail ↔ l ++ [c] <:+: a := by
  constructor
  · rintro ⟨before, after, h⟩
    have hsplit : (before ++ l) ++ c :: after = a ++ tail := by simpa using h
    rcases List.append_eq_append_iff.mp hsplit with ⟨middle, rfl, hmiddle⟩ | ⟨middle, -, htail⟩
    · rcases middle with _ | ⟨d, middle⟩
      · have htail : c :: after = tail := hmiddle
        exact absurd (htail ▸ List.mem_cons_self) hc
      · obtain ⟨rfl, -⟩ := List.cons.inj hmiddle
        exact ⟨before, middle, by simp⟩
    · exact absurd (htail ▸ List.mem_append_right _ List.mem_cons_self) hc
  · exact fun h => h.trans (List.prefix_append a tail).isInfix

theorem named_length (hcallee : "release".toList <+: line.drop i) : i < line.length + 1 := by
  have h := hcallee.length_le
  rw [List.length_drop] at h
  by_contra hlt
  rw [Nat.sub_eq_zero_of_le (by omega)] at h
  exact absurd h (by decide)

theorem take_opens {rest : List Char} (h : opens rest = true) :
    rest.take ((rest.takeWhile isSpace).length + 1) = rest.takeWhile isSpace ++ ['('] := by
  have hsplit := List.takeWhile_append_dropWhile (p := isSpace) (l := rest)
  unfold opens at h
  generalize rest.takeWhile isSpace = blanks at hsplit ⊢
  generalize rest.dropWhile isSpace = others at h hsplit
  subst hsplit
  cases others with
  | nil => cases h
  | cons c others =>
    obtain rfl : c = '(' := by simpa using h
    rw [List.take_length_add_append, List.take_one, List.head?_cons, Option.toList_some]

theorem take_match (hcallee : "release".toList <+: line.drop i)
    (hopens : opens (line.drop (i + 7)) = true) :
    line.take (i + 7 + ((line.drop (i + 7)).takeWhile isSpace).length + 1) =
      line.take i ++ ("release".toList ++ ((line.drop (i + 7)).takeWhile isSpace ++ ['('])) := by
  have hname : (line.drop i).take 7 = "release".toList := (List.prefix_iff_eq_take.mp hcallee).symm
  rw [Nat.add_assoc, List.take_add, List.take_add, take_opens hopens, hname, List.append_assoc]

/-- The look-back reaches the match itself, but `SAFE` is never part of it. -/
theorem lookBack_iff (hnamed : Named word line i) (hcallee : "release".toList <+: line.drop i) :
    hasText safe (String.ofList ((line.take
        (i + 7 + ((line.drop (i + 7)).takeWhile isSpace).length + 1)).drop (i - 40))) = true ↔
      NearParty line i := by
  have hlength := named_length hcallee
  have hlast : safe.toList = "release_if_part".toList ++ ['y'] := by decide +kernel
  have hnot : 'y' ∉ "release".toList ++ ((line.drop (i + 7)).takeWhile isSpace ++ ['(']) := by
    intro hmem
    rcases List.mem_append.mp hmem with h | h
    · revert h
      decide +kernel
    · rcases List.mem_append.mp h with h | h
      · exact absurd (List.mem_takeWhile_imp h) (by decide)
      · exact absurd (List.mem_singleton.mp h) (by decide)
  unfold hasText NearParty
  rw [decide_eq_true_iff, String.toList_ofList, take_match hcallee hnamed.opens,
    List.drop_append_of_le_length (by rw [List.length_take]; omega), hlast]
  exact infix_append_iff hnot

/-! ## One line -/

theorem search_first (h : WordChars word) (hfirst : First word line i) :
    searchReleaseCall word line =
      some (i, i + 7 + ((line.drop (i + 7)).takeWhile isSpace).length + 1) := by
  obtain ⟨hnamed, hbefore⟩ := hfirst
  have hcallee := (calleeAt_eq_release h hnamed.opens).mp hnamed.callee
  have hfind : (List.range (line.length + 1)).find? (releaseCallAt word line) = some i := by
    refine List.find?_range_eq_some.mpr ⟨(releaseCallAt_iff h).mpr hnamed,
      List.mem_range.mpr (named_length hcallee), fun j hj => ?_⟩
    rw [Bool.not_eq_true']
    exact Bool.eq_false_iff.mpr fun hmatch => hbefore j hj ((releaseCallAt_iff h).mp hmatch)
  unfold searchReleaseCall
  rw [hfind, Option.map_some]

theorem search_none (h : WordChars word) (hnone : ∀ i, ¬ Named word line i) :
    searchReleaseCall word line = none := by
  unfold searchReleaseCall
  rw [Option.map_eq_none_iff, List.find?_eq_none]
  exact fun i _ hmatch => hnone i ((releaseCallAt_iff h).mp hmatch)

theorem exists_first (hnamed : Named word line i) : ∃ j, First word line j := by
  classical
  have hex : ∃ i, Named word line i := ⟨i, hnamed⟩
  exact ⟨Nat.find hex, Nat.find_spec hex, fun j hj => Nat.find_min hex hj⟩

theorem First.unique (hi : First word line i) (hj : First word line j) : i = j :=
  le_antisymm (not_lt.mp fun hlt => hi.2 j hlt hj.1) (not_lt.mp fun hlt => hj.2 i hlt hi.1)

/-- **What is reported**: a line that is no comment, whose first named place is near no
`release_if_party`. -/
theorem isOffender_iff (h : WordChars word) (line : String) :
    isOffender word line = true ↔ startsWith "#" (strip line) = false ∧
      ∃ i, First word line.toList i ∧ ¬ NearParty line.toList i := by
  unfold isOffender
  cases hcomment : startsWith "#" (strip line) with
  | true => simp
  | false =>
    rw [if_neg Bool.false_ne_true]
    refine Iff.trans ?_ (and_iff_right rfl).symm
    by_cases hnamed : ∃ i, Named word line.toList i
    · obtain ⟨i, hfirst⟩ := exists_first hnamed.choose_spec
      have hcallee := (calleeAt_eq_release h hfirst.1.opens).mp hfirst.1.callee
      rw [search_first h hfirst]
      dsimp only
      rw [Bool.not_eq_true', ← Bool.not_eq_true, lookBack_iff hfirst.1 hcallee]
      refine ⟨fun hfar => ⟨i, hfirst, hfar⟩, ?_⟩
      rintro ⟨j, hj, hfar⟩
      exact hfirst.unique hj ▸ hfar
    · rw [search_none h (not_exists.mp hnamed)]
      refine iff_of_false Bool.false_ne_true ?_
      rintro ⟨i, hfirst, -⟩
      exact hnamed ⟨i, hfirst.1⟩

/-! ## The report -/

theorem entry_inj {m n : ℕ} {s t : String} (h : entry m s = entry n t) : m = n := by
  have hread : ∀ (n : ℕ) (line : String),
      (entry n line).toList.takeWhile Char.isDigit = (toString n).toList := by
    intro n line
    have hdigits : ∀ c ∈ (toString n).toList, c.isDigit = true := fun c hc =>
      Nat.isDigit_of_mem_toDigits (by decide) (by decide) (Nat.toList_repr ▸ hc)
    unfold entry
    rw [String.toList_append, String.toList_append, List.append_assoc,
      List.takeWhile_append_of_pos hdigits]
    exact List.append_nil _
  have hdigits : Nat.toDigits 10 m = Nat.toDigits 10 n := by
    rw [← Nat.toList_repr, ← Nat.toList_repr]
    exact (hread m s).symm.trans (h ▸ hread n t)
  calc m = Nat.ofDigitChars 10 (Nat.toDigits 10 m) 0 := Nat.ofDigitChars_ten_toDigits.symm
    _ = Nat.ofDigitChars 10 (Nat.toDigits 10 n) 0 := by rw [hdigits]
    _ = n := Nat.ofDigitChars_ten_toDigits

theorem entry_mem_iff {line : String} (hline : (splitlines text)[i]? = some line) :
    entry (i + 1) line ∈ offendersIn word text ↔ isOffender word line = true := by
  unfold offendersIn
  rw [List.mem_filterMap]
  constructor
  · rintro ⟨⟨line', j⟩, hmem, hentry⟩
    dsimp only at hentry
    split_ifs at hentry with hoffends
    obtain rfl := entry_inj (Option.some.inj hentry)
    have hline' := (List.mk_mem_zipIdx_iff_le_and_getElem?_sub.mp hmem).2
    obtain rfl : line = line' := Option.some.inj (hline.symm.trans hline')
    exact hoffends
  · intro hoffends
    exact ⟨(line, i + 1), List.mk_mem_zipIdx_iff_le_and_getElem?_sub.mpr ⟨Nat.le_add_left 1 i, hline⟩,
      if_pos hoffends⟩

/-- **Where the sweep is right**: on the texts none of whose lines hides a call behind one of
`release_if_party`, has one behind a word that ends in `def`, or defines `release` behind other blanks
than one. -/
theorem sweep_iff (h : WordChars word) (text : String) :
    NoFalseVerdict word text ↔ ∀ line ∈ splitlines text, startsWith "#" (strip line) = false →
      ¬ Hidden word line.toList ∧ ¬ Swallowed word line.toList ∧ ¬ FalseAlarm word line.toList := by
  constructor
  · intro hright line hmem hcode
    obtain ⟨i, hline⟩ := List.mem_iff_getElem?.mp hmem
    have hgreen := fun hcalls => ((isOffender_iff h line).mp
      ((entry_mem_iff hline).mp (hright.green i line hline hcode hcalls))).2
    refine ⟨?_, ?_, ?_⟩
    · rintro ⟨hcalls, k, hfirst, hnear⟩
      obtain ⟨j, hj, hfar⟩ := hgreen hcalls
      exact hfar (hj.unique hfirst ▸ hnear)
    · rintro ⟨hcalls, hnone⟩
      obtain ⟨j, hj, -⟩ := hgreen hcalls
      exact hnone j hj.1
    · rintro ⟨honly, hfirst⟩
      exact hright.red i line hline honly
        ((entry_mem_iff hline).mpr ((isOffender_iff h line).mpr ⟨hcode, hfirst⟩))
  · intro hlines
    refine ⟨fun i line hline hcode hcalls => ?_, fun i line hline honly hmem => ?_⟩
    · obtain ⟨hhidden, hswallowed, -⟩ := hlines line (List.mem_of_getElem? hline) hcode
      rw [entry_mem_iff hline, isOffender_iff h]
      by_cases hnamed : ∃ k, Named word line.toList k
      · obtain ⟨k, hfirst⟩ := exists_first hnamed.choose_spec
        exact ⟨hcode, k, hfirst, fun hnear => hhidden ⟨hcalls, k, hfirst, hnear⟩⟩
      · exact absurd ⟨hcalls, not_exists.mp hnamed⟩ hswallowed
    · obtain ⟨hcode, hfirst⟩ := (isOffender_iff h line).mp ((entry_mem_iff hline).mp hmem)
      exact (hlines line (List.mem_of_getElem? hline) hcode).2.2 ⟨honly, hfirst⟩

/-! ## A line of each kind -/

/-- The characters of identifiers in ASCII. -/
def asciiWord (c : Char) : Bool := c.isAlphanum || c == '_'

theorem asciiWord_chars : WordChars asciiWord where
  ascii _ _ := rfl
  blank c hc := by
    rw [Bool.eq_false_iff]
    intro hword
    have hrange : 48 ≤ c.toNat ∧ c.toNat ≤ 57 ∨ 65 ≤ c.toNat ∧ c.toNat ≤ 90 ∨ c.toNat = 95 ∨
        97 ≤ c.toNat ∧ c.toNat ≤ 122 := by
      unfold asciiWord Char.isAlphanum Char.isAlpha Char.isUpper Char.isLower Char.isDigit at hword
      simp only [Bool.or_eq_true, Bool.and_eq_true, decide_eq_true_eq, beq_iff_eq,
        UInt32.le_iff_toNat_le, ge_iff_le] at hword
      rcases hword with ((h | h) | h) | rfl
      · exact .inr (.inl h)
      · exact .inr (.inr (.inr h))
      · exact .inl h
      · exact .inr (.inr (.inl rfl))
    simp only [isSpace, Bool.or_eq_true, Bool.and_eq_true, decide_eq_true_eq] at hc
    omega

theorem sweep_apart :
    NoFalseVerdict asciiWord "release_if_party(a)\not.release(b)" ↔
      ∀ line ∈ splitlines "release_if_party(a)\not.release(b)", startsWith "#" (strip line) = false →
        ¬ Hidden asciiWord line.toList ∧ ¬ Swallowed asciiWord line.toList ∧
          ¬ FalseAlarm asciiWord line.toList :=
  sweep_iff asciiWord_chars _

/-- The second call of this line is not reported. -/
theorem hidden_green : ¬ NoFalseVerdict asciiWord "release_if_party(a); ot.release(b)" := by
  intro h
  have hmem := h.green 0 "release_if_party(a); ot.release(b)" (by decide +kernel) (by decide +kernel)
    ⟨24, by decide +kernel, by decide +kernel⟩
  revert hmem
  decide +kernel

end HermesMesh.ReleaseSweep
