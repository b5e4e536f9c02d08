import Mathlib.Data.List.Infix

/-!
# Replacing a word

`str.replace` of a word that is not empty: every occurrence that does not overlap one before it, from
left to right. Where the replacement is fenced off by symbols that the word lacks, and does not contain
the word between them, the word does not occur in the result (`not_infix_replace`).
-/

namespace Lib

variable {α : Type*} {w a b s : List α} {x y : α}

/-! ## Symbols that a word lacks -/

/-- A word that begins before a symbol which it lacks ends before it. -/
theorem prefix_of_append_cons (hx : x ∉ w) (h : w <+: a ++ x :: b) : w <+: a := by
  induction a generalizing w with
  | nil =>
    cases w with
    | nil => exact List.nil_prefix
    | cons z w =>
      obtain ⟨rfl, -⟩ := List.cons_prefix_cons.mp h
      exact absurd List.mem_cons_self hx
  | cons y a ih =>
    cases w with
    | nil => exact List.nil_prefix
    | cons z w =>
      obtain ⟨rfl, hrest⟩ := List.cons_prefix_cons.mp h
      exact List.cons_prefix_cons.mpr ⟨rfl, ih (fun hw => hx (List.mem_cons_of_mem z hw)) hrest⟩

/-- A word does not reach across a symbol that it lacks. -/
theorem infix_of_append_cons (hx : x ∉ w) (h : w <:+: a ++ x :: b) : w <:+: a ∨ w <:+: b := by
  induction a with
  | nil =>
    obtain h | h := List.infix_cons_iff.mp h
    · exact .inl (prefix_of_append_cons hx h).isInfix
    · exact .inr h
  | cons y a ih =>
    obtain h | h := List.infix_cons_iff.mp h
    · exact .inl (prefix_of_append_cons hx h).isInfix
    · exact (ih h).imp_left List.infix_cons

/-- A symbol splits a word where it first occurs. -/
theorem append_cons_inj {a' b' : List α} (ha : x ∉ a) (ha' : x ∉ a') (h : a ++ x :: b = a' ++ x :: b') :
    a = a' ∧ b = b' := by
  induction a generalizing a' with
  | nil =>
    cases a' with
    | nil => exact ⟨rfl, (List.cons.inj h).2⟩
    | cons z a' => exact absurd ((List.cons.inj h).1 ▸ List.mem_cons_self) ha'
  | cons y a ih =>
    cases a' with
    | nil => exact absurd ((List.cons.inj h).1 ▸ List.mem_cons_self) ha
    | cons z a' =>
      obtain ⟨rfl, hrest⟩ := List.cons.inj h
      obtain ⟨rfl, rfl⟩ := ih (List.not_mem_of_not_mem_cons ha) (List.not_mem_of_not_mem_cons ha') hrest
      exact ⟨rfl, rfl⟩

/-! ## The replacement -/

variable [DecidableEq α] {old new mid : List α} {o c : α}

/-- What is left after the next `skip` symbols, which belong to an occurrence that is replaced. -/
def replaceFrom (old new : List α) : ℕ → List α → List α
  | _, [] => []
  | skip + 1, _ :: s => replaceFrom old new skip s
  | 0, y :: s =>
    if old <+: y :: s then new ++ replaceFrom old new (old.length - 1) s
    else y :: replaceFrom old new 0 s

/-- `s.replace(old, new)`. -/
def replace (old new s : List α) : List α := replaceFrom old new 0 s

/-- A word without the opening symbol begins the result only where it begins what is left. -/
theorem prefix_of_prefix_replaceFrom (hw : o ∉ w) {skip : ℕ}
    (h : w <+: replaceFrom old (o :: new) skip s) : w <+: s.drop skip := by
  induction s generalizing skip w with
  | nil =>
    obtain rfl := List.prefix_nil.mp h
    exact List.nil_prefix
  | cons y s ih =>
    cases skip with
    | succ skip => exact ih hw h
    | zero =>
      unfold replaceFrom at h
      cases w with
      | nil => exact List.nil_prefix
      | cons z w =>
        obtain ⟨hz, hw⟩ := not_or.mp (mt List.mem_cons.mpr hw)
        split_ifs at h
        · exact absurd (List.cons_prefix_cons.mp h).1.symm hz
        · obtain ⟨rfl, hrest⟩ := List.cons_prefix_cons.mp h
          exact List.cons_prefix_cons.mpr ⟨rfl, ih hw hrest⟩

/-- **The word is gone.** By induction on the text: an occurrence in the result lies in one
replacement, or begins at a symbol of the text that begins none. -/
theorem not_infix_replaceFrom (hold : old ≠ []) (ho : o ∉ old) (hc : c ∉ old) (hmid : ¬ old <:+: mid)
    (skip : ℕ) (s : List α) : ¬ old <:+: replaceFrom old (o :: mid ++ [c]) skip s := by
  induction s generalizing skip with
  | nil =>
    intro h
    exact hold (List.infix_nil.mp h)
  | cons y s ih =>
    cases skip with
    | succ skip => exact ih skip
    | zero =>
      unfold replaceFrom
      split_ifs with hprefix
      · intro h
        rw [List.append_assoc, List.cons_append] at h
        obtain h | h := infix_of_append_cons (a := []) ho h
        · exact hold (List.infix_nil.mp h)
        · exact (infix_of_append_cons hc h).elim hmid (ih _)
      · intro h
        obtain h | h := List.infix_cons_iff.mp h
        · refine hprefix ?_
          cases old with
          | nil => exact absurd rfl hold
          | cons z old =>
            obtain ⟨rfl, hrest⟩ := List.cons_prefix_cons.mp h
            exact List.cons_prefix_cons.mpr
              ⟨rfl, prefix_of_prefix_replaceFrom (fun hz => ho (List.mem_cons_of_mem z hz)) hrest⟩
        · exact ih 0 h

theorem not_infix_replace (hold : old ≠ []) (ho : o ∉ old) (hc : c ∉ old) (hmid : ¬ old <:+: mid)
    (s : List α) : ¬ old <:+: replace old (o :: mid ++ [c]) s :=
  not_infix_replaceFrom hold ho hc hmid 0 s

/-- `"aXbXX".replace("X", "-")`. -/
example : replace ['X'] ['-'] ['a', 'X', 'b', 'X', 'X'] = ['a', '-', 'b', '-', '-'] := by decide

end Lib
