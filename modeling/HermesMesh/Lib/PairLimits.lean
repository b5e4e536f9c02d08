import Mathlib.Data.Sym.Sym2
import Mathlib.Data.List.Basic

/-!
# Limits on a list of links

A link `(a, b)` says that `a` opened a connection to `b`. `Limits k l` bounds what a list of links
may hold: one link for an unordered pair, one stranger at a door, `k` links out of one agent.
The limits survive dropping links and adding one that passed the three checks (`Admits`), which is
all that a table of connections guarded by them ever does.
-/

namespace Lib

variable {α : Type*} {k : ℕ} {l l' : List (α × α)}

/-- Two links join the same two agents, in either direction. -/
def SamePair (x y : α × α) : Prop := s(x.1, x.2) = s(y.1, y.2)

/-- Two links lead to one door, opened by two agents neither of whom is behind it. -/
def Rivals (x y : α × α) : Prop := x.2 = y.2 ∧ x.1 ≠ y.1 ∧ x.1 ≠ x.2 ∧ y.1 ≠ y.2

theorem samePair_iff {x y : α × α} :
    SamePair x y ↔ x.1 = y.1 ∧ x.2 = y.2 ∨ x.1 = y.2 ∧ x.2 = y.1 := Sym2.eq_iff

variable [DecidableEq α]

/-- The three limits. -/
structure Limits (k : ℕ) (l : List (α × α)) : Prop where
  pairs : l.Pairwise fun x y => ¬ SamePair x y
  doors : l.Pairwise fun x y => ¬ Rivals x y
  outbound : ∀ a, l.countP (fun x => x.1 = a) ≤ k

/-- The checks a new link passes against the links it joins. -/
structure Checked (k : ℕ) (l : List (α × α)) (y : α × α) : Prop where
  pair : ∀ x ∈ l, ¬ SamePair x y
  door : ∀ x ∈ l, ¬ Rivals x y
  outbound : l.countP (fun x => x.1 = y.1) < k

/-- What a guarded table does: it drops links, or drops some and adds a checked one. -/
inductive Admits (k : ℕ) (l : List (α × α)) : List (α × α) → Prop
  | drop {m : List (α × α)} : m.Sublist l → Admits k l m
  | add {m : List (α × α)} {y : α × α} : m.Sublist l → Checked k m y → Admits k l (m ++ [y])

theorem Limits.nil : Limits k ([] : List (α × α)) where
  pairs := .nil
  doors := .nil
  outbound _ := Nat.zero_le k

theorem Limits.sublist (h : Limits k l) (hs : l'.Sublist l) : Limits k l' where
  pairs := h.pairs.sublist hs
  doors := h.doors.sublist hs
  outbound a := (hs.countP_le).trans (h.outbound a)

theorem Limits.concat (h : Limits k l) {y : α × α} (hy : Checked k l y) : Limits k (l ++ [y]) where
  pairs := by
    rw [List.pairwise_append]
    exact ⟨h.pairs, List.pairwise_singleton _ _, by simpa using hy.pair⟩
  doors := by
    rw [List.pairwise_append]
    exact ⟨h.doors, List.pairwise_singleton _ _, by simpa using hy.door⟩
  outbound a := by
    rw [List.countP_append]
    have hl := h.outbound a
    by_cases ha : y.1 = a
    · subst ha
      have := hy.outbound
      simp only [List.countP_singleton, decide_true, if_true]
      omega
    · simpa [List.countP_singleton, ha] using hl

/-- **The limits are kept** by everything a guarded table does. -/
theorem Limits.admits (h : Limits k l) (ha : Admits k l l') : Limits k l' := by
  cases ha with
  | drop hs => exact h.sublist hs
  | add hs hy => exact (h.sublist hs).concat hy

theorem Admits.refl : Admits k l l := .drop (List.Sublist.refl l)

end Lib
