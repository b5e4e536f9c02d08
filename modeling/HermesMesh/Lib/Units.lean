import Mathlib.Data.List.Basic

/-!
# Texts written in units

Every letter `a` of a text is written as a unit `f a`. A boundary is a position of the written text
between two units: cutting there cuts the text itself (`Boundary.cut`). Where every unit is a single
symbol or stands between an opening and a closing symbol (`Delimited`), an opening symbol marks the
start of a unit (`exists_unit_of_open`), so that boundaries can be found by looking for it.
-/

namespace Lib

variable {α β : Type*} {f : α → List β} {xs ys zs : List α} {n : ℕ} {o c : β}

/-- The position stands between two units. -/
def Boundary (f : α → List β) (xs : List α) (n : ℕ) : Prop :=
  ∃ ys zs, xs = ys ++ zs ∧ n = (ys.flatMap f).length

theorem boundary_append (f : α → List β) (ys zs : List α) :
    Boundary f (ys ++ zs) (ys.flatMap f).length := ⟨ys, zs, rfl, rfl⟩

theorem boundary_length (f : α → List β) (xs : List α) : Boundary f xs (xs.flatMap f).length :=
  ⟨xs, [], (List.append_nil xs).symm, rfl⟩

/-- A cut at a boundary cuts the text. -/
theorem Boundary.cut (h : Boundary f xs n) :
    ∃ ys zs, xs = ys ++ zs ∧ (xs.flatMap f).take n = ys.flatMap f ∧
      (xs.flatMap f).drop n = zs.flatMap f := by
  obtain ⟨ys, zs, rfl, rfl⟩ := h
  refine ⟨ys, zs, rfl, ?_, ?_⟩
  · rw [List.flatMap_append, List.take_left]
  · rw [List.flatMap_append, List.drop_left]

/-- A position is a boundary, or it lies inside a unit. -/
theorem boundary_or_inside (f : α → List β) (xs : List α) :
    ∀ n, n ≤ (xs.flatMap f).length → Boundary f xs n ∨ ∃ ys x zs, xs = ys ++ x :: zs ∧
      (ys.flatMap f).length < n ∧ n < (ys.flatMap f).length + (f x).length := by
  induction xs with
  | nil =>
    intro n hn
    exact .inl ⟨[], [], rfl, Nat.le_zero.mp hn⟩
  | cons x xs ih =>
    intro n hn
    rw [List.flatMap_cons, List.length_append] at hn
    by_cases hx : (f x).length ≤ n
    · rcases ih (n - (f x).length) (by omega) with ⟨ys, zs, rfl, h⟩ | ⟨ys, y, zs, rfl, h1, h2⟩
      · refine .inl ⟨x :: ys, zs, rfl, ?_⟩
        rw [List.flatMap_cons, List.length_append]
        omega
      · refine .inr ⟨x :: ys, y, zs, rfl, ?_, ?_⟩ <;>
          rw [List.flatMap_cons, List.length_append] <;> omega
    · by_cases h0 : n = 0
      · exact .inl ⟨[], x :: xs, rfl, h0⟩
      · exact .inr ⟨[], x, xs, rfl, by simpa using Nat.pos_of_ne_zero h0, by simpa using hx⟩

/-- A single symbol, or a word between `o` and `c` that holds neither. -/
def Delimited (o c : β) (u : List β) : Prop :=
  (∃ b, u = [b] ∧ b ≠ o) ∨ ∃ body, u = o :: (body ++ [c]) ∧ o ∉ body ∧ c ∉ body

/-- A unit of more than one symbol is closed. -/
theorem Delimited.closed {u : List β} (h : Delimited o c u) (hu : 1 < u.length) :
    ∃ body, u = o :: (body ++ [c]) ∧ o ∉ body ∧ c ∉ body := by
  rcases h with ⟨b, rfl, -⟩ | h
  · exact absurd hu (Nat.lt_irrefl 1)
  · exact h

/-- An opening symbol stands at the start of a unit, which is closed. -/
theorem exists_unit_of_open (hf : ∀ x, Delimited o c (f x)) (hoc : o ≠ c) (xs : List α) :
    ∀ i, (xs.flatMap f)[i]? = some o → ∃ ys x zs body, xs = ys ++ x :: zs ∧
      i = (ys.flatMap f).length ∧ f x = o :: (body ++ [c]) ∧ c ∉ body := by
  induction xs with
  | nil =>
    intro i hi
    cases hi
  | cons x xs ih =>
    intro i hi
    rw [List.flatMap_cons] at hi
    by_cases hx : (f x).length ≤ i
    · rw [List.getElem?_append_right hx] at hi
      obtain ⟨ys, y, zs, body, rfl, hlen, hy, hc⟩ := ih _ hi
      refine ⟨x :: ys, y, zs, body, rfl, ?_, hy, hc⟩
      rw [List.flatMap_cons, List.length_append]
      omega
    · rw [List.getElem?_append_left (Nat.lt_of_not_le hx)] at hi
      rcases hf x with ⟨b, hb, hne⟩ | ⟨body, hbody, ho, hc⟩
      · rw [hb] at hi
        obtain rfl := List.mem_singleton.mp (List.mem_of_getElem? hi)
        exact absurd rfl hne
      · rw [hbody] at hi
        cases i with
        | zero => exact ⟨[], x, xs, body, rfl, rfl, hbody, hc⟩
        | succ i =>
          rw [List.getElem?_cons_succ] at hi
          rcases List.mem_append.mp (List.mem_of_getElem? hi) with hmem | hmem
          · exact absurd hmem ho
          · exact absurd (List.mem_singleton.mp hmem) hoc

end Lib
