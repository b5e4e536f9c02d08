import Mathlib.Data.List.Basic

/-!
# Updating the first match in a list

`updateFirst p f l` rewrites the first element of `l` that satisfies `p`, the way a loop with a
`break` edits one record of a table in place. Everything else, and every projection the update does
not touch, is unchanged.
-/

namespace Lib

variable {α β : Type*}

/-- The list with its first element satisfying `p` replaced by its image under `f`. -/
def updateFirst (p : α → Bool) (f : α → α) (l : List α) : List α :=
  l.replaceF fun a => if p a then some (f a) else none

theorem updateFirst_cons (p : α → Bool) (f : α → α) (a : α) (l : List α) :
    updateFirst p f (a :: l) = if p a then f a :: l else a :: updateFirst p f l := by
  unfold updateFirst
  by_cases h : p a = true <;> simp [h]

/-- A projection the update keeps is the same along the whole list. -/
theorem map_updateFirst {g : α → β} {f : α → α} (hg : ∀ a, g (f a) = g a) (p : α → Bool)
    (l : List α) : (updateFirst p f l).map g = l.map g := by
  induction l with
  | nil => rfl
  | cons a l ih =>
    rw [updateFirst_cons]
    by_cases h : p a = true
    · rw [if_pos h, List.map_cons, List.map_cons, hg]
    · rw [if_neg h, List.map_cons, List.map_cons, ih]

/-- The element the update rewrites is the one `find?` returns. -/
theorem updateFirst_of_find? {p : α → Bool} {f : α → α} {l : List α} {a : α}
    (h : l.find? p = some a) :
    ∃ l₁ l₂, l = l₁ ++ a :: l₂ ∧ (∀ b ∈ l₁, p b = false) ∧ p a = true ∧
      updateFirst p f l = l₁ ++ f a :: l₂ := by
  induction l with
  | nil => simp at h
  | cons b l ih =>
    rw [List.find?_cons] at h
    by_cases hb : p b = true
    · rw [hb] at h
      obtain rfl : b = a := Option.some.inj h
      exact ⟨[], l, rfl, by simp, hb, by rw [updateFirst_cons, if_pos hb]; rfl⟩
    · rw [Bool.not_eq_true] at hb
      rw [hb] at h
      obtain ⟨l₁, l₂, rfl, h1, h2, h3⟩ := ih h
      refine ⟨b :: l₁, l₂, rfl, ?_, h2, ?_⟩
      · rintro c hc
        rcases List.mem_cons.mp hc with rfl | hc
        · exact hb
        · exact h1 c hc
      · rw [updateFirst_cons, if_neg (by simp [hb]), h3]
        rfl

theorem updateFirst_eq_self {p : α → Bool} {f : α → α} {l : List α} (h : ∀ a ∈ l, p a = false) :
    updateFirst p f l = l := by
  induction l with
  | nil => rfl
  | cons a l ih =>
    rw [List.forall_mem_cons] at h
    rw [updateFirst_cons, if_neg (by simp [h.1]), ih h.2]

/-- What the update leaves behind was there, or is the image of a match. -/
theorem mem_updateFirst {p : α → Bool} {f : α → α} {l : List α} {b : α}
    (h : b ∈ updateFirst p f l) : b ∈ l ∨ ∃ a ∈ l, p a = true ∧ b = f a := by
  induction l with
  | nil => exact .inl h
  | cons a l ih =>
    rw [updateFirst_cons] at h
    by_cases hp : p a = true
    · rw [if_pos hp] at h
      rcases List.mem_cons.mp h with rfl | hb
      · exact .inr ⟨a, List.mem_cons_self, hp, rfl⟩
      · exact .inl (List.mem_cons_of_mem _ hb)
    · rw [if_neg hp] at h
      rcases List.mem_cons.mp h with rfl | hb
      · exact .inl List.mem_cons_self
      · rcases ih hb with hold | ⟨a', ha', hpa, heq⟩
        · exact .inl (List.mem_cons_of_mem _ hold)
        · exact .inr ⟨a', List.mem_cons_of_mem _ ha', hpa, heq⟩

/-- A filter that drops the element before and after its update does not see the update. -/
theorem filter_updateFirst {p q : α → Bool} {f : α → α} {l : List α} {a : α}
    (h : l.find? p = some a) (ha : q a = false) (hfa : q (f a) = false) :
    (updateFirst p f l).filter q = l.filter q := by
  obtain ⟨l₁, l₂, rfl, -, -, heq⟩ := updateFirst_of_find? (f := f) h
  rw [heq, List.filter_append, List.filter_append, List.filter_cons, List.filter_cons,
    if_neg (by simp [hfa]), if_neg (by simp [ha])]

/-- A filter that keeps the element sees every update of it. -/
theorem filter_updateFirst_ne {p q : α → Bool} {f : α → α} {l : List α} {a : α}
    (h : l.find? p = some a) (ha : q a = true) (hne : f a ≠ a) :
    (updateFirst p f l).filter q ≠ l.filter q := by
  obtain ⟨l₁, l₂, rfl, -, -, heq⟩ := updateFirst_of_find? (f := f) h
  rw [heq, List.filter_append, List.filter_append, List.filter_cons, List.filter_cons, if_pos ha]
  intro hcon
  have htail := List.append_cancel_left hcon
  by_cases hfa : q (f a) = true
  · rw [if_pos hfa] at htail
    exact hne (List.cons.inj htail).1
  · rw [if_neg hfa] at htail
    have hlen := congrArg List.length htail
    rw [List.length_cons] at hlen
    omega

/-- Searching a filtered list for something the filter keeps. -/
theorem find?_filter_of_imp {p q : α → Bool} (h : ∀ a, p a = true → q a = true) (l : List α) :
    (l.filter q).find? p = l.find? p := by
  induction l with
  | nil => rfl
  | cons a l ih =>
    rw [List.filter_cons, List.find?_cons]
    by_cases hq : q a = true
    · rw [if_pos hq, List.find?_cons, ih]
    · have hp : p a = false := by
        by_contra hp
        exact hq (h a (by simpa using hp))
      rw [if_neg hq, ih, hp]

end Lib
