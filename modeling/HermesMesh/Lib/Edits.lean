import HermesMesh.Lib.FirstMatch

/-!
# Tables edited in place

Three edits of a table: keep the entries with a property, revise the first entry that matches, append
one. `applyCounted g` does the same to entries that each carry a count, of how often the value `g` of
the entry has changed since it was appended. Without the counts it is the plain edit
(`map_fst_applyCounted`), and what the edits keep of single entries and their counts is kept of the
table (`forall_applyAllCounted`).
-/

namespace Lib

variable {α β : Type*}

/-- One edit of a table. -/
inductive Edit (α : Type*) where
  | keep (q : α → Bool)
  | revise (p : α → Bool) (f : α → α)
  | append (a : α)

/-- The table after the edit. -/
def Edit.apply : Edit α → List α → List α
  | keep q, l => l.filter q
  | revise p f, l => updateFirst p f l
  | append a, l => l ++ [a]

/-- The table after the edits, first to last. -/
def applyAll (edits : List (Edit α)) (l : List α) : List α :=
  edits.foldl (fun l e => e.apply l) l

@[simp] theorem applyAll_nil (l : List α) : applyAll [] l = l := rfl

@[simp] theorem applyAll_cons (e : Edit α) (edits : List (Edit α)) (l : List α) :
    applyAll (e :: edits) l = applyAll edits (e.apply l) := rfl

section Counted

variable [DecidableEq β]

/-- The entry revised, and its count one higher where the revision changed the value. -/
def recount (g : α → β) (f : α → α) (x : α × ℕ) : α × ℕ :=
  (f x.1, if g (f x.1) = g x.1 then x.2 else x.2 + 1)

/-- The edit of a table whose entries carry counts. -/
def Edit.applyCounted (g : α → β) : Edit α → List (α × ℕ) → List (α × ℕ)
  | keep q, l => l.filter fun x => q x.1
  | revise p f, l => updateFirst (fun x => p x.1) (recount g f) l
  | append a, l => l ++ [(a, 0)]

def applyAllCounted (g : α → β) (edits : List (Edit α)) (l : List (α × ℕ)) : List (α × ℕ) :=
  edits.foldl (fun l e => e.applyCounted g l) l

theorem map_fst_recount (g : α → β) (p : α → Bool) (f : α → α) (l : List (α × ℕ)) :
    (updateFirst (fun x => p x.1) (recount g f) l).map Prod.fst =
      updateFirst p f (l.map Prod.fst) := by
  induction l with
  | nil => rfl
  | cons x l ih =>
    rw [updateFirst_cons, List.map_cons, updateFirst_cons]
    by_cases hp : p x.1 = true
    · rw [if_pos hp, if_pos hp]
      rfl
    · rw [if_neg hp, if_neg hp, List.map_cons, ih]

/-- Without the counts it is the plain edit. -/
theorem Edit.map_fst_applyCounted (g : α → β) (e : Edit α) (l : List (α × ℕ)) :
    (e.applyCounted g l).map Prod.fst = e.apply (l.map Prod.fst) := by
  cases e with
  | keep q =>
    show (l.filter (q ∘ Prod.fst)).map Prod.fst = (l.map Prod.fst).filter q
    rw [List.filter_map]
  | revise p f => exact map_fst_recount g p f l
  | append a =>
    show (l ++ [(a, 0)]).map Prod.fst = l.map Prod.fst ++ [a]
    rw [List.map_append, List.map_singleton]

theorem map_fst_applyAllCounted (g : α → β) (edits : List (Edit α)) (l : List (α × ℕ)) :
    (applyAllCounted g edits l).map Prod.fst = applyAll edits (l.map Prod.fst) := by
  induction edits generalizing l with
  | nil => rfl
  | cons e edits ih =>
    show (applyAllCounted g edits (e.applyCounted g l)).map Prod.fst = _
    rw [ih, e.map_fst_applyCounted, applyAll_cons]

/-- What an edit keeps of one entry and its count. -/
def Edit.Keeps (g : α → β) (P : α × ℕ → Prop) : Edit α → Prop
  | keep _ => True
  | revise p f => ∀ x, p x.1 = true → P x → P (recount g f x)
  | append a => P (a, 0)

theorem Edit.forall_applyCounted {g : α → β} {P : α × ℕ → Prop} {e : Edit α} {l : List (α × ℕ)}
    (he : e.Keeps g P) (hl : ∀ x ∈ l, P x) : ∀ x ∈ e.applyCounted g l, P x := by
  intro x hx
  cases e with
  | keep q => exact hl x (List.mem_of_mem_filter hx)
  | revise p f =>
    rcases mem_updateFirst hx with hold | ⟨y, hy, hp, rfl⟩
    · exact hl x hold
    · exact he y hp (hl y hy)
  | append a =>
    rcases List.mem_append.mp hx with hold | hnew
    · exact hl x hold
    · rw [List.mem_singleton.mp hnew]
      exact he

/-- What every edit keeps of single entries is kept of the table. -/
theorem forall_applyAllCounted {g : α → β} {P : α × ℕ → Prop} {edits : List (Edit α)}
    {l : List (α × ℕ)} (he : ∀ e ∈ edits, e.Keeps g P) (hl : ∀ x ∈ l, P x) :
    ∀ x ∈ applyAllCounted g edits l, P x := by
  induction edits generalizing l with
  | nil => exact hl
  | cons e edits ih =>
    rw [List.forall_mem_cons] at he
    exact ih he.2 (Edit.forall_applyCounted he.1 hl)

end Counted

end Lib
