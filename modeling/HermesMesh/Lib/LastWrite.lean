import Mathlib.Data.List.Basic
import Mathlib.Logic.Function.Basic

/-!
# Writes in turn

Writers come one after another, and each writes at one key or at none. What a key holds in the end is
what the last writer at it left (`writeAll_last`), or what it held before (`writeAll_of_forall_not`).
-/

namespace Lib

variable {α κ ν : Type*} [DecidableEq κ] {write : α → Option (κ × ν)} {table : κ → ν} {k : κ} {v : ν}
  {a : α} {l before after : List α}

/-- The table after one turn. -/
def put : Option (κ × ν) → (κ → ν) → κ → ν
  | none, table => table
  | some (k, v), table => Function.update table k v

/-- The table after the turns of these writers. -/
def writeAll (write : α → Option (κ × ν)) : List α → (κ → ν) → κ → ν
  | [], table => table
  | a :: l, table => writeAll write l (put (write a) table)

/-- The writer writes at the key. -/
def WritesAt (write : α → Option (κ × ν)) (k : κ) (a : α) : Prop := ∃ v, write a = some (k, v)

theorem put_of_not (h : ¬ WritesAt write k a) : put (write a) table k = table k := by
  cases hwrite : write a with
  | none => rfl
  | some w =>
    obtain ⟨k', v⟩ := w
    refine Function.update_of_ne ?_ _ _
    rintro rfl
    exact h ⟨v, hwrite⟩

theorem writeAll_append (write : α → Option (κ × ν)) (before after : List α) (table : κ → ν) :
    writeAll write (before ++ after) table = writeAll write after (writeAll write before table) := by
  induction before generalizing table with
  | nil => rfl
  | cons a before ih => exact ih _

/-- A key at which nobody writes keeps its value. -/
theorem writeAll_of_forall_not (h : ∀ a ∈ l, ¬ WritesAt write k a) :
    writeAll write l table k = table k := by
  induction l generalizing table with
  | nil => rfl
  | cons a l ih =>
    obtain ⟨hfirst, hrest⟩ := List.forall_mem_cons.mp h
    rw [writeAll, ih hrest, put_of_not hfirst]

/-- **The last write stays.** -/
theorem writeAll_last (ha : write a = some (k, v)) (h : ∀ b ∈ after, ¬ WritesAt write k b) :
    writeAll write (before ++ a :: after) table k = v := by
  rw [writeAll_append, writeAll, writeAll_of_forall_not h, ha]
  exact Function.update_self ..

omit [DecidableEq κ] in
/-- A key at which somebody writes has a last writer. -/
theorem exists_last (h : ∃ a ∈ l, WritesAt write k a) : ∃ before a after, l = before ++ a :: after ∧
    WritesAt write k a ∧ ∀ b ∈ after, ¬ WritesAt write k b := by
  induction l with
  | nil =>
    obtain ⟨a, ha, -⟩ := h
    cases ha
  | cons first l ih =>
    by_cases hlater : ∃ a ∈ l, WritesAt write k a
    · obtain ⟨before, a, after, rfl, ha, hafter⟩ := ih hlater
      exact ⟨first :: before, a, after, rfl, ha, hafter⟩
    · obtain ⟨a, ha, hwrites⟩ := h
      rcases List.mem_cons.mp ha with rfl | ha
      · exact ⟨[], a, l, rfl, hwrites, fun b hb hwrites => hlater ⟨b, hb, hwrites⟩⟩
      · exact absurd ⟨a, ha, hwrites⟩ hlater

end Lib
