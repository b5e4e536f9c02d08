import Mathlib.Algebra.Order.Group.Basic
import Mathlib.Algebra.Order.Sub.Basic
import Mathlib.Data.List.Basic

/-!
# Tables that forget

A table of keys, each with the time at which it was put in, and a sweep that drops what is older than
`ttl`. Every use of the table puts a key in and then sweeps, at readings of its own. `tableOf` is the
table after a log of uses, newest first; what it still holds is a statement about the log alone
(`mem_tableOf`), and where the readings never run back, about the log as a set (`held_iff`).
-/

namespace Lib

variable {κ τ : Type*}

/-- One use of the table: the key, the time that is stored with it, and the reading of the sweep. -/
structure Put (κ τ : Type*) where
  key : κ
  time : τ
  swept : τ
  deriving DecidableEq, Repr

section Sweep

variable [Sub τ] [LT τ] [DecidableLT τ]

/-- The entries that are not older than `ttl` at the reading. -/
def sweep (ttl now : τ) (table : List (κ × τ)) : List (κ × τ) :=
  table.filter fun entry => ¬ ttl < now - entry.2

/-- The table after a log of uses, newest first. -/
def tableOf (ttl : τ) : List (Put κ τ) → List (κ × τ)
  | [] => []
  | p :: log => sweep ttl p.swept (tableOf ttl log ++ [(p.key, p.time)])

theorem mem_sweep {ttl now : τ} {table : List (κ × τ)} {entry : κ × τ} :
    entry ∈ sweep ttl now table ↔ entry ∈ table ∧ ¬ ttl < now - entry.2 := by
  unfold sweep
  rw [List.mem_filter, decide_eq_true_iff]

/-- An entry is held exactly where some use put it in, and no sweep from that use on dropped it. -/
theorem mem_tableOf {ttl : τ} {log : List (Put κ τ)} {key : κ} {time : τ} :
    (key, time) ∈ tableOf ttl log ↔
      ∃ later p earlier, log = later ++ p :: earlier ∧ p.key = key ∧ p.time = time ∧
        ∀ q ∈ later ++ [p], ¬ ttl < q.swept - time := by
  induction log with
  | nil =>
    refine ⟨nofun, ?_⟩
    rintro ⟨later, p, earlier, hlog, -⟩
    exact absurd hlog.symm (by simp)
  | cons head log ih =>
    show _ ∈ sweep _ _ _ ↔ _
    rw [mem_sweep, List.mem_append, ih, List.mem_singleton, Prod.mk.injEq]
    constructor
    · rintro ⟨⟨later, p, earlier, rfl, hkey, htime, hkept⟩ | ⟨rfl, rfl⟩, hnow⟩
      · refine ⟨head :: later, p, earlier, rfl, hkey, htime, ?_⟩
        exact List.forall_mem_cons.mpr ⟨hnow, hkept⟩
      · exact ⟨[], head, log, rfl, rfl, rfl, List.forall_mem_singleton.mpr hnow⟩
    · rintro ⟨later, p, earlier, hlog, hkey, htime, hkept⟩
      cases later with
      | nil =>
        obtain ⟨rfl, rfl⟩ := List.cons.inj hlog
        exact ⟨.inr ⟨hkey.symm, htime.symm⟩, hkept _ (List.mem_singleton_self _)⟩
      | cons q later =>
        obtain ⟨rfl, rfl⟩ := List.cons.inj hlog
        obtain ⟨hnow, hkept⟩ := List.forall_mem_cons.mp hkept
        exact ⟨.inl ⟨later, p, earlier, rfl, hkey, htime, hkept⟩, hnow⟩

end Sweep

/-- The readings of a log, newest first, never run back. -/
def Chronological [LE τ] (log : List (Put κ τ)) : Prop :=
  (∀ p ∈ log, p.time ≤ p.swept) ∧ log.Pairwise fun later earlier => earlier.swept ≤ later.time

theorem Chronological.cons [LE τ] {log : List (Put κ τ)} {p : Put κ τ} (h : Chronological log)
    (hp : p.time ≤ p.swept) (hlog : ∀ q ∈ log, q.swept ≤ p.time) : Chronological (p :: log) :=
  ⟨List.forall_mem_cons.mpr ⟨hp, h.1⟩, List.pairwise_cons.mpr ⟨hlog, h.2⟩⟩

section Ordered

variable [AddCommGroup τ] [LinearOrder τ] [IsOrderedAddMonoid τ]

/-- **What the table holds.** A key is held exactly where some use of it is not older than `ttl` at
the reading of any sweep so far. -/
theorem held_iff {ttl : τ} (httl : 0 ≤ ttl) {log : List (Put κ τ)} (h : Chronological log) {key : κ} :
    (∃ time, (key, time) ∈ tableOf ttl log) ↔
      ∃ p ∈ log, p.key = key ∧ ∀ q ∈ log, q.swept - p.time ≤ ttl := by
  simp only [mem_tableOf, not_lt]
  constructor
  · rintro ⟨time, later, p, earlier, rfl, hkey, rfl, hkept⟩
    refine ⟨p, List.mem_append_right _ List.mem_cons_self, hkey, fun q hq => ?_⟩
    rcases List.mem_append.mp hq with hq | hq
    · exact hkept q (List.mem_append_left _ hq)
    · rcases List.mem_cons.mp hq with rfl | hq
      · exact hkept q (List.mem_append_right _ (List.mem_singleton_self _))
      · -- what was swept before the key was put in is no later than it
        have hpair := (List.pairwise_append.mp h.2).2.1
        have hle : q.swept ≤ p.time := (List.pairwise_cons.mp hpair).1 q hq
        exact (sub_nonpos.mpr hle).trans httl
  · rintro ⟨p, hp, hkey, hkept⟩
    obtain ⟨later, earlier, rfl⟩ := List.append_of_mem hp
    refine ⟨p.time, later, p, earlier, rfl, hkey, rfl, fun q hq => hkept q ?_⟩
    rcases List.mem_append.mp hq with hq | hq
    · exact List.mem_append_left _ hq
    · rw [List.mem_singleton.mp hq]
      exact List.mem_append_right _ List.mem_cons_self

end Ordered

end Lib
