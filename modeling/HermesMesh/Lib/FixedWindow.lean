import Mathlib.Algebra.Order.Group.Basic
import Mathlib.Algebra.Order.Sub.Basic
import Mathlib.Order.Interval.Finset.Nat

/-!
# Counting in windows

A counter that starts a window with the first event that comes after the last window is over, and
numbers the events of each window from one on. The starts of two windows are more than a width apart
(`pairwise_entries`), so an interval of one width meets at most two of them, and a limit on the
numbers is a limit on every window (`window_le`) and twice that on every interval (`interval_le`).
-/

namespace Lib.FixedWindow

variable {τ : Type*} [AddCommGroup τ] [LinearOrder τ] [IsOrderedAddMonoid τ]
  {width : τ} {limit : ℕ}

/-- One event: when it came, its number in its window, and when that window started. -/
structure Entry (τ : Type*) where
  time : τ
  count : ℕ
  start : τ

/-- The number of an event, and the start of its window. -/
def turn (width now : τ) : Option (ℕ × τ) → ℕ × τ
  | none => (1, now)
  | some (count, start) => if width < now - start then (1, now) else (count + 1, start)

/-- The events one after another, from the number and the start that were left before. -/
def entries (width : τ) : Option (ℕ × τ) → List τ → List (Entry τ)
  | _, [] => []
  | window, now :: times =>
    let next := turn width now window
    ⟨now, next.1, next.2⟩ :: entries width (some next) times

/-- What a later event has to do with one before it: it has a higher number in the same window, or
its window starts more than a width later. -/
def Follows (width : τ) (x y : Entry τ) : Prop :=
  y.start = x.start ∧ x.count < y.count ∨ x.start + width < y.start

/-! ## The windows -/

theorem entries_follow (hwidth : 0 ≤ width) (times : List τ) (count : ℕ) (start : τ) :
    ∀ e ∈ entries width (some (count, start)) times,
      e.start = start ∧ count < e.count ∨ start + width < e.start := by
  induction times generalizing count start with
  | nil => exact List.forall_mem_nil _
  | cons now times ih =>
    rw [entries]
    simp only [turn]
    split_ifs with hover
    · have hlate : start + width < now := lt_sub_iff_add_lt'.mp hover
      refine List.forall_mem_cons.mpr ⟨.inr hlate, fun e he => .inr ?_⟩
      rcases ih 1 now e he with ⟨hstart, -⟩ | hstart
      · rwa [hstart]
      · exact hlate.trans ((le_add_of_nonneg_right hwidth).trans_lt hstart)
    · refine List.forall_mem_cons.mpr ⟨.inl ⟨rfl, Nat.lt_succ_self count⟩, fun e he => ?_⟩
      exact (ih (count + 1) start e he).imp_left fun ⟨hstart, hcount⟩ =>
        ⟨hstart, (Nat.lt_succ_self count).trans hcount⟩

theorem pairwise_entries (hwidth : 0 ≤ width) (times : List τ) (window : Option (ℕ × τ)) :
    (entries width window times).Pairwise (Follows width) := by
  induction times generalizing window with
  | nil => exact .nil
  | cons now times ih => exact .cons (entries_follow hwidth times _ _) (ih _)

/-- Every event has a number, and where the clock never runs back it comes while its window lasts. -/
theorem entries_inside (hwidth : 0 ≤ width) {times : List τ} (hsorted : times.Pairwise (· ≤ ·))
    (window : Option (ℕ × τ)) (hwindow : ∀ w ∈ window, ∀ now ∈ times, w.2 ≤ now) :
    ∀ e ∈ entries width window times,
      1 ≤ e.count ∧ e.start ≤ e.time ∧ e.time ≤ e.start + width := by
  induction times generalizing window with
  | nil => exact List.forall_mem_nil _
  | cons now times ih =>
    obtain ⟨hfirst, hsorted⟩ := List.pairwise_cons.mp hsorted
    have hnow : 1 ≤ (turn width now window).1 ∧ (turn width now window).2 ≤ now ∧
        now ≤ (turn width now window).2 + width := by
      rcases window with _ | ⟨count, start⟩
      · exact ⟨le_rfl, le_rfl, le_add_of_nonneg_right hwidth⟩
      · unfold turn
        dsimp only
        split_ifs with hover
        · exact ⟨le_rfl, le_rfl, le_add_of_nonneg_right hwidth⟩
        · exact ⟨Nat.le_add_left 1 count, hwindow _ rfl now List.mem_cons_self,
            sub_le_iff_le_add'.mp (not_lt.mp hover)⟩
    refine List.forall_mem_cons.mpr ⟨hnow, ih hsorted _ fun w hw later hlater => ?_⟩
    obtain rfl := Option.mem_some.mp hw
    exact hnow.2.1.trans (hfirst later hlater)

/-! ## The bounds -/

variable {l : List (Entry τ)}

omit [IsOrderedAddMonoid τ] in
/-- Numbers up to `limit` in windows that start within one width: there are at most `limit` of them. -/
theorem length_le_of_close (hfollow : l.Pairwise (Follows width))
    (hclose : ∀ x ∈ l, ∀ y ∈ l, y.start ≤ x.start + width)
    (hcount : ∀ e ∈ l, 1 ≤ e.count ∧ e.count ≤ limit) : l.length ≤ limit := by
  have hincreasing : (l.map Entry.count).Pairwise (· < ·) := by
    refine List.pairwise_map.mpr (hfollow.imp_of_mem fun {x y} hx hy h => ?_)
    rcases h with ⟨-, hlt⟩ | hfar
    · exact hlt
    · exact absurd (hclose x hx y hy) hfar.not_ge
  have hnodup : (l.map Entry.count).Nodup := hincreasing.imp fun h => h.ne
  have hsubset : (l.map Entry.count).toFinset ⊆ Finset.Icc 1 limit := by
    intro n hn
    obtain ⟨e, he, rfl⟩ := List.mem_map.mp (List.mem_toFinset.mp hn)
    exact Finset.mem_Icc.mpr (hcount e he)
  calc l.length = (l.map Entry.count).length := (List.length_map _).symm
    _ = (l.map Entry.count).toFinset.card := (List.toFinset_card_of_nodup hnodup).symm
    _ ≤ (Finset.Icc 1 limit).card := Finset.card_le_card hsubset
    _ = limit := by rw [Nat.card_Icc, Nat.add_sub_cancel]

/-- In one window at most `limit` events have a number up to `limit`. -/
theorem window_le (hwidth : 0 ≤ width) (hfollow : l.Pairwise (Follows width))
    (hcount : ∀ e ∈ l, 1 ≤ e.count) (start : τ) :
    (l.filter fun e => e.count ≤ limit ∧ e.start = start).length ≤ limit := by
  have hmem : ∀ e ∈ l.filter fun e => e.count ≤ limit ∧ e.start = start,
      e ∈ l ∧ e.count ≤ limit ∧ e.start = start := fun e he => by
    simpa only [List.mem_filter, decide_eq_true_eq] using he
  have hmet : (l.filter fun e => e.count ≤ limit ∧ e.start = start).Pairwise (Follows width) :=
    hfollow.sublist List.filter_sublist
  refine length_le_of_close hmet ?_ ?_
  · intro x hx y hy
    rw [(hmem x hx).2.2, (hmem y hy).2.2]
    exact le_add_of_nonneg_right hwidth
  · exact fun e he => ⟨hcount e (hmem e he).1, (hmem e he).2.1⟩

/-- In a closed interval of one width at most `2 * limit` events have a number up to `limit`. -/
theorem interval_le (hfollow : l.Pairwise (Follows width))
    (hinside : ∀ e ∈ l, 1 ≤ e.count ∧ e.start ≤ e.time ∧ e.time ≤ e.start + width) (a : τ) :
    (l.filter fun e => e.count ≤ limit ∧ a ≤ e.time ∧ e.time ≤ a + width).length ≤ 2 * limit := by
  set met := l.filter fun e => e.count ≤ limit ∧ a ≤ e.time ∧ e.time ≤ a + width with hmet
  have hmem : ∀ e ∈ met, e ∈ l ∧ e.count ≤ limit ∧ a ≤ e.time ∧ e.time ≤ a + width :=
    fun e he => by simpa only [hmet, List.mem_filter, decide_eq_true_eq] using he
  have hcount : ∀ e ∈ met, 1 ≤ e.count ∧ e.count ≤ limit :=
    fun e he => ⟨(hinside e (hmem e he).1).1, (hmem e he).2.1⟩
  -- a window that the interval meets starts inside it, or is the one that lasts as it begins
  have hsplit (p : Entry τ → Bool) (hclose : ∀ x ∈ met.filter p, ∀ y ∈ met.filter p,
      y.start ≤ x.start + width) : (met.filter p).length ≤ limit :=
    length_le_of_close ((hfollow.sublist List.filter_sublist).sublist List.filter_sublist) hclose
      fun e he => hcount e (List.mem_of_mem_filter he)
  have hstarted := hsplit (fun e => a ≤ e.start) fun x hx y hy => by
    have hx := (List.mem_filter.mp hx).2
    have hy := List.mem_of_mem_filter hy
    calc y.start ≤ y.time := (hinside y (hmem y hy).1).2.1
      _ ≤ a + width := (hmem y hy).2.2.2
      _ ≤ x.start + width := add_le_add_left (of_decide_eq_true hx) width
  have hlasting := hsplit (fun e => ¬ a ≤ e.start) fun x hx y hy => by
    have hy := (List.mem_filter.mp hy).2
    have hx := List.mem_of_mem_filter hx
    calc y.start ≤ a := (not_le.mp (of_decide_eq_true hy)).le
      _ ≤ x.time := (hmem x hx).2.2.1
      _ ≤ x.start + width := (hinside x (hmem x hx).1).2.2
  have hlength := List.length_eq_length_filter_add (l := met) fun e => decide (a ≤ e.start)
  simp only [← decide_not] at hlength
  omega

end Lib.FixedWindow
