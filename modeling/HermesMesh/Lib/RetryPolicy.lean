import Mathlib.Algebra.Order.Group.Defs
import Mathlib.Data.List.Basic

/-!
# Retries under a policy

A job is tried whenever it is due, until an attempt succeeds or `limit` attempts have failed; after
failure number `k`, counted from zero, it is not due for `delay k`. `Kept` relates a job to the
attempts made at it, oldest first, and every turn keeps it (`Kept.turn`), whatever its time and its
outcome. What the attempts say of the job is read off it: `Kept.eq_succeeded` and
`Kept.eq_of_failed`.
-/

namespace Lib

/-- How often to try, and how long to wait after each failure. -/
structure RetryPolicy (T : Type*) where
  limit : ℕ
  delay : ℕ → T

/-- Where a job stands. -/
inductive Job (T : Type*) where
  | waiting (failures : ℕ) (due : T)
  | succeeded
  | abandoned

/-- One attempt. -/
structure Trial (T : Type*) where
  start : T
  ok : Bool

namespace RetryPolicy

variable {T : Type*} [LinearOrder T] [Add T] {p : RetryPolicy T} {trials : List (Trial T)}
  {job : Job T} {now due : T} {ok : Bool}

/-- The turn of a job at `now`; `ok` is how an attempt would end. -/
def turn (p : RetryPolicy T) (now : T) (ok : Bool) : Job T → Job T
  | .waiting failures due =>
    if now < due then .waiting failures due
    else if ok then .succeeded
    else if p.limit ≤ failures + 1 then .abandoned
    else .waiting (failures + 1) (now + p.delay failures)
  | .succeeded => .succeeded
  | .abandoned => .abandoned

/-- The attempt that the turn makes, if it makes one. -/
def made (now : T) (ok : Bool) : Job T → List (Trial T)
  | .waiting _ due => if now < due then [] else [⟨now, ok⟩]
  | .succeeded | .abandoned => []

/-- After each attempt the next one waits as long as the policy says. -/
def Spaced (p : RetryPolicy T) (trials : List (Trial T)) : Prop :=
  ∀ k a b, trials[k]? = some a → trials[k + 1]? = some b → a.start + p.delay k ≤ b.start

/-- No attempt before `due`. -/
def NotBefore (p : RetryPolicy T) (trials : List (Trial T)) (due : T) : Prop :=
  ∀ k a, trials[k]? = some a → k + 1 = trials.length → a.start + p.delay k ≤ due

/-- What the attempts at a job say of it. -/
inductive Stands (p : RetryPolicy T) (trials : List (Trial T)) : Job T → Prop
  | waiting {due : T} (hfailed : ∀ trial ∈ trials, trial.ok = false) (hmore : trials.length < p.limit)
      (hdue : NotBefore p trials due) : Stands p trials (.waiting trials.length due)
  | succeeded (hok : ∃ trial ∈ trials, trial.ok = true) : Stands p trials .succeeded
  | abandoned (hfailed : ∀ trial ∈ trials, trial.ok = false) (hlast : trials.length = p.limit) :
      Stands p trials .abandoned

/-- The attempts at a job have kept to the policy. -/
structure Kept (p : RetryPolicy T) (trials : List (Trial T)) (job : Job T) : Prop where
  bounded : trials.length ≤ p.limit
  spaced : Spaced p trials
  stands : Stands p trials job

theorem kept_nil (hlimit : 0 < p.limit) (due : T) : p.Kept [] (.waiting 0 due) where
  bounded := hlimit.le
  spaced := by
    intro k a b ha
    cases ha
  stands := .waiting (List.forall_mem_nil _) hlimit fun k a ha => nomatch ha

theorem Spaced.snoc (h : Spaced p trials) (hdue : NotBefore p trials due) (hnow : due ≤ now) :
    Spaced p (trials ++ [⟨now, ok⟩]) := by
  intro k a b ha hb
  obtain ⟨hlt, -⟩ := List.getElem?_eq_some_iff.mp hb
  rw [List.length_append, List.length_singleton] at hlt
  rw [List.getElem?_append_left (by omega)] at ha
  by_cases hk : k + 1 < trials.length
  · rw [List.getElem?_append_left hk] at hb
    exact h k a b ha hb
  · have hlast : k + 1 = trials.length := by omega
    rw [hlast, List.getElem?_concat_length] at hb
    obtain rfl := Option.some.inj hb
    exact (hdue k a ha hlast).trans hnow

theorem notBefore_snoc : NotBefore p (trials ++ [⟨now, ok⟩]) (now + p.delay trials.length) := by
  intro k a ha hlast
  rw [List.length_append, List.length_singleton] at hlast
  obtain rfl : k = trials.length := by omega
  rw [List.getElem?_concat_length] at ha
  obtain rfl := Option.some.inj ha
  exact le_rfl

/-- **A turn keeps to the policy.** -/
theorem Kept.turn (h : p.Kept trials job) (now : T) (ok : Bool) :
    p.Kept (trials ++ made now ok job) (p.turn now ok job) := by
  obtain ⟨hbounded, hspaced, hstands⟩ := h
  cases hstands with
  | succeeded hok =>
    rw [show made now ok .succeeded = [] from rfl, List.append_nil]
    exact ⟨hbounded, hspaced, .succeeded hok⟩
  | abandoned hfailed hlast =>
    rw [show made now ok .abandoned = [] from rfl, List.append_nil]
    exact ⟨hbounded, hspaced, .abandoned hfailed hlast⟩
  | @waiting due hfailed hmore hdue =>
    unfold made RetryPolicy.turn
    dsimp only
    by_cases hearly : now < due
    · rw [if_pos hearly, if_pos hearly, List.append_nil]
      exact ⟨hbounded, hspaced, .waiting hfailed hmore hdue⟩
    · rw [if_neg hearly, if_neg hearly]
      have hlength : (trials ++ [(⟨now, ok⟩ : Trial T)]).length = trials.length + 1 :=
        List.length_append
      have hspaced' : Spaced p (trials ++ [⟨now, ok⟩]) := hspaced.snoc hdue (not_lt.mp hearly)
      refine ⟨by omega, hspaced', ?_⟩
      cases ok with
      | true => exact .succeeded ⟨_, List.mem_append_right _ (List.mem_singleton_self _), rfl⟩
      | false =>
        have hfailed' : ∀ trial ∈ trials ++ [(⟨now, false⟩ : Trial T)], trial.ok = false :=
          List.forall_mem_append.mpr ⟨hfailed, List.forall_mem_singleton.mpr rfl⟩
        rw [if_neg Bool.false_ne_true]
        by_cases hlimit : p.limit ≤ trials.length + 1
        · rw [if_pos hlimit]
          exact .abandoned hfailed' (by omega)
        · rw [if_neg hlimit, ← hlength]
          exact .waiting hfailed' (by omega) notBefore_snoc

/-! ## What the attempts say -/

theorem Kept.eq_succeeded (h : p.Kept trials job) (hok : ∃ trial ∈ trials, trial.ok = true) :
    job = .succeeded := by
  have hnot : ¬ ∀ trial ∈ trials, trial.ok = false := by
    intro hall
    obtain ⟨trial, hmem, htrue⟩ := hok
    rw [hall trial hmem] at htrue
    cases htrue
  cases h.stands with
  | waiting hfailed _ _ => exact absurd hfailed hnot
  | succeeded _ => rfl
  | abandoned hfailed _ => exact absurd hfailed hnot

/-- A job whose attempts have all failed is abandoned with the last that is allowed, and waits
before. -/
theorem Kept.eq_of_failed (h : p.Kept trials job) (hall : ∀ trial ∈ trials, trial.ok = false) :
    (trials.length = p.limit ∧ job = .abandoned) ∨
      (trials.length < p.limit ∧ ∃ due, job = .waiting trials.length due) := by
  cases h.stands with
  | @waiting due _ hmore _ => exact .inr ⟨hmore, due, rfl⟩
  | succeeded hok =>
    obtain ⟨trial, hmem, htrue⟩ := hok
    rw [hall trial hmem] at htrue
    cases htrue
  | abandoned _ hlast => exact .inl ⟨hlast, rfl⟩

end RetryPolicy

end Lib
