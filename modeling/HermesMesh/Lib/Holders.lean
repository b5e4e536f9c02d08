import Mathlib.Logic.Function.Basic

/-!
# Holders of keys

Agents `ι` that each have at most one key of `κ` in hand. `Exclusive` says that no key is in two
hands; it stays true when one agent drops its key, keeps it, or takes a key that nobody else has.
-/

namespace Lib

variable {ι κ : Type*} {hold : ι → Option κ}

/-- No key is in two hands. -/
def Exclusive (hold : ι → Option κ) : Prop :=
  ∀ p q k, hold p = some k → hold q = some k → p = q

/-- Nobody holds anything. -/
theorem Exclusive.of_none (h : ∀ p, hold p = none) : Exclusive hold := by
  intro p q k hp
  rw [h p] at hp
  cases hp

/-- One agent changes what it holds: to nothing, to what it had, or to a key that no one else has. -/
theorem Exclusive.update [DecidableEq ι] (h : Exclusive hold) {p : ι} {v : Option κ}
    (hv : ∀ k, v = some k → hold p = some k ∨ ∀ q ≠ p, hold q ≠ some k) :
    Exclusive (Function.update hold p v) := by
  have hother : ∀ q ≠ p, ∀ k, v = some k → hold q ≠ some k := by
    intro q hq k hk hqk
    rcases hv k hk with hp | hfree
    · exact hq (h q p k hqk hp)
    · exact hfree q hq hqk
  intro a b k ha hb
  by_cases hap : a = p
  · by_cases hbp : b = p
    · rw [hap, hbp]
    · rw [hap, Function.update_self] at ha
      rw [Function.update_of_ne hbp] at hb
      exact absurd hb (hother b hbp k ha)
  · rw [Function.update_of_ne hap] at ha
    by_cases hbp : b = p
    · rw [hbp, Function.update_self] at hb
      exact absurd ha (hother a hap k hb)
    · rw [Function.update_of_ne hbp] at hb
      exact h a b k ha hb

end Lib
