import Mathlib.Data.Nat.Basic
import Mathlib.Tactic.SplitIfs

/-!
# Failures that are counted

A computation on a state may cover a failure up, as long as it counts it. A family of such computations,
one for every environment, is `Honest` about one of them, the good one, when a run that counts nothing
is the run in the good environment. The rules follow the way a program is built, so that a program that
counts whatever it covers up is honest without a look at its cases (`Honest.bind`, `Honest.orFail`), and
any sequence of honest programs is (`steps_silent`). A program that is `Quiet` in the good environment
counts nothing else. `erase` forgets the count.
-/

namespace Lib

/-- What a computation returns, the state after it, and how many failures it has counted. -/
def Counted (σ α : Type) := σ → α × σ × ℕ

namespace Counted

variable {σ α β ε κ : Type} {good : ε} {m m' : ε → Counted σ α} {c : Counted σ α}

instance : Monad (Counted σ) where
  pure a := fun s => (a, s, 0)
  bind c f := fun s => ((f (c s).1 (c s).2.1).1, (f (c s).1 (c s).2.1).2.1,
    (c s).2.2 + (f (c s).1 (c s).2.1).2.2)

/-- A failure is counted, and this goes on in its place. -/
def fail (a : α) : Counted σ α := fun s => (a, s, 1)

def reads (f : σ → α) : Counted σ α := fun s => (f s, s, 0)

def writes (s : σ) (a : α) : Counted σ α := fun _ => (a, s, 0)

/-- How often a failure was counted. -/
def count (c : Counted σ α) (s : σ) : ℕ := (c s).2.2

/-- The computation without its count. -/
def erase (c : Counted σ α) (s : σ) : α × σ := ((c s).1, (c s).2.1)

@[simp] theorem pure_apply (a : α) (s : σ) : (pure a : Counted σ α) s = (a, s, 0) := rfl

theorem bind_apply (c : Counted σ α) (f : α → Counted σ β) (s : σ) :
    (c >>= f) s = ((f (c s).1 (c s).2.1).1, (f (c s).1 (c s).2.1).2.1,
      (c s).2.2 + (f (c s).1 (c s).2.1).2.2) := rfl

@[simp] theorem erase_pure (a : α) (s : σ) : (pure a : Counted σ α).erase s = (a, s) := rfl

@[simp] theorem erase_bind (c : Counted σ α) (f : α → Counted σ β) (s : σ) :
    (c >>= f).erase s = (f (c.erase s).1).erase (c.erase s).2 := rfl

@[simp] theorem erase_map (g : α → β) (c : Counted σ α) (s : σ) :
    (g <$> c).erase s = (g (c.erase s).1, (c.erase s).2) := rfl

@[simp] theorem erase_fail (a : α) (s : σ) : (fail a : Counted σ α).erase s = (a, s) := rfl

@[simp] theorem erase_reads (f : σ → α) (s : σ) : (reads f).erase s = (f s, s) := rfl

@[simp] theorem erase_writes (s s' : σ) (a : α) : (writes s a).erase s' = (a, s) := rfl

@[simp] theorem count_pure (a : α) (s : σ) : (pure a : Counted σ α).count s = 0 := rfl

@[simp] theorem count_bind (c : Counted σ α) (f : α → Counted σ β) (s : σ) :
    (c >>= f).count s = c.count s + (f (c.erase s).1).count (c.erase s).2 := rfl

@[simp] theorem count_map (g : α → β) (c : Counted σ α) (s : σ) : (g <$> c).count s = c.count s := rfl

@[simp] theorem count_fail (a : α) (s : σ) : (fail a : Counted σ α).count s = 1 := rfl

@[simp] theorem count_reads (f : σ → α) (s : σ) : (reads f).count s = 0 := rfl

@[simp] theorem count_writes (s s' : σ) (a : α) : (writes s a).count s' = 0 := rfl

/-- A run that counts nothing is the run in the good environment. -/
def Honest (m : ε → Counted σ α) (good : ε) : Prop :=
  ∀ e s, (m e).count s = 0 → m e s = m good s

/-- What does not look at its environment covers nothing up. -/
theorem Honest.const (c : Counted σ α) (good : ε) : Honest (fun _ => c) good := fun _ _ _ => rfl

/-- One program after the other. -/
theorem Honest.bind {f : ε → α → Counted σ β} (h : Honest m good)
    (hf : ∀ a, Honest (fun e => f e a) good) : Honest (fun e => m e >>= f e) good := by
  intro e s hcount
  obtain ⟨hfirst, hsecond⟩ := Nat.add_eq_zero_iff.mp hcount
  have hm : m e s = m good s := h e s hfirst
  have hnext : f e (m e s).1 (m e s).2.1 = f good (m e s).1 (m e s).2.1 := hf _ e _ hsecond
  show (m e >>= f e) s = (m good >>= f good) s
  rw [bind_apply, bind_apply, hnext, hm]

theorem Honest.map (g : α → β) (h : Honest m good) : Honest (fun e => g <$> m e) good :=
  h.bind fun a => .const (pure (g a)) good

/-- A choice that does not depend on the environment. -/
theorem Honest.ite {p : Prop} [Decidable p] (h : Honest m good) (h' : Honest m' good) :
    Honest (fun e => if p then m e else m' e) good := by
  split_ifs
  · exact h
  · exact h'

/-- Where an access fails, the failure is counted. -/
theorem Honest.orFail (ok : ε → Bool) (hgood : ok good = true) (h : Honest m good)
    (a : α) : Honest (fun e => if ok e then m e else fail a) good := by
  intro e s hcount
  dsimp only at hcount ⊢
  split_ifs at hcount ⊢ with hok
  · exact h e s hcount
  · cases hcount

/-- It counts nothing. -/
def Quiet (c : Counted σ α) : Prop := ∀ s, c.count s = 0

theorem Quiet.pure (a : α) : Quiet (Pure.pure a : Counted σ α) := fun _ => rfl

theorem Quiet.bind {f : α → Counted σ β} (h : Quiet c) (hf : ∀ a, Quiet (f a)) : Quiet (c >>= f) := by
  intro s
  rw [count_bind, h, hf]

theorem Quiet.map (g : α → β) (h : Quiet c) : Quiet (g <$> c) := h

theorem Quiet.ite {p : Prop} [Decidable p] {c' : Counted σ α} (h : Quiet c) (h' : Quiet c') :
    Quiet (if p then c else c') := by
  split_ifs
  · exact h
  · exact h'

/-- Programs in a row, each in an environment of its own. -/
def steps (m : κ → ε → Counted σ α) : List (κ × ε) → Counted σ (List α)
  | [] => pure []
  | (k, e) :: rest => do
    let a ← m k e
    let as ← steps m rest
    pure (a :: as)

/-- **Nothing is covered up in silence.** A row of honest programs that counts nothing is the row in the
good environment. -/
theorem steps_silent {m : κ → ε → Counted σ α} (h : ∀ k, Honest (m k) good) (l : List (κ × ε)) (s : σ)
    (hcount : (steps m l).count s = 0) :
    steps m l s = steps m (l.map fun x => (x.1, good)) s := by
  induction l generalizing s with
  | nil => rfl
  | cons x rest ih =>
    obtain ⟨k, e⟩ := x
    obtain ⟨hfirst, hsecond⟩ := Nat.add_eq_zero_iff.mp hcount
    have hrest : (steps m rest).count (m k e s).2.1 = 0 := (Nat.add_eq_zero_iff.mp hsecond).1
    rw [List.map_cons, steps, steps, bind_apply, bind_apply, bind_apply, bind_apply, ih _ hrest,
      h k e s hfirst]

end Counted

end Lib
