import Mathlib.Data.List.Basic

/-!
# Guarded runs of a transition system

A system is a partial step function `step : σ → ε → Option σ`: what an event does to a state, and
`none` where the event cannot happen. `Run step G s es t` says that the events `es` lead from `s`
to `t` and that the guard `G` held at the source of every one of them; the guard is how a result
about "every run whose steps all meet a condition" is stated. `exec` runs a list of events.

The rules: an invariant of the guarded steps holds at the end of every run (`Run.invariant`), a run
splits at any of its events (`Run.split`), and a state that some event establishes and that every
step keeps is there for the rest of the run (`Run.after`). A run carries along any record that is
kept beside it (`Run.ghost`). Where a step sets one entry of a table, `update_eq_some` says what the
table holds after it.
-/

namespace Lib

variable {σ ε : Type*} {step : σ → ε → Option σ} {G G' : σ → ε → Prop}

/-- The events `es` lead from `s` to `t`, each of them taken where the guard holds. -/
inductive Run (step : σ → ε → Option σ) (G : σ → ε → Prop) : σ → List ε → σ → Prop
  | nil (s : σ) : Run step G s [] s
  | cons {s t u : σ} {e : ε} {es : List ε} :
      G s e → step s e = some t → Run step G t es u → Run step G s (e :: es) u

/-- The guard that allows every step. -/
def Free : σ → ε → Prop := fun _ _ => True

/-- The state after a list of events. -/
def exec (step : σ → ε → Option σ) : σ → List ε → Option σ
  | s, [] => some s
  | s, e :: es => (step s e).bind (exec step · es)

@[simp] theorem exec_cons (s : σ) (e : ε) (es : List ε) :
    exec step s (e :: es) = (step s e).bind (exec step · es) := rfl

/-- A list of events that executes is a run without a guard. -/
theorem run_of_exec {s t : σ} {es : List ε} (h : exec step s es = some t) :
    Run step Free s es t := by
  induction es generalizing s with
  | nil =>
    obtain rfl : s = t := Option.some.inj h
    exact .nil s
  | cons e es ih =>
    rw [exec_cons, Option.bind_eq_some_iff] at h
    obtain ⟨u, hu, hrest⟩ := h
    exact .cons trivial hu (ih hrest)

/-- The steps that a guard allows. -/
def checked (guard : σ → ε → Bool) (step : σ → ε → Option σ) (s : σ) (e : ε) : Option σ :=
  if guard s e then step s e else none

/-- A list of events that executes with its guard checked is a run under the guard. -/
theorem run_of_checked {guard : σ → ε → Bool} {s t : σ} {es : List ε}
    (h : exec (checked guard step) s es = some t) : Run step (fun s e => guard s e = true) s es t := by
  induction es generalizing s with
  | nil =>
    obtain rfl : s = t := Option.some.inj h
    exact .nil s
  | cons e es ih =>
    rw [exec_cons, Option.bind_eq_some_iff] at h
    obtain ⟨u, hu, hrest⟩ := h
    unfold checked at hu
    split_ifs at hu with hg
    exact .cons hg hu (ih hrest)

namespace Run

/-- A run executes to its last state. -/
theorem exec_eq {s t : σ} {es : List ε} (h : Run step G s es t) : exec step s es = some t := by
  induction h with
  | nil s => rfl
  | cons _ hs _ ih => rw [exec_cons, hs, Option.bind_some, ih]

/-- A run under a guard is a run under every weaker one. -/
theorem mono (hG : ∀ s e, G s e → G' s e) {s t : σ} {es : List ε} (h : Run step G s es t) :
    Run step G' s es t := by
  induction h with
  | nil s => exact .nil s
  | cons hg hs _ ih => exact .cons (hG _ _ hg) hs ih

/-- Where an invariant of the guarded steps gives the guard `G'`, a run under `G` is one under `G'`. -/
theorem refine {I : σ → Prop} (hstep : ∀ s e t, I s → G s e → step s e = some t → I t)
    (hG : ∀ s e t, I s → G s e → step s e = some t → G' s e) {s t : σ} {es : List ε}
    (h : Run step G s es t) (h0 : I s) : Run step G' s es t := by
  induction h with
  | nil s => exact .nil s
  | cons hg hs _ ih => exact .cons (hG _ _ _ h0 hg hs) hs (ih (hstep _ _ _ h0 hg hs))

/-- A guard on the events alone. -/
theorem of_forall {P : ε → Prop} {s t : σ} {es : List ε} (h : Run step G s es t)
    (hP : ∀ e ∈ es, P e) : Run step (fun _ e => P e) s es t := by
  induction h with
  | nil s => exact .nil s
  | cons _ hs _ ih =>
    rw [List.forall_mem_cons] at hP
    exact .cons hP.1 hs (ih hP.2)

/-- Runs follow each other. -/
theorem append {s t u : σ} {es fs : List ε} (h₁ : Run step G s es t) (h₂ : Run step G t fs u) :
    Run step G s (es ++ fs) u := by
  induction h₁ with
  | nil s => exact h₂
  | cons hg hs _ ih => exact .cons hg hs (ih h₂)

/-- A run splits between any two of its events. -/
theorem of_append {s u : σ} {es fs : List ε} (h : Run step G s (es ++ fs) u) :
    ∃ t, Run step G s es t ∧ Run step G t fs u := by
  induction es generalizing s with
  | nil => exact ⟨s, .nil s, h⟩
  | cons e es ih =>
    cases h with
    | cons hg hs hrest =>
      obtain ⟨t, h1, h2⟩ := ih hrest
      exact ⟨t, .cons hg hs h1, h2⟩

/-- A run splits at any of its events. -/
theorem split {s u : σ} {es fs : List ε} {e : ε} (h : Run step G s (es ++ e :: fs) u) :
    ∃ t t', Run step G s es t ∧ G t e ∧ step t e = some t' ∧ Run step G t' fs u := by
  obtain ⟨t, h1, h2⟩ := h.of_append
  cases h2 with
  | cons hg hs h3 => exact ⟨t, _, h1, hg, hs, h3⟩

/-- A property that every guarded step keeps holds at the end of a run that starts with it. -/
theorem invariant {I : σ → Prop} (hstep : ∀ s e t, I s → G s e → step s e = some t → I t)
    {s t : σ} {es : List ε} (h : Run step G s es t) (h0 : I s) : I t := by
  induction h with
  | nil s => exact h0
  | cons hg hs _ ih => exact ih (hstep _ _ _ h0 hg hs)

/-- Where every guarded step keeps `I` or reaches `Q`, a run keeps `I` to its end or reaches `Q` on
its way. -/
theorem reaches {I Q : σ → Prop} (hstep : ∀ s e t, I s → G s e → step s e = some t → I t ∨ Q t)
    {s t : σ} {es : List ε} (h : Run step G s es t) (h0 : I s) :
    I t ∨ ∃ front rest v, es = front ++ rest ∧ exec step s front = some v ∧ Q v := by
  induction h with
  | nil s => exact .inl h0
  | @cons s u t e es hg hs _ ih =>
    rcases hstep _ _ _ h0 hg hs with hnext | hreached
    · obtain hend | ⟨front, rest, v, rfl, hexec, hv⟩ := ih hnext
      · exact .inl hend
      · exact .inr ⟨e :: front, rest, v, rfl, by rw [exec_cons, hs, Option.bind_some, hexec], hv⟩
    · exact .inr ⟨[e], es, u, rfl, by rw [exec_cons, hs]; rfl, hreached⟩

/-- A relation between a state and the events that led to it: the empty history starts it, and every
guarded step keeps it as its event joins the history. -/
theorem history {I : List ε → σ → Prop}
    (hstep : ∀ es s e t, I es s → G s e → step s e = some t → I (es ++ [e]) t) {s t : σ}
    {es : List ε} (h : Run step G s es t) (h0 : I [] s) : I es t := by
  have key : ∀ front, I front s → I (front ++ es) t := by
    clear h0
    induction h with
    | nil s =>
      intro front hfront
      rwa [List.append_nil]
    | @cons s u t e es hg hs _ ih =>
      intro front hfront
      have hnext := ih (front ++ [e]) (hstep front s e u hfront hg hs)
      rwa [List.append_assoc] at hnext
  exact key [] h0

/-- What an event establishes under the invariant `I`, and every later step keeps, holds at the end
of the run. -/
theorem after {I P : σ → Prop} (hstep : ∀ s e t, I s → G s e → step s e = some t → I t)
    (hkeep : ∀ s e t, I s → P s → G s e → step s e = some t → P t)
    {s u : σ} {es fs : List ε} {e : ε} (h0 : I s)
    (hset : ∀ t t', I t → G t e → step t e = some t' → P t')
    (h : Run step G s (es ++ e :: fs) u) : P u := by
  obtain ⟨t, t', h1, hg, hs, h2⟩ := h.split
  have hI : I t := h1.invariant hstep h0
  have hboth : ∀ v f w, (I v ∧ P v) → G v f → step v f = some w → I w ∧ P w :=
    fun v f w hv hgv hsv => ⟨hstep v f w hv.1 hgv hsv, hkeep v f w hv.1 hv.2 hgv hsv⟩
  exact (h2.invariant hboth ⟨hstep t e t' hI hg hs, hset t t' hI hg hs⟩).2

end Run

/-- What a table holds where one entry was set. -/
theorem update_eq_some {ι α : Type*} [DecidableEq ι] {f : ι → Option α} {i j : ι} {x : Option α}
    {a : α} (h : Function.update f i x j = some a) : (j = i ∧ x = some a) ∨ (j ≠ i ∧ f j = some a) := by
  by_cases hj : j = i
  · subst hj
    rw [Function.update_self] at h
    exact .inl ⟨rfl, h⟩
  · rw [Function.update_of_ne hj] at h
    exact .inr ⟨hj, h⟩

/-- The system with a record beside its state, which the events mark and no step reads. -/
def withGhost {γ : Type*} (step : σ → ε → Option σ) (mark : σ → ε → γ → γ) (x : σ × γ) (e : ε) :
    Option (σ × γ) :=
  (step x.1 e).map (·, mark x.1 e x.2)

/-- Every run carries the record along. -/
theorem Run.ghost {γ : Type*} (mark : σ → ε → γ → γ) {s t : σ} {es : List ε}
    (h : Run step G s es t) (c : γ) :
    ∃ c', Run (withGhost step mark) (fun x e => G x.1 e) (s, c) es (t, c') := by
  induction h generalizing c with
  | nil s => exact ⟨c, .nil _⟩
  | @cons s u t e es hg hs _ ih =>
    obtain ⟨c', hrest⟩ := ih (mark s e c)
    refine ⟨c', .cons hg ?_ hrest⟩
    show (step s e).map _ = _
    rw [hs, Option.map_some]

/-- A step of the system with its record is a step of the system. -/
theorem withGhost_some {γ : Type*} {mark : σ → ε → γ → γ} {x y : σ × γ} {e : ε}
    (h : withGhost step mark x e = some y) : step x.1 e = some y.1 ∧ y.2 = mark x.1 e x.2 := by
  obtain ⟨t, ht, rfl⟩ := Option.map_eq_some_iff.mp h
  exact ⟨ht, rfl⟩

end Lib
