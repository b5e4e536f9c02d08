import HermesMesh.Processor
import Mathlib.Data.List.TakeWhile

/-!
# What the processor serves

Every message is given a task of its own, one after the other and in the order in which they came
(`run_kept`), whatever becomes of the tasks. As long as the loop itself is not cancelled it ends with the
sentinel only, and once all is at rest it has served what came before the sentinel (`rest_served`).

A cancellation of the loop is another matter. While a task runs it is handed on to that task, and the
loop goes on with the next message (`cancel_ends_iff`).
-/

namespace HermesMesh.Processor

open Lib

variable {α : Type} {s t u v : State α} {e : Event α} {es fs : List (Event α)}

/-! ## Nothing is lost or served twice -/

/-- The messages that were begun and those that wait are what arrived, in this order; one message at
most is not yet served; and the inbox counts right. -/
structure Kept (s : State α) : Prop where
  order : s.begun.map some ++ (s.loop.taken ++ s.queue) = s.arrived
  served : s.served.map Prod.fst ++ s.loop.current = s.begun
  count : s.unfinished = s.queue.length + s.loop.current.length
  sound : s.loop ≠ .ended .failed

theorem Kept.put (h : Kept s) (item : Option α) : Kept (s.put item) where
  order := by
    show s.begun.map some ++ (s.loop.taken ++ (s.queue ++ [item])) = s.arrived ++ [item]
    rw [← h.order, List.append_assoc, List.append_assoc]
  served := h.served
  count := by
    show s.unfinished + 1 = (s.queue ++ [item]).length + s.loop.current.length
    rw [h.count, List.length_append, List.length_singleton]
    omega
  sound := h.sound

theorem Kept.advances {taken : List (Option α)} {done : List (α × Outcome)} (h : Kept s)
    (ha : Advances s t taken done) : Kept t where
  order := by
    rw [ha.begun, ha.arrived, List.map_append, List.append_assoc, ← List.append_assoc _ t.loop.taken,
      ha.sentinel, List.append_assoc, ← ha.queue, h.order]
  served := by
    rw [ha.served, ha.begun, List.map_append, List.append_assoc, ha.current, ← List.append_assoc,
      h.served]
  count := by
    have hqueue := congrArg List.length ha.queue
    have hcurrent := congrArg List.length ha.current
    rw [List.length_append] at hqueue hcurrent
    rw [List.length_append, List.length_map] at hcurrent
    have hcount := ha.count
    have hlength := List.length_eq_reduceOption_length_add_filter_none (l := taken)
    rw [← List.countP_eq_length_filter] at hlength
    rw [h.count] at hcount
    omega
  sound := ha.sound

/-- There is as much left to count as waits and is served. -/
theorem Kept.room (h : Kept s) : s.queue.length + s.loop.current.length ≤ s.unfinished := h.count.ge

theorem step_kept (h : Kept s) (hstep : step s e = some t) : Kept t := by
  by_cases he : e.puts = true
  · cases e with
    | put message =>
      unfold step at hstep
      dsimp only at hstep
      split_ifs at hstep
      obtain rfl := Option.some.inj hstep
      exact h.put _
    | stop =>
      obtain rfl := Option.some.inj hstep
      split_ifs
      · exact h
      · exact h.put _
    | _ => cases he
  · obtain ⟨taken, done, ha⟩ := step_advances h.room h.sound (Bool.not_eq_true _ ▸ he) hstep
    exact h.advances ha

theorem fresh_kept : Kept ({} : State α) := ⟨rfl, rfl, rfl, nofun⟩

/-- In every run, however the tasks end and whatever is cancelled. -/
theorem run_kept (h : Run step Free {} es t) : Kept t :=
  h.invariant (fun _ _ _ hk _ hstep => step_kept hk hstep) fresh_kept

/-! ## As long as the loop is not cancelled -/

def Event.cancelsLoop : Event α → Bool
  | cancelLoop => true
  | _ => false

/-- No cancellation of the loop is on its way, and none has ended it. -/
def Loop.Uncancelled : Loop α → Prop
  | getting asked => asked = false
  | serving _ task => task.mustCancel = false
  | ended how => how = .sentinel

theorem next_uncancelled (h : s.queue.length ≤ s.unfinished) : s.next.loop.Uncancelled := by
  unfold State.next
  split
  · rfl
  · rename_i rest hqueue
    rw [hqueue, List.length_cons] at h
    rw [taskDone_eq (by show s.unfinished ≠ 0; omega)]
    rfl
  · rfl

theorem onTurn_uncancelled {f : Turn → Option Turn} (h : s.loop.Uncancelled)
    (hstep : s.onTurn f = some t) : t.loop.Uncancelled := by
  obtain ⟨message, task, turn, hloop, -, rfl⟩ := onTurn_some hstep
  rw [hloop] at h
  exact h

theorem run_step_uncancelled (hroom : s.queue.length + s.loop.current.length ≤ s.unfinished)
    (h : s.loop.Uncancelled) (hrun : s.run = some t) : t.loop.Uncancelled := by
  obtain ⟨hloop, -⟩ | ⟨hloop, -, rfl⟩ | ⟨message, task, outcome, ended, hloop, hresumes, hended, hways⟩ :=
    run_some hrun
  · rw [hloop] at h
    cases h
  · exact next_uncancelled (by omega)
  · rw [hloop] at h
    obtain ⟨rfl, hne, -⟩ | ⟨-, rfl⟩ := hways
    · rw [Await.resumes_unasked h] at hresumes
      exact absurd (Option.some.inj (hended.symm.trans hresumes)) hne
    · rw [past_task hroom hloop]
      exact next_uncancelled (room_serving hroom hloop).2

theorem step_uncancelled (hroom : s.queue.length + s.loop.current.length ≤ s.unfinished)
    (h : s.loop.Uncancelled) (he : e.cancelsLoop = false)
    (hstep : step s e = some t) : t.loop.Uncancelled := by
  cases e with
  | put message =>
    unfold step at hstep
    dsimp only at hstep
    split_ifs at hstep
    obtain rfl := Option.some.inj hstep
    exact h
  | stop =>
    obtain rfl := Option.some.inj hstep
    split_ifs <;> exact h
  | cancelLoop => cases he
  | cancelTurn => exact onTurn_uncancelled (f := fun turn => some turn.cancel) h hstep
  | cancelSession => exact onTurn_uncancelled (f := Turn.cancelSession) h hstep
  | turn e => exact onTurn_uncancelled (f := Turn.step e) h hstep
  | run => exact run_step_uncancelled hroom h hstep

/-- The loop cannot go on, and no task of a message is unfinished. -/
structure AtRest (s : State α) : Prop where
  loop : s.run = none
  turn : ∀ message task, s.loop = .serving message task → task.on.outcome ≠ none

/-- A loop that serves a finished task can go on. -/
theorem AtRest.not_serving (h : AtRest s) {message : α} {task : Await Turn} :
    s.loop ≠ .serving message task := by
  intro hloop
  have hrun := h.loop
  obtain ⟨ended, hended⟩ := Option.ne_none_iff_exists'.mp (h.turn message task hloop)
  obtain ⟨outcome, houtcome⟩ := Option.ne_none_iff_exists'.mp
    (mt (Await.resumes_eq_none (w := task)).mp (h.turn message task hloop))
  unfold State.run at hrun
  rw [hloop] at hrun
  dsimp only at hrun
  rw [houtcome, hended] at hrun
  dsimp only at hrun
  split_ifs at hrun

/-- All that arrived before the first sentinel is served, and what came after it waits. -/
structure AllServed (s : State α) : Prop where
  served : s.served.map (fun x => some x.1) = s.arrived.takeWhile Option.isSome
  queue : s.queue = (s.arrived.dropWhile Option.isSome).tail
  ended : (∃ how, s.loop = .ended how) ↔ none ∈ s.arrived

theorem Kept.allServed (hk : Kept s) (hu : s.loop.Uncancelled) (h : AtRest s) : AllServed s := by
  have hsome : ∀ x ∈ s.begun.map some, Option.isSome x = true := by simp
  have hserved : s.served.map (fun x => some x.1) = (s.served.map Prod.fst).map some := by
    rw [List.map_map]
    rfl
  cases hloop : s.loop with
  | getting asked =>
    rw [hloop] at hu
    obtain rfl : asked = false := hu
    have hqueue : s.queue = [] := by
      have hrun := h.loop
      unfold State.run at hrun
      rw [hloop] at hrun
      dsimp only at hrun
      split_ifs at hrun with hempty
      exact List.isEmpty_iff.mp hempty
    have horder : s.begun.map some = s.arrived := by
      have horder := hk.order
      rw [hqueue, hloop] at horder
      exact (List.append_nil _).symm.trans horder
    have hdone : s.served.map Prod.fst = s.begun := by
      have hdone := hk.served
      rw [hloop] at hdone
      exact (List.append_nil _).symm.trans hdone
    refine ⟨?_, ?_, ?_⟩
    · rw [hserved, hdone, ← horder, List.takeWhile_eq_self_iff.mpr hsome]
    · rw [hqueue, ← horder, List.dropWhile_eq_nil_iff.mpr hsome, List.tail_nil]
    · rw [hloop, ← horder]
      simp
  | serving message task => exact absurd hloop h.not_serving
  | ended how =>
    rw [hloop] at hu
    obtain rfl : how = .sentinel := hu
    have horder := hk.order
    have hdone := hk.served
    rw [hloop] at horder hdone
    have hdone : s.served.map Prod.fst = s.begun := by rw [← hdone]; exact (List.append_nil _).symm
    have hsplit : s.arrived = s.begun.map some ++ none :: s.queue := horder.symm
    refine ⟨?_, ?_, ?_⟩
    · rw [hserved, hdone, hsplit, List.takeWhile_append_of_pos hsome]
      simp
    · rw [hsplit, List.dropWhile_append_of_pos hsome]
      rfl
    · rw [hsplit]
      exact iff_of_true ⟨_, hloop⟩ (List.mem_append_right _ List.mem_cons_self)

/-- **The processor serves what it is given.** However the tasks and the sessions end, and whichever of
them are cancelled: as long as nobody cancels the loop it ends by taking a sentinel only, and at rest
it has served all that came before the first sentinel. What came after it is never taken. -/
theorem rest_served (h : Run step (fun _ e => e.cancelsLoop = false) {} es t) :
    (∀ how, t.loop = .ended how → how = .sentinel) ∧ (AtRest t → AllServed t) := by
  have hboth : Kept t ∧ t.loop.Uncancelled := by
    refine h.invariant (I := fun s => Kept s ∧ s.loop.Uncancelled) ?_ ⟨fresh_kept, rfl⟩
    exact fun s e u hs he hstep => ⟨step_kept hs.1 hstep, step_uncancelled hs.1.room hs.2 he hstep⟩
  refine ⟨fun how hloop => ?_, hboth.1.allServed hboth.2⟩
  have hu := hboth.2
  rw [hloop] at hu
  exact hu

/-- One message is cancelled, one fails, and one comes behind the sentinel. -/
def shift : List (Event ℕ) :=
  [.put 1, .put 2, .run, .turn (.begin_ false), .cancelTurn, .turn (.recovered .session), .run,
    .turn (.begin_ true), .stop, .put 3, .run]

theorem rest_served_shift : ∃ t : State ℕ, exec step {} shift = some t ∧ AtRest t ∧ AllServed t ∧
    t.served = [(1, .cancelled), (2, .raised)] ∧ t.queue = [some 3] := by
  have hshift : ∀ {t : State ℕ}, exec step {} shift = some t →
      Run step (fun _ e => e.cancelsLoop = false) {} shift t :=
    fun h => (run_of_exec h).of_forall (by decide)
  refine ⟨_, rfl, ⟨rfl, nofun⟩, ?_, rfl, rfl⟩
  exact (rest_served (hshift rfl)).2 ⟨rfl, nofun⟩

/-! ## When the loop is cancelled -/

/-- The loop waits for a task that is unfinished, or that was cancelled itself. -/
def Deaf (s : State α) : Prop :=
  ∃ message task, s.loop = .serving message task ∧
    (task.on.outcome = none ∨ task.on.outcome = some .cancelled)

/-- The loop has ended without a sentinel, and has left the inbox alone. -/
structure Stops (s t : State α) : Prop where
  ended : ∃ how, t.loop = .ended how ∧ how ≠ .sentinel
  queue : t.queue = s.queue
  begun : t.begun = s.begun

/-- The loop goes on as if it had not been cancelled: it begins the message that is next. -/
structure GoesOn (s t : State α) : Prop where
  alive : ∀ how, t.loop = .ended how → how = .sentinel
  next : ∀ message rest, s.queue = some message :: rest →
    t.loop = .serving message ⟨.created false, false⟩ ∧ t.begun = s.begun ++ [message] ∧
      t.queue = rest

/-- Neither the loop moves nor is it cancelled. -/
def Event.quiet : Event α → Bool
  | run | cancelLoop => false
  | _ => true

/-- What is kept of a cancellation that came too late to be handed on. -/
def Loop.Sane : Loop α → Prop
  | serving _ task => task.mustCancel = true → task.on.outcome ≠ none
  | _ => True

/-- The cancellation reaches the loop. -/
def Loop.Doomed : Loop α → Prop
  | getting asked => asked = true
  | serving _ task => task.mustCancel = true ∧ ∃ o, task.on = .done o ∧ o ≠ .cancelled
  | ended _ => False

/-- The cancellation does not reach the loop. -/
def Loop.Spared : Loop α → Prop
  | serving _ task => task.mustCancel = false ∨ task.on = .done .cancelled
  | _ => False

theorem outcome_some {turn : Turn} {o : Outcome} : turn.outcome = some o ↔ turn = .done o := by
  cases turn <;> simp [Turn.outcome]

/-- A finished task stays as it is. -/
def Final (f : Turn → Option Turn) : Prop := ∀ o turn, f (.done o) = some turn → turn = .done o

theorem final_cancel : Final fun turn => some turn.cancel := fun _ _ h => (Option.some.inj h).symm

theorem final_cancelSession : Final Turn.cancelSession := nofun

theorem final_step (e : TurnEvent) : Final (Turn.step e) := by
  intro o turn h
  cases e <;> cases h

/-- What holds of the loop as long as it does not move, and every step of the task keeps. -/
theorem quiet_step {P : Loop α → Prop} (hturn : ∀ f message task turn, Final f → f task.on = some turn →
      P (.serving message task) → P (.serving message { task with on := turn }))
    (h : P s.loop) (he : e.quiet = true) (hstep : step s e = some t) : P t.loop := by
  have hon : ∀ f, Final f → s.onTurn f = some t → P t.loop := by
    intro f hf hstep
    obtain ⟨message, task, turn, hloop, hturned, rfl⟩ := onTurn_some hstep
    rw [hloop] at h
    exact hturn f message task turn hf hturned h
  cases e with
  | put message =>
    unfold step at hstep
    dsimp only at hstep
    split_ifs at hstep
    obtain rfl := Option.some.inj hstep
    exact h
  | stop =>
    obtain rfl := Option.some.inj hstep
    split_ifs <;> exact h
  | cancelLoop => cases he
  | cancelTurn => exact hon _ final_cancel hstep
  | cancelSession => exact hon _ final_cancelSession hstep
  | turn e => exact hon _ (final_step e) hstep
  | run => cases he

theorem doomed_step (h : s.loop.Doomed) (he : e.quiet = true) (hstep : step s e = some t) :
    t.loop.Doomed := by
  refine quiet_step (P := Loop.Doomed) ?_ h he hstep
  rintro f message task turn hf hturn ⟨hmust, o, ho, hne⟩
  rw [ho] at hturn
  exact ⟨hmust, o, hf o turn hturn, hne⟩

theorem spared_step (h : s.loop.Spared) (he : e.quiet = true) (hstep : step s e = some t) :
    t.loop.Spared := by
  refine quiet_step (P := Loop.Spared) ?_ h he hstep
  rintro f message task turn hf hturn (hmust | hdone)
  · exact .inl hmust
  · rw [hdone] at hturn
    exact .inr (hf _ turn hturn)

theorem next_sane (h : s.queue.length ≤ s.unfinished) : s.next.loop.Sane := by
  have hu := next_uncancelled h
  cases hloop : s.next.loop with
  | getting asked => trivial
  | serving message task =>
    rw [hloop] at hu
    intro hmust
    rw [show task.mustCancel = false from hu] at hmust
    cases hmust
  | ended how => trivial

theorem step_sane (hk : Kept s) (h : s.loop.Sane) (hstep : step s e = some t) : t.loop.Sane := by
  by_cases hquiet : e.quiet = true
  · refine quiet_step (P := Loop.Sane) ?_ h hquiet hstep
    intro f message task turn hf hturn hsane hmust
    obtain ⟨o, ho⟩ := Option.ne_none_iff_exists'.mp (hsane hmust)
    rw [outcome_some.mp ho] at hturn
    rw [hf o turn hturn]
    nofun
  · cases e with
    | cancelLoop =>
      obtain rfl := Option.some.inj hstep
      cases hloop : s.loop with
      | getting asked => trivial
      | serving message task =>
        rw [hloop] at h
        intro hmust
        cases ho : task.on.outcome with
        | none =>
          rw [Await.cancel_pending (w := task) ho] at hmust
          exact absurd ho (h hmust)
        | some o =>
          rw [Await.cancel_done (w := task) ho]
          exact ho ▸ nofun
      | ended how => trivial
    | run =>
      obtain ⟨-, rfl⟩ | ⟨hloop, -, rfl⟩ | ⟨message, task, outcome, ended, hloop, -, -, hways⟩ :=
        run_some hstep
      · trivial
      · exact next_sane (le_trans (Nat.le_add_right _ _) hk.room)
      · obtain ⟨-, -, rfl⟩ | ⟨-, rfl⟩ := hways
        · rw [past_task hk.room hloop]
          trivial
        · rw [past_task hk.room hloop]
          exact next_sane (room_serving hk.room hloop).2
    | _ => exact absurd rfl hquiet

/-- A cancellation that reaches the loop ends it as it goes on. -/
theorem doomed_run (hk : Kept s) (h : s.loop.Doomed) (hrun : s.run = some t) : Stops s t := by
  obtain ⟨-, rfl⟩ | ⟨hloop, -, -⟩ | ⟨message, task, outcome, ended, hloop, hresumes, hended, hways⟩ :=
    run_some hrun
  · exact ⟨⟨_, rfl, nofun⟩, rfl, rfl⟩
  · rw [hloop] at h
    cases h
  · rw [hloop] at h
    obtain ⟨hmust, o, ho, hne⟩ := h
    obtain rfl : ended = o := by
      rw [ho] at hended
      exact (Option.some.inj hended).symm
    rw [Await.resumes_asked hmust hended] at hresumes
    obtain rfl := Option.some.inj hresumes
    obtain ⟨-, -, rfl⟩ | ⟨hself, -⟩ := hways
    · rw [past_task hk.room hloop]
      exact ⟨⟨_, rfl, nofun⟩, rfl, rfl⟩
    · exact absurd (hself rfl) hne

theorem next_goesOn (h : s.queue.length ≤ s.unfinished) : GoesOn s s.next := by
  have hu := next_uncancelled h
  refine ⟨fun how hloop => ?_, fun message rest hqueue => ?_⟩
  · rw [hloop] at hu
    exact hu
  · unfold State.next
    rw [hqueue]
    exact ⟨rfl, rfl, rfl⟩

/-- A cancellation that does not reach the loop leaves no trace. -/
theorem spared_run (hk : Kept s) (h : s.loop.Spared) (hrun : s.run = some t) : GoesOn s t := by
  obtain ⟨hloop, -⟩ | ⟨hloop, -, -⟩ | ⟨message, task, outcome, ended, hloop, hresumes, hended, hways⟩ :=
    run_some hrun
  · rw [hloop] at h
    cases h
  · rw [hloop] at h
    cases h
  · rw [hloop] at h
    have hself : outcome = .cancelled → ended = .cancelled := by
      rintro rfl
      obtain hmust | hdone := h
      · rw [Await.resumes_unasked hmust] at hresumes
        exact Option.some.inj (hended.symm.trans hresumes)
      · rw [hdone] at hended
        exact (Option.some.inj hended).symm
    obtain ⟨rfl, hne, -⟩ | ⟨-, rfl⟩ := hways
    · exact absurd (hself rfl) hne
    · rw [past_task hk.room hloop]
      obtain ⟨halive, hnext⟩ := next_goesOn (s := { s with
        served := s.served ++ [(message, ended)], unfinished := s.unfinished - 1 })
        (room_serving hk.room hloop).2
      exact ⟨halive, hnext⟩

theorem cancelled_doomed (halive : ∀ how, s.loop ≠ .ended how) (h : ¬ Deaf s) :
    s.loop.cancel.Doomed := by
  cases hloop : s.loop with
  | getting asked => rfl
  | serving message task =>
    obtain ⟨o, ho⟩ : ∃ o, task.on.outcome = some o := by
      rw [← Option.ne_none_iff_exists']
      exact fun hnone => h ⟨message, task, hloop, .inl hnone⟩
    show task.cancel.mustCancel = true ∧ _
    rw [Await.cancel_done (w := task) ho]
    refine ⟨rfl, o, outcome_some.mp ho, fun hcancelled => h ⟨message, task, hloop, .inr ?_⟩⟩
    rw [ho, hcancelled]
  | ended how => exact absurd hloop (halive how)

theorem cancelled_spared (hsane : s.loop.Sane) (h : Deaf s) : s.loop.cancel.Spared := by
  obtain ⟨message, task, hloop, hon⟩ := h
  rw [hloop] at hsane ⊢
  obtain hnone | hcancelled := hon
  · refine .inl ?_
    rw [Await.cancel_pending (w := task) hnone]
    exact Bool.eq_false_iff.mpr fun hmust => hsane hmust hnone
  · refine .inr ?_
    rw [Await.cancel_done (w := task) hcancelled]
    exact outcome_some.mp hcancelled

/-- **A cancelled processor goes on while a message is being processed.** Where the loop is cancelled,
and not again before it moves, it ends with its next move and takes nothing more, unless it was waiting
for an unfinished task or for one that was cancelled itself: then it begins the next message. -/
theorem cancel_reaches_iff (h : Run step Free {} es s) (halive : ∀ how, s.loop ≠ .ended how)
    (hcancel : step s .cancelLoop = some t) (hquiet : Run step (fun _ e => e.quiet = true) t fs u)
    (hrun : step u .run = some v) :
    (¬ Deaf s → Stops u v) ∧ (Deaf s → GoesOn u v) := by
  obtain ⟨hk, hsane⟩ : Kept s ∧ s.loop.Sane := by
    refine h.invariant (I := fun s => Kept s ∧ s.loop.Sane) ?_ ⟨fresh_kept, trivial⟩
    exact fun s e u hs _ hstep => ⟨step_kept hs.1 hstep, step_sane hs.1 hs.2 hstep⟩
  have hkt : Kept t := step_kept hk hcancel
  have hku : Kept u := hquiet.invariant (fun _ _ _ hk _ hstep => step_kept hk hstep) hkt
  obtain rfl := Option.some.inj hcancel
  refine ⟨fun hdeaf => ?_, fun hdeaf => ?_⟩
  · exact doomed_run hku (hquiet.invariant (fun _ _ _ hd he hstep => doomed_step hd he hstep)
      (cancelled_doomed halive hdeaf)) hrun
  · exact spared_run hku (hquiet.invariant (fun _ _ _ hd he hstep => spared_step hd he hstep)
      (cancelled_spared hsane hdeaf)) hrun

/-- The first message of two gets into its session. -/
def intoSession : List (Event ℕ) :=
  [.put 1, .put 2, .run, .turn (.begin_ false), .turn (.recovered .session)]

def midway : State ℕ where
  queue := [some 2]
  unfinished := 2
  loop := .serving 1 ⟨.inSession ⟨{}, false⟩, false⟩
  arrived := [some 1, some 2]
  begun := [1]

/-- What the gateway makes of a cancelled session. -/
def outOfSession : List (Event ℕ) := [.turn (.sessionEnds .cancelled), .turn .wake]

/-- The loop is cancelled there, and begins the second message. -/
theorem cancel_reaches_iff_midway : ∃ t u v : State ℕ, exec step {} intoSession = some midway ∧
    step midway .cancelLoop = some t ∧ exec step t outOfSession = some u ∧ step u .run = some v ∧
    GoesOn u v ∧ v.begun = [1, 2] := by
  have hinto : Run step Free {} intoSession midway := run_of_exec rfl
  have hquiet : ∀ e ∈ outOfSession, e.quiet = true := by decide
  have hout : ∀ {t u : State ℕ}, exec step t outOfSession = some u →
      Run step (fun _ e => e.quiet = true) t outOfSession u :=
    fun h => (run_of_exec h).of_forall hquiet
  refine ⟨_, _, _, rfl, rfl, rfl, rfl, ?_, rfl⟩
  exact (cancel_reaches_iff hinto nofun rfl (hout rfl) rfl).2 ⟨1, _, rfl, .inl rfl⟩

end HermesMesh.Processor
