import HermesMesh.Intake
import HermesMesh.Lib.Tasks
import HermesMesh.Lib.Runs
import Mathlib.Data.List.ReduceOption

/-!
# The processor of the inbox

`_mesh_processor_loop` and `_process_mesh_event` of `adapter.py`, and what `disconnect` does to them.
The loop takes one message after the other out of the inbox, gives each a task of its own, and waits
for that task; the task waits for the session of the gateway. Any of the three can be cancelled at any
time. The session belongs to the gateway, and it ends as it likes.

`await` is `Lib.Await`: the loop that is cancelled while a message's task runs hands the cancellation
on to that task.
-/

namespace HermesMesh.Processor

open Lib

/-! ## The task of one message -/

/-- The task of the gateway that processes the message in its session. -/
structure Session where
  /-- It has been cancelled. -/
  asked : Bool := false
  outcome : Option Outcome := none
  deriving DecidableEq, Repr

instance : Awaitable Session := ⟨Session.outcome, fun s => { s with asked := true }⟩

/-- Where `_process_mesh_event` stands. -/
inductive Turn where
  /-- The task is there, and has not run yet. -/
  | created (asked : Bool)
  /-- At `await asyncio.to_thread(self._apply_topic_recovery, event)`. -/
  | recovering (asked : Bool)
  /-- At `await task`. -/
  | inSession (session : Await Session)
  | done (outcome : Outcome)
  deriving DecidableEq, Repr

/-- What comes out of the recovery: an exception, no session to wait for, or a session. -/
inductive Found where
  | error
  | nothing
  | session
  deriving DecidableEq, Repr

inductive TurnEvent where
  /-- It runs up to the recovery; `coerce_plaintext_gateway_command` may raise. -/
  | begin_ (raises : Bool)
  | recovered (found : Found)
  | sessionEnds (outcome : Outcome)
  /-- It goes on after its session has ended. -/
  | wake
  deriving DecidableEq, Repr

def Turn.outcome : Turn → Option Outcome
  | done outcome => some outcome
  | _ => none

/-- `task.cancel()`: what has not started ends before its first line. -/
def Turn.cancel : Turn → Turn
  | created _ => created true
  | recovering _ => recovering true
  | inSession session => inSession session.cancel
  | done outcome => done outcome

instance : Awaitable Turn := ⟨Turn.outcome, Turn.cancel⟩

/-- The session's own cancellation, `cancel_session_processing`. -/
def Turn.cancelSession : Turn → Option Turn
  | inSession session => some (inSession { session with on := Awaitable.cancel session.on })
  | _ => none

/-- One step of the task. A cancellation is let out everywhere but at `await task`. -/
def Turn.step : TurnEvent → Turn → Option Turn
  | .begin_ _, created true => some (done .cancelled)
  | .begin_ raises, created false => some (if raises then done .raised else recovering false)
  | .recovered _, recovering true => some (done .cancelled)
  | .recovered .error, recovering false => some (done .raised)
  | .recovered .nothing, recovering false => some (done .returned)
  | .recovered .session, recovering false => some (inSession ⟨{}, false⟩)
  | .sessionEnds outcome, inSession session =>
    if session.on.outcome.isSome then none
    else some (inSession { session with on := { session.on with outcome := some outcome } })
  | .wake, inSession session =>
    session.resumes.map fun outcome => if outcome = .raised then done .raised else done .returned
  | _, _ => none

/-! ## The loop -/

/-- How the loop has ended. -/
inductive Ending where
  /-- It took the `None` of `disconnect` out of the inbox. -/
  | sentinel
  /-- `break`, after a cancellation. -/
  | broke
  /-- The cancellation left `get`. -/
  | cancelled
  /-- `task_done` raised: it was called too many times. -/
  | failed
  deriving DecidableEq, Repr

/-- Where `_mesh_processor_loop` stands. -/
inductive Loop (α : Type) where
  /-- At `await self._mesh_inbox.get()`. -/
  | getting (asked : Bool)
  /-- At `await _task`. -/
  | serving (message : α) (task : Await Turn)
  | ended (how : Ending)

def Loop.cancel {α : Type} : Loop α → Loop α
  | getting _ => getting true
  | serving message task => serving message task.cancel
  | ended how => ended how

/-- The inbox, the loop and the count of unfinished items. `arrived`, `begun` and `served` only record
what was put into the inbox, which messages were given a task, and how those tasks ended. -/
structure State (α : Type) where
  queue : List (Option α) := []
  unfinished : ℕ := 0
  loop : Loop α := .getting false
  arrived : List (Option α) := []
  begun : List α := []
  served : List (α × Outcome) := []

variable {α : Type} {s t : State α}

def State.full (s : State α) : Bool := Intake.inboxSize ≤ s.queue.length

/-- `put_nowait`, where there is room. -/
def State.put (item : Option α) (s : State α) : State α :=
  { s with
    queue := s.queue ++ [item]
    unfinished := s.unfinished + 1
    arrived := s.arrived ++ [item] }

/-- `task_done`, and the loop goes on; with nothing left to count it raises. -/
def State.taskDone (s : State α) (goOn : State α → State α) : State α :=
  if s.unfinished = 0 then { s with loop := .ended .failed }
  else goOn { s with unfinished := s.unfinished - 1 }

/-- The loop from `get` up to its next wait. -/
def State.next (s : State α) : State α :=
  match s.queue with
  | [] => { s with loop := .getting false }
  | none :: rest =>
    { s with queue := rest }.taskDone fun s => { s with loop := .ended .sentinel }
  | some message :: rest =>
    { s with
      queue := rest
      loop := .serving message ⟨.created false, false⟩
      begun := s.begun ++ [message] }

/-- The loop goes on: it takes the next item, or it is past `await _task`. -/
def State.run (s : State α) : Option (State α) :=
  match s.loop with
  | .getting true => some { s with loop := .ended .cancelled }
  | .getting false => if s.queue.isEmpty then none else some s.next
  | .serving message task =>
    match task.resumes, task.on.outcome with
    | some outcome, some ended =>
      let s := { s with served := s.served ++ [(message, ended)] }
      -- `if not _task.cancelled(): break`
      if outcome = .cancelled ∧ ended ≠ .cancelled then
        some (s.taskDone fun s => { s with loop := .ended .broke })
      else some (s.taskDone State.next)
    | _, _ => none
  | .ended _ => none

/-- A step of the current message's task. -/
def State.onTurn (f : Turn → Option Turn) (s : State α) : Option (State α) :=
  match s.loop with
  | .serving message task =>
    (f task.on).map fun turn => { s with loop := .serving message { task with on := turn } }
  | _ => none

inductive Event (α : Type) where
  /-- The intake puts a message into the inbox. -/
  | put (message : α)
  /-- `disconnect` puts its `None` there, unless the inbox is full. -/
  | stop
  | cancelLoop
  | cancelTurn
  | cancelSession
  | turn (e : TurnEvent)
  | run

def step (s : State α) : Event α → Option (State α)
  | .put message => if s.full then none else some (s.put (some message))
  | .stop => some (if s.full then s else s.put none)
  | .cancelLoop => some { s with loop := s.loop.cancel }
  | .cancelTurn => s.onTurn fun turn => some turn.cancel
  | .cancelSession => s.onTurn Turn.cancelSession
  | .turn e => s.onTurn (Turn.step e)
  | .run => s.run

/-! ## What a step can do -/

/-- The message whose task the loop waits for. -/
def Loop.current : Loop α → List α
  | serving message _ => [message]
  | _ => []

/-- The sentinel that the loop has taken. -/
def Loop.taken : Loop α → List (Option α)
  | ended .sentinel => [none]
  | _ => []

@[simp] theorem current_cancel (l : Loop α) : l.cancel.current = l.current := by
  cases l <;> rfl

@[simp] theorem taken_cancel (l : Loop α) : l.cancel.taken = l.taken := by
  cases l <;> rfl

theorem cancel_ne_failed {l : Loop α} (h : l ≠ .ended .failed) : l.cancel ≠ .ended .failed := by
  cases l with
  | getting asked => nofun
  | serving message task => nofun
  | ended how => exact h

theorem taskDone_eq (h : s.unfinished ≠ 0) (goOn : State α → State α) :
    s.taskDone goOn = goOn { s with unfinished := s.unfinished - 1 } := if_neg h

/-- A step of the task changes where the task stands, and nothing else. -/
theorem onTurn_some {f : Turn → Option Turn} (h : s.onTurn f = some t) :
    ∃ message task turn, s.loop = .serving message task ∧ f task.on = some turn ∧
      t = { s with loop := .serving message { task with on := turn } } := by
  unfold State.onTurn at h
  split at h
  · rename_i message task hloop
    obtain ⟨turn, hturn, rfl⟩ := Option.map_eq_some_iff.mp h
    exact ⟨message, task, turn, hloop, hturn, rfl⟩
  · cases h

/-- The loop goes on in one of four ways. -/
theorem run_some (h : s.run = some t) :
    (s.loop = .getting true ∧ t = { s with loop := .ended .cancelled }) ∨
      (s.loop = .getting false ∧ s.queue ≠ [] ∧ t = s.next) ∨
      ∃ message task outcome ended, s.loop = .serving message task ∧
        task.resumes = some outcome ∧ task.on.outcome = some ended ∧
        (outcome = .cancelled ∧ ended ≠ .cancelled ∧
            t = { s with served := s.served ++ [(message, ended)] }.taskDone
              (fun s => { s with loop := .ended .broke }) ∨
          (outcome = .cancelled → ended = .cancelled) ∧
            t = { s with served := s.served ++ [(message, ended)] }.taskDone State.next) := by
  unfold State.run at h
  split at h
  · rename_i hloop
    exact .inl ⟨hloop, (Option.some.inj h).symm⟩
  · rename_i hloop
    split_ifs at h with hempty
    rw [List.isEmpty_iff] at hempty
    exact .inr (.inl ⟨hloop, hempty, (Option.some.inj h).symm⟩)
  · rename_i message task hloop
    split at h
    · rename_i outcome ended hresumes hended
      refine .inr (.inr ⟨message, task, outcome, ended, hloop, hresumes, hended, ?_⟩)
      dsimp only at h
      split_ifs at h with hbreak
      · exact .inl ⟨hbreak.1, hbreak.2, (Option.some.inj h).symm⟩
      · refine .inr ⟨fun houtcome => ?_, (Option.some.inj h).symm⟩
        by_contra hne
        exact hbreak ⟨houtcome, hne⟩
    · cases h
  · cases h

/-- Only these two put something into the inbox. -/
def Event.puts : Event α → Bool
  | put _ | stop => true
  | _ => false

/-- What any other step does: it takes something out of the inbox, one item at most, and is done with
some message, or with none. -/
structure Advances (s t : State α) (taken : List (Option α)) (done : List (α × Outcome)) : Prop where
  queue : s.queue = taken ++ t.queue
  few : taken.length ≤ 1
  arrived : t.arrived = s.arrived
  begun : t.begun = s.begun ++ taken.reduceOption
  served : t.served = s.served ++ done
  current : done.map Prod.fst ++ t.loop.current = s.loop.current ++ taken.reduceOption
  sentinel : taken.reduceOption.map some ++ t.loop.taken = s.loop.taken ++ taken
  count : t.unfinished + done.length + taken.countP Option.isNone = s.unfinished
  sound : t.loop ≠ .ended .failed

/-- The loop may change what it waits for, as long as it serves the same message. -/
theorem advances_loop {l : Loop α} (hcurrent : l.current = s.loop.current)
    (htaken : l.taken = s.loop.taken) (hsound : l ≠ .ended .failed) :
    Advances s { s with loop := l } [] [] where
  queue := rfl
  few := Nat.zero_le 1
  arrived := rfl
  begun := (List.append_nil _).symm
  served := (List.append_nil _).symm
  current := by
    show l.current = s.loop.current ++ []
    rw [hcurrent, List.append_nil]
  sentinel := by
    show l.taken = s.loop.taken ++ []
    rw [htaken, List.append_nil]
  count := rfl
  sound := hsound

/-- From `get` on, where nothing is being served. -/
theorem next_advances (h : s.queue.length ≤ s.unfinished) :
    ∃ taken, Advances { s with loop := .getting false } s.next taken [] := by
  unfold State.next
  split
  · exact ⟨[], advances_loop rfl rfl nofun⟩
  · rename_i rest hqueue
    rw [hqueue, List.length_cons] at h
    rw [taskDone_eq (by show s.unfinished ≠ 0; omega)]
    refine ⟨[none], ⟨hqueue, le_rfl, rfl, ?_, ?_, rfl, rfl, ?_, nofun⟩⟩
    · exact (List.append_nil _).symm
    · exact (List.append_nil _).symm
    · show s.unfinished - 1 + 0 + 1 = s.unfinished
      omega
  · rename_i message rest hqueue
    refine ⟨[some message], ⟨hqueue, le_rfl, rfl, rfl, ?_, rfl, rfl, rfl, nofun⟩⟩
    exact (List.append_nil _).symm

theorem onTurn_advances {f : Turn → Option Turn} (h : s.onTurn f = some t) : Advances s t [] [] := by
  obtain ⟨message, task, turn, hloop, -, rfl⟩ := onTurn_some h
  refine advances_loop ?_ ?_ nofun <;> rw [hloop] <;> rfl

/-- Where a message is being served there is that one left to count. -/
theorem room_serving (hcount : s.queue.length + s.loop.current.length ≤ s.unfinished) {message : α}
    {task : Await Turn} (hloop : s.loop = .serving message task) :
    s.unfinished ≠ 0 ∧ s.queue.length ≤ s.unfinished - 1 := by
  rw [hloop] at hcount
  replace hcount : s.queue.length + 1 ≤ s.unfinished := hcount
  omega

/-- Past the task of a message the loop goes on with the message counted. -/
theorem past_task (hcount : s.queue.length + s.loop.current.length ≤ s.unfinished) {message : α}
    {task : Await Turn} (hloop : s.loop = .serving message task) (ended : Outcome)
    (goOn : State α → State α) :
    { s with served := s.served ++ [(message, ended)] }.taskDone goOn =
      goOn { s with served := s.served ++ [(message, ended)], unfinished := s.unfinished - 1 } :=
  taskDone_eq (s := { s with served := s.served ++ [(message, ended)] })
    (room_serving hcount hloop).1 goOn

theorem run_advances (hcount : s.queue.length + s.loop.current.length ≤ s.unfinished)
    (h : s.run = some t) : ∃ taken done, Advances s t taken done := by
  obtain ⟨hloop, rfl⟩ | ⟨hloop, -, rfl⟩ | ⟨message, task, outcome, ended, hloop, -, -, hways⟩ :=
    run_some h
  · exact ⟨[], [], by refine advances_loop ?_ ?_ nofun <;> rw [hloop] <;> rfl⟩
  · obtain ⟨taken, hnext⟩ := next_advances (s := s) (by omega)
    rw [← hloop] at hnext
    exact ⟨taken, [], hnext⟩
  · have hdone := past_task hcount hloop ended
    obtain ⟨hbusy, hleft⟩ := room_serving hcount hloop
    obtain ⟨-, -, rfl⟩ | ⟨-, rfl⟩ := hways
    · refine ⟨[], [(message, ended)], ?_⟩
      rw [hdone]
      refine ⟨rfl, Nat.zero_le 1, rfl, (List.append_nil _).symm, rfl, ?_, ?_, ?_, nofun⟩
      · rw [hloop]
        rfl
      · rw [hloop]
        rfl
      · exact Nat.sub_add_cancel (Nat.pos_of_ne_zero hbusy)
    · rw [hdone]
      obtain ⟨taken, hnext⟩ := next_advances (s := { s with
        served := s.served ++ [(message, ended)], unfinished := s.unfinished - 1 }) hleft
      refine ⟨taken, [(message, ended)], ⟨hnext.queue, hnext.few, hnext.arrived, hnext.begun, ?_, ?_, ?_,
        ?_, hnext.sound⟩⟩
      · rw [hnext.served, List.append_nil]
      · rw [hloop]
        exact congrArg (message :: ·) hnext.current
      · rw [hloop]
        exact hnext.sentinel
      · calc _ + 1 + _ = _ + 0 + _ + 1 := Nat.add_right_comm _ _ _
          _ = s.unfinished - 1 + 1 := congrArg (· + 1) hnext.count
          _ = s.unfinished := Nat.sub_add_cancel (Nat.pos_of_ne_zero hbusy)

theorem step_advances (hcount : s.queue.length + s.loop.current.length ≤ s.unfinished)
    (hsound : s.loop ≠ .ended .failed) {e : Event α} (he : e.puts = false)
    (hstep : step s e = some t) : ∃ taken done, Advances s t taken done := by
  cases e with
  | put message => cases he
  | stop => cases he
  | cancelLoop =>
    obtain rfl := Option.some.inj hstep
    exact ⟨[], [], advances_loop (current_cancel _) (taken_cancel _) (cancel_ne_failed hsound)⟩
  | cancelTurn => exact ⟨[], [], onTurn_advances (f := fun turn => some turn.cancel) hstep⟩
  | cancelSession => exact ⟨[], [], onTurn_advances (f := Turn.cancelSession) hstep⟩
  | turn e => exact ⟨[], [], onTurn_advances (f := Turn.step e) hstep⟩
  | run => exact run_advances hcount hstep

end HermesMesh.Processor
