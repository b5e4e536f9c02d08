import HermesMesh.ThreadRuns
import Mathlib.Logic.Function.Basic

/-!
# The registry, step by step

`ThreadRuns` takes a call as one step. Here a call is the steps it is made of: take the lock, stat
the file, read it, replace it, install the set, tag it with the mtime, leave. Between two steps of
one process any other process may take a step. `record`, `promote`, `withdraw` and `is_closed` hold
the lock from their first look at the file to their end; `load` and `list_closed` never take it.

`alone` shows that a call whose steps nobody interrupts is the locked section of `Threads`.
-/

namespace HermesMesh.Threads.Steps

open Lib

inductive Call where
  /-- `record`, `promote`, `withdraw`, `is_closed`. -/
  | locked (op : Op)
  | load
  | listClosed

/-- The next step of a process. -/
inductive Phase where
  | idle
  /-- Take the lock. -/
  | waiting (op : Op)
  /-- Compare the file's mtime with the tag of the snapshot. -/
  | checking (call : Call)
  | reading (call : Call)
  | writing (op : Op) (kept : List Json)
  /-- The first half of `_hydrate`: the set. -/
  | installing (call : Call) (entries : List Json)
  /-- The second half of `_hydrate`: the mtime. -/
  | tagging (call : Call)
  /-- Return, and give the lock back. -/
  | leaving (op : Op)

structure Process where
  phase : Phase := .idle
  cache : Cache := {}
  /-- The file when the process last took the lock. -/
  lockedAt : File := ⟨.absent, none⟩

structure State where
  file : File
  /-- The mtimes that the file has had. -/
  used : List Time
  holder : Option ℕ
  procs : ℕ → Process

inductive Event where
  | begin (pid : ℕ) (call : Call)
  | lock (pid : ℕ)
  | check (pid : ℕ)
  | read (pid : ℕ)
  | write (pid : ℕ) (stamp : Time)
  | install (pid : ℕ)
  | tag (pid : ℕ)
  | leave (pid : ℕ)
  /-- The lock is refused, or the write fails. -/
  | fail (pid : ℕ)
  /-- The process starts again; a lock that it held is free. -/
  | restart (pid : ℕ)

/-- The validators pass the tokens of the call. -/
def accepts (valid : TokenRule) : Op → Bool
  | .record _ anchor closedBy _ => valid anchor && valid closedBy
  | .promote anchor | .withdraw anchor => valid anchor
  | .isClosed anchor => anchor.isSome

/-- The first step of a call: an invalid token raises, and `None` is never looked up. -/
def Call.first (valid : TokenRule) : Call → Phase
  | .locked op => if accepts valid op then .waiting op else .idle
  | .load => .reading .load
  | .listClosed => .checking .listClosed

/-- The first step under the lock. -/
def inside : Op → Phase
  | .isClosed anchor => .checking (.locked (.isClosed anchor))
  | op => .reading (.locked op)

/-- The step after the last one on the snapshot. -/
def Call.finish : Call → Phase
  | .locked op => .leaving op
  | .load | .listClosed => .idle

/-- What `_rewrite` does with the entries it has read. -/
def rewriting (op : Op) (failed : Bool) (loop : Except PyError (Bool × List Json)) : Phase :=
  if failed then .leaving op
  else
    match loop with
    | .ok (true, kept) => .writing op kept
    | _ => .leaving op

/-- What a call does with the entries it has read. -/
def Call.afterRead (entries : List Json) (failed : Bool) : Call → Phase
  | .locked (.record closedAt anchor closedBy pending) =>
    let op : Op := .record closedAt anchor closedBy pending
    match findAnchor anchor entries with
    | .error _ => .leaving op
    | .ok true => .installing (.locked op) entries
    | .ok false => .writing op (entries ++ [newEntry closedAt anchor closedBy pending])
  | .locked (.promote anchor) =>
    rewriting (.promote anchor) failed (rewriteEntries anchor false true entries)
  | .locked (.withdraw anchor) =>
    rewriting (.withdraw anchor) failed (rewriteEntries anchor true false entries)
  | call => .installing call entries

/-- The state with another process at this place. -/
def State.put (s : State) (pid : ℕ) (p : Process) : State :=
  { s with procs := Function.update s.procs pid p }

/-- The process goes on to its next step. -/
def State.move (s : State) (pid : ℕ) (phase : Phase) : State :=
  s.put pid { s.procs pid with phase }

def step (valid : TokenRule) (s : State) : Event → Option State
  | .begin pid call =>
    match (s.procs pid).phase with
    | .idle => some (s.move pid (call.first valid))
    | _ => none
  | .lock pid =>
    match (s.procs pid).phase, s.holder with
    | .waiting op, none =>
      some { s.put pid { s.procs pid with phase := inside op, lockedAt := s.file } with
        holder := some pid }
    | _, _ => none
  | .check pid =>
    match (s.procs pid).phase with
    | .checking call =>
      if !(s.procs pid).cache.loaded || decide (s.file.mtime ≠ (s.procs pid).cache.mtime) then
        some (s.move pid (.reading call))
      else some (s.move pid call.finish)
    | _ => none
  | .read pid =>
    match (s.procs pid).phase with
    | .reading call =>
      let (entries, failed) := readEntriesStrict {} s.file
      some (s.move pid (call.afterRead entries failed))
    | _ => none
  | .write pid stamp =>
    match (s.procs pid).phase with
    | .writing op kept =>
      some { s.move pid (.installing (.locked op) kept) with
        file := ⟨.entries kept, some stamp⟩
        used := stamp :: s.used }
    | _ => none
  | .install pid =>
    match (s.procs pid).phase with
    | .installing call entries =>
      some (s.put pid { s.procs pid with
        phase := .tagging call
        cache := { (s.procs pid).cache with locked := entries.filterMap (lockedAnchor valid) } })
    | _ => none
  | .tag pid =>
    match (s.procs pid).phase with
    | .tagging call =>
      some (s.put pid { s.procs pid with
        phase := call.finish
        cache := { (s.procs pid).cache with loaded := true, mtime := s.file.mtime } })
    | _ => none
  | .leave pid =>
    match (s.procs pid).phase with
    | .leaving _ => some { s.move pid .idle with holder := none }
    | _ => none
  | .fail pid =>
    match (s.procs pid).phase with
    | .waiting _ => some (s.move pid .idle)
    | .writing _ _ => some { s.move pid .idle with holder := none }
    | _ => none
  | .restart pid =>
    some { s.put pid { s.procs pid with phase := .idle, cache := {} } with
      holder := if s.holder = some pid then none else s.holder }

/-- What `is_closed` returns as the process leaves: `anchor in _LOCKED`. -/
def State.answer (s : State) (pid : ℕ) (anchor : String) : Bool :=
  (s.procs pid).cache.locked.contains anchor

/-- What the process sees. -/
def State.view (s : State) (pid : ℕ) : View := ⟨s.file, (s.procs pid).cache⟩

/-- Nobody is inside a call and nobody holds a snapshot, over a readable log of valid anchors. -/
structure Start (valid : TokenRule) (s : State) : Prop where
  good : Good valid s.file
  stamped : ∀ m, s.file.mtime = some m → m ∈ s.used
  procs : ∀ pid, (s.procs pid).phase = .idle ∧ (s.procs pid).cache = {}
  free : s.holder = none

/-! ## One process -/

variable {valid : TokenRule} {s t u : State} {pid : ℕ} {stamp : Time} {v : View}

@[simp] theorem put_self (s : State) (pid : ℕ) (p : Process) : (s.put pid p).procs pid = p := by
  simp [State.put]

@[simp] theorem move_phase (s : State) (pid : ℕ) (phase : Phase) :
    ((s.move pid phase).procs pid).phase = phase := by
  simp [State.move]

@[simp] theorem move_view (s : State) (pid : ℕ) (phase : Phase) :
    (s.move pid phase).view pid = s.view pid := by
  simp [State.move, State.view, State.put]

theorem put_other {pid' : ℕ} (h : pid' ≠ pid) (p : Process) :
    (s.put pid p).procs pid' = s.procs pid' :=
  Function.update_of_ne h _ _

/-! ## What a step has done -/

section

variable {call : Call}

theorem begin_step (hs : step valid s (.begin pid call) = some t) :
    (s.procs pid).phase = .idle ∧ t = s.move pid (call.first valid) := by
  simp only [step] at hs
  split at hs
  · rename_i hphase
    exact ⟨hphase, (Option.some.inj hs).symm⟩
  · cases hs

theorem lock_step (hs : step valid s (.lock pid) = some t) :
    ∃ op, (s.procs pid).phase = .waiting op ∧ s.holder = none ∧
      t = { s.put pid { s.procs pid with phase := inside op, lockedAt := s.file } with
        holder := some pid } := by
  simp only [step] at hs
  split at hs
  · rename_i op hphase hholder
    exact ⟨op, hphase, hholder, (Option.some.inj hs).symm⟩
  · cases hs

/-- The stat sends the call to the file, or finds the snapshot's tag on it. -/
theorem check_step (hs : step valid s (.check pid) = some t) :
    ∃ call, (s.procs pid).phase = .checking call ∧
      (t = s.move pid (.reading call) ∨
        (s.procs pid).cache.loaded = true ∧ s.file.mtime = (s.procs pid).cache.mtime ∧
          t = s.move pid call.finish) := by
  simp only [step] at hs
  split at hs
  · rename_i call hphase
    refine ⟨call, hphase, ?_⟩
    split_ifs at hs with hstale
    · exact .inl (Option.some.inj hs).symm
    · simp only [Bool.or_eq_true, Bool.not_eq_true', decide_eq_true_eq, not_or,
        Bool.not_eq_false, not_not] at hstale
      exact .inr ⟨hstale.1, hstale.2, (Option.some.inj hs).symm⟩
  · cases hs

theorem read_step (hs : step valid s (.read pid) = some t) :
    ∃ call, (s.procs pid).phase = .reading call ∧
      t = s.move pid (call.afterRead s.file.entries (readEntriesStrict {} s.file).2) := by
  simp only [step] at hs
  split at hs
  · rename_i call hphase
    rw [readEntriesStrict_entries] at hs
    exact ⟨call, hphase, (Option.some.inj hs).symm⟩
  · cases hs

theorem write_step (hs : step valid s (.write pid stamp) = some t) :
    ∃ op kept, (s.procs pid).phase = .writing op kept ∧
      t = { s.move pid (.installing (.locked op) kept) with
        file := ⟨.entries kept, some stamp⟩
        used := stamp :: s.used } := by
  simp only [step] at hs
  split at hs
  · rename_i op kept hphase
    exact ⟨op, kept, hphase, (Option.some.inj hs).symm⟩
  · cases hs

theorem install_step (hs : step valid s (.install pid) = some t) :
    ∃ call entries, (s.procs pid).phase = .installing call entries ∧
      t = s.put pid { s.procs pid with
        phase := .tagging call
        cache := { (s.procs pid).cache with locked := entries.filterMap (lockedAnchor valid) } } := by
  simp only [step] at hs
  split at hs
  · rename_i call entries hphase
    exact ⟨call, entries, hphase, (Option.some.inj hs).symm⟩
  · cases hs

theorem tag_step (hs : step valid s (.tag pid) = some t) :
    ∃ call, (s.procs pid).phase = .tagging call ∧
      t = s.put pid { s.procs pid with
        phase := call.finish
        cache := { (s.procs pid).cache with loaded := true, mtime := s.file.mtime } } := by
  simp only [step] at hs
  split at hs
  · rename_i call hphase
    exact ⟨call, hphase, (Option.some.inj hs).symm⟩
  · cases hs

theorem leave_step (hs : step valid s (.leave pid) = some t) :
    ∃ op, (s.procs pid).phase = .leaving op ∧ t = { s.move pid .idle with holder := none } := by
  simp only [step] at hs
  split at hs
  · rename_i op hphase
    exact ⟨op, hphase, (Option.some.inj hs).symm⟩
  · cases hs

/-- The lock is refused, or the holder's write fails. -/
theorem fail_step (hs : step valid s (.fail pid) = some t) :
    (∃ op, (s.procs pid).phase = .waiting op) ∧ t = s.move pid .idle ∨
      (∃ op kept, (s.procs pid).phase = .writing op kept) ∧
        t = { s.move pid .idle with holder := none } := by
  simp only [step] at hs
  split at hs
  · rename_i op hphase
    exact .inl ⟨⟨op, hphase⟩, (Option.some.inj hs).symm⟩
  · rename_i op kept hphase
    exact .inr ⟨⟨op, kept, hphase⟩, (Option.some.inj hs).symm⟩
  · cases hs

end

/-! ## A call alone -/

/-- Steps of one process alone end its call with the view `v`, the lock free. -/
def Lands (valid : TokenRule) (s : State) (pid : ℕ) (v : View) : Prop :=
  ∃ es t, exec (step valid) s es = some t ∧ t.view pid = v ∧ (t.procs pid).phase = .idle ∧
    t.holder = none ∧ ∀ other ≠ pid, t.procs other = s.procs other

/-- One more step at the front. -/
theorem Lands.cons {e : Event} (hs : step valid s e = some u)
    (hother : ∀ other ≠ pid, u.procs other = s.procs other) (h : Lands valid u pid v) :
    Lands valid s pid v := by
  obtain ⟨es, t, hexec, hview, hphase, hholder, hothers⟩ := h
  refine ⟨e :: es, t, ?_, hview, hphase, hholder,
    fun other hne => (hothers other hne).trans (hother other hne)⟩
  rw [exec_cons, hs]
  exact hexec

theorem Lands.move {e : Event} {phase : Phase} (hs : step valid s e = some (s.move pid phase))
    (h : Lands valid (s.move pid phase) pid v) : Lands valid s pid v :=
  h.cons hs fun _ hne => put_other hne _

theorem lands_leaving {op : Op} (hp : (s.procs pid).phase = .leaving op) :
    Lands valid s pid (s.view pid) := by
  refine ⟨[.leave pid], { s.move pid .idle with holder := none }, ?_, move_view s pid .idle,
    move_phase s pid .idle, rfl, fun _ hne => put_other hne _⟩
  simp [exec, step, hp]

/-- Where `_hydrate` starts under the lock, its two halves and the release follow. -/
theorem lands_installing {op : Op} {entries : List Json}
    (hp : (s.procs pid).phase = .installing (.locked op) entries) :
    Lands valid s pid ((s.view pid).hydrate valid entries) := by
  let locked := entries.filterMap (lockedAnchor valid)
  let s₁ := s.put pid
    { s.procs pid with phase := .tagging (.locked op), cache := { (s.procs pid).cache with locked } }
  let s₂ := s₁.put pid
    { s₁.procs pid with phase := .leaving op, cache := ⟨true, locked, s.file.mtime⟩ }
  have h1 : step valid s (.install pid) = some s₁ := by simp [step, hp, s₁, locked]
  have h2 : step valid s₁ (.tag pid) = some s₂ := by simp [step, s₁, s₂, State.put, Call.finish]
  have hview : s₂.view pid = (s.view pid).hydrate valid entries := by
    simp [s₂, s₁, State.view, View.hydrate, State.put, locked]
  have hphase : (s₂.procs pid).phase = .leaving op := by simp [s₂]
  have hleave : Lands valid s₂ pid (s₂.view pid) := lands_leaving hphase
  rw [← hview]
  exact (hleave.cons h2 fun _ hne => put_other hne _).cons h1 fun _ hne => put_other hne _

theorem lands_writing {op : Op} {kept : List Json} (stamp : Time)
    (hp : (s.procs pid).phase = .writing op kept) :
    Lands valid s pid ((s.view pid).put valid stamp kept) := by
  have hs : step valid s (.write pid stamp) = some { s.move pid (.installing (.locked op) kept) with
      file := ⟨.entries kept, some stamp⟩, used := stamp :: s.used } := by simp [step, hp]
  refine Lands.cons hs (fun _ hne => put_other hne _) ?_
  have hview : ∀ file used, State.view { s.move pid (.installing (.locked op) kept) with
      file, used } pid = { s.view pid with file } := by
    intro file used
    simp [State.view, State.move, State.put]
  have h : Lands valid { s.move pid (.installing (.locked op) kept) with
      file := ⟨.entries kept, some stamp⟩, used := stamp :: s.used } pid _ :=
    lands_installing (move_phase s pid (.installing (.locked op) kept))
  rw [hview] at h
  exact h

theorem lands_rewriting {op : Op} {a : String} {drop promote : Bool}
    (ha : valid a = true) (hp : (s.procs pid).phase = .reading (.locked op))
    (hafter : (Call.locked op).afterRead (readEntriesStrict {} s.file).1
      (readEntriesStrict {} s.file).2 = rewriting op (readEntriesStrict {} s.file).2
        (rewriteEntries a drop promote (readEntriesStrict {} s.file).1)) :
    Lands valid s pid (rewrite valid {} stamp a drop promote (s.view pid)).2 := by
  have hs : step valid s (.read pid) = some (s.move pid (rewriting op (readEntriesStrict {} s.file).2
      (rewriteEntries a drop promote (readEntriesStrict {} s.file).1))) := by
    rw [← hafter]
    simp [step, hp]
  apply Lands.move hs
  have hleave : Lands valid (s.move pid (.leaving op)) pid (s.view pid) := by
    have h : Lands valid _ pid _ := lands_leaving (move_phase s pid (.leaving op))
    rwa [move_view] at h
  unfold rewriting
  cases hfailed : (readEntriesStrict {} s.file).2 with
  | true =>
    rw [rewrite_unread ha hfailed]
    exact hleave
  | false =>
    cases hloop : rewriteEntries a drop promote (readEntriesStrict {} s.file).1 with
    | error e =>
      rw [rewrite_stumbles ha hloop]
      exact hleave
    | ok out =>
      obtain ⟨changed, kept⟩ := out
      rw [rewrite_loops ha hfailed hloop]
      cases changed with
      | false => exact hleave
      | true =>
        have h : Lands valid _ pid _ := lands_writing stamp (move_phase s pid (.writing op kept))
        rwa [move_view] at h

/-- The locked section of `record`. -/
theorem lands_record {closedAt : Time} {a closedBy : String} {pending : Bool}
    (ha : accepts valid (.record closedAt a closedBy pending) = true)
    (hp : (s.procs pid).phase = inside (.record closedAt a closedBy pending)) :
    Lands valid s pid ((Op.record closedAt a closedBy pending).run valid stamp (s.view pid)) := by
  have hs : step valid s (.read pid) = some (s.move pid
      ((Call.locked (.record closedAt a closedBy pending)).afterRead
        (readEntriesStrict {} s.file).1 (readEntriesStrict {} s.file).2)) := by
    simp [step, hp, inside]
  rw [accepts, Bool.and_eq_true] at ha
  apply Lands.move hs
  dsimp only [Op.run, Call.afterRead]
  cases hfind : findAnchor a (readEntriesStrict {} s.file).1 with
  | error e =>
    have h : Lands valid _ pid _ := lands_leaving
      (move_phase s pid (.leaving (.record closedAt a closedBy pending)))
    rw [record_stumbles ha.1 ha.2 hfind]
    rwa [move_view] at h
  | ok found =>
    cases found with
    | true =>
      have h : Lands valid _ pid _ := lands_installing (move_phase s pid
        (.installing (.locked (.record closedAt a closedBy pending))
          (readEntriesStrict {} s.file).1))
      rw [record_finds ha.1 ha.2 hfind]
      rwa [move_view] at h
    | false =>
      have h : Lands valid _ pid _ := lands_writing stamp (move_phase s pid
        (.writing (.record closedAt a closedBy pending)
          ((readEntriesStrict {} s.file).1 ++ [newEntry closedAt a closedBy pending])))
      rw [record_adds ha.1 ha.2 hfind]
      rwa [move_view] at h

/-- The locked section of `is_closed`, with a stale cache and with a fresh one. -/
theorem lands_isClosed {a : String} (hp : (s.procs pid).phase = inside (.isClosed (some a))) :
    Lands valid s pid ((Op.isClosed (some a)).run valid stamp (s.view pid)) := by
  dsimp only [Op.run, Threads.isClosed]
  by_cases hstale : (!(s.view pid).cache.loaded ||
      decide ((s.view pid).file.mtime ≠ (s.view pid).cache.mtime)) = true
  · have h1 : step valid s (.check pid) =
        some (s.move pid (.reading (.locked (.isClosed (some a))))) := by
      simp only [step, hp, inside]
      exact if_pos hstale
    have h2 : step valid (s.move pid (.reading (.locked (.isClosed (some a))))) (.read pid) =
        some ((s.move pid (.reading (.locked (.isClosed (some a))))).move pid
          (.installing (.locked (.isClosed (some a))) (readEntriesStrict {} s.file).1)) := by
      simp only [step, move_phase]
      rfl
    have h : Lands valid _ pid _ := lands_installing (move_phase
      (s.move pid (.reading (.locked (.isClosed (some a))))) pid
      (.installing (.locked (.isClosed (some a))) (readEntriesStrict {} s.file).1))
    rw [move_view, move_view] at h
    rw [if_neg (by decide), if_pos hstale]
    exact (Lands.move h2 h).move h1
  · have h1 : step valid s (.check pid) = some (s.move pid (.leaving (.isClosed (some a)))) := by
      simp only [step, hp, inside]
      exact if_neg hstale
    have h : Lands valid _ pid _ := lands_leaving (move_phase s pid (.leaving (.isClosed (some a))))
    rw [move_view] at h
    rw [if_neg (by decide), if_neg hstale]
    exact h.move h1

/-- The steps inside the lock make the locked section. -/
theorem lands_inside {op : Op} (ha : accepts valid op = true)
    (hp : (s.procs pid).phase = inside op) :
    Lands valid s pid (op.run valid stamp (s.view pid)) := by
  cases op with
  | record closedAt a closedBy pending => exact lands_record ha hp
  | promote a => exact lands_rewriting ha hp rfl
  | withdraw a => exact lands_rewriting ha hp rfl
  | isClosed anchor =>
    obtain ⟨a, rfl⟩ := Option.isSome_iff_exists.mp ha
    exact lands_isClosed hp

/-- Where a validator refuses a token, the call leaves everything as it is. -/
theorem run_refused {op : Op} (ha : ¬ accepts valid op = true) : op.run valid stamp v = v := by
  cases op with
  | record closedAt a closedBy pending =>
    rw [accepts, Bool.and_eq_true] at ha
    exact (record_invalid ha closedAt pending).2
  | promote a => exact rewrite_invalid ha false true
  | withdraw a => exact rewrite_invalid ha true false
  | isClosed anchor =>
    cases anchor with
    | none => rfl
    | some a => exact absurd rfl ha

/-- **A call alone is its locked section.** The steps of a call that nobody interrupts do to the
file and the snapshot what the call of `Threads` does. -/
theorem alone (hidle : (s.procs pid).phase = .idle) (hfree : s.holder = none) (op : Op)
    (stamp : Time) : Lands valid s pid (op.run valid stamp (s.view pid)) := by
  by_cases ha : accepts valid op = true
  · have h1 : step valid s (.begin pid (.locked op)) = some (s.move pid (.waiting op)) := by
      simp [step, hidle, Call.first, ha]
    apply Lands.move h1
    let s₁ := s.move pid (.waiting op)
    have h2 : step valid s₁ (.lock pid) = some { s₁.put pid { s₁.procs pid with
        phase := inside op, lockedAt := s₁.file } with holder := some pid } := by
      have hholder : s₁.holder = none := hfree
      simp only [step, s₁, move_phase]
      rw [show (s.move pid (.waiting op)).holder = none from hfree]
    refine Lands.cons h2 (fun _ hne => put_other hne _) ?_
    have h : Lands valid { s₁.put pid { s₁.procs pid with
        phase := inside op, lockedAt := s₁.file } with holder := some pid } pid
          (op.run valid stamp _) := lands_inside ha (by simp [State.put])
    have hview : State.view { s₁.put pid { s₁.procs pid with
        phase := inside op, lockedAt := s₁.file } with holder := some pid } pid = s.view pid := by
      simp [State.view, State.put, s₁, State.move]
    rwa [hview] at h
  · have h1 : step valid s (.begin pid (.locked op)) = some (s.move pid .idle) := by
      simp [step, hidle, Call.first, ha]
    rw [run_refused ha]
    refine ⟨[.begin pid (.locked op)], s.move pid .idle, ?_, move_view s pid .idle,
      move_phase s pid .idle, hfree, fun _ hne => put_other hne _⟩
    rw [exec_cons, h1]
    rfl

end HermesMesh.Threads.Steps
