import HermesMesh.ProcessorRuns
import Mathlib.Algebra.Order.Group.Multiset
import Mathlib.Tactic.Abel

/-!
# Connecting again

`__init__` makes the inbox, and every `connect` starts a processor loop on it. Over the life of an adapter
there may be several loops, one after the other, or at once where it is connected without having been
disconnected; and what one of them has left in the inbox the next one finds, a sentinel too. No message
is lost or begun twice over it (`restarts_serve`), and whether a loop is left to serve the inbox is a
matter of counting: a disconnect whose loop has been cut off leaves its sentinel to the loop of the next
connect, which stops there, and what is accepted after that waits. Loops that follow each other serve one
message at a time, in order (`one_at_a_time`).
-/

namespace HermesMesh.Processor

variable {α : Type}

def Loop.lives : Loop α → Bool
  | ended _ => false
  | _ => true

/-- It ended at a sentinel. -/
def Loop.stopped : Loop α → Bool
  | ended .sentinel => true
  | _ => false

/-- It ended by a cancellation. -/
def Loop.cutOff : Loop α → Bool
  | ended .broke | ended .cancelled => true
  | _ => false

end HermesMesh.Processor

namespace HermesMesh.Reconnects

open Lib Processor

/-- The inbox, and the loops that were started on it. The last three fields only record what happened, as
those of one loop do. -/
structure State (α : Type) where
  queue : List (Option α) := []
  unfinished : ℕ := 0
  loops : List (Loop α) := []
  /-- `_mesh_processor`, as the place of its loop. -/
  processor : Option ℕ := none
  arrived : List (Option α) := []
  begun : List α := []
  served : List (α × Outcome) := []

variable {α : Type} {s t : State α} {i : ℕ}

/-- What a loop sees. -/
def State.view (s : State α) (loop : Loop α) : Processor.State α :=
  ⟨s.queue, s.unfinished, loop, s.arrived, s.begun, s.served⟩

/-- What the loop at this place leaves behind. -/
def State.after (s : State α) (i : ℕ) (p : Processor.State α) : State α :=
  { s with
    queue := p.queue
    unfinished := p.unfinished
    loops := s.loops.set i p.loop
    arrived := p.arrived
    begun := p.begun
    served := p.served }

/-- `put_nowait`, where there is room. -/
def State.put (item : Option α) (s : State α) : State α :=
  { s with
    queue := s.queue ++ [item]
    unfinished := s.unfinished + 1
    arrived := s.arrived ++ [item] }

def State.full (s : State α) : Bool := Intake.inboxSize ≤ s.queue.length

inductive Event (α : Type) where
  /-- `connect`, where it succeeds. -/
  | connect
  /-- `disconnect` puts its `None` into the inbox, unless that is full. -/
  | stop
  /-- A `disconnect` that has waited for this loop is past it. -/
  | leave (i : ℕ)
  | put (message : α)
  /-- Anything else that happens to a loop. -/
  | loop (i : ℕ) (e : Processor.Event α)

def step (s : State α) : Event α → Option (State α)
  | .connect => some { s with loops := s.loops ++ [.getting false], processor := some s.loops.length }
  | .stop =>
    match s.processor with
    | some _ => some (if s.full then s else s.put none)
    | none => none
  | .leave i =>
    match s.loops[i]? with
    | some (.ended _) => some { s with processor := none }
    | _ => none
  | .put message => if s.full then none else some (s.put (some message))
  | .loop i e =>
    match s.loops[i]? with
    | some loop => if e.puts then none else (Processor.step (s.view loop) e).map (s.after i)
    | none => none

variable {e : Event α} {es : List (Event α)}

/-- What an event does that is none of a loop. -/
inductive Outside (s : State α) : Event α → State α → Prop
  | connect : Outside s .connect
      { s with loops := s.loops ++ [.getting false], processor := some s.loops.length }
  | stop : Outside s .stop (s.put none)
  | full : Outside s .stop s
  | leave (i : ℕ) : Outside s (.leave i) { s with processor := none }
  | put (message : α) : Outside s (.put message) (s.put (some message))

theorem step_some (h : step s e = some t) : Outside s e t ∨ ∃ i e', e = .loop i e' := by
  cases e with
  | connect =>
    obtain rfl := Option.some.inj h
    exact .inl .connect
  | stop =>
    unfold step at h
    dsimp only at h
    split at h
    · obtain rfl := Option.some.inj h
      split_ifs
      · exact .inl .full
      · exact .inl .stop
    · cases h
  | leave i =>
    unfold step at h
    dsimp only at h
    split at h
    · obtain rfl := Option.some.inj h
      exact .inl (.leave i)
    · cases h
  | put message =>
    unfold step at h
    dsimp only at h
    split_ifs at h
    obtain rfl := Option.some.inj h
    exact .inl (.put message)
  | loop i e => exact .inr ⟨i, e, rfl⟩

theorem loop_some {e : Processor.Event α} (h : step s (.loop i e) = some t) :
    ∃ loop p, s.loops[i]? = some loop ∧ e.puts = false ∧ Processor.step (s.view loop) e = some p ∧
      t = s.after i p := by
  unfold step at h
  dsimp only at h
  split at h
  · rename_i loop hloop
    split_ifs at h with he
    obtain ⟨p, hp, rfl⟩ := Option.map_eq_some_iff.mp h
    exact ⟨loop, p, hloop, Bool.eq_false_iff.mpr he, hp, rfl⟩
  · cases h

/-- The step of a loop leaves the others as they are. -/
theorem after_loops {loop : Loop α} {p : Processor.State α} (h : s.loops[i]? = some loop) :
    ∃ before after, s.loops = before ++ loop :: after ∧ (s.after i p).loops = before ++ p.loop :: after := by
  obtain ⟨hi, hget⟩ := List.getElem?_eq_some_iff.mp h
  have hset : ∃ before after, s.loops = before ++ s.loops[i] :: after ∧ before.length = i ∧
      s.loops.set i p.loop = before ++ p.loop :: after := List.exists_of_set hi
  obtain ⟨before, after, hloops, -, hset⟩ := hset
  rw [hget] at hloops
  exact ⟨before, after, hloops, hset⟩

/-! ## Nothing is lost or begun twice -/

/-- What was begun and what waits is what arrived; what is begun is served or being served; the inbox
counts right; and every sentinel waits or has stopped a loop. -/
structure Kept (s : State α) : Prop where
  order : s.begun ++ s.queue.reduceOption = s.arrived.reduceOption
  served : (s.served.map Prod.fst ++ s.loops.flatMap Loop.current).Perm s.begun
  count : s.unfinished = s.queue.length + (s.loops.flatMap Loop.current).length
  sentinels : s.arrived.countP Option.isNone =
    s.queue.countP Option.isNone + s.loops.countP Loop.stopped
  sound : ∀ loop ∈ s.loops, loop ≠ .ended .failed

theorem Kept.put (h : Kept s) (item : Option α) : Kept (s.put item) where
  order := by
    show s.begun ++ (s.queue ++ [item]).reduceOption = (s.arrived ++ [item]).reduceOption
    rw [List.reduceOption_append, List.reduceOption_append, ← List.append_assoc, h.order]
  served := h.served
  count := by
    show s.unfinished + 1 = (s.queue ++ [item]).length + (s.loops.flatMap Loop.current).length
    rw [h.count, List.length_append, List.length_singleton]
    omega
  sentinels := by
    show (s.arrived ++ [item]).countP _ = (s.queue ++ [item]).countP _ + s.loops.countP _
    rw [List.countP_append, List.countP_append, h.sentinels]
    omega
  sound := h.sound

theorem Kept.connect (h : Kept s) (processor : Option ℕ) :
    Kept { s with loops := s.loops ++ [.getting false], processor } where
  order := h.order
  served := by
    show (s.served.map Prod.fst ++ (s.loops ++ [Loop.getting false]).flatMap Loop.current).Perm s.begun
    rw [List.flatMap_append]
    exact (List.append_nil _).symm ▸ h.served
  count := by
    show s.unfinished = _ + ((s.loops ++ [Loop.getting false]).flatMap Loop.current).length
    rw [List.flatMap_append, List.length_append]
    exact h.count
  sentinels := by
    show _ = _ + (s.loops ++ [Loop.getting false]).countP Loop.stopped
    rw [List.countP_append]
    exact h.sentinels
  sound := by
    intro loop hloop
    rcases List.mem_append.mp hloop with hold | hnew
    · exact h.sound loop hold
    · rw [List.mem_singleton.mp hnew]
      nofun

/-- A loop finds as much left to count as waits and as it serves. -/
theorem Kept.room (h : Kept s) {loop : Loop α} (hloop : loop ∈ s.loops) :
    s.queue.length + loop.current.length ≤ s.unfinished := by
  obtain ⟨before, after, hloops⟩ := List.append_of_mem hloop
  have hcount := h.count
  rw [hloops, List.flatMap_append, List.flatMap_cons, List.length_append, List.length_append] at hcount
  omega

theorem countP_taken (loop : Loop α) :
    loop.taken.countP Option.isNone = if loop.stopped then 1 else 0 := by
  cases loop with
  | ended how => cases how <;> rfl
  | _ => rfl

theorem Kept.after (h : Kept s) {loop : Loop α} {p : Processor.State α} {taken : List (Option α)}
    {done : List (α × Outcome)} (hloop : s.loops[i]? = some loop)
    (ha : Advances (s.view loop) p taken done) : Kept (s.after i p) := by
  obtain ⟨before, after, hloops, hafter⟩ := after_loops (p := p) hloop
  have hqueue : s.queue = taken ++ p.queue := ha.queue
  have hcurrent : done.map Prod.fst ++ p.loop.current = loop.current ++ taken.reduceOption := ha.current
  refine ⟨?_, ?_, ?_, ?_, ?_⟩
  · show p.begun ++ p.queue.reduceOption = p.arrived.reduceOption
    have harrived : p.arrived = s.arrived := ha.arrived
    have hbegun : p.begun = s.begun ++ taken.reduceOption := ha.begun
    rw [hbegun, List.append_assoc, ← List.reduceOption_append, ← hqueue, harrived, h.order]
  · show (p.served.map Prod.fst ++ (s.after i p).loops.flatMap Loop.current).Perm p.begun
    have hserved : p.served = s.served ++ done := ha.served
    have hbegun : p.begun = s.begun ++ taken.reduceOption := ha.begun
    have hperm := h.served
    have hsame := congrArg (fun l : List α => (l : Multiset α)) hcurrent
    rw [hloops, List.flatMap_append, List.flatMap_cons] at hperm
    rw [hserved, hbegun, hafter, List.flatMap_append, List.flatMap_cons, List.map_append]
    simp only [← Multiset.coe_eq_coe, ← Multiset.coe_add] at hperm hsame ⊢
    calc _ = (↑(s.served.map Prod.fst) + (↑(before.flatMap Loop.current) + ↑(after.flatMap Loop.current)) +
          (↑(done.map Prod.fst) + ↑p.loop.current) : Multiset α) := by abel
      _ = ↑(s.served.map Prod.fst) + (↑(before.flatMap Loop.current) + (↑loop.current +
          ↑(after.flatMap Loop.current))) + ↑taken.reduceOption := by rw [hsame]; abel
      _ = ↑s.begun + ↑taken.reduceOption := by rw [hperm]
  · show p.unfinished = p.queue.length + ((s.after i p).loops.flatMap Loop.current).length
    have hcount : p.unfinished + done.length + taken.countP Option.isNone = s.unfinished := ha.count
    have hold := h.count
    have hlengths := congrArg List.length hqueue
    have hcurrents := congrArg List.length hcurrent
    have hsplit := List.length_eq_reduceOption_length_add_filter_none (l := taken)
    rw [← List.countP_eq_length_filter] at hsplit
    rw [hloops] at hold
    rw [hafter]
    simp only [List.flatMap_append, List.flatMap_cons, List.length_append, List.length_map] at *
    omega
  · show p.arrived.countP Option.isNone = p.queue.countP Option.isNone + (s.after i p).loops.countP _
    have harrived : p.arrived = s.arrived := ha.arrived
    have hold := h.sentinels
    have hsentinel : (taken.reduceOption.map some ++ p.loop.taken).countP Option.isNone =
        (loop.taken ++ taken).countP Option.isNone := congrArg _ ha.sentinel
    have hnone : (taken.reduceOption.map some).countP Option.isNone = 0 := by
      rw [List.countP_eq_zero]
      simp
    rw [List.countP_append, List.countP_append, hnone, countP_taken, countP_taken] at hsentinel
    rw [hloops, hqueue, List.countP_append, List.countP_append, List.countP_cons] at hold
    rw [harrived, hafter, List.countP_append, List.countP_cons, hold]
    omega
  · intro other hother
    rw [hafter] at hother
    rcases List.mem_append.mp hother with hmem | hmem
    · exact h.sound other (hloops ▸ List.mem_append_left _ hmem)
    · rcases List.mem_cons.mp hmem with rfl | hmem
      · exact ha.sound
      · exact h.sound other (hloops ▸ List.mem_append_right _ (List.mem_cons_of_mem _ hmem))

/-- What a loop does to the inbox. -/
theorem Kept.loop (h : Kept s) {e : Processor.Event α} (hstep : step s (.loop i e) = some t) :
    ∃ loop p taken done, s.loops[i]? = some loop ∧ e.puts = false ∧ t = s.after i p ∧
      Processor.step (s.view loop) e = some p ∧ Advances (s.view loop) p taken done := by
  obtain ⟨loop, p, hloop, he, hp, ht⟩ := loop_some hstep
  have hmem : loop ∈ s.loops := List.mem_of_getElem? hloop
  obtain ⟨taken, done, ha⟩ := step_advances (h.room hmem) (h.sound loop hmem) he hp
  exact ⟨loop, p, taken, done, hloop, he, ht, hp, ha⟩

theorem step_kept (h : Kept s) (hstep : step s e = some t) : Kept t := by
  obtain hout | ⟨i, e, rfl⟩ := step_some hstep
  · cases hout with
    | connect => exact h.connect _
    | stop => exact h.put none
    | full => exact h
    | leave i => exact ⟨h.order, h.served, h.count, h.sentinels, h.sound⟩
    | put message => exact h.put _
  · obtain ⟨loop, p, taken, done, hloop, -, rfl, -, ha⟩ := h.loop hstep
    exact h.after hloop ha

theorem fresh_kept : Kept ({} : State α) := ⟨rfl, .refl _, rfl, rfl, nofun⟩

/-! ## What the events tell -/

def Event.message : Event α → Option α
  | put message => some message
  | _ => none

def Event.connects : Event α → Bool
  | connect => true
  | _ => false

/-- What arrived, the loops and what cut them off, as the events tell it. -/
structure Told (es : List (Event α)) (s : State α) : Prop where
  messages : s.arrived.reduceOption = es.filterMap Event.message
  connects : s.loops.length = es.countP Event.connects
  cancels : ∀ i loop, s.loops[i]? = some loop → .loop i .cancelLoop ∉ es → loop.Uncancelled

/-- An event that starts no loop and changes none. -/
theorem Told.same_loops (h : Told es s) (hloops : t.loops = s.loops) (he : e.connects = false)
    (hmessages : t.arrived.reduceOption = s.arrived.reduceOption ++ [e].filterMap Event.message) :
    Told (es ++ [e]) t where
  messages := by rw [hmessages, h.messages, List.filterMap_append]
  connects := by rw [hloops, h.connects, List.countP_append, List.countP_singleton, he]; rfl
  cancels := by
    intro i loop hloop hes
    rw [hloops] at hloop
    exact h.cancels i loop hloop fun hmem => hes (List.mem_append_left _ hmem)

theorem Told.connect (h : Told es s) (processor : Option ℕ) :
    Told (es ++ [.connect]) { s with loops := s.loops ++ [.getting false], processor } where
  messages := by
    rw [List.filterMap_append, ← h.messages]
    exact (List.append_nil _).symm
  connects := by
    show (s.loops ++ [Loop.getting false]).length = _
    rw [List.length_append, h.connects, List.countP_append]
    rfl
  cancels := by
    intro i loop hloop hes
    replace hloop : (s.loops ++ [Loop.getting false])[i]? = some loop := hloop
    by_cases hi : i < s.loops.length
    · rw [List.getElem?_append_left hi] at hloop
      exact h.cancels i loop hloop fun hmem => hes (List.mem_append_left _ hmem)
    · rw [List.getElem?_append_right (Nat.le_of_not_lt hi)] at hloop
      rw [List.mem_singleton.mp (List.mem_of_getElem? hloop)]
      rfl

theorem Told.loop (hk : Kept s) (h : Told es s) {e : Processor.Event α}
    (hstep : step s (.loop i e) = some t) : Told (es ++ [.loop i e]) t := by
  obtain ⟨loop, p, taken, done, hloop, -, rfl, hp, ha⟩ := hk.loop hstep
  refine ⟨?_, ?_, ?_⟩
  · have harrived : p.arrived = s.arrived := ha.arrived
    show p.arrived.reduceOption = _
    rw [harrived, h.messages, List.filterMap_append]
    exact (List.append_nil _).symm
  · show (s.loops.set i p.loop).length = _
    rw [List.length_set, h.connects, List.countP_append]
    rfl
  · intro j other hother hes
    replace hother : (s.loops.set i p.loop)[j]? = some other := hother
    have hold : ∀ j, Event.loop j .cancelLoop ∉ es ++ [.loop i e] → .loop j .cancelLoop ∉ es :=
      fun j hes hmem => hes (List.mem_append_left _ hmem)
    by_cases hij : i = j
    · subst hij
      rw [List.getElem?_set_self (List.getElem?_eq_some_iff.mp hloop).1] at hother
      obtain rfl := Option.some.inj hother
      have he : e.cancelsLoop = false := by
        cases e with
        | cancelLoop => exact absurd (List.mem_append_right _ List.mem_cons_self) hes
        | _ => rfl
      exact step_uncancelled (hk.room (List.mem_of_getElem? hloop)) (h.cancels i loop hloop (hold i hes))
        he hp
    · rw [List.getElem?_set_ne hij] at hother
      exact h.cancels j other hother (hold j hes)

theorem step_told (hk : Kept s) (h : Told es s) (hstep : step s e = some t) : Told (es ++ [e]) t := by
  obtain hout | ⟨i, e, rfl⟩ := step_some hstep
  · cases hout with
    | connect => exact h.connect _
    | stop => exact h.same_loops rfl rfl (List.reduceOption_append _ _)
    | full => exact h.same_loops rfl rfl (List.append_nil _).symm
    | leave i => exact h.same_loops rfl rfl (List.append_nil _).symm
    | put message => exact h.same_loops rfl rfl (List.reduceOption_append _ _)
  · exact h.loop hk hstep

theorem run_told (h : Run step Free {} es t) : Kept t ∧ Told es t := by
  refine h.history (I := fun es s => Kept s ∧ Told es s) ?_ ⟨fresh_kept, rfl, rfl, nofun⟩
  exact fun es s e t hs _ hstep => ⟨step_kept hs.1 hstep, step_told hs.1 hs.2 hstep⟩

/-- What was begun and what waits is what was accepted, in this order. -/
theorem Told.order (h : Told es s) (hk : Kept s) :
    s.begun ++ s.queue.reduceOption = es.filterMap Event.message := hk.order.trans h.messages

/-! ## Which loops are left -/

/-- No loop can go on, and no task of a message is unfinished. -/
def AtRest (s : State α) : Prop := ∀ loop ∈ s.loops, Processor.AtRest (s.view loop)

/-- A loop that is left has emptied the inbox. -/
theorem AtRest.queue (h : AtRest s) {loop : Loop α} (hloop : loop ∈ s.loops)
    (hlives : loop.lives = true) : s.queue = [] := by
  have hrest := h loop hloop
  cases loop with
  | getting asked =>
    have hrun := hrest.loop
    unfold Processor.State.run State.view at hrun
    cases asked with
    | true => cases hrun
    | false =>
      dsimp only at hrun
      split_ifs at hrun with hempty
      exact List.isEmpty_iff.mp hempty
  | serving message task => exact absurd rfl hrest.not_serving
  | ended how => cases hlives

theorem AtRest.current (h : AtRest s) : s.loops.flatMap Loop.current = [] := by
  rw [List.flatMap_eq_nil_iff]
  intro loop hloop
  cases loop with
  | serving message task => exact absurd rfl (h _ hloop).not_serving
  | _ => rfl

theorem count_loops {loops : List (Loop α)} (h : ∀ loop ∈ loops, loop ≠ .ended .failed) :
    loops.countP Loop.lives + loops.countP Loop.stopped + loops.countP Loop.cutOff = loops.length := by
  induction loops with
  | nil => rfl
  | cons loop loops ih =>
    rw [List.forall_mem_cons] at h
    have hone : (if loop.lives then 1 else 0) + (if loop.stopped then 1 else 0) +
        (if loop.cutOff then 1 else 0) = 1 := by
      cases loop with
      | ended how =>
        cases how with
        | failed => exact absurd rfl h.1
        | _ => rfl
      | _ => rfl
    have hrest := ih h.2
    simp only [List.countP_cons, List.length_cons]
    omega

/-- What has become of the messages and of the loops. -/
structure Serves (es : List (Event α)) (s : State α) : Prop where
  order : s.begun ++ s.queue.reduceOption = es.filterMap Event.message
  /-- Each was begun once, by one loop. -/
  once : (s.served.map Prod.fst ++ s.loops.flatMap Loop.current).Perm s.begun
  /-- Only a loop that was cancelled is cut off. -/
  cutOff : ∀ i loop, s.loops[i]? = some loop → loop.cutOff = true → .loop i .cancelLoop ∈ es
  /-- At rest a loop is left if and only if there were more connects than sentinels and loops that were
  cut off. -/
  left : AtRest s → ((∃ loop ∈ s.loops, loop.lives = true) ↔
    s.arrived.countP Option.isNone + s.loops.countP Loop.cutOff < es.countP Event.connects)
  /-- Then all messages have been served. -/
  served : AtRest s → (∃ loop ∈ s.loops, loop.lives = true) →
    (s.served.map Prod.fst).Perm (es.filterMap Event.message)

/-- **What becomes of the messages of an adapter that is connected again and again.** In every run, whoever
is connected, disconnected or cancelled, and however the tasks end. -/
theorem restarts_serve (h : Run step Free {} es t) : Serves es t := by
  obtain ⟨hk, htold⟩ := run_told h
  refine ⟨htold.order hk, hk.served, ?_, ?_, ?_⟩
  · intro i loop hloop hcut
    by_contra hes
    have hu := htold.cancels i loop hloop hes
    cases loop with
    | ended how =>
      obtain rfl : how = .sentinel := hu
      cases hcut
    | _ => cases hcut
  · intro hrest
    have hcount := count_loops hk.sound
    have hsentinels := hk.sentinels
    rw [htold.connects] at hcount
    rw [← List.countP_pos_iff]
    constructor
    · intro hlives
      obtain ⟨loop, hloop, hlive⟩ := List.countP_pos_iff.mp hlives
      rw [hrest.queue hloop hlive, List.countP_nil] at hsentinels
      omega
    · omega
  · rintro hrest ⟨loop, hloop, hlives⟩
    have hperm := hk.served
    have horder := htold.order hk
    rw [hrest.current, List.append_nil] at hperm
    rw [hrest.queue hloop hlives] at horder
    exact hperm.trans (.of_eq ((List.append_nil _).symm.trans horder))

/-- The first loop serves a message whose task has just failed when it is cancelled, and the sentinel of
that disconnect is left to the second loop. -/
def stranded : List (Event ℕ) :=
  [.connect, .put 1, .loop 0 .run, .loop 0 (.turn (.begin_ true)), .stop, .loop 0 .cancelLoop,
    .loop 0 .run, .leave 0, .connect, .loop 1 .run, .put 2]

theorem restarts_serve_stranded : ∃ t : State ℕ, exec step {} stranded = some t ∧ AtRest t ∧
    Serves stranded t ∧ t.queue = [some 2] ∧ ¬ ∃ loop ∈ t.loops, loop.lives = true := by
  have hserves : ∀ {t : State ℕ}, exec step {} stranded = some t → Serves stranded t :=
    fun h => restarts_serve (run_of_exec h)
  refine ⟨_, rfl, ?_, hserves rfl, rfl, by decide⟩
  exact List.forall_mem_cons.mpr ⟨⟨rfl, nofun⟩, List.forall_mem_singleton.mpr ⟨rfl, nofun⟩⟩

/-! ## One at a time -/

theorem step_ended {p q : Processor.State α} {how : Ending} {e : Processor.Event α}
    (hloop : p.loop = .ended how) (he : e.puts = false) (hstep : Processor.step p e = some q) : q = p := by
  have hon : ∀ f, p.onTurn f ≠ some q := by
    intro f hf
    obtain ⟨message, task, turn, hserving, -, -⟩ := onTurn_some hf
    rw [hloop] at hserving
    cases hserving
  cases e with
  | put message => cases he
  | stop => cases he
  | cancelLoop =>
    obtain rfl := Option.some.inj hstep
    rw [hloop]
    exact congrArg (fun l => { p with loop := l }) hloop.symm
  | cancelTurn => exact absurd hstep (hon fun turn => some turn.cancel)
  | cancelSession => exact absurd hstep (hon Turn.cancelSession)
  | turn e => exact absurd hstep (hon (Turn.step e))
  | run =>
    unfold Processor.step Processor.State.run at hstep
    rw [hloop] at hstep
    cases hstep

/-- The adapter is connected only where every loop has ended. -/
def orderly (s : State α) : Event α → Bool
  | .connect => s.loops.all fun loop => !loop.lives
  | _ => true

/-- Only the last loop may live, and it serves in order. -/
structure Single (s : State α) : Prop where
  last : ∀ i loop, s.loops[i]? = some loop → loop.lives = true → i + 1 = s.loops.length
  order : s.served.map Prod.fst ++ s.loops.flatMap Loop.current = s.begun

theorem current_of_not_lives {loop : Loop α} (h : loop.lives = false) : loop.current = [] := by
  cases loop with
  | ended how => rfl
  | _ => cases h

theorem Single.connect (h : Single s) (hended : ∀ loop ∈ s.loops, loop.lives = false)
    (processor : Option ℕ) : Single { s with loops := s.loops ++ [.getting false], processor } where
  last := by
    intro i loop hloop hlives
    replace hloop : (s.loops ++ [Loop.getting false])[i]? = some loop := hloop
    show i + 1 = (s.loops ++ [Loop.getting false]).length
    have hi := (List.getElem?_eq_some_iff.mp hloop).1
    rw [List.length_append, List.length_singleton] at hi ⊢
    by_cases hold : i < s.loops.length
    · rw [List.getElem?_append_left hold] at hloop
      rw [hended loop (List.mem_of_getElem? hloop)] at hlives
      cases hlives
    · omega
  order := by
    show s.served.map Prod.fst ++ (s.loops ++ [Loop.getting false]).flatMap Loop.current = s.begun
    rw [List.flatMap_append, ← h.order]
    exact congrArg _ (List.append_nil _)

/-- No loop before one that lives does, and there is none after it. -/
theorem Single.around (h : Single s) {before after : List (Loop α)} {loop : Loop α}
    (hloops : s.loops = before ++ loop :: after) (hlives : loop.lives = true) :
    (∀ other ∈ before, other.lives = false) ∧ after = [] := by
  have hlast := h.last before.length loop (by rw [hloops]; simp) hlives
  rw [hloops, List.length_append, List.length_cons] at hlast
  refine ⟨fun other hother => Bool.eq_false_iff.mpr fun hlives' => ?_,
    List.length_eq_zero_iff.mp (by omega)⟩
  obtain ⟨i, hi, hget⟩ := List.getElem_of_mem hother
  have hold : s.loops[i]? = some other := by
    rw [hloops, List.getElem?_append_left hi, List.getElem?_eq_getElem hi, hget]
  have hi' := h.last i other hold hlives'
  rw [hloops, List.length_append, List.length_cons] at hi'
  omega

theorem current_of_ended {loops : List (Loop α)} (h : ∀ loop ∈ loops, loop.lives = false) :
    loops.flatMap Loop.current = [] := by
  rw [List.flatMap_eq_nil_iff]
  exact fun loop hloop => current_of_not_lives (h loop hloop)

theorem Single.loop (hk : Kept s) (h : Single s) {e : Processor.Event α}
    (hstep : step s (.loop i e) = some t) : Single t := by
  obtain ⟨loop, p, taken, done, hloop, he, rfl, hp, ha⟩ := hk.loop hstep
  obtain ⟨before, after, hloops, hafter⟩ := after_loops (p := p) hloop
  cases hlives : loop.lives with
  | false =>
    obtain ⟨how, rfl⟩ : ∃ how, loop = .ended how := by
      cases loop with
      | ended how => exact ⟨how, rfl⟩
      | _ => cases hlives
    obtain rfl := step_ended rfl he hp
    have hsame : (s.after i (s.view (.ended how))).loops = s.loops := hafter.trans hloops.symm
    refine ⟨?_, ?_⟩
    · rw [hsame]
      exact h.last
    · rw [hsame]
      exact h.order
  | true =>
    obtain ⟨hbefore, rfl⟩ := h.around hloops hlives
    refine ⟨?_, ?_⟩
    · intro j other hother hlives'
      rw [hafter] at hother ⊢
      have hj := (List.getElem?_eq_some_iff.mp hother).1
      rw [List.length_append, List.length_singleton] at hj ⊢
      by_cases hold : j < before.length
      · rw [List.getElem?_append_left hold] at hother
        rw [hbefore other (List.mem_of_getElem? hother)] at hlives'
        cases hlives'
      · omega
    · show p.served.map Prod.fst ++ (s.after i p).loops.flatMap Loop.current = p.begun
      have hserved : p.served = s.served ++ done := ha.served
      have hbegun : p.begun = s.begun ++ taken.reduceOption := ha.begun
      have hcurrent : done.map Prod.fst ++ p.loop.current = loop.current ++ taken.reduceOption :=
        ha.current
      have horder := h.order
      rw [hloops, List.flatMap_append, current_of_ended hbefore, List.nil_append, List.flatMap_cons,
        List.flatMap_nil, List.append_nil] at horder
      rw [hafter, List.flatMap_append, current_of_ended hbefore, List.nil_append, List.flatMap_cons,
        List.flatMap_nil, List.append_nil, hserved, List.map_append, List.append_assoc, hcurrent,
        ← List.append_assoc, horder, hbegun]

theorem step_single (hk : Kept s) (h : Single s) (he : orderly s e = true) (hstep : step s e = some t) :
    Single t := by
  obtain hout | ⟨i, e, rfl⟩ := step_some hstep
  · cases hout with
    | connect =>
      refine h.connect (fun loop hloop => ?_) _
      have hended := List.all_eq_true.mp he loop hloop
      rwa [Bool.not_eq_true'] at hended
    | stop => exact ⟨h.last, h.order⟩
    | full => exact h
    | leave i => exact ⟨h.last, h.order⟩
    | put message => exact ⟨h.last, h.order⟩
  · exact h.loop hk hstep

theorem Single.current_le (h : Single s) : (s.loops.flatMap Loop.current).length ≤ 1 := by
  by_cases hlives : ∃ loop ∈ s.loops, loop.lives = true
  · obtain ⟨loop, hloop, hlives⟩ := hlives
    obtain ⟨before, after, hloops⟩ := List.append_of_mem hloop
    obtain ⟨hbefore, rfl⟩ := h.around hloops hlives
    rw [hloops, List.flatMap_append, current_of_ended hbefore, List.nil_append, List.flatMap_cons,
      List.flatMap_nil, List.append_nil]
    cases loop <;> simp [Loop.current]
  · rw [current_of_ended fun loop hloop => Bool.eq_false_iff.mpr fun hl => hlives ⟨loop, hloop, hl⟩]
    exact Nat.zero_le 1

/-- **One message at a time.** As long as the adapter is connected only where every earlier loop has
ended, at most one message is being served, and those that were served, that one and those that wait are
the ones that were accepted, in this order. -/
theorem one_at_a_time (h : Run step (fun s e => orderly s e = true) {} es t) :
    (t.loops.flatMap Loop.current).length ≤ 1 ∧
      t.served.map Prod.fst ++ t.loops.flatMap Loop.current ++ t.queue.reduceOption =
        es.filterMap Event.message := by
  have hboth : Kept t ∧ Single t := by
    refine h.invariant (I := fun s => Kept s ∧ Single s) ?_ ⟨fresh_kept, nofun, rfl⟩
    exact fun s e t hs he hstep => ⟨step_kept hs.1 hstep, step_single hs.1 hs.2 he hstep⟩
  have htold := (run_told (h.mono fun _ _ _ => trivial)).2
  refine ⟨hboth.2.current_le, ?_⟩
  rw [hboth.2.order]
  exact htold.order hboth.1

/-- A message comes behind the sentinel, and is served after the next connect. -/
def reconnected : List (Event ℕ) :=
  [.connect, .put 1, .loop 0 .run, .stop, .put 2, .loop 0 (.turn (.begin_ true)), .loop 0 .run,
    .leave 0, .connect, .loop 1 .run, .put 3]

theorem one_at_a_time_reconnected : ∃ t : State ℕ, exec (checked orderly step) {} reconnected = some t ∧
    (t.loops.flatMap Loop.current).length ≤ 1 ∧
    t.served.map Prod.fst ++ t.loops.flatMap Loop.current ++ t.queue.reduceOption = [1, 2, 3] := by
  have hone : ∀ {t : State ℕ}, exec (checked orderly step) {} reconnected = some t →
      (t.loops.flatMap Loop.current).length ≤ 1 ∧
        t.served.map Prod.fst ++ t.loops.flatMap Loop.current ++ t.queue.reduceOption =
          reconnected.filterMap Event.message :=
    fun h => one_at_a_time (run_of_checked h)
  exact ⟨_, rfl, hone rfl⟩

end HermesMesh.Reconnects
