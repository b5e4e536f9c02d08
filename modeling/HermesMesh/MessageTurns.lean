import HermesMesh.ProcessorRuns
import HermesMesh.ReplayWindow
import Mathlib.Data.List.ReduceOption

/-!
# From the request to the turn

The adapter that is connected: the requests of `_handle_mesh` on one side of the inbox, the processor on
the other, in any interleaving, up to the moment where `disconnect` puts its sentinel there. For the
intake the processor is the one that takes (`gateway_intake`). What was answered 202 is what was begun
and what still waits, in the order in which it was taken in (`accepted_get_turns`).
-/

namespace HermesMesh.Intake

open Lib

variable {cfg : Config} {kit : Kit} {meets : Meets} {p : Pending} {parsed : Parsed}
  {s t : Adapter} {e : Event}

/-! ## What the intake puts into the inbox -/

def Event.takes : Event → Bool
  | .take => true
  | _ => false

/-- The intake leaves the inbox, or puts one message there for which there is room. -/
def Puts (s t : Adapter) : Prop :=
  (t.inbox = s.inbox ∧ t.accepted = s.accepted) ∨
    ∃ event a, t.inbox = s.inbox ++ [event] ∧ t.accepted = a :: s.accepted ∧
      event.messageId = a.messageId ∧ s.inbox.length < inboxSize

/-- An event that is built carries the id of its message, and a source that depends on the target
session. -/
theorem buildEvent_ok {event : MessageEvent} (h : buildEvent cfg kit parsed = .ok event) :
    event.messageId = parsed.msgId ∧
      match effectiveTarget cfg parsed.session with
      | some target => routedSource cfg kit parsed.sender target = .ok event.source
      | none => event.source = meshSource parsed.sender parsed.msgId := by
  unfold buildEvent at h
  cases htarget : effectiveTarget cfg parsed.session with
  | none =>
    rw [htarget] at h
    obtain rfl := Except.ok.inj h
    exact ⟨rfl, rfl⟩
  | some target =>
    rw [htarget] at h
    obtain ⟨source, hrouted, hsource⟩ := bind_ok h
    obtain rfl := Except.ok.inj hsource
    exact ⟨rfl, hrouted⟩

theorem enqueue_puts (cfg : Config) (kit : Kit) (meets : Meets) (p : Pending) (parsed : Parsed)
    (s : Adapter) : Puts s (enqueue cfg kit meets p parsed s).2 := by
  have hbooks := recordAnchor_books kit meets parsed s
  unfold enqueue
  split_ifs
  · exact .inl ⟨rfl, rfl⟩
  generalize recordAnchor kit meets parsed s = recorded at hbooks
  simp only [Adapter.books, Prod.mk.injEq] at hbooks
  obtain ⟨-, haccepted, -, -, hinbox, -⟩ := hbooks
  obtain ⟨e | ⟨⟩, s'⟩ := recorded
  · exact .inl ⟨hinbox, haccepted⟩
  · dsimp only at haccepted hinbox ⊢
    cases hevent : buildEvent cfg kit parsed with
    | error e => exact .inl ⟨hinbox, haccepted⟩
    | ok event =>
      dsimp only
      split_ifs with hfull
      · exact .inl ⟨hinbox, haccepted⟩
      · refine .inr ⟨event, ⟨p.request, parsed.msgId, meets.seenAt, meets.sweptAt⟩, ?_, ?_,
          (buildEvent_ok hevent).1, ?_⟩
        · rw [← hinbox]
          rfl
        · rw [← haccepted]
          rfl
        · rw [← hinbox]
          exact not_le.mp hfull

theorem takeIn_puts (cfg : Config) (kit : Kit) (meets : Meets) (p : Pending) (s : Adapter) :
    Puts s (takeIn cfg kit meets p s).2 := by
  have hbooks := screen_books cfg kit meets p s
  unfold takeIn
  generalize screen cfg kit meets p s = screened at hbooks
  simp only [Adapter.books, Prod.mk.injEq] at hbooks
  obtain ⟨-, haccepted, -, -, hinbox, -⟩ := hbooks
  obtain ⟨answer | parsed, s'⟩ := screened
  · exact .inl ⟨hinbox, haccepted⟩
  · have hputs := enqueue_puts cfg kit meets p parsed s'
    unfold Puts at hputs ⊢
    dsimp only at haccepted hinbox
    rwa [← haccepted, ← hinbox]

/-- Every step of the intake but the one that takes. -/
theorem step_puts (he : e.takes = false) (hstep : step cfg kit s e = some t) : Puts s t := by
  cases e with
  | arrive conn request publicKey now =>
    obtain ⟨-, ⟨p, -, rfl⟩ | ⟨answer, -, rfl⟩⟩ := step_arrive hstep
    · exact .inl ⟨rfl, rfl⟩
    · exact .inl ⟨rfl, rfl⟩
  | resume conn meets =>
    obtain ⟨p, -, hstep⟩ := Option.bind_eq_some_iff.mp hstep
    split_ifs at hstep
    obtain rfl := Option.some.inj hstep
    by_cases hpass : p.passes kit
    · rw [resume_passes hpass]
      exact takeIn_puts cfg kit meets p { s with clock := meets.sweptAt }
    · obtain ⟨answers, waits, -, -, heq⟩ := resume_fails cfg conn meets
        { s with clock := meets.sweptAt } hpass
      rw [heq]
      exact .inl ⟨rfl, rfl⟩
  | take => cases he
  | closedElsewhere file =>
    obtain rfl := Option.some.inj hstep
    exact .inl ⟨rfl, rfl⟩

end HermesMesh.Intake

namespace HermesMesh.Processor

open Lib

variable {α : Type} {s t : State α} {e : Event α}

/-! ## What the processor takes out of it -/

/-- Everything but a put leaves the inbox, or takes its first item. -/
theorem step_takes (he : e.puts = false) (hstep : step s e = some t) :
    t.queue = s.queue ∨ ∃ item, s.queue = item :: t.queue := by
  have hnext : ∀ s' : State α, s'.next.queue = s'.queue ∨ ∃ item, s'.queue = item :: s'.next.queue := by
    intro s'
    unfold State.next
    split
    · exact .inl rfl
    · rename_i rest hqueue
      unfold State.taskDone
      split_ifs <;> exact .inr ⟨_, hqueue⟩
    · rename_i message rest hqueue
      exact .inr ⟨_, hqueue⟩
  have hon : ∀ f, s.onTurn f = some t → t.queue = s.queue := by
    intro f hf
    obtain ⟨message, task, turn, -, -, rfl⟩ := onTurn_some hf
    rfl
  cases e with
  | put message => cases he
  | stop => cases he
  | cancelLoop =>
    obtain rfl := Option.some.inj hstep
    exact .inl rfl
  | cancelTurn => exact .inl (hon (fun turn => some turn.cancel) hstep)
  | cancelSession => exact .inl (hon Turn.cancelSession hstep)
  | turn e => exact .inl (hon (Turn.step e) hstep)
  | run =>
    obtain ⟨-, rfl⟩ | ⟨-, -, rfl⟩ | ⟨message, task, outcome, ended, -, -, -, hways⟩ := run_some hstep
    · exact .inl rfl
    · exact hnext s
    · obtain ⟨-, -, rfl⟩ | ⟨-, rfl⟩ := hways
      · unfold State.taskDone
        split_ifs <;> exact .inl rfl
      · unfold State.taskDone
        split_ifs
        · exact .inl rfl
        · exact hnext _

/-- Nothing else is put into it. -/
theorem step_arrived (he : e.puts = false) (hstep : step s e = some t) : t.arrived = s.arrived := by
  have hnext : ∀ s' : State α, s'.next.arrived = s'.arrived := by
    intro s'
    unfold State.next
    split
    · rfl
    · unfold State.taskDone
      split_ifs <;> rfl
    · rfl
  have hon : ∀ f, s.onTurn f = some t → t.arrived = s.arrived := by
    intro f hf
    obtain ⟨message, task, turn, -, -, rfl⟩ := onTurn_some hf
    rfl
  cases e with
  | put message => cases he
  | stop => cases he
  | cancelLoop =>
    obtain rfl := Option.some.inj hstep
    rfl
  | cancelTurn => exact hon (fun turn => some turn.cancel) hstep
  | cancelSession => exact hon Turn.cancelSession hstep
  | turn e => exact hon (Turn.step e) hstep
  | run =>
    obtain ⟨-, rfl⟩ | ⟨-, -, rfl⟩ | ⟨message, task, outcome, ended, -, -, -, hways⟩ := run_some hstep
    · rfl
    · exact hnext s
    · obtain ⟨-, -, rfl⟩ | ⟨-, rfl⟩ := hways
      · unfold State.taskDone
        split_ifs <;> rfl
      · unfold State.taskDone
        split_ifs
        · rfl
        · exact hnext _

end HermesMesh.Processor

namespace HermesMesh.Turns

open Lib Intake

/-! ## Both together -/

/-- The adapter and the processor of its inbox. -/
structure Gateway where
  adapter : Adapter
  processor : Processor.State MessageEvent := {}

inductive Event where
  /-- A request, or another process. -/
  | request (e : Intake.Event)
  /-- The loop, the task of a message, or whoever cancels one of them. -/
  | processor (e : Processor.Event MessageEvent)

/-- What the intake puts into the inbox is put there for the processor, and what the processor takes
is gone from the intake's. -/
def step (cfg : Config) (kit : Kit) (g : Gateway) : Event → Option Gateway
  | .request e =>
    if e.takes then none
    else (Intake.step cfg kit g.adapter e).map fun adapter =>
      { adapter
        processor := (adapter.inbox.drop g.adapter.inbox.length).foldl
          (fun processor message => processor.put (some message)) g.processor }
  | .processor e =>
    if e.puts then none
    else (Processor.step g.processor e).map fun processor =>
      { adapter := { g.adapter with inbox := processor.queue.reduceOption }
        processor }

variable {cfg : Config} {kit : Kit} {g g' : Gateway} {e : Event} {es : List Event}

/-- The two sides see the same inbox. -/
def Coupled (g : Gateway) : Prop := g.processor.queue = g.adapter.inbox.map some

theorem reduceOption_map_some {α : Type} (l : List α) : (l.map some).reduceOption = l := by
  unfold List.reduceOption
  rw [List.filterMap_map]
  exact List.filterMap_some

/-- A request leaves the processor alone, or gives it one message. -/
theorem step_request {e : Intake.Event} (hstep : step cfg kit g (.request e) = some g') :
    e.takes = false ∧ Intake.step cfg kit g.adapter e = some g'.adapter ∧
      ((g'.adapter.inbox = g.adapter.inbox ∧ g'.adapter.accepted = g.adapter.accepted ∧
          g'.processor = g.processor) ∨
        ∃ event a, g'.adapter.inbox = g.adapter.inbox ++ [event] ∧
          g'.adapter.accepted = a :: g.adapter.accepted ∧ event.messageId = a.messageId ∧
          g.adapter.inbox.length < inboxSize ∧ g'.processor = g.processor.put (some event)) := by
  unfold step at hstep
  dsimp only at hstep
  split_ifs at hstep with he
  rw [Bool.not_eq_true] at he
  obtain ⟨adapter, hadapter, rfl⟩ := Option.map_eq_some_iff.mp hstep
  refine ⟨he, hadapter, ?_⟩
  obtain ⟨hinbox, haccepted⟩ | ⟨event, a, hinbox, haccepted, hid, hroom⟩ := step_puts he hadapter
  · refine .inl ⟨hinbox, haccepted, ?_⟩
    rw [hinbox, List.drop_length]
    rfl
  · refine .inr ⟨event, a, hinbox, haccepted, hid, hroom, ?_⟩
    rw [hinbox, List.drop_left]
    rfl

/-- The processor leaves the adapter alone, or takes its first message. -/
theorem step_processor (hg : Coupled g) {e : Processor.Event MessageEvent}
    (hstep : step cfg kit g (.processor e) = some g') :
    e.puts = false ∧ Processor.step g.processor e = some g'.processor ∧
      (g'.adapter = g.adapter ∨ g'.adapter = { g.adapter with inbox := g.adapter.inbox.tail }) ∧
      Coupled g' := by
  unfold step at hstep
  dsimp only at hstep
  split_ifs at hstep with he
  rw [Bool.not_eq_true] at he
  obtain ⟨processor, hprocessor, rfl⟩ := Option.map_eq_some_iff.mp hstep
  refine ⟨he, hprocessor, ?_⟩
  unfold Coupled at hg ⊢
  obtain hqueue | ⟨item, hqueue⟩ := Processor.step_takes he hprocessor
  · have hinbox : processor.queue.reduceOption = g.adapter.inbox := by
      rw [hqueue, hg, reduceOption_map_some]
    refine ⟨.inl ?_, ?_⟩
    · rw [hinbox]
    · rw [hinbox, hqueue, hg]
  · have htail : processor.queue = g.adapter.inbox.tail.map some := by
      rw [List.map_tail, ← hg, hqueue, List.tail_cons]
    have hinbox : processor.queue.reduceOption = g.adapter.inbox.tail := by
      rw [htail, reduceOption_map_some]
    refine ⟨.inr ?_, ?_⟩
    · rw [hinbox]
    · rw [hinbox, htail]

theorem step_coupled (hg : Coupled g) (hstep : step cfg kit g e = some g') : Coupled g' := by
  cases e with
  | request e =>
    obtain ⟨-, -, ⟨hinbox, -, hprocessor⟩ | ⟨event, a, hinbox, -, -, -, hprocessor⟩⟩ :=
      step_request hstep
    · unfold Coupled at hg ⊢
      rw [hprocessor, hinbox, hg]
    · unfold Coupled at hg ⊢
      rw [hprocessor, hinbox, List.map_append, ← hg]
      rfl
  | processor e => exact (step_processor hg hstep).2.2.2

/-- A guard of the intake, on the requests of the gateway. -/
def Guarded (G : Adapter → Intake.Event → Prop) (g : Gateway) : Event → Prop
  | .request e => G g.adapter e
  | .processor _ => True

/-- **The gateway is an intake.** A step of the processor is no step of the intake, or it takes. -/
theorem gateway_intake {G : Adapter → Intake.Event → Prop} (htake : ∀ s, G s .take) (hg : Coupled g)
    (h : Run (step cfg kit) (Guarded G) g es g') :
    ∃ fs, Run (Intake.step cfg kit) G g.adapter fs g'.adapter ∧
      ∀ e ∈ fs, e.takes = false → .request e ∈ es := by
  induction h with
  | nil g => exact ⟨[], .nil _, fun _ h => absurd h List.not_mem_nil⟩
  | @cons g g₁ g₂ e es hguard hstep _ ih =>
    obtain ⟨fs, hfs, hmem⟩ := ih (step_coupled hg hstep)
    have hlater : ∀ f ∈ fs, f.takes = false → .request f ∈ e :: es :=
      fun f hf htakes => List.mem_cons_of_mem _ (hmem f hf htakes)
    cases e with
    | request e =>
      refine ⟨e :: fs, .cons hguard (step_request hstep).2.1 hfs, ?_⟩
      exact List.forall_mem_cons.mpr ⟨fun _ => List.mem_cons_self, hlater⟩
    | processor e =>
      obtain ⟨-, -, hsame | htakes, -⟩ := step_processor hg hstep
      · rw [hsame] at hfs
        exact ⟨fs, hfs, hlater⟩
      · rw [htakes] at hfs
        exact ⟨.take :: fs, .cons (htake _) rfl hfs, List.forall_mem_cons.mpr ⟨nofun, hlater⟩⟩

/-! ## In turn -/

/-- The gateway as `connect` leaves it. -/
structure Opened (g : Gateway) : Prop where
  accepted : g.adapter.accepted = []
  inbox : g.adapter.inbox = []
  processor : g.processor = {}

/-- The ids that were answered 202, in the order in which they were taken in. -/
def Gateway.acceptedIds (g : Gateway) : List String := g.adapter.accepted.reverse.map (·.messageId)

/-- The processor was given what was accepted, and keeps it. -/
structure InTurn (g : Gateway) : Prop where
  coupled : Coupled g
  kept : Processor.Kept g.processor
  arrived : ∃ messages : List MessageEvent, g.processor.arrived = messages.map some ∧
    messages.map (·.messageId) = g.acceptedIds

def Event.cancelsLoop : Event → Bool
  | request _ => false
  | processor e => e.cancelsLoop

theorem Opened.inTurn (h : Opened g) : InTurn g where
  coupled := by
    unfold Coupled
    rw [h.processor, h.inbox]
    rfl
  kept := h.processor ▸ Processor.fresh_kept
  arrived := by
    refine ⟨[], ?_, ?_⟩
    · rw [h.processor]
      rfl
    · unfold Gateway.acceptedIds
      rw [h.accepted]
      rfl

theorem step_inTurn (h : InTurn g) (hstep : step cfg kit g e = some g') : InTurn g' := by
  refine ⟨step_coupled h.coupled hstep, ?_, ?_⟩
  · cases e with
    | request e =>
      obtain ⟨-, -, ⟨-, -, hprocessor⟩ | ⟨event, a, -, -, -, -, hprocessor⟩⟩ := step_request hstep
      · rw [hprocessor]
        exact h.kept
      · rw [hprocessor]
        exact h.kept.put _
    | processor e => exact Processor.step_kept h.kept (step_processor h.coupled hstep).2.1
  · obtain ⟨messages, harrived, hids⟩ := h.arrived
    unfold Gateway.acceptedIds at hids ⊢
    cases e with
    | request e =>
      obtain ⟨-, -, ⟨-, haccepted, hprocessor⟩ | ⟨event, a, -, haccepted, hid, -, hprocessor⟩⟩ :=
        step_request hstep
      · refine ⟨messages, ?_, ?_⟩
        · rw [hprocessor, harrived]
        · rw [haccepted, hids]
      · refine ⟨messages ++ [event], ?_, ?_⟩
        · rw [hprocessor, List.map_append, ← harrived]
          rfl
        · rw [haccepted, List.reverse_cons, List.map_append, List.map_append, hids]
          exact congrArg (_ ++ [·]) hid
    | processor e =>
      obtain ⟨he, hprocessor, hadapter, -⟩ := step_processor h.coupled hstep
      refine ⟨messages, ?_, ?_⟩
      · rw [Processor.step_arrived he hprocessor, harrived]
      · obtain hsame | htakes := hadapter
        · rw [hsame, hids]
        · rw [htakes, hids]

theorem step_uncancelled (h : InTurn g) (hu : g.processor.loop.Uncancelled)
    (he : e.cancelsLoop = false) (hstep : step cfg kit g e = some g') :
    g'.processor.loop.Uncancelled := by
  cases e with
  | request e =>
    obtain ⟨-, -, ⟨-, -, hprocessor⟩ | ⟨event, a, -, -, -, -, hprocessor⟩⟩ := step_request hstep
    · rwa [hprocessor]
    · rwa [hprocessor]
  | processor e =>
    exact Processor.step_uncancelled h.kept.room hu he (step_processor h.coupled hstep).2.1

/-- What was begun and what waits is what was accepted. -/
theorem InTurn.order (h : InTurn g) :
    (g.processor.begun ++ g.adapter.inbox).map (·.messageId) = g.acceptedIds := by
  obtain ⟨messages, harrived, hids⟩ := h.arrived
  have horder := h.kept.order
  rw [h.coupled, harrived] at horder
  have hmessages : g.processor.begun ++ (g.processor.loop.taken.reduceOption ++ g.adapter.inbox) =
      messages := by
    have heq := congrArg List.reduceOption horder
    rwa [List.reduceOption_append, List.reduceOption_append, reduceOption_map_some,
      reduceOption_map_some, reduceOption_map_some] at heq
  have htaken : g.processor.loop.taken.reduceOption = [] := by
    unfold Processor.Loop.taken
    split <;> rfl
  rw [← hids, ← hmessages, htaken, List.nil_append]

theorem run_uncancelled (h0 : Opened g) (hrun : Run (step cfg kit) Free g es g')
    (hes : ∀ e ∈ es, e.cancelsLoop = false) : InTurn g' ∧ g'.processor.loop.Uncancelled := by
  refine (hrun.of_forall hes).invariant (I := fun g => InTurn g ∧ g.processor.loop.Uncancelled) ?_
    ⟨h0.inTurn, ?_⟩
  · exact fun g e g₁ h he hstep => ⟨step_inTurn h.1 hstep, step_uncancelled h.1 h.2 he hstep⟩
  · rw [h0.processor]
    rfl

/-- At rest the messages that came are the ones that were served. -/
theorem InTurn.all_served (h : InTurn g) (hu : g.processor.loop.Uncancelled)
    (hrest : Processor.AtRest g.processor) {messages : List MessageEvent}
    (harrived : g.processor.arrived = messages.map some) :
    g.processor.served.map Prod.fst = messages := by
  have hserved := (h.kept.allServed hu hrest).served
  have hall : ∀ x ∈ messages.map some, Option.isSome x = true := by simp
  rw [harrived, List.takeWhile_eq_self_iff.mpr hall] at hserved
  apply List.map_injective_iff.mpr (Option.some_injective _)
  rw [List.map_map]
  exact hserved

/-- **Every message that was answered 202 gets its own turn.** In every run of the connected adapter the
messages that were begun and those that wait in the inbox are the accepted ones, each once and in the
order in which they were accepted, and at most one that was begun is unfinished. At rest all of them
have been served, whichever of them were cancelled or failed, unless the loop itself was cancelled. -/
theorem accepted_get_turns (h0 : Opened g) (hrun : Run (step cfg kit) Free g es g') :
    (g'.processor.begun ++ g'.adapter.inbox).map (·.messageId) = g'.acceptedIds ∧
      g'.processor.served.map Prod.fst ++ g'.processor.loop.current = g'.processor.begun ∧
      ((∀ e ∈ es, e.cancelsLoop = false) → Processor.AtRest g'.processor →
        g'.processor.served.map (fun x => x.1.messageId) = g'.acceptedIds) := by
  have hturn : InTurn g' :=
    hrun.invariant (fun _ _ _ h _ hstep => step_inTurn h hstep) h0.inTurn
  refine ⟨hturn.order, hturn.kept.served, fun hes hrest => ?_⟩
  obtain ⟨messages, harrived, hids⟩ := hturn.arrived
  rw [← hids, ← hturn.all_served (run_uncancelled h0 hrun hes).2 hrest harrived, List.map_map]
  rfl

/-- The requests and the turn of one message, up to its session. -/
def oneTurn : List Event :=
  [.request (.arrive 0 (signedNotice "1300" "m1") (fun _ => "key") 1000),
    .request (.resume 0 { rateAt := 1000, seenAt := 1000, sweptAt := 1000 }), .processor .run,
    .processor (.turn (.begin_ false)), .processor (.turn (.recovered .session)),
    .processor .cancelTurn, .processor (.turn (.sessionEnds .cancelled)), .processor (.turn .wake),
    .processor .run]

theorem accepted_get_turns_notice : ∃ g, exec (step vera sampleKit) ⟨freshAdapter, {}⟩ oneTurn = some g ∧
    Processor.AtRest g.processor ∧ g.acceptedIds = ["m1"] ∧
    g.processor.served.map (fun x => x.1.messageId) = g.acceptedIds := by
  have hends : (exec (step vera sampleKit) ⟨freshAdapter, {}⟩ oneTurn).map (fun g =>
      (g.processor.run.isNone, g.processor.loop.current.length, g.acceptedIds)) =
      some (true, 0, ["m1"]) := by
    decide +kernel
  obtain ⟨g, hg, hends⟩ := Option.map_eq_some_iff.mp hends
  simp only [Prod.mk.injEq, Option.isNone_iff_eq_none, List.length_eq_zero_iff] at hends
  obtain ⟨hrun, hcurrent, hids⟩ := hends
  have hrest : Processor.AtRest g.processor := by
    refine ⟨hrun, fun message task hloop => ?_⟩
    rw [hloop] at hcurrent
    cases hcurrent
  exact ⟨g, hg, hrest, hids,
    (accepted_get_turns ⟨rfl, rfl, rfl⟩ (run_of_exec hg)).2.2 (by simp [oneTurn, Event.cancelsLoop,
      Processor.Event.cancelsLoop]) hrest⟩

end HermesMesh.Turns
