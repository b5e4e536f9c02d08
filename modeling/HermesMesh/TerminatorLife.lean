import HermesMesh.DeliveryCalls
import HermesMesh.Lib.Runs
import HermesMesh.LateTerminators

/-!
# The life of a terminator

A terminator whose live attempt failed with the outbox on, from its send to its end: delivered by a
later sweep, dropped because the thread that it answers was closed, or dead. Between any two steps of
it other processes may use the registry, and anything else may happen. Its anchor is closed for
`is_closed` while a delivery is under way, and for ever once one is confirmed, and open otherwise
(`closed_means_delivered`).
-/

namespace HermesMesh.Terminator

open Lib Retry Threads

/-- How far the message has come. -/
inductive Stage where
  | fresh
  /-- The live delivery is under way. -/
  | sending (pid : ℕ) (env : Env) (sending : Sending)
  | waiting (item : List (String × Json))
  /-- The delivery of a retry is under way. -/
  | retrying (pid : ℕ) (s : Sweep) (m : Meets) (item : List (String × Json)) (count : ℚ)
      (p : Posting)
  | delivered
  | dropped
  | dead

/-- A host, as far as the message is concerned: what its processes share, and their snapshots of the
registry. -/
structure State where
  world : World
  caches : ℕ → Cache
  stage : Stage := .fresh

inductive Event where
  /-- The call that sends the message, up to its delivery. -/
  | send (pid : ℕ) (env : Env) (args kwargs : List (String × Json))
  /-- The live delivery ends, and with it the call. -/
  | sent
  /-- A sweep comes to the item. -/
  | turn (pid : ℕ) (s : Sweep) (m : Meets)
  /-- The delivery of the retry ends, and with it the turn. -/
  | settle
  /-- Any other use of the registry. -/
  | call (pid : ℕ) (op : Op) (stamp : Time)
  | restart (pid : ℕ)
  /-- Whatever happens beside the registry. -/
  | drift (w : World)

/-- The process in whose hands the message is. -/
def Stage.pid : Stage → Option ℕ
  | sending pid .. | retrying pid .. => some pid
  | _ => none

/-- What a process sees. -/
def State.view (s : State) (pid : ℕ) : World :=
  { s.world with closed := ⟨s.world.closed.file, s.caches pid⟩ }

/-- What a process leaves behind. -/
def State.after (s : State) (pid : ℕ) (w : World) (stage : Stage) : State :=
  ⟨w, Function.update s.caches pid w.closed.cache, stage⟩

/-- Where the item is after a turn: `gone` says why a file that is gone has gone. -/
def afterTurn (item : List (String × Json)) (gone : Stage) : Turn → Stage
  | .removed => gone
  | .buried => .dead
  | .postponed item' => .waiting item'
  | .skipped | .raised _ => .waiting item

/-- One step. The message is a terminator with this id, and its live attempt ends in the outbox. -/
def step (valid : TokenRule) (anchor : String) (s : State) : Event → Option State
  | .send pid env args kwargs =>
    match s.stage, beginSend env args kwargs (s.view pid) with
    | .fresh, (.inr sending, w) =>
      if sending.mail.taskId = anchor ∧ sending.mail.reply = .end_ then
        some (s.after pid w (.sending pid env sending))
      else none
    | _, _ => none
  | .sent =>
    match s.stage with
    | .sending pid env sending =>
      match settleSend env sending (s.view pid) with
      | (.ok resp, w) =>
        if resp.state = some "queued" then
          w.outbox.head?.map fun item => s.after pid w (.waiting item.fields)
        else none
      | _ => none
    | _ => none
  | .turn pid sweep m =>
    match s.stage with
    | .waiting item =>
      match sweep.beginTurn m item (s.view pid) with
      | (.over turn, w) => some (s.after pid w (afterTurn item .dropped turn))
      | (.calling count p, w) => some (s.after pid w (.retrying pid sweep m item count p))
    | _ => none
  | .settle =>
    match s.stage with
    | .retrying pid sweep m item count p =>
      let (turn, w) := sweep.settleTurn m item count p (s.view pid)
      some (s.after pid w (afterTurn item .delivered turn))
    | _ => none
  | .call pid op stamp =>
    let v := op.run valid stamp (s.view pid).closed
    some (s.after pid { s.world with closed := v } s.stage)
  | .restart pid =>
    if s.stage.pid = some pid then none
    else some { s with caches := Function.update s.caches pid {} }
  | .drift w => some { s with world := { w with closed := s.world.closed } }

/-- `is_closed` of the message's id, asked in a process. -/
def State.closedIn (valid : TokenRule) (anchor : String) (s : State) (pid : ℕ) : Bool :=
  (Threads.isClosed valid {} (some anchor) (s.view pid).closed).1

/-! ## The assumptions -/

/-- The call writes about the anchor. -/
def Names (anchor : String) : Op → Prop
  | .record _ a _ _ | .promote a | .withdraw a => a = anchor
  | .isClosed _ => False

/-- The registry works, and nobody else writes about the anchor before its close is confirmed. -/
def Calm (valid : TokenRule) (anchor : String) (s : State) : Event → Prop
  | .send _ env _ _ => env.Works valid
  | .turn _ _ m => m.Works valid
  | .call _ op _ => Names anchor op → s.stage = .delivered
  | _ => True

/-- The process that an event writes as, and the mtimes of its writes. -/
def State.writes (s : State) : Event → Option (ℕ × List Time)
  | .send pid env _ _ => some (pid, env.stamps)
  | .sent =>
    match s.stage with
    | .sending pid env _ => some (pid, env.stamps)
    | _ => none
  | .turn pid _ m => some (pid, m.stamps)
  | .settle =>
    match s.stage with
    | .retrying pid _ m .. => some (pid, m.stamps)
    | _ => none
  | .call pid _ stamp => some (pid, [stamp])
  | .restart _ | .drift _ => none

/-- The writes of other processes give the file mtimes that this process's snapshot does not carry. -/
def Seen (pid : ℕ) (s : State) (e : Event) : Prop :=
  ∀ writer stamps, s.writes e = some (writer, stamps) → writer ≠ pid →
    ∀ stamp ∈ stamps, (s.caches pid).mtime ≠ some stamp

/-- What is assumed of every step. -/
def Guard (valid : TokenRule) (anchor : String) (pid : ℕ) (s : State) (e : Event) : Prop :=
  Calm valid anchor s e ∧ Seen pid s e

/-- The message has not been sent, its anchor is not in the log, and the process has just started. -/
structure Start (valid : TokenRule) (anchor : String) (pid : ℕ) (s : State) : Prop where
  stage : s.stage = .fresh
  wellformed : Wellformed valid s.world.closed.file.entries
  absent : ∀ entry ∈ s.world.closed.file.entries, ofAnchor anchor entry = false
  unloaded : (s.caches pid).loaded = false

/-! ## The invariant -/

/-- What the log says about the anchor at every stage. -/
def Stage.status : Stage → Status
  | .fresh | .waiting _ | .dropped | .dead => .open_
  | .sending .. | .retrying .. => .pending
  | .delivered => .closed

/-- What the message carries with it. -/
def Stage.Carries (valid : TokenRule) (anchor : String) : Stage → Prop
  | .sending _ env out => env.Works valid ∧ out.mail.taskId = anchor ∧ out.mail.reply = .end_ ∧
      valid out.mail.self = true
  | .waiting item => ItemOf valid anchor item
  | .retrying _ _ m item _ p => m.Works valid ∧ ItemOf valid anchor item ∧ p.anchor = .str anchor
  | _ => True

structure Inv (valid : TokenRule) (anchor : String) (pid : ℕ) (s : State) : Prop where
  wellformed : Wellformed valid s.world.closed.file.entries
  status : status anchor s.world.closed.file.entries = s.stage.status
  snapshot : Snapshot valid s.world.closed.file (s.caches pid)
  carries : s.stage.Carries valid anchor

variable {valid : TokenRule} {anchor : String} {pid writer : ℕ} {s t u : State} {e : Event}
  {stage : Stage} {w : World} {ops : List Op} {stamps : List Time}

theorem Start.inv (h : Start valid anchor pid s) : Inv valid anchor pid s where
  wellformed := h.wellformed
  status := by
    rw [h.stage]
    by_contra hne
    obtain ⟨entry, hmem, hentry⟩ := List.any_eq_true.mp (status_ne_open.mp hne)
    rw [h.absent entry hmem] at hentry
    cases hentry
  snapshot hloaded := by
    rw [h.unloaded] at hloaded
    cases hloaded
  carries := by
    rw [h.stage]
    trivial

/-- Where the snapshot is one of the log, `is_closed` answers by the stage. -/
theorem Inv.closedIn (h : Inv valid anchor pid s) :
    s.closedIn valid anchor pid = true ↔ s.stage.status ≠ .open_ := by
  rw [← h.status]
  exact isClosed_iff (v := (s.view pid).closed) h.wellformed h.snapshot

/-- A stretch of registry calls that takes the anchor to the status of the next stage. -/
theorem Inv.calls (hempty : valid "" = false) (h : Inv valid anchor pid s)
    (hseen : writer ≠ pid → ∀ stamp ∈ stamps, (s.caches pid).mtime ≠ some stamp)
    (hcalls : Calls valid (· ∈ stamps) (s.view writer).closed ops w.closed)
    (hstatus : acts valid anchor ops s.stage.status = stage.status)
    (hcarries : stage.Carries valid anchor) : Inv valid anchor pid (s.after writer w stage) where
  wellformed := hcalls.wellformed hempty h.wellformed
  status := by
    have hlog : Threads.status anchor w.closed.file.entries =
        acts valid anchor ops (Threads.status anchor (s.view writer).closed.file.entries) :=
      hcalls.status hempty h.wellformed
    exact hlog.trans ((congrArg _ h.status).trans hstatus)
  snapshot := by
    unfold State.after
    dsimp only
    by_cases hpid : pid = writer
    · subst hpid
      rw [Function.update_self]
      exact hcalls.own hempty h.wellformed h.snapshot
    · rw [Function.update_of_ne hpid]
      exact hcalls.other hempty (hseen (Ne.symm hpid)) h.wellformed h.snapshot
  carries := hcarries

/-! ## One step -/

theorem send_inv (hempty : valid "" = false) (hanchor : valid anchor = true) {env : Env}
    {args kwargs : List (String × Json)} (h : Inv valid anchor pid s)
    (hg : Guard valid anchor pid s (.send writer env args kwargs))
    (hs : step valid anchor s (.send writer env args kwargs) = some t) : Inv valid anchor pid t := by
  unfold step at hs
  dsimp only at hs
  split at hs
  · rename_i sending w hstage hbegin
    split_ifs at hs with hmail
    obtain rfl := Option.some.inj hs
    obtain ⟨rfl, hend⟩ := hmail
    obtain ⟨ref, hcalls⟩ := beginSend_calls hg.1 (fun _ hstamp => hstamp) hend hbegin
    obtain ⟨w₀, held, w₁, hprep, -, -⟩ := beginSend_sending hbegin
    have hself := hg.1.self _ (prepare_self hprep)
    refine h.calls hempty (hg.2 _ _ rfl) hcalls ?_ ⟨hg.1, rfl, hend, hself⟩
    rw [hstage]
    simp [Stage.status, Op.act, hanchor, hself]
  · cases hs

theorem sent_inv (hempty : valid "" = false) (hanchor : valid anchor = true)
    (h : Inv valid anchor pid s) (hg : Guard valid anchor pid s .sent)
    (hs : step valid anchor s .sent = some t) : Inv valid anchor pid t := by
  have hseen := hg.2
  have hcarries := h.carries
  unfold Seen State.writes at hseen
  unfold step at hs
  cases hstage : s.stage with
  | sending writer env sending =>
    rw [hstage] at hs hseen hcarries
    obtain ⟨hworks, rfl, hend, hself⟩ := hcarries
    dsimp only at hs
    split at hs
    · rename_i resp w hsettle
      split_ifs at hs with hqueued
      obtain ⟨hcalls, hitem⟩ :=
        settleSend_queued hworks (fun _ hstamp => hstamp) hend hsettle hqueued
      rw [hitem] at hs
      obtain rfl := Option.some.inj hs
      refine h.calls hempty (hseen _ _ rfl) hcalls ?_ ⟨?_, sending.mail.self, rfl, hself⟩
      · rw [hstage]
        simp [Stage.status, Op.act]
      · unfold Env.queuedItem
        rw [if_pos hend]
        rfl
    · cases hs
  | fresh | waiting | retrying | delivered | dropped | dead =>
    rw [hstage] at hs
    cases hs

/-- A file that is still there after its turn holds the item, and a file that is gone is accounted for
by `gone`. -/
theorem afterTurn_carries {item : List (String × Json)} {gone : Stage} {turn : Turn}
    (hitem : ItemOf valid anchor item) (hgone : gone.Carries valid anchor)
    (hpostponed : ∀ item', turn = .postponed item' → ItemOf valid anchor item') :
    (afterTurn item gone turn).Carries valid anchor := by
  cases turn with
  | removed => exact hgone
  | buried => trivial
  | postponed item' => exact hpostponed item' rfl
  | skipped => exact hitem
  | raised e => exact hitem

theorem afterTurn_status {item : List (String × Json)} {gone : Stage} {turn : Turn}
    (h : turn ≠ .removed) : (afterTurn item gone turn).status = .open_ := by
  cases turn with
  | removed => exact absurd rfl h
  | buried | postponed | skipped | raised => rfl

theorem turn_inv (hempty : valid "" = false) (hanchor : valid anchor = true) {sweep : Sweep}
    {m : Meets} (h : Inv valid anchor pid s) (hg : Guard valid anchor pid s (.turn writer sweep m))
    (hs : step valid anchor s (.turn writer sweep m) = some t) : Inv valid anchor pid t := by
  have hcarries := h.carries
  unfold step at hs
  cases hstage : s.stage with
  | waiting item =>
    rw [hstage] at hs hcarries
    obtain ⟨ops, hcalls, hbegun⟩ := beginTurn_calls (w := s.view writer) sweep hg.1
      hempty hanchor (fun _ hstamp => hstamp) hcarries h.wellformed
    dsimp only at hs
    generalize sweep.beginTurn m item (s.view writer) = b at hs hcalls hbegun
    obtain ⟨turn | ⟨count, p⟩, w⟩ := b
    · obtain rfl := Option.some.inj hs
      obtain ⟨hopen, hpostponed⟩ := hbegun
      refine h.calls hempty (hg.2 _ _ rfl) hcalls ?_ (afterTurn_carries hcarries trivial hpostponed)
      rw [hstage, show acts valid anchor ops (Stage.waiting item).status = Status.open_ from hopen]
      cases turn <;> rfl
    · obtain rfl := Option.some.inj hs
      obtain ⟨hp, hpending⟩ := hbegun
      refine h.calls hempty (hg.2 _ _ rfl) hcalls ?_ ⟨hg.1, hcarries, hp⟩
      rw [hstage]
      exact hpending
  | fresh | sending | retrying | delivered | dropped | dead =>
    rw [hstage] at hs
    cases hs

theorem settle_inv (hempty : valid "" = false) (hanchor : valid anchor = true)
    (h : Inv valid anchor pid s) (hg : Guard valid anchor pid s .settle)
    (hs : step valid anchor s .settle = some t) : Inv valid anchor pid t := by
  have hseen := hg.2
  have hcarries := h.carries
  unfold Seen State.writes at hseen
  unfold step at hs
  cases hstage : s.stage with
  | retrying writer sweep m item count p =>
    rw [hstage] at hs hseen hcarries
    obtain ⟨hworks, hitem, hp⟩ := hcarries
    obtain ⟨ops, hcalls, hsettled⟩ := settleTurn_calls sweep count (s.view writer)
      hworks hempty hanchor (fun _ hstamp => hstamp) hitem hp
    dsimp only at hs
    generalize sweep.settleTurn m item count p (s.view writer) = r at hs hcalls hsettled
    obtain ⟨turn, w⟩ := r
    obtain rfl := Option.some.inj hs
    obtain ⟨hremoved, hclosed⟩ | ⟨hkept, hopen, hpostponed⟩ := hsettled
    · dsimp only at hremoved
      rw [hremoved]
      refine h.calls hempty (hseen _ _ rfl) hcalls ?_ trivial
      rw [hstage]
      exact hclosed
    · refine h.calls hempty (hseen _ _ rfl) hcalls ?_ (afterTurn_carries hitem trivial hpostponed)
      rw [hstage, afterTurn_status hkept]
      exact hopen
  | fresh | sending | waiting | delivered | dropped | dead =>
    rw [hstage] at hs
    cases hs

/-- A call that does not write about the anchor leaves its status, and no call opens a closed one. -/
theorem act_unnamed {op : Op} (h : Names anchor op → s.stage = .delivered) :
    op.act valid anchor s.stage.status = s.stage.status := by
  by_cases hnames : Names anchor op
  · rw [h hnames]
    cases op <;> simp [Op.act, Stage.status]
  · cases op with
    | record _ a _ _ | promote a | withdraw a => exact if_neg fun hc => hnames hc.1
    | isClosed a => rfl

/-- **One step.** -/
theorem step_inv (hempty : valid "" = false) (hanchor : valid anchor = true)
    (h : Inv valid anchor pid s) (hg : Guard valid anchor pid s e)
    (hs : step valid anchor s e = some t) : Inv valid anchor pid t := by
  cases e with
  | send writer env args kwargs => exact send_inv hempty hanchor h hg hs
  | sent => exact sent_inv hempty hanchor h hg hs
  | turn writer sweep m => exact turn_inv hempty hanchor h hg hs
  | settle => exact settle_inv hempty hanchor h hg hs
  | call writer op stamp =>
    obtain rfl := Option.some.inj hs
    refine h.calls hempty (hg.2 _ _ rfl) (.one (List.mem_singleton_self _)) ?_ h.carries
    exact act_unnamed hg.1
  | restart writer =>
    unfold step at hs
    dsimp only at hs
    split_ifs at hs
    obtain rfl := Option.some.inj hs
    refine ⟨h.wellformed, h.status, ?_, h.carries⟩
    dsimp only
    by_cases hpid : pid = writer
    · subst hpid
      rw [Function.update_self]
      nofun
    · rw [Function.update_of_ne hpid]
      exact h.snapshot
  | drift w =>
    obtain rfl := Option.some.inj hs
    exact ⟨h.wellformed, h.status, h.snapshot, h.carries⟩

/-! ## Whole lives -/

/-- The delivery that this event ends is confirmed. -/
def Confirms (s : State) (e : Event) : Prop :=
  e = .settle ∧ ∃ pid sweep m item count p d, s.stage = .retrying pid sweep m item count p ∧
    p.deliver m.env = .ok d ∧ d.deliveryId.isSome = true

theorem Confirms.delivered (h : Confirms s e) (hs : step valid anchor s e = some t) :
    t.stage = .delivered := by
  obtain ⟨rfl, pid, sweep, m, item, count, p, d, hstage, hdeliver, hid⟩ := h
  unfold step Sweep.settleTurn settleAttempt at hs
  rw [hstage] at hs
  dsimp only at hs
  rw [hdeliver] at hs
  dsimp only at hs
  rw [if_pos hid] at hs
  obtain rfl := Option.some.inj hs
  rfl

/-- Nothing follows a confirmed delivery. -/
theorem step_delivered (h : s.stage = .delivered) (hs : step valid anchor s e = some t) :
    t.stage = .delivered := by
  unfold step at hs
  cases e with
  | send | sent | turn | settle =>
    rw [h] at hs
    cases hs
  | call =>
    obtain rfl := Option.some.inj hs
    exact h
  | restart =>
    dsimp only at hs
    split_ifs at hs
    obtain rfl := Option.some.inj hs
    exact h
  | drift =>
    obtain rfl := Option.some.inj hs
    exact h

/-- A delivery of the message is under way. -/
def Stage.inDelivery : Stage → Bool
  | .sending .. | .retrying .. => true
  | _ => false

/-- The message waits for its next attempt, or will have none. -/
def Stage.undelivered : Stage → Bool
  | .waiting _ | .dropped | .dead => true
  | _ => false

/-- **Closed means delivered.** In every run the anchor of a terminator is closed while a delivery is
under way, open while the item waits and once it is dropped or dead, and closed for ever after a
confirmed delivery. -/
theorem closed_means_delivered (hempty : valid "" = false) (hanchor : valid anchor = true)
    {es : List Event} (h0 : Start valid anchor pid s)
    (hrun : Run (step valid anchor) (Guard valid anchor pid) s es t) :
    (t.stage.inDelivery = true → t.closedIn valid anchor pid = true) ∧
    (t.stage.undelivered = true → t.closedIn valid anchor pid = false) ∧
    ∀ e fs u, Confirms t e → Run (step valid anchor) (Guard valid anchor pid) t (e :: fs) u →
      u.closedIn valid anchor pid = true := by
  have hstep : ∀ s e t, Inv valid anchor pid s → Guard valid anchor pid s e →
      step valid anchor s e = some t → Inv valid anchor pid t := fun _ _ _ h hg hs =>
    step_inv hempty hanchor h hg hs
  have hinv : Inv valid anchor pid t := hrun.invariant hstep h0.inv
  refine ⟨?_, ?_, ?_⟩
  · intro hstage
    apply hinv.closedIn.mpr
    intro hopen
    cases hs : t.stage <;> rw [hs] at hstage hopen <;> cases hstage <;> cases hopen
  · intro hstage
    rw [← Bool.not_eq_true, hinv.closedIn, not_not]
    cases hs : t.stage <;> rw [hs] at hstage <;> first | rfl | cases hstage
  · intro e fs u hconfirms hrest
    have hdelivered : u.stage = .delivered := by
      cases hrest with
      | cons _ hs hrest =>
        exact hrest.invariant (fun _ _ _ h _ hs => step_delivered h hs) (hconfirms.delivered hs)
    apply (hrest.invariant hstep hinv).closedIn.mpr
    intro hopen
    rw [hdelivered] at hopen
    cases hopen

/-- A process that makes every call itself sees every write. -/
theorem run_alone {es : List Event} (hcalm : ∀ e ∈ es, ∀ s, Calm valid anchor s e)
    (hrun : Run (step valid anchor) (fun s e => (s.writes e).all (·.1 = pid) = true) s es t) :
    Run (step valid anchor) (Guard valid anchor pid) s es t := by
  induction hrun with
  | nil s => exact .nil s
  | cons halone hs _ ih =>
    rw [List.forall_mem_cons] at hcalm
    refine .cons ⟨hcalm.1 _, ?_⟩ hs (ih hcalm.2)
    intro writer stamps hwrites hne
    rw [hwrites] at halone
    exact absurd (of_decide_eq_true halone) hne

/-! ## The farewell -/

/-- The farewell to vera fails, then fails again, and is delivered once she is back. -/
def farewellLife : List Event :=
  [.send 0 zeroQueues farewell [], .sent, .turn 0 { now := 1000 } { env := zeroQueues }, .settle,
    .turn 0 { now := 2000 } { env := zeroBack }]

theorem zeroQueues_works : zeroQueues.Works nameToken where
  rule := rfl
  closedIo := rfl
  record := rfl
  withdraw := rfl
  promote := rfl
  self self h := by
    obtain rfl : "zero" = self := Except.ok.inj h
    decide

theorem zeroBack_works : zeroBack.Works nameToken :=
  ⟨rfl, rfl, rfl, rfl, rfl, zeroQueues_works.self⟩

/-- The delivery that is under way will be confirmed. -/
def Stage.confirming : Stage → Bool
  | .retrying _ _ m _ _ p =>
    match p.deliver m.env with
    | .ok d => d.deliveryId.isSome
    | .error _ => false
  | _ => false

theorem confirms_settle (h : s.stage.confirming = true) : Confirms s .settle := by
  refine ⟨rfl, ?_⟩
  unfold Stage.confirming at h
  split at h
  · rename_i pid sweep m item count p hstage
    split at h
    · rename_i d hdeliver
      exact ⟨pid, sweep, m, item, count, p, d, hstage, hdeliver, h⟩
    · cases h
  · cases h

/-- The host before the farewell. -/
def quietHost : State := { world := emptyWorld, caches := fun _ => {} }

/-- While the last delivery is under way, and after it, the farewell is closed. -/
theorem closed_means_delivered_farewell :
    ∃ t u, Run (step nameToken "m1") (Guard nameToken "m1" 0) quietHost farewellLife t ∧
      t.stage.inDelivery = true ∧ t.closedIn nameToken "m1" 0 = true ∧
      step nameToken "m1" t .settle = some u ∧ u.closedIn nameToken "m1" 0 = true := by
  have hlife : (exec (checked (fun s e => (s.writes e).all (·.1 = 0)) (step nameToken "m1"))
      quietHost farewellLife).map (fun t => (t.stage.inDelivery, t.stage.confirming,
        (t.writes .settle).all (·.1 = 0), (step nameToken "m1" t .settle).isSome)) =
      some (true, true, true, true) := by
    decide +kernel
  obtain ⟨t, hexec, ht⟩ := Option.map_eq_some_iff.mp hlife
  simp only [Prod.mk.injEq] at ht
  obtain ⟨hstage, hconfirming, halone, hsettle⟩ := ht
  obtain ⟨u, hu⟩ := Option.isSome_iff_exists.mp hsettle
  have hcalm : ∀ e ∈ farewellLife, ∀ s, Calm nameToken "m1" s e := by
    intro e he s
    simp only [farewellLife, List.mem_cons, List.not_mem_nil, or_false] at he
    obtain rfl | rfl | rfl | rfl | rfl := he
    · exact zeroQueues_works
    · trivial
    · exact ⟨zeroQueues_works, rfl⟩
    · trivial
    · exact ⟨zeroBack_works, rfl⟩
  have hrun := run_alone hcalm (run_of_checked hexec)
  have hrest : Run (step nameToken "m1") (Guard nameToken "m1" 0) t [.settle] u :=
    run_alone (by simp [Calm]) (.cons halone hu (.nil u))
  have hstart : Start nameToken "m1" 0 quietHost :=
    ⟨rfl, fun _ h => absurd h List.not_mem_nil, fun _ h => absurd h List.not_mem_nil, rfl⟩
  obtain ⟨hduring, -, hafter⟩ :=
    closed_means_delivered (by decide) (by decide) hstart hrun
  exact ⟨t, u, hrun, hstage, hduring hstage, hu, hafter _ _ _ (confirms_settle hconfirming) hrest⟩

end HermesMesh.Terminator
