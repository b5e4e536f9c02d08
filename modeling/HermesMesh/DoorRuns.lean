import HermesMesh.LateTerminators
import HermesMesh.LeaseCalls

/-!
# The door at the moment of delivery

A message that asks for an answer claims the door of its recipient once, before it leaves. The
attempt may come later: the live one when its process gets to it, and any number of retries out of
the outbox, none of which asks the gate again. Meanwhile the lease may lapse or be released, and
somebody else may claim the recipient. The runs here follow one message from its gate to its end,
while anybody may use the registry between any two steps; `handed` records every hand-over to
`_deliver_webhook` with its instant and the registry at that instant.

Nothing takes a live lease out but a release that names it and a claim or an expiry that takes an
unreadable registry for empty. So a message whose lease was spared that, and which is handed over
before the lease lapses, finds its door open (`door_open_at_delivery`); one that the outbox hands
over later may find somebody else there (`door_taken_at_retry`).
-/

namespace HermesMesh

open OpenThreads

/-- `handle_mesh_send` from the gate to the delivery. -/
def setOut (env : Env) (mail : Mail) (held : Bool) (w : World) :
    (Except PyError Response ⊕ Sending) × World :=
  match sessions env mail with
  | .error stop => (.inl stop.result, w)
  | .ok (session, fromSession) =>
    match env.target mail.agent with
    | .error e => (.inl (.error e), w)
    | .ok (.error text) => ((unresolved env mail text w).map .inl id)
    | .ok (.ok url) =>
      match resolveSender env.privateKey mail.self with
      | .error text => ((unresolved env mail text w).map .inl id)
      | .ok _ =>
        match recordPending env mail w with
        | (.error e, w) => (.inl (.error e), w)
        | (.ok (), w) => (.inr ⟨mail, held, mail.padded session fromSession, url⟩, w)

/-- What comes before the delivery is the gate and the setting out. -/
theorem beginSend_eq (env : Env) (args kwargs : List (String × Json)) (w : World) :
    beginSend env args kwargs w =
      match prepare env args kwargs w with
      | (.error stop, w) => (.inl stop.result, w)
      | (.ok mail, w) =>
        match gate env mail w with
        | (.error refusal, w) => (.inl (.ok refusal), w)
        | (.ok held, w) => setOut env mail held w := rfl

theorem setOut_leases (env : Env) (mail : Mail) (held : Bool) (w : World) :
    (setOut env mail held w).2.leases = w.leases := by
  unfold setOut
  obtain stop | ⟨session, fromSession⟩ := sessions env mail
  · rfl
  dsimp only
  obtain e | text | url := env.target mail.agent
  · rfl
  · exact (unresolved_spec env mail text w).1
  dsimp only
  obtain text | key := resolveSender env.privateKey mail.self
  · exact (unresolved_spec env mail text w).1
  dsimp only
  have hrec := recordPending_leases env mail w
  generalize recordPending env mail w = r at hrec
  obtain ⟨e | _, w₂⟩ := r <;> exact hrec

/-- A send that ends in the outbox leaves the registry alone. -/
theorem settleSend_queued_leases (env : Env) (sending : Sending) (w : World) (resp : Response)
    (hresp : (settleSend env sending w).1 = .ok resp) (hstate : resp.state = some "queued") :
    (settleSend env sending w).2.leases = w.leases := by
  obtain ⟨mail, held, padded, url⟩ := sending
  have hleases := deliver_leases env env.net env.signature (env.wire mail padded url) w
  unfold settleSend at hresp ⊢
  dsimp only at hresp ⊢
  generalize deliver env env.net env.signature (env.wire mail padded url) w = r at hresp hleases ⊢
  obtain ⟨e | d, w₁⟩ := r
  · cases hresp
  dsimp only at hresp hleases ⊢
  rw [← hleases]
  split_ifs at hresp ⊢
  · rw [delivered_state hresp] at hstate
    exact absurd (Option.some.inj hstate) (by decide)
  · rw [(queued_spec env mail padded _).1, withdrawPending_leases]
  · rw [failed_state hresp] at hstate
    cases hstate

/-! ## A turn leaves the registry alone -/

namespace Retry

variable {s : Sweep} {m : Meets} {item : List (String × Json)} {count : ℚ} {done : Bool} {w : World}
  {p : Posting}

theorem notify_leases (m : Meets) (item : List (String × Json)) (w : World) :
    (m.notify item w).leases = w.leases := by
  unfold Meets.notify
  split_ifs
  · rfl
  · split
    · rfl
    · exact sendDeliveryError_leases ..

theorem deadLetter_leases (m : Meets) (item : List (String × Json)) (w : World) :
    (m.deadLetter item w).leases = w.leases := by
  unfold Meets.deadLetter
  rw [notify_leases]
  exact withdrawAnchor_leases

theorem finish_leases : (s.finish m item count done w).2.leases = w.leases := by
  unfold Sweep.finish
  split_ifs
  · rfl
  · exact deadLetter_leases m item w
  · split <;> rfl

theorem beginTurn_leases : (s.beginTurn m item w).2.leases = w.leases := by
  unfold Sweep.beginTurn
  obtain e | due := number (nextRetry item)
  · rfl
  dsimp only
  split_ifs
  · rfl
  obtain e | count := number (attemptOf item)
  · rfl
  dsimp only
  have hbegun : (beginAttempt m.env s.extra (counted count item) w).2.leases = w.leases :=
    beginAttempt_leases
  generalize beginAttempt m.env s.extra (counted count item) w = b at hbegun
  obtain ⟨e | - | - | p, w₁⟩ := b
  · exact hbegun
  · exact hbegun
  · show (s.finish m (counted count item) (count + 1) false w₁).2.leases = w.leases
    exact finish_leases.trans hbegun
  · exact hbegun

theorem settleTurn_leases : (s.settleTurn m item count p w).2.leases = w.leases := by
  have hsettled : (settleAttempt m.env p.anchor (p.deliver m.env) w).2.leases = w.leases :=
    settleAttempt_leases
  unfold Sweep.settleTurn
  generalize settleAttempt m.env p.anchor (p.deliver m.env) w = r at hsettled
  obtain ⟨e | done, w₁⟩ := r
  · exact hsettled
  · exact finish_leases.trans hsettled

end Retry

namespace Door

open Lib Retry

/-! ## The system -/

/-- A message that has passed the gate, with the registry that the gate saw. -/
structure Passed where
  env : Env
  mail : Mail
  file : File

/-- The claim came back without a lease, because the registry failed. -/
def Passed.degraded (p : Passed) : Bool :=
  (threadTraffic p.env p.mail p.file).isNone &&
    match (p.env.claimDoor p.mail p.file).1 with
    | .ok .degraded => true
    | _ => false

/-- The message holds the door by a lease. -/
def Passed.holds (p : Passed) : Bool := decide (p.mail.reply = .yes) && !p.degraded

/-- The lease joins the two agents of the message. -/
def Passed.isJoinedBy (p : Passed) (rec : Lease) : Bool := rec.joins p.mail.self p.mail.agent

/-- Somebody else talks to the recipient. -/
def Passed.isBlockedBy (p : Passed) (rec : Lease) : Bool := blocks p.mail.self p.mail.agent rec

/-- A turn of the message's file that has come to its delivery. -/
structure Attempt where
  sweep : Sweep
  meets : Meets
  item : List (String × Json)
  count : ℚ
  posting : Posting

/-- How far the message has come. -/
inductive Stage where
  | fresh
  | passed (held : Bool)
  /-- The live delivery is under way. -/
  | sending (sending : Sending)
  /-- The file in the outbox, if it is there, and the retries under way. -/
  | outbox (item : Option (List (String × Json))) (attempts : List Attempt)
  | finished

/-- The message may be handed over yet. -/
def Stage.pending : Stage → Bool
  | .passed _ | .sending _ => true
  | .outbox item attempts => item.isSome || !attempts.isEmpty
  | .fresh | .finished => false

/-- One hand-over to `_deliver_webhook`, with the registry at its start. -/
structure HandOver where
  door : Passed
  now : Time
  leases : File

structure State where
  world : World
  /-- The latest instant at which anything has happened. -/
  clock : Time := 0
  stage : Stage := .fresh
  /-- The message, from its gate on. -/
  door : Option Passed := none
  /-- When the lease of the pair lapses, as the registry showed it last. -/
  lapse : Option Time := none
  handed : List HandOver := []

inductive Event where
  /-- The call that sends the message, up to its gate. -/
  | send (env : Env) (args kwargs : List (String × Json))
  /-- The call comes to its delivery. -/
  | handOver (now : Time)
  /-- The live delivery ends, and with it the call. -/
  | sent
  /-- A sweep comes to the file. -/
  | turn (sweep : Sweep) (m : Meets) (now : Time)
  /-- The delivery of a retry ends, and with it the turn. -/
  | settle (k : ℕ)
  /-- Any other use of the registry: the clock reading may be stale. -/
  | registry (call : Call) (io : Io) (now : Time)
  /-- Whatever happens beside the registry. -/
  | drift (w : World)

/-- The file after a turn: one that raised or skipped it leaves it as it is. -/
def leaves (item : Option (List (String × Json))) : Turn → Option (List (String × Json))
  | .removed | .buried => none
  | .postponed item' => some item'
  | .skipped | .raised _ => item

/-- The lapse that the registry shows. -/
def State.shown (s : State) : Option Time :=
  s.door.bind fun p => (s.world.leases.entries.find? p.isJoinedBy).map (·.leaseUntil)

def State.look (s : State) : State := { s with lapse := s.shown.or s.lapse }

/-- What an event does. -/
def act (valid : TokenRule) (s : State) : Event → Option State
  | .send env args kwargs =>
    match s.stage with
    | .fresh =>
      match prepare env args kwargs s.world with
      | (.error _, w) => some { s with world := w, stage := .finished }
      | (.ok mail, w) =>
        match gate env mail w with
        | (.error _, w') => some { s with world := w', stage := .finished }
        | (.ok held, w') =>
          some
            { s with
              world := w'
              clock := max s.clock env.claim.now
              stage := .passed held
              door := some ⟨env, mail, w.leases⟩ }
    | _ => none
  | .handOver now =>
    match s.stage, s.door with
    | .passed held, some p =>
      if s.clock ≤ now then
        match setOut p.env p.mail held s.world with
        | (.inl _, w) => some { s with world := w, clock := now, stage := .finished }
        | (.inr sending, w) =>
          some
            { s with
              world := w
              clock := now
              stage := .sending sending
              handed := ⟨p, now, w.leases⟩ :: s.handed }
      else none
    | _, _ => none
  | .sent =>
    match s.stage, s.door with
    | .sending sending, some p =>
      match settleSend p.env sending s.world with
      | (.ok resp, w) =>
        if resp.state = some "queued" then
          some { s with world := w, stage := .outbox (w.outbox.head?.map (·.fields)) [] }
        else some { s with world := w, stage := .finished }
      | (.error _, w) => some { s with world := w, stage := .finished }
    | _, _ => none
  | .turn sweep m now =>
    match s.stage, s.door with
    | .outbox (some item) attempts, some p =>
      if s.clock ≤ now then
        match sweep.beginTurn m item s.world with
        | (.over turn, w) =>
          some { s with world := w, clock := now, stage := .outbox (leaves (some item) turn) attempts }
        | (.calling count posting, w) =>
          some
            { s with
              world := w
              clock := now
              stage := .outbox (some item) (⟨sweep, m, item, count, posting⟩ :: attempts)
              handed := ⟨p, now, w.leases⟩ :: s.handed }
      else none
    | _, _ => none
  | .settle k =>
    match s.stage with
    | .outbox item attempts =>
      attempts[k]?.map fun a =>
        let (turn, w) := a.sweep.settleTurn a.meets a.item a.count a.posting s.world
        { s with world := w, stage := .outbox (leaves item turn) (attempts.eraseIdx k) }
    | _ => none
  | .registry call io now =>
    some
      { s with
        world := { s.world with leases := call.commit valid io now s.world.leases }
        clock := max s.clock now }
  | .drift w => some { s with world := { w with leases := s.world.leases } }

/-- One step, and a look at the registry. -/
def step (valid : TokenRule) (s : State) (e : Event) : Option State := (act valid s e).map State.look

/-- An empty registry, and a message that has not been sent. -/
structure Start (s : State) : Prop where
  stage : s.stage = .fresh
  door : s.door = none
  handed : s.handed = []
  leases : s.world.leases.entries = []

/-- What the gate promises: the door is open to the message at its hand-over, and nobody else's. -/
def HandOver.Kept (h : HandOver) : Prop :=
  h.door.holds = true →
    (∃ rec ∈ h.leases.liveAt h.now, h.door.isJoinedBy rec = true) ∧
      ∀ rec ∈ h.leases.liveAt h.now, h.door.isBlockedBy rec = false

/-! ## The assumptions -/

/-- The message, while its lease has to last. -/
def State.holder (s : State) : Option Passed :=
  if s.stage.pending then s.door.filter Passed.holds else none

/-- The event hands the message over. -/
def State.handsOver (s : State) : Event → Bool
  | .handOver _ =>
    match s.stage, s.door with
    | .passed held, some p => (setOut p.env p.mail held s.world).1.isRight
    | _, _ => false
  | .turn sweep m _ =>
    match s.stage with
    | .outbox (some item) _ =>
      match (sweep.beginTurn m item s.world).1 with
      | .calling .. => true
      | .over _ => false
    | _ => false
  | _ => false

/-- The lease has not lapsed. A thread that the recipient has opened keeps nobody from her, so there
somebody else may have come. -/
def State.InTime (s : State) (now : Time) : Prop :=
  ∀ p ∈ s.holder, (∀ lapse ∈ s.lapse, now < lapse) ∧
    ((∀ rec ∈ s.world.leases.entries, p.isJoinedBy rec = true → rec.openedBy ≠ p.mail.agent) ∨
      ∀ rec ∈ s.world.leases.liveAt now, p.isBlockedBy rec = false)

/-- The call does not take the lease out before it lapses. -/
def State.Spared (s : State) (call : Call) (io : Io) : Prop :=
  ∀ p ∈ s.holder, ∀ rec ∈ s.world.leases.liveAt s.clock, p.isJoinedBy rec = true →
    call.takes io rec = false

/-- What is assumed of every step. -/
def Guard (s : State) : Event → Prop
  | .send env args kwargs =>
    ∀ mail ∈ (prepare env args kwargs s.world).1.toOption, mail.reply = .yes →
      threadTraffic env mail s.world.leases = none →
        env.valid mail.taskId = true ∧ env.valid mail.self = true ∧ env.valid mail.agent = true
  | .handOver now => s.handsOver (.handOver now) = true → s.InTime now
  | .turn sweep m now => s.handsOver (.turn sweep m now) = true → s.InTime now
  | .registry call io _ => s.Spared call io
  | .sent | .settle _ | .drift _ => True

instance (s : State) (now : Time) : Decidable (s.InTime now) :=
  inferInstanceAs (Decidable (∀ p ∈ s.holder, _ ∧ _))

instance (s : State) (call : Call) (io : Io) : Decidable (s.Spared call io) :=
  inferInstanceAs (Decidable (∀ p ∈ s.holder, ∀ rec ∈ s.world.leases.liveAt s.clock, _ → _))

instance (s : State) : DecidablePred (Guard s)
  | .send env args kwargs =>
    inferInstanceAs (Decidable (∀ mail ∈ (prepare env args kwargs s.world).1.toOption, _ → _))
  | .handOver now => inferInstanceAs (Decidable (_ → s.InTime now))
  | .turn _ _ now => inferInstanceAs (Decidable (_ → s.InTime now))
  | .registry call io _ => inferInstanceAs (Decidable (s.Spared call io))
  | .sent | .settle _ | .drift _ => inferInstanceAs (Decidable True)

/-! ## The gate -/

variable {valid : TokenRule} {env : Env} {mail : Mail} {s s' t : State} {e : Event} {w w' : World}
  {held : Bool} {p : Passed} {rec : Lease} {now : Time}

theorem degraded_iff : p.degraded = true ↔
    threadTraffic p.env p.mail p.file = none ∧
      (p.env.claimDoor p.mail p.file).1 = .ok .degraded := by
  unfold Passed.degraded
  rw [Bool.and_eq_true, Option.isNone_iff_eq_none]
  apply and_congr_right
  intro _
  split
  · rename_i heq
    exact ⟨fun _ => heq, fun _ => rfl⟩
  · rename_i hne
    exact ⟨nofun, fun h => absurd h hne⟩

/-- A granted message has its lease in the registry, or the registry was degraded. -/
theorem gate_holds (hgate : gate env mail w = (.ok held, w'))
    (htokens : threadTraffic env mail w.leases = none →
      env.valid mail.taskId = true ∧ env.valid mail.self = true ∧ env.valid mail.agent = true)
    (hholds : (Passed.mk env mail w.leases).holds = true) :
    ∃ rec ∈ w'.leases.entries, rec.joins mail.self mail.agent = true := by
  unfold Passed.holds at hholds
  rw [Bool.and_eq_true, decide_eq_true_iff, Bool.not_eq_true'] at hholds
  obtain ⟨hyes, hdegraded⟩ := hholds
  rcases gate_cases env mail w with ⟨hjoined, heq⟩ | ⟨-, _, _, heq, -⟩ | ⟨hopens, heq⟩ |
    ⟨hjoined, hrefused, hopens, heq⟩ <;> rw [hgate] at heq
  · obtain rfl := (Prod.mk.inj heq).2
    rcases hjoined with ⟨-, htraffic⟩ | ⟨-, rec, hrec, hjoins⟩
    · obtain ⟨rec, hrec⟩ := Option.isSome_iff_exists.mp htraffic
      obtain ⟨hfound, hjoins⟩ := Option.filter_eq_some_iff.mp hrec
      obtain ⟨ref, -, hlease⟩ := Option.bind_eq_some_iff.mp hfound
      refine ⟨rec, ?_, hjoins⟩
      unfold leaseFor at hlease
      split_ifs at hlease
      exact (read_sublist _ _).subset (List.mem_of_find?_eq_some hlease)
    · exact ⟨rec, liveEntries_sublist.subset hrec, hjoins⟩
  · cases (Prod.mk.inj heq).1
  · obtain rfl := (Prod.mk.inj heq).2
    exact ⟨env.ownLease mail, List.mem_append_right _ (List.mem_singleton_self _),
      joins_iff.mpr (.inl ⟨rfl, rfl⟩)⟩
  · -- nothing but a failed registry lets it pass without a lease
    exfalso
    have htraffic : threadTraffic env mail w.leases = none := by
      by_contra hsome
      exact hjoined (.inl ⟨hyes, Option.isSome_iff_ne_none.mpr hsome⟩)
    have hclaim : (env.claimDoor mail w.leases).1 = .ok .degraded := by
      unfold Env.claimDoor
      rcases claim_cases env.valid env.claim.io env.claim.now mail.taskId mail.self mail.agent
        defaultLeaseMinutes w.leases with ⟨hno, -⟩ | ⟨-, ⟨-, heq⟩ | ⟨hlock, heq⟩⟩
      · exact absurd (htokens htraffic) hno
      · rw [heq]
      · have hseeks : Seeks env mail w.leases := ⟨hyes, htraffic, htokens htraffic, hlock⟩
        rcases claimLocked_cases env.claim.io env.claim.now mail.taskId mail.self mail.agent
          (clampMinutes defaultLeaseMinutes) w.leases with
          ⟨rec, hrec, hjoins, -⟩ | ⟨hpair, ⟨rec, hrec, hblocks, -⟩ | ⟨hdoor, ⟨_, _, hcap, -⟩ |
            ⟨hroom, ⟨hwritable, -⟩ | ⟨-, hlocked⟩⟩⟩⟩
        · exact absurd (.inr ⟨hseeks, rec, hrec, hjoins⟩) hjoined
        · exact absurd ⟨hseeks, hpair, .inl ⟨rec, hrec, hblocks⟩⟩ hrefused
        · exact absurd ⟨hseeks, hpair, .inr hcap⟩ hrefused
        · exact absurd ⟨hseeks, hpair, hdoor, hroom, hwritable⟩ hopens
        · rw [heq, hlocked]
    rw [degraded_iff.mpr ⟨htraffic, hclaim⟩] at hdegraded
    cases hdegraded

/-! ## The invariant -/

/-- While the lease has to last, the registry shows it, or it has lapsed. -/
def Lasting (s : State) : Prop :=
  ∀ p ∈ s.holder,
    (∃ rec ∈ s.world.leases.entries, p.isJoinedBy rec = true ∧ s.lapse = some rec.leaseUntil) ∨
      ∃ lapse, s.lapse = some lapse ∧ lapse ≤ s.clock

structure Inv (s : State) : Prop where
  limits : Limits maxOutboundThreads (links s.world.leases)
  lasting : Lasting s
  kept : ∀ h ∈ s.handed, h.Kept

theorem mem_holder : p ∈ s.holder ↔ s.stage.pending = true ∧ s.door = some p ∧ p.holds = true := by
  unfold State.holder
  split_ifs with hpending
  · rw [Option.mem_def, Option.filter_eq_some_iff]
    simp [hpending]
  · simp [hpending]

/-- A lease of the pair is shown. -/
theorem look_shown (hdoor : s.door = some p) (hmem : rec ∈ s.world.leases.entries)
    (hjoins : p.isJoinedBy rec = true) :
    ∃ rec' ∈ s.look.world.leases.entries, p.isJoinedBy rec' = true ∧
      s.look.lapse = some rec'.leaseUntil := by
  have hsome : (s.world.leases.entries.find? p.isJoinedBy).isSome = true :=
    List.find?_isSome.mpr ⟨rec, hmem, hjoins⟩
  obtain ⟨rec', hfound⟩ := Option.isSome_iff_exists.mp hsome
  refine ⟨rec', List.mem_of_find?_eq_some hfound, List.find?_some hfound, ?_⟩
  unfold State.look State.shown
  rw [hdoor, Option.bind_some, hfound]
  rfl

/-- Where none is, the last look counts. -/
theorem look_unshown (hdoor : s.door = some p)
    (hnone : ∀ rec ∈ s.world.leases.entries, p.isJoinedBy rec ≠ true) : s.look.lapse = s.lapse := by
  unfold State.look State.shown
  rw [hdoor, Option.bind_some, List.find?_eq_none.mpr hnone]
  rfl

/-- A step that takes no live lease of the pair out, as the clock stands after it. -/
theorem Lasting.look (h : Lasting s) (hdoor : s'.door = s.door) (hlapse : s'.lapse = s.lapse)
    (hclock : s.clock ≤ s'.clock) (hpending : s'.stage.pending = true → s.stage.pending = true)
    (hkeeps : ∀ p ∈ s.holder, ∀ rec ∈ s.world.leases.liveAt s'.clock, p.isJoinedBy rec = true →
      ∃ rec' ∈ s'.world.leases.entries, p.isJoinedBy rec' = true) : Lasting s'.look := by
  intro p hp
  obtain ⟨hpend, hdoor', hholds⟩ := mem_holder.mp hp
  have hdoor' : s'.door = some p := hdoor'
  have hholder : p ∈ s.holder := mem_holder.mpr ⟨hpending hpend, hdoor ▸ hdoor', hholds⟩
  by_cases hshown : ∃ rec ∈ s'.world.leases.entries, p.isJoinedBy rec = true
  · obtain ⟨rec, hmem, hjoins⟩ := hshown
    exact .inl (look_shown hdoor' hmem hjoins)
  · have hnone : ∀ rec ∈ s'.world.leases.entries, p.isJoinedBy rec ≠ true :=
      fun rec hmem hjoins => hshown ⟨rec, hmem, hjoins⟩
    have hlook : s'.look.lapse = s.lapse := (look_unshown hdoor' hnone).trans hlapse
    refine .inr ?_
    obtain ⟨rec, hmem, hjoins, hlast⟩ | ⟨lapse, hlast, hle⟩ := h p hholder
    · refine ⟨rec.leaseUntil, hlook.trans hlast, ?_⟩
      by_contra hlive
      have hlive : live s'.clock rec = true := live_iff.mpr (not_le.mp hlive)
      exact hshown (hkeeps p hholder rec (mem_liveAt.mpr ⟨hmem, hlive⟩) hjoins)
    · exact ⟨lapse, hlook.trans hlast, hle.trans hclock⟩

/-- A step that leaves the registry alone. -/
theorem Inv.still (h : Inv s) (hleases : s'.world.leases = s.world.leases)
    (hdoor : s'.door = s.door) (hlapse : s'.lapse = s.lapse) (hclock : s.clock ≤ s'.clock)
    (hpending : s'.stage.pending = true → s.stage.pending = true)
    (hkept : ∀ h ∈ s'.handed, h.Kept) : Inv s'.look where
  limits := by
    show Limits _ (links s'.world.leases)
    rw [hleases]
    exact h.limits
  lasting := by
    apply h.lasting.look hdoor hlapse hclock hpending
    intro p _ rec hrec hjoins
    rw [hleases]
    exact ⟨rec, (mem_liveAt.mp hrec).1, hjoins⟩
  kept := hkept

/-- A step after which the message is not handed over any more. -/
theorem Inv.ended (hlimits : Limits maxOutboundThreads (links s'.world.leases))
    (hover : s'.stage.pending = false) (hkept : ∀ h ∈ s'.handed, h.Kept) : Inv s'.look where
  limits := hlimits
  lasting p hp := by
    have hpending : s'.stage.pending = true := (mem_holder.mp hp).1
    rw [hover] at hpending
    cases hpending
  kept := hkept

/-- **The hand-over.** In time, the door is open, and nobody else's. -/
theorem Inv.handOver (h : Inv s) (hdoor : s.door = some p) (hpending : s.stage.pending = true)
    (hclock : s.clock ≤ now) (hintime : s.InTime now) : HandOver.Kept ⟨p, now, s.world.leases⟩ := by
  intro hholds
  have hholder : p ∈ s.holder := mem_holder.mpr ⟨hpending, hdoor, hholds⟩
  obtain ⟨hlapse, hothers⟩ := hintime p hholder
  have hopen : ∃ rec ∈ s.world.leases.liveAt now, p.isJoinedBy rec = true := by
    obtain ⟨rec, hmem, hjoins, hlast⟩ | ⟨lapse, hlast, hle⟩ := h.lasting p hholder
    · exact ⟨rec, mem_liveAt.mpr ⟨hmem, live_iff.mpr (hlapse _ hlast)⟩, hjoins⟩
    · exact absurd (hlapse _ hlast) (not_lt.mpr (hle.trans hclock))
  refine ⟨hopen, ?_⟩
  obtain hopened | hnobody := hothers
  · intro rec' hrec'
    obtain ⟨rec, hrec, hjoins⟩ := hopen
    by_contra hblocks
    obtain ⟨hpeer, hself, hagent⟩ :
        rec'.peer = p.mail.agent ∧ rec'.openedBy ≠ p.mail.self ∧ rec'.openedBy ≠ p.mail.agent :=
      of_decide_eq_true (Bool.not_eq_false _ ▸ hblocks)
    have hne := hopened rec (mem_liveAt.mp hrec).1 hjoins
    obtain ⟨hby, hto⟩ | ⟨hby, -⟩ := joins_iff.mp hjoins
    · -- two leases name the recipient, and neither was opened by her
      have hlimits := gateLimits_of_links
        (h.limits.sublist ((List.filter_sublist (p := live now)).map Lease.link))
      obtain hsame | hown | hown := hlimits.door hrec hrec' (hto.trans hpeer.symm)
      · exact hself (hsame.symm.trans hby)
      · exact hne (hown.trans hto)
      · exact hagent (hown.trans hpeer)
    · exact hne hby
  · exact hnobody

/-- A step that hands a call over in time, and leaves the leases. -/
theorem Inv.handsOver (h : Inv s) (hdoor : s.door = some p) (hpending : s.stage.pending = true)
    (hintime : s.InTime now) (hleases : s'.world.leases = s.world.leases) (hdoor' : s'.door = s.door)
    (hlapse : s'.lapse = s.lapse) (hclock : s.clock ≤ s'.clock) (hnow : s.clock ≤ now)
    (hhanded : s'.handed = ⟨p, now, s'.world.leases⟩ :: s.handed) : Inv s'.look := by
  refine h.still hleases hdoor' hlapse hclock (fun _ => hpending) ?_
  rw [hhanded, hleases]
  exact List.forall_mem_cons.mpr ⟨h.handOver hdoor hpending hnow hintime, h.kept⟩

/-! ## One step -/

theorem send_inv {args kwargs : List (String × Json)} (h : Inv s) (hg : Guard s (.send env args kwargs))
    (hs : act valid s (.send env args kwargs) = some t) : Inv t.look := by
  unfold act at hs
  cases hstage : s.stage with
  | fresh =>
    rw [hstage] at hs
    dsimp only at hs
    have hleases := prepare_leases env args kwargs s.world
    generalize hprep : prepare env args kwargs s.world = p at hs hleases
    obtain ⟨stop | mail, w⟩ := p
    · obtain rfl := Option.some.inj hs
      refine .ended ?_ rfl h.kept
      show Limits _ (links w.leases)
      rw [show w.leases = s.world.leases from hleases]
      exact h.limits
    · dsimp only at hs hleases
      have hlimits := (gate_commits env mail w).limits (hleases ▸ h.limits)
      generalize hgate : gate env mail w = g at hs hlimits
      obtain ⟨refusal | held, w'⟩ := g
      · obtain rfl := Option.some.inj hs
        exact .ended hlimits rfl h.kept
      · obtain rfl := Option.some.inj hs
        refine ⟨hlimits, fun p hp => ?_, h.kept⟩
        obtain ⟨-, hdoor, hholds⟩ := mem_holder.mp hp
        obtain rfl : Passed.mk env mail w.leases = p := Option.some.inj hdoor
        have hyes : mail.reply = .yes := of_decide_eq_true (Bool.and_eq_true_iff.mp hholds).1
        have htokens := hg mail (by rw [hprep]; rfl) hyes
        rw [← hleases] at htokens
        obtain ⟨rec, hmem, hjoins⟩ := gate_holds hgate htokens hholds
        exact .inl (look_shown hdoor hmem hjoins)
  | passed | sending | outbox | finished =>
    rw [hstage] at hs
    cases hs

theorem handOver_inv (h : Inv s) (hg : Guard s (.handOver now))
    (hs : act valid s (.handOver now) = some t) : Inv t.look := by
  unfold act at hs
  dsimp only at hs
  split at hs
  · rename_i held p hstage hdoor
    split_ifs at hs with hclock
    have hleases := setOut_leases p.env p.mail held s.world
    have hpending : s.stage.pending = true := by rw [hstage]; rfl
    have hposts : s.handsOver (.handOver now) = (setOut p.env p.mail held s.world).1.isRight := by
      unfold State.handsOver
      simp only [hstage, hdoor]
    generalize setOut p.env p.mail held s.world = r at hs hleases hposts
    obtain ⟨result | sending, w⟩ := r
    · obtain rfl := Option.some.inj hs
      exact h.still hleases rfl rfl hclock (fun _ => hpending) h.kept
    · obtain rfl := Option.some.inj hs
      exact h.handsOver hdoor hpending (hg hposts) hleases rfl rfl hclock hclock rfl
  · cases hs

theorem sent_inv (h : Inv s) (hs : act valid s .sent = some t) : Inv t.look := by
  unfold act at hs
  dsimp only at hs
  split at hs
  · rename_i sending p hstage hdoor
    have hlimits := (settleSend_commits p.env sending s.world).limits h.limits
    have hqueued := settleSend_queued_leases p.env sending s.world
    have hpending : s.stage.pending = true := by rw [hstage]; rfl
    generalize settleSend p.env sending s.world = r at hs hlimits hqueued
    obtain ⟨e | resp, w⟩ := r
    · obtain rfl := Option.some.inj hs
      exact .ended hlimits rfl h.kept
    · dsimp only at hs
      split_ifs at hs with hstate
      · obtain rfl := Option.some.inj hs
        exact h.still (hqueued resp rfl hstate) rfl rfl le_rfl (fun _ => hpending) h.kept
      · obtain rfl := Option.some.inj hs
        exact .ended hlimits rfl h.kept
  · cases hs

theorem turn_inv {sweep : Sweep} {m : Meets} (h : Inv s) (hg : Guard s (.turn sweep m now))
    (hs : act valid s (.turn sweep m now) = some t) : Inv t.look := by
  unfold act at hs
  dsimp only at hs
  split at hs
  · rename_i item attempts p hstage hdoor
    split_ifs at hs with hclock
    have hleases : (sweep.beginTurn m item s.world).2.leases = s.world.leases := beginTurn_leases
    have hpending : s.stage.pending = true := by rw [hstage]; rfl
    have hposts : s.handsOver (.turn sweep m now) =
        match (sweep.beginTurn m item s.world).1 with
        | .calling .. => true
        | .over _ => false := by
      unfold State.handsOver
      simp only [hstage]
    generalize sweep.beginTurn m item s.world = b at hs hleases hposts
    obtain ⟨turn | ⟨count, posting⟩, w⟩ := b
    · obtain rfl := Option.some.inj hs
      exact h.still hleases rfl rfl hclock (fun _ => hpending) h.kept
    · obtain rfl := Option.some.inj hs
      exact h.handsOver hdoor hpending (hg hposts) hleases rfl rfl hclock hclock rfl
  · cases hs

theorem settle_inv {k : ℕ} (h : Inv s) (hs : act valid s (.settle k) = some t) : Inv t.look := by
  unfold act at hs
  cases hstage : s.stage with
  | outbox item attempts =>
    rw [hstage] at hs
    dsimp only at hs
    obtain ⟨a, ha, hs⟩ := Option.map_eq_some_iff.mp hs
    have hleases : (a.sweep.settleTurn a.meets a.item a.count a.posting s.world).2.leases =
        s.world.leases := settleTurn_leases
    have hpending : s.stage.pending = true := by
      rw [hstage]
      exact Bool.or_eq_true_iff.mpr (.inr (by cases attempts with
        | nil => cases ha
        | cons => rfl))
    generalize a.sweep.settleTurn a.meets a.item a.count a.posting s.world = r at hs hleases
    obtain ⟨turn, w⟩ := r
    subst hs
    exact h.still hleases rfl rfl le_rfl (fun _ => hpending) h.kept
  | fresh | passed | sending | finished =>
    rw [hstage] at hs
    cases hs

theorem registry_inv {call : Call} {io : Io} (h : Inv s) (hg : Guard s (.registry call io now))
    (hs : act valid s (.registry call io now) = some t) : Inv t.look := by
  obtain rfl := Option.some.inj hs
  refine ⟨h.limits.admits (commit_admits io now _ call), ?_, h.kept⟩
  refine h.lasting.look rfl rfl (le_max_left _ _) id fun p hp rec hrec hjoins => ?_
  -- live as the clock stands after the call, hence live at its reading, however stale
  obtain ⟨hmem, hlive⟩ := mem_liveAt.mp hrec
  have hbefore : rec ∈ s.world.leases.liveAt s.clock :=
    mem_liveAt.mpr ⟨hmem, live_of_le (le_max_left _ _) hlive⟩
  exact commit_keeps hmem (live_of_le (le_max_right _ _) hlive) hjoins (hg p hp rec hbefore hjoins)

/-- **One step.** -/
theorem step_inv (h : Inv s) (hg : Guard s e) (hs : step valid s e = some t) : Inv t := by
  unfold step at hs
  obtain ⟨t, hact, rfl⟩ := Option.map_eq_some_iff.mp hs
  cases e with
  | send env args kwargs => exact send_inv h hg hact
  | handOver now => exact handOver_inv h hg hact
  | sent => exact sent_inv h hact
  | turn sweep m now => exact turn_inv h hg hact
  | settle k => exact settle_inv h hact
  | registry call io now => exact registry_inv h hg hact
  | drift w =>
    obtain rfl := Option.some.inj hact
    exact h.still rfl rfl rfl le_rfl id h.kept

/-! ## Whole runs -/

theorem Start.inv (h : Start s) : Inv s where
  limits := by
    unfold links
    rw [h.leases]
    exact .nil
  lasting p hp := by
    have hdoor := (mem_holder.mp hp).2.1
    rw [h.door] at hdoor
    cases hdoor
  kept := by
    rw [h.handed]
    exact fun _ hnone => absurd hnone List.not_mem_nil

/-- **The gate at the moment of delivery.** Where the lease is spared until it lapses and no attempt
comes later, every hand-over of a message that asks for an answer finds a live lease between its two
agents, and the recipient claimed by nobody else; unless the registry was degraded at the gate. -/
theorem door_open_at_delivery {es : List Event} (h0 : Start s)
    (hrun : Run (step valid) Guard s es t) : ∀ h ∈ t.handed, h.Kept :=
  (hrun.invariant (fun _ _ _ h hg hs => step_inv h hg hs) h0.inv).kept

/-! ## Zero's question -/

/-- Zero's question to vera fails at 1000, and its lease lapses at 2800. Britney claims vera's door at
the first instant, and a sweep comes to the question at the second. -/
def retried (claimed swept : Time) : List Event :=
  [.send zeroQueues question [], .handOver 1000, .sent,
    .registry (.claim "b1" "britney" "vera" 30) {} claimed,
    .turn { now := swept } { env := zeroBack } swept]

def quiet : State := { world := emptyWorld }

theorem quiet_start : Start quiet := ⟨rfl, rfl, rfl, rfl⟩

/-- One hand-over: whether the message holds its door by a lease, the instant, who is joined by live
leases, and who else talks to the recipient. -/
structure HandOverReport where
  holds : Bool
  now : Time
  joined : List String
  blockers : List String
  deriving DecidableEq

def HandOver.report (h : HandOver) : HandOverReport where
  holds := h.door.holds
  now := h.now
  joined := ((h.leases.liveAt h.now).filter h.door.isJoinedBy).map (·.threadId)
  blockers := ((h.leases.liveAt h.now).filter h.door.isBlockedBy).map (·.openedBy)

/-- A retry in time: britney was refused, and vera is still zero's. -/
theorem door_open_at_delivery_question :
    ∃ t, Run (step nameToken) Guard quiet (retried 1500 2000) t ∧
      t.handed.map HandOver.report = [⟨true, 2000, ["m1"], []⟩, ⟨true, 1000, ["m1"], []⟩] ∧
      ∀ h ∈ t.handed, h.Kept := by
  have hruns : (exec (checked (fun s e => decide (Guard s e)) (step nameToken)) quiet
      (retried 1500 2000)).map (fun t => t.handed.map HandOver.report) =
      some [⟨true, 2000, ["m1"], []⟩, ⟨true, 1000, ["m1"], []⟩] := by
    decide +kernel
  obtain ⟨t, hexec, hreport⟩ := Option.map_eq_some_iff.mp hruns
  have hrun : Run (step nameToken) Guard quiet (retried 1500 2000) t :=
    (run_of_checked hexec).mono fun _ _ hg => of_decide_eq_true hg
  exact ⟨t, hrun, hreport, door_open_at_delivery quiet_start hrun⟩

/-- A retry after the lease: britney has claimed vera, and the question reaches her all the same. -/
theorem door_taken_at_retry :
    ∃ t, Run (step nameToken) Free quiet (retried 2900 3000) t ∧
      ∃ h ∈ t.handed, h.door.mail.reply = .yes ∧ h.door.degraded = false ∧
        (∀ rec ∈ h.leases.liveAt h.now, h.door.isJoinedBy rec = false) ∧
        ∃ rec ∈ h.leases.liveAt h.now, h.door.isBlockedBy rec = true := by
  have hruns : (exec (step nameToken) quiet (retried 2900 3000)).map (fun t =>
      t.handed.head?.map HandOver.report) = some (some ⟨true, 3000, [], ["britney"]⟩) := by
    decide +kernel
  obtain ⟨t, hexec, hreport⟩ := Option.map_eq_some_iff.mp hruns
  obtain ⟨h, hhead, hreport⟩ := Option.map_eq_some_iff.mp hreport
  obtain ⟨hholds, -, hjoined, hblocked⟩ := HandOverReport.mk.inj hreport
  refine ⟨t, run_of_exec hexec, h, List.mem_of_mem_head? hhead, ?_, ?_, ?_, ?_⟩
  · exact of_decide_eq_true (Bool.and_eq_true_iff.mp hholds).1
  · exact Bool.not_eq_true' _ ▸ (Bool.and_eq_true_iff.mp hholds).2
  · intro rec hrec
    have hnone := List.filter_eq_nil_iff.mp (List.map_eq_nil_iff.mp hjoined) rec hrec
    exact Bool.not_eq_true _ ▸ hnone
  · have hmem : "britney" ∈ ((h.leases.liveAt h.now).filter h.door.isBlockedBy).map (·.openedBy) := by
      rw [hblocked]
      exact List.mem_singleton_self _
    obtain ⟨rec, hrec, -⟩ := List.mem_map.mp hmem
    exact ⟨rec, List.mem_filter.mp hrec⟩

end Door

end HermesMesh
