import HermesMesh.BusyGate
import HermesMesh.LeaseRuns
import HermesMesh.Lib.Counted

/-!
# The registry that fails open

`open_threads.py` never raises into the send path: where the disk fails under it, it goes on as if
nothing were there, and counts that (`_degrade`). Here is every function of the module with its count,
those too that nothing else of the repository calls. Without the count they are the functions of
`OpenThreads` (`claim_erase` and those after it). As every failure that is covered up is counted,
processes whose counter stands still have seen the registry of a working disk, in any order of their
calls (`silent_calls`), and a claim that is refused has counted nothing (`refusal_counts_nothing`).
-/

namespace HermesMesh.FailOpen

open Lib Lib.Counted OpenThreads

/-- A computation on the registry file. -/
abbrev Registry := Counted File

variable {α : Type}

/-- `_read`. -/
def read (io : Io) : Registry (List Lease) := if io.readable then reads File.entries else fail []

/-- `_write`. -/
def write (io : Io) (entries : List Lease) : Registry Bool :=
  if io.writable then writes (some entries) true else fail false

/-- A section under `_registry_lock`, and what is returned where the lock fails. -/
def locked (io : Io) (onError : α) (body : Registry α) : Registry α :=
  if io.lockable then body else fail onError

/-! ## The functions -/

/-- The locked section of `claim`. -/
def claimLocked (io : Io) (now : Time) (threadId openedBy peer : String) (minutes : ℤ) :
    Registry Claimed := do
  let stored ← read io
  let entries := stored.filter (live now)
  match entries.find? (·.joins openedBy peer) with
  | some rec => pure (.traffic rec)
  | none =>
  match entries.find? (blocks openedBy peer) with
  | some rec => pure (.busy rec)
  | none =>
  let same := fun r : Lease => decide (r.openedBy = openedBy ∧ r.peer = peer)
  let extend := fun r : Lease => { r with leaseUntil := max r.leaseUntil (now + minutes * 60) }
  match entries.find? same with
  | some rec => do
    let _ ← write io (updateFirst same extend entries)
    pure (.merged (extend rec))
  | none =>
    let outbound := entries.filter (·.openedBy = openedBy)
    if maxOutboundThreads ≤ outbound.length then
      pure (.cap maxOutboundThreads (outbound.map (·.threadId)) (outbound.map (·.peer)))
    else do
      let lease := newLease now threadId openedBy peer minutes
      let written ← write io (entries ++ [lease])
      pure (if written then .opened lease else .degraded)

/-- `claim`. -/
def claim (valid : TokenRule) (now : Time) (threadId openedBy peer : String) (minutes : ℤ) (io : Io) :
    Registry (Except PyError Claimed) :=
  match validateEnvelopeToken valid threadId, validateEnvelopeToken valid openedBy,
      validateEnvelopeToken valid peer with
  | .ok tid, .ok by_, .ok to_ =>
    .ok <$> locked io .degraded (claimLocked io now tid by_ to_ (clampMinutes minutes))
  | .error e, _, _ | _, .error e, _ | _, _, .error e => pure (.error e)

/-- `open_thread`: no gate, and a lease under the same id is replaced. -/
def openThread (valid : TokenRule) (now : Time) (threadId openedBy peer : String) (minutes : ℤ)
    (io : Io) : Registry (Except PyError (Option Lease)) :=
  match validateEnvelopeToken valid threadId, validateEnvelopeToken valid openedBy,
      validateEnvelopeToken valid peer with
  | .ok tid, .ok by_, .ok to_ =>
    let rec_ := newLease now tid by_ to_ (clampMinutes minutes)
    .ok <$> locked io none (do
      let entries ← read io
      let fresh := entries.filter fun r => live now r && decide (r.threadId ≠ tid)
      let written ← write io (fresh ++ [rec_])
      pure (if written then some rec_ else none))
  | .error e, _, _ | _, .error e, _ | _, _, .error e => pure (.error e)

/-- `touch`. -/
def touch (now : Time) (threadId : String) (resizeTo : Option ℤ) (io : Io) : Registry (Option Lease) :=
  locked io none (do
    let entries ← read io
    match entries.find? (anchored threadId now) with
    | some rec => do
      let _ ← write io (updateFirst (anchored threadId now) (bump now resizeTo) entries)
      pure (some (bump now resizeTo rec))
    | none => pure none)

/-- `release`. -/
def release (threadId : String) (io : Io) : Registry Bool :=
  locked io false (do
    let entries ← read io
    let kept := entries.filter (·.threadId ≠ threadId)
    if kept.length ≠ entries.length then do
      let _ ← write io kept
      pure true
    else pure false)

/-- `release_if_party`. -/
def releaseIfParty (threadId who : String) (io : Io) : Registry Bool :=
  locked io false (do
    let entries ← read io
    if entries.any (releasable (.str threadId) who) then do
      let _ ← write io (entries.filter fun r => !releasable (.str threadId) who r)
      pure true
    else pure false)

/-- `release_if_party_status`; an absent registry that was configured is a fault too. -/
def releaseIfPartyStatus (explicitlyConfigured : Bool) (threadId : Json) (who : String) (io : Io) :
    Registry Status :=
  let unavailable : Status := ⟨false, .registryUnavailable⟩
  if io.statOk then do
    match ← reads id with
    | none => if explicitlyConfigured then fail unavailable else pure ⟨false, .noSuchLease⟩
    | some entries =>
      locked io unavailable
        (if io.readable then
          if entries.any (releasable threadId who) then do
            let written ← write io (entries.filter fun r => !releasable threadId who r)
            pure (if written then ⟨true, .released⟩ else unavailable)
          else if entries.any (fun r => threadId.isStr r.threadId) then pure ⟨false, .notAParty⟩
          else pure ⟨false, .noSuchLease⟩
        else fail unavailable)
  else fail unavailable

/-- `lease_for`. -/
def leaseFor (now : Time) (threadId : String) (io : Io) : Registry (Option Lease) :=
  if threadId = "" then pure none
  else (·.find? (anchored threadId now)) <$> read io

/-- The unlocked look of `expire`: the live leases, and whether anything has lapsed. -/
def look (now : Time) (io : Io) : Registry (List Lease × Bool) := do
  let entries ← read io
  let live := entries.filter (live now)
  pure (live, live.length ≠ entries.length)

/-- The locked sweep of `expire`; without the lock it returns what the look found. -/
def sweep (now : Time) (found : List Lease) (io : Io) : Registry (List Lease) :=
  locked io found (do
    let entries ← read io
    let fresh := entries.filter (live now)
    let _ ← write io fresh
    pure fresh)

/-- `expire` and `load`, where no other process comes between. -/
def expire (now : Time) (io : Io) : Registry (List Lease) := do
  let (found, lapsed) ← look now io
  if lapsed then sweep now found io else pure found

/-- `get`. -/
def get (now : Time) (threadId : String) (io : Io) : Registry (Option Lease) :=
  (·.find? (·.threadId = threadId)) <$> expire now io

/-- `conflict`. -/
def conflict (now : Time) (target sender : String) (io : Io) : Registry (Option Lease) :=
  (·.find? fun r => r.hasParty target && !r.hasParty sender) <$> expire now io

/-! ## Without the count -/

section

variable {io : Io} {now : Time} {file : File}

@[simp] theorem read_erase : (read io).erase file = (OpenThreads.read io file, file) := by
  unfold read OpenThreads.read
  split_ifs <;> rfl

@[simp] theorem write_erase (entries : List Lease) :
    (write io entries).erase file = OpenThreads.write io entries file := by
  unfold write OpenThreads.write
  split_ifs <;> rfl

theorem locked_erase (onError : α) (body : Registry α) :
    (locked io onError body).erase file =
      if io.lockable then body.erase file else (onError, file) := by
  unfold locked
  split_ifs <;> rfl

theorem claimLocked_erase (threadId openedBy peer : String) (minutes : ℤ) :
    (claimLocked io now threadId openedBy peer minutes).erase file =
      OpenThreads.claimLocked io now threadId openedBy peer minutes file := by
  unfold claimLocked OpenThreads.claimLocked
  rw [erase_bind, read_erase]
  dsimp only
  generalize (OpenThreads.read io file).filter (live now) = entries
  cases entries.find? (·.joins openedBy peer) with
  | some rec => rfl
  | none =>
  cases entries.find? (blocks openedBy peer) with
  | some rec => rfl
  | none =>
  cases entries.find? fun r => decide (r.openedBy = openedBy ∧ r.peer = peer) with
  | some rec => simp
  | none =>
    dsimp only
    split_ifs
    · rfl
    · rw [erase_bind, write_erase]
      rcases OpenThreads.write io _ file with ⟨_ | _, _⟩ <;> rfl

theorem claim_erase (valid : TokenRule) (threadId openedBy peer : String) (minutes : ℤ) :
    (claim valid now threadId openedBy peer minutes io).erase file =
      OpenThreads.claim valid io now threadId openedBy peer minutes file := by
  unfold claim OpenThreads.claim
  generalize validateEnvelopeToken valid threadId = tid, validateEnvelopeToken valid openedBy = by_,
    validateEnvelopeToken valid peer = to_
  match tid, by_, to_ with
  | .ok tid, .ok by_, .ok to_ =>
    dsimp only
    rw [erase_map, locked_erase]
    split_ifs
    · rw [claimLocked_erase]
    · rfl
  | .error e, _, _ | .ok _, .error e, _ | .ok _, .ok _, .error e => rfl

theorem touch_erase (threadId : String) (resizeTo : Option ℤ) :
    (touch now threadId resizeTo io).erase file = OpenThreads.touch io now threadId resizeTo file := by
  unfold touch OpenThreads.touch
  rw [locked_erase, erase_bind, read_erase]
  dsimp only
  split_ifs
  · cases (OpenThreads.read io file).find? (anchored threadId now) with
    | some rec => simp
    | none => rfl
  · rfl

theorem release_erase (threadId : String) :
    (release threadId io).erase file = OpenThreads.release io threadId file := by
  unfold release OpenThreads.release
  rw [locked_erase, erase_bind, read_erase]
  dsimp only
  split_ifs <;> simp

theorem releaseIfParty_erase (threadId who : String) :
    (releaseIfParty threadId who io).erase file = OpenThreads.releaseIfParty io threadId who file := by
  unfold releaseIfParty OpenThreads.releaseIfParty
  rw [locked_erase, erase_bind, read_erase]
  dsimp only
  split_ifs <;> simp

theorem releaseIfPartyStatus_erase (explicitlyConfigured : Bool) (threadId : Json) (who : String) :
    (releaseIfPartyStatus explicitlyConfigured threadId who io).erase file =
      OpenThreads.releaseIfPartyStatus explicitlyConfigured io threadId who file := by
  unfold releaseIfPartyStatus OpenThreads.releaseIfPartyStatus
  cases io.statOk with
  | false => rfl
  | true =>
    cases file with
    | none => cases explicitlyConfigured <;> rfl
    | some entries =>
      simp only [Bool.not_true, Bool.false_eq_true, if_true, if_false, erase_bind, erase_reads, id]
      rw [locked_erase]
      cases io.lockable with
      | false => rfl
      | true =>
        cases io.readable with
        | false => rfl
        | true =>
          simp only [Bool.not_true, Bool.or_false, Bool.false_eq_true, if_true, if_false]
          split_ifs
          · rw [erase_bind, write_erase]
            rcases OpenThreads.write io _ (some entries) with ⟨_ | _, _⟩ <;> rfl
          · rfl
          · rfl

theorem leaseFor_erase (threadId : String) :
    (leaseFor now threadId io).erase file = (OpenThreads.leaseFor io now threadId file, file) := by
  unfold leaseFor OpenThreads.leaseFor
  split_ifs
  · rfl
  · rw [erase_map, read_erase]

theorem look_erase :
    (look now io).erase file =
      (((OpenThreads.read io file).filter (live now), lapsed io now file), file) := by
  unfold look lapsed
  rw [erase_bind, read_erase]
  simp

theorem sweep_erase (found : List Lease) :
    (sweep now found io).erase file =
      if io.lockable then expireLocked io now file else (found, file) := by
  unfold sweep expireLocked
  rw [locked_erase, erase_bind, read_erase]
  dsimp only
  split_ifs <;> simp

end

/-! ## Nothing is covered up in silence -/

section

variable {now : Time}

theorem read_honest : Honest read {} :=
  (Honest.const (reads File.entries) _).orFail Io.readable rfl []

theorem write_honest (entries : List Lease) : Honest (write · entries) {} :=
  (Honest.const (writes (some entries) true) _).orFail Io.writable rfl false

theorem locked_honest {body : Io → Registry α} (h : Honest body {}) (onError : α) :
    Honest (fun io => locked io onError (body io)) {} :=
  h.orFail Io.lockable rfl onError

theorem claimLocked_honest (threadId openedBy peer : String) (minutes : ℤ) :
    Honest (claimLocked · now threadId openedBy peer minutes) {} := by
  refine read_honest.bind fun stored => ?_
  generalize stored.filter (live now) = entries
  dsimp only
  cases entries.find? (·.joins openedBy peer) with
  | some rec => exact .const _ _
  | none =>
  cases entries.find? (blocks openedBy peer) with
  | some rec => exact .const _ _
  | none =>
  cases entries.find? fun r => decide (r.openedBy = openedBy ∧ r.peer = peer) with
  | some rec => exact (write_honest _).bind fun _ => .const _ _
  | none => exact .ite (.const _ _) ((write_honest _).bind fun _ => .const _ _)

theorem claim_honest (valid : TokenRule) (threadId openedBy peer : String) (minutes : ℤ) :
    Honest (claim valid now threadId openedBy peer minutes) {} := by
  unfold claim
  generalize validateEnvelopeToken valid threadId = tid, validateEnvelopeToken valid openedBy = by_,
    validateEnvelopeToken valid peer = to_
  match tid, by_, to_ with
  | .ok tid, .ok by_, .ok to_ => exact (locked_honest (claimLocked_honest _ _ _ _) _).map _
  | .error e, _, _ | .ok _, .error e, _ | .ok _, .ok _, .error e => exact .const _ _

theorem openThread_honest (valid : TokenRule) (threadId openedBy peer : String) (minutes : ℤ) :
    Honest (openThread valid now threadId openedBy peer minutes) {} := by
  unfold openThread
  generalize validateEnvelopeToken valid threadId = tid, validateEnvelopeToken valid openedBy = by_,
    validateEnvelopeToken valid peer = to_
  match tid, by_, to_ with
  | .ok tid, .ok by_, .ok to_ =>
    refine (locked_honest ?_ _).map _
    exact read_honest.bind fun _ => (write_honest _).bind fun _ => .const _ _
  | .error e, _, _ | .ok _, .error e, _ | .ok _, .ok _, .error e => exact .const _ _

theorem touch_honest (threadId : String) (resizeTo : Option ℤ) :
    Honest (touch now threadId resizeTo) {} := by
  refine locked_honest (read_honest.bind fun entries => ?_) none
  cases entries.find? (anchored threadId now) with
  | some rec => exact (write_honest _).bind fun _ => .const _ _
  | none => exact .const _ _

theorem release_honest (threadId : String) : Honest (release threadId) {} :=
  locked_honest (read_honest.bind fun _ =>
    .ite ((write_honest _).bind fun _ => .const _ _) (.const _ _)) false

theorem releaseIfParty_honest (threadId who : String) : Honest (releaseIfParty threadId who) {} :=
  locked_honest (read_honest.bind fun _ =>
    .ite ((write_honest _).bind fun _ => .const _ _) (.const _ _)) false

theorem releaseIfPartyStatus_honest (explicitlyConfigured : Bool) (threadId : Json) (who : String) :
    Honest (releaseIfPartyStatus explicitlyConfigured threadId who) {} := by
  refine Honest.orFail Io.statOk rfl ((Honest.const _ _).bind fun file => ?_) _
  cases file with
  | none => exact .const _ _
  | some entries =>
    refine locked_honest (Honest.orFail Io.readable rfl ?_ _) _
    exact .ite ((write_honest _).bind fun _ => .const _ _) (.const _ _)

theorem leaseFor_honest (threadId : String) : Honest (leaseFor now threadId) {} :=
  .ite (.const _ _) (read_honest.map _)

theorem look_honest : Honest (look now) {} := read_honest.bind fun _ => .const _ _

theorem sweep_honest (found : List Lease) : Honest (sweep now found) {} := by
  refine locked_honest (read_honest.bind fun _ => ?_) found
  exact (write_honest _).bind fun _ => .const _ _

theorem expire_honest : Honest (expire now) {} :=
  look_honest.bind fun _ => .ite (sweep_honest _) (.const _ _)

theorem get_honest (threadId : String) : Honest (get now threadId) {} := expire_honest.map _

theorem conflict_honest (target sender : String) : Honest (conflict now target sender) {} :=
  expire_honest.map _

end

/-! ## The accesses of many processes -/

/-- A call, or one of the two parts of `expire` where another process comes between them, with the reading
of the clock that it took. -/
inductive Access where
  | claim (now : Time) (threadId openedBy peer : String) (minutes : ℤ)
  | openThread (now : Time) (threadId openedBy peer : String) (minutes : ℤ)
  | touch (now : Time) (threadId : String) (resizeTo : Option ℤ)
  | release (threadId : String)
  | releaseIfParty (threadId who : String)
  | releaseIfPartyStatus (explicitlyConfigured : Bool) (threadId : Json) (who : String)
  | leaseFor (now : Time) (threadId : String)
  | expire (now : Time)
  | get (now : Time) (threadId : String)
  | conflict (now : Time) (target sender : String)
  | look (now : Time)
  | sweep (now : Time) (found : List Lease)

/-- What it returns. -/
inductive Answer where
  | claimed (result : Except PyError Claimed)
  | opened (result : Except PyError (Option Lease))
  | lease (rec : Option Lease)
  | done (released : Bool)
  | status (status : Status)
  | looked (found : List Lease) (lapsed : Bool)
  | swept (rest : List Lease)

def Access.run (valid : TokenRule) (access : Access) (io : Io) : Registry Answer :=
  match access with
  | .claim now threadId openedBy peer minutes =>
    .claimed <$> FailOpen.claim valid now threadId openedBy peer minutes io
  | .openThread now threadId openedBy peer minutes =>
    .opened <$> FailOpen.openThread valid now threadId openedBy peer minutes io
  | .touch now threadId resizeTo => .lease <$> FailOpen.touch now threadId resizeTo io
  | .release threadId => .done <$> FailOpen.release threadId io
  | .releaseIfParty threadId who => .done <$> FailOpen.releaseIfParty threadId who io
  | .releaseIfPartyStatus explicitlyConfigured threadId who =>
    .status <$> FailOpen.releaseIfPartyStatus explicitlyConfigured threadId who io
  | .leaseFor now threadId => .lease <$> FailOpen.leaseFor now threadId io
  | .expire now => .swept <$> FailOpen.expire now io
  | .get now threadId => .lease <$> FailOpen.get now threadId io
  | .conflict now target sender => .lease <$> FailOpen.conflict now target sender io
  | .look now => (fun found => .looked found.1 found.2) <$> FailOpen.look now io
  | .sweep now found => .swept <$> FailOpen.sweep now found io

theorem Access.honest (valid : TokenRule) (access : Access) : Honest (access.run valid) {} := by
  cases access with
  | claim => exact (claim_honest _ _ _ _ _).map _
  | openThread => exact (openThread_honest _ _ _ _ _).map _
  | touch => exact (touch_honest _ _).map _
  | release => exact (release_honest _).map _
  | releaseIfParty => exact (releaseIfParty_honest _ _).map _
  | releaseIfPartyStatus => exact (releaseIfPartyStatus_honest _ _ _).map _
  | leaseFor => exact (leaseFor_honest _).map _
  | expire => exact expire_honest.map _
  | get => exact (get_honest _).map _
  | conflict => exact (conflict_honest _ _).map _
  | look => exact look_honest.map _
  | sweep => exact (sweep_honest _).map _

/-! ### What is counted -/

section

variable {io : Io} {now : Time} {file : File}

@[simp] theorem read_count : (read io).count file = if io.readable then 0 else 1 := by
  unfold read
  split_ifs <;> rfl

@[simp] theorem write_count (entries : List Lease) :
    (write io entries).count file = if io.writable then 0 else 1 := by
  unfold write
  split_ifs <;> rfl

@[simp] theorem locked_count (onError : α) (body : Registry α) :
    (locked io onError body).count file = if io.lockable then body.count file else 1 := by
  unfold locked
  split_ifs <;> rfl

theorem read_quiet : Quiet (read {}) := fun _ => rfl

theorem write_quiet (entries : List Lease) : Quiet (write {} entries) := fun _ => rfl

theorem locked_quiet {body : Registry α} (h : Quiet body) (onError : α) :
    Quiet (locked {} onError body) := h

theorem expire_quiet : Quiet (expire now {}) := by
  refine Quiet.bind (fun _ => rfl) fun found => .ite ?_ (.pure _)
  exact locked_quiet (read_quiet.bind fun _ => (write_quiet _).bind fun _ => .pure _) _

theorem claimLocked_quiet (threadId openedBy peer : String) (minutes : ℤ) :
    Quiet (claimLocked {} now threadId openedBy peer minutes) := by
  refine read_quiet.bind fun stored => ?_
  generalize stored.filter (live now) = entries
  dsimp only
  cases entries.find? (·.joins openedBy peer) with
  | some rec => exact .pure _
  | none =>
  cases entries.find? (blocks openedBy peer) with
  | some rec => exact .pure _
  | none =>
  cases entries.find? fun r => decide (r.openedBy = openedBy ∧ r.peer = peer) with
  | some rec => exact (write_quiet _).bind fun _ => .pure _
  | none => exact .ite (.pure _) ((write_quiet _).bind fun _ => .pure _)

theorem releaseIfPartyStatus_count (explicitlyConfigured : Bool) (entries : List Lease)
    (threadId : Json) (who : String) :
    (FailOpen.releaseIfPartyStatus explicitlyConfigured threadId who {}).count (some entries) = 0 := by
  unfold FailOpen.releaseIfPartyStatus
  rw [if_pos rfl, count_bind, count_reads, erase_reads, Nat.zero_add]
  dsimp only [id]
  rw [locked_count, if_pos rfl, if_pos rfl]
  split_ifs <;> rfl

/-- On a working disk only one thing is counted: a terminator that probes a configured registry which
is not there. -/
theorem Access.quiet (valid : TokenRule) (access : Access) (hcount : (access.run valid {}).count file ≠ 0) :
    file = none ∧ ∃ threadId who, access = .releaseIfPartyStatus true threadId who := by
  have hwrites : ∀ {β : Type} (entries : List Lease) (f : Bool → β),
      Quiet (do let written ← write {} entries; pure (f written)) :=
    fun entries f => (write_quiet entries).bind fun _ => .pure _
  cases access with
  | claim now threadId openedBy peer minutes =>
    refine absurd (Quiet.map _ ?_ file) hcount
    unfold FailOpen.claim
    split
    · exact .map _ (claimLocked_quiet _ _ _ _)
    all_goals exact .pure _
  | openThread now threadId openedBy peer minutes =>
    refine absurd (Quiet.map _ ?_ file) hcount
    unfold FailOpen.openThread
    split
    · exact .map _ (read_quiet.bind fun _ => hwrites _ _)
    all_goals exact .pure _
  | touch now threadId resizeTo =>
    refine absurd (Quiet.map _ (locked_quiet (read_quiet.bind fun entries => ?_) _) file) hcount
    cases entries.find? (anchored threadId now) with
    | some rec => exact hwrites _ _
    | none => exact .pure _
  | release threadId =>
    have hquiet : Quiet (FailOpen.release threadId {}) :=
      locked_quiet (read_quiet.bind fun _ => .ite (hwrites _ _) (.pure _)) _
    exact absurd (hquiet file) hcount
  | releaseIfParty threadId who =>
    have hquiet : Quiet (FailOpen.releaseIfParty threadId who {}) :=
      locked_quiet (read_quiet.bind fun _ => .ite (hwrites _ _) (.pure _)) _
    exact absurd (hquiet file) hcount
  | releaseIfPartyStatus explicitlyConfigured threadId who =>
    cases file with
    | none =>
      cases explicitlyConfigured with
      | true => exact ⟨rfl, threadId, who, rfl⟩
      | false => exact absurd rfl hcount
    | some entries =>
      exact absurd (releaseIfPartyStatus_count explicitlyConfigured entries threadId who) hcount
  | leaseFor now threadId =>
    have hquiet : Quiet (FailOpen.leaseFor now threadId {}) := .ite (.pure _) (.map _ read_quiet)
    exact absurd (hquiet file) hcount
  | expire now => exact absurd (Quiet.map _ expire_quiet file) hcount
  | get now threadId => exact absurd (Quiet.map _ (Quiet.map _ expire_quiet) file) hcount
  | conflict now target sender => exact absurd (Quiet.map _ (Quiet.map _ expire_quiet) file) hcount
  | look now => exact absurd rfl hcount
  | sweep now found => exact absurd rfl hcount

/-- A refused claim has read the registry, and has not come to write it. -/
theorem claimLocked_refuses (threadId openedBy peer : String) (minutes : ℤ) :
    ((claimLocked io now threadId openedBy peer minutes).erase file).1.ok = false →
      (claimLocked io now threadId openedBy peer minutes).count file = 0 := by
  unfold claimLocked
  rw [erase_bind, count_bind, read_count, read_erase]
  cases hreadable : io.readable with
  | false =>
    -- nothing was read, so nothing refuses
    have hroom : ¬ maxOutboundThreads ≤ 0 := by decide
    rw [show OpenThreads.read io file = [] from if_neg (by rw [hreadable]; nofun)]
    simp only [List.filter_nil, List.find?_nil, List.length_nil, hroom, if_false, erase_bind,
      write_erase, erase_pure]
    split_ifs <;> exact nofun
  | true =>
    rw [if_pos rfl, Nat.zero_add]
    dsimp only
    generalize (OpenThreads.read io file).filter (live now) = entries
    cases entries.find? (·.joins openedBy peer) with
    | some rec => exact fun _ => rfl
    | none =>
    cases entries.find? (blocks openedBy peer) with
    | some rec => exact fun _ => rfl
    | none =>
    cases entries.find? fun r => decide (r.openedBy = openedBy ∧ r.peer = peer) with
    | some rec => exact nofun
    | none =>
      dsimp only
      split_ifs with hcap
      · exact fun _ => rfl
      · rw [erase_bind, write_erase, erase_pure]
        split_ifs <;> exact nofun

/-- A refused claim counts nothing. -/
theorem claim_refuses {valid : TokenRule} {threadId openedBy peer : String} {minutes : ℤ}
    {claimed : Claimed} {file' : File}
    (h : OpenThreads.claim valid io now threadId openedBy peer minutes file = (.ok claimed, file'))
    (hrefused : claimed.ok = false) :
    (FailOpen.claim valid now threadId openedBy peer minutes io).count file = 0 := by
  rw [← claim_erase] at h
  revert h
  unfold FailOpen.claim
  split
  · rw [erase_map, locked_erase, count_map, locked_count]
    split_ifs
    · intro h
      obtain rfl := Except.ok.inj (Prod.mk.inj h).1
      exact claimLocked_refuses _ _ _ _ hrefused
    · intro h
      obtain rfl := Except.ok.inj (Prod.mk.inj h).1
      cases hrefused
  all_goals exact fun _ => rfl

end

/-! ## Every access, and the send path -/

/-- **Fail-open is counted.** However the calls of any processes follow each other and whatever their
disks do: where the counter stands still, every answer and the registry are those of working disks; on a
working disk nothing is counted but a probe for a configured registry that is not there; and where the
gate refuses a send, its claim has met no failure. -/
theorem fail_open_is_counted (valid : TokenRule) :
    (∀ (calls : List (Access × Io)) (file : File), (steps (Access.run valid) calls).count file = 0 →
      steps (Access.run valid) calls file =
        steps (Access.run valid) (calls.map fun call => (call.1, {})) file) ∧
    (∀ (access : Access) (file : File), (access.run valid {}).count file ≠ 0 →
      file = none ∧ ∃ threadId who, access = .releaseIfPartyStatus true threadId who) ∧
    ∀ (env : Env) (mail : Mail) (w w' : World) (refusal : Response),
      gate env mail w = (.error refusal, w') →
        (FailOpen.claim env.valid env.claim.now mail.taskId mail.self mail.agent defaultLeaseMinutes
          env.claim.io).count w.leases = 0 := by
  refine ⟨fun calls file => steps_silent (Access.honest valid) calls file,
    fun access file => access.quiet valid, fun env mail w w' refusal h => ?_⟩
  unfold gate at h
  cases hreply : mail.reply with
  | no | end_ =>
    rw [hreply] at h
    cases (Prod.mk.inj h).1
  | yes =>
    rw [hreply] at h
    dsimp only at h
    split_ifs at h
    · cases (Prod.mk.inj h).1
    · unfold Env.claimDoor at h
      generalize hclaim : OpenThreads.claim env.valid env.claim.io env.claim.now mail.taskId mail.self
        mail.agent defaultLeaseMinutes w.leases = result at h
      obtain ⟨e | claimed, leases⟩ := result
      · cases (Prod.mk.inj h).1
      · refine claim_refuses hclaim ?_
        cases claimed with
        | busy | cap => rfl
        | traffic | merged | opened | degraded => cases (Prod.mk.inj h).1

/-- linda has called vera. -/
def engaged : World :=
  { emptyWorld with leases := some [newLease 900 "u" "linda" "vera" 30] }

/-- The call is prepared, and the gate refuses it. -/
def refuses (env : Env) (args kwargs : List (String × Json)) (w : World) : Bool :=
  match prepare env args kwargs w with
  | (.ok mail, w) => !(gate env mail w).1.isOk
  | _ => false

theorem exists_of_refuses {env : Env} {args kwargs : List (String × Json)} {w : World}
    (h : refuses env args kwargs w = true) :
    ∃ mail w₁ refusal w₂, prepare env args kwargs w = (.ok mail, w₁) ∧
      gate env mail w₁ = (.error refusal, w₂) := by
  unfold refuses at h
  generalize prepare env args kwargs w = p at h
  obtain ⟨stop | mail, w₁⟩ := p
  · cases h
  · dsimp only at h
    generalize hgate : gate env mail w₁ = g at h
    obtain ⟨refusal | held, w₂⟩ := g
    · exact ⟨mail, w₁, refusal, w₂, rfl, hgate⟩
    · cases h

/-- Zero's question to vera is refused, and its claim has met no failure. -/
theorem fail_open_is_counted_engaged :
    ∃ mail w₁ refusal w₂, prepare zeroDown question [] engaged = (.ok mail, w₁) ∧
      gate zeroDown mail w₁ = (.error refusal, w₂) ∧
      (FailOpen.claim zeroDown.valid zeroDown.claim.now mail.taskId mail.self mail.agent
        defaultLeaseMinutes zeroDown.claim.io).count w₁.leases = 0 := by
  have hrefuses : refuses zeroDown question [] engaged = true := by decide +kernel
  obtain ⟨mail, w₁, refusal, w₂, hprep, hgate⟩ := exists_of_refuses hrefuses
  exact ⟨mail, w₁, refusal, w₂, hprep, hgate,
    (fail_open_is_counted zeroDown.valid).2.2 zeroDown mail w₁ w₂ refusal hgate⟩

end HermesMesh.FailOpen
