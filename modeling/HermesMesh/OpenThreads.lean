import HermesMesh.Common
import HermesMesh.Lib.FirstMatch
import HermesMesh.Lib.PairLimits
import Mathlib.Data.Finset.Insert
import Mathlib.Algebra.Order.Ring.Rat
import Mathlib.Tactic.Linarith

/-!
# The open-thread lease registry

Every function of `open_threads.py` that the send path and the gateways call, as a function of the
registry file. A locked section reads the file, edits the list and writes it back; `Io` says how its
accesses to the disk went, and a failed one degrades as the source does: an unreadable registry
reads as empty (the backup taken of it is a copy, so the file stays), a failed write leaves the file
as it was. The clock reading `now` is an argument, because every process takes it before it takes
the lock. A list entry of another shape than `open_thread` and `claim` write (`Lease`) is not
represented.
-/

namespace HermesMesh.OpenThreads

open Lib

/-- `MAX_OUTBOUND_THREADS`. -/
def maxOutboundThreads : ℕ := 3

/-- `DEFAULT_LEASE_MINUTES`. -/
def defaultLeaseMinutes : ℤ := 30

/-- `MAX_LEASE_MINUTES`. -/
def maxLeaseMinutes : ℤ := 24 * 60

/-- One record of the registry. -/
structure Lease where
  threadId : String
  openedBy : String
  peer : String
  openedAt : Time
  leaseUntil : Time
  leaseMinutes : ℤ
  replies : ℕ
  resized : Bool
  deriving DecidableEq, Repr

/-- The registry file: absent, or the list it holds. -/
abbrev File := Option (List Lease)

/-- The records of the file; an absent file holds none. -/
def File.entries (file : File) : List Lease := file.getD []

@[simp] theorem File.entries_some (l : List Lease) : File.entries (some l) = l := rfl

/-! ## Records -/

/-- `_live`. -/
def live (now : Time) (rec : Lease) : Bool := decide (now < rec.leaseUntil)

/-- `who in {opened_by, peer}`. -/
def Lease.hasParty (rec : Lease) (who : String) : Bool :=
  decide (who ∈ ({rec.openedBy, rec.peer} : Finset String))

/-- `{opened_by, peer} == {a, b}`. -/
def Lease.joins (rec : Lease) (a b : String) : Bool :=
  decide (({rec.openedBy, rec.peer} : Finset String) = {a, b})

/-- The link from the agent who opened the thread to the one she reached. -/
def Lease.link (rec : Lease) : String × String := (rec.openedBy, rec.peer)

theorem live_iff {now : Time} {rec : Lease} : live now rec = true ↔ now < rec.leaseUntil := by
  simp [live]

/-- A lease live at a reading is live at every earlier one. -/
theorem live_of_le {now now' : Time} {rec : Lease} (hle : now ≤ now') (h : live now' rec = true) :
    live now rec = true := by
  rw [live_iff] at *
  exact hle.trans_lt h

theorem hasParty_iff {rec : Lease} {who : String} :
    rec.hasParty who = true ↔ who = rec.openedBy ∨ who = rec.peer := by
  simp [Lease.hasParty]

theorem joins_iff {rec : Lease} {a b : String} :
    rec.joins a b = true ↔
      rec.openedBy = a ∧ rec.peer = b ∨ rec.openedBy = b ∧ rec.peer = a := by
  unfold Lease.joins
  rw [decide_eq_true_iff, ← Finset.coe_inj, Finset.coe_pair, Finset.coe_pair]
  exact Set.pair_eq_pair_iff

theorem joins_iff_samePair {rec : Lease} {a b : String} :
    rec.joins a b = true ↔ SamePair rec.link (a, b) := by
  rw [joins_iff, samePair_iff]
  exact Iff.rfl

/-- Whoever a lease joins is a party to it. -/
theorem hasParty_of_joins {rec : Lease} {a b : String} (h : rec.joins a b = true) :
    rec.hasParty a = true ∧ rec.hasParty b = true := by
  rw [joins_iff] at h
  rw [hasParty_iff, hasParty_iff]
  rcases h with ⟨rfl, rfl⟩ | ⟨rfl, rfl⟩ <;> simp

/-! ## Reading and writing -/

/-- `_read`: an unreadable registry reads as empty. -/
def read (io : Io) (file : File) : List Lease :=
  if io.readable then file.entries else []

/-- `_write`: the whole file is replaced, or nothing happens. -/
def write (io : Io) (entries : List Lease) (file : File) : Bool × File :=
  if io.writable then (true, some entries) else (false, file)

theorem read_sublist (io : Io) (file : File) : (read io file).Sublist file.entries := by
  unfold read
  split_ifs
  · exact List.Sublist.refl _
  · exact List.nil_sublist _

theorem write_snd (io : Io) (entries : List Lease) (file : File) :
    (write io entries file).2 = if io.writable then some entries else file := by
  unfold write
  split_ifs <;> rfl

/-! ## The operations -/

/-- `max(1, min(int(minutes), MAX_LEASE_MINUTES))`. -/
def clampMinutes (minutes : ℤ) : ℤ := max 1 (min minutes maxLeaseMinutes)

/-- The record a claim writes. -/
def newLease (now : Time) (threadId openedBy peer : String) (minutes : ℤ) : Lease where
  threadId := threadId
  openedBy := openedBy
  peer := peer
  openedAt := now
  leaseUntil := now + minutes * 60
  leaseMinutes := minutes
  replies := 0
  resized := false

/-- What `claim` returns. -/
inductive Claimed where
  /-- A live lease joins the pair already. -/
  | traffic (lease : Lease)
  | merged (lease : Lease)
  | opened (lease : Lease)
  /-- Granted without a lease, because the registry failed. -/
  | degraded
  | busy (blocker : Lease)
  | cap (limit : ℕ) (threads peers : List String)
  deriving DecidableEq, Repr

/-- `claimed.get("ok")`. -/
def Claimed.ok : Claimed → Bool
  | busy _ | cap .. => false
  | _ => true

/-- `claimed.get("lease")`. -/
def Claimed.lease : Claimed → Option Lease
  | traffic rec | merged rec | opened rec => some rec
  | _ => none

/-- Somebody else's lease names `peer` as the one being talked to. -/
def blocks (openedBy peer : String) (rec : Lease) : Bool :=
  decide (rec.peer = peer ∧ rec.openedBy ≠ openedBy ∧ rec.openedBy ≠ peer)

/-- The locked section of `claim`. -/
def claimLocked (io : Io) (now : Time) (threadId openedBy peer : String) (minutes : ℤ)
    (file : File) : Claimed × File :=
  let entries := (read io file).filter (live now)
  match entries.find? (·.joins openedBy peer) with
  | some rec => (.traffic rec, file)
  | none =>
  match entries.find? (blocks openedBy peer) with
  | some rec => (.busy rec, file)
  | none =>
  let same := fun r : Lease => decide (r.openedBy = openedBy ∧ r.peer = peer)
  let extend := fun r : Lease => { r with leaseUntil := max r.leaseUntil (now + minutes * 60) }
  match entries.find? same with
  | some rec => (.merged (extend rec), (write io (updateFirst same extend entries) file).2)
  | none =>
  let outbound := entries.filter (·.openedBy = openedBy)
  if maxOutboundThreads ≤ outbound.length then
    (.cap maxOutboundThreads (outbound.map (·.threadId)) (outbound.map (·.peer)), file)
  else
    let lease := newLease now threadId openedBy peer minutes
    match write io (entries ++ [lease]) file with
    | (true, file) => (.opened lease, file)
    | (false, file) => (.degraded, file)

/-- `claim`; a malformed token raises before the lock is taken. -/
def claim (valid : TokenRule) (io : Io) (now : Time) (threadId openedBy peer : String)
    (minutes : ℤ) (file : File) : Except PyError Claimed × File :=
  match validateEnvelopeToken valid threadId, validateEnvelopeToken valid openedBy,
      validateEnvelopeToken valid peer with
  | .ok tid, .ok by_, .ok to_ =>
    if io.lockable then
      let (claimed, file) := claimLocked io now tid by_ to_ (clampMinutes minutes) file
      (.ok claimed, file)
    else (.ok .degraded, file)
  | .error e, _, _ | _, .error e, _ | _, _, .error e => (.error e, file)

/-- `touch`'s edit of the record it finds. -/
def bump (now : Time) (resizeTo : Option ℤ) (rec : Lease) : Lease :=
  let counted := { rec with replies := rec.replies + 1 }
  match resizeTo with
  | some minutes =>
    if rec.resized then counted
    else
      { counted with
        leaseMinutes := clampMinutes minutes
        leaseUntil := now + clampMinutes minutes * 60
        resized := true }
  | none => counted

/-- The record `touch` and `lease_for` look for. -/
def anchored (threadId : String) (now : Time) (rec : Lease) : Bool :=
  decide (rec.threadId = threadId) && live now rec

theorem live_of_anchored {threadId : String} {now : Time} {rec : Lease}
    (h : anchored threadId now rec = true) : live now rec = true :=
  (Bool.and_eq_true_iff.mp h).2

/-- `touch`: the first live record under the id is counted, and resized once. -/
def touch (io : Io) (now : Time) (threadId : String) (resizeTo : Option ℤ) (file : File) :
    Option Lease × File :=
  if io.lockable then
    let entries := read io file
    match entries.find? (anchored threadId now) with
    | some rec =>
      (some (bump now resizeTo rec),
        (write io (updateFirst (anchored threadId now) (bump now resizeTo) entries) file).2)
    | none => (none, file)
  else (none, file)

/-- `release`. -/
def release (io : Io) (threadId : String) (file : File) : Bool × File :=
  if io.lockable then
    let entries := read io file
    let kept := entries.filter (·.threadId ≠ threadId)
    if kept.length ≠ entries.length then (true, (write io kept file).2) else (false, file)
  else (false, file)

/-- The records that `who`, as a party, may release under the id. -/
def releasable (threadId : Json) (who : String) (rec : Lease) : Bool :=
  threadId.isStr rec.threadId && rec.hasParty who

/-- `release_if_party`. -/
def releaseIfParty (io : Io) (threadId who : String) (file : File) : Bool × File :=
  if io.lockable then
    let entries := read io file
    if entries.any (releasable (.str threadId) who) then
      (true, (write io (entries.filter fun r => !releasable (.str threadId) who r) file).2)
    else (false, file)
  else (false, file)

/-- The four reasons a terminator reports. -/
inductive Reason where
  | released
  | noSuchLease
  | notAParty
  | registryUnavailable
  deriving DecidableEq, Repr

/-- What `release_if_party_status` returns. -/
structure Status where
  released : Bool
  reason : Reason
  deriving DecidableEq, Repr

/-- `release_if_party_status`. An absent file is a fault only where `MESH_OPEN_THREADS` names it. -/
def releaseIfPartyStatus (explicitlyConfigured : Bool) (io : Io) (threadId : Json) (who : String)
    (file : File) : Status × File :=
  let unavailable : Status := ⟨false, .registryUnavailable⟩
  if !io.statOk then (unavailable, file)
  else
    match file with
    | none => (if explicitlyConfigured then unavailable else ⟨false, .noSuchLease⟩, none)
    | some entries =>
      if !io.lockable || !io.readable then (unavailable, file)
      else if entries.any (releasable threadId who) then
        match write io (entries.filter fun r => !releasable threadId who r) file with
        | (true, file) => (⟨true, .released⟩, file)
        | (false, file) => (unavailable, file)
      else if entries.any (fun r => threadId.isStr r.threadId) then
        (⟨false, .notAParty⟩, file)
      else (⟨false, .noSuchLease⟩, file)

/-- `lease_for`. -/
def leaseFor (io : Io) (now : Time) (threadId : String) (file : File) : Option Lease :=
  if threadId = "" then none else (read io file).find? (anchored threadId now)

/-- The unlocked look of `expire`: whether anything has lapsed. -/
def lapsed (io : Io) (now : Time) (file : File) : Bool :=
  ((read io file).filter (live now)).length ≠ (read io file).length

/-- The locked section of `expire`. -/
def expireLocked (io : Io) (now : Time) (file : File) : List Lease × File :=
  let fresh := (read io file).filter (live now)
  if io.lockable then (fresh, (write io fresh file).2) else (fresh, file)

end HermesMesh.OpenThreads
