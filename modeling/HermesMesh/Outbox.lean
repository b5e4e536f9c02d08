import HermesMesh.Common
import Mathlib.Algebra.Order.Ring.Rat
import Mathlib.Data.List.AList
import Mathlib.Data.List.Sort
import Mathlib.Logic.Function.Basic

/-!
# The outbox

`outbox.py`: the items that `queue_message` writes and the sweep `retry_outbox` makes over them, one
file operation at a time, so that any operation may fail, another sweep may come in between, and the
process may stop. What `_attempt_item` does inside one attempt is its outcome here. The follow-ups of
a dead letter (withdrawing the anchor, the notice to the sender) touch no queued item; a notice that
is queued in turn is one more `queue_message`. An exception out of them ends the sweep where its
process could have stopped too, and one that `2 ** (attempt - 1)` raises ends it as one out of the
attempt does.
-/

namespace HermesMesh.Outbox

/-- The `uuid4` that names an item and its file, as a number: its text has a fixed width, so names
sort as numbers do. -/
abbrev Uuid := ℕ

structure Item where
  id : Uuid
  from_ : String
  to_ : String
  paddedMessage : String
  body : String
  attempt : ℕ
  createdAt : Time
  nextRetry : Time
  ref : Option String
  isDsn : Bool
  anchor : Option String
  deriving DecidableEq, Repr

/-- The item `queue_message` writes: due at once. -/
def newItem (id : Uuid) (createdAt nextRetry : Time) (fromAgent toAgent paddedMessage body : String)
    (attempt : ℕ) (ref : Option String) (isDsn : Bool) (anchor : Option String) : Item :=
  ⟨id, fromAgent, toAgent, paddedMessage, body, attempt, createdAt, nextRetry, ref, isDsn, anchor⟩

/-! ## Files -/

/-- What a file holds: one dumped item, or nothing that parses. -/
inductive Content where
  | item (i : Item)
  | torn
  deriving DecidableEq, Repr

/-- A directory entry: an open file goes on writing to its inode. -/
structure File where
  ino : ℕ
  content : Content
  deriving DecidableEq, Repr

abbrev Dir := AList fun _ : Uuid => File

/-- Writing through a handle that was opened under `path`. -/
def Dir.write (dir : Dir) (path : Uuid) (ino : ℕ) (content : Content) : Dir :=
  match dir.lookup path with
  | some f => if f.ino = ino then dir.insert path ⟨ino, content⟩ else dir
  | none => dir

structure Disk where
  outbox : Dir := ∅
  dead : Dir := ∅
  nextIno : ℕ := 0

/-- A new file in the outbox. -/
def Disk.create (disk : Disk) (path : Uuid) (content : Content) : Disk :=
  { disk with
    outbox := disk.outbox.insert path ⟨disk.nextIno, content⟩
    nextIno := disk.nextIno + 1 }

/-- `open(path, "w")`: the handle's inode, and the file now empty. -/
def Disk.truncate (disk : Disk) (path : Uuid) : ℕ × Disk :=
  match disk.outbox.lookup path with
  | some f => (f.ino, { disk with outbox := disk.outbox.insert path ⟨f.ino, .torn⟩ })
  | none => (disk.nextIno, disk.create path .torn)

/-- Writing through the handle: a path keeps its name in `dead/`. -/
def Disk.write (disk : Disk) (path : Uuid) (ino : ℕ) (content : Content) : Disk :=
  { disk with
    outbox := disk.outbox.write path ino content
    dead := disk.dead.write path ino content }

def Disk.unlink (disk : Disk) (path : Uuid) : Disk :=
  { disk with outbox := disk.outbox.erase path }

/-- `os.replace(path, dead_path)`, or `none` where the file is not there. -/
def Disk.bury (disk : Disk) (path : Uuid) : Option Disk :=
  (disk.outbox.lookup path).map fun f =>
    { disk with outbox := disk.outbox.erase path, dead := disk.dead.insert path f }

/-- `json.load` of an outbox file. -/
def Disk.read (disk : Disk) (path : Uuid) : Option Item :=
  match disk.outbox.lookup path with
  | some ⟨_, .item i⟩ => some i
  | _ => none

/-! ## One sweep -/

structure Config where
  maxAttempts : ℕ := 5
  backoff : ℚ := 5

/-- How `_attempt_item` ends: `True` on a delivery or for a closed thread, `False`, or it raises. -/
inductive Attempted where
  | delivered
  | dropped
  | failed
  | raised
  deriving DecidableEq, Repr

/-- What a sweep is about to do with the item it has in hand. -/
inductive Stage where
  | attempting (item : Item)
  | removing
  | makingDead
  | burying
  /-- `os.replace` has failed. -/
  | buryUnlink
  | rewriting (item : Item)
  | dumping (ino : ℕ) (item : Item)
  deriving DecidableEq, Repr

/-- A sweep: the paths it has still to visit, the ones it has retried and delivered, and the one in
hand. -/
structure Sweep where
  now : Time
  todo : List Uuid
  retried : List Uuid := []
  delivered : List Uuid := []
  hand : Option (Uuid × Stage) := none
  deriving DecidableEq, Repr

/-- Why an exception left the sweep. -/
inductive Cause where
  /-- `FileNotFoundError`. -/
  | fileGone
  | osError
  | delivery
  deriving DecidableEq, Repr

/-- One gateway's reaper. -/
inductive Proc where
  | idle
  | sweeping (s : Sweep)
  /-- The paths behind the two counts that `retry_outbox` returns. -/
  | returned (retried delivered : List Uuid)
  | raised (cause : Cause)
  | stopped
  deriving DecidableEq, Repr

/-- The rewritten item, `item["next_retry"]` set. -/
def Config.postpone (cfg : Config) (now : Time) (item : Item) : Item :=
  { item with nextRetry := now + cfg.backoff * 2 ^ (item.attempt - 1) }

/-- The next path of the scan. `fault`: the read raised an `OSError`. -/
def Sweep.visit (disk : Disk) (fault : Bool) (path : Uuid) (s : Sweep) : Sweep :=
  match if fault then none else disk.read path with
  | none => s
  | some item =>
    if item.nextRetry > s.now then s
    else
      { s with
        retried := path :: s.retried
        hand := some (path, .attempting { item with attempt := item.attempt + 1 }) }

/-- The next file operation of the sweep; `fault` says that it raised an `OSError`. A dump that
faults leaves the file torn. -/
def Sweep.go (disk : Disk) (fault : Bool) (s : Sweep) : Option (Disk × Proc) :=
  match s.hand with
  | none =>
    match s.todo with
    | [] => some (disk, .returned s.retried s.delivered)
    | path :: rest => some (disk, .sweeping ({ s with todo := rest }.visit disk fault path))
  | some (path, stage) =>
    match stage with
    | .attempting _ => none
    | .removing =>
      if fault then some (disk, .raised .osError)
      else if path ∈ disk.outbox then
        some (disk.unlink path,
          .sweeping { s with delivered := path :: s.delivered, hand := none })
      else some (disk, .raised .fileGone)
    | .makingDead =>
      if fault then some (disk, .raised .osError)
      else some (disk, .sweeping { s with hand := some (path, .burying) })
    | .burying =>
      match if fault then none else disk.bury path with
      | some disk => some (disk, .sweeping { s with hand := none })
      | none => some (disk, .sweeping { s with hand := some (path, .buryUnlink) })
    | .buryUnlink =>
      if fault then some (disk, .raised .osError)
      else if path ∈ disk.outbox then
        some (disk.unlink path, .sweeping { s with hand := none })
      else some (disk, .raised .fileGone)
    | .rewriting item =>
      if fault then some (disk, .sweeping { s with hand := none })
      else
        some ((disk.truncate path).2,
          .sweeping { s with hand := some (path, .dumping (disk.truncate path).1 item) })
    | .dumping ino item =>
      let content := if fault then .torn else .item item
      some (disk.write path ino content, .sweeping { s with hand := none })

/-- What follows the attempt of the item in hand. -/
def Sweep.settle (cfg : Config) (outcome : Attempted) (s : Sweep) : Option Proc :=
  match s.hand with
  | some (path, .attempting item) =>
    match outcome with
    | .delivered | .dropped => some (.sweeping { s with hand := some (path, .removing) })
    | .failed =>
      if item.attempt ≥ cfg.maxAttempts then
        some (.sweeping { s with hand := some (path, .makingDead) })
      else
        let item := cfg.postpone s.now item
        some (.sweeping { s with hand := some (path, .rewriting item) })
    | .raised => some (.raised .delivery)
  | _ => none

/-! ## The system -/

inductive Act where
  /-- `retry_outbox` begins: the clock is read and the directory listed. -/
  | start (now : Time)
  | go (fault : Bool)
  | attempt (outcome : Attempted)
  /-- The process stops where it is. -/
  | stop
  deriving DecidableEq, Repr

/-- The disk and the reapers, with a record of the names that were used, the items that were queued,
and the items whose attempt succeeded and whose file was then removed. -/
structure State where
  disk : Disk := {}
  procs : Nat → Proc := fun _ => .idle
  used : List Uuid := []
  queued : List Item := []
  settled : List Uuid := []
  removed : List Uuid := []

inductive Event where
  /-- `queue_message` returns. -/
  | queue (item : Item)
  /-- `queue_message` fails or is cut and leaves a torn file. -/
  | queueTorn (id : Uuid)
  | act (pid : ℕ) (a : Act)

/-- The step of one process. -/
def Proc.act (cfg : Config) (disk : Disk) (p : Proc) (a : Act) : Option (Disk × Proc) :=
  match p, a with
  | .sweeping s, .go fault => s.go disk fault
  | .sweeping s, .attempt outcome => (s.settle cfg outcome).map (disk, ·)
  | .sweeping _, .stop => some (disk, .stopped)
  | .sweeping _, .start _ => none
  | _, .start now => some (disk, .sweeping { now, todo := disk.outbox.keys.insertionSort (· ≤ ·) })
  | _, _ => none

/-- The path a process has in hand. -/
def Proc.hand : Proc → Option Uuid
  | .sweeping s => s.hand.map (·.1)
  | _ => none

/-- The path whose attempt succeeds in this step. -/
def Proc.settles (p : Proc) (a : Act) : Option Uuid :=
  match p, a with
  | .sweeping { hand := some (path, .attempting _), .. }, .attempt .delivered => some path
  | .sweeping { hand := some (path, .attempting _), .. }, .attempt .dropped => some path
  | _, _ => none

/-- The path whose file this step removes after its attempt succeeded. -/
def Proc.removes (disk : Disk) (p : Proc) (a : Act) : Option Uuid :=
  match p, a with
  | .sweeping { hand := some (path, .removing), .. }, .go false =>
    if path ∈ disk.outbox then some path else none
  | _, _ => none

def step (cfg : Config) (s : State) : Event → Option State
  | .queue item =>
    if item.id ∈ s.used then none
    else
      some
        { s with
          disk := s.disk.create item.id (.item item)
          used := item.id :: s.used
          queued := item :: s.queued }
  | .queueTorn id =>
    if id ∈ s.used then none
    else some { s with disk := s.disk.create id .torn, used := id :: s.used }
  | .act pid a =>
    ((s.procs pid).act cfg s.disk a).map fun (disk, p) =>
      { s with
        disk
        procs := Function.update s.procs pid p
        settled := ((s.procs pid).settles a).toList ++ s.settled
        removed := ((s.procs pid).removes s.disk a).toList ++ s.removed }

end HermesMesh.Outbox
