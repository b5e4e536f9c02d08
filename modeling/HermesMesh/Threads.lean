import HermesMesh.Common
import Mathlib.Data.List.Basic
import Mathlib.Algebra.Order.Ring.Rat

/-!
# The closed-thread registry

`threads.py`: the on-disk log of closed anchors, and the in-memory snapshot `is_closed` answers
from. The log holds whatever JSON list the file holds; a `View` is what one process sees, the shared
file and its own snapshot. `stamp` is the mtime that a write gives the file.
-/

namespace HermesMesh.Threads

/-- What the path holds. `_read_entries_strict` reports everything but a JSON list as failed. -/
inductive Content where
  | absent
  | corrupt
  | entries (stored : List Json)
  deriving Repr

structure File where
  content : Content
  mtime : Option Time
  deriving Repr

/-- `_LOADED`, `_LOCKED` and `_MTIME` of one process. -/
structure Cache where
  loaded : Bool := false
  locked : List String := []
  mtime : Option Time := none
  deriving DecidableEq, Repr

structure View where
  file : File
  cache : Cache

/-- `_read_entries_strict`: the entries, and whether the read failed. -/
def readEntriesStrict (io : Io) (file : File) : List Json × Bool :=
  if !io.readable then ([], true)
  else
    match file.content with
    | .absent => ([], false)
    | .corrupt => ([], true)
    | .entries stored => (stored, false)

/-- `entry.get(key)`: only a dict has fields. -/
def field (key : String) : Json → Except PyError Json
  | .obj fields => .ok (Json.get key fields)
  | _ => .error (.attributeError "get")

/-- The anchor an entry adds to the snapshot. -/
def lockedAnchor (valid : TokenRule) : Json → Option String
  | .obj fields =>
    match Json.get "anchor_task_id" fields with
    | .str anchor => if anchor ≠ "" ∧ valid anchor = true then some anchor else none
    | _ => none
  | _ => none

/-- `_hydrate`. -/
def View.hydrate (valid : TokenRule) (entries : List Json) (v : View) : View :=
  { v with cache := ⟨true, entries.filterMap (lockedAnchor valid), v.file.mtime⟩ }

/-- The loop of `record` that looks for the anchor. -/
def findAnchor (anchor : String) : List Json → Except PyError Bool
  | [] => .ok false
  | entry :: rest => do
    let found ← field "anchor_task_id" entry
    if found.isStr anchor then return true else findAnchor anchor rest

/-- The entry `record` appends. -/
def newEntry (closedAt : Time) (anchor closedBy : String) (pending : Bool) : Json :=
  .obj ([("anchor_task_id", .str anchor), ("closed_at", .num closedAt), ("closed_by", .str closedBy)]
    ++ if pending then [("pending", .bool true)] else [])

/-- `record`: idempotent, so an entry that is there already stays as it is. -/
def record (valid : TokenRule) (io : Io) (stamp closedAt : Time) (anchorTaskId closedBy : String)
    (pending : Bool) (v : View) : Except PyError Unit × View :=
  match validateEnvelopeToken valid anchorTaskId, validateEnvelopeToken valid closedBy with
  | .ok anchor, .ok by_ =>
    if !io.lockable then (.error (.osError "lock"), v)
    else
      let entries := (readEntriesStrict io v.file).1
      match findAnchor anchor entries with
      | .error e => (.error e, v)
      | .ok true => (.ok (), v.hydrate valid entries)
      | .ok false =>
        let entries := entries ++ [newEntry closedAt anchor by_ pending]
        if io.writable then
          (.ok (), { v with file := ⟨.entries entries, some stamp⟩ }.hydrate valid entries)
        else (.error (.osError "write"), v)
  | .error e, _ | _, .error e => (.error e, v)

/-- The loop of `_rewrite`: whether an entry changed, and the entries that are kept. -/
def rewriteEntries (anchor : String) (dropPendingOnly promote : Bool) :
    List Json → Except PyError (Bool × List Json)
  | [] => .ok (false, [])
  | entry :: rest => do
    let found ← field "anchor_task_id" entry
    let pending ← field "pending" entry
    let (changed, kept) ← rewriteEntries anchor dropPendingOnly promote rest
    if !found.isStr anchor then return (changed, entry :: kept)
    else if dropPendingOnly then
      if pending.truthy then return (true, kept) else return (changed, entry :: kept)
    else if promote && pending.truthy then
      match entry with
      | .obj fields => return (true, .obj (Json.pop "pending" fields) :: kept)
      | _ => return (changed, entry :: kept)
    else return (changed, entry :: kept)

/-- `_rewrite`. -/
def rewrite (valid : TokenRule) (io : Io) (stamp : Time) (anchorTaskId : String)
    (dropPendingOnly promote : Bool) (v : View) : Except PyError Unit × View :=
  match validateEnvelopeToken valid anchorTaskId with
  | .error e => (.error e, v)
  | .ok anchor =>
    if !io.lockable then (.error (.osError "lock"), v)
    else
      match readEntriesStrict io v.file with
      | (_, true) => (.ok (), v)
      | (entries, false) =>
        match rewriteEntries anchor dropPendingOnly promote entries with
        | .error e => (.error e, v)
        | .ok (false, _) => (.ok (), v)
        | .ok (true, kept) =>
          if io.writable then
            (.ok (), { v with file := ⟨.entries kept, some stamp⟩ }.hydrate valid kept)
          else (.error (.osError "write"), v)

/-- `promote`: every exception is logged and swallowed. -/
def promote (valid : TokenRule) (io : Io) (stamp : Time) (anchorTaskId : String) (v : View) : View :=
  (rewrite valid io stamp anchorTaskId false true v).2

/-- `withdraw`: every exception is logged and swallowed. -/
def withdraw (valid : TokenRule) (io : Io) (stamp : Time) (anchorTaskId : String) (v : View) :
    View :=
  (rewrite valid io stamp anchorTaskId true false v).2

/-- `is_closed`. -/
def isClosed (valid : TokenRule) (io : Io) (anchorTaskId : Option String) (v : View) :
    Bool × View :=
  match anchorTaskId with
  | none => (false, v)
  | some anchor =>
    if !io.lockable then (false, v)
    else
      let v :=
        if !v.cache.loaded || decide (v.file.mtime ≠ v.cache.mtime) then
          v.hydrate valid (readEntriesStrict io v.file).1
        else v
      (v.cache.locked.contains anchor, v)

end HermesMesh.Threads
