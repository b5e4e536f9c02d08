import HermesMesh.Common
import HermesMesh.Lib.PosixPath
import Mathlib.Logic.Function.Basic

/-!
# The migration of a fleet to Ed25519

`migrate` of `migrate_fleet_to_ed25519.py`. For every agent that is due it writes two files, the
private key and then the identity with the public key, and undoes neither. `State` holds both kinds of
files; `Meets` is what one run meets: the keypairs that it generates, and how its writes end. YAML and
the file system's links are parameters. `migrateAll` also returns what becomes of each agent, where
`migrate` only counts; what is printed is left out.
-/

namespace HermesMesh.Migration

open Lib (PosixPath)

abbrev Fields := List (String × Json)

/-- How an identity file cannot be loaded: the two errors that `migrate` catches, and the others. -/
inductive LoadError where
  | caught (text : String)
  | raised (e : PyError)

structure Config where
  root : PosixPath
  rootIsDir : Bool := true
  /-- `sorted(root.iterdir())`, by name. -/
  entries : List String
  keyDir : PosixPath
  /-- The file that a path leads to. -/
  file : PosixPath → PosixPath := id
  /-- `yaml.safe_load` and `yaml.safe_dump`. -/
  load : String → Except LoadError Json
  dump : Json → String
  /-- `str` of a value that is no string. -/
  str : Json → String

structure State where
  /-- The text of `identity.yaml` in the directory of this name. -/
  identities : String → Option String
  /-- The private key files. -/
  keys : PosixPath → Option String

/-- How `write_text` ends: it refuses to open the file, or stops after some characters. -/
inductive Write where
  | done
  | refused (text : String)
  | cut (n : ℕ) (text : String)

/-- What the file then holds. -/
def Write.leaves (new : String) (old : Option String) : Write → Option String
  | done => some new
  | refused _ => old
  | cut n _ => some (String.ofList (new.toList.take n))

def Write.ends : Write → Except String Unit
  | done => .ok ()
  | refused text | cut _ text => .error text

/-- What one run meets, agent by agent. -/
structure Meets where
  /-- `key_dir.mkdir`. -/
  mkdir : Except PyError Unit := .ok ()
  /-- `_generate_keypair`: the private and the public key. -/
  keypair : String → String × String
  keyWrite : String → Write := fun _ => .done
  keyChmod : String → Except String Unit := fun _ => .ok ()
  identityWrite : String → Write := fun _ => .done

/-! ## One agent -/

/-- `value or {}`, of which a key is then read. -/
def dictOr (value : Json) : Except PyError Fields :=
  if value.truthy then
    match value with
    | .obj fields => .ok fields
    | _ => .error (.attributeError "get")
  else .ok []

/-- `raw.get("transports", {})`, of which a key is then read. -/
def transportsOf (raw : Fields) : Except PyError Fields :=
  match raw.lookup "transports" with
  | none => .ok []
  | some (.obj transports) => .ok transports
  | some _ => .error (.attributeError "get")

/-- `raw`, `transport` and `auth`. -/
def readIdentity (loaded : Json) : Except PyError (Fields × Fields × Fields) := do
  let raw ← dictOr loaded
  let transports ← transportsOf raw
  let transport ← dictOr (Json.get "hermes_webhook" transports)
  let auth ← dictOr (Json.get "auth" transport)
  return (raw, transport, auth)

/-- Already Ed25519. -/
def isEd25519 (auth : Fields) : Bool :=
  (Json.get "public_key" auth).truthy && !(Json.get "secret" auth).truthy &&
    !(Json.get "type" auth).isStr "hmac-sha256"

/-- `raw.get("name") or agent_dir.name`, as it stands in a text. -/
def Config.nameOf (cfg : Config) (raw : Fields) (dir : String) : String :=
  match Json.get "name" raw with
  | .str name => if name = "" then dir else name
  | value => if value.truthy then cfg.str value else dir

/-- `key_dir / f"{name}.pem"`, and the file that it leads to. -/
def Config.keyFile (cfg : Config) (name : String) : PosixPath :=
  cfg.file (cfg.keyDir.join (name ++ ".pem").toList)

/-- `d[key] = value`. The order of the fields is not kept, since the dump sorts them. -/
def setField (key : String) (value : Json) (fields : Fields) : Fields :=
  (key, value) :: Json.pop key fields

/-- The identity with the public key. -/
def withKey (raw transport : Fields) (publicPem : String) : Json :=
  let transport := Json.pop "type" (Json.pop "secret"
    (setField "auth" (.obj [("public_key", .str publicPem)]) transport))
  let transports := (transportsOf raw).toOption.getD []
  .obj (setField "transports" (.obj (setField "hermes_webhook" (.obj transport) transports)) raw)

/-- What becomes of an agent. -/
inductive Verdict where
  | ignored
  | skipped
  | migrated (name : String)
  | failed (name : String) (text : String)
  deriving DecidableEq

/-- What the agent's identity asks for. -/
inductive Plan where
  | ignored
  | skipped
  | unreadable (text : String)
  | due (name : String) (raw transport : Fields)

/-- The loop body up to the keypair; an entry that is no directory, or has no identity, has no text. -/
def plan (cfg : Config) (dir : String) : Option String → Except PyError Plan
  | none => .ok .ignored
  | some text =>
    match cfg.load text with
    | .error (.caught e) => .ok (.unreadable e)
    | .error (.raised e) => .error e
    | .ok loaded => do
      let (raw, transport, auth) ← readIdentity loaded
      return if isEd25519 auth then .skipped else .due (cfg.nameOf raw dir) raw transport

/-- The name cannot stand in a path. -/
def hasNul (name : String) : Bool := name.toList.contains (Char.ofNat 0)

/-- The two writes of an agent that is due. -/
def migrateDue (cfg : Config) (m : Meets) (dir name : String) (raw transport : Fields) (s : State) :
    Except PyError Verdict × State :=
  if hasNul name then (.error (.valueError "embedded null byte"), s)
  else
    let (privatePem, publicPem) := m.keypair dir
    let file := cfg.keyFile name
    let s := { s with
      keys := Function.update s.keys file ((m.keyWrite dir).leaves privatePem (s.keys file)) }
    match (m.keyWrite dir).ends, m.keyChmod dir with
    | .error e, _ | .ok (), .error e =>
      (.ok (.failed name (name ++ ": failed to write private key: " ++ e)), s)
    | .ok (), .ok () =>
      let identity := cfg.dump (withKey raw transport publicPem)
      let s := { s with
        identities := Function.update s.identities dir
          ((m.identityWrite dir).leaves identity (s.identities dir)) }
      match (m.identityWrite dir).ends with
      | .error e => (.ok (.failed name (name ++ ": failed to write identity: " ++ e)), s)
      | .ok () => (.ok (.migrated name), s)

/-- The loop body. -/
def migrateOne (cfg : Config) (m : Meets) (dryRun : Bool) (dir : String) (s : State) :
    Except PyError Verdict × State :=
  match plan cfg dir (s.identities dir) with
  | .error e => (.error e, s)
  | .ok .ignored => (.ok .ignored, s)
  | .ok .skipped => (.ok .skipped, s)
  | .ok (.unreadable e) => (.ok (.failed dir (dir ++ ": failed to read identity: " ++ e)), s)
  | .ok (.due name raw transport) =>
    if dryRun then (.ok (.migrated name), s) else migrateDue cfg m dir name raw transport s

/-! ## The run -/

/-- The loop: an agent that raises ends it. -/
def migrateAll (cfg : Config) (m : Meets) (dryRun : Bool) :
    List String → State → Except PyError Unit × List (String × Verdict) × State
  | [], s => (.ok (), [], s)
  | dir :: dirs, s =>
    match migrateOne cfg m dryRun dir s with
    | (.error e, s) => (.error e, [], s)
    | (.ok verdict, s) =>
      let (ends, verdicts, s) := migrateAll cfg m dryRun dirs s
      (ends, (dir, verdict) :: verdicts, s)

/-- The dict that `migrate` returns. -/
structure Result where
  migrated : ℕ
  skipped : ℕ
  errors : List String
  deriving DecidableEq

def resultOf (verdicts : List (String × Verdict)) : Result where
  migrated := verdicts.countP fun v => match v.2 with
    | .migrated _ => true
    | _ => false
  skipped := verdicts.countP fun v => v.2 = .skipped
  errors := verdicts.filterMap fun v => match v.2 with
    | .failed _ text => some text
    | _ => none

/-- `migrate`. -/
def migrate (cfg : Config) (m : Meets) (dryRun : Bool) (s : State) :
    Except PyError Result × List (String × Verdict) × State :=
  if !cfg.rootIsDir then (.ok ⟨0, 0, ["No such directory: " ++ cfg.root.text]⟩, [], s)
  else
    match m.mkdir with
    | .error e => (.error e, [], s)
    | .ok () =>
      let (ends, verdicts, s) := migrateAll cfg m dryRun cfg.entries s
      (ends.map fun () => resultOf verdicts, verdicts, s)

end HermesMesh.Migration
