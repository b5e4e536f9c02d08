import HermesMesh.Delivery
import HermesMesh.Envelope
import HermesMesh.Lib.PosixPath

/-!
# The identity vault

The tools that change the fleet's identities: `handle_mesh_register`, `handle_mesh_deregister` and
`handle_mesh_sync` of `session_relay.py`, `sync_peer` of `registry_bridge.py`, and
`write_agent_identity` of `identity.py`, which they share. `State` is what they read and write, with
a log of what they did to the disk; `Meets` is what one call meets. The vault's loader with its
cache, the keypair files and the registry client belong to other packages and are parameters.
-/

namespace HermesMesh.Vault

open Lib (PosixPath)

/-- What stays the same from call to call. -/
structure Config where
  /-- `_fleet_root()`. -/
  fleetRoot : PosixPath
  repr : String → String := fun s => "'" ++ s ++ "'"
  /-- `str.lower` outside ASCII. -/
  lowerOther : String → String := id

def Config.lower (cfg : Config) : String → String := strLower cfg.lowerOther

/-- `_mesh_agents_root`. -/
def Config.agentsRoot (cfg : Config) : PosixPath :=
  (cfg.fleetRoot.join "mesh".toList).join "agents".toList

/-- `_identity_file`. -/
def Config.identityFile (cfg : Config) (name : String) : PosixPath :=
  (cfg.agentsRoot.join name.toList).join "identity.yaml".toList

/-- What a call sets out to do to the disk. -/
inductive Act where
  /-- The file is opened for writing. -/
  | writes (path : PosixPath)
  /-- The directory is removed with all that is in it. -/
  | removes (path : PosixPath)
  deriving DecidableEq

structure State where
  /-- The files of the vault. -/
  files : PosixPath → Option Json := fun _ => none
  /-- The public keys of the local keypairs. -/
  keys : String → Option String := fun _ => none
  acts : List Act := []

/-- What the registry says about a peer. -/
structure PeerInfo where
  description : Json := .null
  role : Json := .null
  url : Json := .null
  publicKey : Json := .null

/-- What one call meets. -/
structure Meets where
  /-- `MESH_AGENT_NAME`. -/
  agentName : Option String := none
  /-- `_load_with_cache`, over the files as they are. -/
  load : (PosixPath → Option Json) → PosixPath → Json := fun files path => (files path).getD .null
  /-- The host of a URL, and its addresses. -/
  host : String → String := fun _ => ""
  resolve : String → Except String (List Ip)
  allowLoopback : Bool := false
  /-- The private key file can be read. -/
  readableKey : String → Bool := fun _ => true
  /-- `load_or_generate_keypair`: the public key. -/
  generate : String → Except PyError String := fun name => .ok ("key of " ++ name)
  mkdir : PosixPath → Except PyError Unit := fun _ => .ok ()
  openFile : PosixPath → Except PyError Unit := fun _ => .ok ()
  /-- `yaml.safe_dump`: what the file then holds, and how it ends. -/
  dump : Json → Json × Except PyError Unit := fun identity => (identity, .ok ())
  exists_ : PosixPath → Bool := fun _ => true
  /-- `shutil.rmtree`: the files that stay, and how it ends. -/
  rmtree : (PosixPath → Bool) × Except PyError Unit := (fun _ => false, .ok ())
  /-- `mesh_extra(None)`: the section of the configuration. -/
  configExtra : Except PyError Json := .ok (.obj [])
  /-- `dict` of a value that is no dict. -/
  dictOf : Json → Except PyError (List (String × Json)) := fun _ => .error (.other "not a mapping")
  registryAvailable : Bool := true
  /-- `MESH_REGISTRY_PIN`. -/
  registryPin : String := ""
  /-- The keypair at `private_key_path`. -/
  keyAt : Json → Except PyError Unit := fun _ => .ok ()
  /-- The constructor of the registry client, at each of its calls. -/
  client : ℕ → Except PyError Unit := fun _ => .ok ()
  /-- The names of the peers that the registry lists. -/
  listPeers : Except PyError (List String) := .ok []
  /-- What it answers about one peer, at each request. -/
  getPeer : ℕ → Except PyError (Option PeerInfo) := fun _ => .ok none

abbrev Fields := List (String × Json)

/-! ## The identity files -/

/-- `write_agent_identity`. A refused `chmod` is only logged. -/
def writeAgentIdentity (cfg : Config) (m : Meets) (agentKey : String) (identity : Json) (s : State) :
    Except PyError PosixPath × State :=
  let agentKey := strip (cfg.lower agentKey)
  if agentKey = "" then (.error (.valueError "Agent key must not be empty"), s)
  else
    let identityFile := cfg.identityFile agentKey
    match m.mkdir (cfg.agentsRoot.join agentKey.toList) with
    | .error e => (.error e, s)
    | .ok () =>
      match m.openFile identityFile with
      | .error e => (.error e, s)
      | .ok () =>
        let (stored, ends) := m.dump identity
        let s := { s with
          files := fun path => if path = identityFile then some stored else s.files path
          acts := .writes identityFile :: s.acts }
        (ends.map fun () => identityFile, s)

/-- `get_raw_agent_identity`. -/
def getRawAgentIdentity (cfg : Config) (m : Meets) (name : String) (s : State) : Json :=
  if name = "" then .null else m.load s.files (cfg.identityFile name)

/-- `load_or_generate_keypair` without a path of its own. -/
def loadOrGenerateKeypair (m : Meets) (name : String) (s : State) : Except PyError String × State :=
  match m.generate name with
  | .error e => (.error e, s)
  | .ok key => (.ok key, { s with keys := fun name' => if name' = name then some key else s.keys name' })

/-- `existing_public_key`. -/
def existingPublicKey (m : Meets) (name : String) (s : State) : String :=
  if m.readableKey name then (s.keys name).getD "" else ""

/-- `auth.get_public_key`. -/
def getPublicKey (m : Meets) (name : String) (s : State) : Except String String × State :=
  match loadOrGenerateKeypair m name s with
  | (.ok key, s) => (.ok key, s)
  | (.error e, s) =>
    (.error ("could not load or generate Ed25519 key for '" ++ name ++ "': " ++ e.text), s)

/-- The dict that registration and sync write. -/
def identityOf (name : String) (description role url publicKey : Json) : Json :=
  .obj [("id", .str name), ("name", .str name), ("description", description), ("role", role),
    ("transports", .obj [("hermes_webhook", .obj [("url", url),
      ("auth", .obj [("public_key", publicKey)])])])]

/-! ## Registration -/

def refused (text : String) : Fields := [("registered", .bool false), ("error", .str text)]

/-- `_validate_agent_name` of an argument: only a string can be stripped. -/
def agentName (cfg : Config) : Json → Except PyError String
  | .str name => validateAgentName cfg.repr name
  | _ => .error (.attributeError "strip")

/-- `merged.get("name") or os.getenv("MESH_AGENT_NAME", "")`. -/
def nameOr (m : Meets) (merged : Fields) : Json :=
  if (Json.get "name" merged).truthy then Json.get "name" merged else .str (m.agentName.getD "")

/-- The checks of the URL, each with its own text. -/
def checkUrl (m : Meets) (url : Json) : Except PyError (Except String Unit) :=
  if !url.truthy then .ok (.error "'url' is required")
  else
    match url with
    | .str url =>
      if !(startsWith "http://" url || startsWith "https://" url) then
        .ok (.error ("URL must use http/https: " ++ url))
      else
        match resolveTargetUrl url (m.host url) (m.resolve url) m.allowLoopback with
        | .error text => .ok (.error ("Invalid URL: " ++ text))
        | .ok _ => .ok (.ok ())
    | _ => .error (.attributeError "startswith")

/-- The key of a registration: the one that is given, that of the existing keypair, or a fresh one for
an agent that has no identity. -/
def chooseKey (cfg : Config) (m : Meets) (name : String) (publicKey : Json) (s : State) :
    Except String Json × State :=
  if publicKey.truthy then (.ok publicKey, s)
  else if existingPublicKey m name s ≠ "" then (.ok (.str (existingPublicKey m name s)), s)
  else if (getRawAgentIdentity cfg m name s).truthy then
    (.error ("Agent '" ++ name ++ "' has an existing mesh identity but no local keypair — " ++
      "refusing to generate one (that would silently rotate the agent's key). Carry the keypair " ++
      "first, or pass public_key explicitly."), s)
  else
    match getPublicKey m name s with
    | (.error text, s) => (.error text, s)
    | (.ok key, s) => (.ok (.str key), s)

/-- The end of `_register_one`, for a validated name. -/
def registerNamed (cfg : Config) (m : Meets) (item : Fields) (name : String) (url : Json)
    (overwrite dryRun : Bool) (s : State) : Except PyError Fields × State :=
  match checkUrl m url with
  | .error e => (.error e, s)
  | .ok (.error text) => (.ok (refused text), s)
  | .ok (.ok ()) =>
    match chooseKey cfg m name ((item.lookup "public_key").getD (.str "")) s with
    | (.error text, s) => (.ok (refused text), s)
    | (.ok publicKey, s) =>
      if dryRun then
        (.ok [("registered", .bool false), ("dry_run", .bool true), ("would_register", .bool true),
          ("name", .str name)], s)
      else if !overwrite && (getRawAgentIdentity cfg m name s).truthy then
        (.ok (refused ("Agent '" ++ name ++ "' already exists; set overwrite=True to replace")), s)
      else
        let role := if (Json.get "role" item).truthy then Json.get "role" item else .str "agent"
        let description := (item.lookup "description").getD (.str "")
        match writeAgentIdentity cfg m name (identityOf name description role url publicKey) s with
        | (.error e, s) => (.ok (refused ("Failed to write identity: " ++ e.text)), s)
        | (.ok path, s) =>
          (.ok [("registered", .bool true), ("name", .str name), ("path", .str path.text)], s)

/-- `_register_one`. -/
def registerOne (cfg : Config) (m : Meets) (item : Fields) (overwrite dryRun : Bool) (s : State) :
    Except PyError Fields × State :=
  if !(nameOr m item).truthy then (.ok (refused "'name' is required (or set MESH_AGENT_NAME)"), s)
  else
    match agentName cfg (nameOr m item) with
    | .error (.valueError text) => (.ok (refused text), s)
    | .error e => (.error e, s)
    | .ok name =>
      registerNamed cfg m item name ((item.lookup "url").getD (.str "")) overwrite dryRun s

/-- The items of a bulk registration: one that raises ends the call, after those before it. -/
def registerAll (cfg : Config) (m : Meets) (overwrite dryRun : Bool) :
    List Json → State → Except PyError (List Fields) × State
  | [], s => (.ok [], s)
  | .obj item :: rest, s =>
    match registerOne cfg m item overwrite dryRun s with
    | (.error e, s) => (.error e, s)
    | (.ok result, s) =>
      match registerAll cfg m overwrite dryRun rest s with
      | (.error e, s) => (.error e, s)
      | (.ok results, s) => (.ok (result :: results), s)
  | _ :: _, s => (.error (.other "not a mapping"), s)

/-- `r.get("registered") or r.get("would_register")`. -/
def registers (result : Fields) : Bool :=
  (Json.get "registered" result).truthy || (Json.get "would_register" result).truthy

/-- `handle_mesh_register`. -/
def handleMeshRegister (cfg : Config) (m : Meets) (args kwargs : Fields) (s : State) :
    Except PyError Fields × State :=
  let merged := kwargs ++ args
  let overwrite := (Json.get "overwrite" merged).truthy
  let dryRun := (Json.get "dry_run" merged).truthy
  match Json.get "bulk" merged with
  | .arr (item :: items) =>
    match registerAll cfg m overwrite dryRun (item :: items) s with
    | (.error e, s) => (.error e, s)
    | (.ok results, s) =>
      (.ok [("ok", .bool (results.all registers)), ("count", .num results.length),
        ("results", .arr (results.map .obj))], s)
  | _ => registerOne cfg m merged overwrite dryRun s

/-! ## Deregistration -/

/-- `handle_mesh_deregister`. -/
def handleMeshDeregister (cfg : Config) (m : Meets) (args kwargs : Fields) (s : State) :
    Except PyError Fields × State :=
  let merged := kwargs ++ args
  if !(nameOr m merged).truthy then
    (.ok [("error", .str "'name' is required (or set MESH_AGENT_NAME)")], s)
  else
    match agentName cfg (nameOr m merged) with
    | .error (.valueError text) => (.ok [("error", .str text)], s)
    | .error e => (.error e, s)
    | .ok name =>
      let agentDir := cfg.agentsRoot.join name.toList
      if !m.exists_ agentDir then
        (.ok [("deregistered", .bool false),
          ("error", .str ("Agent '" ++ name ++ "' not found in local cache"))], s)
      else
        let s := { s with
          files := fun path =>
            if agentDir.isUnder path && !m.rmtree.1 path then none else s.files path
          acts := .removes agentDir :: s.acts }
        match m.rmtree.2 with
        | .error e =>
          (.ok [("deregistered", .bool false),
            ("error", .str ("Failed to remove identity: " ++ e.text))], s)
        | .ok () =>
          (.ok [("deregistered", .bool true), ("name", .str name), ("path", .str agentDir.text)], s)

/-! ## Sync with the registry -/

/-- The keypair of the agent itself, for the registry client. -/
def ownKeypair (m : Meets) (extra : Fields) (s : State) : Except PyError Unit × State :=
  if (Json.get "private_key_path" extra).truthy then (m.keyAt (Json.get "private_key_path" extra), s)
  else
    match loadOrGenerateKeypair m (m.agentName.getD "hermes-agent") s with
    | (.error e, s) => (.error e, s)
    | (.ok _, s) => (.ok (), s)

/-- `_registry_client`. -/
def registryClient (m : Meets) (extra : Fields) (request : ℕ) (s : State) :
    Except PyError Unit × State :=
  if !m.registryAvailable then
    (.error (.other "mesh-peer-registry is required for registry operations"), s)
  else if !((extra.lookup "registry_url").getD (.str "")).truthy then
    (.error (.other "registry_url is required for registry operations"), s)
  else
    match (extra.lookup "registry_pin").getD (.str m.registryPin) with
    | .str _ =>
      match ownKeypair m extra s with
      | (.error e, s) => (.error e, s)
      | (.ok (), s) => (m.client request, s)
    | _ => (.error (.attributeError "strip"), s)

/-- `list_peers`: the first request of a sync of all peers. -/
def listPeers (m : Meets) (extra : Fields) (s : State) : Except PyError (List String) × State :=
  match registryClient m extra 0 s with
  | (.error e, s) => (.error e, s)
  | (.ok (), s) => (m.listPeers, s)

/-- `get_peer`. -/
def getPeer (m : Meets) (extra : Fields) (request : ℕ) (s : State) :
    Except PyError (Option PeerInfo) × State :=
  match registryClient m extra request s with
  | (.error e, s) => (.error e, s)
  | (.ok (), s) => (m.getPeer request, s)

/-- `sync_peer`. -/
def syncPeer (cfg : Config) (m : Meets) (extra : Fields) (request : ℕ) (name : String) (s : State) :
    Except PyError Fields × State :=
  match getPeer m extra request s with
  | (.error e, s) => (.error e, s)
  | (.ok none, s) => (.error (.other ("peer '" ++ name ++ "' not found in registry")), s)
  | (.ok (some peer), s) =>
    let description := if peer.description.truthy then peer.description else .str ""
    let role := if peer.role.truthy then peer.role else .str "agent"
    match writeAgentIdentity cfg m name
      (identityOf name description role peer.url peer.publicKey) s with
    | (.error e, s) => (.error e, s)
    | (.ok path, s) => (.ok [("synced", .bool true), ("name", .str name), ("path", .str path.text)], s)

/-- The loop over the listed peers: one that raises is reported, and the next one follows. -/
def syncAll (cfg : Config) (m : Meets) (extra : Fields) :
    ℕ → List String → State → List Fields × State
  | _, [], s => ([], s)
  | request, name :: names, s =>
    let (result, s) := syncPeer cfg m extra request name s
    let (results, s) := syncAll cfg m extra (request + 1) names s
    match result with
    | .ok result => (result :: results, s)
    | .error e =>
      ([("synced", .bool false), ("name", .str name), ("error", .str e.text)] :: results, s)

/-- The registry options of a sync: `dict(mesh_extra(merged.get("extra")))`, and the URL of the call. -/
def syncExtra (m : Meets) (merged : Fields) : Except PyError Fields := do
  let extra ← if (Json.get "extra" merged).isSome then .ok (Json.get "extra" merged) else m.configExtra
  let fields ←
    match extra with
    | .obj fields => .ok fields
    | value => m.dictOf value
  let url := Json.get "registry_url" merged
  return if url.truthy then ("registry_url", url) :: fields else fields

def failedSync (e : PyError) : Fields := [("error", .str ("Failed to sync from registry: " ++ e.text))]

/-- The sync of all peers. -/
def syncPeers (cfg : Config) (m : Meets) (extra : Fields) (s : State) : Fields × State :=
  match listPeers m extra s with
  | (.error e, s) => (failedSync e, s)
  | (.ok names, s) =>
    let (results, s) := syncAll cfg m extra 1 names s
    ([("synced", .num (results.countP fun r => (Json.get "synced" r).truthy)),
      ("total", .num results.length), ("results", .arr (results.map .obj))], s)

/-- `handle_mesh_sync`. -/
def handleMeshSync (cfg : Config) (m : Meets) (args kwargs : Fields) (s : State) :
    Except PyError Fields × State :=
  let merged := kwargs ++ args
  match syncExtra m merged with
  | .error e => (.error e, s)
  | .ok extra =>
    if !(Json.get "name" merged).truthy then
      let (answer, s) := syncPeers cfg m extra s
      (.ok answer, s)
    else
      match agentName cfg (Json.get "name" merged) with
      | .error (.valueError text) => (.ok [("error", .str text)], s)
      | .error e => (.error e, s)
      | .ok name =>
        match syncPeer cfg m extra 0 name s with
        | (.error e, s) => (.ok (failedSync e), s)
        | (.ok answer, s) => (.ok answer, s)

/-! ## Calls one after the other -/

inductive Tool where
  | register
  | deregister
  | sync
  deriving DecidableEq

/-- One call of one of the tools. -/
structure Call where
  tool : Tool
  args : Fields := []
  kwargs : Fields := []
  meets : Meets

def Call.run (cfg : Config) (call : Call) (s : State) : Except PyError Fields × State :=
  match call.tool with
  | .register => handleMeshRegister cfg call.meets call.args call.kwargs s
  | .deregister => handleMeshDeregister cfg call.meets call.args call.kwargs s
  | .sync => handleMeshSync cfg call.meets call.args call.kwargs s

def step (cfg : Config) (s : State) (call : Call) : Option State := some (call.run cfg s).2

end HermesMesh.Vault
