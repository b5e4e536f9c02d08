import HermesMesh.Delivery
import HermesMesh.Envelope
import HermesMesh.OpenThreads
import HermesMesh.Outbox
import HermesMesh.Threads

/-!
# Sending a message

`handle_mesh_send` of `session_relay.py`, stage by stage: the arguments, the busy gate, the header,
the resolution of target and sender, the delivery, and what follows it. `World` is what a send reads
and writes; `Env` is what it meets on the way, one entry for each access to the disk, the clock and
the network, so that every access may go its own way. Of `mesh_core` it takes the token validator,
the notice text and the notice's rate limit.
-/

namespace HermesMesh

open OpenThreads (Claimed Lease)

/-- What one call of `handle_mesh_send` meets. -/
structure Env where
  valid : TokenRule
  /-- What the validator makes of a value that is no string. -/
  coerce : Json → Except PyError String := fun _ => .error (.valueError "not a string")
  /-- `str` of a value that is no string, `repr`, the wall-clock text of a time, and
  `difflib.get_close_matches` with one match. -/
  str : Json → String := fun _ => ""
  repr : String → String := fun s => "'" ++ s ++ "'"
  clockText : Time → String := fun _ => ""
  closeMatch : String → Option String := fun _ => none
  /-- `MESH_AGENT_NAME`, and the fresh `uuid4`. -/
  selfName : String := "hermes-agent"
  uuid : String := "00000000-0000-4000-8000-000000000000"
  closedIo : Io := {}
  leaseFor : Clocked := {}
  claim : Clocked := {}
  touch : Clocked := {}
  rollback : Io := {}
  /-- The four releases that a terminator may make. -/
  threadProbe : Io := {}
  refProbe : Io := {}
  deliveryProbe : Io := {}
  taskProbe : Io := {}
  record : Stamped := {}
  withdraw : Stamped := {}
  promote : Stamped := {}
  /-- The identity cache: the webhook URL of an agent, empty where none is stored. -/
  identity : String → Option String
  /-- What the look into an identity raises, where it is no dict of dicts. -/
  identityFault : String → Option PyError := fun _ => none
  /-- `load_or_generate_keypair`. -/
  privateKey : String → Except String String := fun _ => .ok "key"
  isLocalUrl : String → Except PyError Bool := fun _ => .ok false
  allowLoopback : Bool := false
  /-- `_sign_timestamp_enabled`. -/
  signTimestamp : Bool := true
  exceptionToReason : Exc → String := fun _ => "unreachable"
  budget : Budget := {}
  net : Net
  signature : Except PyError String := .ok ""
  dsnEnabled : Bool := false
  dsnWithinRate : Bool := true
  dsnText : List String → String := fun _ => ""
  dsnNet : Net := net
  dsnSignature : Except PyError String := .ok ""
  dsnItem : Outbox.Uuid := 0
  /-- What `_float.send` raises, if it raises. -/
  floatFault : Option PyError := none
  outboxEnabled : Bool := false
  item : Outbox.Uuid := 0
  createdAt : Time := 0
  nextRetry : Time := 0
  /-- What `queue_message` raises, if it raises. -/
  queueFault : Option PyError := none
  /-- `MESH_LEASE_RESIZE_MINUTES`, `none` where it is no number. -/
  resizeMinutes : Option ℤ := some 120
  /-- `MESH_OPEN_THREADS` is set. -/
  explicitlyConfigured : Bool := false
  registryPath : Option String := some ""

/-- One line of the send meter. -/
structure MeterLine where
  agent : String
  action : Action
  reply : Reply
  thread : Json
  outcome : String
  deriving Repr

/-- One call of `_deliver_webhook`, but for the key. -/
structure Wire where
  url : String
  text : String
  sender : String
  /-- `extra_headers`. -/
  headers : List (String × String) := []
  signTimestamp : Bool := true
  deriving DecidableEq, Repr

/-- What a send reads and writes. -/
structure World where
  leases : OpenThreads.File := none
  closed : Threads.View
  outbox : List Outbox.Item := []
  sent : List Wire := []
  floats : List (String × String) := []
  meter : List MeterLine := []
  metrics : List (String × String) := []

/-- The dict that the handler returns. -/
abbrev Response := List (String × Json)

/-- The response is an error. -/
def Response.isError (r : Response) : Bool := (r.lookup "error").isSome

/-- The `state` that a response reports. -/
def Response.state (r : Response) : Option String :=
  match r.lookup "state" with
  | some (.str state) => some state
  | _ => none

/-- A stage that ends the call: it raises, or it answers. -/
inductive Stop where
  | raise (e : PyError)
  | answer (r : Response)

def Stop.result : Stop → Except PyError Response
  | raise e => .error e
  | answer r => .ok r

/-! ## The arguments -/

/-- `_SEND_ARG_KEYS`, sorted. -/
def sendArgKeys : List String :=
  ["action", "agent", "from_session", "message", "ref", "reply", "session", "task_id", "thread"]

/-- The keys that the tool executor injects. -/
def runtimeKeys : List String :=
  ["task_id", "session_id", "user_task", "tool_call_id", "turn_id", "api_request_id",
    "enabled_tools", "enabled_toolsets", "disabled_toolsets", "skip_pre_tool_call_hook",
    "skip_tool_request_middleware", "tool_request_middleware_trace"]

def Env.text (env : Env) : Json → String
  | .str s => s
  | v => env.str v

/-- `_unknown_argument_error`. -/
def unknownArgumentError (env : Env) (args : List (String × Json)) : Option Response :=
  (args.find? fun arg => !sendArgKeys.contains arg.1).map fun (name, _) =>
    match env.closeMatch name with
    | some suggestion =>
      [("error", .str ("unknown argument " ++ env.repr name ++ "; did you mean " ++
          env.repr suggestion ++ "?")),
        ("unknown_argument", .str name), ("did_you_mean", .str suggestion)]
    | none =>
      [("error", .str ("unknown argument " ++ env.repr name)), ("unknown_argument", .str name),
        ("valid_arguments", .arr (sendArgKeys.map .str))]

/-- `validate_envelope_token` of an argument. -/
def Env.token (env : Env) : Json → Except PyError String
  | .str token => validateEnvelopeToken env.valid token
  | v => env.coerce v

/-- `value is not None and value != ""`. -/
def given (v : Json) : Bool := v.isSome && !v.isStr ""

/-- A validated token is used by its truth value. -/
def orNone (token : String) : Option String := if token = "" then none else some token

/-- An optional token whose `ValueError` becomes the error `Invalid <name>`. -/
def Env.optToken (env : Env) (name : String) (v : Json) : Except Stop (Option String) :=
  if given v then
    match env.token v with
    | .ok token => .ok (orNone token)
    | .error (.valueError text) =>
      .error (.answer [("error", .str ("Invalid " ++ name ++ ": " ++ text))])
    | .error e => .error (.raise e)
  else .ok none

/-- `_validate_agent_name` of an argument: only a string can be stripped. -/
def Env.agentName (env : Env) : Json → Except PyError String
  | .str name => validateAgentName env.repr name
  | _ => .error (.attributeError "strip")

/-- A choice out of a set of words: a list or a dict cannot be looked up in one. -/
def readChoice {α : Type} (choose : String → Option α) (refused : String) :
    Json → Except Stop α
  | .str s =>
    match choose s with
    | some a => .ok a
    | none => .error (.answer [("error", .str refused)])
  | .arr _ | .obj _ => .error (.raise (.other "unhashable type"))
  | _ => .error (.answer [("error", .str refused)])

/-- The arguments, read as far as the closed-thread check. -/
structure Draft where
  message : String
  agent : String
  action : Action
  reply : Reply
  ref : Option String
  thread : Option String
  givenId : Json
  givenSession : Json
  givenFromSession : Json

def required (name : String) : Response := [("error", .str ("'" ++ name ++ "' is required"))]

def requiredHint : Response :=
  [("hint", .str "reply=no unless you need a response; action=info unless you need work done")]

/-- The keys that have to be there. -/
def checkArgs (env : Env) (args merged : List (String × Json)) : Except Stop Unit := do
  if let some r := unknownArgumentError env args then throw (.answer r)
  if !(Json.get "message" merged).truthy then throw (.answer (required "message"))
  if !(Json.get "agent" merged).truthy then throw (.answer (required "agent"))
  if (merged.lookup "action").isNone then throw (.answer (required "action" ++ requiredHint))
  if (merged.lookup "reply").isNone then throw (.answer (required "reply" ++ requiredHint))

def readAgent (env : Env) (v : Json) : Except Stop String :=
  match env.agentName v with
  | .ok name => .ok name
  | .error (.valueError text) => .error (.answer [("error", .str text)])
  | .error e => .error (.raise e)

/-- An invalid `ref` is dropped. -/
def readRef (env : Env) (v : Json) : Except Stop (Option String) :=
  if given v then
    match env.token v with
    | .ok ref => .ok (orNone ref)
    | .error (.valueError _) => .ok none
    | .error e => .error (.raise e)
  else .ok none

def readArgs (env : Env) (args kwargs : List (String × Json)) : Except Stop Draft := do
  let merged := args ++ kwargs.filter fun kw => !runtimeKeys.contains kw.1
  checkArgs env args merged
  let action := Json.get "action" merged
  let reply := Json.get "reply" merged
  let agent ← readAgent env (Json.get "agent" merged)
  let action ← readChoice readAction
    ("Invalid action '" ++ env.text action ++ "'; must be 'do' or 'info'") action
  let reply ← readChoice readReply
    ("Invalid reply '" ++ env.text reply ++ "'; must be 'yes', 'no', or 'end'") reply
  let ref ← readRef env (Json.get "ref" merged)
  let thread ← env.optToken "thread" (Json.get "thread" merged)
  return {
    message := env.text (Json.get "message" merged)
    agent, action, reply, ref, thread
    givenId := Json.get "task_id" merged
    givenSession := Json.get "session" merged
    givenFromSession := Json.get "from_session" merged }

/-- A message that has its id and its sender. -/
structure Mail extends Draft where
  taskId : String
  self : String

/-- The id of the message and the name of the sender. -/
def address (env : Env) (draft : Draft) : Except Stop Mail := do
  let taskId ← env.optToken "task_id" draft.givenId
  let self ← match validateAgentName env.repr env.selfName with
    | .ok name => .ok name
    | .error e => .error (.answer [("error", .str ("Invalid sender name: " ++ e.text))])
  return { draft with taskId := taskId.getD env.uuid, self }

def threadClosed (draft : Draft) : Response :=
  [("error", .str ("THREAD_CLOSED: thread closed by terminal message " ++ draft.ref.getD "")),
    ("hint", .str ("open a new message (no ref) to reach " ++ draft.agent))]

/-- Everything before the gate. -/
def prepare (env : Env) (args kwargs : List (String × Json)) (w : World) :
    Except Stop Mail × World :=
  match readArgs env args kwargs with
  | .error stop => (.error stop, w)
  | .ok draft =>
    let (closed, view) := Threads.isClosed env.valid env.closedIo draft.ref w.closed
    let w := { w with closed := view }
    if closed then (.error (.answer (threadClosed draft)), w) else (address env draft, w)

/-! ## The gate -/

/-- `_call_shape`. -/
def callShape (env : Env) (params : List (String × String)) : String :=
  "mesh_send(" ++
    ", ".intercalate (params.map fun (key, value) => key ++ "=" ++ env.repr value) ++ ")"

/-- `E-BUSY`, because the sender holds too many threads. -/
def tooManyOpen (env : Env) (mail : Mail) (limit : ℕ) (threads peers : List String) : Response :=
  let capThread := threads.find? (· ≠ "")
  let capPeer := peers.head?.getD mail.agent
  let closeCall := capThread.map fun thread =>
    callShape env [("agent", capPeer), ("message", "closing this thread"), ("action", "info"),
      ("reply", "end"), ("thread", thread)]
  let optStr : Option String → Json := fun s => (s.map Json.str).getD .null
  [("error", .str "E-BUSY"), ("reason", .str "too-many-open"),
    ("message", .str ("you already hold " ++ toString limit ++ " open outbound threads (" ++
      ", ".intercalate peers ++ "); close one with reply:end")),
    ("threads", .arr (threads.map .str)), ("peers", .arr (peers.map .str)),
    ("thread", optStr capThread), ("executable", optStr closeCall),
    ("reroute", .str ("close one with reply:end, or send as a reply:no notice " ++
      "(notices are exempt)")),
    ("note", .str "refused is neither delivered nor lost — nothing was sent")]

/-- `E-BUSY`, because somebody else talks to the recipient. -/
def recipientBusy (env : Env) (mail : Mail) (blocker : Lease) : Response :=
  [("error", .str "E-BUSY"), ("reason", .str "recipient-busy"),
    ("message", .str ("'" ++ mail.agent ++ "' is in an open thread with '" ++ blocker.openedBy ++
      "' (not you); it ends on reply:end or when its lease expires")),
    ("thread_id", .str blocker.threadId), ("thread", .str blocker.threadId),
    ("peer", .str blocker.openedBy), ("opened_at", .num blocker.openedAt),
    ("lease_until", .num blocker.leaseUntil),
    ("executable", .str (callShape env [("agent", mail.agent),
      ("message", "noted - this notice needs no reply"), ("action", "info"), ("reply", "no"),
      ("thread", blocker.threadId)])),
    ("reroute", .str ("send as a reply:no notice (exempt), or retry after the lease ends at " ++
      env.clockText blocker.leaseUntil)),
    ("note", .str "refused is neither delivered nor lost — nothing was sent")]

/-- `_meter`. -/
def World.measure (w : World) (mail : Mail) (thread : Json) (outcome : String) : World :=
  let thread := if thread.truthy then thread else .str "-"
  { w with meter := ⟨mail.agent, mail.action, mail.reply, thread, outcome⟩ :: w.meter }

/-- The lease that `ref` names, where it joins the sender and the recipient. -/
def threadTraffic (env : Env) (mail : Mail) (leases : OpenThreads.File) : Option Lease :=
  (mail.ref.bind fun ref => OpenThreads.leaseFor env.leaseFor.io env.leaseFor.now ref leases).filter
    (·.joins mail.self mail.agent)

/-- The claim of the gate. -/
def Env.claimDoor (env : Env) (mail : Mail) (leases : OpenThreads.File) :
    Except PyError Claimed × OpenThreads.File :=
  OpenThreads.claim env.valid env.claim.io env.claim.now mail.taskId mail.self mail.agent
    OpenThreads.defaultLeaseMinutes leases

/-- The busy gate: whether a lease is held, or the refusal. Notices and terminators are exempt, and
an exception grants the call without a lease. -/
def gate (env : Env) (mail : Mail) (w : World) : Except Response Bool × World :=
  match mail.reply with
  | .no | .end_ => (.ok false, w)
  | .yes =>
    if (threadTraffic env mail w.leases).isSome then (.ok true, w)
    else
      let (claimed, leases) := env.claimDoor mail w.leases
      let w := { w with leases }
      match claimed with
      | .ok (.busy blocker) =>
        (.error (recipientBusy env mail blocker), w.measure mail (.str blocker.threadId) "refused")
      | .ok (.cap limit threads peers) =>
        (.error (tooManyOpen env mail limit threads peers), w.measure mail .null "refused")
      | .ok claimed => (.ok claimed.lease.isSome, w)
      | .error _ => (.ok false, w)

/-! ## Delivery and notices -/

/-- `resolve_target`, of an identity that is a dict of dicts. -/
def resolveTarget (identity : String → Option String) (name : String) : Except String String :=
  match identity name with
  | none => .error ("target '" ++ name ++ "' not found in local cache")
  | some url =>
    if url = "" then .error ("target '" ++ name ++ "' has no hermes_webhook.url") else .ok url

/-- `resolve_target`. -/
def Env.target (env : Env) (name : String) : Except PyError (Except String String) :=
  match env.identityFault name with
  | some e => .error e
  | none => .ok (resolveTarget env.identity name)

/-- `resolve_sender`. -/
def resolveSender (privateKey : String → Except String String) (name : String) :
    Except String String :=
  match privateKey name with
  | .ok key => .ok key
  | .error text =>
    .error ("sender '" ++ name ++ "' could not load or generate Ed25519 key: " ++ text)

/-- `_webhook_allow_loopback() or _is_local_url(url)`. -/
def Env.loopback (env : Env) (url : String) : Except PyError Bool :=
  if env.allowLoopback then .ok true else env.isLocalUrl url

/-- One use of `_deliver_webhook`. -/
def Env.post (env : Env) (net : Net) (signature : Except PyError String) (url : String) :
    Except PyError Delivery := do
  deliverWebhook env.exceptionToReason env.budget net (← env.loopback url) url signature

/-- The same, with what it leaves behind. -/
def deliver (env : Env) (net : Net) (signature : Except PyError String) (wire : Wire) (w : World) :
    Except PyError Delivery × World :=
  let w := if (env.loopback wire.url).isOk then { w with sent := wire :: w.sent } else w
  match env.post net signature wire.url with
  | .error e => (.error e, w)
  | .ok d => (.ok d, { w with metrics := d.metrics.map ("send", ·) ++ w.metrics })

/-- The call that sends a message. -/
def Env.wire (env : Env) (mail : Mail) (padded url : String) : Wire :=
  { url, text := padded, sender := mail.self, signTimestamp := env.signTimestamp }

/-- `MESH_DSN_HEADER` and `MESH_DSN_VALUE`. -/
def dsnHeader : String × String := ("X-Mesh-DSN", "1")

/-- The call that sends a notice. -/
def Env.dsnWire (env : Env) (dsnFrom text url : String) : Wire :=
  { url, text, sender := dsnFrom, headers := [dsnHeader], signTimestamp := env.signTimestamp }

/-- `queue_message` with attempt 0. -/
def queueMessage (env : Env) (item : Outbox.Uuid) (fromAgent toAgent text : String)
    (ref : Option String) (isDsn : Bool) (anchor : Option String) (w : World) :
    Except PyError Unit × World :=
  match env.queueFault with
  | some e => (.error e, w)
  | none =>
    let item := Outbox.newItem item env.createdAt env.nextRetry fromAgent toAgent text text 0 ref
      isDsn anchor
    (.ok (), { w with
      outbox := item :: w.outbox
      metrics := ("send", "outbox_queued") :: w.metrics })

/-- `_send_delivery_error`, for a message that is no notice itself. -/
def sendDeliveryError (env : Env) (dsnFrom dsnTo originalId reason originalFrom originalTo : String)
    (w : World) : Except PyError Unit × World :=
  if !env.dsnEnabled || !env.dsnWithinRate then (.ok (), w)
  else
    match validateAgentName env.repr dsnFrom, validateAgentName env.repr dsnTo,
        env.token (.str originalId) with
    | .ok dsnFrom, .ok dsnTo, .ok originalId =>
      let text := env.dsnText [dsnFrom, dsnTo, originalId, reason, originalFrom, originalTo]
      match env.target dsnTo, resolveSender env.privateKey dsnFrom with
      | .error e, _ => (.error e, w)
      | .ok (.ok url), .ok _ =>
        match deliver env env.dsnNet env.dsnSignature (env.dsnWire dsnFrom text url) w with
        | (.error e, w) => (.error e, w)
        | (.ok d, w) =>
          if !d.deliveryId.isSome && env.outboxEnabled then
            queueMessage env env.dsnItem dsnFrom dsnTo text (some originalId) true none w
          else (.ok (), w)
      | _, _ => (.ok (), w)
    | _, _, _ => (.ok (), w)

/-- The notice of a failed send, to the interested party. -/
def notifyFailure (env : Env) (mail : Mail) (reason : String) (w : World) :
    Except PyError Unit × World :=
  let dsnTo := if mail.ref.isSome then mail.agent else mail.self
  sendDeliveryError env mail.self dsnTo mail.taskId
    (if reason = "" then "unreachable" else reason) mail.self mail.agent w

/-! ## After the gate -/

/-- The session tokens, validated after the gate. -/
def sessions (env : Env) (mail : Mail) : Except Stop (Option String × Option String) := do
  let session ← env.optToken "session" mail.givenSession
  let fromSession ← env.optToken "from_session" mail.givenFromSession
  return (session, fromSession)

/-- The header of the message. -/
def Mail.header (mail : Mail) (session fromSession : Option String) : Header where
  sender := mail.self
  recipient := mail.agent
  msgId := mail.taskId
  session := session
  fromSession := fromSession
  action := mail.action
  reply := mail.reply
  ref := mail.ref

/-- The message as it is delivered. -/
def Mail.padded (mail : Mail) (session fromSession : Option String) : String :=
  (mail.header session fromSession).text ++ " " ++ mail.message

/-- The target or the sender could not be resolved. -/
def unresolved (env : Env) (mail : Mail) (text : String) (w : World) :
    Except PyError Response × World :=
  match notifyFailure env mail text w with
  | (.error e, w) => (.error e, w)
  | (.ok (), w) => (.ok [("error", .str text), ("task_id", .str mail.taskId)], w)

/-- The pending close of a terminator: a registry that fails is logged, anything else is raised. -/
def recordPending (env : Env) (mail : Mail) (w : World) : Except PyError Unit × World :=
  match mail.reply with
  | .end_ =>
    let (result, view) := Threads.record env.valid env.record.io env.record.stamp
      env.record.closedAt mail.taskId mail.self true w.closed
    let w := { w with closed := view }
    match result with
    | .ok () | .error (.osError _) | .error (.valueError _) => (.ok (), w)
    | .error e => (.error e, w)
  | _ => (.ok (), w)

def withdrawPending (env : Env) (mail : Mail) (w : World) : World :=
  match mail.reply with
  | .end_ =>
    { w with
      closed := Threads.withdraw env.valid env.withdraw.io env.withdraw.stamp mail.taskId w.closed }
  | _ => w

def promotePending (env : Env) (mail : Mail) (w : World) : World :=
  match mail.reply with
  | .end_ =>
    { w with
      closed := Threads.promote env.valid env.promote.io env.promote.stamp mail.taskId w.closed }
  | _ => w

/-- The field that only a terminator's response has. -/
def releaseField (mail : Mail) (value : Json) : Response :=
  match mail.reply with
  | .end_ => [("lease_released", value)]
  | _ => []

/-- `release_if_party`, where the gate granted a lease. -/
def rollback (env : Env) (mail : Mail) (held : Bool) (leases : OpenThreads.File) :
    OpenThreads.File :=
  if held then (OpenThreads.releaseIfParty env.rollback mail.taskId mail.self leases).2 else leases

/-- The delivery failed with the outbox off. -/
def failed (env : Env) (mail : Mail) (held : Bool) (reason : Option String) (w : World) :
    Except PyError Response × World :=
  match notifyFailure env mail (reason.getD "") w with
  | (.error e, w) => (.error e, w)
  | (.ok (), w) =>
    let w := w.measure mail (.str mail.taskId) "failed"
    let w := { w with leases := rollback env mail held w.leases }
    (.ok ([("error", .str ("Webhook to agent '" ++ mail.agent ++ "' failed after " ++
        toString env.budget.retries ++ " attempts")), ("task_id", .str mail.taskId)] ++
      releaseField mail .null), w)

/-- The delivery failed with the outbox on. -/
def queued (env : Env) (mail : Mail) (padded : String) (w : World) :
    Except PyError Response × World :=
  let anchor := if mail.reply = .end_ then some mail.taskId else none
  match queueMessage env env.item mail.self mail.agent padded mail.ref false anchor w with
  | (.error e, w) => (.error e, w)
  | (.ok (), w) =>
    (.ok ([("task_id", .str mail.taskId), ("state", .str "queued"),
        ("status", .str "queued for outbox retry"), ("delivery", .str "queued"),
        ("reply_expected", .bool (mail.reply = .yes)), ("message_id", .str mail.taskId),
        ("agent", .str mail.agent), ("gateway_delivery", .bool false)] ++
      releaseField mail .null), w)

/-! ## After a delivery -/

/-- The three ids that a terminator without a `thread` probes, each where it is truthy. -/
def probeAll (explicitlyConfigured : Bool) (who : String) :
    List (Json × Io) → OpenThreads.File → List OpenThreads.Status × OpenThreads.File
  | [], file => ([], file)
  | (tid, io) :: rest, file =>
    if tid.truthy then
      let (status, file) :=
        OpenThreads.releaseIfPartyStatus explicitlyConfigured io tid who file
      let (statuses, file) := probeAll explicitlyConfigured who rest file
      (status :: statuses, file)
    else probeAll explicitlyConfigured who rest file

/-- The one report of several probes. -/
def summary (statuses : List OpenThreads.Status) : OpenThreads.Status :=
  let reasons := statuses.map (·.reason)
  if statuses.any (·.released) then ⟨true, .released⟩
  else if reasons.contains .registryUnavailable then ⟨false, .registryUnavailable⟩
  else if reasons.contains .notAParty then ⟨false, .notAParty⟩
  else ⟨false, .noSuchLease⟩

/-- The releases of a delivered terminator. -/
def terminate (env : Env) (mail : Mail) (deliveryId : Json) (leases : OpenThreads.File) :
    OpenThreads.Status × OpenThreads.File :=
  match mail.thread with
  | some thread =>
    OpenThreads.releaseIfPartyStatus env.explicitlyConfigured env.threadProbe (.str thread)
      mail.self leases
  | none =>
    let ref : Json := (mail.ref.map Json.str).getD .null
    let (statuses, leases) := probeAll env.explicitlyConfigured mail.self
      [(ref, env.refProbe), (deliveryId, env.deliveryProbe), (.str mail.taskId, env.taskProbe)]
      leases
    (summary statuses, leases)

/-- The lease bookkeeping of a delivered message: what it reports, and the registry. -/
def bookkeeping (env : Env) (mail : Mail) (deliveryId : Json) (leases : OpenThreads.File) :
    Option OpenThreads.Status × OpenThreads.File :=
  match mail.reply with
  | .end_ =>
    let (status, leases) := terminate env mail deliveryId leases
    (some status, leases)
  | .yes =>
    match env.resizeMinutes with
    | none => (some ⟨false, .registryUnavailable⟩, leases)
    | some minutes =>
      match mail.ref with
      | some ref =>
        (none, (OpenThreads.touch env.touch.io env.touch.now ref (some minutes) leases).2)
      | none => (none, leases)
  | .no => (none, leases)

/-- The token of a reason. -/
def OpenThreads.Reason.text : OpenThreads.Reason → String
  | .released => "released"
  | .noSuchLease => "no-such-lease"
  | .notAParty => "not-a-party"
  | .registryUnavailable => "registry-unavailable"

/-- `lease_released` of a delivered terminator. -/
def leaseReleased (env : Env) (status : Option OpenThreads.Status) : Json :=
  match status with
  | none => .null
  | some status =>
    .obj [("released", .bool status.released), ("reason", .str status.reason.text),
      ("registry", (env.registryPath.map Json.str).getD .null)]

/-- The message was delivered and floated. -/
def completed (env : Env) (mail : Mail) (deliveryId : Json) (w : World) :
    Except PyError Response × World :=
  let (status, leases) := bookkeeping env mail deliveryId w.leases
  let w := promotePending env mail { w with leases }
  let w := w.measure mail (if deliveryId.truthy then deliveryId else .str mail.taskId) "delivered"
  (.ok ([("task_id", .str mail.taskId), ("state", .str "completed"), ("status", .str "delivered"),
      ("delivery", .str "delivered"), ("reply_expected", .bool (mail.reply = .yes)),
      ("message_id", deliveryId), ("agent", .str mail.agent), ("gateway_delivery", .bool true)] ++
    releaseField mail (leaseReleased env status)), w)

/-- The message was delivered. Nothing catches what its float raises. -/
def delivered (env : Env) (mail : Mail) (padded : String) (deliveryId : Json) (w : World) :
    Except PyError Response × World :=
  let w := { w with floats := (padded, mail.self) :: w.floats }
  match env.floatFault with
  | some e => (.error e, w)
  | none => completed env mail deliveryId w

/-! ## The whole call -/

/-- From the pending close on. -/
def dispatch (env : Env) (mail : Mail) (held : Bool) (padded url : String) (w : World) :
    Except PyError Response × World :=
  match recordPending env mail w with
  | (.error e, w) => (.error e, w)
  | (.ok (), w) =>
    match deliver env env.net env.signature (env.wire mail padded url) w with
    | (.error e, w) => (.error e, w)
    | (.ok d, w) =>
      if d.deliveryId.isSome then delivered env mail padded d.deliveryId w
      else
        let w := { w with metrics := ("send", "failed") :: w.metrics }
        let w := withdrawPending env mail w
        if env.outboxEnabled then queued env mail padded w else failed env mail held d.reason w

/-- Everything after the gate. -/
def forward (env : Env) (mail : Mail) (held : Bool) (w : World) : Except PyError Response × World :=
  match sessions env mail with
  | .error stop => (stop.result, w)
  | .ok (session, fromSession) =>
    match env.target mail.agent with
    | .error e => (.error e, w)
    | .ok (.error text) => unresolved env mail text w
    | .ok (.ok url) =>
      match resolveSender env.privateKey mail.self with
      | .error text => unresolved env mail text w
      | .ok _ => dispatch env mail held (mail.padded session fromSession) url w

/-- `handle_mesh_send`. -/
def handleMeshSend (env : Env) (args kwargs : List (String × Json)) (w : World) :
    Except PyError Response × World :=
  match prepare env args kwargs w with
  | (.error stop, w) => (stop.result, w)
  | (.ok mail, w) =>
    match gate env mail w with
    | (.error refusal, w) => (.ok refusal, w)
    | (.ok held, w) => forward env mail held w

end HermesMesh
