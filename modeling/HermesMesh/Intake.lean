import HermesMesh.Envelope
import HermesMesh.Threads
import Mathlib.Algebra.Order.Group.Unbundled.Abs
import Mathlib.Logic.Function.Basic

/-!
# The intake

`_handle_mesh` of `adapter.py`. A request is checked as it arrives, waits while a thread of the pool
verifies its signature, and is taken in after that in one piece; between its two parts any other
request may come in or go on. `Adapter` is what the adapter holds. The JSON reader, `float`, the
signature check, the identity cache and the gateway's `Platform` are not under this repository.
-/

namespace HermesMesh.Intake

/-- One POST, with the three headers that the handler reads. -/
structure Request where
  timestamp : String
  signature : String
  /-- `X-Mesh-DSN` is `1`. -/
  isDsn : Bool := false
  body : String
  deriving DecidableEq, Repr

/-- The configuration of an adapter. -/
structure Config where
  agentName : String
  /-- The sentinel is `INSECURE_NO_AUTH`. -/
  insecure : Bool := false
  replayWindowTtl : Time := 300
  replayWindowSize : ℕ := 10000
  rateLimitPerMinute : ℤ := 0
  dsnEnabled : Bool := false
  /-- `_target_session`, also where it comes from the global configuration. -/
  targetSession : Option String := none
  sessionMap : List (String × String) := []
  /-- `_CORE_BINDS_PLATFORM` and `_ROUTED_BINDING`. -/
  coreBindsPlatform : Bool := false
  routedBinding : Bool := false

/-- What the handler calls outside of the repository. -/
structure Kit where
  valid : TokenRule
  repr : String → String := fun s => "'" ++ s ++ "'"
  /-- `str` of a value that is no string. -/
  str : Json → String := fun _ => ""
  /-- `json.loads`; `JSONDecodeError` is a `ValueError`. -/
  loads : String → Except PyError Json
  /-- `float`, where it gives a finite number. -/
  float : String → Option Time
  /-- `verify_ed25519` of a public key, the signed bytes and a signature. -/
  verify : String → String → String → Except PyError Bool
  /-- `Platform` of a name, which raises where the gateway knows no such platform. -/
  platform : String → Except PyError String := .ok

/-- A notice that a refusal sends: to whom, about which message, and why. -/
structure Notice where
  recipient : Json
  originalId : String
  reason : String

/-- `web.json_response`, and the notice that goes out before it. -/
structure Answer where
  status : ℕ
  body : List (String × Json)
  notice : Option Notice := none

def said (status : ℕ) (text : String) : Answer := ⟨status, [("status", .str text)], none⟩

/-- Where a waiting request stands. -/
inductive Stage where
  /-- The signature over timestamp and body is being verified under this key. -/
  | signed (key : String)
  /-- The signature over the body alone is. -/
  | bare (key : String)
  /-- Nothing is to be verified. -/
  | ready
  deriving DecidableEq, Repr

/-- A request that has been checked as it arrived. -/
structure Pending where
  request : Request
  text : String
  sender : Json
  stage : Stage

/-- What `build_source` is given: the chat that a message is routed to. -/
structure Source where
  chatId : String
  chatName : String
  chatType : String
  userId : String
  userIdAlt : Option String := none
  userName : String
  /-- The platform that is stamped on it. -/
  platform : Option String := none
  deriving DecidableEq, Repr

/-- What goes into the inbox: the text that the agent is shown, the id of the message and where it is
routed to. -/
structure MessageEvent where
  text : String
  source : Source
  messageId : String
  deriving DecidableEq, Repr

/-- One message taken in: its request, its id, and the readings at which the id was stored and the
seen-id table was swept. -/
structure Accepted where
  request : Request
  messageId : String
  seenAt : Time
  sweptAt : Time
  deriving DecidableEq, Repr

/-- What an adapter holds. `accepted` and `answers` only record what happened. -/
structure Adapter where
  seen : List (String × Time) := []
  buckets : String → Option (ℕ × Time) := fun _ => none
  inbox : List MessageEvent := []
  closed : Threads.View
  waiting : ℕ → Option Pending := fun _ => none
  clock : Time := 0
  accepted : List Accepted := []
  answers : List (ℕ × Except PyError Answer) := []

/-! ## As a request arrives -/

/-- `_validate_timestamp`. -/
def validTimestamp (kit : Kit) (ttl now : Time) (timestamp : String) : Bool :=
  match kit.float timestamp with
  | some ts => decide (|now - ts| ≤ ttl)
  | none => false

/-- The start of `_verify_ed25519`, up to the first verification. `publicKey` reads the identity
cache, and is empty where there is no key. -/
def openVerification (kit : Kit) (publicKey : String → String) (sender : Json) :
    Option (String × String) :=
  match sender with
  | .str name =>
    match validateAgentName kit.repr name with
    | .ok name => if publicKey name = "" then none else some (name, publicKey name)
    | .error _ => none
  | _ => none

def Kit.text (kit : Kit) : Json → String
  | .str s => s
  | v => kit.str v

/-- The handler up to its first wait: an answer, or a request that waits. -/
def receive (cfg : Config) (kit : Kit) (publicKey : String → String) (now : Time)
    (request : Request) : Except PyError (Answer ⊕ Pending) :=
  match kit.loads request.body with
  | .error (.valueError _) => .ok (.inl (said 400 "invalid json"))
  | .error e => .error e
  | .ok (.obj fields) =>
    let text := ((fields.lookup "text").map kit.text).getD ""
    let sender := Json.get "from" fields
    if !validTimestamp kit cfg.replayWindowTtl now request.timestamp then
      .ok (.inl (said 401 "unauthorized"))
    else if cfg.insecure then .ok (.inr ⟨request, text, sender, .ready⟩)
    else if request.signature = "" then .ok (.inl (said 401 "unauthorized"))
    else
      match openVerification kit publicKey sender with
      | some (name, key) => .ok (.inr ⟨request, text, .str name, .signed key⟩)
      | none => .ok (.inl (said 401 "unauthorized"))
  | .ok _ => .ok (.inl (said 400 "invalid json"))

/-- The bytes that a sender signs. -/
def Request.signedBody (r : Request) : String :=
  if r.timestamp = "" then r.body else r.timestamp ++ "\n" ++ r.body

/-! ## As it goes on -/

/-- `_check_rate_limit`: whether the limit is exceeded, and the buckets. -/
def checkRateLimit (perMinute : ℤ) (now : Time) (sender : String)
    (buckets : String → Option (ℕ × Time)) : Bool × (String → Option (ℕ × Time)) :=
  if perMinute ≤ 0 ∨ sender = "" then (false, buckets)
  else
    match buckets sender with
    | none => (false, Function.update buckets sender (some (1, now)))
    | some (count, start) =>
      if 60 < now - start then (false, Function.update buckets sender (some (1, now)))
      else
        (decide (perMinute < ↑(count + 1)),
          Function.update buckets sender (some (count + 1, start)))

/-- `_send_receive_dsn`. -/
def receiveDsn (cfg : Config) (request : Request) (sender : Json) (msgId reason : String) :
    Option Notice :=
  if !cfg.dsnEnabled || request.isDsn || !sender.truthy || msgId = "" then none
  else some ⟨sender, msgId, reason⟩

/-- What a request meets as it goes on: the clock at the rate limit, the closed-thread registry for
the check and for the record, and the clock as the id is stored and as the table is swept. -/
structure Meets where
  rateAt : Time
  closedIo : Io := {}
  record : Stamped := {}
  seenAt : Time
  sweptAt : Time

/-- The checks before the inbox: the envelope, the rate limit, sender and recipient, and the
closed-thread guard, which neither a notice nor a terminator has to pass. -/
def screen (cfg : Config) (kit : Kit) (meets : Meets) (p : Pending) (s : Adapter) :
    Except Answer Parsed × Adapter :=
  match parseEnvelope kit.valid kit.repr p.text with
  | none => (.error (said 400 "bad request"), s)
  | some parsed =>
    let refuse (answer : Answer) (to_ : Json) (reason : String) : Except Answer Parsed :=
      .error { answer with notice := receiveDsn cfg p.request to_ parsed.msgId reason }
    let (limited, buckets) :=
      checkRateLimit cfg.rateLimitPerMinute meets.rateAt parsed.sender s.buckets
    let s := { s with buckets }
    if limited then (refuse (said 429 "rate limited") (.str parsed.sender) "rate-limited", s)
    else if p.sender.truthy && !p.sender.isStr parsed.sender then
      (refuse (said 401 "unauthorized") p.sender "unauthorized", s)
    else if parsed.recipient ≠ cfg.agentName then
      (refuse (said 404 "not found") (.str parsed.sender) "not-found", s)
    else if parsed.ref.isSome && !p.request.isDsn && parsed.reply ≠ .end_ then
      let (closed, view) := Threads.isClosed kit.valid meets.closedIo parsed.ref s.closed
      let s := { s with closed := view }
      if closed then
        (.error ⟨400, [("error", .str ("THREAD_CLOSED: thread closed by terminal message " ++
            parsed.ref.getD "")),
          ("hint", .str ("open a new message (no ref) to reach " ++ parsed.recipient))], none⟩, s)
      else (.ok parsed, s)
    else (.ok parsed, s)

/-- The terminal anchor, recorded on receive: a registry that fails is logged, anything else is
raised. -/
def recordAnchor (kit : Kit) (meets : Meets) (parsed : Parsed) (s : Adapter) :
    Except PyError Unit × Adapter :=
  match parsed.reply with
  | .end_ =>
    let (result, view) := Threads.record kit.valid meets.record.io meets.record.stamp
      meets.record.closedAt parsed.msgId parsed.sender false s.closed
    let s := { s with closed := view }
    match result with
    | .ok () | .error (.osError _) | .error (.valueError _) => (.ok (), s)
    | .error e => (.error e, s)
  | _ => (.ok (), s)

/-- The target session of a message: a session that the map knows overrides the adapter's own. -/
def effectiveTarget (cfg : Config) (session : Option String) : Option String :=
  match (session.bind fun name => cfg.sessionMap.lookup name).filter (· ≠ "") with
  | some mapped => some mapped
  | none => cfg.targetSession.filter (· ≠ "")

/-- Platform, chat type and chat id of a target session. -/
def targetParts (target : String) : String × String × String :=
  match splitMax ':' 2 target.toList with
  | [platform, chatType, chatId] => (platform, chatType, chatId)
  | [platform, chatId] => (platform, "dm", chatId)
  | parts => (parts.headD "", "dm", parts.headD "")

/-- The chat of a message that is routed into a target session. -/
def routedSource (cfg : Config) (kit : Kit) (sender target : String) : Except PyError Source := do
  let (platform, chatType, chatId) := targetParts target
  let source : Source :=
    { chatId, chatName := "mesh/" ++ sender, chatType
      userId := if chatType = "dm" then chatId else "mesh:" ++ sender
      userIdAlt := if chatType = "dm" then some ("mesh:" ++ sender) else none
      userName := sender }
  if !cfg.coreBindsPlatform || cfg.routedBinding then
    return { source with platform := some (← kit.platform platform) }
  else return source

/-- The chat of a message that is routed nowhere else. -/
def meshSource (sender msgId : String) : Source where
  chatId := "mesh:" ++ sender ++ ":" ++ msgId
  chatName := "mesh/" ++ sender
  chatType := "mesh"
  userId := "mesh:" ++ sender
  userName := sender

/-- `_build_event`. -/
def buildEvent (cfg : Config) (kit : Kit) (parsed : Parsed) : Except PyError MessageEvent := do
  let text := formatDisplayText parsed.sender parsed.bodyText parsed.action parsed.reply
    (if parsed.msgId = "" then [] else [parsed.msgId]) parsed.ref
  let source ←
    match effectiveTarget cfg parsed.session with
    | some target => routedSource cfg kit parsed.sender target
    | none => pure (meshSource parsed.sender parsed.msgId)
  return ⟨text, source, parsed.msgId⟩

/-- The size of the inbox. -/
def inboxSize : ℕ := 256

/-- The entries that `_expire_seen_messages` keeps by age. -/
def unexpired (ttl now : Time) (seen : List (String × Time)) : List (String × Time) :=
  seen.filter fun entry => ¬ ttl < now - entry.2

/-- `_expire_seen_messages`: by age, and then the oldest ones beyond the cap. -/
def expireSeenMessages (cfg : Config) (now : Time) (seen : List (String × Time)) :
    List (String × Time) :=
  let kept := unexpired cfg.replayWindowTtl now seen
  kept.drop (kept.length - cfg.replayWindowSize)

/-- The message goes into the inbox, and its id into the table. -/
def accept (cfg : Config) (meets : Meets) (p : Pending) (parsed : Parsed) (event : MessageEvent)
    (s : Adapter) : Adapter :=
  { s with
    inbox := s.inbox ++ [event]
    seen := expireSeenMessages cfg meets.sweptAt (s.seen ++ [(parsed.msgId, meets.seenAt)])
    accepted := ⟨p.request, parsed.msgId, meets.seenAt, meets.sweptAt⟩ :: s.accepted }

/-- From the duplicate check on. -/
def enqueue (cfg : Config) (kit : Kit) (meets : Meets) (p : Pending) (parsed : Parsed)
    (s : Adapter) : Except PyError Answer × Adapter :=
  if (s.seen.lookup parsed.msgId).isSome then (.ok (said 200 "duplicate"), s)
  else
    match recordAnchor kit meets parsed s with
    | (.error e, s) => (.error e, s)
    | (.ok (), s) =>
      match buildEvent cfg kit parsed with
      | .error e => (.error e, s)
      | .ok event =>
        if inboxSize ≤ s.inbox.length then
          (.ok ⟨503, [("status", .str "busy"), ("delivery_id", .str parsed.msgId)],
            receiveDsn cfg p.request (.str parsed.sender) parsed.msgId "busy"⟩, s)
        else
          (.ok ⟨202, [("status", .str "accepted"), ("delivery_id", .str parsed.msgId)], none⟩,
            accept cfg meets p parsed event s)

/-- The handler after its last wait. -/
def takeIn (cfg : Config) (kit : Kit) (meets : Meets) (p : Pending) (s : Adapter) :
    Except PyError Answer × Adapter :=
  match screen cfg kit meets p s with
  | (.error answer, s) => (.ok answer, s)
  | (.ok parsed, s) => enqueue cfg kit meets p parsed s

/-! ## The adapter -/

inductive Event where
  /-- A request has come in whole. -/
  | arrive (conn : ℕ) (request : Request) (publicKey : String → String) (now : Time)
  /-- A waiting request goes on. -/
  | resume (conn : ℕ) (meets : Meets)
  /-- The processor takes the next message out of the inbox. -/
  | take
  /-- Another process writes the closed-thread registry. -/
  | closedElsewhere (file : Threads.File)

def Adapter.answer (s : Adapter) (conn : ℕ) (answer : Except PyError Answer) : Adapter :=
  { s with
    waiting := Function.update s.waiting conn none
    answers := (conn, answer) :: s.answers }

def Adapter.wait (s : Adapter) (conn : ℕ) (p : Pending) : Adapter :=
  { s with waiting := Function.update s.waiting conn (some p) }

/-- One step of a waiting request. -/
def resume (cfg : Config) (kit : Kit) (conn : ℕ) (meets : Meets) (p : Pending) (s : Adapter) :
    Adapter :=
  let finish :=
    let (answer, s) := takeIn cfg kit meets p s
    s.answer conn answer
  match p.stage with
  | .ready => finish
  | .signed key =>
    match kit.verify key p.request.signedBody p.request.signature with
    | .ok true => finish
    | .ok false => s.wait conn { p with stage := .bare key }
    | .error _ => s.answer conn (.ok (said 401 "unauthorized"))
  | .bare key =>
    match kit.verify key p.request.body p.request.signature with
    | .ok true => finish
    | _ => s.answer conn (.ok (said 401 "unauthorized"))

/-- One step of the adapter; the clock never runs back. -/
def step (cfg : Config) (kit : Kit) (s : Adapter) : Event → Option Adapter
  | .arrive conn request publicKey now =>
    if s.clock ≤ now ∧ (s.waiting conn).isNone then
      let s := { s with clock := now }
      match receive cfg kit publicKey now request with
      | .ok (.inr p) => some (s.wait conn p)
      | .ok (.inl answer) => some (s.answer conn (.ok answer))
      | .error e => some (s.answer conn (.error e))
    else none
  | .resume conn meets => do
    let p ← s.waiting conn
    if s.clock ≤ meets.rateAt ∧ meets.rateAt ≤ meets.seenAt ∧ meets.seenAt ≤ meets.sweptAt then
      some (resume cfg kit conn meets p { s with clock := meets.sweptAt })
    else none
  | .take => some { s with inbox := s.inbox.tail }
  | .closedElsewhere file => some { s with closed := { s.closed with file } }

/-! ## What an arrival comes to -/

section

variable {cfg : Config} {kit : Kit} {publicKey : String → String} {now : Time} {r : Request}
  {p : Pending} {s t : Adapter} {conn : ℕ}

/-- **A request that waits** has a body that loads and a timestamp in the window. It is ready where the
adapter asks for no signature, and goes to its verification else. -/
theorem receive_waits (h : receive cfg kit publicKey now r = .ok (.inr p)) :
    ∃ fields, kit.loads r.body = .ok (.obj fields) ∧
      validTimestamp kit cfg.replayWindowTtl now r.timestamp = true ∧
      p.request = r ∧ p.text = ((fields.lookup "text").map kit.text).getD "" ∧
      (cfg.insecure = true ∧ p.sender = Json.get "from" fields ∧ p.stage = .ready ∨
        cfg.insecure = false ∧ ∃ name key,
          openVerification kit publicKey (Json.get "from" fields) = some (name, key) ∧
          p.sender = .str name ∧ p.stage = .signed key) := by
  unfold receive at h
  split at h
  · cases h
  · cases h
  · rename_i fields hloads
    dsimp only at h
    split_ifs at h with hvalid hinsecure hsigned
    · cases h
    · rw [Bool.not_eq_true', Bool.not_eq_false] at hvalid
      obtain rfl := Sum.inr.inj (Except.ok.inj h)
      exact ⟨fields, hloads, hvalid, rfl, rfl, .inl ⟨hinsecure, rfl, rfl⟩⟩
    · cases h
    · split at h
      · rename_i name key hopen
        rw [Bool.not_eq_true', Bool.not_eq_false] at hvalid
        obtain rfl := Sum.inr.inj (Except.ok.inj h)
        exact ⟨fields, hloads, hvalid, rfl, rfl,
          .inr ⟨Bool.eq_false_iff.mpr hinsecure, name, key, hopen, rfl, rfl⟩⟩
      · cases h
  · cases h

/-- An arrival waits, or is answered at once. -/
theorem step_arrive (h : step cfg kit s (.arrive conn r publicKey now) = some t) : s.clock ≤ now ∧
    ((∃ p, receive cfg kit publicKey now r = .ok (.inr p) ∧ t = { s with clock := now }.wait conn p) ∨
      ∃ answer, receive cfg kit publicKey now r = answer.map .inl ∧
        t = { s with clock := now }.answer conn answer) := by
  unfold step at h
  dsimp only at h
  split_ifs at h with hfree
  refine ⟨hfree.1, ?_⟩
  rcases hreceive : receive cfg kit publicKey now r with e | answer | p
  · rw [hreceive] at h
    exact .inr ⟨.error e, rfl, (Option.some.inj h).symm⟩
  · rw [hreceive] at h
    exact .inr ⟨.ok answer, rfl, (Option.some.inj h).symm⟩
  · rw [hreceive] at h
    exact .inl ⟨p, rfl, (Option.some.inj h).symm⟩

end

end HermesMesh.Intake
