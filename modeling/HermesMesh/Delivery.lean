import HermesMesh.Common
import HermesMesh.Text
import Mathlib.Algebra.Order.Ring.Rat

/-!
# Webhook delivery

`_deliver_webhook` of `session_relay.py` and what it calls: target resolution, the request pinned to
the resolved addresses, the classification of a failure, and the retry loop with its budget. The
network is a parameter (`Net`): how the host resolves, how each dial ends, and what the monotonic
clock shows. `_exception_to_reason` belongs to `mesh_core` and is a parameter too. Besides its
result a call leaves a log of its attempts.
-/

namespace HermesMesh

/-- An address as `ipaddress` classifies it. -/
structure Ip where
  text : String
  /-- Multicast, reserved, unspecified, CGNAT or benchmark. -/
  special : Bool := false
  loopback : Bool := false
  /-- Private or link-local. -/
  private_ : Bool := false
  deriving DecidableEq, Repr

/-- `_is_ip_blocked`. -/
def isIpBlocked (allowLoopback : Bool) (ip : Ip) : Bool :=
  if ip.special then true
  else if ip.loopback || ip.private_ then !allowLoopback
  else false

def blockedText (ip : Ip) : String :=
  (if ip.loopback then "Loopback" else "Private/reserved") ++ " address blocked: " ++ ip.text

/-- The loop of `_resolve_target_url` over the resolved addresses. -/
def allowedIps (allowLoopback : Bool) : List Ip → Except String (List Ip)
  | [] => .ok []
  | ip :: rest =>
    if isIpBlocked allowLoopback ip then
      if allowLoopback then allowedIps allowLoopback rest else .error (blockedText ip)
    else do return ip :: (← allowedIps allowLoopback rest)

/-- `_resolve_target_url`: `resolved` is the outcome of parsing the URL and resolving its host. -/
def resolveTargetUrl (url host : String) (resolved : Except String (List Ip))
    (allowLoopback : Bool) : Except String (List Ip) := do
  let url := strip url
  if !(startsWith "http://" url || startsWith "https://" url) then
    throw ("URL must use http/https: " ++ url)
  let ips ← resolved
  let allowed ← allowedIps allowLoopback ips
  if allowed.isEmpty then throw ("No valid IP addresses for host " ++ host)
  return allowed

/-! ## One attempt -/

/-- The body of an answer: what `json.loads(data.decode())` makes of it, if it is JSON. -/
abbrev Body := Option Json

/-- How the connection to one address ends. -/
inductive DialOutcome where
  | answered (status : ℕ) (body : Body)
  | timedOut
  /-- An `OSError` or `HTTPException`: no answer that can be read. -/
  | failed (text : String)
  /-- Any other exception, which leaves `_pinned_request` at once. -/
  | aborted (text : String)

/-- The exceptions that reach the retry loop. -/
inductive Exc where
  /-- `HTTPError`, with the body it carries. -/
  | http (status : ℕ) (body : Body)
  | timeout
  /-- The answer is not a JSON object: the decoding or the `.get` raised. -/
  | unreadable
  | other (text : String)

def arrivalTokens : List String := ["duplicate", "replay", "already-delivered"]

/-- `_REFUSAL_REASONS`. -/
def refusalReasons : List (String × String) :=
  [("busy", "busy"), ("queue-full", "busy"), ("rate-limited", "rate-limited"),
    ("unauthorized", "unauthorized"), ("bad-request", "bad-request")]

def unconfirmed : String := "unconfirmed"

/-- `_json_status_token`. -/
def jsonStatusToken : Body → Option String
  | some (.obj fields) =>
    match Json.get "status" fields with
    | .str token => some (lower token)
    | _ => none
  | _ => none

/-- `_declares_arrival`. -/
def declaresArrival (body : Body) : Bool :=
  match jsonStatusToken body with
  | some token => arrivalTokens.contains token
  | none => false

/-- `_is_timeout`. -/
def isTimeout : Exc → Bool
  | .http _ _ => false
  | .timeout => true
  | .unreadable => false
  | .other text => hasText "timed out" (lower text)

/-- `_error_body_token`. -/
def errorBodyToken : Exc → Option String
  | .http _ body => jsonStatusToken body
  | _ => none

/-- `_delivery_failure_reason`: the token first, then the timeout, then the shared mapping. -/
def deliveryFailureReason (exceptionToReason : Exc → String) (exc : Exc) : String :=
  match errorBodyToken exc with
  | some token =>
    if arrivalTokens.contains token then unconfirmed
    else (refusalReasons.lookup token).getD unconfirmed
  | none => if isTimeout exc then unconfirmed else exceptionToReason exc

/-- `_pinned_request`: the addresses it dials, and the body it returns or the exception it raises.
An `HTTPError` is an `OSError`, so a refusal moves on to the next address. -/
def pinnedRequest (allowLoopback : Bool) (dial : Ip → DialOutcome) (lastExc : Option Exc) :
    List Ip → List Ip × Except Exc Body
  | [] => ([], .error (lastExc.getD (.other "Could not connect to any resolved IP")))
  | ip :: rest =>
    if isIpBlocked allowLoopback ip then
      if allowLoopback then pinnedRequest allowLoopback dial lastExc rest
      else ([], .error (.other (blockedText ip)))
    else
      let next (exc : Exc) : List Ip × Except Exc Body :=
        let (dialed, answer) := pinnedRequest allowLoopback dial (some exc) rest
        (ip :: dialed, answer)
      match dial ip with
      | .answered status body =>
        if status ≥ 400 then
          if declaresArrival body then ([ip], .ok body) else next (.http status body)
        else ([ip], .ok body)
      | .timedOut => next .timeout
      | .failed text => next (.other text)
      | .aborted text => ([ip], .error (.other text))

/-- `json.loads(data.decode()).get("delivery_id", "unknown")`. -/
def readDeliveryId : Body → Except Exc Json
  | some (.obj fields) => .ok ((fields.lookup "delivery_id").getD (.str "unknown"))
  | _ => .error .unreadable

/-! ## The retry loop -/

/-- `_DELIVERY_RETRIES`, `_DELIVERY_BACKOFF` and `_DELIVERY_TIMEOUT`. The timeout is one that the clock
can add and `time.sleep` can wait for, less than 2 ** 63 nanoseconds. -/
structure Budget where
  retries : ℤ := 3
  backoff : ℚ := 1
  timeout : ℤ := 10

/-- The network and the clock of one call. -/
structure Net where
  /-- The host that the URL names. -/
  host : String := ""
  /-- Parsing the URL and resolving its host. -/
  resolved : Except String (List Ip)
  /-- What `_resolve_target_url` raises that is no `ValueError`: the URL is no text, or the lookup fails
  with more than a `gaierror`. -/
  fault : Option PyError := none
  /-- The URL checks that `_pinned_request` makes on its own. -/
  refused : Option String := none
  /-- How a dial of one attempt ends. -/
  dial : ℕ → Ip → DialOutcome
  /-- The clock when the budget starts. -/
  opened : Time
  /-- The clock at the top of an attempt, when it has failed, and when the rest is computed. -/
  tried : ℕ → Time
  failed : ℕ → Time
  left : ℕ → Time

/-- What one attempt did. -/
structure Attempt where
  index : ℕ
  timeout : Time
  dials : List DialOutcome
  ended : Except Exc Json

/-- What the call returns, `(delivery_id, reason)`, with the attempts and the pauses it made and the
`send` metrics it counted; or what its loop raises. -/
structure Delivery where
  deliveryId : Json
  reason : Option String
  attempts : List Attempt := []
  sleeps : List Time := []
  metrics : List String := []
  raised : Option PyError := none

/-- The end of the loop is the end of the call. -/
def Delivery.result (d : Delivery) : Except PyError Delivery :=
  match d.raised with
  | some e => .error e
  | none => .ok d

/-- `_pinned_request` of one attempt, with the URL checks it begins with. -/
def Net.request (net : Net) (allowLoopback : Bool) (ips : List Ip) (index : ℕ) :
    List Ip × Except Exc Body :=
  match net.refused with
  | some text => ([], .error (.other text))
  | none => pinnedRequest allowLoopback (net.dial index) none ips

/-- The body of the `try`. -/
def tryOnce (net : Net) (allowLoopback : Bool) (ips : List Ip) (index : ℕ) (timeout : Time) :
    Attempt :=
  let (dialed, answer) := net.request allowLoopback ips index
  ⟨index, timeout, dialed.map (net.dial index), answer.bind readDeliveryId⟩

variable (exceptionToReason : Exc → String) (budget : Budget) (net : Net) (allowLoopback : Bool)
  (ips : List Ip)

/-- The loop over the attempts that remain, with the deadline and whether it was extended. -/
def deliverLoop : ℕ → ℕ → Time → Bool → Delivery
  | 0, _, _, _ => { deliveryId := .null, reason := some "unreachable" }
  | fuel + 1, attempt, deadline, extended =>
    let remaining := deadline - net.tried attempt
    if remaining ≤ 0 then { deliveryId := .null, reason := some unconfirmed }
    else
      let attemptTimeout : Time := if attempt = 0 then budget.timeout else max 1 remaining
      let made := tryOnce net allowLoopback ips attempt attemptTimeout
      match made.ended with
      | .ok deliveryId =>
        { deliveryId, reason := none, attempts := [made], metrics := ["total"] }
      | .error exc =>
        let extend := attempt = 0 && !extended && isTimeout exc
        let deadline := if extend then net.failed attempt + budget.timeout else deadline
        let remaining := deadline - net.left attempt
        if (attempt : ℤ) < budget.retries - 1 ∧ remaining > 0 then
          -- the product with a float makes `2 ** attempt` one, in a handler that nothing guards
          if 1024 ≤ attempt then
            { deliveryId := .null
              reason := none
              attempts := [made]
              raised := some (.other "OverflowError") }
          else
            let sleepTime := min (budget.backoff * 2 ^ attempt) (max 0 (remaining - 1))
            let rest := deliverLoop fuel (attempt + 1) deadline (extended || extend)
            { rest with
              attempts := made :: rest.attempts
              sleeps := (if sleepTime > 1 / 1000 then [sleepTime] else []) ++ rest.sleeps }
        else
          { deliveryId := .null
            reason := some (deliveryFailureReason exceptionToReason exc)
            attempts := [made]
            metrics := ["failed"] }

/-- `_deliver_webhook`, once the wire body is built. `signature` is the outcome of signing, which
follows the resolution. -/
def deliverWebhook (url : String) (signature : Except PyError String) : Except PyError Delivery :=
  match net.fault with
  | some e => .error e
  | none =>
    match resolveTargetUrl url net.host net.resolved allowLoopback with
    | .error text =>
      .ok
        { deliveryId := .null
          reason := some (if hasText "blocked" (lower text) then "loopback-blocked" else "unreachable") }
    | .ok ips =>
      match signature with
      | .error e => .error e
      | .ok _ =>
        (deliverLoop exceptionToReason budget net allowLoopback ips budget.retries.toNat 0
          (net.opened + budget.timeout) false).result

section

variable {exceptionToReason budget net allowLoopback} {url : String}
  {signature : Except PyError String} {d d' : Delivery}

theorem Delivery.result_ok (h : d.result = .ok d') : d.raised = none ∧ d' = d := by
  unfold Delivery.result at h
  cases hraised : d.raised with
  | some e =>
    rw [hraised] at h
    cases h
  | none =>
    rw [hraised] at h
    exact ⟨rfl, (Except.ok.inj h).symm⟩

theorem Delivery.result_error_iff {e : PyError} : d.result = .error e ↔ d.raised = some e := by
  unfold Delivery.result
  cases d.raised <;> simp

theorem deliverWebhook_fault
    (h : deliverWebhook exceptionToReason budget net allowLoopback url signature = .ok d) :
    net.fault = none := by
  unfold deliverWebhook at h
  cases hfault : net.fault with
  | some e =>
    rw [hfault] at h
    cases h
  | none => rfl

/-- **A call that returns** has made no attempt at a URL that is refused, or has run its loop. -/
theorem deliverWebhook_ok
    (h : deliverWebhook exceptionToReason budget net allowLoopback url signature = .ok d) :
    (∃ text, resolveTargetUrl url net.host net.resolved allowLoopback = .error text ∧
      d.deliveryId = .null ∧ d.reason ≠ none ∧ d.attempts = [] ∧ d.metrics = [] ∧ d.raised = none) ∨
      ∃ ips key, resolveTargetUrl url net.host net.resolved allowLoopback = .ok ips ∧
        signature = .ok key ∧ d.raised = none ∧ d = deliverLoop exceptionToReason budget net
          allowLoopback ips budget.retries.toNat 0 (net.opened + budget.timeout) false := by
  have hfault := deliverWebhook_fault h
  unfold deliverWebhook at h
  rw [hfault] at h
  cases hresolve : resolveTargetUrl url net.host net.resolved allowLoopback with
  | error text =>
    rw [hresolve] at h
    obtain rfl := Except.ok.inj h
    exact .inl ⟨text, rfl, rfl, nofun, rfl, rfl, rfl⟩
  | ok ips =>
    rw [hresolve] at h
    cases signature with
    | error e => cases h
    | ok key =>
      obtain ⟨hraised, rfl⟩ := Delivery.result_ok h
      exact .inr ⟨ips, key, rfl, rfl, hraised, rfl⟩

/-- A call raises where the resolution does, where it comes to sign its request and cannot, and where
its loop raises. -/
theorem deliverWebhook_error_iff {e : PyError} :
    deliverWebhook exceptionToReason budget net allowLoopback url signature = .error e ↔
      net.fault = some e ∨ net.fault = none ∧
        ∃ ips, resolveTargetUrl url net.host net.resolved allowLoopback = .ok ips ∧
          (signature = .error e ∨ (∃ key, signature = .ok key) ∧
            (deliverLoop exceptionToReason budget net allowLoopback ips budget.retries.toNat 0
              (net.opened + budget.timeout) false).raised = some e) := by
  unfold deliverWebhook
  cases net.fault with
  | some e' => simp
  | none =>
    cases resolveTargetUrl url net.host net.resolved allowLoopback with
    | error text => simp
    | ok ips =>
      cases signature with
      | error e' => simp
      | ok key => simp [Delivery.result_error_iff]

end

end HermesMesh
