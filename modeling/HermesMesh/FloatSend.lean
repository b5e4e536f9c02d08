import HermesMesh.FloatParts
import HermesMesh.Lib.Replace
import Mathlib.Tactic.Linarith

/-!
# Sending a float

`send` of `float.py`: the credentials, the parts of the text, and one request for each part until one
fails or the time is up. It leaves the requests that were made and the lines that were logged. Telegram
and the clock are a parameter (`Telegram`). What arrives is an initial segment of the parts, and the log
says where it ends (`send_progress`); the bot token, which every request carries in its URL and many
exceptions in their text, is in no line of the log (`token_not_logged`).
-/

namespace HermesMesh.Float

open Lib

/-! ## The program -/

/-- `_HTTP_TIMEOUT_S`. -/
def httpTimeout : Time := 10

/-- `_SEND_WALL_BUDGET_S`. -/
def sendWallBudget : Time := 15

/-- `str(value)` and `json.loads`. -/
structure Kit where
  str : Json → List Char
  loads : List Char → Except PyError Json

/-- The config that `.get` can be called on, and the environment. -/
structure Settings where
  config : Option (List (String × Json))
  env : String → Option String

/-- How the request for a part ends. -/
inductive Reply where
  /-- The body is a JSON object. -/
  | answered (result : List (String × Json))
  /-- An `HTTPError`, with what could be read of its body. -/
  | httpError (code : ℕ) (reason body : List Char)
  /-- Any other exception, also that of a body that is no JSON object. -/
  | raised (text : List Char)

/-- Telegram and the clock: as the budget starts, and at each part. -/
structure Telegram where
  opened : Time
  tried : ℕ → Time
  reply : ℕ → Reply

inductive Level where
  | debug | warning | error
  deriving DecidableEq, Repr

structure Line where
  level : Level
  text : List Char
  deriving DecidableEq, Repr

/-- A request: its text, when it was made, and with what timeout. -/
structure Posted where
  text : List Char
  posted : Time
  timeout : Time
  reply : Reply

/-- What a call leaves, and the exception it ends with. -/
structure Sent where
  requests : List Posted := []
  log : List Line := []
  raised : Option PyError := none

/-- `a or b`. -/
def orElse (a b : Json) : Json := if a.truthy then a else b

/-- `os.getenv`. -/
def getenv (env : String → Option String) (name : String) : Json := ((env name).map Json.str).getD .null

/-- `_resolve_credentials`. -/
def resolveCredentials (config : List (String × Json)) (env : String → Option String) : Json × Json :=
  (orElse (Json.get "telegram_bot_token" config) (orElse (Json.get "bot_token" config)
      (orElse (getenv env "HERMES_TELEGRAM_BOT_TOKEN") (.str ((env "TELEGRAM_BOT_TOKEN").getD "")))),
    orElse (Json.get "telegram_default_chat_id" config) (orElse (Json.get "chat_id" config)
      (orElse (getenv env "HERMES_TELEGRAM_DEFAULT_CHAT_ID")
        (.str ((env "TELEGRAM_HOME_CHANNEL").getD "")))))

/-- `_redact`. -/
def redact (kit : Kit) (text : List Char) (secret : Json) : List Char :=
  if secret.truthy then replace (kit.str secret) "<redacted>".toList text else text

/-- `_http_error_detail`; only a `ValueError` of `json.loads` is caught. -/
def httpErrorDetail (kit : Kit) (code : ℕ) (reason body : List Char) (bot : Json) :
    Except PyError (List Char) :=
  let status := redact kit ("HTTP ".toList ++ Nat.toDigits 10 code ++ " ".toList ++ reason) bot
  if body = [] then .ok status
  else
    match kit.loads body with
    | .error (.valueError _) => .ok status
    | .error e => .error e
    | .ok (.obj fields) =>
      let description := Json.get "description" fields
      if description.truthy then .ok (redact kit (kit.str description) bot) else .ok status
    | .ok _ => .ok status

/-- `_log_part_failure`. -/
def partFailure (idx total : ℕ) (detail kind : List Char) : Line :=
  let failed := "Float part ".toList ++ Nat.toDigits 10 idx ++ "/".toList ++ Nat.toDigits 10 total ++
    " failed (".toList ++ kind ++ "): ".toList ++ detail
  let remaining := Nat.toDigits 10 (total - idx) ++ " remaining not attempted".toList
  if 1 < idx then
    ⟨.error, failed ++ "; parts 1-".toList ++ Nat.toDigits 10 (idx - 1) ++ " delivered, ".toList ++
      remaining⟩
  else ⟨.error, failed ++ "; no parts delivered, ".toList ++ remaining⟩

/-- The budget ran out before the part. -/
def partAborted (idx total : ℕ) : Line :=
  ⟨.error, "Float send aborted at part ".toList ++ Nat.toDigits 10 idx ++ "/".toList ++
    Nat.toDigits 10 total ++ ": 15s wall budget exhausted after ".toList ++ Nat.toDigits 10 (idx - 1) ++
    " part(s) delivered; remaining parts not attempted".toList⟩

def partSent (idx total : ℕ) (chat part : List Char) : Line :=
  ⟨.debug, "Float part ".toList ++ Nat.toDigits 10 idx ++ "/".toList ++ Nat.toDigits 10 total ++
    " sent to ".toList ++ chat ++ ": ".toList ++ Nat.toDigits 10 part.length ++ " chars".toList⟩

/-- The detail of an `HTTPError`, with the status line of a 429 once. -/
def rateLimited (code : ℕ) (detail : List Char) : List Char :=
  if code = 429 then
    let status := "HTTP 429 ".toList
    "HTTP 429 rate limited: ".toList ++
      if status.isPrefixOf detail then detail.drop status.length else detail
  else detail

/-- The line for a request that did not end well, if nothing is raised over it. -/
def failure (kit : Kit) (bot : Json) (idx total : ℕ) : Reply → Except PyError Line
  | .answered result =>
    .ok (partFailure idx total (redact kit (kit.str ((result.lookup "description").getD
      (.str "unknown"))) bot) "rejected".toList)
  | .httpError code reason body => do
    let detail ← httpErrorDetail kit code reason body bot
    return partFailure idx total (rateLimited code detail) "http".toList
  | .raised text => .ok (partFailure idx total (redact kit text bot) "transport".toList)

/-- Telegram has the part. -/
def Reply.accepted : Reply → Bool
  | answered result => (Json.get "ok" result).truthy
  | _ => false

/-- The loop over the parts, from part `idx` on. -/
def sendLoop (kit : Kit) (net : Telegram) (bot chat : Json) (total : ℕ) : ℕ → List (List Char) → Sent
  | _, [] => {}
  | idx, part :: rest =>
    let remaining := net.opened + sendWallBudget - net.tried idx
    if remaining ≤ 0 then { log := [partAborted idx total] }
    else
      let posted : Posted := ⟨part, net.tried idx, min httpTimeout remaining, net.reply idx⟩
      if posted.reply.accepted then
        let more := sendLoop kit net bot chat total (idx + 1) rest
        { more with
          requests := posted :: more.requests
          log := partSent idx total (kit.str chat) part :: more.log }
      else
        match failure kit bot idx total posted.reply with
        | .ok line => { requests := [posted], log := [line] }
        | .error e => { requests := [posted], raised := some e }

/-- The warning that the text was cut off. -/
def truncated (total dropped : ℕ) : Line :=
  ⟨.warning, "Float message truncated at ceiling: sent ".toList ++ Nat.toDigits 10 total ++
    " parts (max ".toList ++ Nat.toDigits 10 maxParts ++ "), ".toList ++ withCommas dropped ++
    " chars not floated".toList⟩

def pyBool (b : Bool) : List Char := if b then "True".toList else "False".toList

/-- `send`, of a string. -/
def send (kit : Kit) (settings : Settings) (net : Telegram) (text : List Char) : Sent :=
  match settings.config with
  | none =>
    { log := [⟨.error, "Float delivery error: could not resolve Telegram credentials".toList⟩] }
  | some config =>
    let (bot, chat) := resolveCredentials config settings.env
    if !bot.truthy || !chat.truthy then
      { log := [⟨.debug, "Float skipped: missing Telegram credentials (bot=".toList ++
          pyBool bot.truthy ++ ", chat=".toList ++ pyBool chat.truthy ++ ")".toList⟩] }
    else if text.all isSpace then
      { log := [⟨.debug, "Float skipped: empty or whitespace-only text".toList⟩] }
    else
      match buildParts text (htmlEscape text) with
      | .error e =>
        { log := [⟨.error, "Float delivery error: ".toList ++ redact kit e.text.toList bot⟩] }
      | .ok (parts, total, dropped) =>
        let sent := sendLoop kit net bot chat total 1 parts
        { sent with log := (if dropped = 0 then [] else [truncated total dropped]) ++ sent.log }

/-! ## What arrives -/

/-- The parts that Telegram took, in order. -/
def Sent.delivered (sent : Sent) : List (List Char) :=
  (sent.requests.filter (·.reply.accepted)).map (·.text)

def Sent.errors (sent : Sent) : List Line := sent.log.filter (·.level = .error)

variable {kit : Kit} {settings : Settings} {net : Telegram} {bot chat : Json} {idx total n : ℕ}
  {parts : List (List Char)} {text : List Char} {sent : Sent}

/-- How the loop over `parts` ends, from part `idx` on, when `n` of them have arrived: with the last
one, or before the next one as the budget is over, or on the reply to it. -/
inductive Ends (kit : Kit) (net : Telegram) (bot : Json) (idx total : ℕ) (parts : List (List Char))
    (n : ℕ) (sent : Sent) : Prop
  | done (hn : n = parts.length) (hrequests : sent.requests.length = n) (herrors : sent.errors = [])
      (hraised : sent.raised = none)
  | aborted (hn : n < parts.length) (hlate : net.opened + sendWallBudget ≤ net.tried (idx + n))
      (hrequests : sent.requests.length = n) (herrors : sent.errors = [partAborted (idx + n) total])
      (hraised : sent.raised = none)
  | failed (hn : n < parts.length) (hrefused : (net.reply (idx + n)).accepted = false)
      (hrequests : sent.requests.length = n + 1) {line : Line}
      (hline : failure kit bot (idx + n) total (net.reply (idx + n)) = .ok line)
      (herrors : sent.errors = [line]) (hraised : sent.raised = none)
  | raised (hn : n < parts.length) (hrequests : sent.requests.length = n + 1) {code : ℕ}
      {reason body : List Char} {e : PyError} (hreply : net.reply (idx + n) = .httpError code reason body)
      (hloads : kit.loads body = .error e) (huncaught : ∀ text, e ≠ .valueError text)
      (herrors : sent.errors = []) (hraised : sent.raised = some e)

/-- `n` parts have arrived, the first ones, and no more than one other was tried. -/
structure Progress (kit : Kit) (net : Telegram) (bot : Json) (idx total : ℕ)
    (parts : List (List Char)) (n : ℕ) (sent : Sent) : Prop where
  delivered : sent.delivered = parts.take n
  requests : sent.requests.map (·.text) = parts.take sent.requests.length
  /-- Each request is made at its part, and meets the reply to it. -/
  replies : ∀ k r, sent.requests[k]? = some r →
    r.posted = net.tried (idx + k) ∧ r.reply = net.reply (idx + k)
  inTime : ∀ r ∈ sent.requests, 0 < r.timeout ∧ r.timeout ≤ httpTimeout ∧
    r.posted + r.timeout ≤ net.opened + sendWallBudget
  ends : Ends kit net bot idx total parts n sent

theorem partFailure_level (idx total : ℕ) (detail kind : List Char) :
    (partFailure idx total detail kind).level = .error := by
  unfold partFailure
  dsimp only
  split_ifs <;> rfl

theorem failure_level {reply : Reply} {line : Line} (h : failure kit bot idx total reply = .ok line) :
    line.level = .error := by
  cases reply with
  | answered result =>
    obtain rfl := Except.ok.inj h
    exact partFailure_level ..
  | httpError code reason body =>
    obtain ⟨detail, -, h⟩ := bind_ok h
    obtain rfl := Except.ok.inj h
    exact partFailure_level ..
  | raised text =>
    obtain rfl := Except.ok.inj h
    exact partFailure_level ..

/-- Only the body of an `HTTPError` can raise, when it is parsed. -/
theorem failure_error {reply : Reply} {e : PyError} (h : failure kit bot idx total reply = .error e) :
    ∃ code reason body, reply = .httpError code reason body ∧ kit.loads body = .error e ∧
      ∀ text, e ≠ .valueError text := by
  cases reply with
  | answered result => cases h
  | raised text => cases h
  | httpError code reason body =>
    refine ⟨code, reason, body, rfl, ?_⟩
    have hdetail : httpErrorDetail kit code reason body bot = .error e := by
      unfold failure at h
      dsimp only at h
      cases hdetail : httpErrorDetail kit code reason body bot with
      | ok detail =>
        rw [hdetail] at h
        cases h
      | error e' =>
        rw [hdetail] at h
        obtain rfl : e' = e := Except.error.inj h
        rfl
    unfold httpErrorDetail at hdetail
    dsimp only at hdetail
    split_ifs at hdetail
    split at hdetail
    · cases hdetail
    · rename_i e' hcaught hloads
      cases hdetail
      exact ⟨hloads, fun text htext => hcaught text htext⟩
    · split_ifs at hdetail
    · cases hdetail

/-- A part that arrived before the others. -/
theorem Progress.cons {part : List Char} {posted : Posted} {line : Line}
    (h : Progress kit net bot (idx + 1) total parts n sent) (hpart : posted.text = part)
    (hposted : posted.posted = net.tried idx ∧ posted.reply = net.reply idx)
    (haccepted : posted.reply.accepted = true) (hline : line.level ≠ .error)
    (htime : 0 < posted.timeout ∧ posted.timeout ≤ httpTimeout ∧
      posted.posted + posted.timeout ≤ net.opened + sendWallBudget) :
    Progress kit net bot idx total (part :: parts) (n + 1)
      { sent with requests := posted :: sent.requests, log := line :: sent.log } := by
  have herrors : Sent.errors { sent with requests := posted :: sent.requests, log := line :: sent.log } =
      sent.errors := by
    unfold Sent.errors
    rw [List.filter_cons_of_neg (by simpa using hline)]
  have hnext : ∀ n, idx + 1 + n = idx + (n + 1) := fun n => by omega
  refine ⟨?_, ?_, ?_, List.forall_mem_cons.mpr ⟨htime, h.inTime⟩, ?_⟩
  · have hdelivered := h.delivered
    unfold Sent.delivered at hdelivered ⊢
    show ((posted :: sent.requests).filter (·.reply.accepted)).map (·.text) = _
    rw [List.filter_cons, if_pos haccepted, List.map_cons, hdelivered, hpart, List.take_succ_cons]
  · rw [List.map_cons, h.requests, hpart, List.length_cons, List.take_succ_cons]
  · intro k r hk
    cases k with
    | zero =>
      obtain rfl := Option.some.inj hk
      exact hposted
    | succ k =>
      rw [← hnext]
      exact h.replies k r hk
  · have hparts : ∀ {n}, n < parts.length → n + 1 < (part :: parts).length := Nat.succ_lt_succ
    have hrequests : ∀ {n}, sent.requests.length = n → (posted :: sent.requests).length = n + 1 :=
      congrArg Nat.succ
    cases h.ends with
    | done hn hmade hnone hraised =>
      exact .done (by rw [hn, List.length_cons]) (hrequests hmade) (herrors.trans hnone) hraised
    | aborted hn hlate hmade hone hraised =>
      rw [hnext] at hlate
      refine .aborted (hparts hn) hlate (hrequests hmade) ?_ hraised
      rw [herrors, hone, hnext]
    | failed hn hrefused hmade hfailure hone hraised =>
      rw [hnext] at hrefused hfailure
      exact .failed (hparts hn) hrefused (hrequests hmade) hfailure (herrors.trans hone) hraised
    | raised hn hmade hreply hloads huncaught hnone hraised =>
      rw [hnext] at hreply
      exact .raised (hparts hn) (hrequests hmade) hreply hloads huncaught (herrors.trans hnone) hraised

/-- The timeout of a request fits into what is left of the budget. -/
theorem timeout_fits {opened tried : Time} (h : ¬ opened + sendWallBudget - tried ≤ 0) :
    0 < min httpTimeout (opened + sendWallBudget - tried) ∧
      min httpTimeout (opened + sendWallBudget - tried) ≤ httpTimeout ∧
      tried + min httpTimeout (opened + sendWallBudget - tried) ≤ opened + sendWallBudget := by
  have htimeout : (0 : Time) < httpTimeout := by norm_num [httpTimeout]
  have hleft := min_le_right httpTimeout (opened + sendWallBudget - tried)
  exact ⟨lt_min htimeout (not_le.mp h), min_le_left _ _, by linarith⟩

/-- **The loop**, by induction on the parts that are left. -/
theorem sendLoop_progress (kit : Kit) (net : Telegram) (bot chat : Json) (total : ℕ)
    (parts : List (List Char)) : ∀ idx, ∃ n,
      Progress kit net bot idx total parts n (sendLoop kit net bot chat total idx parts) := by
  induction parts with
  | nil => exact fun idx => ⟨0, rfl, rfl, nofun, nofun, .done rfl rfl rfl rfl⟩
  | cons part rest ih =>
    intro idx
    unfold sendLoop
    dsimp only
    split_ifs with hlate haccepted
    · exact ⟨0, rfl, rfl, nofun, nofun, .aborted (by simp) (sub_nonpos.mp hlate) rfl rfl rfl⟩
    · obtain ⟨n, h⟩ := ih (idx + 1)
      exact ⟨n + 1, h.cons rfl ⟨rfl, rfl⟩ haccepted (by rw [partSent]; nofun) (timeout_fits hlate)⟩
    · have hnone : ∀ posted : Posted, posted.reply = net.reply idx →
          ([posted].filter (·.reply.accepted)).map (·.text) = [] := by
        intro posted hreply
        rw [List.filter_cons, if_neg (by rwa [hreply])]
        rfl
      have hreplies : ∀ (k : ℕ) (r : Posted), [(⟨part, net.tried idx, min httpTimeout
          (net.opened + sendWallBudget - net.tried idx), net.reply idx⟩ : Posted)][k]? = some r →
          r.posted = net.tried (idx + k) ∧ r.reply = net.reply (idx + k) := by
        intro k r hk
        cases k with
        | zero =>
          obtain rfl := Option.some.inj hk
          exact ⟨rfl, rfl⟩
        | succ k => cases hk
      refine ⟨0, ?_⟩
      cases hfailure : failure kit bot idx total (net.reply idx) with
      | ok line =>
        refine ⟨hnone _ rfl, rfl, hreplies, List.forall_mem_singleton.mpr (timeout_fits hlate), ?_⟩
        refine .failed (by simp) (by simpa using haccepted) rfl hfailure ?_ rfl
        show [line].filter (·.level = .error) = [line]
        rw [List.filter_cons, if_pos (decide_eq_true (failure_level hfailure))]
        rfl
      | error e =>
        refine ⟨hnone _ rfl, rfl, hreplies, List.forall_mem_singleton.mpr (timeout_fits hlate), ?_⟩
        obtain ⟨code, reason, body, hreply, hloads, huncaught⟩ := failure_error hfailure
        exact .raised (by simp) rfl hreply hloads huncaught rfl rfl

/-! ## The call -/

theorem onLast_length {α : Type*} (f : α → α) (xs : List α) : (onLast f xs).length = xs.length := by
  obtain rfl | ⟨init, x, rfl⟩ := List.eq_nil_or_concat xs
  · rfl
  · rw [List.concat_eq_append, onLast_append_singleton, List.length_append, List.length_append]
    rfl

/-- The parts can be built, and are counted. -/
theorem buildParts_ok (text escaped : List Char) : ∃ parts dropped,
    buildParts text escaped = .ok (parts, parts.length, dropped) := by
  unfold buildParts
  split_ifs with hfits
  · exact ⟨_, _, rfl⟩
  have hlimit : 0 < chunkLimit - markerLen maxParts := by
    rw [markerOnlyLimit_eq]
    omega
  obtain ⟨base, hbase⟩ : ∃ base, chunkEscaped escaped (chunkLimit - markerLen maxParts) = .ok base :=
    ⟨_, dif_pos hlimit⟩
  dsimp only
  rw [hbase]
  show ∃ parts dropped, (if base.length ≤ maxParts then _ else _) = _
  split_ifs with hfew
  · refine ⟨_, _, congrArg Except.ok (Prod.ext rfl (Prod.ext ?_ rfl))⟩
    exact (number_length _ _).symm
  · refine ⟨_, _, congrArg Except.ok (Prod.ext rfl (Prod.ext ?_ rfl))⟩
    show maxParts = (onLast _ _).length
    rw [onLast_length, number_length, onLast_length, List.length_take]
    omega

/-- The lines before the loop do not matter. -/
theorem Progress.warned {warnings : List Line} (h : Progress kit net bot idx total parts n sent)
    (hwarnings : ∀ line ∈ warnings, line.level ≠ .error) :
    Progress kit net bot idx total parts n { sent with log := warnings ++ sent.log } := by
  have herrors : Sent.errors { sent with log := warnings ++ sent.log } = sent.errors := by
    unfold Sent.errors
    rw [List.filter_append, List.filter_eq_nil_iff.mpr (by simpa using hwarnings), List.nil_append]
  refine ⟨h.delivered, h.requests, h.replies, h.inTime, ?_⟩
  cases h.ends with
  | done hn hmade hnone hraised => exact .done hn hmade (herrors.trans hnone) hraised
  | aborted hn hlate hmade hone hraised =>
    exact .aborted hn hlate hmade (herrors.trans hone) hraised
  | failed hn hrefused hmade hfailure hone hraised =>
    exact .failed hn hrefused hmade hfailure (herrors.trans hone) hraised
  | raised hn hmade hreply hloads huncaught hnone hraised =>
    exact .raised hn hmade hreply hloads huncaught (herrors.trans hnone) hraised

/-- Nothing is sent: there is no config, a credential is missing, or the text is blank. -/
def Skips (settings : Settings) (text : List Char) : Prop :=
  ∀ config, settings.config = some config →
    (resolveCredentials config settings.env).1.truthy = false ∨
      (resolveCredentials config settings.env).2.truthy = false ∨ text.all isSpace = true

/-- **What arrives, and what the log says of it.** A call that is not skipped sends an initial segment
of the parts of the text, in order and each part once. The request that fails is the last one, no
request can last longer than the budget, and unless all parts arrived one line of the log says where
the sending stopped and why: that the budget was over by then, or what the reply to the last request
was. The exception that the call may end with instead is one that parsing the body of an `HTTPError`
raised. -/
theorem send_progress (kit : Kit) (settings : Settings) (net : Telegram) (text : List Char) :
    (Skips settings text ∧ (send kit settings net text).requests = [] ∧
        (send kit settings net text).raised = none) ∨
      ∃ config parts dropped n, settings.config = some config ∧
        buildParts text (htmlEscape text) = .ok (parts, parts.length, dropped) ∧
        Progress kit net (resolveCredentials config settings.env).1 1 parts.length parts n
          (send kit settings net text) := by
  obtain ⟨parts, dropped, hparts⟩ := buildParts_ok text (htmlEscape text)
  unfold send
  rw [hparts]
  cases hconfig : settings.config with
  | none =>
    refine .inl ⟨?_, rfl, rfl⟩
    unfold Skips
    rw [hconfig]
    exact nofun
  | some config =>
    have hwarnings : ∀ line ∈ (if dropped = 0 then [] else [truncated parts.length dropped]),
        line.level ≠ .error := by
      split_ifs
      · exact nofun
      · exact List.forall_mem_singleton.mpr nofun
    dsimp only
    generalize (if dropped = 0 then [] else [truncated parts.length dropped]) = warnings at hwarnings
    generalize hcredentials : resolveCredentials config settings.env = credentials
    obtain ⟨bot, chat⟩ := credentials
    dsimp only
    have hskips : bot.truthy = false ∨ chat.truthy = false ∨ text.all isSpace = true →
        Skips settings text := by
      intro h config' hconfig'
      obtain rfl := Option.some.inj (hconfig.symm.trans hconfig')
      rwa [hcredentials]
    split_ifs with hmissing hblank
    · refine .inl ⟨hskips ?_, rfl, rfl⟩
      obtain h | h := (Bool.or_eq_true _ _).mp hmissing
      · exact .inl (by simpa using h)
      · exact .inr (.inl (by simpa using h))
    · exact .inl ⟨hskips (.inr (.inr hblank)), rfl, rfl⟩
    · obtain ⟨n, h⟩ := sendLoop_progress kit net bot chat parts.length parts 1
      refine .inr ⟨config, parts, dropped, n, rfl, rfl, ?_⟩
      rw [hcredentials]
      exact h.warned hwarnings

/-! ## The token -/

/-- A bot token as Telegram makes them: digits, a colon, and letters, digits, `_` and `-`. -/
def BotToken (token : List Char) : Prop :=
  ∃ id secret, token = id ++ ':' :: secret ∧ secret ≠ [] ∧ (∀ c ∈ id, c.isDigit = true) ∧
    ∀ c ∈ secret, c.isAlphanum = true ∨ c = '_' ∨ c = '-'

variable {token head detail tail s : List Char}

theorem BotToken.colon_mem (h : BotToken token) : ':' ∈ token := by
  obtain ⟨id, secret, rfl, -⟩ := h
  simp

/-- The symbols that separate the words of a line. -/
theorem BotToken.lacks (h : BotToken token) {c : Char} (hc : c ∈ [' ', ';', '<', '>']) : c ∉ token := by
  obtain ⟨id, secret, rfl, -, hid, hsecret⟩ := h
  have hplain : c.isDigit = false ∧ c.isAlphanum = false ∧ c ≠ '_' ∧ c ≠ '-' ∧ c ≠ ':' := by
    simp only [List.mem_cons, List.not_mem_nil, or_false] at hc
    rcases hc with rfl | rfl | rfl | rfl <;> decide
  intro hmem
  obtain hmem | hmem := List.mem_append.mp hmem
  · rw [hid c hmem] at hplain
    exact absurd hplain.1 (by decide)
  · obtain rfl | hmem := List.mem_cons.mp hmem
    · exact hplain.2.2.2.2 rfl
    · obtain h | h | h := hsecret c hmem
      · rw [h] at hplain
        exact absurd hplain.2.1 (by decide)
      · exact hplain.2.2.1 h
      · exact hplain.2.2.2.1 h

theorem BotToken.not_infix_of_colon (h : BotToken token) (hs : ':' ∉ s) : ¬ token <:+: s :=
  fun hin => hs (hin.subset h.colon_mem)

/-- A token does not end with a colon. -/
theorem BotToken.not_infix_colon (h : BotToken token) (hs : ¬ token <:+: s) :
    ¬ token <:+: s ++ [':'] := by
  intro hinfix
  obtain hsuffix | hinfix := List.infix_concat_iff.mp hinfix
  · obtain ⟨id, secret, rfl, hne, -, hsecret⟩ := h
    obtain hnil | ⟨word, heq, -⟩ := List.suffix_concat_iff.mp hsuffix
    · simp at hnil
    · obtain rfl | ⟨secret', c, rfl⟩ := List.eq_nil_or_concat secret
      · exact hne rfl
      · rw [List.concat_eq_append, ← List.cons_append, ← List.append_assoc] at heq
        obtain rfl := (List.cons.inj (List.append_inj' heq rfl).2).1
        obtain h | h | h := hsecret ':' (by simp)
        · exact absurd h (by decide)
        · exact absurd h (by decide)
        · exact absurd h (by decide)
  · exact hs hinfix

/-- What stands behind a colon and a blank. -/
theorem BotToken.not_infix_said (h : BotToken token) (hhead : ¬ token <:+: head)
    (htail : ¬ token <:+: tail) : ¬ token <:+: head ++ ": ".toList ++ tail := by
  intro hinfix
  have hsplit : head ++ ": ".toList ++ tail = (head ++ [':']) ++ ' ' :: tail := by simp
  rw [hsplit] at hinfix
  exact (infix_of_append_cons (h.lacks (by simp)) hinfix).elim (h.not_infix_colon hhead) htail

theorem colon_not_mem_toDigits (n : ℕ) : ':' ∉ Nat.toDigits 10 n := fun h =>
  absurd (Nat.isDigit_of_mem_toDigits (by decide) (by decide) h) (by decide)

theorem mem_insertCommas (c : Char) (digits : List Char) (h : c ∈ insertCommas digits) :
    c ∈ digits ∨ c = ',' := by
  fun_induction insertCommas digits with
  | case1 x y z d rest ih =>
    simp only [List.mem_cons] at h ih ⊢
    tauto
  | case2 digits hshort => exact .inl h

section Lines

variable (htoken : BotToken (kit.str bot)) (hbot : bot.truthy = true)

include htoken

include hbot in
theorem token_not_redacted (text : List Char) : ¬ kit.str bot <:+: redact kit text bot := by
  have hne : kit.str bot ≠ [] := List.ne_nil_of_mem htoken.colon_mem
  have hshape : "<redacted>".toList = '<' :: "redacted".toList ++ ['>'] := by decide
  unfold redact
  rw [if_pos hbot, hshape]
  exact not_infix_replace hne (htoken.lacks (by simp)) (htoken.lacks (by simp))
    (htoken.not_infix_of_colon (by decide)) text

include hbot in
theorem token_not_in_detail {code : ℕ} {reason body detail : List Char}
    (h : httpErrorDetail kit code reason body bot = .ok detail) : ¬ kit.str bot <:+: detail := by
  have hredacted : ∀ text, .ok (redact kit text bot) = (.ok detail : Except PyError (List Char)) →
      ¬ kit.str bot <:+: detail := by
    intro text heq
    rw [← Except.ok.inj heq]
    exact token_not_redacted htoken hbot text
  unfold httpErrorDetail at h
  dsimp only at h
  split_ifs at h
  · exact hredacted _ h
  · split at h
    · exact hredacted _ h
    · cases h
    · split_ifs at h
      · exact hredacted _ h
      · exact hredacted _ h
    · exact hredacted _ h

theorem token_not_in_rateLimited (code : ℕ) (hdetail : ¬ kit.str bot <:+: detail) :
    ¬ kit.str bot <:+: rateLimited code detail := by
  unfold rateLimited
  dsimp only
  split_ifs with hcode hprefix
  · have hshape : "HTTP 429 rate limited: ".toList = "HTTP 429 rate limited".toList ++ ": ".toList := by
      decide
    rw [hshape]
    refine htoken.not_infix_said (htoken.not_infix_of_colon (by decide)) fun h => hdetail ?_
    exact h.trans (List.drop_suffix _ _).isInfix
  · have hshape : "HTTP 429 rate limited: ".toList = "HTTP 429 rate limited".toList ++ ": ".toList := by
      decide
    rw [hshape]
    exact htoken.not_infix_said (htoken.not_infix_of_colon (by decide)) hdetail
  · exact hdetail

theorem token_not_in_partFailure (idx total : ℕ) {kind : List Char} (hkind : ':' ∉ kind)
    (hdetail : ¬ kit.str bot <:+: detail) :
    ¬ kit.str bot <:+: (partFailure idx total detail kind).text := by
  have hdigits := colon_not_mem_toDigits
  have hhead : ':' ∉ "Float part ".toList ++ Nat.toDigits 10 idx ++ "/".toList ++
      Nat.toDigits 10 total ++ " failed (".toList ++ kind ++ ")".toList := by
    simp [hdigits, hkind]
  have hline : ∀ tail, ':' ∉ tail → ¬ kit.str bot <:+: "Float part ".toList ++ Nat.toDigits 10 idx ++
      "/".toList ++ Nat.toDigits 10 total ++ " failed (".toList ++ kind ++ "): ".toList ++ detail ++
        ';' :: tail := by
    intro tail htail h
    have hshape : "): ".toList = ")".toList ++ ": ".toList := by decide
    obtain h | h := infix_of_append_cons (htoken.lacks (by simp)) h
    · rw [hshape, ← List.append_assoc] at h
      exact htoken.not_infix_said (htoken.not_infix_of_colon hhead) hdetail h
    · exact htoken.not_infix_of_colon htail h
  unfold partFailure
  dsimp only
  split_ifs
  · have hshape : "; parts 1-".toList = ';' :: " parts 1-".toList := by decide
    rw [hshape, List.append_assoc, List.append_assoc, List.append_assoc, List.cons_append]
    exact hline _ (by simp [hdigits])
  · have hshape : "; no parts delivered, ".toList = ';' :: " no parts delivered, ".toList := by decide
    rw [hshape, List.append_assoc, List.cons_append]
    exact hline _ (by simp [hdigits])

include hbot in
theorem token_not_in_failure {reply : Reply} {line : Line}
    (h : failure kit bot idx total reply = .ok line) : ¬ kit.str bot <:+: line.text := by
  cases reply with
  | answered result =>
    obtain rfl := Except.ok.inj h
    exact token_not_in_partFailure htoken _ _ (by decide) (token_not_redacted htoken hbot _)
  | httpError code reason body =>
    obtain ⟨detail, hdetail, h⟩ := bind_ok h
    obtain rfl := Except.ok.inj h
    exact token_not_in_partFailure htoken _ _ (by decide)
      (token_not_in_rateLimited htoken code (token_not_in_detail htoken hbot hdetail))
  | raised text =>
    obtain rfl := Except.ok.inj h
    exact token_not_in_partFailure htoken _ _ (by decide) (token_not_redacted htoken hbot _)

theorem token_not_in_partSent (idx total : ℕ) {chat : List Char} (part : List Char)
    (hchat : ¬ kit.str bot <:+: chat) : ¬ kit.str bot <:+: (partSent idx total chat part).text := by
  have hdigits := colon_not_mem_toDigits
  have hshape : " sent to ".toList = " sent to".toList ++ [' '] := by decide
  unfold partSent
  dsimp only
  rw [List.append_assoc, hshape]
  refine htoken.not_infix_said (fun h => ?_) (htoken.not_infix_of_colon (by simp [hdigits]))
  rw [← List.append_assoc, List.append_assoc _ [' '], List.singleton_append] at h
  obtain h | h := infix_of_append_cons (htoken.lacks (by simp)) h
  · exact htoken.not_infix_of_colon (by simp [hdigits]) h
  · exact hchat h

theorem token_not_in_partAborted (idx total : ℕ) :
    ¬ kit.str bot <:+: (partAborted idx total).text := by
  have hdigits := colon_not_mem_toDigits
  have hshape : ": 15s wall budget exhausted after ".toList =
      ": ".toList ++ "15s wall budget exhausted after ".toList := by decide
  unfold partAborted
  dsimp only
  rw [hshape, ← List.append_assoc, List.append_assoc, List.append_assoc]
  exact htoken.not_infix_said (htoken.not_infix_of_colon (by simp [hdigits]))
    (htoken.not_infix_of_colon (by simp [hdigits]))

theorem token_not_in_truncated (total dropped : ℕ) :
    ¬ kit.str bot <:+: (truncated total dropped).text := by
  have hdigits := colon_not_mem_toDigits
  have hcommas : ':' ∉ withCommas dropped := by
    intro h
    obtain h | h := mem_insertCommas _ _ (List.mem_reverse.mp h)
    · exact hdigits dropped (List.mem_reverse.mp h)
    · exact absurd h (by decide)
  have hshape : "Float message truncated at ceiling: sent ".toList =
      "Float message truncated at ceiling".toList ++ ": ".toList ++ "sent ".toList := by decide
  unfold truncated
  dsimp only
  rw [hshape, List.append_assoc, List.append_assoc, List.append_assoc, List.append_assoc,
    List.append_assoc, List.append_assoc]
  exact htoken.not_infix_said (htoken.not_infix_of_colon (by decide))
    (htoken.not_infix_of_colon (by simp [hdigits, hcommas]))

include hbot in
theorem sendLoop_log (hchat : ¬ kit.str bot <:+: kit.str chat) (parts : List (List Char)) :
    ∀ idx, ∀ line ∈ (sendLoop kit net bot chat total idx parts).log, ¬ kit.str bot <:+: line.text := by
  induction parts with
  | nil => exact fun _ => nofun
  | cons part rest ih =>
    intro idx
    unfold sendLoop
    dsimp only
    split_ifs
    · exact List.forall_mem_singleton.mpr (token_not_in_partAborted htoken _ _)
    · exact List.forall_mem_cons.mpr ⟨token_not_in_partSent htoken _ _ _ hchat, ih _⟩
    · cases hfailure : failure kit bot idx total (net.reply idx) with
      | ok line => exact List.forall_mem_singleton.mpr (token_not_in_failure htoken hbot hfailure)
      | error e => exact nofun

end Lines

/-- **The token stays out of the log.** Whatever Telegram answers and whatever an exception says, no
line that a call logs contains the bot token, as long as the chat id does not. -/
theorem token_not_logged {config : List (String × Json)} (hconfig : settings.config = some config)
    (hcredentials : resolveCredentials config settings.env = (bot, chat))
    (htoken : BotToken (kit.str bot)) (hchat : ¬ kit.str bot <:+: kit.str chat) :
    ∀ line ∈ (send kit settings net text).log, ¬ kit.str bot <:+: line.text := by
  have hfixed : ∀ (head tail : List Char), ':' ∉ head → ':' ∉ tail →
      ¬ kit.str bot <:+: head ++ ": ".toList ++ tail := fun head tail hhead htail =>
    htoken.not_infix_said (htoken.not_infix_of_colon hhead) (htoken.not_infix_of_colon htail)
  have hbool : ∀ b, ':' ∉ pyBool b := by decide
  obtain ⟨parts, dropped, hparts⟩ := buildParts_ok text (htmlEscape text)
  unfold send
  rw [hparts, hconfig]
  dsimp only
  rw [hcredentials]
  dsimp only
  split_ifs with hmissing hblank hdropped
  · refine List.forall_mem_singleton.mpr ?_
    have hshape : "Float skipped: missing Telegram credentials (bot=".toList =
        "Float skipped".toList ++ ": ".toList ++ "missing Telegram credentials (bot=".toList := by decide
    dsimp only
    rw [hshape, List.append_assoc, List.append_assoc, List.append_assoc, List.append_assoc]
    exact hfixed _ _ (by decide) (by simp [hbool])
  · refine List.forall_mem_singleton.mpr ?_
    have hshape : "Float skipped: empty or whitespace-only text".toList =
        "Float skipped".toList ++ ": ".toList ++ "empty or whitespace-only text".toList := by decide
    dsimp only
    rw [hshape]
    exact hfixed _ _ (by decide) (by decide)
  · have hbot : bot.truthy = true := by simp_all
    exact sendLoop_log htoken hbot hchat parts 1
  · have hbot : bot.truthy = true := by simp_all
    exact List.forall_mem_cons.mpr ⟨token_not_in_truncated htoken _ _,
      sendLoop_log htoken hbot hchat parts 1⟩

/-- A kit that can read no body. -/
def plainKit : Kit where
  str
    | .str s => s.toList
    | _ => []
  loads _ := .error (.valueError "Expecting value")

def someSettings : Settings where
  config := some [("bot_token", .str "12:ab"), ("chat_id", .str "7")]
  env _ := none

/-- Telegram cannot be reached, and the exception tells the URL. -/
def unreached : Telegram where
  opened := 0
  tried _ := 0
  reply _ := .raised "timed out: /bot12:ab/sendMessage".toList

theorem token_not_logged_unreached :
    (send plainKit someSettings unreached "hi".toList).log =
        [partFailure 1 1 "timed out: /bot<redacted>/sendMessage".toList "transport".toList] ∧
      ∀ line ∈ (send plainKit someSettings unreached "hi".toList).log,
        ¬ "12:ab".toList <:+: line.text := by
  have htoken : BotToken "12:ab".toList :=
    ⟨"12".toList, "ab".toList, by decide, by decide, List.all_eq_true.mp (by decide), by simp⟩
  have hchat : ¬ plainKit.str (.str "12:ab") <:+: plainKit.str (.str "7") := by decide
  have hcredentials : resolveCredentials [("bot_token", .str "12:ab"), ("chat_id", .str "7")]
      someSettings.env = (.str "12:ab", .str "7") := rfl
  exact ⟨by decide +kernel, token_not_logged rfl hcredentials htoken hchat⟩

end HermesMesh.Float
