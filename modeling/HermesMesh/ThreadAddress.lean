import HermesMesh.Lib.Runs
import HermesMesh.SendTokens
import HermesMesh.ThirdParties
import Mathlib.Logic.Function.Basic

/-!
# The thread that a message names

The adapter shows every message that is owed a reply with `thread=`, and the recipient copies that id
into the call that closes the thread. The id is the id of the message; the lease is keyed by the id
of the message that opened it. The two are one id for the first message of a thread, and no longer
for a message that went out under the lease of an earlier one. `run_faithful` says what is shown, over
whole runs, and `address_closes_thread` when closing under it works.
-/

namespace HermesMesh

open Lib OpenThreads

variable {env : Env} {mail : Mail} {draft : Draft} {args kwargs : List (String × Json)}
  {w w₀ w' : World} {resp : Response} {file : File}

/-! ## What a message can carry -/

/-- Tokens, as `validate_envelope_token` documents them, can stand in the header, and so can a fresh
uuid. -/
structure Env.TokensFit (env : Env) : Prop where
  valid : ∀ token, env.valid token = true → Fits token
  coerce : ∀ v token, env.coerce v = .ok token → Fits token
  uuid : Fits env.uuid

theorem Env.TokensFit.tokens (h : env.TokensFit) : env.Tokens Fits :=
  ⟨h.valid, h.coerce, h.uuid, h.uuid.1⟩

/-! ## The fleet -/

/-- A message on its way: what its send was given, and the text that goes out. -/
structure Letter where
  mail : Mail
  text : String

/-- The letter that a call writes, if it gets past the gate. -/
def written (env : Env) (args kwargs : List (String × Json)) (w : World) : Option Letter :=
  match prepare env args kwargs w with
  | (.ok mail, w) =>
    match gate env mail w, sessions env mail with
    | (.ok _, _), .ok (session, fromSession) => some ⟨mail, mail.padded session fromSession⟩
    | _, _ => none
  | _ => none

/-- A message as its recipient was shown it: the id after `thread=`, the whole text, and the leases
then joining the two agents. -/
structure Shown where
  mail : Mail
  thread : String
  display : String
  leases : List Lease

/-- The agents of one host. `caches` are their snapshots of the closed-thread registry; `letters` and
`shown` only record what happened. -/
structure Fleet where
  world : World
  caches : String → Threads.Cache
  letters : List Letter := []
  shown : List Shown := []

inductive Fleet.Event where
  /-- An agent calls `mesh_send`. -/
  | send (env : Env) (args kwargs : List (String × Json))
  /-- A letter that was posted, now or again from the outbox, comes to its recipient's adapter, which
  shows it. -/
  | arrive (letter : ℕ) (valid : TokenRule) (repr : String → String) (now : Time)
  /-- A gateway drops the leases that have lapsed. -/
  | expire (io : Io) (now : Time)

/-- What an agent sees. -/
def Fleet.view (s : Fleet) (agent : String) : World :=
  { s.world with closed := ⟨s.world.closed.file, s.caches agent⟩ }

/-- The text has been posted. -/
def World.posted (w : World) (text : String) : Bool := w.sent.any (·.text = text)

/-- What the adapter shows of a letter that it takes. -/
def Letter.shown (letter : Letter) (valid : TokenRule) (repr : String → String) (now : Time)
    (leases : OpenThreads.File) : Option Shown := do
  let parsed ← parseEnvelope valid repr letter.text
  let thread ← threadAddress parsed.reply [parsed.msgId]
  return {
    mail := letter.mail
    thread
    display := formatDisplayText parsed.sender parsed.bodyText parsed.action parsed.reply
      [parsed.msgId] parsed.ref
    leases := (leases.liveAt now).filter (·.joins letter.mail.self letter.mail.agent) }

def Fleet.step (s : Fleet) : Event → Option Fleet
  | .send env args kwargs =>
    let w := s.view env.selfName
    let after := (handleMeshSend env args kwargs w).2
    some { s with
      world := after
      caches := Function.update s.caches env.selfName after.closed.cache
      letters := (written env args kwargs w).toList ++ s.letters }
  | .arrive letter valid repr now => do
    let letter ← s.letters[letter]?
    let shown ← letter.shown valid repr now s.world.leases
    if s.world.posted letter.text then some { s with shown := shown :: s.shown } else none
  | .expire io now =>
    let leases := s.world.leases
    some { s with
      world := { s.world with
        leases := if lapsed io now leases then (expireLocked io now leases).2 else leases } }

/-- The tokens of the call fit. -/
def Fleet.Event.TokensFit : Fleet.Event → Prop
  | .send env _ _ => env.TokensFit
  | _ => True

/-! ## What is shown -/

/-- The text is the message, behind a header that reads back. -/
def Letter.Faithful (letter : Letter) : Prop :=
  ∃ session fromSession, (letter.mail.header session fromSession).Wellformed ∧
    letter.text = letter.mail.padded session fromSession

/-- The message is shown under its own id, and the display ends with it. -/
structure Shown.Faithful (entry : Shown) : Prop where
  thread : entry.thread = entry.mail.taskId
  display : ∃ front, entry.display = front ++ " · thread=" ++ entry.thread
  party : ∀ rec ∈ entry.leases, rec.joins entry.mail.self entry.mail.agent = true

structure Fleet.Faithful (s : Fleet) : Prop where
  letters : ∀ letter ∈ s.letters, letter.Faithful
  shown : ∀ entry ∈ s.shown, entry.Faithful

theorem written_faithful (hfit : env.TokensFit) {letter : Letter}
    (h : written env args kwargs w = some letter) : letter.Faithful := by
  unfold written at h
  generalize hprep : prepare env args kwargs w = p at h
  obtain ⟨stop | mail, w₀⟩ := p
  · cases h
  · dsimp only at h
    generalize hgate : gate env mail w₀ = g at h
    generalize hsessions : sessions env mail = r at h
    obtain ⟨refusal | held, w₁⟩ := g
    · cases h
    · obtain stop | ⟨session, fromSession⟩ := r
      · cases h
      · obtain rfl := Option.some.inj h
        refine ⟨session, fromSession, ?_, rfl⟩
        exact (hfit.tokens.prepare hprep).header (fun _ h _ => h) (hfit.tokens.sessions hsessions)

theorem shown_faithful {letter : Letter} (hletter : letter.Faithful) {valid : TokenRule}
    {repr : String → String} {now : Time} {entry : Shown}
    (h : letter.shown valid repr now file = some entry) : entry.Faithful := by
  obtain ⟨session, fromSession, hheader, htext⟩ := hletter
  unfold Letter.shown at h
  obtain ⟨parsed, hparse, h⟩ := Option.bind_eq_some_iff.mp h
  obtain ⟨thread, hthread, h⟩ := Option.bind_eq_some_iff.mp h
  obtain rfl := Option.some.inj h
  rw [htext] at hparse
  have hid : parsed.msgId = letter.mail.taskId := (parseEnvelope_header hheader hparse).1
  refine ⟨?_, formatDisplayText_thread hthread .., fun rec hrec => (List.mem_filter.mp hrec).2⟩
  rw [← hid]
  exact (threadAddress_eq hthread).2

/-- **One step.** What is written and what is shown stays faithful. -/
theorem step_faithful {s t : Fleet} {e : Fleet.Event} (h : s.Faithful) (hfit : e.TokensFit)
    (hstep : s.step e = some t) : t.Faithful := by
  cases e with
  | send env args kwargs =>
    obtain rfl := Option.some.inj hstep
    refine ⟨fun letter hmem => ?_, h.shown⟩
    rcases List.mem_append.mp hmem with hnew | hold
    · exact written_faithful hfit (Option.mem_toList.mp hnew)
    · exact h.letters letter hold
  | arrive letter valid repr now =>
    obtain ⟨letter, hletter, hstep⟩ := Option.bind_eq_some_iff.mp hstep
    obtain ⟨entry, hentry, hstep⟩ := Option.bind_eq_some_iff.mp hstep
    split_ifs at hstep
    obtain rfl := Option.some.inj hstep
    refine ⟨h.letters, List.forall_mem_cons.mpr ⟨?_, h.shown⟩⟩
    exact shown_faithful (h.letters letter (List.mem_of_getElem? hletter)) hentry
  | expire io now =>
    obtain rfl := Option.some.inj hstep
    exact ⟨h.letters, h.shown⟩

/-- Nothing has been sent or shown yet. -/
structure Fleet.Start (s : Fleet) : Prop where
  letters : s.letters = []
  shown : s.shown = []

/-- **Every run.** What is shown is shown under the id of its message. -/
theorem run_faithful {s t : Fleet} {es : List Fleet.Event} (h0 : s.Start)
    (hrun : Run Fleet.step (fun _ e => e.TokensFit) s es t) : t.Faithful := by
  refine hrun.invariant (fun _ _ _ h hfit hstep => step_faithful h hfit hstep) ⟨?_, ?_⟩
  · rw [h0.letters]
    exact List.forall_mem_nil _
  · rw [h0.shown]
    exact List.forall_mem_nil _

/-! ## Closing -/

/-- `lease_released["reason"]`. -/
def Response.releaseReason (r : Response) : Option String :=
  match r.lookup "lease_released" with
  | some (.obj fields) =>
    match Json.get "reason" fields with
    | .str reason => some reason
    | _ => none
  | _ => none

/-- A release takes out a lease of the agent, and says so, exactly where it names the lease and can
use the registry. -/
theorem releaseIfPartyStatus_takes {explicitlyConfigured : Bool} {io : Io} {thread who : String}
    {rec : Lease} (hrec : rec ∈ file.entries) (hparty : rec.hasParty who = true) :
    rec ∉ (releaseIfPartyStatus explicitlyConfigured io (.str thread) who file).2.entries ∧
        (releaseIfPartyStatus explicitlyConfigured io (.str thread) who file).1.reason = .released ↔
      rec.threadId = thread ∧ io.statOk = true ∧ io.healthy = true := by
  have hrel : releasable (.str thread) who rec = true ↔ rec.threadId = thread := by
    unfold releasable
    rw [hparty, Bool.and_true, Json.isStr_iff, Json.str.injEq, eq_comm]
  rcases releaseIfPartyStatus_cases explicitlyConfigured io (.str thread) who file with
    ⟨hstat, hhealthy, heq⟩ | ⟨hnone, reason, hreason, heq⟩ <;> rw [heq]
  · have hkept : rec ∈ file.entries.filter (fun r => !releasable (.str thread) who r) ↔
        rec.threadId ≠ thread := by
      rw [List.mem_filter, Bool.not_eq_true', ← Bool.not_eq_true, hrel]
      exact ⟨fun h => h.2, fun h => ⟨hrec, h⟩⟩
    exact ⟨fun h => ⟨not_not.mp fun hne => h.1 (hkept.mpr hne), hstat, hhealthy⟩,
      fun h => ⟨fun hmem => hkept.mp hmem h.1, rfl⟩⟩
  · refine ⟨fun h => absurd h.2 hreason, fun ⟨hid, hstat, hhealthy⟩ => ?_⟩
    have hfalse := hnone hstat hhealthy rec hrec
    rw [hrel.mpr hid] at hfalse
    cases hfalse

/-- A completed call has been posted, and the bookkeeping has run. -/
theorem forward_completed {held : Bool} (h : forward env mail held w = (.ok resp, w'))
    (hstate : resp.state = some "completed") :
    ∃ session fromSession deliveryId w₁, sessions env mail = .ok (session, fromSession) ∧
      w₁.leases = w.leases ∧ w₁.posted (mail.padded session fromSession) = true ∧
      delivered env mail (mail.padded session fromSession) deliveryId w₁ = (.ok resp, w') := by
  have hfst : (forward env mail held w).1 = .ok resp := by rw [h]
  by_cases ha : Attempted env mail
  · obtain ⟨session, fromSession, url, hsessions, -, heq⟩ := forward_attempted (w := w) held ha
    rw [heq] at h hfst
    rcases dispatch_cases env mail held (mail.padded session fromSession) url w with
      ⟨e, w₁, -, hres⟩ | ⟨w₁, hleases, ⟨e, -, hres⟩ | ⟨d, -, hsent, ⟨-, hres⟩ | ⟨-, hres | hres⟩⟩⟩
    · rw [hres] at hfst
      cases hfst
    · rw [hres] at hfst
      cases hfst
    · refine ⟨session, fromSession, d.deliveryId, w₁, hsessions, hleases, ?_, by rw [← hres, h]⟩
      exact List.any_eq_true.mpr ⟨_, List.mem_of_mem_head? hsent, decide_eq_true rfl⟩
    · rw [hres] at hfst
      rw [queued_state hfst] at hstate
      exact absurd (Option.some.inj hstate) (by decide)
    · rw [hres] at hfst
      rw [failed_state hfst] at hstate
      cases hstate
  · have hnone := ((forward_unattempted held w ha).2 resp hfst).2
    rw [hstate] at hnone
    cases hnone

theorem handleMeshSend_end (hprep : prepare env args kwargs w = (.ok mail, w₀))
    (hreply : mail.reply = .end_) :
    handleMeshSend env args kwargs w = forward env mail false w₀ := by
  unfold handleMeshSend gate
  simp only [hprep, hreply]

/-- A delivered terminator that names a thread releases it, and reports how that went. -/
theorem delivered_close {thread : String} {deliveryId : Json} {padded : String}
    (hreply : mail.reply = .end_) (hthread : mail.thread = some thread)
    (h : delivered env mail padded deliveryId w = (.ok resp, w')) :
    let close := releaseIfPartyStatus env.explicitlyConfigured env.threadProbe (.str thread)
      mail.self w.leases
    w'.leases = close.2 ∧ resp.releaseReason = some close.1.reason.text := by
  have hbook : bookkeeping env mail deliveryId w.leases =
      (some (releaseIfPartyStatus env.explicitlyConfigured env.threadProbe (.str thread) mail.self
        w.leases).1, (releaseIfPartyStatus env.explicitlyConfigured env.threadProbe (.str thread)
        mail.self w.leases).2) := by
    unfold bookkeeping terminate
    rw [hreply, hthread]
  obtain ⟨-, h⟩ := delivered_ok h
  have hleases := (completed_spec env mail deliveryId
    { w with floats := (padded, mail.self) :: w.floats }).2
  rw [h, hbook] at hleases
  refine ⟨hleases, ?_⟩
  unfold completed at h
  dsimp only at h
  rw [hbook] at h
  obtain rfl := Except.ok.inj (Prod.mk.inj h).1
  unfold releaseField
  rw [hreply]
  rfl

theorem released_text {reason : Reason} : reason.text = "released" ↔ reason = .released := by
  cases reason <;> simp [OpenThreads.Reason.text]

/-- The registry still holds the lease: `touch` and `expire` keep these fields. -/
def SameLease (rec rec' : Lease) : Prop :=
  rec'.threadId = rec.threadId ∧ rec'.link = rec.link ∧ rec'.openedAt = rec.openedAt

/-- **When a displayed id closes the thread.** In every run, for every message as it was shown and
every lease then joining its two agents: a delivered terminator by the recipient that names the
displayed id, while the registry still holds the lease, releases it and reports `released` exactly
where the lease is keyed by the id of that message, and the registry can be used. -/
theorem address_closes_thread {s t : Fleet} {es : List Fleet.Event} (h0 : s.Start)
    (hrun : Run Fleet.step (fun _ e => e.TokensFit) s es t) {entry : Shown}
    (hentry : entry ∈ t.shown) {rec rec' : Lease} (hrec : rec ∈ entry.leases)
    (hsame : SameLease rec rec') (hrec' : rec' ∈ t.world.leases.entries)
    (hprep : prepare env args kwargs (t.view env.selfName) = (.ok mail, w₀))
    (hself : mail.self = entry.mail.agent) (hreply : mail.reply = .end_)
    (hthread : mail.thread = some entry.thread)
    (hsend : handleMeshSend env args kwargs (t.view env.selfName) = (.ok resp, w'))
    (hstate : resp.state = some "completed") :
    (∃ front, entry.display = front ++ " · thread=" ++ entry.thread) ∧
      (rec' ∉ w'.leases.entries ∧ resp.releaseReason = some "released" ↔
        rec.threadId = entry.mail.taskId ∧ env.threadProbe.statOk = true ∧
          env.threadProbe.healthy = true) := by
  have hfaithful := (run_faithful h0 hrun).shown entry hentry
  rw [handleMeshSend_end hprep hreply] at hsend
  obtain ⟨session, fromSession, deliveryId, w₁, -, hleases, -, hdel⟩ :=
    forward_completed hsend hstate
  obtain ⟨hafter, hreason⟩ := delivered_close hreply hthread hdel
  have hbefore : w₁.leases = t.world.leases := hleases.trans (prepared_leases hprep :)
  have hparty : rec'.hasParty mail.self = true := by
    have hjoins := hfaithful.party rec hrec
    rw [joins_iff_samePair, ← hsame.2.1, ← joins_iff_samePair] at hjoins
    rw [hself]
    exact (hasParty_of_joins hjoins).2
  refine ⟨hfaithful.display, ?_⟩
  rw [hafter, hreason, Option.some.injEq, released_text, ← hfaithful.thread, ← hsame.1, hbefore]
  exact releaseIfPartyStatus_takes hrec' hparty

/-- Two agents, and nothing said yet. -/
def quietFleet : Fleet where
  world := emptyWorld
  caches _ := {}

/-- A peer that accepts the message under its id. -/
def accepting (msgId : String) : Net :=
  { downPeer with
    dial := fun _ _ =>
      .answered 202 (some (.obj [("status", .str "accepted"), ("delivery_id", .str msgId)])) }

/-- An agent who sends one message. -/
def sending (agent msgId : String) (now : Time) : Env :=
  { zeroDown with selfName := agent, uuid := msgId, claim := { now }, net := accepting msgId }

/-- Zero asks vera, and asks again before she answers. -/
def askedTwice : List Fleet.Event :=
  [.send (sending "zero" "m1" 1000) question [], .arrive 0 nameToken id 1001,
    .send (sending "zero" "m2" 1010) question [], .arrive 0 nameToken id 1011]

/-- Vera closes the thread that she was shown. -/
def closing (thread : String) : List (String × Json) :=
  [("message", .str "done"), ("agent", .str "zero"), ("action", .str "info"),
    ("reply", .str "end"), ("thread", .str thread)]

theorem sending_fits {agent msgId : String} {now : Time} (h : Fits msgId) :
    (sending agent msgId now).TokensFit where
  valid token htoken := by
    have htoken : nameToken token = true := htoken
    rw [nameToken, TokenRule.of_apply, Bool.and_eq_true, decide_eq_true_iff, List.all_eq_true] at htoken
    refine ⟨htoken.1, fun hmem => ?_⟩
    exact absurd (htoken.2 _ hmem) (by decide)
  coerce v token htoken := by cases htoken
  uuid := h

theorem askedTwice_fits : ∀ e ∈ askedTwice, e.TokensFit :=
  List.forall_mem_cons.mpr ⟨sending_fits (by decide), List.forall_mem_cons.mpr ⟨trivial,
    List.forall_mem_cons.mpr ⟨sending_fits (by decide), List.forall_mem_singleton.mpr trivial⟩⟩⟩

/-- One message as vera was shown it. -/
structure ShownReport where
  sender : String
  recipient : String
  reply : Reply
  taskId : String
  thread : String
  leases : List Lease
  deriving DecidableEq

def Shown.report (entry : Shown) : ShownReport :=
  ⟨entry.mail.self, entry.mail.agent, entry.mail.reply, entry.mail.taskId, entry.thread,
    entry.leases⟩

/-- Her close: who sends what, what is reported, and the registry after it. -/
structure CloseReport where
  mail : Option (String × String × Reply × Option String)
  answer : Option (Option String × Option String)
  leases : OpenThreads.File
  deriving DecidableEq

def closeReport (thread : String) (t : Fleet) : CloseReport :=
  let env := sending "vera" "c1" 1020
  let call := handleMeshSend env (closing thread) [] (t.view "vera")
  ⟨(prepare env (closing thread) [] (t.view "vera")).1.toOption.map fun m =>
      (m.self, m.agent, m.reply, m.thread),
    call.1.toOption.map fun r : Response => (r.state, r.releaseReason), call.2.leases⟩

theorem exists_of_closeReport {thread self agent : String} {t : Fleet} {reason : Option String}
    (h : closeReport thread t =
      ⟨some (self, agent, .end_, some thread), some (some "completed", reason), file⟩) :
    ∃ mail w₀ resp w',
      prepare (sending "vera" "c1" 1020) (closing thread) [] (t.view "vera") = (.ok mail, w₀) ∧
      mail.self = self ∧ mail.agent = agent ∧ mail.reply = .end_ ∧ mail.thread = some thread ∧
      handleMeshSend (sending "vera" "c1" 1020) (closing thread) [] (t.view "vera") =
        (.ok resp, w') ∧
      resp.state = some "completed" ∧ resp.releaseReason = reason ∧ w'.leases = file := by
  unfold closeReport at h
  dsimp only at h
  generalize prepare (sending "vera" "c1" 1020) (closing thread) [] (t.view "vera") = p at h ⊢
  generalize handleMeshSend (sending "vera" "c1" 1020) (closing thread) [] (t.view "vera") = c
    at h ⊢
  obtain ⟨hmail, hresp, hfile⟩ := CloseReport.mk.inj h
  obtain ⟨stop | mail, w₀⟩ := p
  · cases hmail
  · obtain ⟨e | resp, w'⟩ := c
    · cases hresp
    · have hmail := Option.some.inj hmail
      have hresp := Option.some.inj hresp
      simp only [Prod.mk.injEq] at hmail hresp
      exact ⟨mail, w₀, resp, w', rfl, hmail.1, hmail.2.1, hmail.2.2.1, hmail.2.2.2, rfl, hresp.1,
        hresp.2, hfile⟩

/-- The lease of zero's first message. -/
def asked : Lease := newLease 1000 "m1" "zero" "vera" 30

/-- What the run comes to. -/
theorem askedTwice_ends : ∃ t, Run Fleet.step (fun _ e => e.TokensFit) quietFleet askedTwice t ∧
    t.shown.map Shown.report = [⟨"zero", "vera", .yes, "m2", "m2", [asked]⟩,
      ⟨"zero", "vera", .yes, "m1", "m1", [asked]⟩] ∧
    t.world.leases = some [asked] ∧
    closeReport "m1" t = ⟨some ("vera", "zero", .end_, some "m1"),
      some (some "completed", some "released"), some []⟩ ∧
    closeReport "m2" t = ⟨some ("vera", "zero", .end_, some "m2"),
      some (some "completed", some "no-such-lease"), some [asked]⟩ := by
  have hends : (exec Fleet.step quietFleet askedTwice).map (fun t =>
      ((t.shown.map Shown.report, t.world.leases), closeReport "m1" t, closeReport "m2" t)) =
      some (([⟨"zero", "vera", .yes, "m2", "m2", [asked]⟩,
          ⟨"zero", "vera", .yes, "m1", "m1", [asked]⟩], some [asked]),
        ⟨some ("vera", "zero", .end_, some "m1"), some (some "completed", some "released"),
          some []⟩,
        ⟨some ("vera", "zero", .end_, some "m2"), some (some "completed", some "no-such-lease"),
          some [asked]⟩) := by
    decide +kernel
  obtain ⟨t, ht, hends⟩ := Option.map_eq_some_iff.mp hends
  simp only [Prod.mk.injEq] at hends
  obtain ⟨⟨hshown, hleases⟩, hfirst, hsecond⟩ := hends
  exact ⟨t, (run_of_exec ht).of_forall askedTwice_fits, hshown, hleases, hfirst, hsecond⟩

theorem address_closes_thread_first :
    ∃ t entry mail w₀ resp w', Run Fleet.step (fun _ e => e.TokensFit) quietFleet askedTwice t ∧
      entry ∈ t.shown ∧
      prepare (sending "vera" "c1" 1020) (closing "m1") [] (t.view "vera") = (.ok mail, w₀) ∧
      handleMeshSend (sending "vera" "c1" 1020) (closing "m1") [] (t.view "vera") =
        (.ok resp, w') ∧
      (∃ front, entry.display = front ++ " · thread=" ++ entry.thread) ∧
      (asked ∉ w'.leases.entries ∧ resp.releaseReason = some "released" ↔
        asked.threadId = entry.mail.taskId ∧
          (sending "vera" "c1" 1020).threadProbe.statOk = true ∧
          (sending "vera" "c1" 1020).threadProbe.healthy = true) := by
  obtain ⟨t, hrun, hshown, hleases, hclose, -⟩ := askedTwice_ends
  obtain ⟨mail, w₀, resp, w', hprep, hself, -, hreply, hthread, hsend, hstate, -⟩ :=
    exists_of_closeReport hclose
  have hmem : (⟨"zero", "vera", .yes, "m1", "m1", [asked]⟩ : ShownReport) ∈
      t.shown.map Shown.report := by
    rw [hshown]
    exact List.mem_cons_of_mem _ (List.mem_singleton_self _)
  obtain ⟨entry, hentry, hreport⟩ := List.mem_map.mp hmem
  obtain ⟨-, hrecipient, -, -, hid, hrec⟩ := ShownReport.mk.inj hreport
  have hjoins : asked ∈ entry.leases := by
    rw [hrec]
    exact List.mem_singleton_self _
  have hheld : asked ∈ t.world.leases.entries := by
    rw [hleases]
    exact List.mem_singleton_self _
  exact ⟨t, entry, mail, w₀, resp, w', hrun, hentry, hprep, hsend,
    address_closes_thread ⟨rfl, rfl⟩ hrun hentry hjoins ⟨rfl, rfl, rfl⟩ hheld hprep
      (hself.trans hrecipient.symm) hreply (hthread.trans (congrArg some hid.symm)) hsend hstate⟩

/-- Vera closes the thread under the id of the second message: the lease is keyed by the first one,
and stays. -/
theorem address_misses_lease :
    ∃ t entry mail w₀ resp w', Run Fleet.step (fun _ e => e.TokensFit) quietFleet askedTwice t ∧
      entry ∈ t.shown ∧ entry.mail.reply = .yes ∧ asked ∈ entry.leases ∧
      asked ∈ t.world.leases.liveAt 1020 ∧
      prepare (sending "vera" "c1" 1020) (closing "m2") [] (t.view "vera") = (.ok mail, w₀) ∧
      mail.self = entry.mail.agent ∧ mail.agent = entry.mail.self ∧ mail.reply = .end_ ∧
      mail.thread = some entry.thread ∧
      handleMeshSend (sending "vera" "c1" 1020) (closing "m2") [] (t.view "vera") =
        (.ok resp, w') ∧
      resp.state = some "completed" ∧
      ¬ (asked ∉ w'.leases.entries ∧ resp.releaseReason = some "released") := by
  obtain ⟨t, hrun, hshown, hleases, -, hclose⟩ := askedTwice_ends
  obtain ⟨mail, w₀, resp, w', hprep, hself, hagent, hreply, hthread, hsend, hstate, hreason, -⟩ :=
    exists_of_closeReport hclose
  have hmem : (⟨"zero", "vera", .yes, "m2", "m2", [asked]⟩ : ShownReport) ∈
      t.shown.map Shown.report := by
    rw [hshown]
    exact List.mem_cons_self
  obtain ⟨entry, hentry, hreport⟩ := List.mem_map.mp hmem
  obtain ⟨hsender, hrecipient, hyes, -, hid, hrec⟩ := ShownReport.mk.inj hreport
  refine ⟨t, entry, mail, w₀, resp, w', hrun, hentry, hyes, ?_, ?_, hprep,
    hself.trans hrecipient.symm, hagent.trans hsender.symm, hreply,
    hthread.trans (congrArg some hid.symm), hsend, hstate, fun h => ?_⟩
  · rw [hrec]
    exact List.mem_singleton_self _
  · rw [hleases]
    exact List.mem_filter.mpr ⟨List.mem_singleton_self _, by decide +kernel⟩
  · rw [hreason] at h
    exact absurd (Option.some.inj h.2) (by decide)

end HermesMesh
