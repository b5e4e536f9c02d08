import HermesMesh.DeliveryCalls
import HermesMesh.DeliveryCounts
import HermesMesh.FailedSends
import HermesMesh.LogIntegrity

/-!
# The pending close of a terminator

A send with `reply=end` records its close as pending before the delivery and settles it after: the
delivery confirms it, a failed one takes it back. `_attempt_item` of the outbox does the same around
a `try`, "a raised delivery must still reopen the thread". `handle_mesh_send` has no such `try`: what
the classification of the target URL raises, the delivery itself or the float of a delivered message
leaves the call with the close still pending. `pending_close_settled_iff`: on every other exit the
close is settled.
-/

namespace HermesMesh

open Threads

variable {env : Env} {mail : Mail} {args kwargs : List (String × Json)} {w w₁ : World} {held : Bool}
  {anchor closedBy padded url : String} {entries : List Json} {v : View} {valid : TokenRule}
  {io : Io} {stamp closedAt : Time}

/-! ## What a `record` that returns has written -/

/-- A `record` that returns, for an anchor that is not in the log, has appended its entry to a list
of dicts. -/
theorem record_appends {pending : Bool}
    (hok : (Threads.record valid io stamp closedAt anchor closedBy pending v).1 = .ok ())
    (hopen : v.file.entries.any (ofAnchor anchor) = false) :
    valid anchor = true ∧ ∃ before, Dicts before ∧ before.any (ofAnchor anchor) = false ∧
      (Threads.record valid io stamp closedAt anchor closedBy pending v).2.file =
        ⟨.entries (before ++ [newEntry closedAt anchor closedBy pending]), some stamp⟩ := by
  have hread : (readEntriesStrict io v.file).1.any (ofAnchor anchor) = false := by
    obtain h | h := readEntriesStrict_or io v.file
    · rw [h]
      exact hopen
    · rw [h]
      rfl
  obtain ⟨happends, -, hfile⟩ | ⟨-, -, hfound⟩ :=
    record_cases valid io stamp closedAt anchor closedBy pending v
  · exact ⟨happends.token, _, (findAnchor_none happends.absent).1, hread, hfile⟩
  · rw [findAnchor_some (hfound hok)] at hread
    cases hread

/-! ## The close afterwards -/

/-- The log has settled the anchor: no entry of it is pending, and it has one exactly where the
message was delivered. -/
structure Settled (anchor : String) (delivered : Prop) (entries : List Json) : Prop where
  unpending : entries.any (pendingOf anchor) = false
  closed : delivered → status anchor entries = .closed
  absent : ¬ delivered → status anchor entries = .open_

theorem unpending_of_open (h : status anchor entries = .open_) :
    entries.any (pendingOf anchor) = false := by
  rw [Bool.eq_false_iff]
  intro hp
  refine status_ne_open.mpr ?_ h
  obtain ⟨entry, hmem, hpend⟩ := List.any_eq_true.mp hp
  rw [pendingOf, Bool.and_eq_true] at hpend
  exact List.any_eq_true.mpr ⟨entry, hmem, hpend.1⟩

theorem settled_open {delivered : Prop} (hno : ¬ delivered) (h : status anchor entries = .open_) :
    Settled anchor delivered entries :=
  ⟨unpending_of_open h, fun hd => absurd hd hno, fun _ => h⟩

/-- The log after the pending close has been recorded. -/
structure Pends (anchor : String) (v : View) : Prop where
  dicts : Dicts v.file.entries
  pending : status anchor v.file.entries = .pending

theorem Pends.unsettled {delivered : Prop} (h : Pends anchor v) :
    ¬ Settled anchor delivered v.file.entries := by
  intro hs
  have hnone := hs.unpending
  rw [pendingOf_of_status h.pending] at hnone
  cases hnone

theorem record_pends
    (hok : (Threads.record valid io stamp closedAt anchor closedBy true v).1 = .ok ())
    (hopen : status anchor v.file.entries = .open_) :
    valid anchor = true ∧
      Pends anchor (Threads.record valid io stamp closedAt anchor closedBy true v).2 := by
  have hnone : v.file.entries.any (ofAnchor anchor) = false := by
    rw [status_any, hopen]
    rfl
  obtain ⟨ha, before, hdicts, hbefore, hfile⟩ := record_appends hok hnone
  have hstart : status anchor before = .open_ := by
    by_contra hne
    rw [status_ne_open.mp hne] at hbefore
    cases hbefore
  refine ⟨ha, ?_, ?_⟩
  · rw [hfile]
    exact hdicts.append_newEntry closedAt true
  · rw [hfile]
    exact (status_append closedAt true hstart).trans (if_pos rfl)

/-- Withdrawing a pending close opens the thread again. -/
theorem Pends.withdraw (h : Pends anchor v) (ha : valid anchor = true) (hio : io.healthy = true) :
    status anchor (Threads.withdraw valid io stamp anchor v).file.entries = .open_ := by
  unfold Threads.withdraw
  rw [rewrite_io hio, rewrite_eq ha h.dicts.rewriteEntries_drop,
    if_pos (pendingOf_of_status h.pending), put_entries, status_drop, if_pos ⟨rfl, h.pending⟩]

theorem settle_unpending :
    (entries.map (settle anchor)).any (pendingOf anchor) = false := by
  rw [List.any_map, List.any_eq_false]
  intro entry _
  simp only [Function.comp_apply, pendingOf, ofAnchor_settle, isPending_settle]
  cases ofAnchor anchor entry <;> simp

/-- Promoting a pending close confirms it. -/
theorem Pends.promote (h : Pends anchor v) (ha : valid anchor = true) (hio : io.healthy = true)
    {delivered : Prop} (hd : delivered) :
    Settled anchor delivered (Threads.promote valid io stamp anchor v).file.entries := by
  unfold Threads.promote
  rw [rewrite_io hio, rewrite_eq ha h.dicts.rewriteEntries_promote,
    if_pos (pendingOf_of_status h.pending), put_entries]
  refine ⟨settle_unpending, fun _ => ?_, fun hno => absurd hd hno⟩
  rw [status_settle, if_pos ⟨rfl, h.pending⟩]

/-! ## What leaves the log alone -/

theorem prepare_file (env : Env) (args kwargs : List (String × Json)) (w : World) :
    (prepare env args kwargs w).2.closed.file = w.closed.file := by
  unfold prepare
  cases readArgs env args kwargs with
  | error stop => rfl
  | ok draft =>
    dsimp only
    split_ifs <;> exact isClosed_file

theorem notifyFailure_closed (env : Env) (mail : Mail) (reason : String) (w : World) :
    (notifyFailure env mail reason w).2.closed = w.closed :=
  sendDeliveryError_closed

theorem unresolved_closed (env : Env) (mail : Mail) (text : String) (w : World) :
    (unresolved env mail text w).2.closed = w.closed := by
  have hclosed := notifyFailure_closed env mail text w
  unfold unresolved
  generalize notifyFailure env mail text w = n at hclosed
  obtain ⟨e | ⟨⟩, w'⟩ := n <;> exact hclosed

theorem failed_closed (env : Env) (mail : Mail) (held : Bool) (reason : Option String) (w : World) :
    (failed env mail held reason w).2.closed = w.closed := by
  have hclosed := notifyFailure_closed env mail (reason.getD "") w
  unfold failed
  generalize notifyFailure env mail (reason.getD "") w = n at hclosed
  obtain ⟨e | ⟨⟩, w'⟩ := n <;> exact hclosed

theorem forward_unattempted_closed (held : Bool) (w : World) (h : ¬ Attempted env mail) :
    (forward env mail held w).2.closed = w.closed := by
  rcases forward_stops held w h with ⟨stop, -, heq⟩ | ⟨text, heq⟩ <;> rw [heq]
  exact unresolved_closed env mail text w

/-! ## The call -/

/-- The response reports a delivery. -/
def Reports (result : Except PyError Response) : Prop :=
  ∃ r : Response, result = .ok r ∧ r.state = some "completed"

/-- Something raises between the pending close and its settlement: the classification of the target
URL, the delivery, or the float of a message that is delivered. -/
def DeliveryRaises (env : Env) (mail : Mail) : Prop :=
  ∃ url, env.target mail.agent = .ok (.ok url) ∧
    ((∃ e, env.loopback url = .error e) ∨
      ∃ allow, env.loopback url = .ok allow ∧
        (CallRaises env.budget env.net allow url env.signature ∨
          env.floatFault ≠ none ∧
            ∃ ips, resolveTargetUrl url env.net.host env.net.resolved allow = .ok ips ∧
              ∃ deliveryId, deliveryId.isSome = true ∧ Lands env.budget env.net allow ips deliveryId))

/-- The registry writes that the call makes succeed. -/
structure RegistryWrites (env : Env) (mail : Mail) (v : View) : Prop where
  record : Attempted env mail → (Threads.record env.valid env.record.io env.record.stamp
    env.record.closedAt mail.taskId mail.self true v).1 = .ok ()
  withdraw : env.withdraw.io.healthy = true
  promote : env.promote.io.healthy = true

/-- Where the classification or the delivery raises. -/
theorem post_raises_iff :
    (∃ e, env.post env.net env.signature url = .error e) ↔
      (∃ e, env.loopback url = .error e) ∨ ∃ allow, env.loopback url = .ok allow ∧
        CallRaises env.budget env.net allow url env.signature := by
  unfold Env.post
  cases env.loopback url with
  | error e => exact iff_of_true ⟨e, rfl⟩ (.inl ⟨e, rfl⟩)
  | ok allow =>
    apply deliverWebhook_raises_iff.trans
    simp only [reduceCtorEq, exists_false, false_or, Except.ok.injEq, exists_eq_left']

/-- Where a delivery that returns is one of a message that landed. -/
theorem post_lands_iff {d : Delivery} {allow : Bool}
    (hpost : env.post env.net env.signature url = .ok d) (hallow : env.loopback url = .ok allow) :
    d.deliveryId.isSome = true ↔
      ∃ ips, resolveTargetUrl url env.net.host env.net.resolved allow = .ok ips ∧
        ∃ deliveryId, deliveryId.isSome = true ∧ Lands env.budget env.net allow ips deliveryId := by
  unfold Env.post at hpost
  rw [hallow] at hpost
  exact deliveryId_isSome_iff hpost

/-- What raises is the delivery, or the float after it. -/
theorem deliveryRaises_iff (hurl : env.target mail.agent = .ok (.ok url)) :
    DeliveryRaises env mail ↔ (∃ e, env.post env.net env.signature url = .error e) ∨
      ∃ d, env.post env.net env.signature url = .ok d ∧ d.deliveryId.isSome = true ∧
        env.floatFault ≠ none := by
  have hthis : DeliveryRaises env mail ↔ _ := exists_congr fun url' => and_congr_left' hurl.congr_left
  rw [hthis]
  simp only [Except.ok.injEq, exists_eq_left']
  cases hpost : env.post env.net env.signature url with
  | error e =>
    refine iff_of_true ?_ (.inl ⟨e, rfl⟩)
    rcases post_raises_iff.mp ⟨e, hpost⟩ with hraise | ⟨allow, hallow, hraise⟩
    · exact .inl hraise
    · exact .inr ⟨allow, hallow, .inl hraise⟩
  | ok d =>
    have hno : ¬ ∃ e, env.post env.net env.signature url = .error e := by
      rintro ⟨e, he⟩
      cases hpost.symm.trans he
    rw [post_raises_iff, not_or] at hno
    constructor
    · rintro (hraise | ⟨allow, hallow, hraise | ⟨hfloat, hlands⟩⟩)
      · exact absurd hraise hno.1
      · exact absurd ⟨allow, hallow, hraise⟩ hno.2
      · exact .inr ⟨d, rfl, (post_lands_iff hpost hallow).mpr hlands, hfloat⟩
    · rintro (⟨e, he⟩ | ⟨d', hd, hid, hfloat⟩)
      · cases he
      · obtain rfl := Except.ok.inj hd
        cases hallow : env.loopback url with
        | error e => exact .inl ⟨e, rfl⟩
        | ok allow => exact .inr ⟨allow, rfl, .inr ⟨hfloat, (post_lands_iff hpost hallow).mp hid⟩⟩

/-- A pending close of an open thread is recorded. -/
theorem recordPending_pends (hreply : mail.reply = .end_)
    (hok : (Threads.record env.valid env.record.io env.record.stamp env.record.closedAt mail.taskId
      mail.self true w.closed).1 = .ok ())
    (hopen : status mail.taskId w.closed.file.entries = .open_) :
    ∃ v, recordPending env mail w = (.ok (), { w with closed := v }) ∧
      env.valid mail.taskId = true ∧ Pends mail.taskId v := by
  obtain ⟨hvalid, hpends⟩ := record_pends hok hopen
  refine ⟨_, ?_, hvalid, hpends⟩
  unfold recordPending
  rw [hreply]
  dsimp only
  rw [hok]

theorem Pends.withdrawPending (h : Pends mail.taskId w.closed) (hreply : mail.reply = .end_)
    (hvalid : env.valid mail.taskId = true) (hio : env.withdraw.io.healthy = true) :
    status mail.taskId (HermesMesh.withdrawPending env mail w).closed.file.entries = .open_ := by
  unfold HermesMesh.withdrawPending
  rw [hreply]
  exact h.withdraw hvalid hio

/-- What is reported as completed is closed. -/
theorem completed_settled {deliveryId : Json} (h : Pends mail.taskId w.closed)
    (hreply : mail.reply = .end_) (hvalid : env.valid mail.taskId = true)
    (hio : env.promote.io.healthy = true) :
    Settled mail.taskId (Reports (completed env mail deliveryId w).1)
      (completed env mail deliveryId w).2.closed.file.entries := by
  obtain ⟨r, hr, -, hstate⟩ := (completed_spec env mail deliveryId w).1
  have hafter : (completed env mail deliveryId w).2.closed =
      Threads.promote env.valid env.promote.io env.promote.stamp mail.taskId w.closed := by
    unfold completed promotePending
    rw [hreply]
    rfl
  rw [hafter]
  exact h.promote hvalid hio ⟨r, hr, hstate⟩

/-- **From the pending close on.** The close is settled unless something raises before it. -/
theorem dispatch_settled (hreply : mail.reply = .end_) (hwrites : RegistryWrites env mail w.closed)
    (hatt : Attempted env mail) (hurl : env.target mail.agent = .ok (.ok url))
    (hopen : status mail.taskId w.closed.file.entries = .open_) :
    Settled mail.taskId (Reports (dispatch env mail held padded url w).1)
        (dispatch env mail held padded url w).2.closed.file.entries ↔
      ¬ DeliveryRaises env mail := by
  obtain ⟨v, hrec, hvalid, hpends⟩ := recordPending_pends hreply (hwrites.record hatt) hopen
  rw [deliveryRaises_iff hurl]
  unfold dispatch
  rw [hrec]
  dsimp only
  have hfst := deliver_fst env env.net env.signature (env.wire mail padded url) { w with closed := v }
  have hclosed := deliver_closed env env.net env.signature (env.wire mail padded url)
    { w with closed := v }
  generalize deliver env env.net env.signature (env.wire mail padded url) { w with closed := v } = p
    at hfst hclosed
  obtain ⟨outcome, w₂⟩ := p
  obtain rfl : w₂.closed = v := hclosed
  cases outcome with
  | error e =>
    -- the exception leaves the close pending
    exact iff_of_false hpends.unsettled fun h => h (.inl ⟨e, hfst.symm⟩)
  | ok d =>
    have hraises : ((∃ e, env.post env.net env.signature url = .error e) ∨
        ∃ d', env.post env.net env.signature url = .ok d' ∧ d'.deliveryId.isSome = true ∧
          env.floatFault ≠ none) ↔ d.deliveryId.isSome = true ∧ env.floatFault ≠ none := by
      rw [← show _ = env.post env.net env.signature url from hfst]
      simp
    rw [hraises]
    dsimp only
    split_ifs with hid hout
    · cases hfault : env.floatFault with
      | some e =>
        -- so does the exception of the float, after the delivery
        rw [delivered_fault hfault]
        exact iff_of_false hpends.unsettled fun h => h ⟨hid, nofun⟩
      | none =>
        refine iff_of_true ?_ fun h => h.2 rfl
        rw [delivered_completed hfault]
        exact completed_settled hpends hreply hvalid hwrites.promote
    · refine iff_of_true ?_ fun h => hid h.1
      rw [queued_closed]
      refine settled_open ?_ (Pends.withdrawPending hpends hreply hvalid hwrites.withdraw)
      rintro ⟨r, hr, hstate⟩
      rw [queued_state hr] at hstate
      exact absurd (Option.some.inj hstate) (by decide)
    · refine iff_of_true ?_ fun h => hid h.1
      rw [failed_closed]
      refine settled_open ?_ (Pends.withdrawPending hpends hreply hvalid hwrites.withdraw)
      rintro ⟨r, hr, hstate⟩
      cases (failed_state hr).symm.trans hstate

/-- **No pending close outlives its send**, unless something raises on the way. A send with `reply=end`
whose id is not in the log settles its close, whatever its delivery comes to: the log then has no
pending entry for the id, a confirmed one where the message was delivered, and none otherwise. -/
theorem pending_close_settled_iff {result : Except PyError Response} {w' : World}
    (hprep : prepare env args kwargs w = (.ok mail, w₁)) (hreply : mail.reply = .end_)
    (hopen : status mail.taskId w.closed.file.entries = .open_)
    (hwrites : RegistryWrites env mail w₁.closed)
    (hsend : handleMeshSend env args kwargs w = (result, w')) :
    Settled mail.taskId (Reports result) w'.closed.file.entries ↔
      ¬ (Attempted env mail ∧ DeliveryRaises env mail) := by
  have hgate : gate env mail w₁ = (.ok false, w₁) := by
    unfold gate
    rw [hreply]
  have hopen₁ : status mail.taskId w₁.closed.file.entries = .open_ := by
    have hfile := prepare_file env args kwargs w
    rw [hprep] at hfile
    rwa [hfile]
  rw [handleMeshSend_granted hprep hgate] at hsend
  obtain ⟨rfl, rfl⟩ : (forward env mail false w₁).1 = result ∧ (forward env mail false w₁).2 = w' :=
    Prod.mk.inj hsend
  by_cases hatt : Attempted env mail
  · obtain ⟨session, fromSession, url, -, hurl, heq⟩ := forward_attempted (w := w₁) false hatt
    rw [heq, dispatch_settled hreply hwrites hatt hurl hopen₁]
    simp [hatt]
  · refine iff_of_true ?_ fun h => hatt h.1
    rw [forward_unattempted_closed false w₁ hatt]
    refine settled_open ?_ hopen₁
    rintro ⟨r, hr, hstate⟩
    rw [((forward_unattempted false w₁ hatt).2 r hr).2] at hstate
    cases hstate

/-! ## A URL that cannot be classified -/

/-- A goodbye to vera. -/
def goodbye : List (String × Json) :=
  [("message", .str "bye"), ("agent", .str "vera"), ("action", .str "info"), ("reply", .str "end")]

/-- The identity cache holds a URL on which `urlparse` raises. -/
def zeroBadUrl : Env :=
  { zeroDown with
    identity := fun _ => some "http://[peer"
    isLocalUrl := fun _ => .error (.valueError "Invalid IPv6 URL") }

/-- The call comes past the checks as a terminator of this id that is not in the log, and its
registry writes succeed. -/
def terminates (env : Env) (args kwargs : List (String × Json)) (w : World) (taskId : String) : Bool :=
  match prepare env args kwargs w with
  | (.ok mail, w₁) =>
    decide (mail.reply = .end_) && decide (mail.taskId = taskId) &&
      !w.closed.file.entries.any (ofAnchor taskId) &&
      (Threads.record env.valid env.record.io env.record.stamp env.record.closedAt mail.taskId
        mail.self true w₁.closed).1.isOk && env.withdraw.io.healthy && env.promote.io.healthy
  | _ => false

theorem exists_of_terminates {taskId : String} (h : terminates env args kwargs w taskId = true) :
    ∃ mail w₁, prepare env args kwargs w = (.ok mail, w₁) ∧ mail.reply = .end_ ∧
      mail.taskId = taskId ∧ status mail.taskId w.closed.file.entries = .open_ ∧
      RegistryWrites env mail w₁.closed := by
  unfold terminates at h
  generalize prepare env args kwargs w = p at h
  obtain ⟨stop | mail, w₁⟩ := p
  · cases h
  · simp only [Bool.and_eq_true, decide_eq_true_eq] at h
    obtain ⟨⟨⟨⟨⟨hreply, rfl⟩, hnone⟩, hrecord⟩, hwithdraw⟩, hpromote⟩ := h
    refine ⟨mail, w₁, rfl, hreply, rfl, ?_, fun _ => ?_, hwithdraw, hpromote⟩
    · by_contra hst
      rw [status_ne_open.mp hst] at hnone
      cases hnone
    · generalize (Threads.record env.valid env.record.io env.record.stamp env.record.closedAt
        mail.taskId mail.self true w₁.closed).1 = result at hrecord
      obtain _ | ⟨⟩ := result
      · cases hrecord
      · rfl

/-- The peer is down, and the close is taken back. -/
theorem pending_close_settled_iff_down :
    ∃ mail w₁, prepare zeroDown goodbye [] emptyWorld = (.ok mail, w₁) ∧ mail.reply = .end_ ∧
      (Settled mail.taskId (Reports (handleMeshSend zeroDown goodbye [] emptyWorld).1)
          (handleMeshSend zeroDown goodbye [] emptyWorld).2.closed.file.entries ↔
        ¬ (Attempted zeroDown mail ∧ DeliveryRaises zeroDown mail)) := by
  have hcheck : terminates zeroDown goodbye [] emptyWorld "m1" = true := by decide +kernel
  obtain ⟨mail, w₁, hprep, hreply, -, hopen, hwrites⟩ := exists_of_terminates hcheck
  exact ⟨mail, w₁, hprep, hreply, pending_close_settled_iff hprep hreply hopen hwrites rfl⟩

/-- The classification of the URL raises, and the pending close stays in the log. -/
theorem raised_delivery_keeps_pending :
    ∃ mail w₁, prepare zeroBadUrl goodbye [] emptyWorld = (.ok mail, w₁) ∧ mail.reply = .end_ ∧
      status mail.taskId emptyWorld.closed.file.entries = .open_ ∧
      RegistryWrites zeroBadUrl mail w₁.closed ∧
      (handleMeshSend zeroBadUrl goodbye [] emptyWorld).1.isOk = false ∧
      (handleMeshSend zeroBadUrl goodbye [] emptyWorld).2.closed.file.entries.any
        (pendingOf mail.taskId) = true := by
  have hcheck : terminates zeroBadUrl goodbye [] emptyWorld "m1" = true := by decide +kernel
  have hraised : (handleMeshSend zeroBadUrl goodbye [] emptyWorld).1.isOk = false := by
    decide +kernel
  have hpending : (handleMeshSend zeroBadUrl goodbye [] emptyWorld).2.closed.file.entries.any
      (pendingOf "m1") = true := by
    decide +kernel
  obtain ⟨mail, w₁, hprep, hreply, hid, hopen, hwrites⟩ := exists_of_terminates hcheck
  exact ⟨mail, w₁, hprep, hreply, hopen, hwrites, hraised, by rwa [hid]⟩

end HermesMesh
