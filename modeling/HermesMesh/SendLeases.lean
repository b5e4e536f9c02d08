import HermesMesh.LeaseOps
import HermesMesh.Send

/-!
# What a send does to the lease registry

Three places of a send write the registry: the claim of the gate, the bookkeeping after a delivery,
and the rollback after a failure. One lemma for each stage says what it returns and what it leaves
(`gate_cases`, `forward_returns`); the predicates they speak in (`Joined`, `Refused`, `Opens`,
`Attempted`, `Delivers`) are conditions on the call and on the registry before it.
-/

namespace HermesMesh

open OpenThreads

variable {env : Env} {mail : Mail} {args kwargs : List (String × Json)} {w : World} {held : Bool}
  {file : File}

/-! ## Before the gate -/

theorem prepare_leases (env : Env) (args kwargs : List (String × Json)) (w : World) :
    (prepare env args kwargs w).2.leases = w.leases := by
  unfold prepare
  cases readArgs env args kwargs with
  | error stop => rfl
  | ok draft =>
    dsimp only
    split_ifs <;> rfl

theorem prepared_leases {w₀ : World} (h : prepare env args kwargs w = (.ok mail, w₀)) :
    w₀.leases = w.leases := by
  have hleases := prepare_leases env args kwargs w
  rwa [h] at hleases

theorem address_self {draft : Draft} (h : address env draft = .ok mail) :
    validateAgentName env.repr env.selfName = .ok mail.self := by
  unfold address at h
  cases ht : env.optToken "task_id" draft.givenId with
  | error stop => rw [ht] at h; cases h
  | ok taskId =>
    cases hs : validateAgentName env.repr env.selfName with
    | error e => rw [ht, hs] at h; cases h
    | ok self =>
      rw [ht, hs] at h
      obtain rfl := Except.ok.inj h
      rfl

/-- The sender is the agent that the gateway is named after. -/
theorem prepare_self {w₀ : World} (h : prepare env args kwargs w = (.ok mail, w₀)) :
    validateAgentName env.repr env.selfName = .ok mail.self := by
  unfold prepare at h
  cases hr : readArgs env args kwargs with
  | error stop => rw [hr] at h; cases h
  | ok draft =>
    rw [hr] at h
    dsimp only at h
    split_ifs at h
    · cases h
    · exact address_self (Prod.mk.inj h).1

/-! ## The gate -/

/-- The lease that this call would open. -/
def Env.ownLease (env : Env) (mail : Mail) : Lease :=
  newLease env.claim.now mail.taskId mail.self mail.agent (clampMinutes defaultLeaseMinutes)

/-- The leases that the claim sees. -/
def Env.seen (env : Env) (file : File) : List Lease :=
  liveEntries env.claim.io env.claim.now file

/-- The registry after the gate has opened a lease. -/
def Env.opened (env : Env) (mail : Mail) (file : File) : File :=
  some (env.seen file ++ [env.ownLease mail])

/-- The locked section of the claim runs. -/
def Seeks (env : Env) (mail : Mail) (file : File) : Prop :=
  mail.reply = .yes ∧ threadTraffic env mail file = none ∧
    (env.valid mail.taskId = true ∧ env.valid mail.self = true ∧ env.valid mail.agent = true) ∧
    env.claim.io.lockable = true

/-- The message belongs to a thread that is open: a live lease joins its two agents. -/
def Joined (env : Env) (mail : Mail) (file : File) : Prop :=
  mail.reply = .yes ∧ (threadTraffic env mail file).isSome = true ∨
    Seeks env mail file ∧ ∃ rec ∈ env.seen file, rec.joins mail.self mail.agent = true

/-- The gate refuses: the recipient is busy, or the sender holds too many threads. -/
def Refused (env : Env) (mail : Mail) (file : File) : Prop :=
  Seeks env mail file ∧ (∀ rec ∈ env.seen file, rec.joins mail.self mail.agent = false) ∧
    ((∃ rec ∈ env.seen file, blocks mail.self mail.agent rec = true) ∨
      maxOutboundThreads ≤ ((env.seen file).filter (·.openedBy = mail.self)).length)

/-- The gate opens a lease. -/
def Opens (env : Env) (mail : Mail) (file : File) : Prop :=
  Seeks env mail file ∧ (∀ rec ∈ env.seen file, rec.joins mail.self mail.agent = false) ∧
    (∀ rec ∈ env.seen file, blocks mail.self mail.agent rec = false) ∧
    ((env.seen file).filter (·.openedBy = mail.self)).length < maxOutboundThreads ∧
    env.claim.io.writable = true

theorem Seeks.not_traffic (h : Seeks env mail file) :
    ¬ (threadTraffic env mail file).isSome = true := by
  rw [h.2.1]
  nofun

theorem not_joined_of_pair (h : Seeks env mail file)
    (hpair : ∀ rec ∈ env.seen file, rec.joins mail.self mail.agent = false) :
    ¬ Joined env mail file := by
  rintro (⟨-, ht⟩ | ⟨-, rec, hrec, hj⟩)
  · exact h.not_traffic ht
  · rw [hpair rec hrec] at hj
    cases hj

theorem Opens.not_joined (h : Opens env mail file) : ¬ Joined env mail file :=
  not_joined_of_pair h.1 h.2.1

theorem Refused.not_joined (h : Refused env mail file) : ¬ Joined env mail file :=
  not_joined_of_pair h.1 h.2.1

theorem Opens.not_refused (h : Opens env mail file) : ¬ Refused env mail file := by
  obtain ⟨-, -, hdoor, hroom, -⟩ := h
  rintro ⟨-, -, ⟨rec, hrec, hb⟩ | hcap⟩
  · rw [hdoor rec hrec] at hb
    cases hb
  · omega

/-- A call that does not come to the locked section passes without a lease, unless its `ref` names
the thread it belongs to. -/
theorem gate_unsought (hseek : ¬ Seeks env mail w.leases)
    (ht : ¬ (mail.reply = .yes ∧ (threadTraffic env mail w.leases).isSome = true)) :
    gate env mail w = (.ok false, w) := by
  unfold gate Env.claimDoor
  cases hr : mail.reply with
  | no => rfl
  | end_ => rfl
  | yes =>
    have hnone : ¬ (threadTraffic env mail w.leases).isSome = true := fun h => ht ⟨hr, h⟩
    rw [if_neg hnone]
    rcases claim_cases env.valid env.claim.io env.claim.now mail.taskId mail.self mail.agent
      defaultLeaseMinutes w.leases with ⟨-, e, heq⟩ | ⟨htokens, ⟨-, heq⟩ | ⟨hlock, -⟩⟩
    · rw [heq]
    · rw [heq]
      rfl
    · exact absurd ⟨hr, by simpa using hnone, htokens, hlock⟩ hseek

/-- A call that comes to the locked section does what it decides. -/
theorem gate_sought (hseek : Seeks env mail w.leases) {claimed : Claimed} {file : File}
    (hl : claimLocked env.claim.io env.claim.now mail.taskId mail.self mail.agent
      (clampMinutes defaultLeaseMinutes) w.leases = (claimed, file)) :
    gate env mail w =
      match claimed with
      | .busy blocker => (.error (recipientBusy env mail blocker),
          { w with leases := file }.measure mail (.str blocker.threadId) "refused")
      | .cap limit threads peers => (.error (tooManyOpen env mail limit threads peers),
          { w with leases := file }.measure mail .null "refused")
      | claimed => (.ok claimed.lease.isSome, { w with leases := file }) := by
  have hclaim : env.claimDoor mail w.leases = (.ok claimed, file) := by
    unfold Env.claimDoor
    rcases claim_cases env.valid env.claim.io env.claim.now mail.taskId mail.self mail.agent
      defaultLeaseMinutes w.leases with ⟨htokens, -⟩ | ⟨-, ⟨hlock, -⟩ | ⟨-, heq⟩⟩
    · exact absurd hseek.2.2.1 htokens
    · rw [hseek.2.2.2] at hlock
      cases hlock
    · rw [heq, hl]
  unfold gate
  simp only [hseek.1, if_neg hseek.not_traffic, hclaim]
  cases claimed <;> rfl

/-- **The gate.** It joins an open thread, refuses, opens a lease, or lets the call pass without
one; only where it opens a lease does it write the registry. -/
theorem gate_cases (env : Env) (mail : Mail) (w : World) :
    (Joined env mail w.leases ∧ gate env mail w = (.ok true, w)) ∨
    (Refused env mail w.leases ∧
      ∃ refusal w', gate env mail w = (.error refusal, w') ∧ w'.leases = w.leases) ∨
    (Opens env mail w.leases ∧
      gate env mail w =
        (.ok true, { w with leases := env.opened mail w.leases })) ∨
    (¬ Joined env mail w.leases ∧ ¬ Refused env mail w.leases ∧ ¬ Opens env mail w.leases ∧
      gate env mail w = (.ok false, w)) := by
  by_cases ht : mail.reply = .yes ∧ (threadTraffic env mail w.leases).isSome = true
  · refine .inl ⟨.inl ht, ?_⟩
    unfold gate
    simp only [ht.1, if_pos ht.2]
  · by_cases hseek : Seeks env mail w.leases
    · rcases claimLocked_cases env.claim.io env.claim.now mail.taskId mail.self mail.agent
        (clampMinutes defaultLeaseMinutes) w.leases with
        ⟨rec, hrec, hj, hl⟩ | ⟨hpair, ⟨rec, hrec, hb, hl⟩ | ⟨hdoor, ⟨threads, peers, hcap, hl⟩ |
          ⟨hroom, ⟨hw, hl⟩ | ⟨hw, hl⟩⟩⟩⟩
      · exact .inl ⟨.inr ⟨hseek, rec, hrec, hj⟩, gate_sought hseek hl⟩
      · exact .inr (.inl ⟨⟨hseek, hpair, .inl ⟨rec, hrec, hb⟩⟩, _, _, gate_sought hseek hl, rfl⟩)
      · exact .inr (.inl ⟨⟨hseek, hpair, .inr hcap⟩, _, _, gate_sought hseek hl, rfl⟩)
      · exact .inr (.inr (.inl ⟨⟨hseek, hpair, hdoor, hroom, hw⟩, gate_sought hseek hl⟩))
      · refine .inr (.inr (.inr ⟨not_joined_of_pair hseek hpair, ?_, ?_, gate_sought hseek hl⟩))
        · rintro ⟨-, -, ⟨rec, hrec, hb⟩ | hcap⟩
          · rw [hdoor rec hrec] at hb
            cases hb
          · exact absurd hcap (not_le.mpr hroom)
        · rintro ⟨-, -, -, -, h⟩
          rw [hw] at h
          cases h
    · refine .inr (.inr (.inr ⟨?_, fun h => hseek h.1, fun h => hseek h.1,
        gate_unsought hseek ht⟩))
      rintro (h | ⟨h, -⟩)
      · exact ht h
      · exact hseek h

/-! ## What leaves the registry alone -/

theorem deliver_fst (env : Env) (net : Net) (signature : Except PyError String) (wire : Wire)
    (w : World) : (deliver env net signature wire w).1 = env.post net signature wire.url := by
  unfold deliver
  cases env.post net signature wire.url <;> rfl

theorem deliver_leases (env : Env) (net : Net) (signature : Except PyError String) (wire : Wire)
    (w : World) : (deliver env net signature wire w).2.leases = w.leases := by
  unfold deliver
  dsimp only
  cases env.post net signature wire.url <;> dsimp only <;> split_ifs <;> rfl

/-- What comes back has gone out last. -/
theorem deliver_sent (env : Env) (net : Net) (signature : Except PyError String) (wire : Wire)
    (w : World) {d : Delivery} (h : env.post net signature wire.url = .ok d) :
    (deliver env net signature wire w).2.sent.head? = some wire := by
  have hloop : (env.loopback wire.url).isOk = true := by
    obtain ⟨allowed, hallowed, -⟩ := bind_ok h
    rw [hallowed]
    rfl
  unfold deliver
  rw [h, if_pos hloop]
  rfl

theorem queueMessage_leases (env : Env) (item : Outbox.Uuid) (fromAgent toAgent text : String)
    (ref : Option String) (isDsn : Bool) (anchor : Option String) (w : World) :
    (queueMessage env item fromAgent toAgent text ref isDsn anchor w).2.leases = w.leases := by
  unfold queueMessage
  cases env.queueFault <;> rfl

theorem sendDeliveryError_leases (env : Env)
    (dsnFrom dsnTo originalId reason originalFrom originalTo : String) (w : World) :
    (sendDeliveryError env dsnFrom dsnTo originalId reason originalFrom originalTo w).2.leases =
      w.leases := by
  unfold sendDeliveryError
  dsimp only
  split
  · rfl
  · split
    · split
      · rfl
      · generalize hd : deliver env env.dsnNet env.dsnSignature _ w = d
        have hleases : d.2.leases = w.leases := by rw [← hd, deliver_leases]
        split
        · exact hleases
        · split
          · exact (queueMessage_leases ..).trans hleases
          · exact hleases
      · rfl
    · rfl

theorem notifyFailure_leases (env : Env) (mail : Mail) (reason : String) (w : World) :
    (notifyFailure env mail reason w).2.leases = w.leases :=
  sendDeliveryError_leases ..

theorem recordPending_leases (env : Env) (mail : Mail) (w : World) :
    (recordPending env mail w).2.leases = w.leases := by
  unfold recordPending
  split
  · dsimp only
    split <;> rfl
  · rfl

theorem withdrawPending_leases (env : Env) (mail : Mail) (w : World) :
    (withdrawPending env mail w).leases = w.leases := by
  unfold withdrawPending
  split <;> rfl

theorem withdrawPending_sent (env : Env) (mail : Mail) (w : World) :
    (withdrawPending env mail w).sent = w.sent := by
  unfold withdrawPending
  split <;> rfl

theorem promotePending_leases (env : Env) (mail : Mail) (w : World) :
    (promotePending env mail w).leases = w.leases := by
  unfold promotePending
  split <;> rfl

/-! ## After the gate -/

/-- The delivery is attempted: the session tokens are valid, and both agents resolve. -/
def Attempted (env : Env) (mail : Mail) : Prop :=
  (∃ tokens, sessions env mail = .ok tokens) ∧
    (∃ url, env.target mail.agent = .ok (.ok url)) ∧
    ∃ key, resolveSender env.privateKey mail.self = .ok key

/-- The delivery comes back with this id. -/
def Delivers (env : Env) (mail : Mail) (deliveryId : Json) : Prop :=
  deliveryId.isSome = true ∧ ∃ url d, env.target mail.agent = .ok (.ok url) ∧
    env.post env.net env.signature url = .ok d ∧ d.deliveryId = deliveryId

/-- The response is a plain error. -/
def Response.Fails (r : Response) : Prop := r.isError = true ∧ r.state = none

theorem optToken_text {name : String} {v : Json} {r : Response}
    (h : env.optToken name v = .error (.answer r)) : ∃ text, r = [("error", .str text)] := by
  unfold Env.optToken at h
  split at h
  · split at h
    · cases h
    · exact ⟨_, (Stop.answer.inj (Except.error.inj h)).symm⟩
    · cases h
  · cases h

theorem optToken_answer {name : String} {v : Json} {r : Response}
    (h : env.optToken name v = .error (.answer r)) : r.Fails := by
  obtain ⟨text, rfl⟩ := optToken_text h
  exact ⟨rfl, rfl⟩

/-- The sessions are refused with a text alone. -/
theorem sessions_text {r : Response} (h : sessions env mail = .error (.answer r)) :
    ∃ text, r = [("error", .str text)] := by
  unfold sessions at h
  cases hs : env.optToken "session" mail.givenSession with
  | error stop =>
    rw [hs] at h
    obtain rfl : stop = .answer r := Except.error.inj h
    exact optToken_text hs
  | ok session =>
    cases hf : env.optToken "from_session" mail.givenFromSession with
    | error stop =>
      rw [hs, hf] at h
      obtain rfl : stop = .answer r := Except.error.inj h
      exact optToken_text hf
    | ok fromSession => rw [hs, hf] at h; cases h

theorem sessions_answer {r : Response} (h : sessions env mail = .error (.answer r)) : r.Fails := by
  obtain ⟨text, rfl⟩ := sessions_text h
  exact ⟨rfl, rfl⟩

theorem unresolved_spec (env : Env) (mail : Mail) (text : String) (w : World) :
    (unresolved env mail text w).2.leases = w.leases ∧
      ∀ r : Response, (unresolved env mail text w).1 = .ok r → r.Fails := by
  have hleases := notifyFailure_leases env mail text w
  unfold unresolved
  generalize notifyFailure env mail text w = n at hleases
  obtain ⟨e | ⟨⟩, w'⟩ := n
  · exact ⟨hleases, nofun⟩
  · refine ⟨hleases, fun r hr => ?_⟩
    obtain rfl := Except.ok.inj hr
    exact ⟨rfl, rfl⟩

/-- Where a call ends that is not attempted: at its sessions, or at an agent that does not resolve. -/
theorem forward_stops (held : Bool) (w : World) (h : ¬ Attempted env mail) :
    (∃ stop, (∀ r, stop = .answer r → sessions env mail = .error stop) ∧
        forward env mail held w = (stop.result, w)) ∨
      ∃ text, forward env mail held w = unresolved env mail text w := by
  unfold forward
  cases hs : sessions env mail with
  | error stop => exact .inl ⟨stop, fun _ _ => rfl, rfl⟩
  | ok tokens =>
    cases ht : env.target mail.agent with
    | error e => exact .inl ⟨.raise e, nofun, rfl⟩
    | ok target =>
      right
      cases target with
      | error text => exact ⟨text, rfl⟩
      | ok url =>
        cases hk : resolveSender env.privateKey mail.self with
        | error text => exact ⟨text, rfl⟩
        | ok key => exact absurd ⟨⟨_, hs⟩, ⟨_, ht⟩, ⟨_, hk⟩⟩ h

/-- Without an attempt the registry stays as the gate left it. -/
theorem forward_unattempted (held : Bool) (w : World) (h : ¬ Attempted env mail) :
    (forward env mail held w).2.leases = w.leases ∧
      ∀ r : Response, (forward env mail held w).1 = .ok r → r.Fails := by
  rcases forward_stops held w h with ⟨stop, hs, heq⟩ | ⟨text, heq⟩ <;> rw [heq]
  · refine ⟨rfl, fun r hr => ?_⟩
    cases stop with
    | raise e => cases hr
    | answer r' =>
      obtain rfl := Except.ok.inj hr
      exact sessions_answer (hs r' rfl)
  · exact unresolved_spec env mail text w

theorem forward_attempted (held : Bool) (h : Attempted env mail) :
    ∃ session fromSession url, sessions env mail = .ok (session, fromSession) ∧
      env.target mail.agent = .ok (.ok url) ∧
      forward env mail held w =
        dispatch env mail held (mail.padded session fromSession) url w := by
  obtain ⟨⟨⟨session, fromSession⟩, hs⟩, ⟨url, ht⟩, key, hk⟩ := h
  refine ⟨session, fromSession, url, hs, ht, ?_⟩
  unfold forward
  simp only [hs, ht, hk]

theorem completed_spec (env : Env) (mail : Mail) (deliveryId : Json) (w : World) :
    (∃ r : Response, (completed env mail deliveryId w).1 = .ok r ∧
        r.isError = false ∧ r.state = some "completed") ∧
      (completed env mail deliveryId w).2.leases = (bookkeeping env mail deliveryId w.leases).2 := by
  unfold completed
  refine ⟨⟨_, rfl, ?_⟩, ?_⟩
  · unfold Response.isError Response.state releaseField
    cases mail.reply <;> exact ⟨rfl, rfl⟩
  · exact promotePending_leases env mail _

theorem delivered_fault {e : PyError} (h : env.floatFault = some e) (mail : Mail) (padded : String)
    (deliveryId : Json) (w : World) :
    delivered env mail padded deliveryId w =
      (.error e, { w with floats := (padded, mail.self) :: w.floats }) := by
  unfold delivered
  rw [h]

theorem delivered_completed (h : env.floatFault = none) (mail : Mail) (padded : String)
    (deliveryId : Json) (w : World) :
    delivered env mail padded deliveryId w =
      completed env mail deliveryId { w with floats := (padded, mail.self) :: w.floats } := by
  unfold delivered
  rw [h]

/-- A delivered message is completed, unless its float raises. -/
theorem delivered_spec (env : Env) (mail : Mail) (padded : String) (deliveryId : Json) (w : World) :
    (∃ e, env.floatFault = some e ∧ (delivered env mail padded deliveryId w).1 = .error e ∧
        (delivered env mail padded deliveryId w).2.leases = w.leases) ∨
      env.floatFault = none ∧
        (∃ r : Response, (delivered env mail padded deliveryId w).1 = .ok r ∧
          r.isError = false ∧ r.state = some "completed") ∧
        (delivered env mail padded deliveryId w).2.leases =
          (bookkeeping env mail deliveryId w.leases).2 := by
  cases hfault : env.floatFault with
  | some e =>
    rw [delivered_fault hfault]
    exact .inl ⟨e, rfl, rfl, rfl⟩
  | none =>
    rw [delivered_completed hfault]
    exact .inr ⟨rfl, completed_spec env mail deliveryId _⟩

/-- A message that is reported as delivered has been floated. -/
theorem delivered_ok {padded : String} {deliveryId : Json} {r : Response} {w' : World}
    (h : delivered env mail padded deliveryId w = (.ok r, w')) :
    env.floatFault = none ∧
      completed env mail deliveryId { w with floats := (padded, mail.self) :: w.floats } =
        (.ok r, w') := by
  cases hfault : env.floatFault with
  | some e =>
    rw [delivered_fault hfault] at h
    cases h
  | none => exact ⟨rfl, delivered_completed hfault mail padded deliveryId w ▸ h⟩

theorem queued_spec (env : Env) (mail : Mail) (padded : String) (w : World) :
    (queued env mail padded w).2.leases = w.leases ∧
      ∀ r : Response, (queued env mail padded w).1 = .ok r →
        r.isError = false ∧ r.state = some "queued" := by
  unfold queued queueMessage
  cases env.queueFault with
  | some e => exact ⟨rfl, nofun⟩
  | none =>
    refine ⟨rfl, fun r hr => ?_⟩
    obtain rfl := Except.ok.inj hr
    unfold Response.isError Response.state releaseField
    cases mail.reply <;> exact ⟨rfl, rfl⟩

theorem failed_spec (env : Env) (mail : Mail) (held : Bool) (reason : Option String) (w : World) :
    (∃ e, (failed env mail held reason w).1 = .error e) ∧
        (failed env mail held reason w).2.leases = w.leases ∨
      (∃ r : Response, (failed env mail held reason w).1 = .ok r ∧ r.Fails) ∧
        (failed env mail held reason w).2.leases = rollback env mail held w.leases := by
  have hleases := notifyFailure_leases env mail (reason.getD "") w
  unfold failed
  generalize notifyFailure env mail (reason.getD "") w = n at hleases
  obtain ⟨⟨e⟩ | ⟨⟩, w'⟩ := n
  · exact .inl ⟨⟨e, rfl⟩, hleases⟩
  · refine .inr ⟨⟨_, rfl, ?_⟩, ?_⟩
    · unfold Response.Fails Response.isError Response.state releaseField
      cases mail.reply <;> exact ⟨rfl, rfl⟩
    · exact congrArg (rollback env mail held) hleases

/-! The state of the response tells the three ends apart. -/

theorem delivered_state {padded : String} {deliveryId : Json} {r : Response}
    (h : (delivered env mail padded deliveryId w).1 = .ok r) : r.state = some "completed" := by
  rcases delivered_spec env mail padded deliveryId w with ⟨e, -, he, -⟩ | ⟨-, ⟨r', hr', -, hstate⟩, -⟩
  · cases he.symm.trans h
  · obtain rfl := Except.ok.inj (hr'.symm.trans h)
    exact hstate

theorem queued_state {padded : String} {r : Response}
    (h : (queued env mail padded w).1 = .ok r) : r.state = some "queued" :=
  ((queued_spec env mail padded w).2 r h).2

theorem failed_state {held : Bool} {reason : Option String} {r : Response}
    (h : (failed env mail held reason w).1 = .ok r) : r.state = none := by
  rcases failed_spec env mail held reason w with ⟨⟨e, he⟩, -⟩ | ⟨⟨r', hr', -, hstate⟩, -⟩
  · cases he.symm.trans h
  · obtain rfl := Except.ok.inj (hr'.symm.trans h)
    exact hstate

/-- **From the pending close on.** The call raises, or goes on from a registry that is still what it
was. -/
theorem dispatch_cases (env : Env) (mail : Mail) (held : Bool) (padded url : String) (w : World) :
    (∃ e w₁, recordPending env mail w = (.error e, w₁) ∧
        dispatch env mail held padded url w = (.error e, w₁)) ∨
      ∃ w₁ : World, w₁.leases = w.leases ∧
        ((∃ e, env.post env.net env.signature url = .error e ∧
            dispatch env mail held padded url w = (.error e, w₁)) ∨
          ∃ d, env.post env.net env.signature url = .ok d ∧
            w₁.sent.head? = some (env.wire mail padded url) ∧
            (d.deliveryId.isSome = true ∧
                dispatch env mail held padded url w = delivered env mail padded d.deliveryId w₁ ∨
              d.deliveryId.isSome = false ∧
                (dispatch env mail held padded url w = queued env mail padded w₁ ∨
                  dispatch env mail held padded url w =
                    failed env mail held d.reason w₁))) := by
  have hrec := recordPending_leases env mail w
  unfold dispatch
  generalize recordPending env mail w = r at hrec
  obtain ⟨e | ⟨⟩, w₁⟩ := r
  · exact .inl ⟨e, w₁, rfl, rfl⟩
  · have hfst := deliver_fst env env.net env.signature (env.wire mail padded url) w₁
    have hdel := deliver_leases env env.net env.signature (env.wire mail padded url) w₁
    have hsent := @deliver_sent env env.net env.signature (env.wire mail padded url) w₁
    dsimp only
    generalize deliver env env.net env.signature (env.wire mail padded url) w₁ = p
      at hfst hdel hsent
    obtain ⟨e | d, w₂⟩ := p
    · exact .inr ⟨w₂, hdel.trans hrec, .inl ⟨e, hfst.symm, rfl⟩⟩
    · dsimp only
      cases hid : d.deliveryId.isSome with
      | true =>
        refine .inr ⟨w₂, hdel.trans hrec, .inr ⟨d, hfst.symm, hsent hfst.symm, .inl ⟨hid, ?_⟩⟩⟩
        rw [if_pos rfl]
      | false =>
        rw [if_neg Bool.false_ne_true]
        generalize hw₃ : withdrawPending env mail _ = w₃
        have hleases : w₃.leases = w.leases := by
          rw [← hw₃, withdrawPending_leases]
          exact hdel.trans hrec
        have hposted : w₃.sent.head? = some (env.wire mail padded url) := by
          rw [← hw₃, withdrawPending_sent]
          exact hsent hfst.symm
        refine .inr ⟨w₃, hleases, .inr ⟨d, hfst.symm, hposted, .inr ⟨hid, ?_⟩⟩⟩
        split
        · exact .inl rfl
        · exact .inr rfl

theorem recordPending_raises {e : PyError} {w₁ : World}
    (h : recordPending env mail w = (.error e, w₁)) : mail.reply = .end_ := by
  unfold recordPending at h
  cases hreply : mail.reply with
  | end_ => rfl
  | yes => rw [hreply] at h; cases h
  | no => rw [hreply] at h; cases h

/-- A delivered message: the bookkeeping runs, unless the pending close of a terminator raised, or the
float. -/
theorem forward_delivered {deliveryId : Json} (held : Bool) (w : World) (h : Attempted env mail)
    (hd : Delivers env mail deliveryId) :
    ((mail.reply = .end_ ∨ env.floatFault ≠ none) ∧ (∃ e, (forward env mail held w).1 = .error e) ∧
        (forward env mail held w).2.leases = w.leases) ∨
      env.floatFault = none ∧ (∃ r : Response, (forward env mail held w).1 = .ok r ∧ r.isError = false ∧
          r.state = some "completed") ∧
        (forward env mail held w).2.leases = (bookkeeping env mail deliveryId w.leases).2 := by
  obtain ⟨session, fromSession, url, -, hurl, heq⟩ := forward_attempted (w := w) held h
  obtain ⟨hsome, url', d', hurl', hpost', hid⟩ := hd
  obtain rfl : url = url' := Except.ok.inj (Except.ok.inj (hurl.symm.trans hurl'))
  rw [heq]
  rcases dispatch_cases env mail held (mail.padded session fromSession) url w with
    ⟨e, w₁, hrec, hres⟩ | ⟨w₁, hleases, ⟨e, hpost, hres⟩ | ⟨d, hpost, -, ⟨-, hres⟩ | ⟨hnone, -⟩⟩⟩
  · have hrecleases := recordPending_leases env mail w
    rw [hrec] at hrecleases
    rw [hres]
    exact .inl ⟨.inl (recordPending_raises hrec), ⟨e, rfl⟩, hrecleases⟩
  · rw [hpost] at hpost'
    cases hpost'
  · obtain rfl : d = d' := Except.ok.inj (hpost.symm.trans hpost')
    rw [hres, hid, ← hleases]
    rcases delivered_spec env mail (mail.padded session fromSession) deliveryId w₁ with
      ⟨e, hfault, he, hkept⟩ | hdone
    · refine .inl ⟨.inr ?_, ⟨e, he⟩, hkept⟩
      rw [hfault]
      exact nofun
    · exact .inr hdone
  · obtain rfl : d = d' := Except.ok.inj (hpost.symm.trans hpost')
    rw [hid, hsome] at hnone
    cases hnone

theorem not_delivers {url : String} {d : Delivery}
    (hurl : env.target mail.agent = .ok (.ok url))
    (hpost : env.post env.net env.signature url = .ok d) (hnone : d.deliveryId.isSome = false) :
    ¬ ∃ deliveryId, Delivers env mail deliveryId := by
  rintro ⟨deliveryId, hsome, url', d', hurl', hpost', rfl⟩
  obtain rfl := Except.ok.inj (Except.ok.inj (hurl.symm.trans hurl'))
  obtain rfl := Except.ok.inj (hpost.symm.trans hpost')
  rw [hnone] at hsome
  cases hsome

/-- A message that is not delivered: the call raises, the message is queued, or the claim is rolled
back. -/
theorem forward_undelivered (held : Bool) (w : World) (h : Attempted env mail)
    (hd : ¬ ∃ id, Delivers env mail id) :
    (∃ e, (forward env mail held w).1 = .error e) ∧
        (forward env mail held w).2.leases = w.leases ∨
      (∃ r : Response, (forward env mail held w).1 = .ok r ∧ r.isError = false ∧
          r.state = some "queued") ∧
        (forward env mail held w).2.leases = w.leases ∨
      (∃ r : Response, (forward env mail held w).1 = .ok r ∧ r.Fails) ∧
        (forward env mail held w).2.leases = rollback env mail held w.leases := by
  obtain ⟨session, fromSession, url, -, hurl, heq⟩ := forward_attempted (w := w) held h
  rw [heq]
  rcases dispatch_cases env mail held (mail.padded session fromSession) url w with
    ⟨e, w₁, hrec, hres⟩ | ⟨w₁, hleases, ⟨e, hpost, hres⟩ | ⟨d, hpost, -, ⟨hsome, -⟩ |
      ⟨-, hres | hres⟩⟩⟩
  · have hrecleases := recordPending_leases env mail w
    rw [hrec] at hrecleases
    rw [hres]
    exact .inl ⟨⟨e, rfl⟩, hrecleases⟩
  · rw [hres]
    exact .inl ⟨⟨e, rfl⟩, hleases⟩
  · exact absurd ⟨d.deliveryId, hsome, url, d, hurl, hpost, rfl⟩ hd
  · rw [hres, ← hleases]
    obtain ⟨hq, hqueued⟩ := queued_spec env mail (mail.padded session fromSession) w₁
    cases hr : (queued env mail (mail.padded session fromSession) w₁).1 with
    | error e => exact .inl ⟨⟨e, rfl⟩, hq⟩
    | ok r => exact .inr (.inl ⟨⟨r, rfl, hqueued r hr⟩, hq⟩)
  · rw [hres, ← hleases]
    rcases failed_spec env mail held d.reason w₁ with hf | hf
    · exact .inl hf
    · exact .inr (.inr hf)

/-- **From the gate on.** A call that returns has failed before the delivery, or after it, or its
message is queued, or delivered. -/
theorem forward_returns {resp : Response} {w' : World}
    (h : forward env mail held w = (.ok resp, w')) :
    (resp.Fails ∧ (¬ Attempted env mail ∧ w'.leases = w.leases ∨
        Attempted env mail ∧ w'.leases = rollback env mail held w.leases)) ∨
      resp.isError = false ∧ (resp.state = some "queued" ∧ w'.leases = w.leases ∨
        resp.state = some "completed" ∧
          ∃ id, Delivers env mail id ∧ w'.leases = (bookkeeping env mail id w.leases).2) := by
  have hfst : (forward env mail held w).1 = .ok resp := by rw [h]
  have hsnd : (forward env mail held w).2 = w' := by rw [h]
  rw [← hsnd]
  by_cases ha : Attempted env mail
  · by_cases hd : ∃ id, Delivers env mail id
    · obtain ⟨id, hd⟩ := hd
      rcases forward_delivered held w ha hd with
        ⟨-, ⟨e, he⟩, -⟩ | ⟨-, ⟨r, hr, hno, hstate⟩, hleases⟩
      · rw [hfst] at he
        cases he
      · obtain rfl := Except.ok.inj (hfst.symm.trans hr)
        exact .inr ⟨hno, .inr ⟨hstate, id, hd, hleases⟩⟩
    · rcases forward_undelivered held w ha hd with
        ⟨⟨e, he⟩, -⟩ | ⟨⟨r, hr, hno, hstate⟩, hleases⟩ | ⟨⟨r, hr, hfails⟩, hleases⟩
      · rw [hfst] at he
        cases he
      · obtain rfl := Except.ok.inj (hfst.symm.trans hr)
        exact .inr ⟨hno, .inl ⟨hstate, hleases⟩⟩
      · obtain rfl := Except.ok.inj (hfst.symm.trans hr)
        exact .inl ⟨hfails, .inr ⟨ha, hleases⟩⟩
  · obtain ⟨hleases, hfails⟩ := forward_unattempted held w ha
    exact .inl ⟨hfails resp hfst, .inl ⟨ha, hleases⟩⟩

end HermesMesh
