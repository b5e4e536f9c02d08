import HermesMesh.QueuedItems
import HermesMesh.RetrySweep
import HermesMesh.ThreadRuns

/-!
# The calls around a delivery

A send and the turn of a file both `record` the pending close of a terminator before the delivery,
and `promote` or `withdraw` it after. Both are cut in two here, at the delivery (`handleMeshSend_eq`,
`turn_eq`), since anything may happen while the delivery is under way, and each half is told as the
list of registry calls that it makes (`Threads.Calls`).
-/

namespace HermesMesh

theorem Io.healthy_iff {io : Io} :
    io.healthy = true ↔ io.lockable = true ∧ io.readable = true ∧ io.writable = true := by
  unfold Io.healthy
  rw [Bool.and_eq_true, Bool.and_eq_true, and_assoc]

/-! ## Lists of registry calls -/

namespace Threads

variable {valid : TokenRule} {P Q : Time → Prop} {anchor : String} {v v' v'' : View} {ops ops' : List Op}
  {op : Op} {io : Io} {stamp : Time} {cache : Cache}

/-- These calls lead from one view to the other, each with an mtime that `P` allows. -/
inductive Calls (valid : TokenRule) (P : Time → Prop) : View → List Op → View → Prop
  | nil (v : View) : Calls valid P v [] v
  | cons {v v' : View} {op : Op} {ops : List Op} {stamp : Time} (hstamp : P stamp)
      (hrest : Calls valid P (op.run valid stamp v) ops v') : Calls valid P v (op :: ops) v'

/-- What the calls do to the status of one anchor. -/
def acts (valid : TokenRule) (anchor : String) (ops : List Op) (st : Status) : Status :=
  ops.foldl (fun st op => op.act valid anchor st) st

@[simp] theorem acts_nil (st : Status) : acts valid anchor [] st = st := rfl

@[simp] theorem acts_cons (st : Status) :
    acts valid anchor (op :: ops) st = acts valid anchor ops (op.act valid anchor st) := rfl

@[simp] theorem acts_append (st : Status) :
    acts valid anchor (ops ++ ops') st = acts valid anchor ops' (acts valid anchor ops st) :=
  List.foldl_append

theorem Calls.one (hstamp : P stamp) : Calls valid P v [op] (op.run valid stamp v) :=
  .cons hstamp (.nil _)

theorem Calls.append (h : Calls valid P v ops v') (h' : Calls valid P v' ops' v'') :
    Calls valid P v (ops ++ ops') v'' := by
  induction h with
  | nil v => exact h'
  | cons hstamp _ ih => exact .cons hstamp (ih h')

theorem Calls.mono (hPQ : ∀ stamp, P stamp → Q stamp) (h : Calls valid P v ops v') :
    Calls valid Q v ops v' := by
  induction h with
  | nil v => exact .nil v
  | cons hstamp _ ih => exact .cons (hPQ _ hstamp) ih

theorem Effect.wellformed (he : Effect valid stamp v v') (h : Wellformed valid v.file.entries) :
    Wellformed valid v'.file.entries := by
  cases he with
  | same => exact h
  | reread => exact h
  | wrote stored hw => exact hw

/-- The snapshot of the caller holds what the file holds. -/
theorem Effect.own (he : Effect valid stamp v v') (h : Snapshot valid v.file v.cache) :
    Snapshot valid v'.file v'.cache := by
  cases he with
  | same => exact h
  | reread => exact fun _ _ => rfl
  | wrote stored hw => exact fun _ _ => rfl

/-- Any other snapshot does, or its mtime shows that it does not. -/
theorem Effect.other (he : Effect valid stamp v v') (hstamp : cache.mtime ≠ some stamp)
    (h : Snapshot valid v.file cache) : Snapshot valid v'.file cache := by
  cases he with
  | same => exact h
  | reread => exact h
  | wrote stored hw => exact fun _ hm => absurd hm hstamp

theorem Calls.wellformed (hempty : valid "" = false) (h : Calls valid P v ops v')
    (hw : Wellformed valid v.file.entries) : Wellformed valid v'.file.entries := by
  induction h with
  | nil v => exact hw
  | cons _ _ ih => exact ih ((op_effect hempty hw _).wellformed hw)

theorem Calls.status (hempty : valid "" = false) (h : Calls valid P v ops v')
    (hw : Wellformed valid v.file.entries) :
    status anchor v'.file.entries = acts valid anchor ops (status anchor v.file.entries) := by
  induction h with
  | nil v => rfl
  | cons _ _ ih => rw [ih ((op_effect hempty hw _).wellformed hw), op_status hw, acts_cons]

theorem Calls.own (hempty : valid "" = false) (h : Calls valid P v ops v')
    (hw : Wellformed valid v.file.entries) (hs : Snapshot valid v.file v.cache) :
    Snapshot valid v'.file v'.cache := by
  induction h with
  | nil v => exact hs
  | cons _ _ ih =>
    exact ih ((op_effect hempty hw _).wellformed hw) ((op_effect hempty hw _).own hs)

theorem Calls.other (hempty : valid "" = false) (hP : ∀ stamp, P stamp → cache.mtime ≠ some stamp)
    (h : Calls valid P v ops v') (hw : Wellformed valid v.file.entries)
    (hs : Snapshot valid v.file cache) : Snapshot valid v'.file cache := by
  induction h with
  | nil v => exact hs
  | cons hstamp _ ih =>
    exact ih ((op_effect hempty hw _).wellformed hw)
      ((op_effect hempty hw _).other (hP _ hstamp) hs)

/-! ### Where the disk works -/

theorem readEntriesStrict_io (h : io.healthy = true) (file : File) :
    readEntriesStrict io file = readEntriesStrict {} file := by
  unfold readEntriesStrict
  rw [(Io.healthy_iff.mp h).2.1]

theorem record_io (h : io.healthy = true) (closedAt : Time) (a closedBy : String) (pending : Bool) :
    Threads.record valid io stamp closedAt a closedBy pending v =
      Threads.record valid {} stamp closedAt a closedBy pending v := by
  unfold Threads.record
  rw [(Io.healthy_iff.mp h).1, (Io.healthy_iff.mp h).2.2, readEntriesStrict_io h]

theorem rewrite_io (h : io.healthy = true) (a : String) (drop promote : Bool) :
    rewrite valid io stamp a drop promote v = rewrite valid {} stamp a drop promote v := by
  unfold rewrite
  rw [(Io.healthy_iff.mp h).1, (Io.healthy_iff.mp h).2.2, readEntriesStrict_io h]

theorem withdraw_io (h : io.healthy = true) (a : String) :
    Threads.withdraw valid io stamp a v = (Op.withdraw a).run valid stamp v :=
  congrArg Prod.snd (rewrite_io h a true false)

theorem promote_io (h : io.healthy = true) (a : String) :
    Threads.promote valid io stamp a v = (Op.promote a).run valid stamp v :=
  congrArg Prod.snd (rewrite_io h a false true)

theorem isClosed_io (h : io.healthy = true) (a : Option String) :
    Threads.isClosed valid io a v = Threads.isClosed valid {} a v := by
  unfold Threads.isClosed
  rw [(Io.healthy_iff.mp h).1, readEntriesStrict_io h]

end Threads

open Threads

variable {env : Env} {mail : Mail} {args kwargs extra item : List (String × Json)} {w w' : World}
  {resp : Response} {valid : TokenRule} {P : Time → Prop} {anchor self : String}

/-- The registry works in every access of the call, and the validator takes the sender's name. -/
structure Env.Works (env : Env) (valid : TokenRule) : Prop where
  rule : env.valid = valid
  closedIo : env.closedIo.healthy = true
  record : env.record.io.healthy = true
  withdraw : env.withdraw.io.healthy = true
  promote : env.promote.io.healthy = true
  self : ∀ self, validateAgentName env.repr env.selfName = .ok self → valid self = true

/-- The mtimes of the writes. -/
def Env.stamps (env : Env) : List Time := [env.record.stamp, env.withdraw.stamp, env.promote.stamp]

/-! ## The send -/

/-- A message on its way: what is left of the call is the delivery and what follows it. -/
structure Sending where
  mail : Mail
  held : Bool
  padded : String
  url : String

/-- `handle_mesh_send` up to the delivery, or what the call returned before it. -/
def beginSend (env : Env) (args kwargs : List (String × Json)) (w : World) :
    (Except PyError Response ⊕ Sending) × World :=
  match prepare env args kwargs w with
  | (.error stop, w) => (.inl stop.result, w)
  | (.ok mail, w) =>
    match gate env mail w with
    | (.error refusal, w) => (.inl (.ok refusal), w)
    | (.ok held, w) =>
      match sessions env mail with
      | .error stop => (.inl stop.result, w)
      | .ok (session, fromSession) =>
        match env.target mail.agent with
        | .error e => (.inl (.error e), w)
        | .ok (.error text) => ((unresolved env mail text w).map .inl id)
        | .ok (.ok url) =>
          match resolveSender env.privateKey mail.self with
          | .error text => ((unresolved env mail text w).map .inl id)
          | .ok _ =>
            match recordPending env mail w with
            | (.error e, w) => (.inl (.error e), w)
            | (.ok (), w) => (.inr ⟨mail, held, mail.padded session fromSession, url⟩, w)

/-- The delivery, and the rest of `handle_mesh_send`. -/
def settleSend (env : Env) (sending : Sending) (w : World) : Except PyError Response × World :=
  let ⟨mail, held, padded, url⟩ := sending
  match deliver env env.net env.signature (env.wire mail padded url) w with
  | (.error e, w) => (.error e, w)
  | (.ok d, w) =>
    if d.deliveryId.isSome then delivered env mail padded d.deliveryId w
    else
      let w := { w with metrics := ("send", "failed") :: w.metrics }
      let w := withdrawPending env mail w
      if env.outboxEnabled then queued env mail padded w else failed env mail held d.reason w

/-- What has to be so where a call comes to its delivery. -/
theorem beginSend_sending {sending : Sending} (h : beginSend env args kwargs w = (.inr sending, w')) :
    ∃ w₀ held w₁, prepare env args kwargs w = (.ok sending.mail, w₀) ∧
      gate env sending.mail w₀ = (.ok held, w₁) ∧
      recordPending env sending.mail w₁ = (.ok (), w') := by
  unfold beginSend at h
  generalize hprep : prepare env args kwargs w = p at h
  obtain ⟨stop | mail, w₀⟩ := p
  · cases h
  dsimp only at h
  generalize hgate : gate env mail w₀ = g at h
  obtain ⟨refusal | held, w₁⟩ := g
  · cases h
  dsimp only at h
  generalize sessions env mail = found at h
  obtain stop | ⟨session, fromSession⟩ := found
  · cases h
  dsimp only at h
  generalize env.target mail.agent = target at h
  obtain e | text | url := target
  · cases (Prod.mk.inj h).1
  · cases (Prod.mk.inj h).1
  dsimp only at h
  generalize resolveSender env.privateKey mail.self = sender at h
  obtain text | key := sender
  · cases (Prod.mk.inj h).1
  dsimp only at h
  generalize hrec : recordPending env mail w₁ = r at h
  obtain ⟨e | _, w₂⟩ := r
  · cases h
  obtain ⟨hsending, rfl⟩ := Prod.mk.inj h
  obtain rfl := Sum.inr.inj hsending
  exact ⟨w₀, held, w₁, rfl, hgate, hrec⟩

/-! ### The registry calls of a send -/

theorem prepare_calls (hworks : env.Works valid) (hP : ∀ stamp ∈ env.stamps, P stamp) {w₀ : World}
    (h : prepare env args kwargs w = (.ok mail, w₀)) :
    ∃ ref, Calls valid P w.closed [.isClosed ref] w₀.closed := by
  unfold prepare at h
  cases hread : readArgs env args kwargs with
  | error stop =>
    rw [hread] at h
    cases h
  | ok draft =>
    rw [hread] at h
    dsimp only at h
    split_ifs at h
    · cases h
    · obtain ⟨-, rfl⟩ := Prod.mk.inj h
      refine ⟨draft.ref, ?_⟩
      dsimp only
      rw [hworks.rule, isClosed_io hworks.closedIo]
      exact .one (hP _ (List.mem_cons_self ..))

theorem gate_closed (env : Env) (mail : Mail) (w : World) :
    (gate env mail w).2.closed = w.closed := by
  unfold gate
  cases mail.reply with
  | no => rfl
  | end_ => rfl
  | yes =>
    dsimp only
    split_ifs
    · rfl
    · split <;> rfl

/-- The pending close is recorded. -/
theorem recordPending_calls (hworks : env.Works valid) (hP : ∀ stamp ∈ env.stamps, P stamp)
    (hend : mail.reply = .end_) (h : recordPending env mail w = (.ok (), w')) :
    Calls valid P w.closed [.record env.record.closedAt mail.taskId mail.self true] w'.closed := by
  unfold recordPending at h
  rw [hend] at h
  dsimp only at h
  have hclosed : w'.closed = (Threads.record env.valid env.record.io env.record.stamp
      env.record.closedAt mail.taskId mail.self true w.closed).2 := by
    split at h <;> cases h <;> rfl
  rw [hclosed, hworks.rule, record_io hworks.record]
  exact .one (hP _ (List.mem_cons_self ..))

/-- A terminator that comes to its delivery has looked at its reference and recorded its close. -/
theorem beginSend_calls (hworks : env.Works valid) (hP : ∀ stamp ∈ env.stamps, P stamp)
    {sending : Sending} (hend : sending.mail.reply = .end_)
    (h : beginSend env args kwargs w = (.inr sending, w')) :
    ∃ ref, Calls valid P w.closed [.isClosed ref,
      .record env.record.closedAt sending.mail.taskId sending.mail.self true] w'.closed := by
  obtain ⟨w₀, held, w₁, hprep, hgate, hrec⟩ := beginSend_sending h
  obtain ⟨ref, hcalls⟩ := prepare_calls hworks hP hprep
  have hsame : w₁.closed = w₀.closed := by
    rw [← gate_closed env sending.mail w₀, hgate]
  rw [← hsame] at hcalls
  exact ⟨ref, hcalls.append (recordPending_calls hworks hP hend hrec)⟩

theorem deliver_closed (env : Env) (net : Net) (signature : Except PyError String) (wire : Wire)
    (w : World) : (deliver env net signature wire w).2.closed = w.closed := by
  unfold deliver
  dsimp only
  cases env.post net signature wire.url <;> dsimp only <;> split_ifs <;> rfl

theorem queueMessage_closed {uuid : Outbox.Uuid} {fromAgent toAgent text : String}
    {ref anchor : Option String} {isDsn : Bool} :
    (queueMessage env uuid fromAgent toAgent text ref isDsn anchor w).2.closed = w.closed := by
  unfold queueMessage
  cases env.queueFault <;> rfl

theorem sendDeliveryError_closed {dsnFrom dsnTo originalId reason originalFrom originalTo : String} :
    (sendDeliveryError env dsnFrom dsnTo originalId reason originalFrom originalTo w).2.closed =
      w.closed := by
  unfold sendDeliveryError
  dsimp only
  split
  · rfl
  · split
    · split
      · rfl
      · generalize hd : deliver env env.dsnNet env.dsnSignature _ w = d
        have hclosed : d.2.closed = w.closed := by rw [← hd, deliver_closed]
        split
        · exact hclosed
        · split
          · exact queueMessage_closed.trans hclosed
          · exact hclosed
      · rfl
    · rfl

theorem queued_closed (env : Env) (mail : Mail) (padded : String) (w : World) :
    (queued env mail padded w).2.closed = w.closed := by
  unfold queued queueMessage
  cases env.queueFault <;> rfl

/-- A send that queues its terminator has withdrawn the close, and the item carries the anchor. -/
theorem settleSend_queued (hworks : env.Works valid) (hP : ∀ stamp ∈ env.stamps, P stamp)
    {sending : Sending} (hend : sending.mail.reply = .end_)
    (h : settleSend env sending w = (.ok resp, w')) (hstate : resp.state = some "queued") :
    Calls valid P w.closed [.withdraw sending.mail.taskId] w'.closed ∧
      w'.outbox.head? = some (env.queuedItem sending.mail sending.padded) := by
  obtain ⟨mail, held, padded, url⟩ := sending
  have hclosed := deliver_closed env env.net env.signature (env.wire mail padded url) w
  unfold settleSend at h
  dsimp only at h hend ⊢
  generalize deliver env env.net env.signature (env.wire mail padded url) w = r at h hclosed
  obtain ⟨e | d, w₁⟩ := r
  · cases h
  dsimp only at h hclosed
  rw [← hclosed]
  split_ifs at h
  · rw [delivered_state (congrArg Prod.fst h)] at hstate
    exact absurd (Option.some.inj hstate) (by decide)
  · have hafter := queued_closed env mail padded
      (withdrawPending env mail { w₁ with metrics := ("send", "failed") :: w₁.metrics })
    rw [h] at hafter
    refine ⟨?_, ?_⟩
    · rw [show w'.closed = _ from hafter]
      unfold withdrawPending
      rw [hend]
      dsimp only
      rw [hworks.rule, withdraw_io hworks.withdraw]
      exact .one (hP _ (List.mem_cons_of_mem _ (List.mem_cons_self ..)))
    · rw [(queued_outbox h).1]
      rfl
  · rw [failed_state (congrArg Prod.fst h)] at hstate
    cases hstate

/-! ## The turn of a file -/

namespace Retry

/-- How the turn of an item begins. -/
inductive TurnBegun where
  | over (turn : Turn)
  /-- The delivery of the attempt is about to be called. -/
  | calling (count : ℚ) (p : Posting)

/-- The turn up to the delivery. -/
def Sweep.beginTurn (s : Sweep) (m : Meets) (item : List (String × Json)) (w : World) :
    TurnBegun × World :=
  match number (nextRetry item) with
  | .error e => (.over (.raised e), w)
  | .ok due =>
    if s.now < due then (.over .skipped, w)
    else
      match number (attemptOf item) with
      | .error e => (.over (.raised e), w)
      | .ok count =>
        match beginAttempt m.env s.extra (counted count item) w with
        | (.raised e, w) => (.over (.raised e), w)
        | (.dropped, w) => (.over .removed, w)
        | (.unresolved, w) => (s.finish m (counted count item) (count + 1) false w).map .over id
        | (.posting p, w) => (.calling count p, w)

/-- The delivery, and the rest of the turn. -/
def Sweep.settleTurn (s : Sweep) (m : Meets) (item : List (String × Json)) (count : ℚ) (p : Posting)
    (w : World) : Turn × World :=
  match settleAttempt m.env p.anchor (p.deliver m.env) w with
  | (.error e, w) => (.raised e, w)
  | (.ok done, w) => s.finish m (counted count item) (count + 1) done w

/-- The two halves are the turn. -/
theorem turn_eq (s : Sweep) (m : Meets) :
    s.turn m (.json (.obj item)) w =
      match s.beginTurn m item w with
      | (.over turn, w) => (turn, w)
      | (.calling count p, w) => s.settleTurn m item count p w := by
  unfold Sweep.turn Sweep.beginTurn
  dsimp only
  obtain e | due := number (nextRetry item)
  · rfl
  dsimp only
  split_ifs
  · rfl
  obtain e | count := number (attemptOf item)
  · rfl
  dsimp only
  unfold attemptItem
  generalize beginAttempt m.env s.extra (counted count item) w = b
  obtain ⟨e | - | - | p, w⟩ := b <;> rfl

/-! ### The registry calls of a turn -/

/-- The registry works in every access of the turn. -/
structure Meets.Works (m : Meets) (valid : TokenRule) : Prop where
  env : m.env.Works valid
  deadWithdraw : m.deadWithdraw.io.healthy = true

/-- The mtimes of the writes. -/
def Meets.stamps (m : Meets) : List Time := m.deadWithdraw.stamp :: m.env.stamps

/-- The item is that of the terminator: it carries the anchor, and a sender that the validator
takes. -/
structure ItemOf (valid : TokenRule) (anchor : String) (item : List (String × Json)) : Prop where
  anchor : Json.get "anchor" item = .str anchor
  sender : ∃ self, Json.get "from" item = .str self ∧ valid self = true

variable {s : Sweep} {m : Meets} {meets : Stamped} {count : ℚ} {p : Posting} {turn : Turn}

theorem ItemOf.setField {key : String} {value : Json} (h : ItemOf valid anchor item)
    (hanchor : "anchor" ≠ key) (hfrom : "from" ≠ key) :
    ItemOf valid anchor (setField key value item) := by
  obtain ⟨self, hself, hvalid⟩ := h.sender
  refine ⟨?_, self, ?_, hvalid⟩
  · rw [get_setField_of_ne hanchor, h.anchor]
  · rw [get_setField_of_ne hfrom, hself]

theorem ItemOf.counted (h : ItemOf valid anchor item) (count : ℚ) :
    ItemOf valid anchor (counted count item) :=
  h.setField (by decide) (by decide)

theorem anchor_truthy (hempty : valid "" = false) (hanchor : valid anchor = true) :
    (Json.str anchor).truthy = true := by
  apply decide_eq_true
  rintro rfl
  rw [hempty] at hanchor
  cases hanchor

theorem token_valid {token : String} (hrule : env.valid = valid) (h : valid token = true) :
    env.token (.str token) = .ok token :=
  validateEnvelopeToken_ok (hrule ▸ h)

/-- What is done to the log for an anchor that is there and valid is done for that anchor. -/
theorem anchored_closed (hrule : env.valid = valid) (hempty : valid "" = false)
    (hanchor : valid anchor = true) (act : String → Threads.View → Threads.View) :
    (if (Json.str anchor).truthy then
      match env.token (.str anchor) with
      | .ok anchor => { w with closed := act anchor w.closed }
      | .error _ => w
    else w).closed = act anchor w.closed := by
  rw [if_pos (anchor_truthy hempty hanchor), token_valid hrule hanchor]

theorem withdrawAnchor_calls (hrule : env.valid = valid) (hempty : valid "" = false)
    (hanchor : valid anchor = true) (hio : meets.io.healthy = true) (hstamp : P meets.stamp) :
    Calls valid P w.closed [.withdraw anchor]
      (withdrawAnchor env meets (.str anchor) w).closed := by
  have hclosed : (withdrawAnchor env meets (.str anchor) w).closed = _ :=
    anchored_closed hrule hempty hanchor (Threads.withdraw env.valid meets.io meets.stamp)
  rw [hclosed, hrule, withdraw_io hio]
  exact .one hstamp

theorem promoteAnchor_calls (hrule : env.valid = valid) (hempty : valid "" = false)
    (hanchor : valid anchor = true) (hio : env.promote.io.healthy = true)
    (hstamp : P env.promote.stamp) :
    Calls valid P w.closed [.promote anchor] (promoteAnchor env (.str anchor) w).closed := by
  have hclosed : (promoteAnchor env (.str anchor) w).closed = _ :=
    anchored_closed hrule hempty hanchor (Threads.promote env.valid env.promote.io env.promote.stamp)
  rw [hclosed, hrule, promote_io hio]
  exact .one hstamp

/-- The pending close is recorded again. -/
theorem pendAnchor_calls (hworks : env.Works valid) (hempty : valid "" = false)
    (hanchor : valid anchor = true) (hself : valid self = true) (hstamp : P env.record.stamp)
    (hw : Wellformed valid w.closed.file.entries) :
    (pendAnchor env (.str anchor) (.str self) w).1 = .ok () ∧
      Calls valid P w.closed [.record env.record.closedAt anchor self true]
        (pendAnchor env (.str anchor) (.str self) w).2.closed := by
  have hrecord : recordValues env (.str anchor) (.str self) w.closed =
      (.ok (), (Op.record env.record.closedAt anchor self true).run valid env.record.stamp
        w.closed) := by
    unfold recordValues
    rw [token_valid hworks.rule hanchor, token_valid hworks.rule hself]
    dsimp only
    rw [hworks.rule, record_io hworks.record]
    refine Prod.ext ?_ rfl
    rw [record_valid hw hanchor hself]
  unfold pendAnchor
  rw [if_pos (anchor_truthy hempty hanchor), hrecord]
  exact ⟨rfl, .one hstamp⟩

/-- The check of the reference only reads. -/
theorem checkRef_calls (item : List (String × Json)) (w : World) (hworks : env.Works valid)
    (hstamp : P env.record.stamp) :
    ∃ ops, Calls valid P w.closed ops (checkRef env item w).2.closed ∧
      ∀ st, acts valid anchor ops st = st := by
  have hread : ∀ a, Calls valid P w.closed [.isClosed a]
      (Threads.isClosed env.valid env.closedIo a w.closed).2 := by
    intro a
    rw [hworks.rule, isClosed_io hworks.closedIo]
    exact .one hstamp
  unfold checkRef
  dsimp only
  split_ifs
  · unfold isClosedValue
    cases Json.get "ref" item with
    | null => exact ⟨[], .nil _, fun _ => rfl⟩
    | str a => exact ⟨_, hread (some a), fun _ => rfl⟩
    | bool _ | num _ | arr _ | obj _ => exact ⟨_, hread (some ""), fun _ => rfl⟩
  · exact ⟨[], .nil _, fun _ => rfl⟩

theorem notify_closed : (m.notify item w).closed = w.closed := by
  unfold Meets.notify
  split_ifs
  · rfl
  · split
    · rfl
    · exact sendDeliveryError_closed

/-- The attempt has failed: the item waits as it was counted, or it is dead, its close withdrawn once
more. -/
theorem finish_calls (s : Sweep) (attempt : ℚ) (w : World) (hworks : m.Works valid)
    (hempty : valid "" = false) (hanchor : valid anchor = true)
    (hP : ∀ stamp ∈ m.stamps, P stamp) (hitem : ItemOf valid anchor item) :
    (∃ ops, Calls valid P w.closed ops (s.finish m item attempt false w).2.closed ∧
      acts valid anchor ops .open_ = .open_) ∧
    (s.finish m item attempt false w).1 ≠ .removed ∧
    ∀ item', (s.finish m item attempt false w).1 = .postponed item' → ItemOf valid anchor item' := by
  unfold Sweep.finish
  rw [if_neg Bool.false_ne_true]
  split_ifs
  · refine ⟨⟨[.withdraw anchor], ?_, by simp [Op.act]⟩, by simp, by simp⟩
    unfold Meets.deadLetter
    dsimp only
    rw [notify_closed, hitem.anchor]
    exact withdrawAnchor_calls hworks.env.rule hempty hanchor hworks.deadWithdraw
      (hP _ (List.mem_cons_self ..))
  · cases s.delay (attempt - 1) with
    | error e => exact ⟨⟨[], .nil _, rfl⟩, by simp, by simp⟩
    | ok delay =>
      refine ⟨⟨[], .nil _, rfl⟩, by simp, ?_⟩
      intro item' hitem'
      obtain rfl := Turn.postponed.inj hitem'
      exact hitem.setField (by decide) (by decide)

/-- The call of an item names its sender and its anchor. -/
theorem resolveItem_posting (h : resolveItem env extra item = .ok (some p)) :
    p.sender = Json.get "from" item ∧ p.anchor = Json.get "anchor" item := by
  obtain ⟨from_, hfrom, h⟩ := bind_ok h
  obtain ⟨to_, -, h⟩ := bind_ok h
  obtain ⟨envelope, -, h⟩ := bind_ok h
  obtain ⟨target, -, h⟩ := bind_ok h
  have hpost : postingOf env extra item from_ envelope target = some p := Except.ok.inj h
  have hget : Json.get "from" item = from_ := by
    unfold itemField at hfrom
    unfold Json.get
    cases hlookup : item.lookup "from" with
    | none =>
      rw [hlookup] at hfrom
      cases hfrom
    | some v =>
      rw [hlookup] at hfrom
      exact Except.ok.inj hfrom
  unfold postingOf at hpost
  split at hpost
  · obtain rfl := Option.some.inj hpost
    exact ⟨hget.symm, rfl⟩
  · cases hpost

/-- What an attempt does before its delivery: nothing to an open anchor, unless the delivery follows,
and then its close is pending. -/
theorem beginAttempt_calls (extra : List (String × Json)) (hworks : env.Works valid)
    (hempty : valid "" = false) (hanchor : valid anchor = true) (hP : ∀ stamp ∈ env.stamps, P stamp)
    (hitem : ItemOf valid anchor item) (hw : Wellformed valid w.closed.file.entries) :
    ∃ ops, Calls valid P w.closed ops (beginAttempt env extra item w).2.closed ∧
      match (beginAttempt env extra item w).1 with
      | .posting p => p.anchor = .str anchor ∧ acts valid anchor ops .open_ = .pending
      | _ => acts valid anchor ops .open_ = .open_ := by
  have hrecordP : P env.record.stamp := hP _ (by simp [Env.stamps])
  have hwithdrawP : P env.withdraw.stamp := hP _ (by simp [Env.stamps])
  have hwithdraw : ∀ w₁ : World, Calls valid P w₁.closed [.withdraw anchor]
      (withdrawAnchor env env.withdraw (Json.get "anchor" item) w₁).closed := by
    intro w₁
    rw [hitem.anchor]
    exact withdrawAnchor_calls hworks.rule hempty hanchor hworks.withdraw hwithdrawP
  obtain ⟨self, hself, hvalid⟩ := hitem.sender
  obtain ⟨ops, hcalls, hacts⟩ : ∃ ops, Calls valid P w.closed ops (checkRef env item w).2.closed ∧
      ∀ st, acts valid anchor ops st = st := checkRef_calls item w hworks hrecordP
  have hopen : acts valid anchor (ops ++ [.withdraw anchor]) .open_ = .open_ := by
    simp [hacts, Op.act]
  have hpend : ∀ {p : Posting} {w₁ : World}, resolveItem env extra item = .ok (some p) →
      Wellformed valid w₁.closed.file.entries →
      (pendAnchor env (Json.get "anchor" item) p.sender w₁).1 = .ok () ∧
        Calls valid P w₁.closed [.record env.record.closedAt anchor self true]
          (pendAnchor env (Json.get "anchor" item) p.sender w₁).2.closed := by
    intro p w₁ hresolve hw₁
    rw [(resolveItem_posting hresolve).1, hself, hitem.anchor]
    exact pendAnchor_calls hworks hempty hanchor hvalid hrecordP hw₁
  have hbegins := beginAttempt_begins env extra item w
  generalize beginAttempt env extra item w = b at hbegins
  cases hbegins with
  | refRaised hcheck =>
    rw [hcheck] at hcalls
    exact ⟨ops, hcalls, hacts _⟩
  | dropped hcheck =>
    rw [hcheck] at hcalls
    exact ⟨_, hcalls.append (hwithdraw _), hopen⟩
  | itemRaised hcheck _ =>
    rw [hcheck] at hcalls
    exact ⟨ops, hcalls, hacts _⟩
  | unresolved hcheck _ =>
    rw [hcheck] at hcalls
    exact ⟨_, hcalls.append (hwithdraw _), hopen⟩
  | pendRaised hcheck hresolve hraised =>
    rw [hcheck] at hcalls
    have hok := (hpend hresolve (hcalls.wellformed hempty hw)).1
    rw [hraised] at hok
    cases hok
  | posting hcheck hresolve hrecorded =>
    rw [hcheck] at hcalls
    have hrecord := (hpend hresolve (hcalls.wellformed hempty hw)).2
    rw [hrecorded] at hrecord
    refine ⟨_, hcalls.append hrecord, (resolveItem_posting hresolve).2.trans hitem.anchor, ?_⟩
    simp [hacts, Op.act, hanchor, hvalid]

/-- What a turn does before its delivery. -/
theorem beginTurn_calls (s : Sweep) (hworks : m.Works valid) (hempty : valid "" = false)
    (hanchor : valid anchor = true) (hP : ∀ stamp ∈ m.stamps, P stamp)
    (hitem : ItemOf valid anchor item) (hw : Wellformed valid w.closed.file.entries) :
    ∃ ops, Calls valid P w.closed ops (s.beginTurn m item w).2.closed ∧
      match (s.beginTurn m item w).1 with
      | .calling _ p => p.anchor = .str anchor ∧ acts valid anchor ops .open_ = .pending
      | .over turn => acts valid anchor ops .open_ = .open_ ∧
          ∀ item', turn = .postponed item' → ItemOf valid anchor item' := by
  unfold Sweep.beginTurn
  cases number (nextRetry item) with
  | error e => exact ⟨[], .nil _, rfl, by simp⟩
  | ok due =>
    dsimp only
    split_ifs
    · exact ⟨[], .nil _, rfl, by simp⟩
    · cases number (attemptOf item) with
      | error e => exact ⟨[], .nil _, rfl, by simp⟩
      | ok count =>
        obtain ⟨ops, hcalls, hacts⟩ := beginAttempt_calls s.extra hworks.env hempty hanchor
          (fun stamp hstamp => hP stamp (List.mem_cons_of_mem _ hstamp))
          (hitem.counted count) hw
        dsimp only
        generalize beginAttempt m.env s.extra (counted count item) w = b at hcalls hacts
        obtain ⟨e | - | - | p, w₁⟩ := b
        · exact ⟨ops, hcalls, hacts, by simp⟩
        · exact ⟨ops, hcalls, hacts, by simp⟩
        · obtain ⟨⟨ops', hcalls', hacts'⟩, -, hpostponed⟩ := finish_calls s (count + 1) w₁ hworks
            hempty hanchor hP (hitem.counted count)
          refine ⟨ops ++ ops', hcalls.append hcalls', ?_, hpostponed⟩
          rw [acts_append, hacts, hacts']
        · exact ⟨ops, hcalls, hacts⟩

/-- What a turn does with its delivery: it confirms the close, or takes it back. -/
theorem settleTurn_calls (s : Sweep) (count : ℚ) (w : World) (hworks : m.Works valid) (hempty : valid "" = false)
    (hanchor : valid anchor = true) (hP : ∀ stamp ∈ m.stamps, P stamp)
    (hitem : ItemOf valid anchor item) (hp : p.anchor = .str anchor) :
    ∃ ops, Calls valid P w.closed ops (s.settleTurn m item count p w).2.closed ∧
      ((s.settleTurn m item count p w).1 = .removed ∧ acts valid anchor ops .pending = .closed ∨
        (s.settleTurn m item count p w).1 ≠ .removed ∧ acts valid anchor ops .pending = .open_ ∧
          ∀ item', (s.settleTurn m item count p w).1 = .postponed item' →
            ItemOf valid anchor item') := by
  have hwithdraw : ∀ w₁ : World, Calls valid P w₁.closed [.withdraw anchor]
      (withdrawAnchor m.env m.env.withdraw (.str anchor) w₁).closed := fun w₁ =>
    withdrawAnchor_calls hworks.env.rule hempty hanchor hworks.env.withdraw
      (hP _ (by simp [Meets.stamps, Env.stamps]))
  have hpromote : ∀ w₁ : World, Calls valid P w₁.closed [.promote anchor]
      (promoteAnchor m.env (.str anchor) w₁).closed := fun w₁ =>
    promoteAnchor_calls hworks.env.rule hempty hanchor hworks.env.promote
      (hP _ (by simp [Meets.stamps, Env.stamps]))
  have hopen : acts valid anchor [.withdraw anchor] .pending = .open_ := by simp [Op.act]
  unfold Sweep.settleTurn settleAttempt
  rw [hp]
  cases p.deliver m.env with
  | error e => exact ⟨_, hwithdraw w, .inr ⟨by simp, hopen, by simp⟩⟩
  | ok d =>
    dsimp only
    split_ifs
    · refine ⟨[.promote anchor], ?_, .inl ⟨rfl, by simp [Op.act]⟩⟩
      exact hpromote { w with metrics := d.metrics.map ("send", ·) ++ w.metrics }
    · obtain ⟨⟨ops, hcalls, hacts⟩, hkept, hpostponed⟩ := finish_calls s (count + 1)
        (withdrawAnchor m.env m.env.withdraw (.str anchor)
          { w with metrics := d.metrics.map ("send", ·) ++ w.metrics })
        hworks hempty hanchor hP (hitem.counted count)
      refine ⟨[.withdraw anchor] ++ ops, (hwithdraw _).append hcalls, .inr ⟨hkept, ?_, hpostponed⟩⟩
      rw [acts_append, hopen, hacts]

end Retry

end HermesMesh
