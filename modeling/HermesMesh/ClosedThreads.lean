import HermesMesh.DeliveryCalls
import HermesMesh.IntakeSafety
import HermesMesh.IntakeStores

/-!
# A terminated thread

The closed-thread guard of the intake answers from a registry that other processes write too, and the
intake writes it when it takes in a terminator. What any step does to the registry is a list of its
calls, of this process or of another (`step_calls`), and no call opens a closed anchor again. So a
thread whose terminator was taken in stays silent: of the messages that refer to it, only notices and
further terminators are taken in after that (`terminated_thread_silent`).
-/

namespace HermesMesh.Intake

open Lib
open Threads (Calls Op Wellformed Snapshot acts status)

variable {cfg : Config} {kit : Kit} {meets : Meets} {p : Pending} {parsed : Parsed}
  {s t u : Adapter} {e : Event} {conn : ℕ} {valid : TokenRule} {P : Time → Prop} {anchor : String}
  {v v' : Threads.View} {ops : List Op}

/-- The log is well formed, and the snapshot holds its anchors where it is current. -/
structure InOrder (valid : TokenRule) (v : Threads.View) : Prop where
  wellformed : Wellformed valid v.file.entries
  snapshot : Snapshot valid v.file v.cache

/-- The disk works under the registry, and another process changes it by calls of its own, no write of
which gets the mtime that this process's snapshot carries. -/
def Works (kit : Kit) (s : Adapter) : Event → Prop
  | .resume _ meets => meets.closedIo.healthy = true ∧ meets.record.io.healthy = true
  | .closedElsewhere file => ∃ cache cache' ops,
      Calls kit.valid (fun stamp => s.closed.cache.mtime ≠ some stamp) ⟨s.closed.file, cache⟩ ops
        ⟨file, cache'⟩
  | _ => True

theorem InOrder.calls (hempty : valid "" = false) (h : InOrder valid v)
    (hcalls : Calls valid P v ops v') : InOrder valid v' :=
  ⟨hcalls.wellformed hempty h.wellformed, hcalls.own hempty h.wellformed h.snapshot⟩

/-- No call opens a closed anchor again. -/
@[simp] theorem acts_closed : acts valid anchor ops .closed = .closed := by
  induction ops with
  | nil => rfl
  | cons op ops ih =>
    have hact : op.act valid anchor .closed = .closed := by
      cases op <;> simp [Op.act]
    rw [Threads.acts_cons, hact, ih]

/-! ## The calls of a step -/

/-- The screen asks the registry, or does not. -/
theorem screen_calls (cfg : Config) (kit : Kit) (p : Pending) (s : Adapter)
    (hio : meets.closedIo.healthy = true) :
    ∃ ops, Calls kit.valid (fun _ => True) s.closed ops (screen cfg kit meets p s).2.closed := by
  have hnone : ∃ ops, Calls kit.valid (fun _ => True) s.closed ops s.closed := ⟨[], .nil _⟩
  unfold screen
  split
  · exact hnone
  · rename_i parsed _
    have hasks : ∃ ops, Calls kit.valid (fun _ => True) s.closed ops
        (Threads.isClosed kit.valid meets.closedIo parsed.ref s.closed).2 := by
      refine ⟨[.isClosed parsed.ref], ?_⟩
      rw [Threads.isClosed_io hio]
      have hcall : Calls kit.valid (fun _ => True) s.closed [.isClosed parsed.ref]
        ((Op.isClosed parsed.ref).run kit.valid 0 s.closed) := .one trivial
      exact hcall
    dsimp only
    split_ifs
    all_goals first | exact hnone | exact hasks

/-- A terminator records its anchor. -/
theorem recordAnchor_closed (parsed : Parsed) (s : Adapter) (hio : meets.record.io.healthy = true) :
    (recordAnchor kit meets parsed s).2.closed =
      if parsed.reply = .end_ then
        (Op.record meets.record.closedAt parsed.msgId parsed.sender false).run kit.valid
          meets.record.stamp s.closed
      else s.closed := by
  unfold recordAnchor
  split
  · rename_i hend
    rw [if_pos hend, Threads.record_io hio]
    dsimp only
    split <;> rfl
  · rename_i hne
    rw [if_neg hne]

theorem enqueue_closed (cfg : Config) (kit : Kit) (meets : Meets) (p : Pending) (parsed : Parsed)
    (s : Adapter) :
    (enqueue cfg kit meets p parsed s).2.closed =
      if (s.seen.lookup parsed.msgId).isSome then s.closed
      else (recordAnchor kit meets parsed s).2.closed := by
  unfold enqueue
  split_ifs
  · rfl
  · obtain ⟨_ | ⟨⟩, s'⟩ := recordAnchor kit meets parsed s
    · rfl
    · dsimp only
      cases buildEvent cfg kit parsed with
      | error e => rfl
      | ok event =>
        dsimp only
        split_ifs <;> rfl

theorem takeIn_calls (cfg : Config) (p : Pending) (s : Adapter)
    (hclosedIo : meets.closedIo.healthy = true) (hrecordIo : meets.record.io.healthy = true) :
    ∃ ops, Calls kit.valid (fun _ => True) s.closed ops (takeIn cfg kit meets p s).2.closed := by
  obtain ⟨ops, hcalls⟩ := screen_calls cfg kit p s hclosedIo
  unfold takeIn
  generalize screen cfg kit meets p s = screened at hcalls
  obtain ⟨answer | parsed, s'⟩ := screened
  · exact ⟨ops, hcalls⟩
  · dsimp only at hcalls ⊢
    rw [enqueue_closed, recordAnchor_closed parsed s' hrecordIo]
    split_ifs
    · exact ⟨ops, hcalls⟩
    · exact ⟨_, hcalls.append (.one trivial)⟩
    · exact ⟨ops, hcalls⟩

/-- **One step, the registry.** It makes calls of this process, or another process makes its own. -/
theorem step_calls (hworks : Works kit s e) (hstep : step cfg kit s e = some t) :
    (∃ ops, Calls kit.valid (fun _ => True) s.closed ops t.closed) ∨
      t.closed.cache = s.closed.cache ∧ ∃ cache cache' ops,
        Calls kit.valid (fun stamp => s.closed.cache.mtime ≠ some stamp) ⟨s.closed.file, cache⟩ ops
          ⟨t.closed.file, cache'⟩ := by
  cases e with
  | arrive conn request publicKey now =>
    rcases (step_arrive hstep).2 with ⟨p, -, rfl⟩ | ⟨answer, -, rfl⟩
    · exact .inl ⟨[], .nil _⟩
    · exact .inl ⟨[], .nil _⟩
  | resume conn meets =>
    obtain ⟨p, hp, hstep⟩ := Option.bind_eq_some_iff.mp hstep
    split_ifs at hstep
    obtain rfl := Option.some.inj hstep
    by_cases hpass : p.passes kit
    · rw [resume_passes hpass]
      exact .inl (takeIn_calls cfg p { s with clock := meets.sweptAt } hworks.1 hworks.2)
    · obtain ⟨answers, waits, -, -, heq⟩ := resume_fails cfg conn meets
        { s with clock := meets.sweptAt } hpass
      rw [heq]
      exact .inl ⟨[], .nil _⟩
  | take =>
    obtain rfl := Option.some.inj hstep
    exact .inl ⟨[], .nil _⟩
  | closedElsewhere file =>
    obtain rfl := Option.some.inj hstep
    exact .inr ⟨rfl, hworks⟩

theorem step_inOrder (hempty : kit.valid "" = false) (h : InOrder kit.valid s.closed)
    (hworks : Works kit s e) (hstep : step cfg kit s e = some t) : InOrder kit.valid t.closed := by
  obtain ⟨ops, hcalls⟩ | ⟨hcache, cache, cache', ops, hcalls⟩ := step_calls hworks hstep
  · exact h.calls hempty hcalls
  · have hwellformed := hcalls.wellformed hempty h.wellformed
    have hsnapshot := hcalls.other hempty (fun _ => id) h.wellformed h.snapshot
    refine ⟨hwellformed, ?_⟩
    rwa [hcache]

/-- **One step, one anchor.** A closed anchor stays closed. -/
theorem step_closed (hempty : kit.valid "" = false) (h : InOrder kit.valid s.closed)
    (hclosed : status anchor s.closed.file.entries = .closed) (hworks : Works kit s e)
    (hstep : step cfg kit s e = some t) : status anchor t.closed.file.entries = .closed := by
  obtain ⟨ops, hcalls⟩ | ⟨-, cache, cache', ops, hcalls⟩ := step_calls hworks hstep
  · rw [hcalls.status hempty h.wellformed, hclosed, acts_closed]
  · refine (hcalls.status hempty h.wellformed).trans ?_
    dsimp only
    rw [hclosed, acts_closed]

/-! ## What a terminator does, and what follows it -/

theorem parseEnvelope_msgId_valid {repr : String → String} {text : String}
    (h : parseEnvelope valid repr text = some parsed) : valid parsed.msgId = true := by
  unfold parseEnvelope at h
  simp only [Option.bind_eq_bind, Option.bind_eq_some_iff] at h
  obtain ⟨groups, -, sender, -, recipient, -, session, -, fromSession, -, action, -, reply, -,
    msgId, hmsgId, ref, -, hparsed⟩ := h
  obtain rfl := Option.some.inj hparsed
  simp only [validateEnvelopeToken_eq] at hmsgId
  split_ifs at hmsgId with hvalid
  · obtain rfl := Option.some.inj hmsgId
    exact hvalid
  · cases hmsgId

/-- Where a message is taken in, the registry is as the record on receive leaves it. -/
theorem takeIn_closed {a : Accepted} (hparsed : parseEnvelope kit.valid kit.repr p.text = some parsed)
    (hunseen : s.seen.lookup parsed.msgId = none)
    (htaken : (takeIn cfg kit meets p s).2.accepted = a :: s.accepted) :
    (takeIn cfg kit meets p s).2.closed =
      (recordAnchor kit meets parsed (screen cfg kit meets p s).2).2.closed := by
  have hbooks := screen_books cfg kit meets p s
  have hscreen : ∀ found, (screen cfg kit meets p s).1 = .ok found → found = parsed := by
    intro found h
    have hscreened := screen_ok (Prod.ext h rfl)
    exact Option.some.inj (hscreened.envelope.symm.trans hparsed)
  unfold takeIn at htaken ⊢
  generalize screen cfg kit meets p s = screened at hbooks hscreen htaken
  simp only [Adapter.books, Prod.mk.injEq] at hbooks
  obtain ⟨hseen, haccepted, -⟩ := hbooks
  obtain ⟨answer | found, s'⟩ := screened
  · have hlength := congrArg List.length (haccepted.symm.trans htaken)
    simp at hlength
  · obtain rfl := hscreen found rfl
    dsimp only at hseen ⊢
    rw [enqueue_closed, hseen, hunseen, Option.isSome_none, if_neg Bool.false_ne_true]

/-- A terminator that is taken in closes its anchor, unless a close of it is pending. -/
theorem Takes.closes (h : Takes cfg kit s e t conn meets p parsed)
    (hstep : step cfg kit s e = some t) (hworks : Works kit s e)
    (horder : InOrder kit.valid s.closed) (hend : parsed.reply = .end_)
    (hsender : kit.valid parsed.sender = true)
    (hpending : status parsed.msgId s.closed.file.entries ≠ .pending) :
    status parsed.msgId t.closed.file.entries = .closed := by
  obtain rfl := h.event
  obtain ⟨p', hp', hstep⟩ := Option.bind_eq_some_iff.mp hstep
  obtain rfl : p = p' := Option.some.inj (h.waits.symm.trans hp')
  split_ifs at hstep
  obtain rfl := Option.some.inj hstep
  have haccepted := h.accepted
  rw [resume_passes h.passes] at haccepted ⊢
  have hclosed := takeIn_closed (s := { s with clock := meets.sweptAt }) h.envelope h.unseen haccepted
  have hfile := (screen_unchanged cfg kit meets p { s with clock := meets.sweptAt }).closed
  generalize (screen cfg kit meets p { s with clock := meets.sweptAt }).2 = s' at hclosed hfile
  have hwellformed : Wellformed kit.valid s'.closed.file.entries := by
    rw [hfile]
    exact horder.wellformed
  show status parsed.msgId (takeIn cfg kit meets p _).2.closed.file.entries = .closed
  rw [hclosed, recordAnchor_closed parsed s' hworks.2, if_pos hend, Threads.op_status hwellformed, hfile]
  have hmsgId := parseEnvelope_msgId_valid h.envelope
  unfold Op.act
  cases hstatus : status parsed.msgId s.closed.file.entries with
  | open_ => simp [hmsgId, hsender]
  | pending => exact absurd hstatus hpending
  | closed => simp

/-- The guard lets a message that refers to a closed anchor pass only as a notice or a terminator. -/
theorem Takes.silent (h : Takes cfg kit s e t conn meets p parsed) (hworks : Works kit s e)
    (horder : InOrder kit.valid s.closed) (hclosed : status anchor s.closed.file.entries = .closed)
    (href : parsed.ref = some anchor) : p.request.isDsn = true ∨ parsed.reply = .end_ := by
  obtain rfl := h.event
  obtain hnone | hdsn | hend | hopen := h.screened.thread
  · cases hnone.symm.trans href
  · exact .inl hdsn
  · exact .inr hend
  · have hasked := (Threads.isClosed_iff horder.wellformed horder.snapshot).mpr
      (show status anchor s.closed.file.entries ≠ .open_ by rw [hclosed]; nofun)
    rw [Threads.isClosed_io hworks.1, href, hasked] at hopen
    cases hopen

/-! ## Runs -/

/-- Of what was taken in, only notices and terminators refer to the anchor. -/
def SilentAbout (kit : Kit) (anchor : String) (taken : List Accepted) : Prop :=
  ∀ a ∈ taken, ∀ found, parseEnvelope kit.valid kit.repr (requestText kit a.request) = some found →
    found.ref = some anchor → a.request.isDsn = true ∨ found.reply = .end_

/-- After the anchor was closed: what was taken in since then is silent about it. -/
structure Since (cfg : Config) (kit : Kit) (anchor : String) (before : List Accepted)
    (s : Adapter) : Prop where
  checked : Checked cfg kit s
  order : InOrder kit.valid s.closed
  closed : status anchor s.closed.file.entries = .closed
  silent : ∃ later, s.accepted = later ++ before ∧ SilentAbout kit anchor later

theorem step_since {before : List Accepted} (hempty : kit.valid "" = false)
    (h : Since cfg kit anchor before s) (hworks : Works kit s e)
    (hstep : step cfg kit s e = some t) : Since cfg kit anchor before t := by
  obtain ⟨hchecked, -, hcases⟩ := step_cases h.checked hstep
  refine ⟨hchecked, step_inOrder hempty h.order hworks hstep,
    step_closed hempty h.order h.closed hworks hstep, ?_⟩
  obtain ⟨later, hlater, hsilent⟩ := h.silent
  obtain hrefuses | ⟨conn, meets, p, parsed, htakes⟩ := hcases
  · exact ⟨later, hrefuses.accepted.trans hlater, hsilent⟩
  · refine ⟨_ :: later, by rw [htakes.accepted, hlater, List.cons_append], ?_⟩
    refine List.forall_mem_cons.mpr ⟨fun found hfound href => ?_, hsilent⟩
    have htext := (h.checked conn p htakes.waits).text
    rw [← htext, htakes.envelope] at hfound
    obtain rfl := Option.some.inj hfound
    exact htakes.silent hworks h.order h.closed href

/-- **A terminated thread stays silent.** Let the registry be in order at the start, the disk work under
it, and other processes change it by calls of their own. Once a message that ends its thread is taken
in, with no close of it pending, then whatever is taken in later under any order of requests and calls,
and refers to that message, is a notice or a terminator itself. -/
theorem terminated_thread_silent {s₀ : Adapter} {es fs : List Event} {a : Accepted}
    (hempty : kit.valid "" = false) (h0 : ∀ conn, s₀.waiting conn = none)
    (horder : InOrder kit.valid s₀.closed) (hbefore : Run (step cfg kit) (Works kit) s₀ es s)
    (hworks : Works kit s e) (hstep : step cfg kit s e = some t)
    (hafter : Run (step cfg kit) (Works kit) t fs u) (htaken : t.accepted = a :: s.accepted)
    (hparsed : parseEnvelope kit.valid kit.repr (requestText kit a.request) = some parsed)
    (hend : parsed.reply = .end_) (hsender : kit.valid parsed.sender = true)
    (hpending : status parsed.msgId s.closed.file.entries ≠ .pending) :
    ∃ later, u.accepted = later ++ t.accepted ∧ SilentAbout kit parsed.msgId later := by
  have hchecked : Checked cfg kit s := run_checked h0 (hbefore.mono fun _ _ _ => trivial)
  have hinOrder : InOrder kit.valid s.closed :=
    hbefore.invariant (fun _ _ _ h hworks hstep => step_inOrder hempty h hworks hstep) horder
  obtain ⟨hchecked', -, hrefuses | ⟨conn, meets, p, found, htakes⟩⟩ := step_cases hchecked hstep
  · have hlength := congrArg List.length (hrefuses.accepted.symm.trans htaken)
    simp at hlength
  · obtain rfl : a = ⟨p.request, found.msgId, meets.seenAt, meets.sweptAt⟩ :=
      (List.cons.inj (htaken.symm.trans htakes.accepted)).1
    obtain rfl : found = parsed := by
      rw [← (hchecked conn p htakes.waits).text, htakes.envelope] at hparsed
      exact Option.some.inj hparsed
    have hclosed := htakes.closes hstep hworks hinOrder hend hsender hpending
    have hsince : Since cfg kit found.msgId t.accepted t :=
      ⟨hchecked', step_inOrder hempty hinOrder hworks hstep, hclosed, [], rfl, nofun⟩
    exact (hafter.invariant (fun _ _ _ h hworks hstep => step_since hempty h hworks hstep)
      hsince).silent

/-! ### A message that comes after the goodbye -/

/-- A message from zero into the thread that it has ended. -/
def lateText : String := "[mesh][v:1][from:zero][to:vera][id:m2][action:do][reply:yes][ref:m1] wait"

def lateBody : String := "\x7b\"text\": \"" ++ lateText ++ "\", \"from\": \"zero\"\x7d"

def signedLate : Request where
  timestamp := "1000"
  signature := "1000\n" ++ lateBody
  body := lateBody

/-- A kit that can read both. -/
def lateKit : Kit :=
  { byeKit with
    loads := fun body =>
      if body = lateBody then .ok (.obj [("text", .str lateText), ("from", .str "zero")])
      else byeKit.loads body }

/-- No other process writes the registry, and the disk works. -/
def Event.alone : Event → Bool
  | .resume _ meets => meets.closedIo.healthy && meets.record.io.healthy
  | .closedElsewhere _ => false
  | _ => true

theorem Works.of_alone (h : e.alone = true) : Works kit s e := by
  cases e with
  | arrive | take => trivial
  | resume conn meets => exact Bool.and_eq_true_iff.mp h
  | closedElsewhere file => cases h

theorem run_alone {es : List Event} (hrun : exec (step cfg kit) s es = some t)
    (halone : ∀ e ∈ es, e.alone = true) : Run (step cfg kit) (Works kit) s es t :=
  ((run_of_exec hrun).of_forall halone).mono fun _ _ h => .of_alone h

theorem terminated_thread_silent_bye :
    ∃ s t u, step vera lateKit freshAdapter byeArrives = some s ∧
      step vera lateKit s byeResumes = some t ∧
      exec (step vera lateKit) t (atOnce 1 signedLate 1000) = some u ∧
      ∃ later, u.accepted = later ++ t.accepted ∧ SilentAbout lateKit "m1" later := by
  have hends : (step vera lateKit freshAdapter byeArrives).bind (fun s =>
      (step vera lateKit s byeResumes).bind fun t =>
        (exec (step vera lateKit) t (atOnce 1 signedLate 1000)).map fun u =>
          decide (status "m1" s.closed.file.entries = .open_ ∧
            t.accepted = ⟨signedBye, "m1", 1000, 1000⟩ :: s.accepted ∧
            aftermath u = ([some 400, some 202], true))) = some true := by
    decide +kernel
  obtain ⟨s, hs, hends⟩ := Option.bind_eq_some_iff.mp hends
  obtain ⟨t, ht, hends⟩ := Option.bind_eq_some_iff.mp hends
  obtain ⟨u, hu, hends⟩ := Option.map_eq_some_iff.mp hends
  obtain ⟨hopen, htaken, -⟩ := of_decide_eq_true hends
  have horder : InOrder lateKit.valid freshAdapter.closed := ⟨nofun, nofun⟩
  have hparsed : (parseEnvelope lateKit.valid lateKit.repr (requestText lateKit signedBye)).map
      (fun parsed => (parsed.msgId, parsed.sender, parsed.reply)) = some ("m1", "zero", .end_) := by
    decide +kernel
  obtain ⟨parsed, hparsed, hfields⟩ := Option.map_eq_some_iff.mp hparsed
  obtain ⟨hmsgId, hsender, hend⟩ : parsed.msgId = "m1" ∧ parsed.sender = "zero" ∧ parsed.reply = .end_ :=
    ⟨congrArg (·.1) hfields, congrArg (·.2.1) hfields, congrArg (·.2.2) hfields⟩
  refine ⟨s, t, u, hs, ht, hu, ?_⟩
  have hfirst : exec (step vera lateKit) freshAdapter [byeArrives] = some s := by
    rw [exec_cons, hs]
    rfl
  rw [← hmsgId]
  refine terminated_thread_silent (by decide) (fun _ => rfl) horder
    (run_alone hfirst (by decide)) (.of_alone (by decide)) ht
    (run_alone hu (by decide)) htaken hparsed hend ?_ ?_
  · rw [hsender]
    decide
  · rw [hmsgId, hopen]
    nofun

end HermesMesh.Intake
