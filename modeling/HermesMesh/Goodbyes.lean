import HermesMesh.ClosedThreads
import HermesMesh.LateDeliveries
import HermesMesh.PendingCloses
import HermesMesh.TerminatorLife

/-!
# A goodbye

The sender of a terminator confirms its close once the delivery is reported, and the recipient records
one as it takes the message in; each has a registry of its own. Where the report is true both have closed
the thread: neither of them sends into it from then on, and the recipient takes nothing of it in but
notices and further terminators (`goodbye_is_agreed`, and `late_goodbye_is_agreed` where the outbox
delivers it).
-/

namespace HermesMesh.Threads

open Intake (InOrder)

variable {valid : TokenRule} {P : Time → Prop} {anchor : String} {v v' : View} {ops : List Op}

/-- A close of the anchor is confirmed, and the process that has this view cannot miss it. -/
structure Over (valid : TokenRule) (anchor : String) (v : View) : Prop where
  order : InOrder valid v
  closed : status anchor v.file.entries = .closed

/-- The calls of a process that leave the close confirmed. -/
theorem over_of_calls (hempty : valid "" = false) (horder : InOrder valid v)
    (hcalls : Calls valid P v ops v')
    (hacts : acts valid anchor ops (status anchor v.file.entries) = .closed) : Over valid anchor v' where
  order := horder.calls hempty hcalls
  closed := (hcalls.status hempty horder.wellformed).trans hacts

/-- How the view of a process changes: it uses the registry, or another process does, no write of which
gets the mtime that the snapshot carries. -/
inductive Later (valid : TokenRule) : View → View → Prop
  | refl (v : View) : Later valid v v
  | own {v v' v'' : View} {ops : List Op} (h : Later valid v v')
      (hcalls : Calls valid (fun _ => True) v' ops v'') : Later valid v v''
  | other {v v' : View} {file : File} {cache cache' : Cache} {ops : List Op} (h : Later valid v v')
      (hcalls : Calls valid (fun stamp => v'.cache.mtime ≠ some stamp) ⟨v'.file, cache⟩ ops
        ⟨file, cache'⟩) : Later valid v ⟨file, v'.cache⟩

/-- What is over stays over. -/
theorem Over.later (hempty : valid "" = false) (h : Over valid anchor v) (hlater : Later valid v v') :
    Over valid anchor v' := by
  induction hlater with
  | refl => exact h
  | own _ hcalls hover =>
    refine over_of_calls hempty hover.order hcalls ?_
    rw [hover.closed, Intake.acts_closed]
  | other _ hcalls hover =>
    have hwellformed := hcalls.wellformed hempty hover.order.wellformed
    have hsnapshot := hcalls.other hempty (fun _ => id) hover.order.wellformed hover.order.snapshot
    refine ⟨⟨hwellformed, hsnapshot⟩, ?_⟩
    refine (hcalls.status hempty hover.order.wellformed).trans ?_
    dsimp only
    rw [hover.closed, Intake.acts_closed]

end HermesMesh.Threads

namespace HermesMesh

open Threads
open Intake (InOrder)

variable {env env' : Env} {args kwargs extra fields : List (String × Json)} {w w' v : World} {mail : Mail}
  {session fromSession : Option String} {url anchor : String} {valid : TokenRule} {P : Time → Prop}
  {held : Bool} {padded : String} {resp : Response} {draft : Draft} {item : Outbox.Item} {wire : Wire}
  {d : Delivery}

/-! ## Nothing is sent into a thread that is over -/

/-- Whatever happens to the registry from this view on, a `mesh_send` that refers to the anchor is
answered that the thread is closed, and has sent, queued and claimed nothing. -/
def Shut (valid : TokenRule) (anchor : String) (v : View) : Prop :=
  ∀ (env : Env) (args kwargs : List (String × Json)) (draft : Draft) (w : World), env.valid = valid →
    env.closedIo.healthy = true → Later valid v w.closed → readArgs env args kwargs = .ok draft →
    draft.ref = some anchor → ∃ cache,
      handleMeshSend env args kwargs w =
        (.ok (threadClosed draft), { w with closed := ⟨w.closed.file, cache⟩ })

theorem shut_of_over (hempty : valid "" = false) {v : View} (h : Over valid anchor v) :
    Shut valid anchor v := by
  intro env args kwargs draft w hrule hio hlater hread href
  have hover := h.later hempty hlater
  have hasked : (Threads.isClosed env.valid env.closedIo draft.ref w.closed).1 = true := by
    rw [isClosed_io hio, href, hrule]
    refine (isClosed_iff hover.order.wellformed hover.order.snapshot).mpr ?_
    rw [hover.closed]
    nofun
  have hfile : (Threads.isClosed env.valid env.closedIo draft.ref w.closed).2.file = w.closed.file :=
    isClosed_file
  refine ⟨(Threads.isClosed env.valid env.closedIo draft.ref w.closed).2.cache, ?_⟩
  unfold handleMeshSend prepare
  rw [hread]
  dsimp only
  rw [if_pos hasked, ← hfile]
  rfl

/-! ## The sender -/

/-- The registry calls that record a close as pending and confirm it leave the anchor closed. -/
theorem acts_confirmed {closedAt : Time} {self : String} {st : Status} (hanchor : valid anchor = true)
    (hself : valid self = true) :
    acts valid anchor [.record closedAt anchor self true, .promote anchor] st = .closed := by
  cases st <;> simp [Op.act, hanchor, hself]

/-- A terminator whose delivery is reported has recorded its close and confirmed it. -/
theorem dispatch_calls (hworks : env.Works valid) (hP : ∀ stamp ∈ env.stamps, P stamp)
    (hend : mail.reply = .end_) (h : dispatch env mail held padded url w = (.ok resp, w'))
    (hstate : resp.state = some "completed") :
    Calls valid P w.closed [.record env.record.closedAt mail.taskId mail.self true,
      .promote mail.taskId] w'.closed := by
  unfold dispatch at h
  generalize hrec : recordPending env mail w = recorded at h
  obtain ⟨e | ⟨⟩, w₁⟩ := recorded
  · cases h
  have hrecorded := recordPending_calls hworks hP hend hrec
  have hclosed := deliver_closed env env.net env.signature (env.wire mail padded url) w₁
  dsimp only at h
  generalize deliver env env.net env.signature (env.wire mail padded url) w₁ = p at h hclosed
  obtain ⟨e | d, w₂⟩ := p
  · cases h
  dsimp only at h hclosed
  rw [← hclosed] at hrecorded
  split_ifs at h
  · have hafter : w'.closed =
        Threads.promote env.valid env.promote.io env.promote.stamp mail.taskId w₂.closed := by
      obtain ⟨-, h⟩ := delivered_ok h
      have hworld := (congrArg Prod.snd h).symm
      dsimp only at hworld
      rw [hworld]
      unfold completed promotePending
      rw [hend]
      rfl
    rw [hafter, hworks.rule, promote_io hworks.promote]
    exact hrecorded.append (.one (hP _ (by simp [Env.stamps])))
  · rw [queued_state (congrArg Prod.fst h)] at hstate
    exact absurd (Option.some.inj hstate) (by decide)
  · rw [failed_state (congrArg Prod.fst h)] at hstate
    cases hstate

/-- It is over for the sender whose call reports the delivery. -/
theorem Completes.over (hsent : Completes env args kwargs w mail session fromSession url)
    (hworks : env.Works valid) (hempty : valid "" = false) (horder : InOrder valid w.closed)
    (hend : mail.reply = .end_) (hanchor : valid mail.taskId = true) :
    Over valid mail.taskId (handleMeshSend env args kwargs w).2.closed := by
  obtain ⟨w₀, held, w₁, hprep, hgate, hsend⟩ := hsent.dispatches
  obtain ⟨resp, w', hcompleted, hstate⟩ := hsent.completed
  obtain ⟨ref, hchecks⟩ := prepare_calls (P := fun _ => True) hworks (fun _ _ => trivial) hprep
  have hsame : w₁.closed = w₀.closed := by rw [← gate_closed env mail w₀, hgate]
  rw [← hsame] at hchecks
  rw [hcompleted] at hsend ⊢
  have hcalls := hchecks.append (dispatch_calls hworks (fun _ _ => trivial) hend hsend.symm hstate)
  refine over_of_calls hempty horder hcalls ?_
  rw [acts_append]
  exact acts_confirmed hanchor (hworks.self _ (prepare_self hprep))

/-- An attempt that delivers its item promotes the anchor. -/
theorem attemptItem_closed {p : Posting} {v₁ : World}
    (hbegin : beginAttempt env extra fields v = (.posting p, v₁)) (hdeliver : p.deliver env = .ok d)
    (hid : d.deliveryId ≠ .null) :
    (attemptItem env extra fields v).2.closed = (promoteAnchor env p.anchor
      { v₁ with metrics := d.metrics.map ("send", ·) ++ v₁.metrics }).closed := by
  unfold attemptItem settleAttempt
  rw [hbegin]
  dsimp only
  rw [hdeliver]
  dsimp only
  rw [if_pos (Json.isSome_iff.mpr hid)]

/-- An attempt of the outbox that delivers it records its close again, and confirms it. -/
theorem Redelivers.over (hlate : Redelivers env extra fields v wire d) (hworks : env.Works valid)
    (hempty : valid "" = false) (horder : InOrder valid v.closed) (hanchor : valid anchor = true)
    (hitem : Retry.ItemOf valid anchor fields) :
    Over valid anchor (attemptItem env extra fields v).2.closed := by
  obtain ⟨p, v₁, hbegin, -, hdeliver⟩ := hlate.posts
  obtain ⟨self, hself, hvalid⟩ := hitem.sender
  have hbegins := beginAttempt_begins env extra fields v
  rw [hbegin] at hbegins
  obtain ⟨ops, hchecks, hacts⟩ : ∃ ops, Calls valid (fun _ => True) v.closed ops
      (checkRef env fields v).2.closed ∧ ∀ st, acts valid anchor ops st = st :=
    Retry.checkRef_calls fields v hworks trivial
  cases hbegins with
  | @posting p v₀ v₁ hcheck hresolve hpend =>
    obtain ⟨hsender, hof⟩ := Retry.resolveItem_posting hresolve
    rw [hcheck] at hchecks
    have hpends := (Retry.pendAnchor_calls (P := fun _ => True) (w := v₀) hworks hempty hanchor hvalid
      trivial (hchecks.wellformed hempty horder.wellformed)).2
    rw [hsender, hself, hitem.anchor] at hpend
    rw [hpend] at hpends
    have hconfirms := Retry.promoteAnchor_calls (P := fun _ => True)
      (w := { v₁ with metrics := d.metrics.map ("send", ·) ++ v₁.metrics }) hworks.rule hempty hanchor
      hworks.promote trivial
    rw [attemptItem_closed hbegin hdeliver hlate.delivers, hof, hitem.anchor]
    refine over_of_calls hempty horder ((hchecks.append hpends).append hconfirms) ?_
    rw [acts_append, acts_append, hacts, ← acts_append]
    exact acts_confirmed hanchor hvalid

/-- The item that a terminator is queued as carries its anchor, however often it is tried again. -/
theorem queuedItem_of {attempt : ℕ} {nextRetry : Time} (hend : mail.reply = .end_)
    (hself : valid mail.self = true) :
    Retry.ItemOf valid mail.taskId ((env.queuedItem mail padded).later attempt nextRetry).fields := by
  refine ⟨?_, mail.self, rfl, hself⟩
  unfold Env.queuedItem
  rw [if_pos hend]
  rfl

end HermesMesh

namespace HermesMesh.Intake

open Lib
open Threads (Over status)

variable {cfg : Config} {kit : Kit} {s t : Adapter} {e : Event} {es : List Event} {text : String}
  {parsed : Parsed} {d : Delivery} {r : Request}

/-! ## The recipient -/

/-- The registry works, and no close of the anchor is pending there. -/
def Hears (kit : Kit) (anchor : String) (s : Adapter) (e : Event) : Prop :=
  Works kit s e ∧ status anchor s.closed.file.entries ≠ .pending

/-- Everything that was taken in can be read, and since a message with this text was, its thread is
closed. -/
structure Heard (cfg : Config) (kit : Kit) (text anchor : String) (s : Adapter) : Prop where
  checked : Checked cfg kit s
  order : InOrder kit.valid s.closed
  carries : ∀ a ∈ s.accepted, Verdicts.Carries kit (requestText kit a.request) a.messageId
  since : ∀ later a earlier, s.accepted = later ++ a :: earlier → requestText kit a.request = text →
    Since cfg kit anchor (a :: earlier) s

theorem step_heard (hempty : kit.valid "" = false)
    (hparse : parseEnvelope kit.valid kit.repr text = some parsed) (hend : parsed.reply = .end_)
    (hsender : kit.valid parsed.sender = true) (h : Heard cfg kit text parsed.msgId s)
    (hears : Hears kit parsed.msgId s e) (hstep : step cfg kit s e = some t) :
    Heard cfg kit text parsed.msgId t := by
  obtain ⟨hworks, hpending⟩ := hears
  have horder := step_inOrder hempty h.order hworks hstep
  obtain ⟨hchecked, -, hrefuses | ⟨conn, meets, p, found, htakes⟩⟩ := step_cases h.checked hstep
  · refine ⟨hchecked, horder, ?_, ?_⟩
    · rw [hrefuses.accepted]
      exact h.carries
    · intro later a earlier hsplit htext
      rw [hrefuses.accepted] at hsplit
      exact step_since hempty (h.since later a earlier hsplit htext) hworks hstep
  · have hread := htakes.envelope
    rw [(h.checked conn p htakes.waits).text] at hread
    refine ⟨hchecked, horder, ?_, ?_⟩
    · rw [htakes.accepted]
      exact List.forall_mem_cons.mpr ⟨⟨found, hread, rfl⟩, h.carries⟩
    · intro later a earlier hsplit htext
      rw [htakes.accepted] at hsplit
      cases later with
      | nil =>
        obtain ⟨rfl, rfl⟩ := List.cons.inj hsplit
        -- this is the terminator
        rw [htext, hparse] at hread
        obtain rfl := Option.some.inj hread
        exact ⟨hchecked, horder, htakes.closes hstep hworks h.order hend hsender hpending, [],
          htakes.accepted, nofun⟩
      | cons x later =>
        obtain ⟨-, hold⟩ := List.cons.inj hsplit
        exact step_since hempty (h.since later a earlier hold htext) hworks hstep

/-- It is over for a recipient that has answered a delivery of the terminator. -/
theorem answered_over (hempty : kit.valid "" = false) (h0 : Start s) (horder : InOrder kit.valid s.closed)
    (hparse : parseEnvelope kit.valid kit.repr text = some parsed) (hend : parsed.reply = .end_)
    (hsender : kit.valid parsed.sender = true)
    (hrun : Run (step cfg kit) (Hears kit parsed.msgId) s es t)
    (hown : ∀ r, Came es r → Verdicts.Carries kit (requestText kit r) parsed.msgId →
      requestText kit r = text)
    (htaken : ∃ a ∈ t.accepted, a.messageId = parsed.msgId) :
    Over kit.valid parsed.msgId t.closed ∧ ∃ later a earlier, t.accepted = later ++ a :: earlier ∧
      requestText kit a.request = text ∧ SilentAbout kit parsed.msgId later := by
  have hheard : Heard cfg kit text parsed.msgId t := by
    refine hrun.invariant (fun _ _ _ h hears hstep =>
      step_heard hempty hparse hend hsender h hears hstep) ⟨h0.kept.checked, horder, ?_, ?_⟩
    · rw [h0.accepted]
      nofun
    · intro later a earlier hsplit
      rw [h0.accepted] at hsplit
      exact absurd hsplit (by simp)
  obtain ⟨a, ha, hid⟩ := htaken
  have hcame := (run_came h0 (hrun.mono fun _ _ _ => trivial)).accepted a ha
  have htext := hown a.request hcame (hid ▸ hheard.carries a ha)
  obtain ⟨later, earlier, hsplit⟩ := List.append_of_mem ha
  have hsince := hheard.since later a earlier hsplit htext
  obtain ⟨later', hsplit', hsilent⟩ := hsince.silent
  exact ⟨⟨hsince.order, hsince.closed⟩, later', a, earlier, hsplit', htext, hsilent⟩

end HermesMesh.Intake

namespace HermesMesh.Verdicts

open Intake

variable {cfg : Config} {kit : Kit} {s t : Adapter} {es : List Event} {r : Request} {d : Delivery}
  {exceptionToReason : Exc → String} {budget : Budget} {net : Net} {allowLoopback : Bool}
  {url : String} {signature : Except PyError String} {parsed : Parsed}

/-- A message that was delivered has been accepted. -/
theorem AnsweredBy.accepted (h0 : Start s) (hdials : AnsweredBy cfg kit s es t r d)
    (hcall : deliverWebhook exceptionToReason budget net allowLoopback url signature = .ok d)
    (hid : d.deliveryId ≠ .null)
    (hparse : parseEnvelope kit.valid kit.repr (requestText kit r) = some parsed) :
    ∃ a ∈ t.accepted, a.messageId = parsed.msgId := by
  obtain ⟨o, ho, hlanded, -⟩ := deliveryId_of_dial hcall hid
  obtain ⟨msgId, ⟨found, hfound, rfl⟩, htaken, -⟩ := hdials.landed h0 ho hlanded
  rw [hparse] at hfound
  obtain rfl := Option.some.inj hfound
  exact htaken

end HermesMesh.Verdicts

namespace HermesMesh

open Lib Threads
open Intake (InOrder Config Kit Adapter Hears SilentAbout Start Came requestText step)

variable {cfg : Config} {kit : Kit} {s t : Adapter} {es : List Intake.Event} {env env' : Env}
  {args kwargs extra : List (String × Json)} {w v : World} {mail : Mail}
  {session fromSession : Option String} {url key timestamp text : String} {item : Outbox.Item}
  {wire : Wire} {d : Delivery} {pen : Pen} {post : Post}

/-! ## Both ends -/

/-- A run of the recipient's intake, in which nothing else comes under the id of the message. -/
structure Hearing (cfg : Config) (kit : Kit) (id text : String) (s : Adapter)
    (es : List Intake.Event) (t : Adapter) : Prop where
  start : Start s
  order : InOrder kit.valid s.closed
  run : Run (step cfg kit) (Hears kit id) s es t
  own : ∀ r, Came es r → Verdicts.Carries kit (requestText kit r) id → requestText kit r = text

/-- The two sides of the thread have closed it: this is the registry as the sender has left it, and this
the intake of the recipient. -/
structure Agreed (kit : Kit) (id text : String) (sender : View) (t : Adapter) : Prop where
  sender : Shut kit.valid id sender
  recipient : Shut kit.valid id t.closed
  silent : ∃ later a earlier, t.accepted = later ++ a :: earlier ∧ requestText kit a.request = text ∧
    SilentAbout kit id later

/-- A close that the sender has confirmed, of a message that the recipient has taken in. -/
theorem Hearing.agreed (h : Hearing cfg kit mail.taskId text s es t) {sender : View}
    (hempty : kit.valid "" = false)
    (hparse : parseEnvelope kit.valid kit.repr text = some (mail.parsed session fromSession))
    (hend : mail.reply = .end_) (hself : kit.valid mail.self = true)
    (hover : Over kit.valid mail.taskId sender)
    (htaken : ∃ a ∈ t.accepted, a.messageId = mail.taskId) : Agreed kit mail.taskId text sender t := by
  obtain ⟨hrecipient, hsilent⟩ :=
    Intake.answered_over hempty h.start h.order hparse hend hself h.run h.own htaken
  exact ⟨shut_of_over hempty hover, shut_of_over hempty hrecipient, hsilent⟩

/-- **A goodbye is agreed on.** Let a `mesh_send` with `reply=end` report a delivery, and every answer
that it got be one that the intake of the recipient gave to its request. Let the two registries work, and
each of them be written by calls only. Then both sides have closed the thread, for ever: no `mesh_send`
of theirs goes into it any more, and of what comes into it the recipient takes in notices and terminators
only. -/
theorem goodbye_is_agreed (hsent : Completes env args kwargs w mail session fromSession url)
    (hend : mail.reply = .end_) (hempty : kit.valid "" = false)
    (hlegible : Legible env pen kit mail (mail.padded session fromSession))
    (hpost : compose pen key timestamp (env.wire mail (mail.padded session fromSession) url) = .ok post)
    (hworks : env.Works kit.valid) (horder : InOrder kit.valid w.closed)
    (hhearing : Hearing cfg kit mail.taskId (mail.padded session fromSession) s es t)
    (hanswers : ∀ d, env.post env.net env.signature url = .ok d →
      Verdicts.AnsweredBy cfg kit s es t post.received d) :
    Agreed kit mail.taskId (mail.padded session fromSession) (handleMeshSend env args kwargs w).2.closed
      t := by
  obtain ⟨htext, hparse, -⟩ := hsent.reads hlegible hpost
  obtain ⟨w₀, hprep⟩ := hsent.prepared
  have hself := hworks.self _ (prepare_self hprep)
  have hanchor := Intake.parseEnvelope_msgId_valid hparse
  obtain ⟨d, hd, hid⟩ := hsent.delivers
  obtain ⟨loopback, -, hcall⟩ := bind_ok hd
  have htaken := (hanswers d hd).accepted hhearing.start hcall hid (htext ▸ hparse)
  exact hhearing.agreed hempty hparse hend hself (hsent.over hworks hempty horder hend hanchor) htaken

/-! ### A goodbye from zero -/

/-- A gateway of zero's whose goodbye is taken in. -/
def zeroParts : Env :=
  { zeroDown with
    net := onePeer 1 fun _ => Verdicts.dialed (.ok ⟨202, Verdicts.acceptedBody "m1", none⟩) }

theorem zeroParts_works : zeroParts.Works nameToken :=
  ⟨rfl, rfl, rfl, rfl, rfl, Terminator.zeroQueues_works.self⟩

def partingBody : String :=
  "\x7b\"from\": \"zero\", \"text\": \"" ++ Intake.byeText ++ "\"\x7d"

/-- A kit that can read it, and the clock. -/
def partingKit : Kit :=
  { Turns.newsKit with
    loads := fun body =>
      if body = partingBody then .ok (.obj [("from", .str "zero"), ("text", .str Intake.byeText)])
      else .error (.valueError body) }

def parting : Intake.Request := ⟨"1000", "key:1000\n" ++ partingBody, false, partingBody⟩

theorem parting_dumps :
    plainPen.dumps [("from", .str "zero"), ("text", .str Intake.byeText)] = partingBody := by
  decide +kernel

theorem parting_loads :
    partingKit.loads partingBody =
      .ok (.obj [("from", .str "zero"), ("text", .str Intake.byeText)]) := by
  unfold partingKit
  dsimp only
  rw [if_pos rfl]

theorem parting_text {r : Intake.Request} (h : Came (Intake.atOnce 0 parting 1000) r) :
    requestText partingKit r = Intake.byeText := by
  have hr : r = parting := by
    obtain ⟨conn, publicKey, now, hmem⟩ := h
    have hr : conn = 0 ∧ r = parting ∧ publicKey = (fun _ => "key") ∧ now = 1000 := by
      simpa [Intake.atOnce] using hmem
    exact hr.2.1
  rw [hr]
  decide +kernel

/-- The registry of vera works, and nobody there closes a thread of zero's. -/
def undisturbed (s : Adapter) (e : Intake.Event) : Bool :=
  e.alone && decide (status "m1" s.closed.file.entries ≠ .pending)

/-- Vera's intake takes it in. -/
theorem parting_heard : ∃ u t,
    Verdicts.Answering Intake.vera partingKit Intake.freshAdapter (Intake.atOnce 0 parting 1000) t parting
      u t (.ok ⟨202, Verdicts.acceptedBody "m1", none⟩) ∧
    Hearing Intake.vera partingKit "m1" Intake.byeText Intake.freshAdapter
      (Intake.atOnce 0 parting 1000) t := by
  have hends : Verdicts.exchange Intake.vera partingKit 0 parting 1000 =
      some (some parting, 0, [(0, some 202)]) := by
    decide +kernel
  have hundisturbed : (exec (checked undisturbed (step Intake.vera partingKit)) Intake.freshAdapter
      (Intake.atOnce 0 parting 1000)).isSome = true := by
    decide +kernel
  have hparses : (parseEnvelope partingKit.valid partingKit.repr Intake.byeText).map (·.msgId) =
      some "m1" := by
    decide +kernel
  obtain ⟨u, t, answer, hanswering, hstatus, hrun⟩ := Verdicts.exchange_answering hends
  obtain ⟨t', ht'⟩ := Option.isSome_iff_exists.mp hundisturbed
  have hchecked := run_of_checked ht'
  obtain rfl : t' = t := by
    have hsame := hchecked.exec_eq
    rw [hrun.exec_eq] at hsame
    exact (Option.some.inj hsame).symm
  have hcame : Came (Intake.atOnce 0 parting 1000) parting := ⟨0, _, _, List.mem_cons_self⟩
  obtain ⟨msgId, ⟨parsed, hparsed, rfl⟩, rfl⟩ :=
    (hanswering.report Intake.freshAdapter_start).of_accepted hstatus
  rw [parting_text hcame] at hparsed
  rw [hparsed] at hparses
  obtain hid : parsed.msgId = "m1" := Option.some.inj hparses
  rw [hid] at hanswering
  refine ⟨u, t', hanswering, Intake.freshAdapter_start, ⟨nofun, nofun⟩, ?_, fun r hr _ => parting_text hr⟩
  refine hchecked.mono fun s e h => ?_
  obtain ⟨halone, hpending⟩ := Bool.and_eq_true_iff.mp h
  exact ⟨.of_alone halone, of_decide_eq_true hpending⟩

/-- What a gateway of zero's makes of the goodbye. -/
structure Parting (env : Env) (mail : Mail) : Prop extends
    Turns.Written env goodbye partingKit Intake.byeText mail where
  taskId : mail.taskId = "m1"
  reply : mail.reply = .end_

theorem exists_parting (hvalid : env.valid = nameToken) (htokens : env.Tokens (Bracketless env.valid))
    (hread : (prepare env goodbye [] emptyWorld).1.toOption.map (fun mail =>
      (Turns.isWritten env Intake.byeText mail, decide (mail.taskId = "m1" ∧ mail.reply = .end_))) =
        some (true, true)) : ∃ mail, Parting env mail := by
  have hwrites : ∃ mail, Turns.Written env goodbye partingKit Intake.byeText mail ∧
      decide (mail.taskId = "m1" ∧ mail.reply = .end_) = true :=
    Turns.exists_written rfl hvalid htokens parting_dumps parting_loads hread
  obtain ⟨mail, hwritten, hparting⟩ := hwrites
  obtain ⟨htaskId, hreply⟩ := of_decide_eq_true hparting
  exact ⟨mail, hwritten, htaskId, hreply⟩

theorem goodbye_is_agreed_zero : ∃ mail t,
    Completes zeroParts goodbye [] emptyWorld mail none none "http://peer" ∧
    Run (step Intake.vera partingKit) (Hears partingKit "m1") Intake.freshAdapter
      (Intake.atOnce 0 parting 1000) t ∧
    Agreed partingKit "m1" Intake.byeText (handleMeshSend zeroParts goodbye [] emptyWorld).2.closed t := by
  obtain ⟨mail, hparting⟩ : ∃ mail, Parting zeroParts mail := exists_parting rfl
    ⟨zeroDown_tokens.valid, zeroDown_tokens.coerce, zeroDown_tokens.uuid, zeroDown_tokens.uuid_ne⟩
    (by decide +kernel)
  obtain ⟨u, t, hanswering, hhearing⟩ := parting_heard
  have hsent : Completes zeroParts goodbye [] emptyWorld mail none none "http://peer" :=
    hparting.toWritten.completes rfl (by decide +kernel)
  obtain ⟨post, hpost⟩ : ∃ post, compose plainPen "key" "1000"
      (zeroParts.wire mail (mail.padded none none) "http://peer") = .ok post := ⟨_, rfl⟩
  have hreceived : post.received = parting :=
    Turns.received_written parting_dumps hparting.padded hparting.self rfl rfl hpost
  have hagreed := goodbye_is_agreed hsent hparting.reply (by decide) hparting.legible hpost zeroParts_works
    ⟨nofun, nofun⟩ (by rw [hparting.taskId, hparting.padded]; exact hhearing) (fun d hd => by
      obtain ⟨loopback, -, hcall⟩ := bind_ok hd
      rw [hreceived]
      exact hanswering.answeredBy hcall)
  rw [hparting.taskId, hparting.padded] at hagreed
  exact ⟨mail, t, hsent, hhearing.run, hagreed⟩

/-- **So is a late one.** The same where the terminator is queued, and an attempt of the outbox delivers
it. -/
theorem late_goodbye_is_agreed (hsent : Defers env args kwargs w mail session fromSession item)
    (hend : mail.reply = .end_) (hempty : kit.valid "" = false)
    (hlegible : Legible env pen kit mail (mail.padded session fromSession)) {attempt : ℕ}
    {nextRetry : Time} (hlate : Redelivers env' extra (item.later attempt nextRetry).fields v wire d)
    (hpost : compose pen key timestamp wire = .ok post) (hself : kit.valid mail.self = true)
    (hworks : env'.Works kit.valid) (horder : InOrder kit.valid v.closed)
    (hhearing : Hearing cfg kit mail.taskId (mail.padded session fromSession) s es t)
    (hanswers : Verdicts.AnsweredBy cfg kit s es t post.received d) :
    Agreed kit mail.taskId (mail.padded session fromSession)
      (attemptItem env' extra (item.later attempt nextRetry).fields v).2.closed t := by
  obtain ⟨w₀, hprep⟩ := hsent.prepared
  rw [hsent.item_eq] at hlate ⊢
  obtain ⟨hsame, hsender, hheaders⟩ := hlate.text
  obtain ⟨htext, hparse, -⟩ := hlegible.reads hprep hsent.sessions hsame hsender hheaders hpost
  have hanchor := Intake.parseEnvelope_msgId_valid hparse
  have hover := hlate.over hworks hempty horder hanchor (queuedItem_of hend hself)
  obtain ⟨allowLoopback, url, hcall⟩ := hlate.call
  have htaken := hanswers.accepted hhearing.start hcall hlate.delivers (htext ▸ hparse)
  exact hhearing.agreed hempty hparse hend hself hover htaken

def partingItem : Outbox.Item :=
  Outbox.newItem 0 0 0 "zero" "vera" Intake.byeText Intake.byeText 0 none false (some "m1")

def partingWire : Wire := { url := "http://peer", text := Intake.byeText, sender := "zero" }

theorem late_goodbye_is_agreed_zero : ∃ mail t,
    Defers zeroQueues goodbye [] emptyWorld mail none none partingItem ∧
    Run (step Intake.vera partingKit) (Hears partingKit "m1") Intake.freshAdapter
      (Intake.atOnce 0 parting 1000) t ∧
    Agreed partingKit "m1" Intake.byeText
      (attemptItem zeroParts [] (partingItem.later 1 5).fields emptyWorld).2.closed t := by
  obtain ⟨mail, hparting⟩ : ∃ mail, Parting zeroQueues mail := exists_parting rfl
    ⟨zeroDown_tokens.valid, zeroDown_tokens.coerce, zeroDown_tokens.uuid, zeroDown_tokens.uuid_ne⟩
    (by decide +kernel)
  obtain ⟨u, t, hanswering, hhearing⟩ := parting_heard
  have hqueued : ((handleMeshSend zeroQueues goodbye [] emptyWorld).1.toOption.map Response.state,
      (handleMeshSend zeroQueues goodbye [] emptyWorld).2.outbox.head?) =
        (some (some "queued"), some partingItem) := by
    decide +kernel
  have hattempted : Turns.attempted zeroParts [] (partingItem.later 1 5).fields emptyWorld =
      (some partingWire, some true) := by
    decide +kernel
  have hsent := hparting.toWritten.defers hqueued
  obtain ⟨d, hlate⟩ := Turns.redelivers_of_attempted hattempted
  obtain ⟨post, hpost⟩ : ∃ post, compose plainPen "key" "1000" partingWire = .ok post := ⟨_, rfl⟩
  have hreceived : post.received = parting :=
    Turns.received_written parting_dumps rfl rfl rfl rfl hpost
  have hagreed := late_goodbye_is_agreed hsent hparting.reply (by decide) hparting.legible hlate hpost
    (by rw [hparting.self]; decide) zeroParts_works ⟨nofun, nofun⟩
    (by rw [hparting.taskId, hparting.padded]; exact hhearing) (by
      obtain ⟨allowLoopback, url, hcall⟩ := hlate.call
      rw [hreceived]
      exact hanswering.answeredBy hcall)
  rw [hparting.taskId, hparting.padded] at hagreed
  exact ⟨mail, t, hsent, hhearing.run, hagreed⟩

end HermesMesh
