import HermesMesh.Intake
import HermesMesh.Lib.Expiry
import HermesMesh.Lib.Runs

/-!
# The replay window

A request is accepted while its timestamp is within `replay_window_ttl` of the receiver's clock, on
either side, and its message id is remembered for `replay_window_ttl` after it was taken in. The two
windows do not begin at the same time: a timestamp ahead of the clock keeps its request acceptable
after the id has been swept, and so does a verification that takes long. The seen-id table is a
function of what was taken in (`run_kept`), which says exactly when an id is still in it (`seen_iff`);
`replay_taken_once` says when one signed request is taken in at most once.
-/

namespace HermesMesh.Intake

open Lib

variable {cfg : Config} {kit : Kit} {meets : Meets} {p : Pending} {parsed : Parsed}
  {s t : Adapter} {e : Event} {conn : ℕ} {r : Request}

/-! ## One signed request -/

/-- The same timestamp, body and signature. `X-Mesh-DSN` is not signed. -/
def Request.SameSigned (q r : Request) : Prop :=
  q.timestamp = r.timestamp ∧ q.body = r.body ∧ q.signature = r.signature

instance (q r : Request) : Decidable (q.SameSigned r) := inferInstanceAs (Decidable (_ ∧ _))

/-- The copies of a request that were taken in. -/
def Adapter.copies (s : Adapter) (r : Request) : List Accepted :=
  s.accepted.filter fun a => a.request.SameSigned r

/-- The verification that the request waits for comes out well. -/
def Pending.passes (kit : Kit) (p : Pending) : Prop :=
  match p.stage with
  | .signed key => kit.verify key p.request.signedBody p.request.signature = .ok true
  | .bare key => kit.verify key p.request.body p.request.signature = .ok true
  | .ready => True

/-- The signature over timestamp and body is good. -/
def Pending.signedWell (kit : Kit) (p : Pending) : Bool :=
  match p.stage with
  | .signed key =>
    match kit.verify key p.request.signedBody p.request.signature with
    | .ok good => good
    | .error _ => false
  | _ => false

theorem Pending.passes_of_signedWell {kit : Kit} {p : Pending} (h : p.signedWell kit = true) :
    p.passes kit ∧ p.stage ≠ .ready := by
  unfold Pending.signedWell at h
  unfold Pending.passes
  cases hstage : p.stage with
  | signed key =>
    rw [hstage] at h
    dsimp only at h ⊢
    split at h
    · rename_i good hverify
      exact ⟨h ▸ hverify, nofun⟩
    · cases h
  | bare key | ready =>
    rw [hstage] at h
    cases h

/-- A message that is taken in finds room in the table once the table has been swept by age. -/
def Roomy (cfg : Config) (kit : Kit) (s : Adapter) (e : Event) : Prop :=
  ∀ t a, step cfg kit s e = some t → t.accepted = a :: s.accepted →
    (unexpired cfg.replayWindowTtl a.sweptAt (s.seen ++ [(a.messageId, a.seenAt)])).length ≤
      cfg.replayWindowSize

/-- When a verified copy goes on to the duplicate check, nothing has been taken in later than
`replay_window_ttl` after the copy before it. -/
def Timely (cfg : Config) (kit : Kit) (r : Request) (s : Adapter) : Event → Prop
  | .resume conn _ => ∀ p, s.waiting conn = some p → p.passes kit → p.request.SameSigned r →
      ∀ a ∈ s.copies r, ∀ b ∈ s.accepted, b.sweptAt - a.seenAt ≤ cfg.replayWindowTtl
  | _ => True

/-! ## What a step can do -/

/-- The part of the adapter that a refused request leaves alone. -/
def Adapter.books (s : Adapter) :
    List (String × Time) × List Accepted × (ℕ → Option Pending) × Time × List MessageEvent ×
      List (ℕ × Except PyError Answer) :=
  (s.seen, s.accepted, s.waiting, s.clock, s.inbox, s.answers)

theorem screen_books (cfg : Config) (kit : Kit) (meets : Meets) (p : Pending) (s : Adapter) :
    (screen cfg kit meets p s).2.books = s.books := by
  unfold screen
  split
  · rfl
  · dsimp only
    split_ifs <;> rfl

/-- What the checks before the inbox make sure of; `closed` is the registry they meet. -/
structure Screened (cfg : Config) (kit : Kit) (meets : Meets) (p : Pending) (parsed : Parsed)
    (closed : Threads.View) : Prop where
  envelope : parseEnvelope kit.valid kit.repr p.text = some parsed
  sender : p.sender.truthy = true → p.sender = .str parsed.sender
  recipient : parsed.recipient = cfg.agentName
  thread : parsed.ref = none ∨ p.request.isDsn = true ∨ parsed.reply = .end_ ∨
    (Threads.isClosed kit.valid meets.closedIo parsed.ref closed).1 = false

theorem screen_ok {s' : Adapter} (h : screen cfg kit meets p s = (.ok parsed, s')) :
    Screened cfg kit meets p parsed s.closed := by
  unfold screen at h
  split at h
  · cases (Prod.mk.inj h).1
  · rename_i found hfound
    dsimp only at h
    split_ifs at h with hlimited hsender hrecipient hthread hclosed
    all_goals
      cases (Prod.mk.inj h).1
    all_goals
      refine ⟨hfound, fun htruthy => ?_, not_not.mp hrecipient, ?_⟩
      · rw [htruthy, Bool.true_and, Bool.not_eq_true', Bool.not_eq_false] at hsender
        exact Json.isStr_iff.mp hsender
    · exact .inr (.inr (.inr (Bool.eq_false_iff.mpr hclosed)))
    · by_contra hno
      simp only [not_or] at hno
      obtain ⟨href, hdsn, hreply, -⟩ := hno
      apply hthread
      simp [Option.isSome_iff_ne_none, href, hdsn, hreply]

theorem recordAnchor_books (kit : Kit) (meets : Meets) (parsed : Parsed) (s : Adapter) :
    (recordAnchor kit meets parsed s).2.books = s.books := by
  unfold recordAnchor
  split
  · dsimp only
    split <;> rfl
  · rfl

/-- The message has passed the checks, its id is not in the table, and it is taken in. -/
structure TakesIn (cfg : Config) (kit : Kit) (meets : Meets) (p : Pending) (parsed : Parsed)
    (s t : Adapter) : Prop where
  envelope : parseEnvelope kit.valid kit.repr p.text = some parsed
  unseen : s.seen.lookup parsed.msgId = none
  accepted : t.accepted =
    ⟨p.request, parsed.msgId, meets.seenAt, meets.sweptAt⟩ :: s.accepted
  seen : t.seen = expireSeenMessages cfg meets.sweptAt (s.seen ++ [(parsed.msgId, meets.seenAt)])
  inbox : ∃ event, buildEvent cfg kit parsed = .ok event ∧ t.inbox = s.inbox ++ [event]

/-- Nothing is taken in. -/
structure Refuses (s t : Adapter) : Prop where
  accepted : t.accepted = s.accepted
  seen : t.seen = s.seen
  inbox : t.inbox.length ≤ s.inbox.length

/-- From the duplicate check on a message is refused, or taken in. -/
theorem enqueue_cases (cfg : Config) (meets : Meets) (s : Adapter)
    (hparsed : parseEnvelope kit.valid kit.repr p.text = some parsed) :
    (enqueue cfg kit meets p parsed s).2.waiting = s.waiting ∧
      (enqueue cfg kit meets p parsed s).2.clock = s.clock ∧
      (enqueue cfg kit meets p parsed s).2.answers = s.answers ∧
      (Refuses s (enqueue cfg kit meets p parsed s).2 ∨
        TakesIn cfg kit meets p parsed s (enqueue cfg kit meets p parsed s).2) := by
  have hrecord := recordAnchor_books kit meets parsed s
  unfold enqueue
  cases hseen : s.seen.lookup parsed.msgId with
  | some time => exact ⟨rfl, rfl, rfl, .inl ⟨rfl, rfl, le_refl _⟩⟩
  | none =>
    rw [Option.isSome_none, if_neg Bool.false_ne_true]
    generalize recordAnchor kit meets parsed s = result at hrecord
    simp only [Adapter.books, Prod.mk.injEq] at hrecord
    obtain ⟨hs, ha, hw, hc, hi, hr⟩ := hrecord
    have hsame : Refuses s result.2 := ⟨ha, hs, by rw [hi]⟩
    obtain ⟨e | ⟨⟩, s'⟩ := result
    · exact ⟨hw, hc, hr, .inl hsame⟩
    · dsimp only at hs ha hw hc hi hr hsame ⊢
      cases hevent : buildEvent cfg kit parsed with
      | error e => exact ⟨hw, hc, hr, .inl hsame⟩
      | ok event =>
        dsimp only
        split_ifs
        · exact ⟨hw, hc, hr, .inl hsame⟩
        · refine ⟨hw, hc, hr, .inr ⟨hparsed, hseen, ?_, ?_, event, hevent, ?_⟩⟩
          · rw [← ha]
            rfl
          · rw [← hs]
            rfl
          · rw [← hi]
            rfl

theorem takeIn_cases (cfg : Config) (kit : Kit) (meets : Meets) (p : Pending) (s : Adapter) :
    (takeIn cfg kit meets p s).2.waiting = s.waiting ∧
      (takeIn cfg kit meets p s).2.clock = s.clock ∧
      (takeIn cfg kit meets p s).2.answers = s.answers ∧
      (Refuses s (takeIn cfg kit meets p s).2 ∨
        ∃ parsed, Screened cfg kit meets p parsed s.closed ∧
          TakesIn cfg kit meets p parsed s (takeIn cfg kit meets p s).2) := by
  have hbooks := screen_books cfg kit meets p s
  unfold takeIn
  generalize hscreen : screen cfg kit meets p s = result at hbooks
  simp only [Adapter.books, Prod.mk.injEq] at hbooks
  obtain ⟨hs, ha, hw, hc, hi, hr⟩ := hbooks
  obtain ⟨answer | parsed, s'⟩ := result
  · exact ⟨hw, hc, hr, .inl ⟨ha, hs, by rw [hi]⟩⟩
  · have hscreened := screen_ok hscreen
    obtain ⟨hw', hc', hr', h⟩ := enqueue_cases cfg meets s' hscreened.envelope
    refine ⟨hw'.trans hw, hc'.trans hc, hr'.trans hr, ?_⟩
    dsimp only at hi ha hs
    rcases h with h | h
    · exact .inl ⟨h.accepted.trans ha, h.seen.trans hs, h.inbox.trans (by rw [hi])⟩
    · refine .inr ⟨parsed, hscreened, h.envelope, ?_, ?_, ?_, ?_⟩
      · rw [← hs, h.unseen]
      · rw [h.accepted, ha]
      · rw [h.seen, hs]
      · rw [← hi]
        exact h.inbox

theorem resume_passes (hpass : p.passes kit) :
    resume cfg kit conn meets p s =
      (takeIn cfg kit meets p s).2.answer conn (takeIn cfg kit meets p s).1 := by
  unfold resume
  unfold Pending.passes at hpass
  cases hstage : p.stage with
  | ready => rfl
  | signed key =>
    rw [hstage] at hpass
    simp only [hpass]
  | bare key =>
    rw [hstage] at hpass
    simp only [hpass]

/-- Without a verified signature the request is answered 401, or waits again. -/
theorem resume_fails (cfg : Config) (conn : ℕ) (meets : Meets) (s : Adapter)
    (hpass : ¬ p.passes kit) :
    ∃ answers waits, (waits = none ∨ ∃ stage, waits = some { p with stage }) ∧
      (answers = s.answers ∨ answers = (conn, .ok (said 401 "unauthorized")) :: s.answers) ∧
      resume cfg kit conn meets p s =
        { s with waiting := Function.update s.waiting conn waits, answers } := by
  unfold resume
  unfold Pending.passes at hpass
  cases hstage : p.stage with
  | ready =>
    rw [hstage] at hpass
    exact absurd trivial hpass
  | signed key =>
    rw [hstage] at hpass
    dsimp only at hpass ⊢
    generalize kit.verify key p.request.signedBody p.request.signature = v at hpass
    obtain e | ok := v
    · exact ⟨_, none, .inl rfl, .inr rfl, rfl⟩
    · cases ok with
      | true => exact absurd rfl hpass
      | false => exact ⟨s.answers, _, .inr ⟨.bare key, rfl⟩, .inl rfl, rfl⟩
  | bare key =>
    rw [hstage] at hpass
    dsimp only at hpass ⊢
    generalize kit.verify key p.request.body p.request.signature = v at hpass
    obtain e | ok := v
    · exact ⟨_, none, .inl rfl, .inr rfl, rfl⟩
    · cases ok with
      | true => exact absurd rfl hpass
      | false => exact ⟨_, none, .inl rfl, .inr rfl, rfl⟩

/-- The text of a request's payload. -/
def requestText (kit : Kit) (r : Request) : String :=
  match kit.loads r.body with
  | .ok (.obj fields) => ((fields.lookup "text").map kit.text).getD ""
  | _ => ""

/-- A request that waits carries the text of its own body, and its timestamp was in the window. -/
structure Pending.Checked (cfg : Config) (kit : Kit) (p : Pending) : Prop where
  text : p.text = requestText kit p.request
  window : 0 ≤ cfg.replayWindowTtl

theorem receive_checked {publicKey : String → String} {now : Time}
    (h : receive cfg kit publicKey now r = .ok (.inr p)) : p.Checked cfg kit := by
  have hwindow : validTimestamp kit cfg.replayWindowTtl now r.timestamp = true →
      0 ≤ cfg.replayWindowTtl := by
    intro hvalid
    unfold validTimestamp at hvalid
    split at hvalid
    · exact (abs_nonneg _).trans (of_decide_eq_true hvalid)
    · cases hvalid
  obtain ⟨fields, hloads, hvalid, rfl, htext, -⟩ := receive_waits h
  refine ⟨?_, hwindow hvalid⟩
  unfold requestText
  rw [htext, hloads]

/-- Every waiting request has been checked. -/
def Checked (cfg : Config) (kit : Kit) (s : Adapter) : Prop :=
  ∀ conn p, s.waiting conn = some p → p.Checked cfg kit

theorem Checked.update (h : Checked cfg kit s) (conn : ℕ) (waits : Option Pending)
    (hwaits : ∀ p, waits = some p → p.Checked cfg kit)
    (ht : t.waiting = Function.update s.waiting conn waits) : Checked cfg kit t := by
  intro conn' p hp
  rw [ht] at hp
  rcases update_eq_some hp with ⟨-, hset⟩ | ⟨-, hold⟩
  · exact hwaits p hset
  · exact h conn' p hold

/-- What an event does where it takes a message in. -/
structure Takes (cfg : Config) (kit : Kit) (s : Adapter) (e : Event) (t : Adapter) (conn : ℕ)
    (meets : Meets) (p : Pending) (parsed : Parsed) : Prop
    extends TakesIn cfg kit meets p parsed s t where
  screened : Screened cfg kit meets p parsed s.closed
  event : e = .resume conn meets
  waits : s.waiting conn = some p
  passes : p.passes kit
  before : s.clock ≤ meets.seenAt
  sweeps : meets.seenAt ≤ meets.sweptAt
  clock : t.clock = meets.sweptAt

/-- **One step.** It takes one verified request in, or nothing. -/
theorem step_cases (hchecks : Checked cfg kit s) (hstep : step cfg kit s e = some t) :
    Checked cfg kit t ∧ s.clock ≤ t.clock ∧
      (Refuses s t ∨ ∃ conn meets p parsed, Takes cfg kit s e t conn meets p parsed) := by
  cases e with
  | arrive conn request publicKey now =>
    obtain ⟨hclock, ⟨p, hreceive, rfl⟩ | ⟨answer, -, rfl⟩⟩ := step_arrive hstep
    · have hchecked := receive_checked hreceive
      refine ⟨hchecks.update conn (some p) ?_ rfl, hclock, .inl ⟨rfl, rfl, le_refl _⟩⟩
      intro q hq
      rwa [← Option.some.inj hq]
    · exact ⟨hchecks.update conn none nofun rfl, hclock, .inl ⟨rfl, rfl, le_refl _⟩⟩
  | resume conn meets =>
    obtain ⟨p, hp, hstep⟩ := Option.bind_eq_some_iff.mp hstep
    split_ifs at hstep with hclock
    obtain rfl := Option.some.inj hstep
    have hnow : s.clock ≤ meets.sweptAt := hclock.1.trans (hclock.2.1.trans hclock.2.2)
    by_cases hpass : p.passes kit
    · rw [resume_passes hpass]
      have hcases := takeIn_cases cfg kit meets p { s with clock := meets.sweptAt }
      generalize takeIn cfg kit meets p { s with clock := meets.sweptAt } = result at hcases ⊢
      obtain ⟨hw, hc, -, h⟩ := hcases
      refine ⟨hchecks.update conn none nofun ?_, hnow.trans_eq hc.symm, ?_⟩
      · exact congrArg (Function.update · conn none) hw
      · rcases h with h | ⟨parsed, hscreened, h⟩
        · exact .inl ⟨h.accepted, h.seen, h.inbox⟩
        · exact .inr ⟨conn, meets, p, parsed,
            ⟨h.envelope, h.unseen, h.accepted, h.seen, h.inbox⟩, hscreened, rfl, hp, hpass,
            hclock.1.trans hclock.2.1, hclock.2.2, hc⟩
    · obtain ⟨answers, waits, hwaits, -, heq⟩ := resume_fails cfg conn meets
        { s with clock := meets.sweptAt } hpass
      rw [heq]
      refine ⟨hchecks.update conn waits ?_ rfl, hnow, .inl ⟨rfl, rfl, le_refl _⟩⟩
      rintro q rfl
      rcases hwaits with hnone | ⟨stage, hstage⟩
      · cases hnone
      · obtain rfl := Option.some.inj hstage
        have hp := hchecks conn p hp
        exact ⟨hp.text, hp.window⟩
  | take =>
    obtain rfl := Option.some.inj hstep
    exact ⟨hchecks, le_refl _, .inl ⟨rfl, rfl, by simp⟩⟩
  | closedElsewhere file =>
    obtain rfl := Option.some.inj hstep
    exact ⟨hchecks, le_refl _, .inl ⟨rfl, rfl, le_refl _⟩⟩

/-! ## What the table remembers -/

def Accepted.put (a : Accepted) : Put String Time := ⟨a.messageId, a.seenAt, a.sweptAt⟩

/-- The table is a function of what was taken in, and what was taken in is under the id of its own
body. -/
structure Kept (cfg : Config) (kit : Kit) (s : Adapter) : Prop where
  checked : Checked cfg kit s
  ids : ∀ a ∈ s.accepted,
    (parseEnvelope kit.valid kit.repr (requestText kit a.request)).map (·.msgId) = some a.messageId
  table : s.seen = tableOf cfg.replayWindowTtl (s.accepted.map Accepted.put)
  chronological : Chronological (s.accepted.map Accepted.put)
  swept : ∀ a ∈ s.accepted, a.sweptAt ≤ s.clock
  window : s.accepted ≠ [] → 0 ≤ cfg.replayWindowTtl

/-- Nothing has come in yet. -/
structure Start (s : Adapter) : Prop where
  seen : s.seen = []
  accepted : s.accepted = []
  waiting : ∀ conn, s.waiting conn = none

theorem Start.kept (h : Start s) : Kept cfg kit s where
  checked conn p hp := by
    rw [h.waiting conn] at hp
    cases hp
  ids a ha := by
    rw [h.accepted] at ha
    cases ha
  table := by
    rw [h.seen, h.accepted]
    rfl
  chronological := by
    rw [h.accepted]
    exact ⟨nofun, .nil⟩
  swept a ha := by
    rw [h.accepted] at ha
    cases ha
  window hne := absurd h.accepted hne

/-- **One step.** The table stays a function of what was taken in, as long as the cap is not
reached. -/
theorem step_kept (h : Kept cfg kit s) (hroom : Roomy cfg kit s e)
    (hstep : step cfg kit s e = some t) : Kept cfg kit t := by
  obtain ⟨hchecked, hclock, hrefuses | ⟨conn, meets, p, parsed, htakes⟩⟩ :=
    step_cases h.checked hstep
  · refine ⟨hchecked, ?_, ?_, ?_, ?_, ?_⟩
    · rw [hrefuses.accepted]
      exact h.ids
    · rw [hrefuses.seen, hrefuses.accepted]
      exact h.table
    · rw [hrefuses.accepted]
      exact h.chronological
    · rw [hrefuses.accepted]
      exact fun a ha => (h.swept a ha).trans hclock
    · rw [hrefuses.accepted]
      exact h.window
  · have hfits := hroom t _ hstep htakes.accepted
    have hp := h.checked conn p htakes.waits
    refine ⟨hchecked, ?_, ?_, ?_, ?_, fun _ => hp.window⟩
    · rw [htakes.accepted]
      refine List.forall_mem_cons.mpr ⟨?_, h.ids⟩
      rw [← hp.text, htakes.envelope]
      rfl
    · rw [htakes.seen, htakes.accepted]
      unfold expireSeenMessages
      dsimp only at hfits ⊢
      rw [Nat.sub_eq_zero_of_le hfits, List.drop_zero, h.table]
      rfl
    · rw [htakes.accepted, List.map_cons]
      refine h.chronological.cons htakes.sweeps fun q hq => ?_
      obtain ⟨a, ha, rfl⟩ := List.mem_map.mp hq
      exact (h.swept a ha).trans htakes.before
    · rw [htakes.accepted, htakes.clock]
      refine List.forall_mem_cons.mpr ⟨le_refl _, fun a ha => ?_⟩
      exact (h.swept a ha).trans (htakes.before.trans htakes.sweeps)

/-- **Every run.** -/
theorem run_kept {es : List Event} (h0 : Start s) (hrun : Run (step cfg kit) (Roomy cfg kit) s es t) :
    Kept cfg kit t :=
  hrun.invariant (fun _ _ _ h hroom hstep => step_kept h hroom hstep) h0.kept

/-- An id is in the table exactly where a message was taken in under it that is not older than the
window at any sweep so far. -/
theorem Kept.seen_iff (h : Kept cfg kit s) (id : String) :
    (s.seen.lookup id).isSome = true ↔
      ∃ a ∈ s.accepted, a.messageId = id ∧
        ∀ b ∈ s.accepted, b.sweptAt - a.seenAt ≤ cfg.replayWindowTtl := by
  have hmem : (s.seen.lookup id).isSome = true ↔ ∃ time, (id, time) ∈ s.seen := by
    rw [List.lookup_isSome_iff]
    simp
  rw [hmem]
  by_cases hempty : s.accepted = []
  · have hseen : s.seen = [] := by
      rw [h.table, hempty]
      rfl
    rw [hseen, hempty]
    simp
  · rw [h.table, held_iff (h.window hempty) h.chronological]
    simp [Accepted.put]

/-! ## At most once -/

/-- Copies come under one id. -/
theorem Kept.copy_id (h : Kept cfg kit s) {a : Accepted} (ha : a ∈ s.copies r)
    (hsame : p.request.SameSigned r) (hchecked : p.Checked cfg kit)
    (hparsed : parseEnvelope kit.valid kit.repr p.text = some parsed) :
    a.messageId = parsed.msgId := by
  obtain ⟨ha, hcopy⟩ := List.mem_filter.mp ha
  have hbody : requestText kit a.request = requestText kit p.request := by
    unfold requestText
    rw [(of_decide_eq_true hcopy).2.1, hsame.2.1]
  have hid := h.ids a ha
  rw [hbody, ← hchecked.text, hparsed] at hid
  exact (Option.some.inj hid).symm

/-- **One step.** A copy that comes in time finds its id in the table. -/
theorem step_once (h : Kept cfg kit s) (honce : (s.copies r).length ≤ 1)
    (htimely : Timely cfg kit r s e) (hstep : step cfg kit s e = some t) :
    (t.copies r).length ≤ 1 := by
  obtain ⟨-, -, hrefuses | ⟨conn, meets, p, parsed, htakes⟩⟩ := step_cases h.checked hstep
  · unfold Adapter.copies at honce ⊢
    rwa [hrefuses.accepted]
  · by_cases hsame : p.request.SameSigned r
    · have hnone : s.copies r = [] := by
        by_contra hne
        obtain ⟨a, ha⟩ := List.exists_mem_of_ne_nil _ hne
        have hkept : ∀ b ∈ s.accepted, b.sweptAt - a.seenAt ≤ cfg.replayWindowTtl := by
          rw [htakes.event] at htimely
          exact htimely p htakes.waits htakes.passes hsame a ha
        have hseen := (h.seen_iff parsed.msgId).mpr ⟨a, (List.mem_filter.mp ha).1,
          h.copy_id ha hsame (h.checked conn p htakes.waits) htakes.envelope, hkept⟩
        rw [htakes.unseen] at hseen
        cases hseen
      unfold Adapter.copies at hnone ⊢
      rw [htakes.accepted, List.filter_cons, if_pos (decide_eq_true hsame), hnone]
      rfl
    · unfold Adapter.copies at honce ⊢
      rwa [htakes.accepted, List.filter_cons, if_neg (by simpa using hsame)]

/-- A verified copy comes to the duplicate check while `ts` is still in the window, and `ts` is not
ahead of the clock as its id is stored. -/
def Prompt (cfg : Config) (kit : Kit) (r : Request) (ts : Time) (s : Adapter) : Event → Prop
  | .resume conn meets => ∀ p, s.waiting conn = some p → p.passes kit → p.request.SameSigned r →
      ts ≤ meets.seenAt ∧ meets.rateAt ≤ ts + cfg.replayWindowTtl
  | _ => True

theorem step_stored {ts : Time} (h : Kept cfg kit s) (hstored : ∀ a ∈ s.copies r, ts ≤ a.seenAt)
    (hprompt : Prompt cfg kit r ts s e) (hstep : step cfg kit s e = some t) :
    ∀ a ∈ t.copies r, ts ≤ a.seenAt := by
  intro a ha
  obtain ⟨ha, hcopy⟩ := List.mem_filter.mp ha
  obtain ⟨-, -, hrefuses | ⟨conn, meets, p, parsed, htakes⟩⟩ := step_cases h.checked hstep
  · rw [hrefuses.accepted] at ha
    exact hstored a (List.mem_filter.mpr ⟨ha, hcopy⟩)
  · rw [htakes.accepted] at ha
    rcases List.mem_cons.mp ha with rfl | ha
    · rw [htakes.event] at hprompt
      exact (hprompt p htakes.waits htakes.passes (of_decide_eq_true hcopy)).1
    · exact hstored a (List.mem_filter.mpr ⟨ha, hcopy⟩)

/-- **Prompt copies of a request from the past.** They come in time: the two windows then begin in
the right order, and no wait is longer than what is left of the first one. -/
theorem prompt_timely {ts : Time} {es : List Event} (h0 : Start s)
    (hrun : Run (step cfg kit) (fun s e => Roomy cfg kit s e ∧ Prompt cfg kit r ts s e) s es t) :
    Run (step cfg kit) (fun s e => Roomy cfg kit s e ∧ Timely cfg kit r s e) s es t := by
  have hstored : ∀ a ∈ s.copies r, ts ≤ a.seenAt := by
    unfold Adapter.copies
    rw [h0.accepted]
    nofun
  refine hrun.refine (I := fun s => Kept cfg kit s ∧ ∀ a ∈ s.copies r, ts ≤ a.seenAt)
    (fun _ _ _ h hg hstep => ⟨step_kept h.1 hg.1 hstep, step_stored h.1 h.2 hg.2 hstep⟩)
    (fun u e v h hg hstep => ⟨hg.1, ?_⟩) ⟨h0.kept, hstored⟩
  cases e with
  | resume conn meets =>
    intro p hp hpass hsame a ha b hb
    obtain ⟨q, -, hstep⟩ := Option.bind_eq_some_iff.mp hstep
    split_ifs at hstep with hclock
    calc b.sweptAt - a.seenAt ≤ meets.rateAt - ts :=
          sub_le_sub ((h.1.swept b hb).trans hclock.1) (h.2 a ha)
      _ ≤ cfg.replayWindowTtl := sub_le_iff_le_add'.mpr (hg.2 p hp hpass hsame).2
  | arrive conn request publicKey now => trivial
  | take => trivial
  | closedElsewhere file => trivial

/-- **When one signed request is taken in at most once.** In every run in which the table never has
to evict because of its cap, and in which a verified copy of the request comes to the duplicate check
only while nothing has been taken in later than the window after the copy before it. -/
theorem replay_taken_once {es : List Event} (h0 : Start s)
    (hrun : Run (step cfg kit) (fun s e => Roomy cfg kit s e ∧ Timely cfg kit r s e) s es t) :
    (t.copies r).length ≤ 1 := by
  have hcopies : (s.copies r).length ≤ 1 := by
    unfold Adapter.copies
    rw [h0.accepted]
    exact Nat.zero_le 1
  exact (hrun.invariant (I := fun s => Kept cfg kit s ∧ (s.copies r).length ≤ 1)
    (fun _ _ _ h hg hstep => ⟨step_kept h.1 hg.1 hstep, step_once h.1 h.2 hg.2 hstep⟩)
    ⟨h0.kept, hcopies⟩).2

/-- The body of a notice from zero. -/
def noticeBody (msgId : String) : String :=
  "\x7b\"text\": \"[mesh][v:1][from:zero][to:vera][id:" ++ msgId ++
    "][action:info][reply:no] up\", \"from\": \"zero\"\x7d"

/-- What `json.loads` makes of it. -/
def noticePayload (msgId : String) : Json :=
  .obj [("text", .str ("[mesh][v:1][from:zero][to:vera][id:" ++ msgId ++
    "][action:info][reply:no] up")), ("from", .str "zero")]

/-- A kit that can read what is sent below; a signature is the bytes it signs. -/
def sampleKit : Kit where
  valid := .of fun token => token ≠ "" && token.toList.all isNameChar
  loads body :=
    if body = noticeBody "m1" then .ok (noticePayload "m1")
    else if body = noticeBody "m2" then .ok (noticePayload "m2")
    else .error (.valueError "Expecting value")
  float text := if text = "1300" then some 1300 else if text = "1301" then some 1301 else none
  verify _ data signature := .ok (data == signature)

def signedNotice (timestamp msgId : String) : Request where
  timestamp := timestamp
  signature := timestamp ++ "\n" ++ noticeBody msgId
  body := noticeBody msgId

def vera : Config := { agentName := "vera" }

def freshAdapter : Adapter := { closed := ⟨⟨.absent, none⟩, {}⟩ }

/-- A request that arrives and is taken in at once. -/
def atOnce (conn : ℕ) (request : Request) (now : Time) : List Event :=
  [.arrive conn request (fun _ => "key") now,
    .resume conn { rateAt := now, seenAt := now, sweptAt := now }]

/-- A request whose timestamp is ahead of the clock, another one five minutes later, and the first
one again. -/
def replayed : List Event :=
  atOnce 0 (signedNotice "1300" "m1") 1000 ++ atOnce 1 (signedNotice "1301" "m2") 1301 ++
    atOnce 2 (signedNotice "1300" "m1") 1302

/-- The same request twice, within five minutes. -/
def resent : List Event :=
  atOnce 0 (signedNotice "1300" "m1") 1000 ++ atOnce 1 (signedNotice "1300" "m1") 1100

/-- The table is not full yet. -/
def hasRoom (s : Adapter) (_ : Event) : Bool := s.seen.length < vera.replayWindowSize

/-- Nothing has been taken in late. -/
def inTime (s : Adapter) (_ : Event) : Bool :=
  s.accepted.all fun a => s.accepted.all fun b => b.sweptAt - a.seenAt ≤ vera.replayWindowTtl

theorem roomy_of_hasRoom (h : hasRoom s e = true) : Roomy vera kit s e := by
  intro t a _ _
  calc (unexpired vera.replayWindowTtl a.sweptAt (s.seen ++ [(a.messageId, a.seenAt)])).length
      ≤ (s.seen ++ [(a.messageId, a.seenAt)]).length := List.length_filter_le _ _
    _ = s.seen.length + 1 := by rw [List.length_append, List.length_singleton]
    _ ≤ vera.replayWindowSize := of_decide_eq_true h

theorem timely_of_inTime (h : inTime s e = true) : Timely vera kit r s e := by
  cases e with
  | resume conn meets =>
    intro p _ _ _ a ha b hb
    have hall := List.all_eq_true.mp h a (List.mem_filter.mp ha).1
    exact of_decide_eq_true (List.all_eq_true.mp hall b hb)
  | arrive conn request publicKey now => trivial
  | take => trivial
  | closedElsewhere file => trivial

theorem freshAdapter_start : Start freshAdapter := ⟨rfl, rfl, fun _ => rfl⟩

theorem replay_taken_once_resent : ∃ t, exec (step vera sampleKit) freshAdapter resent = some t ∧
    (t.copies (signedNotice "1300" "m1")).length ≤ 1 := by
  have hends : (exec (checked (fun s e => hasRoom s e && inTime s e) (step vera sampleKit))
      freshAdapter resent).isSome = true := by
    decide +kernel
  obtain ⟨t, ht⟩ := Option.isSome_iff_exists.mp hends
  have hrun : Run (step vera sampleKit) (fun s e => Roomy vera sampleKit s e ∧
      Timely vera sampleKit (signedNotice "1300" "m1") s e) freshAdapter resent t :=
    (run_of_checked ht).mono fun s e h => by
      obtain ⟨hroom, htime⟩ := Bool.and_eq_true_iff.mp h
      exact ⟨roomy_of_hasRoom hroom, timely_of_inTime htime⟩
  exact ⟨t, hrun.exec_eq, replay_taken_once freshAdapter_start hrun⟩

/-- The copy is taken in again: its timestamp is still in the window, and its id is not. -/
theorem replay_taken_twice : ∃ t, Start freshAdapter ∧
    Run (step vera sampleKit) (Roomy vera sampleKit) freshAdapter replayed t ∧
      ¬ (t.copies (signedNotice "1300" "m1")).length ≤ 1 := by
  have hends : (exec (checked hasRoom (step vera sampleKit)) freshAdapter replayed).map
      (fun t => (t.copies (signedNotice "1300" "m1")).length) = some 2 := by
    decide +kernel
  obtain ⟨t, ht, hlength⟩ := Option.map_eq_some_iff.mp hends
  refine ⟨t, freshAdapter_start, (run_of_checked ht).mono fun s e h => roomy_of_hasRoom h, ?_⟩
  rw [hlength]
  omega

end HermesMesh.Intake
