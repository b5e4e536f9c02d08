import HermesMesh.LogIntegrity
import HermesMesh.ReplayWindow

/-!
# What a refused message leaves behind

The handler writes three stores: the registry of closed threads, the inbox and the seen-id table. The
last two it writes together, after the last step that can fail ("mark seen only after the message was
actually enqueued"). The registry it writes earlier: a terminator records its anchor before its event
is built and before the inbox is asked for room, and a message that is refused there has closed its
thread. `unaccepted_changes_nothing_iff`: no other refusal changes anything.
-/

namespace HermesMesh.Intake

open Threads (Appends recordedFile)

variable {cfg : Config} {kit : Kit} {meets : Meets} {p : Pending} {parsed : Parsed}
  {s t : Adapter} {e : Event} {conn : ℕ}

/-- The three stores are the same. -/
structure Unchanged (s t : Adapter) : Prop where
  inbox : t.inbox = s.inbox
  seen : t.seen = s.seen
  closed : t.closed.file = s.closed.file

/-- The step answers a request with 202. -/
def Accepts (s t : Adapter) : Prop :=
  ∃ conn answer, t.answers = (conn, .ok answer) :: s.answers ∧ answer.status = 202

/-- The step belongs to a request. -/
def Event.ofRequest : Event → Bool
  | .arrive .. | .resume .. => true
  | .take | .closedElsewhere _ => false

/-- The message passes every check of the screen and the rate limit. -/
structure Passes (cfg : Config) (kit : Kit) (meets : Meets) (p : Pending) (parsed : Parsed)
    (s : Adapter) : Prop extends Screened cfg kit meets p parsed s.closed where
  rate : (checkRateLimit cfg.rateLimitPerMinute meets.rateAt parsed.sender s.buckets).1 = false

/-- A terminator that is not a duplicate records its anchor, and then its event cannot be built or
finds no room. -/
structure Spoils (cfg : Config) (kit : Kit) (meets : Meets) (parsed : Parsed) (s : Adapter) :
    Prop where
  unseen : s.seen.lookup parsed.msgId = none
  reply : parsed.reply = .end_
  appends : Appends kit.valid meets.record.io parsed.msgId parsed.sender s.closed.file
  changes : recordedFile meets.record.io meets.record.stamp meets.record.closedAt parsed.msgId
    parsed.sender false s.closed.file ≠ s.closed.file
  fails : (∃ e, buildEvent cfg kit parsed = .error e) ∨ inboxSize ≤ s.inbox.length

/-! ## The screen -/

theorem screen_ok_iff :
    (screen cfg kit meets p s).1 = .ok parsed ↔ Passes cfg kit meets p parsed s := by
  constructor
  · intro h
    have hscreened : Screened cfg kit meets p parsed s.closed := screen_ok (Prod.ext h rfl)
    refine ⟨hscreened, ?_⟩
    unfold screen at h
    rw [hscreened.envelope] at h
    dsimp only at h
    by_contra hlimited
    rw [Bool.not_eq_false] at hlimited
    rw [if_pos hlimited] at h
    cases h
  · intro h
    unfold screen
    rw [h.envelope]
    dsimp only
    have hsender : ¬ (p.sender.truthy && !p.sender.isStr parsed.sender) = true := by
      rw [Bool.and_eq_true, not_and]
      intro htruthy
      rw [h.sender htruthy]
      simp
    rw [if_neg (by simp [h.rate]), if_neg hsender, if_neg (by simp [h.recipient])]
    split_ifs with hthread hclosed
    · exfalso
      simp only [Bool.and_eq_true, Bool.not_eq_true', decide_eq_true_eq] at hthread
      obtain hnone | hdsn | hend | hopen := h.thread
      · rw [hnone] at hthread
        cases hthread.1.1
      · rw [hdsn] at hthread
        cases hthread.1.2
      · exact hthread.2 hend
      · rw [hclosed] at hopen
        cases hopen
    · rfl
    · rfl

/-- The screen writes none of the three stores. -/
theorem screen_unchanged (cfg : Config) (kit : Kit) (meets : Meets) (p : Pending) (s : Adapter) :
    Unchanged s (screen cfg kit meets p s).2 := by
  have hbooks := screen_books cfg kit meets p s
  simp only [Adapter.books, Prod.mk.injEq] at hbooks
  refine ⟨hbooks.2.2.2.2.1, hbooks.1, ?_⟩
  unfold screen
  split
  · rfl
  · dsimp only
    split_ifs
    all_goals first | rfl | exact Threads.isClosed_file

/-! ## From the duplicate check on -/

/-- The record on receive writes a terminator's anchor, or it leaves the registry. -/
theorem recordAnchor_cases (kit : Kit) (meets : Meets) (parsed : Parsed) (s : Adapter) :
    (parsed.reply = .end_ ∧
        Appends kit.valid meets.record.io parsed.msgId parsed.sender s.closed.file ∧
        (recordAnchor kit meets parsed s).1 = .ok () ∧
        (recordAnchor kit meets parsed s).2.closed.file =
          recordedFile meets.record.io meets.record.stamp meets.record.closedAt parsed.msgId
            parsed.sender false s.closed.file) ∨
      ¬ (parsed.reply = .end_ ∧
          Appends kit.valid meets.record.io parsed.msgId parsed.sender s.closed.file) ∧
        (recordAnchor kit meets parsed s).2.closed.file = s.closed.file := by
  unfold recordAnchor
  cases hreply : parsed.reply with
  | yes => exact .inr ⟨nofun, rfl⟩
  | no => exact .inr ⟨nofun, rfl⟩
  | end_ =>
    have hcases := Threads.record_cases kit.valid meets.record.io meets.record.stamp
      meets.record.closedAt parsed.msgId parsed.sender false s.closed
    dsimp only
    generalize Threads.record kit.valid meets.record.io meets.record.stamp meets.record.closedAt
      parsed.msgId parsed.sender false s.closed = recorded at hcases
    obtain ⟨result, view⟩ := recorded
    obtain ⟨happends, hok, hfile⟩ | ⟨hnot, hfile, -⟩ := hcases
    · obtain rfl : result = .ok () := hok
      exact .inl ⟨rfl, happends, rfl, hfile⟩
    · refine .inr ⟨fun h => hnot h.2, ?_⟩
      dsimp only at hfile ⊢
      split <;> exact hfile

/-- Where the registry stays as it is, a message is accepted or changes nothing. -/
theorem enqueue_kept (cfg : Config) (p : Pending)
    (hkept : (recordAnchor kit meets parsed s).2.closed.file = s.closed.file) :
    (∃ answer, (enqueue cfg kit meets p parsed s).1 = .ok answer ∧ answer.status = 202) ∨
      Unchanged s (enqueue cfg kit meets p parsed s).2 := by
  have hbooks := recordAnchor_books kit meets parsed s
  unfold enqueue
  split_ifs
  · exact .inr ⟨rfl, rfl, rfl⟩
  generalize recordAnchor kit meets parsed s = recorded at hkept hbooks
  obtain ⟨result, s'⟩ := recorded
  simp only [Adapter.books, Prod.mk.injEq] at hbooks
  have hun : Unchanged s s' := ⟨hbooks.2.2.2.2.1, hbooks.1, hkept⟩
  obtain e | ⟨⟩ := result
  · exact .inr hun
  dsimp only
  cases buildEvent cfg kit parsed with
  | error e => exact .inr hun
  | ok event =>
    dsimp only
    split_ifs
    · exact .inr hun
    · exact .inl ⟨_, rfl, rfl⟩

/-- From the duplicate check on, a message that is not accepted changes nothing, unless it spoils. -/
theorem enqueue_iff (cfg : Config) (kit : Kit) (meets : Meets) (p : Pending) (parsed : Parsed)
    (s : Adapter) :
    ((∃ answer, (enqueue cfg kit meets p parsed s).1 = .ok answer ∧ answer.status = 202) ∨
        Unchanged s (enqueue cfg kit meets p parsed s).2) ↔ ¬ Spoils cfg kit meets parsed s := by
  have hbooks := recordAnchor_books kit meets parsed s
  have hcases := recordAnchor_cases kit meets parsed s
  have hkeeps := @enqueue_kept kit meets parsed s cfg p
  by_cases hseen : (s.seen.lookup parsed.msgId).isSome = true
  · unfold enqueue
    rw [if_pos hseen]
    refine iff_of_true (.inr ⟨rfl, rfl, rfl⟩) fun h => ?_
    rw [h.unseen] at hseen
    cases hseen
  obtain ⟨hreply, happends, hok, hfile⟩ | ⟨hnot, hfile⟩ := hcases
  · by_cases hsame : recordedFile meets.record.io meets.record.stamp meets.record.closedAt
        parsed.msgId parsed.sender false s.closed.file = s.closed.file
    · -- the write puts back what was there
      exact iff_of_true (hkeeps (hfile.trans hsame)) fun h => h.changes hsame
    unfold enqueue
    rw [if_neg hseen]
    generalize recordAnchor kit meets parsed s = recorded at hbooks hok hfile
    obtain ⟨result, s'⟩ := recorded
    simp only [Adapter.books, Prod.mk.injEq] at hbooks
    obtain ⟨-, -, -, -, hinbox, -⟩ := hbooks
    obtain rfl : result = .ok () := hok
    dsimp only at hfile hinbox ⊢
    have hchanged : ¬ Unchanged s s' := fun h => hsame (hfile.symm.trans h.closed)
    have hspoils : (∃ e, buildEvent cfg kit parsed = .error e) ∨ inboxSize ≤ s.inbox.length →
        Spoils cfg kit meets parsed s := fun h =>
      ⟨Option.not_isSome_iff_eq_none.mp hseen, hreply, happends, hsame, h⟩
    cases hevent : buildEvent cfg kit parsed with
    | error e =>
      refine iff_of_false ?_ fun h => h (hspoils (.inl ⟨e, hevent⟩))
      rintro (⟨answer, ha, -⟩ | h)
      · cases ha
      · exact hchanged h
    | ok event =>
      dsimp only
      split_ifs with hfull
      · refine iff_of_false ?_ fun h => h (hspoils (.inr (by rwa [← hinbox])))
        rintro (⟨answer, ha, hstatus⟩ | h)
        · obtain rfl := Except.ok.inj ha
          cases hstatus
        · exact hchanged h
      · refine iff_of_true (.inl ⟨_, rfl, rfl⟩) fun h => ?_
        obtain ⟨e, he⟩ | hlen := h.fails
        · cases hevent.symm.trans he
        · exact hfull (by rwa [hinbox])
  · exact iff_of_true (hkeeps hfile) fun h => hnot ⟨h.reply, h.appends⟩

/-- What spoils depends on the three stores only. -/
theorem Spoils.congr (h : Unchanged s t) :
    Spoils cfg kit meets parsed t ↔ Spoils cfg kit meets parsed s := by
  constructor <;> rintro ⟨hunseen, hreply, happends, hchanges, hfails⟩
  · rw [h.seen] at hunseen
    rw [h.closed] at happends hchanges
    rw [h.inbox] at hfails
    exact ⟨hunseen, hreply, happends, hchanges, hfails⟩
  · rw [← h.seen] at hunseen
    rw [← h.closed] at happends hchanges
    rw [← h.inbox] at hfails
    exact ⟨hunseen, hreply, happends, hchanges, hfails⟩

theorem Unchanged.trans {u : Adapter} (h : Unchanged s t) (h' : Unchanged t u) : Unchanged s u :=
  ⟨h'.inbox.trans h.inbox, h'.seen.trans h.seen, h'.closed.trans h.closed⟩

theorem Unchanged.symm (h : Unchanged s t) : Unchanged t s :=
  ⟨h.inbox.symm, h.seen.symm, h.closed.symm⟩

/-- The handler after its last wait. -/
theorem takeIn_iff (cfg : Config) (kit : Kit) (meets : Meets) (p : Pending) (s : Adapter) :
    ((∃ answer, (takeIn cfg kit meets p s).1 = .ok answer ∧ answer.status = 202) ∨
        Unchanged s (takeIn cfg kit meets p s).2) ↔
      ¬ ∃ parsed, Passes cfg kit meets p parsed s ∧ Spoils cfg kit meets parsed s := by
  have hun := screen_unchanged cfg kit meets p s
  have hpasses : ∀ parsed, (screen cfg kit meets p s).1 = .ok parsed ↔
      Passes cfg kit meets p parsed s := fun _ => screen_ok_iff
  unfold takeIn
  generalize screen cfg kit meets p s = screened at hun hpasses
  obtain ⟨answer | parsed, s'⟩ := screened
  · apply iff_of_true (.inr hun)
    rintro ⟨parsed, h, -⟩
    cases (hpasses parsed).mpr h
  · have hmine := (hpasses parsed).mp rfl
    have hgoes : (Unchanged s (enqueue cfg kit meets p parsed s').2 ↔
        Unchanged s' (enqueue cfg kit meets p parsed s').2) :=
      ⟨fun h => hun.symm.trans h, fun h => hun.trans h⟩
    dsimp only
    rw [hgoes, enqueue_iff, Spoils.congr hun, not_iff_not]
    constructor
    · intro h
      exact ⟨parsed, hmine, h⟩
    · rintro ⟨parsed', h, hspoils⟩
      obtain rfl : parsed = parsed' := Except.ok.inj ((hpasses parsed').mpr h)
      exact hspoils

/-! ## One step of a request -/

/-- The step is the one in which a verified terminator records its anchor and is then refused. -/
def SpoilsAt (cfg : Config) (kit : Kit) (s : Adapter) : Event → Prop
  | .resume conn meets => ∃ p parsed, s.waiting conn = some p ∧ p.passes kit ∧
      Passes cfg kit meets p parsed s ∧ Spoils cfg kit meets parsed s
  | _ => False

/-- **A message that is not accepted changes nothing**, unless it is a terminator that has passed
every check, records its anchor, and then cannot be built into an event or meets a full inbox. -/
theorem unaccepted_changes_nothing_iff (he : e.ofRequest = true) (hstep : step cfg kit s e = some t) :
    (Accepts s t ∨ Unchanged s t) ↔ ¬ SpoilsAt cfg kit s e := by
  cases e with
  | take | closedElsewhere file => cases he
  | arrive conn request publicKey now =>
    refine iff_of_true (.inr ?_) id
    rcases (step_arrive hstep).2 with ⟨p, -, rfl⟩ | ⟨answer, -, rfl⟩
    · exact ⟨rfl, rfl, rfl⟩
    · exact ⟨rfl, rfl, rfl⟩
  | resume conn meets =>
    obtain ⟨p, hp, hstep⟩ := Option.bind_eq_some_iff.mp hstep
    split_ifs at hstep
    obtain rfl := Option.some.inj hstep
    by_cases hpass : p.passes kit
    · have hanswers := (takeIn_cases cfg kit meets p { s with clock := meets.sweptAt }).2.2.1
      have hiff := takeIn_iff cfg kit meets p { s with clock := meets.sweptAt }
      rw [resume_passes hpass]
      generalize takeIn cfg kit meets p { s with clock := meets.sweptAt } = taken at hanswers hiff
      have haccepts : Accepts s (taken.2.answer conn taken.1) ↔
          ∃ answer, taken.1 = .ok answer ∧ answer.status = 202 := by
        constructor
        · rintro ⟨conn', answer, ha, hstatus⟩
          exact ⟨answer, (Prod.mk.inj (List.cons.inj ha).1).2, hstatus⟩
        · rintro ⟨answer, ha, hstatus⟩
          refine ⟨conn, answer, ?_, hstatus⟩
          show (conn, taken.1) :: taken.2.answers = _
          rw [ha, hanswers]
      have hunchanged : Unchanged s (taken.2.answer conn taken.1) ↔
          Unchanged { s with clock := meets.sweptAt } taken.2 :=
        ⟨fun h => ⟨h.inbox, h.seen, h.closed⟩, fun h => ⟨h.inbox, h.seen, h.closed⟩⟩
      rw [haccepts, hunchanged, hiff, not_iff_not]
      constructor
      · rintro ⟨parsed, h, hspoils⟩
        exact ⟨p, parsed, hp, hpass, ⟨⟨h.envelope, h.sender, h.recipient, h.thread⟩, h.rate⟩,
          ⟨hspoils.unseen, hspoils.reply, hspoils.appends, hspoils.changes, hspoils.fails⟩⟩
      · rintro ⟨p', parsed, hp', -, h, hspoils⟩
        obtain rfl : p = p' := Option.some.inj (hp.symm.trans hp')
        exact ⟨parsed, ⟨⟨h.envelope, h.sender, h.recipient, h.thread⟩, h.rate⟩,
          ⟨hspoils.unseen, hspoils.reply, hspoils.appends, hspoils.changes, hspoils.fails⟩⟩
    · obtain ⟨answers, waits, -, -, heq⟩ := resume_fails cfg conn meets
        { s with clock := meets.sweptAt } hpass
      rw [heq]
      refine iff_of_true (.inr ⟨rfl, rfl, rfl⟩) ?_
      rintro ⟨p', -, hp', hpass', -⟩
      obtain rfl : p = p' := Option.some.inj (hp.symm.trans hp')
      exact hpass hpass'

/-! ## A terminator that meets a full inbox -/

/-- The text of a terminator from zero. -/
def byeText : String := "[mesh][v:1][from:zero][to:vera][id:m1][action:info][reply:end] bye"

def byeBody : String := "\x7b\"text\": \"" ++ byeText ++ "\", \"from\": \"zero\"\x7d"

/-- A kit that can read it. -/
def byeKit : Kit :=
  { sampleKit with
    loads := fun body =>
      if body = byeBody then .ok (.obj [("text", .str byeText), ("from", .str "zero")])
      else .error (.valueError "Expecting value")
    float := fun text => if text = "1000" then some 1000 else none }

def signedBye : Request where
  timestamp := "1000"
  signature := "1000\n" ++ byeBody
  body := byeBody

/-- The terminator arrives, and its signature is verified. -/
def byeArrives : Event := .arrive 0 signedBye (fun _ => "key") 1000

def byeResumes : Event := .resume 0 { rateAt := 1000, seenAt := 1000, sweptAt := 1000 }

/-- An inbox with no room left. -/
def fullAdapter : Adapter :=
  { freshAdapter with
    inbox := List.replicate inboxSize
      ⟨"up", { chatId := "", chatName := "", chatType := "", userId := "", userName := "" }, "m0"⟩ }

/-- The status codes of the answers so far, and whether the thread is closed. -/
def aftermath (s : Adapter) : List (Option ℕ) × Bool :=
  (s.answers.map fun a => a.2.toOption.map (·.status),
    s.closed.file.entries.any (Threads.ofAnchor "m1"))

/-- The two steps of a request, seen apart. -/
theorem two_steps {first second : Event} {report : Adapter → List (Option ℕ) × Bool}
    {before after : List (Option ℕ) × Bool}
    (h : (step cfg kit s first).map (fun u => (report u, (step cfg kit u second).map report)) =
      some (before, some after)) :
    ∃ u t, step cfg kit s first = some u ∧ step cfg kit u second = some t ∧ report u = before ∧
      report t = after := by
  obtain ⟨u, hu, hboth⟩ := Option.map_eq_some_iff.mp h
  obtain ⟨hbefore, hafter⟩ := Prod.mk.inj hboth
  obtain ⟨t, ht, hreport⟩ := Option.map_eq_some_iff.mp hafter
  exact ⟨u, t, hu, ht, hbefore, hreport⟩

theorem unaccepted_changes_nothing_iff_bye :
    ∃ s t, step vera byeKit freshAdapter byeArrives = some s ∧ step vera byeKit s byeResumes = some t ∧
      ((Accepts s t ∨ Unchanged s t) ↔ ¬ SpoilsAt vera byeKit s byeResumes) := by
  have h : (step vera byeKit freshAdapter byeArrives).map (fun u =>
      (aftermath u, (step vera byeKit u byeResumes).map aftermath)) =
        some (([], false), some ([some 202], true)) := by decide +kernel
  obtain ⟨s, t, hs, ht, -, -⟩ := two_steps h
  exact ⟨s, t, hs, ht, unaccepted_changes_nothing_iff rfl ht⟩

/-- The terminator is refused as busy, and its thread is closed. -/
theorem busy_terminator_closes :
    ∃ s t, step vera byeKit fullAdapter byeArrives = some s ∧ step vera byeKit s byeResumes = some t ∧
      ¬ (Accepts s t ∨ Unchanged s t) := by
  have h : (step vera byeKit fullAdapter byeArrives).map (fun u =>
      (aftermath u, (step vera byeKit u byeResumes).map aftermath)) =
        some (([], false), some ([some 503], true)) := by decide +kernel
  obtain ⟨s, t, hs, ht, hbefore, hafter⟩ := two_steps h
  refine ⟨s, t, hs, ht, ?_⟩
  obtain ⟨-, hopen⟩ := Prod.mk.inj hbefore
  obtain ⟨hstatus, hclosed⟩ := Prod.mk.inj hafter
  rintro (⟨conn, answer, ha, h202⟩ | hun)
  · rw [ha, List.map_cons] at hstatus
    have hhead : some answer.status = some 503 := (List.cons.inj hstatus).1
    rw [h202] at hhead
    exact absurd (Option.some.inj hhead) (by decide)
  · rw [hun.closed, hopen] at hclosed
    cases hclosed

end HermesMesh.Intake
