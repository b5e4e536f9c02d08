import HermesMesh.IntakeSafety

/-!
# What a duplicate answer proves

Every sender scores the answer `duplicate` as an arrival. The seen-id table is keyed by the message id
alone, and senders may choose their ids, so the answer may be due to a message of somebody else
(`duplicate_of_another`). It proves an arrival exactly as long as no message comes to the duplicate
check under an id that the table remembers of another sender (`duplicate_proves_iff`).
-/

namespace HermesMesh.Intake

open Lib

variable {cfg : Config} {kit : Kit} {meets : Meets} {p : Pending} {parsed : Parsed}
  {s t : Adapter} {e : Event} {conn : ℕ} {es : List Event}

/-! ## Whose message the table remembers -/

/-- The entry of an id was stored for `a`: it is the newest message taken in under this id. -/
def Adapter.Remembers (s : Adapter) (id : String) (a : Accepted) : Prop :=
  (id, a.seenAt) ∈ s.seen ∧ s.accepted.find? (fun a => a.messageId = id) = some a

/-- Every entry of the table was stored for a message. -/
def Tabled (s : Adapter) : Prop :=
  ∀ id time, (id, time) ∈ s.seen → ∃ a, a.seenAt = time ∧ s.Remembers id a

theorem Adapter.Remembers.mem {id : String} {a : Accepted} (h : s.Remembers id a) :
    a ∈ s.accepted ∧ a.messageId = id :=
  ⟨List.mem_of_find?_eq_some h.2, by simpa using List.find?_some h.2⟩

theorem expireSeenMessages_subset (cfg : Config) (now : Time) (seen : List (String × Time)) :
    expireSeenMessages cfg now seen ⊆ seen :=
  fun _ h => List.mem_of_mem_filter (List.mem_of_mem_drop h)

theorem lookup_isSome_iff_mem {seen : List (String × Time)} {id : String} :
    (seen.lookup id).isSome = true ↔ ∃ time, (id, time) ∈ seen := by
  rw [List.lookup_isSome_iff]
  simp

/-- Taking a message in adds the entry of its id, and may drop others. -/
theorem TakesIn.tabled (h : TakesIn cfg kit meets p parsed s t) (htabled : Tabled s) :
    Tabled t := by
  intro id time hmem
  unfold Adapter.Remembers
  have hold := hmem
  rw [h.seen] at hmem
  rw [h.accepted]
  rcases List.mem_append.mp (expireSeenMessages_subset cfg _ _ hmem) with hmem | hmem
  · have hne : parsed.msgId ≠ id := by
      rintro rfl
      have hsome := lookup_isSome_iff_mem.mpr ⟨time, hmem⟩
      rw [h.unseen] at hsome
      cases hsome
    obtain ⟨a, rfl, -, hfind⟩ := htabled id time hmem
    refine ⟨a, rfl, hold, ?_⟩
    rw [List.find?_cons_of_neg (by simpa using hne), hfind]
  · cases List.mem_singleton.mp hmem
    exact ⟨⟨p.request, parsed.msgId, meets.seenAt, meets.sweptAt⟩, rfl, hold, by simp⟩

theorem step_tabled (hchecked : Checked cfg kit s) (h : Tabled s)
    (hstep : step cfg kit s e = some t) : Tabled t := by
  obtain ⟨-, -, hrefuses | ⟨conn, meets, p, parsed, htakes⟩⟩ := step_cases hchecked hstep
  · unfold Tabled Adapter.Remembers
    rw [hrefuses.seen, hrefuses.accepted]
    exact h
  · exact htakes.tabled h

/-! ## When the answer is duplicate -/

/-- The answer of the duplicate check. -/
def duplicate : Answer := said 200 "duplicate"

theorem receive_status {publicKey : String → String} {now : Time} {r : Request} {answer : Answer}
    (h : receive cfg kit publicKey now r = .ok (.inl answer)) : answer.status ≠ 200 := by
  have hsaid : ∀ {status text}, status ≠ 200 → (said status text).status ≠ 200 := id
  unfold receive at h
  split at h
  · rw [← Sum.inl.inj (Except.ok.inj h)]
    exact hsaid (by decide)
  · cases h
  · dsimp only at h
    split_ifs at h
    · rw [← Sum.inl.inj (Except.ok.inj h)]
      exact hsaid (by decide)
    · cases h
    · rw [← Sum.inl.inj (Except.ok.inj h)]
      exact hsaid (by decide)
    · split at h
      · cases h
      · rw [← Sum.inl.inj (Except.ok.inj h)]
        exact hsaid (by decide)
  · rw [← Sum.inl.inj (Except.ok.inj h)]
    exact hsaid (by decide)

theorem screen_status {answer : Answer} {s' : Adapter}
    (h : screen cfg kit meets p s = (.error answer, s')) : answer.status ≠ 200 := by
  unfold screen at h
  split at h
  · obtain rfl := Except.error.inj (Prod.mk.inj h).1
    decide
  · dsimp only at h
    split_ifs at h
    all_goals first
      | cases (Prod.mk.inj h).1
        done
      | rw [← Except.error.inj (Prod.mk.inj h).1]
        simp [said]

/-- The checks before the duplicate check read clocks of their own. -/
theorem screen_clock (cfg : Config) (kit : Kit) (meets : Meets) (p : Pending) (s : Adapter)
    (clock : Time) :
    (screen cfg kit meets p { s with clock }).1 = (screen cfg kit meets p s).1 := by
  unfold screen
  split
  · rfl
  · dsimp only
    split_ifs <;> rfl

theorem enqueue_duplicate (cfg : Config) (kit : Kit) (meets : Meets) (p : Pending)
    (parsed : Parsed) (s : Adapter) :
    (enqueue cfg kit meets p parsed s).1 = .ok duplicate ↔
      (s.seen.lookup parsed.msgId).isSome = true := by
  have hstatus : ∀ {answer : Answer}, answer.status ≠ 200 →
      (Except.ok answer : Except PyError Answer) ≠ .ok duplicate := by
    intro answer hne heq
    rw [Except.ok.inj heq] at hne
    exact hne rfl
  unfold enqueue
  split_ifs with hseen
  · exact iff_of_true rfl hseen
  · refine iff_of_false ?_ hseen
    split
    · nofun
    · split
      · nofun
      · split_ifs
        · exact hstatus (by simp)
        · exact hstatus (by simp)

theorem takeIn_duplicate (cfg : Config) (kit : Kit) (meets : Meets) (p : Pending) (s : Adapter) :
    (takeIn cfg kit meets p s).1 = .ok duplicate ↔
      ∃ parsed, (screen cfg kit meets p s).1 = .ok parsed ∧
        (s.seen.lookup parsed.msgId).isSome = true := by
  have hseen : (screen cfg kit meets p s).2.seen = s.seen :=
    congrArg Prod.fst (screen_books cfg kit meets p s)
  unfold takeIn
  cases hscreen : screen cfg kit meets p s with
  | mk result s' =>
    rw [hscreen] at hseen
    cases result with
    | error answer =>
      constructor
      · intro heq
        have hne := screen_status hscreen
        rw [Except.ok.inj heq] at hne
        exact absurd rfl hne
      · rintro ⟨parsed, hparsed, -⟩
        cases hparsed
    | ok parsed =>
      rw [← hseen]
      refine (enqueue_duplicate cfg kit meets p parsed s').trans ⟨fun h => ⟨parsed, rfl, h⟩, ?_⟩
      rintro ⟨parsed', hparsed, h⟩
      rwa [Except.ok.inj hparsed]

/-- What the answer log gains where a waiting request goes on. -/
theorem resume_answers (cfg : Config) (kit : Kit) (conn : ℕ) (meets : Meets) (p : Pending)
    (s : Adapter) :
    (p.passes kit ∧ (resume cfg kit conn meets p s).answers =
        (conn, (takeIn cfg kit meets p s).1) :: s.answers) ∨
      (¬ p.passes kit ∧ ((resume cfg kit conn meets p s).answers = s.answers ∨
        (resume cfg kit conn meets p s).answers =
          (conn, .ok (said 401 "unauthorized")) :: s.answers)) := by
  by_cases hpass : p.passes kit
  · refine .inl ⟨hpass, ?_⟩
    rw [resume_passes hpass, ← (takeIn_cases cfg kit meets p s).2.2.1]
    rfl
  · obtain ⟨answers, waits, -, hanswers, heq⟩ := resume_fails cfg conn meets s hpass
    rw [heq]
    exact .inr ⟨hpass, hanswers⟩

/-- A request that has only arrived is answered otherwise. -/
theorem arrive_duplicate {request : Request} {publicKey : String → String} {now : Time} {conn' : ℕ}
    (hstep : step cfg kit s (.arrive conn' request publicKey now) = some t) :
    t.answers ≠ (conn, .ok duplicate) :: s.answers := by
  intro heq
  rcases (step_arrive hstep).2 with ⟨p, -, rfl⟩ | ⟨answer, hreceive, rfl⟩
  · exact List.cons_ne_self _ _ heq.symm
  · obtain rfl : answer = .ok duplicate := (Prod.mk.inj (List.cons.inj heq).1).2
    exact receive_status hreceive rfl

/-- The step answers `duplicate` where a verified message passes the checks before, and the table
holds its id. -/
theorem step_duplicate (hstep : step cfg kit s e = some t) :
    t.answers = (conn, .ok duplicate) :: s.answers ↔
      ∃ meets p parsed, e = .resume conn meets ∧ s.waiting conn = some p ∧ p.passes kit ∧
        (screen cfg kit meets p s).1 = .ok parsed ∧
        (s.seen.lookup parsed.msgId).isSome = true := by
  have hother : (∀ meets, e ≠ .resume conn meets) → ¬ ∃ meets p parsed, e = .resume conn meets ∧
      s.waiting conn = some p ∧ p.passes kit ∧ (screen cfg kit meets p s).1 = .ok parsed ∧
      (s.seen.lookup parsed.msgId).isSome = true := by
    rintro hne ⟨meets, p, parsed, he, -⟩
    exact hne meets he
  have hsilent : s.answers ≠ (conn, .ok duplicate) :: s.answers := (List.cons_ne_self _ _).symm
  cases e with
  | arrive conn' request publicKey now =>
    exact iff_of_false (arrive_duplicate hstep) (hother fun _ he => by cases he)
  | resume conn' meets =>
    obtain ⟨p, hp, hstep⟩ := Option.bind_eq_some_iff.mp hstep
    split_ifs at hstep with hclock
    obtain rfl := Option.some.inj hstep
    have htakeIn := takeIn_duplicate cfg kit meets p { s with clock := meets.sweptAt }
    rw [screen_clock] at htakeIn
    rcases resume_answers cfg kit conn' meets p { s with clock := meets.sweptAt } with
      ⟨hpass, hanswers⟩ | ⟨hpass, hanswers⟩
    · rw [hanswers]
      constructor
      · intro heq
        obtain ⟨rfl, htaken⟩ := Prod.mk.inj (List.cons.inj heq).1
        obtain ⟨parsed, hscreen, hseen⟩ := htakeIn.mp htaken
        exact ⟨meets, p, parsed, rfl, hp, hpass, hscreen, hseen⟩
      · rintro ⟨meets', p', parsed, he, hp', -, hscreen, hseen⟩
        cases he
        obtain rfl := Option.some.inj (hp.symm.trans hp')
        rw [htakeIn.mpr ⟨parsed, hscreen, hseen⟩]
    · refine iff_of_false (fun heq => ?_) ?_
      · rcases hanswers with hanswers | hanswers
        · exact hsilent (hanswers.symm.trans heq)
        · rw [hanswers] at heq
          have hanswer := Except.ok.inj (Prod.mk.inj (List.cons.inj heq).1).2
          exact absurd (congrArg Answer.status hanswer) (by decide)
      · rintro ⟨meets', p', parsed, he, hp', hpass', -⟩
        cases he
        obtain rfl := Option.some.inj (hp.symm.trans hp')
        exact hpass hpass'
  | take =>
    obtain rfl := Option.some.inj hstep
    exact iff_of_false hsilent (hother fun _ he => by cases he)
  | closedElsewhere file =>
    obtain rfl := Option.some.inj hstep
    exact iff_of_false hsilent (hother fun _ he => by cases he)

/-! ## What it proves -/

/-- Where the step answers `duplicate`, a message of the same sender was taken in under the same id,
and the table does not remember the id of anybody else. -/
def Proves (cfg : Config) (kit : Kit) (s : Adapter) (e : Event) : Prop :=
  ∀ t conn, step cfg kit s e = some t → t.answers = (conn, .ok duplicate) :: s.answers →
    ∃ p parsed, s.waiting conn = some p ∧
      parseEnvelope kit.valid kit.repr (requestText kit p.request) = some parsed ∧
      (∃ a ∈ s.accepted, a.messageId = parsed.msgId ∧ a.sender kit = some parsed.sender) ∧
      ∀ a, s.Remembers parsed.msgId a → a.sender kit = some parsed.sender

/-- A verified message that passes the checks before the duplicate check does not carry an id that
the table remembers of another sender. -/
def OwnIds (cfg : Config) (kit : Kit) (s : Adapter) : Event → Prop
  | .resume conn meets => ∀ p parsed, s.waiting conn = some p → p.passes kit →
      (screen cfg kit meets p s).1 = .ok parsed →
      ∀ a, s.Remembers parsed.msgId a → a.sender kit = some parsed.sender
  | _ => True

theorem screen_envelope (h : (screen cfg kit meets p s).1 = .ok parsed) :
    parseEnvelope kit.valid kit.repr p.text = some parsed := by
  have hscreen : screen cfg kit meets p s = (.ok parsed, (screen cfg kit meets p s).2) :=
    Prod.ext h rfl
  exact (screen_ok hscreen).envelope

theorem proves_of_ownIds (hchecked : Checked cfg kit s) (htabled : Tabled s)
    (h : OwnIds cfg kit s e) : Proves cfg kit s e := by
  intro t conn hstep hanswer
  obtain ⟨meets, p, parsed, rfl, hp, hpass, hscreen, hseen⟩ := (step_duplicate hstep).mp hanswer
  have hown := h p parsed hp hpass hscreen
  obtain ⟨time, hmem⟩ := lookup_isSome_iff_mem.mp hseen
  obtain ⟨a, -, ha⟩ := htabled _ time hmem
  refine ⟨p, parsed, hp, ?_, ⟨a, ha.mem.1, ha.mem.2, hown a ha⟩, hown⟩
  rw [← (hchecked conn p hp).text]
  exact screen_envelope hscreen

theorem ownIds_of_proves (hchecked : Checked cfg kit s) (hstep : step cfg kit s e = some t)
    (h : Proves cfg kit s e) : OwnIds cfg kit s e := by
  cases e with
  | resume conn meets =>
    intro p parsed hp hpass hscreen a ha
    have hseen := lookup_isSome_iff_mem.mpr ⟨_, ha.1⟩
    obtain ⟨p', parsed', hp', hparse, -, hown⟩ := h t conn hstep
      ((step_duplicate hstep).mpr ⟨meets, p, parsed, rfl, hp, hpass, hscreen, hseen⟩)
    obtain rfl := Option.some.inj (hp.symm.trans hp')
    rw [← (hchecked conn p hp).text, screen_envelope hscreen] at hparse
    obtain rfl := Option.some.inj hparse
    exact hown a ha
  | arrive conn request publicKey now => trivial
  | take => trivial
  | closedElsewhere file => trivial

/-- **When a duplicate answer proves arrival.** Every answer of a run proves it exactly where every
step of the run meets the condition. -/
theorem duplicate_proves_iff (h0 : Start s) :
    Run (step cfg kit) (Proves cfg kit) s es t ↔ Run (step cfg kit) (OwnIds cfg kit) s es t := by
  have hstart : Checked cfg kit s ∧ Tabled s := by
    refine ⟨h0.kept.checked, fun id time hmem => ?_⟩
    rw [h0.seen] at hmem
    cases hmem
  have hkeep : ∀ {s e t}, Checked cfg kit s ∧ Tabled s → step cfg kit s e = some t →
      Checked cfg kit t ∧ Tabled t :=
    fun h hstep => ⟨(step_cases h.1 hstep).1, step_tabled h.1 h.2 hstep⟩
  constructor
  · intro hrun
    exact hrun.refine (fun _ _ _ h _ hstep => hkeep h hstep)
      (fun _ _ _ h hproves hstep => ownIds_of_proves h.1 hstep hproves) hstart
  · intro hrun
    exact hrun.refine (fun _ _ _ h _ hstep => hkeep h hstep)
      (fun _ _ _ h hown _ => proves_of_ownIds h.1 h.2 hown) hstart

/-- All that was taken in comes from the sender of the waiting message. -/
def oneSender (kit : Kit) (s : Adapter) : Event → Bool
  | .resume conn _ => (s.waiting conn).all fun p => s.accepted.all fun a =>
      a.sender kit = (parseEnvelope kit.valid kit.repr p.text).map (·.sender)
  | _ => true

theorem ownIds_of_oneSender (h : oneSender kit s e = true) : OwnIds cfg kit s e := by
  cases e with
  | resume conn meets =>
    intro p parsed hp _ hscreen a ha
    unfold oneSender at h
    dsimp only at h
    rw [hp, Option.all_some, List.all_eq_true] at h
    have hsender := of_decide_eq_true (h a ha.mem.1)
    rwa [screen_envelope hscreen] at hsender
  | arrive conn request publicKey now => trivial
  | take => trivial
  | closedElsewhere file => trivial

/-- A message that is sent twice. -/
theorem duplicate_proves_iff_resent : ∃ t, exec (step vera sampleKit) freshAdapter resent = some t ∧
    Run (step vera sampleKit) (Proves vera sampleKit) freshAdapter resent t := by
  have hends : (exec (checked (oneSender sampleKit) (step vera sampleKit)) freshAdapter
      resent).isSome = true := by
    decide +kernel
  obtain ⟨t, ht⟩ := Option.isSome_iff_exists.mp hends
  have hrun : Run (step vera sampleKit) (OwnIds vera sampleKit) freshAdapter resent t :=
    (run_of_checked ht).mono fun s e h => ownIds_of_oneSender h
  exact ⟨t, hrun.exec_eq, (duplicate_proves_iff freshAdapter_start).mpr hrun⟩

/-- The body of a message under the id `m1`. -/
def letterBody (sender : String) : String :=
  "\x7b\"text\": \"[mesh][v:1][from:" ++ sender ++ "][to:vera][id:m1][action:info][reply:no] up\", " ++
    "\"from\": \"" ++ sender ++ "\"\x7d"

def letterPayload (sender : String) : Json :=
  .obj [("text", .str ("[mesh][v:1][from:" ++ sender ++ "][to:vera][id:m1][action:info][reply:no] up")),
    ("from", .str sender)]

/-- A kit that can read it from two senders. -/
def letterKit : Kit :=
  { sampleKit with
    loads := fun body =>
      if body = letterBody "zero" then .ok (letterPayload "zero")
      else if body = letterBody "nora" then .ok (letterPayload "nora")
      else .error (.valueError "Expecting value") }

def signedLetter (sender : String) : Request where
  timestamp := "1300"
  signature := "1300" ++ "\n" ++ letterBody sender
  body := letterBody sender

/-- Zero's message is taken in, and Nora's arrives under the same id. -/
def sharedId : List Event :=
  atOnce 0 (signedLetter "zero") 1300 ++ [.arrive 1 (signedLetter "nora") (fun _ => "key") 1310]

/-- Nora's message has not reached the inbox, and is answered as if it had. -/
theorem duplicate_of_another : ∃ s t, Run (step vera letterKit) Free freshAdapter sharedId s ∧
    step vera letterKit s (.resume 1 { rateAt := 1310, seenAt := 1310, sweptAt := 1310 }) = some t ∧
    t.answers = (1, .ok (said 200 "duplicate")) :: s.answers ∧
    (∀ a ∈ s.accepted, a.sender letterKit ≠ some "nora") ∧
    ¬ Proves vera letterKit s
      (.resume 1 { rateAt := 1310, seenAt := 1310, sweptAt := 1310 }) := by
  have hends : (exec (step vera letterKit) freshAdapter sharedId).bind (fun s =>
      (step vera letterKit s (.resume 1 { rateAt := 1310, seenAt := 1310, sweptAt := 1310 })).bind
        fun _ => (s.waiting 1).bind fun p =>
          (screen vera letterKit { rateAt := 1310, seenAt := 1310, sweptAt := 1310 } p s).1.toOption.map
            fun parsed =>
              (decide (p.stage = .signed "key" ∧ p.request = signedLetter "nora"), parsed.sender,
                (s.seen.lookup parsed.msgId).isSome, s.accepted.map (·.sender letterKit))) =
      some (true, "nora", true, [some "zero"]) := by
    decide +kernel
  obtain ⟨s, hs, hends⟩ := Option.bind_eq_some_iff.mp hends
  obtain ⟨t, ht, hends⟩ := Option.bind_eq_some_iff.mp hends
  obtain ⟨p, hp, hends⟩ := Option.bind_eq_some_iff.mp hends
  obtain ⟨parsed, hscreen, hends⟩ := Option.map_eq_some_iff.mp hends
  simp only [Prod.mk.injEq, decide_eq_true_iff] at hends
  obtain ⟨⟨hstage, hrequest⟩, hsender, hseen, haccepted⟩ := hends
  have hpass : p.passes letterKit := by
    unfold Pending.passes
    rw [hstage, hrequest]
    decide
  have hscreened : (screen vera letterKit { rateAt := 1310, seenAt := 1310, sweptAt := 1310 } p s).1 =
      .ok parsed := by
    cases hresult : (screen vera letterKit
        { rateAt := 1310, seenAt := 1310, sweptAt := 1310 } p s).1 with
    | error answer => rw [hresult] at hscreen; cases hscreen
    | ok found => rw [hresult] at hscreen; exact congrArg _ (Option.some.inj hscreen)
  have hanswers : t.answers = (1, .ok (said 200 "duplicate")) :: s.answers :=
    (step_duplicate ht).mpr ⟨_, p, parsed, rfl, hp, hpass, hscreened, hseen⟩
  have hzero : ∀ a ∈ s.accepted, a.sender letterKit ≠ some "nora" := by
    intro a ha hnora
    have hmem := List.mem_map_of_mem (f := (·.sender letterKit)) ha
    rw [haccepted, List.mem_singleton, hnora] at hmem
    exact absurd hmem (by decide)
  refine ⟨s, t, run_of_exec hs, ht, hanswers, hzero, fun hproves => ?_⟩
  obtain ⟨p', parsed', hp', hparse, ⟨a, ha, -, hown⟩, -⟩ := hproves t 1 ht hanswers
  obtain rfl := Option.some.inj (hp.symm.trans hp')
  have htext : parseEnvelope letterKit.valid letterKit.repr (requestText letterKit p.request) =
      some parsed := by
    rw [← (run_checked freshAdapter_start.waiting (run_of_exec hs) 1 p hp).text]
    exact screen_envelope hscreened
  obtain rfl := Option.some.inj (htext.symm.trans hparse)
  exact hzero a ha (hown.trans (congrArg some hsender))

end HermesMesh.Intake
