import HermesMesh.DuplicateAnswers
import HermesMesh.EnvelopeRoundTrip
import HermesMesh.IntakeSafety

/-!
# Whose allowance a request spends

Three names come with a request: the one whose signature is verified, the one in its envelope, and the
one whose bucket it is charged to. `_handle_mesh` charges the name in the envelope, and compares it
with the verified one only after that. So a sender can spend the allowance of another one: `TwinEvent`
sets two runs of the adapter side by side that differ in such requests alone, and
`rate_allowance_private_iff` says that they agree on everybody else's verdicts exactly where no limit
is set.
-/

namespace HermesMesh.Intake

open Lib

variable {cfg : Config} {kit : Kit} {meets : Meets} {p : Pending} {parsed : Parsed}
  {s t a b : Adapter} {e : Event} {conn : ℕ} {r spoof own : Request} {keys : String → String}
  {now : Time} {who named : String}

/-! ## Two runs -/

/-- A signed request of `who` whose envelope names `named`. -/
structure Pending.Names (kit : Kit) (who named : String) (p : Pending) : Prop where
  signed : p.stage ≠ .ready
  sender : p.sender = .str who
  envelope : ∃ parsed, parseEnvelope kit.valid kit.repr p.text = some parsed ∧ parsed.sender = named

/-- The event belongs to such a request. -/
def Spoofs (cfg : Config) (kit : Kit) (who named : String) (s : Adapter) : Event → Prop
  | .arrive _ request publicKey now =>
    ∃ p, receive cfg kit publicKey now request = .ok (.inr p) ∧ p.Names kit who named
  | .resume conn _ => ∃ p, s.waiting conn = some p ∧ p.Names kit who named
  | _ => False

/-- Something happens in both runs, or in one of them. -/
inductive TwinEvent where
  | both (e : Event)
  | left (e : Event)
  | right (e : Event)

def twinStep (cfg : Config) (kit : Kit) : Adapter × Adapter → TwinEvent → Option (Adapter × Adapter)
  | (a, b), .both e => do return (← step cfg kit a e, ← step cfg kit b e)
  | (a, b), .left e => do return (← step cfg kit a e, b)
  | (a, b), .right e => do return (a, ← step cfg kit b e)

/-- What happens in one run alone belongs to requests of `who` whose envelope names `named`. -/
def Apart (cfg : Config) (kit : Kit) (who named : String) (x : Adapter × Adapter) : TwinEvent → Prop
  | .both _ => True
  | .left e => Spoofs cfg kit who named x.1 e
  | .right e => Spoofs cfg kit who named x.2 e

/-- The step answers the request with 429. -/
def RateLimited (conn : ℕ) (s t : Adapter) : Prop :=
  ∃ answer, t.answers = (conn, .ok answer) :: s.answers ∧ answer.status = 429

/-- A request of `named` itself gets the same verdict in both runs. -/
def SameVerdict (kit : Kit) (named : String) (x y : Adapter × Adapter) : TwinEvent → Prop
  | .both (.resume conn _) =>
    ∀ p q, x.1.waiting conn = some p → x.2.waiting conn = some q →
      p.Names kit named named → q.Names kit named named →
        (RateLimited conn x.1 y.1 ↔ RateLimited conn x.2 y.2)
  | _ => True

/-- The answer to a request of `who` that names `named` sends no notice to `named`. -/
def Silent (kit : Kit) (who named : String) (s t : Adapter) : Event → Prop
  | .resume conn _ =>
    ∀ p answer notice, s.waiting conn = some p → p.Names kit who named →
      t.answers = (conn, .ok answer) :: s.answers → answer.notice = some notice →
        notice.recipient ≠ .str named
  | _ => True

def TwinSilent (kit : Kit) (who named : String) (x y : Adapter × Adapter) : TwinEvent → Prop
  | .both e => Silent kit who named x.1 y.1 e ∧ Silent kit who named x.2 y.2 e
  | .left e => Silent kit who named x.1 y.1 e
  | .right e => Silent kit who named x.2 y.2 e

/-- In any two runs that differ only in requests of `who` that name `named`, the requests of `named`
get the same verdicts, and `named` gets no notice of the others. -/
def Spared (cfg : Config) (kit : Kit) (who named : String) : Prop :=
  ∀ s es x e y, Start s → Run (twinStep cfg kit) (Apart cfg kit who named) (s, s) es x →
    Apart cfg kit who named x e → twinStep cfg kit x e = some y →
      SameVerdict kit named x y e ∧ TwinSilent kit who named x y e

/-- A request that comes in now is verified as one of `who`, and its envelope names `named`. -/
structure Speaks (cfg : Config) (kit : Kit) (keys : String → String) (now : Time)
    (who named : String) (r : Request) (p : Pending) : Prop where
  received : receive cfg kit keys now r = .ok (.inr p)
  names : p.Names kit who named
  passes : p.passes kit

/-! ## One request -/

theorem enqueue_status (cfg : Config) (kit : Kit) (meets : Meets) (p : Pending) (parsed : Parsed)
    (s : Adapter) : ¬ ∃ answer, (enqueue cfg kit meets p parsed s).1 = .ok answer ∧
      answer.status = 429 := by
  rintro ⟨answer, h, hstatus⟩
  unfold enqueue at h
  split_ifs at h
  · obtain rfl := Except.ok.inj h
    cases hstatus
  · split at h
    · cases h
    · split at h
      · cases h
      · split_ifs at h
        · obtain rfl := Except.ok.inj h
          cases hstatus
        · obtain rfl := Except.ok.inj h
          cases hstatus

/-- The screen refuses with 429 exactly where the envelope's sender is over the limit. -/
theorem screen_limited_iff (hparsed : parseEnvelope kit.valid kit.repr p.text = some parsed) :
    (∃ answer, (screen cfg kit meets p s).1 = .error answer ∧ answer.status = 429) ↔
      (checkRateLimit cfg.rateLimitPerMinute meets.rateAt parsed.sender s.buckets).1 = true := by
  unfold screen
  simp only [hparsed]
  generalize checkRateLimit cfg.rateLimitPerMinute meets.rateAt parsed.sender s.buckets = charged
  obtain ⟨limited, buckets⟩ := charged
  cases limited with
  | true => exact iff_of_true ⟨_, rfl, rfl⟩ rfl
  | false =>
    refine iff_of_false ?_ Bool.false_ne_true
    rw [if_neg Bool.false_ne_true]
    dsimp only
    split_ifs <;> simp [said]

/-- A message is answered with 429 exactly where its envelope's sender is over the limit. -/
theorem takeIn_limited_iff (hparsed : parseEnvelope kit.valid kit.repr p.text = some parsed) :
    (∃ answer, (takeIn cfg kit meets p s).1 = .ok answer ∧ answer.status = 429) ↔
      (checkRateLimit cfg.rateLimitPerMinute meets.rateAt parsed.sender s.buckets).1 = true := by
  rw [← screen_limited_iff hparsed]
  unfold takeIn
  generalize screen cfg kit meets p s = screened
  obtain ⟨answer | parsed', t⟩ := screened
  · simp
  · exact iff_of_false (enqueue_status cfg kit meets p parsed' t) (by simp)

/-- What a step does to a request that waits and goes on. -/
theorem resume_step (hp : s.waiting conn = some p) (hstep : step cfg kit s (.resume conn meets) = some t) :
    t = resume cfg kit conn meets p { s with clock := meets.sweptAt } := by
  obtain ⟨p', hp', hstep⟩ := Option.bind_eq_some_iff.mp hstep
  obtain rfl : p = p' := Option.some.inj (hp.symm.trans hp')
  split_ifs at hstep
  exact (Option.some.inj hstep).symm

/-- **The verdict.** A request that waits is answered with 429 exactly where it is verified and its
envelope's sender is over the limit. -/
theorem rateLimited_iff (hp : s.waiting conn = some p) (hnames : p.Names kit who named)
    (hstep : step cfg kit s (.resume conn meets) = some t) :
    RateLimited conn s t ↔ p.passes kit ∧
      (checkRateLimit cfg.rateLimitPerMinute meets.rateAt named s.buckets).1 = true := by
  obtain ⟨parsed, hparsed, rfl⟩ := hnames.envelope
  obtain rfl := resume_step hp hstep
  unfold RateLimited
  rcases resume_answers cfg kit conn meets p { s with clock := meets.sweptAt } with
    ⟨hpass, hanswers⟩ | ⟨hfail, hanswers⟩
  · have hlimited :=
      @takeIn_limited_iff cfg kit meets p parsed { s with clock := meets.sweptAt } hparsed
    rw [hanswers, and_iff_right hpass, ← hlimited]
    simp
  · refine iff_of_false ?_ fun h => hfail h.1
    rintro ⟨answer, h, hstatus⟩
    rcases hanswers with hsame | hrefused
    · have hlength := congrArg List.length (hsame.symm.trans h)
      simp at hlength
    · obtain rfl : said 401 "unauthorized" = answer := by simpa using hrefused.symm.trans h
      cases hstatus

/-- A request whose envelope names somebody else is charged to the one it names, and refused. -/
theorem takeIn_spoofed (hparsed : parseEnvelope kit.valid kit.repr p.text = some parsed)
    (hsender : p.sender = .str who) (hwho : who ≠ "") (hne : who ≠ parsed.sender) :
    takeIn cfg kit meets p s =
      (.ok (if (checkRateLimit cfg.rateLimitPerMinute meets.rateAt parsed.sender s.buckets).1 then
          { said 429 "rate limited" with
            notice := receiveDsn cfg p.request (.str parsed.sender) parsed.msgId "rate-limited" }
        else
          { said 401 "unauthorized" with
            notice := receiveDsn cfg p.request (.str who) parsed.msgId "unauthorized" }),
        { s with
          buckets :=
            (checkRateLimit cfg.rateLimitPerMinute meets.rateAt parsed.sender s.buckets).2 }) := by
  have hother : (p.sender.truthy && !p.sender.isStr parsed.sender) = true := by
    rw [hsender]
    simp [Json.truthy, hwho, hne]
  unfold takeIn screen
  simp only [hparsed]
  generalize checkRateLimit cfg.rateLimitPerMinute meets.rateAt parsed.sender s.buckets = charged
  obtain ⟨limited, buckets⟩ := charged
  cases limited with
  | true => rfl
  | false =>
    rw [if_neg Bool.false_ne_true, if_pos hother, hsender]
    rfl

theorem checkRateLimit_off {perMinute : ℤ} (h : perMinute ≤ 0) (now : Time) (sender : String)
    (buckets : String → Option (ℕ × Time)) :
    checkRateLimit perMinute now sender buckets = (false, buckets) := if_pos (.inl h)

/-- Without a limit a notice about such a request goes to the one who sent it. -/
theorem silent_off (hoff : cfg.rateLimitPerMinute ≤ 0) (hwho : who ≠ "") (hne : who ≠ named)
    (hstep : step cfg kit s e = some t) : Silent kit who named s t e := by
  cases e with
  | arrive | take | closedElsewhere => exact trivial
  | resume conn meets =>
    intro p answer notice hp hnames hanswer hnotice hto
    obtain ⟨parsed, hparsed, rfl⟩ := hnames.envelope
    obtain rfl := resume_step hp hstep
    have hlength : ∀ l : List (ℕ × Except PyError Answer), l ≠ (conn, .ok answer) :: l := by
      intro l h
      simpa using congrArg List.length h
    rcases resume_answers cfg kit conn meets p { s with clock := meets.sweptAt } with
      ⟨-, hanswers⟩ | ⟨-, hsame | hrefused⟩
    · rw [takeIn_spoofed hparsed hnames.sender hwho hne, checkRateLimit_off hoff] at hanswers
      have heq := hanswers.symm.trans hanswer
      obtain rfl := Except.ok.inj (Prod.mk.inj (List.cons.inj heq).1).2
      simp only [Bool.false_eq_true, if_false, receiveDsn] at hnotice
      split_ifs at hnotice
      obtain rfl := Option.some.inj hnotice
      exact hne (Json.str.inj hto)
    · exact hlength _ (hsame.symm.trans hanswer)
    · obtain rfl : said 401 "unauthorized" = answer := by simpa using hrefused.symm.trans hanswer
      cases hnotice

/-- Without a limit nobody's request is answered with 429. -/
theorem sameVerdict_off (hoff : cfg.rateLimitPerMinute ≤ 0) {x y : Adapter × Adapter}
    {e : TwinEvent} (hstep : twinStep cfg kit x e = some y) : SameVerdict kit named x y e := by
  have hnever : ∀ {s t : Adapter} {conn : ℕ} {meets : Meets} {p : Pending},
      s.waiting conn = some p → p.Names kit named named →
        step cfg kit s (.resume conn meets) = some t → ¬ RateLimited conn s t := by
    intro s t conn meets p hp hnames hs hlimited
    have h := ((rateLimited_iff hp hnames hs).mp hlimited).2
    rw [checkRateLimit_off hoff] at h
    cases h
  cases e with
  | left | right => exact trivial
  | both e =>
    cases e with
    | arrive | take | closedElsewhere => exact trivial
    | resume conn meets =>
      intro p q hp hq hpnames hqnames
      obtain ⟨a', ha, hrest⟩ := Option.bind_eq_some_iff.mp hstep
      obtain ⟨b', hb, hy⟩ := Option.bind_eq_some_iff.mp hrest
      obtain rfl := Option.some.inj hy
      exact iff_of_false (hnever hp hpnames ha) (hnever hq hqnames hb)

theorem twinSilent_off (hoff : cfg.rateLimitPerMinute ≤ 0) (hwho : who ≠ "") (hne : who ≠ named)
    {x y : Adapter × Adapter} {e : TwinEvent} (hstep : twinStep cfg kit x e = some y) :
    TwinSilent kit who named x y e := by
  cases e with
  | both e =>
    obtain ⟨a', ha, hrest⟩ := Option.bind_eq_some_iff.mp hstep
    obtain ⟨b', hb, hy⟩ := Option.bind_eq_some_iff.mp hrest
    obtain rfl := Option.some.inj hy
    exact ⟨silent_off hoff hwho hne ha, silent_off hoff hwho hne hb⟩
  | left e =>
    obtain ⟨a', ha, hy⟩ := Option.bind_eq_some_iff.mp hstep
    obtain rfl := Option.some.inj hy
    exact silent_off hoff hwho hne ha
  | right e =>
    obtain ⟨b', hb, hy⟩ := Option.bind_eq_some_iff.mp hstep
    obtain rfl := Option.some.inj hy
    exact silent_off hoff hwho hne hb

/-! ## An allowance spent by somebody else -/

/-- A request that is verified at once. -/
theorem Speaks.signed (h : Speaks cfg kit keys now who named r p) :
    who ≠ "" ∧ p.request = r := by
  have hsecure : cfg.insecure = false := by
    by_contra hinsecure
    obtain ⟨fields, -, -, -, -, ⟨-, -, hready⟩ | ⟨hsecure, -⟩⟩ := receive_waits h.received
    · exact h.names.signed hready
    · exact hinsecure hsecure
  obtain ⟨hrequest, ⟨⟨fields, raw, name, -, -, hname, hsender, -⟩, -⟩⟩ :=
    receive_received hsecure h.received
  refine ⟨?_, hrequest⟩
  obtain rfl : name = who := Json.str.inj (hsender.symm.trans h.names.sender)
  obtain ⟨c, rest, -, -, -, -, hchars⟩ := validateAgentName_ok hname
  rintro rfl
  rw [List.flatMap_cons] at hchars
  exact lowerName_ne_nil c (List.append_eq_nil_iff.mp hchars.symm).1

/-- A request that goes on at this time. -/
def atTime (now : Time) : Meets := { rateAt := now, seenAt := now, sweptAt := now }

theorem arrive_step (hreceived : receive cfg kit keys now r = .ok (.inr p)) (hclock : a.clock ≤ now)
    (hfree : a.waiting conn = none) :
    step cfg kit a (.arrive conn r keys now) = some ({ a with clock := now }.wait conn p) := by
  dsimp only [step]
  rw [if_pos ⟨hclock, by rw [hfree]; rfl⟩, hreceived]

theorem goOn_step (hp : a.waiting conn = some p) (hclock : a.clock ≤ now) :
    step cfg kit a (.resume conn (atTime now)) =
      some (resume cfg kit conn (atTime now) p { a with clock := now }) := by
  dsimp only [step]
  rw [hp]
  exact if_pos ⟨hclock, le_rfl, le_rfl⟩

@[simp] theorem wait_waiting (s : Adapter) (conn : ℕ) (p : Pending) :
    (s.wait conn p).waiting conn = some p := Function.update_self ..

@[simp] theorem answer_waiting (s : Adapter) (conn : ℕ) (answer : Except PyError Answer) :
    (s.answer conn answer).waiting conn = none := Function.update_self ..

/-- One request more in the left run charges the one it names. -/
theorem spoof_once (h : Speaks cfg kit keys now who named spoof p) (hne : who ≠ named)
    (hclock : a.clock ≤ now) (hfree : a.waiting 0 = none) :
    ∃ t, Run (twinStep cfg kit) (Apart cfg kit who named) (a, b)
        [.left (.arrive 0 spoof keys now), .left (.resume 0 (atTime now))] (t, b) ∧
      t.clock ≤ now ∧ t.waiting 0 = none ∧
        t.buckets = (checkRateLimit cfg.rateLimitPerMinute now named a.buckets).2 := by
  obtain ⟨parsed, hparsed, rfl⟩ := h.names.envelope
  let s := { a with clock := now }.wait 0 p
  have hwaits : s.waiting 0 = some p := wait_waiting ..
  have harrives : step cfg kit a (.arrive 0 spoof keys now) = some s :=
    arrive_step h.received hclock hfree
  have hresumes := @goOn_step cfg kit p s 0 now hwaits (le_refl now)
  refine ⟨_, .cons ⟨p, h.received, h.names⟩ (congrArg (Option.bind · _) harrives)
    (.cons ⟨p, hwaits, h.names⟩ (congrArg (Option.bind · _) hresumes) (.nil _)), ?_⟩
  rw [resume_passes h.passes, takeIn_spoofed hparsed h.names.sender h.signed.1 hne]
  exact ⟨le_rfl, answer_waiting .., rfl⟩

/-- What a bucket holds after so many charges at one time. -/
def spent (now : Time) (count : ℕ) : Option (ℕ × Time) := if count = 0 then none else some (count, now)

/-- One charge more: the limit is exceeded by the first charge beyond it. -/
theorem checkRateLimit_spent {perMinute : ℤ} (hon : 0 < perMinute) (hnamed : named ≠ "")
    {buckets : String → Option (ℕ × Time)} {count : ℕ} (h : buckets named = spent now count) :
    (checkRateLimit perMinute now named buckets).1 = decide (perMinute < ↑(count + 1)) ∧
      (checkRateLimit perMinute now named buckets).2 named = spent now (count + 1) := by
  have hcharges : ¬ (perMinute ≤ 0 ∨ named = "") := by
    rintro (hoff | hempty)
    · omega
    · exact hnamed hempty
  unfold checkRateLimit
  rw [if_neg hcharges, h]
  unfold spent
  cases count with
  | zero =>
    refine ⟨(decide_eq_false ?_).symm, Function.update_self ..⟩
    omega
  | succ count =>
    have hrecent : ¬ (60 : Time) < now - now := by simp
    rw [if_neg (Nat.succ_ne_zero count)]
    dsimp only
    rw [if_neg hrecent]
    exact ⟨rfl, Function.update_self ..⟩

/-- The left run alone spends a number of charges of `named`. -/
theorem spoof_many (h : Speaks cfg kit keys now who named spoof p) (hne : who ≠ named)
    (hon : 0 < cfg.rateLimitPerMinute) (hnamed : named ≠ "") (hclock : a.clock ≤ now)
    (hfree : a.waiting 0 = none) (hfresh : a.buckets named = none) (count : ℕ) :
    ∃ es t, Run (twinStep cfg kit) (Apart cfg kit who named) (a, b) es (t, b) ∧
      t.clock ≤ now ∧ t.waiting 0 = none ∧ t.buckets named = spent now count := by
  induction count with
  | zero => exact ⟨[], a, .nil _, hclock, hfree, hfresh⟩
  | succ count ih =>
    obtain ⟨es, u, hrun, huclock, hufree, hspent⟩ := ih
    obtain ⟨t, honce, htclock, htfree, hbuckets⟩ := spoof_once h hne huclock hufree
    refine ⟨_, t, hrun.append honce, htclock, htfree, ?_⟩
    rw [hbuckets]
    exact (checkRateLimit_spent hon hnamed hspent).2

/-- The last step of a request of `named` itself, after so many charges. -/
theorem own_verdict (h : Speaks cfg kit keys now named named own p)
    (hon : 0 < cfg.rateLimitPerMinute) (hp : a.waiting conn = some p) {count : ℕ}
    (hspent : a.buckets named = spent now count)
    (hstep : step cfg kit a (.resume conn (atTime now)) = some t) :
    RateLimited conn a t ↔ cfg.rateLimitPerMinute < ↑(count + 1) := by
  rw [rateLimited_iff hp h.names hstep, and_iff_right h.passes]
  show (checkRateLimit cfg.rateLimitPerMinute now named a.buckets).1 = true ↔ _
  rw [(checkRateLimit_spent hon h.signed.1 hspent).1, decide_eq_true_eq]

/-- With a limit, `who` can spend the allowance of `named`. -/
theorem not_spared {q : Pending} (hspoof : Speaks cfg kit keys now who named spoof p)
    (hown : Speaks cfg kit keys now named named own q) (hne : who ≠ named)
    (hon : 0 < cfg.rateLimitPerMinute) : ¬ Spared cfg kit who named := by
  intro hspared
  let s : Adapter := { closed := ⟨⟨.absent, none⟩, {}⟩, clock := now }
  obtain ⟨limit, hlimit⟩ := Int.eq_ofNat_of_zero_le hon.le
  obtain ⟨es, a, hrun, hclock, hfree, hspent⟩ :=
    @spoof_many cfg kit p s s spoof keys now who named hspoof hne hon hown.signed.1 le_rfl rfl rfl
      limit
  -- the request of `named` arrives in both runs, and goes on in both
  let a₁ := { a with clock := now }.wait 0 q
  let b₁ := { s with clock := now }.wait 0 q
  have ha₁ : step cfg kit a (.arrive 0 own keys now) = some a₁ := arrive_step hown.received hclock hfree
  have hb₁ : step cfg kit s (.arrive 0 own keys now) = some b₁ :=
    arrive_step hown.received le_rfl rfl
  have harrives : twinStep cfg kit (a, s) (.both (.arrive 0 own keys now)) = some (a₁, b₁) := by
    simp only [twinStep, ha₁, hb₁]
    rfl
  have haq : a₁.waiting 0 = some q := wait_waiting ..
  have hbq : b₁.waiting 0 = some q := wait_waiting ..
  obtain ⟨a₂, ha₂⟩ : ∃ t, step cfg kit a₁ (.resume 0 (atTime now)) = some t :=
    ⟨_, goOn_step haq le_rfl⟩
  obtain ⟨b₂, hb₂⟩ : ∃ t, step cfg kit b₁ (.resume 0 (atTime now)) = some t :=
    ⟨_, goOn_step hbq le_rfl⟩
  have hgoes : twinStep cfg kit (a₁, b₁) (.both (.resume 0 (atTime now))) = some (a₂, b₂) := by
    simp only [twinStep, ha₂, hb₂]
    rfl
  have hrun' : Run (twinStep cfg kit) (Apart cfg kit who named) (s, s)
      (es ++ [.both (.arrive 0 own keys now)]) (a₁, b₁) :=
    hrun.append (.cons trivial harrives (.nil _))
  have hverdict := (hspared s _ (a₁, b₁) (.both (.resume 0 (atTime now))) (a₂, b₂)
    ⟨rfl, rfl, fun _ => rfl⟩ hrun' trivial hgoes).1 q q haq hbq hown.names hown.names
  have hfresh : b₁.buckets named = spent now 0 := rfl
  have hleft : RateLimited 0 a₁ a₂ := (own_verdict hown hon haq hspent ha₂).mpr (by omega)
  have hright := (own_verdict hown hon hbq hfresh hb₂).mp (hverdict.mp hleft)
  omega

/-- **Nobody spends the allowance of another one.** Let `who` and `named` be two senders whose requests
can be verified at some time. In any two runs from a fresh adapter that differ only in requests of
`who` whose envelopes name `named`, the requests of `named` get the same verdicts and `named` gets no
notice of the others: this holds exactly where no rate limit is set. -/
theorem rate_allowance_private_iff {q : Pending} (hspoof : Speaks cfg kit keys now who named spoof p)
    (hown : Speaks cfg kit keys now named named own q) (hne : who ≠ named) :
    Spared cfg kit who named ↔ cfg.rateLimitPerMinute ≤ 0 := by
  constructor
  · intro hspared
    by_contra hon
    exact not_spared hspoof hown hne (not_le.mp hon) hspared
  · intro hoff s es x e y _ _ _ hstep
    exact ⟨sameVerdict_off hoff hstep, twinSilent_off hoff hspoof.signed.1 hne hstep⟩

/-! ## One charge of Nora's -/

/-- The text of a message that names `named` as its sender. -/
def namedText (named : String) : String :=
  "[mesh][v:1][from:" ++ named ++ "][to:vera][id:m1][action:info][reply:no] up"

/-- The body of a message of `who` that names `named`. -/
def namedBody (who named : String) : String :=
  "\x7b\"text\": \"" ++ namedText named ++ "\", \"from\": \"" ++ who ++ "\"\x7d"

/-- A kit that can read what Zero sends, and what Nora sends in Zero's name. -/
def namedKit : Kit :=
  { sampleKit with
    loads := fun body =>
      if body = namedBody "nora" "zero" then
        .ok (.obj [("text", .str (namedText "zero")), ("from", .str "nora")])
      else if body = namedBody "zero" "zero" then
        .ok (.obj [("text", .str (namedText "zero")), ("from", .str "zero")])
      else .error (.valueError "Expecting value") }

def signedNamed (who named : String) : Request where
  timestamp := "1300"
  signature := "1300\n" ++ namedBody who named
  body := namedBody who named

/-- Vera takes one message a minute from each sender. -/
def oneAMinute : Config := { vera with rateLimitPerMinute := 1 }

/-- A request that comes in at 1300 speaks. -/
def speaks (who named : String) : Bool :=
  match receive oneAMinute namedKit (fun _ => "key") 1300 (signedNamed who named) with
  | .ok (.inr p) =>
    p.signedWell namedKit && p.sender.isStr who &&
      match parseEnvelope namedKit.valid namedKit.repr p.text with
      | some parsed => decide (parsed.sender = named)
      | none => false
  | _ => false

theorem exists_of_speaks (who named : String) (h : speaks who named = true) :
    ∃ p, Speaks oneAMinute namedKit (fun _ => "key") 1300 who named (signedNamed who named) p := by
  unfold speaks at h
  split at h
  · rename_i p hreceived
    simp only [Bool.and_eq_true] at h
    obtain ⟨⟨hgood, hsender⟩, henvelope⟩ := h
    obtain ⟨hpass, hsigned⟩ := Pending.passes_of_signedWell hgood
    split at henvelope
    · rename_i parsed hparsed
      exact ⟨p, hreceived,
        ⟨hsigned, Json.isStr_iff.mp hsender, parsed, hparsed, of_decide_eq_true henvelope⟩, hpass⟩
    · cases henvelope
  · cases h

theorem rate_allowance_private_iff_nora :
    Spared oneAMinute namedKit "nora" "zero" ↔ oneAMinute.rateLimitPerMinute ≤ 0 := by
  obtain ⟨p, hspoof⟩ := exists_of_speaks "nora" "zero" (by decide +kernel)
  obtain ⟨q, hown⟩ := exists_of_speaks "zero" "zero" (by decide +kernel)
  exact rate_allowance_private_iff hspoof hown (by decide)

/-- One request of Nora's that names Zero spends Zero's only request of the minute. -/
theorem nora_spends_zeros_allowance : ¬ Spared oneAMinute namedKit "nora" "zero" := by
  obtain ⟨p, hspoof⟩ := exists_of_speaks "nora" "zero" (by decide +kernel)
  obtain ⟨q, hown⟩ := exists_of_speaks "zero" "zero" (by decide +kernel)
  exact not_spared hspoof hown (by decide) (by decide)

end HermesMesh.Intake
