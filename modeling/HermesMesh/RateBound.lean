import HermesMesh.EnvelopeRoundTrip
import HermesMesh.Intake
import HermesMesh.Lib.FixedWindow

/-!
# What the rate limit lets through

`_check_rate_limit` keeps one window a sender. A row of checks, of senders in any order, is for each
of them the counter of `Lib.FixedWindow` with a width of sixty seconds (`checkAll_own`): the checks of
one sender do not see those of another (`checkAll_filter`), no window lets more than the limit through,
and no minute more than twice that (`rate_bound`). A check without a sender is let through before
anything is counted; the adapter makes none (`parseEnvelope_sender_ne`).
-/

namespace HermesMesh.Intake

open Lib.FixedWindow

/-- One check: its time, its sender, its verdict, and the window of the sender after it. -/
structure RateCheck where
  now : Time
  sender : String
  limited : Bool
  window : Option (ℕ × Time)
  deriving DecidableEq, Repr

/-- The checks of times and senders, one after another. -/
def checkAll (perMinute : ℤ) : (String → Option (ℕ × Time)) → List (Time × String) → List RateCheck
  | _, [] => []
  | buckets, (now, sender) :: checks =>
    let (limited, buckets) := checkRateLimit perMinute now sender buckets
    ⟨now, sender, limited, buckets sender⟩ :: checkAll perMinute buckets checks

/-- The check is one of `sender`, and lets it through. -/
def RateCheck.Admits (sender : String) (c : RateCheck) : Prop := c.sender = sender ∧ c.limited = false

instance (sender : String) : DecidablePred (RateCheck.Admits sender) :=
  fun _ => inferInstanceAs (Decidable (_ ∧ _))

/-- How many checks let `sender` through in the window that started at `start`. -/
def admittedInWindow (sender : String) (start : Time) (run : List RateCheck) : ℕ :=
  run.countP fun c => c.Admits sender ∧ c.window.map Prod.snd = some start

/-- How many checks let `sender` through in the minute from `a` on, both ends included. -/
def admittedInMinute (sender : String) (a : Time) (run : List RateCheck) : ℕ :=
  run.countP fun c => c.Admits sender ∧ a ≤ c.now ∧ c.now ≤ a + 60

/-- The checks of `sender` among all. -/
def ofSender (sender : String) (run : List RateCheck) : List RateCheck := run.filter (·.sender = sender)

variable {L : ℤ} {buckets buckets' : String → Option (ℕ × Time)} {now : Time} {sender other : String}

/-! ## One check -/

/-- A check that counts is a turn of the counter. -/
theorem checkRateLimit_turn (hL : 0 < L) (hsender : sender ≠ "") :
    checkRateLimit L now sender buckets =
      (decide (L < (turn 60 now (buckets sender)).1),
        Function.update buckets sender (some (turn 60 now (buckets sender)))) := by
  have hone : decide (L < ((1 : ℕ) : ℤ)) = false := decide_eq_false (by omega)
  unfold checkRateLimit
  rw [if_neg (not_or.mpr ⟨hL.not_ge, hsender⟩)]
  rcases buckets sender with _ | ⟨count, start⟩
  · exact Prod.ext hone.symm rfl
  · dsimp only [turn]
    split_ifs
    · exact Prod.ext hone.symm rfl
    · rfl

theorem checkRateLimit_other (hne : sender ≠ other) :
    (checkRateLimit L now other buckets).2 sender = buckets sender := by
  unfold checkRateLimit
  split_ifs
  · rfl
  · rcases buckets other with _ | ⟨count, start⟩
    · exact Function.update_of_ne hne ..
    · dsimp only
      split_ifs
      · exact Function.update_of_ne hne ..
      · exact Function.update_of_ne hne ..

/-- A check reads and writes the window of its sender alone. -/
theorem checkRateLimit_congr (L : ℤ) (now : Time) (h : buckets sender = buckets' sender) :
    (checkRateLimit L now sender buckets).1 = (checkRateLimit L now sender buckets').1 ∧
      (checkRateLimit L now sender buckets).2 sender =
        (checkRateLimit L now sender buckets').2 sender := by
  unfold checkRateLimit
  split_ifs
  · exact ⟨rfl, h⟩
  · rw [h]
    rcases buckets' sender with _ | ⟨count, start⟩
    · exact ⟨rfl, by simp only [Function.update_self]⟩
    · dsimp only
      split_ifs
      · exact ⟨rfl, by simp only [Function.update_self]⟩
      · exact ⟨rfl, by simp only [Function.update_self]⟩

/-! ## A row of checks -/

/-- **The others do not count.** The checks of one sender come out as if there were no others. -/
theorem checkAll_filter (checks : List (Time × String)) (h : buckets sender = buckets' sender) :
    ofSender sender (checkAll L buckets checks) =
      checkAll L buckets' (checks.filter (·.2 = sender)) := by
  induction checks generalizing buckets buckets' with
  | nil => rfl
  | cons check checks ih =>
    obtain ⟨now, other⟩ := check
    unfold ofSender at ih ⊢
    simp only [checkAll, List.filter_cons]
    by_cases hother : other = sender
    · subst hother
      obtain ⟨hverdict, hwindow⟩ := checkRateLimit_congr L now h
      rw [if_pos (decide_eq_true rfl), if_pos (decide_eq_true rfl), checkAll, ih hwindow, hverdict,
        hwindow]
    · rw [if_neg (by simpa using hother), if_neg (by simpa using hother)]
      exact ih ((checkRateLimit_other (Ne.symm hother)).trans h)

/-- The check that an entry of the counter stands for. -/
def ofEntry (L : ℤ) (sender : String) (e : Entry Time) : RateCheck :=
  ⟨e.time, sender, decide (L < e.count), some (e.count, e.start)⟩

/-- The checks of one sender are the counter. -/
theorem checkAll_own (hL : 0 < L) (hsender : sender ≠ "") (times : List Time) :
    checkAll L buckets (times.map (·, sender)) =
      (entries 60 (buckets sender) times).map (ofEntry L sender) := by
  induction times generalizing buckets with
  | nil => rfl
  | cons now times ih =>
    rw [List.map_cons, checkAll, checkRateLimit_turn hL hsender]
    dsimp only
    rw [ih, Function.update_self]
    rfl

/-- When `sender` is checked. -/
def timesOf (sender : String) (checks : List (Time × String)) : List Time :=
  (checks.filter (·.2 = sender)).map Prod.fst

theorem map_timesOf (sender : String) (checks : List (Time × String)) :
    (timesOf sender checks).map (·, sender) = checks.filter (·.2 = sender) := by
  unfold timesOf
  rw [List.map_map]
  refine (List.map_congr_left fun c hc => ?_).trans (List.map_id _)
  have hsender : c.2 = sender := of_decide_eq_true (List.mem_filter.mp hc).2
  exact Prod.ext rfl hsender.symm

/-- The admitted checks of a sender that have a property, as events of the counter. -/
theorem countP_admits {limit : ℕ} (hlimit : 0 < limit) (hsender : sender ≠ "")
    (checks : List (Time × String)) (P : RateCheck → Prop) [DecidablePred P] :
    ((checkAll limit buckets checks).countP fun c => c.Admits sender ∧ P c) =
      ((entries 60 (buckets sender) (timesOf sender checks)).filter
        fun e => e.count ≤ limit ∧ P (ofEntry limit sender e)).length := by
  have hown : ((checkAll limit buckets checks).countP fun c => c.Admits sender ∧ P c) =
      (ofSender sender (checkAll limit buckets checks)).countP
        fun c => c.limited = false ∧ P c := by
    unfold ofSender
    rw [List.countP_filter]
    refine List.countP_congr fun c _ => ?_
    rw [decide_eq_true_iff, Bool.and_eq_true, decide_eq_true_iff, decide_eq_true_iff]
    exact ⟨fun ⟨⟨hown, hadmits⟩, h⟩ => ⟨⟨hadmits, h⟩, hown⟩,
      fun ⟨⟨hadmits, h⟩, hown⟩ => ⟨⟨hown, hadmits⟩, h⟩⟩
  rw [hown, checkAll_filter checks rfl, ← map_timesOf,
    checkAll_own (Int.natCast_pos.mpr hlimit) hsender, List.countP_map, List.countP_eq_length_filter]
  refine congrArg List.length (List.filter_congr fun e _ => ?_)
  refine decide_eq_decide.mpr (and_congr_left fun _ => ?_)
  exact decide_eq_false_iff_not.trans (not_lt.trans Int.ofNat_le)

/-- Without a sender nothing is counted. -/
theorem checkAll_unnamed (times : List Time) :
    checkAll L buckets (times.map (·, "")) = times.map fun now => ⟨now, "", false, buckets ""⟩ := by
  induction times with
  | nil => rfl
  | cons now times ih =>
    have hcheck : checkRateLimit L now "" buckets = (false, buckets) := if_pos (.inr rfl)
    rw [List.map_cons, checkAll, hcheck]
    dsimp only
    rw [ih, List.map_cons]

theorem countP_unnamed (checks : List (Time × String)) (start : Time) :
    ((checkAll L (fun _ => none) checks).countP
      fun c => c.Admits "" ∧ c.window.map Prod.snd = some start) = 0 := by
  refine List.countP_eq_zero.mpr fun c hc hadmits => ?_
  obtain ⟨⟨hsender, -⟩, hwindow⟩ := of_decide_eq_true hadmits
  have hown : c ∈ ofSender "" (checkAll L (fun _ => none) checks) :=
    List.mem_filter.mpr ⟨hc, decide_eq_true hsender⟩
  rw [checkAll_filter checks rfl, ← map_timesOf, checkAll_unnamed] at hown
  obtain ⟨now, -, rfl⟩ := List.mem_map.mp hown
  cases hwindow

/-! ## The bound -/

/-- **The rate bound.** Checks at times that never run back, by any senders in any order: no window of
a sender lets more than the limit through, no minute more than twice that, and the others do not
count. The bound on a minute is for those who have a name. -/
theorem rate_bound (hL : 0 < L) (checks : List (Time × String))
    (hsorted : (checks.map Prod.fst).Pairwise (· ≤ ·)) (sender : String) :
    (∀ start, (admittedInWindow sender start (checkAll L (fun _ => none) checks) : ℤ) ≤ L) ∧
      (sender ≠ "" →
        ∀ a, (admittedInMinute sender a (checkAll L (fun _ => none) checks) : ℤ) ≤ 2 * L) ∧
      ofSender sender (checkAll L (fun _ => none) checks) =
        checkAll L (fun _ => none) (checks.filter (·.2 = sender)) := by
  obtain ⟨limit, rfl⟩ := Int.eq_ofNat_of_zero_le hL.le
  have hlimit : 0 < limit := Int.natCast_pos.mp hL
  have hwidth : (0 : Time) ≤ 60 := by norm_num
  have htimes : (timesOf sender checks).Pairwise (· ≤ ·) :=
    hsorted.sublist (List.filter_sublist.map _)
  have hfollow := pairwise_entries hwidth (timesOf sender checks) none
  have hinside := entries_inside hwidth htimes none fun _ h => absurd h (Option.not_mem_none _)
  refine ⟨fun start => Int.ofNat_le.mpr ?_, fun hsender a => ?_, checkAll_filter checks rfl⟩
  · unfold admittedInWindow
    by_cases hsender : sender = ""
    · rw [hsender, countP_unnamed]
      exact Nat.zero_le limit
    · rw [countP_admits hlimit hsender]
      simp only [ofEntry, Option.map_some, Option.some.injEq]
      exact window_le hwidth hfollow (fun e he => (hinside e he).1) start
  · unfold admittedInMinute
    rw [countP_admits hlimit hsender]
    exact_mod_cast interval_le hfollow hinside a

theorem rate_bound_pair :
    (∀ start, (admittedInWindow "vera" start
        (checkAll 1 (fun _ => none) [(0, "vera"), (1, "atlas"), (2, "vera")]) : ℤ) ≤ 1) ∧
      ("vera" ≠ "" → ∀ a, (admittedInMinute "vera" a
        (checkAll 1 (fun _ => none) [(0, "vera"), (1, "atlas"), (2, "vera")]) : ℤ) ≤ 2 * 1) ∧
      ofSender "vera" (checkAll 1 (fun _ => none) [(0, "vera"), (1, "atlas"), (2, "vera")]) =
        checkAll 1 (fun _ => none) ([(0, "vera"), (1, "atlas"), (2, "vera")].filter (·.2 = "vera")) :=
  rate_bound (by decide) _ (by decide) "vera"

/-- A check without a sender is let through as often as it is made. -/
theorem unnamed_unbounded :
    ¬ ∀ (L : ℤ) (checks : List (Time × String)) (sender : String) (a : Time), 0 < L →
      (checks.map Prod.fst).Pairwise (· ≤ ·) →
        (admittedInMinute sender a (checkAll L (fun _ => none) checks) : ℤ) ≤ 2 * L := by
  intro h
  have hthree := h 1 [(0, ""), (0, ""), (0, "")] "" 0 (by decide) (by decide)
  revert hthree
  decide +kernel

/-! ## The senders that are checked -/

theorem validateAgentName_ne {repr : String → String} {raw name : String}
    (h : validateAgentName repr raw = .ok name) : name ≠ "" := by
  obtain ⟨c, rest, -, -, -, -, hname⟩ := validateAgentName_ok h
  rintro rfl
  have hlowered : lowerName c = [] := (List.append_eq_nil_iff.mp hname.symm).1
  unfold lowerName at hlowered
  split_ifs at hlowered

/-- An envelope that is read names its sender: the adapter makes no check without one. -/
theorem parseEnvelope_sender_ne {valid : TokenRule} {repr : String → String} {text : String}
    {parsed : Parsed} (h : parseEnvelope valid repr text = some parsed) : parsed.sender ≠ "" := by
  unfold parseEnvelope at h
  simp only [Option.bind_eq_bind, Option.bind_eq_some_iff] at h
  obtain ⟨groups, -, name, hname, recipient, -, session, -, fromSession, -, action, -, reply, -,
    msgId, -, ref, -, hparsed⟩ := h
  obtain rfl := Option.some.inj hparsed
  cases hvalid : validateAgentName repr groups.sender with
  | ok name' =>
    rw [hvalid] at hname
    obtain rfl := Option.some.inj hname
    exact validateAgentName_ne hvalid
  | error e =>
    rw [hvalid] at hname
    cases hname

end HermesMesh.Intake
