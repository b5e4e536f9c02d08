import HermesMesh.Lib.RetryPolicy
import HermesMesh.Lib.Runs
import HermesMesh.SweepAttempts

/-!
# The schedule of the retries

The count and the due time of an item live only in its file, which a sweep rewrites, moves or
removes. Over any run of queued items and sweeps the attempts at each item keep to the policy of
`Lib.RetryPolicy` with the delays `backoff * 2 ** k`, and the file stands where they say
(`Reaper.Kept`). One sum of the loop is not guarded: no float holds `2 ** 1024`, so with more than
1025 attempts allowed the 1025th failure raises out of the sweep, and its count is not written back.
`retries_on_schedule`: in every run that does not come to this, the retries are on schedule.
-/

namespace HermesMesh.Retry

open Lib

variable {s : Sweep} {meets : String → Meets} {w : World} {name : String} {content : Loaded}
  {turn : Turn} {failures maxAttempts : ℕ} {backoff : ℚ}

/-! ## One reaper -/

/-- The attempt, as the policy sees it. -/
def Tried.trial (now : Time) (t : Tried) : Trial Time where
  start := now
  ok :=
    match t.outcome with
    | .ok done => done
    | .error _ => false

/-- The outbox of a gateway with one reaper: the files, the names in `dead/`, the names that were
used, and a record of the attempts, oldest first. -/
structure Reaper where
  files : Files := []
  dead : List String := []
  queued : List String := []
  log : List (String × Trial Time) := []

inductive Reaper.Event where
  /-- `queue_message` returns. What is queued while a sweep goes on, by a send or as the notice of a
  dead letter, is not among the files that the sweep has listed, and so comes after it here. -/
  | queue (item : Outbox.Item)
  | sweep (s : Sweep) (meets : String → Meets) (w : World)

/-- `f"{item['id']}.json"`. -/
def fileName (id : Outbox.Uuid) : String := toString id ++ ".json"

def Reaper.step (r : Reaper) : Reaper.Event → Option Reaper
  | .queue item =>
    if fileName item.id ∈ r.queued then none
    else
      some
        { r with
          files := r.files.orderedInsert (fun a b => a.1 ≤ b.1)
            (fileName item.id, .json (.obj item.fields))
          queued := fileName item.id :: r.queued }
  | .sweep s meets w =>
    some
      { r with
        files := (s.retryOutbox meets r.files w).2.1
        dead := r.dead ++ buriedNames (s.sweep meets r.files w).1
        log := r.log ++ (s.tries meets r.files w).map fun t => (t.name, t.trial s.now) }

/-- The attempts at an item, oldest first. -/
def Reaper.trials (r : Reaper) (name : String) : List (Trial Time) :=
  (r.log.filter fun entry => entry.1 = name).map Prod.snd

/-- The retries of an item are on schedule: there are at most `maxAttempts`, attempt `k + 2` comes
`backoff * 2 ^ k` after attempt `k + 1` or later, and the item is where its attempts say. -/
structure OnSchedule (maxAttempts : ℕ) (backoff : ℚ) (r : Reaper) (name : String) : Prop where
  bounded : (r.trials name).length ≤ maxAttempts
  spaced : ∀ k a b, (r.trials name)[k]? = some a → (r.trials name)[k + 1]? = some b →
    a.start + backoff * 2 ^ k ≤ b.start
  delivered : (∃ trial ∈ r.trials name, trial.ok = true) →
    name ∉ r.files.map Prod.fst ∧ name ∉ r.dead
  dead : (∀ trial ∈ r.trials name, trial.ok = false) → (r.trials name).length = maxAttempts →
    name ∉ r.files.map Prod.fst ∧ r.dead.count name = 1
  waiting : (∀ trial ∈ r.trials name, trial.ok = false) → (r.trials name).length ≠ maxAttempts →
    (r.files.map Prod.fst).count name = 1 ∧ name ∉ r.dead ∧
      ∃ item, (name, .json (.obj item)) ∈ r.files ∧
        attemptOf item = .num (r.trials name).length

/-- No due item is held up: each has an attempt between these two states. -/
def TakesTurns (now : Time) (r r' : Reaper) : Prop :=
  ∀ name item due, (name, .json (.obj item)) ∈ r.files → nextRetry item = .num due → due ≤ now →
    ∃ ok, r'.trials name = r.trials name ++ [⟨now, ok⟩]

/-- The arguments do not change, a queued item has no attempts behind it, and every attempt ends with
a delivery or a failure. -/
def Steady (maxAttempts : ℕ) (backoff : ℚ) (r : Reaper) : Reaper.Event → Prop
  | .queue item => item.attempt = 0
  | .sweep s meets w => s.maxAttempts = maxAttempts ∧ s.backoff = backoff ∧
      ∀ t ∈ s.tries meets r.files w, ∃ done, t.outcome = .ok done

/-- No failed attempt that is not the last has 1024 failures before it. -/
def Bearable (maxAttempts : ℕ) (r : Reaper) : Reaper.Event → Prop
  | .queue _ => True
  | .sweep s meets w => ∀ t ∈ s.tries meets r.files w, t.outcome = .ok false →
      t.count + 1 < maxAttempts → t.count < 1024

variable {r r' : Reaper}

/-! ## The invariant -/

/-- The policy of the reaper. -/
def policy (maxAttempts : ℕ) (backoff : ℚ) : RetryPolicy Time where
  limit := maxAttempts
  delay k := backoff * 2 ^ k

/-- Where the files of an item have to be. -/
def Reaper.Holds (r : Reaper) (name : String) : Job Time → Prop
  | .waiting failures due => name ∉ r.dead ∧
      ∃ item, (name, .json (.obj item)) ∈ r.files ∧ Ready failures due item
  | .succeeded => name ∉ r.files.map Prod.fst ∧ name ∉ r.dead
  | .abandoned => name ∉ r.files.map Prod.fst ∧ r.dead.count name = 1

/-- Every item that was queued is a job of the policy, and its files are where the job says. -/
structure Reaper.Kept (maxAttempts : ℕ) (backoff : ℚ) (r : Reaper) : Prop where
  names : (r.files.map Prod.fst).Nodup
  files_known : ∀ name ∈ r.files.map Prod.fst, name ∈ r.queued
  dead_known : ∀ name ∈ r.dead, name ∈ r.queued
  log_known : ∀ entry ∈ r.log, entry.1 ∈ r.queued
  job : ∀ name ∈ r.queued, ∃ job, r.Holds name job ∧
    (policy maxAttempts backoff).Kept (r.trials name) job

theorem kept_empty : ({} : Reaper).Kept maxAttempts backoff where
  names := List.nodup_nil
  files_known := List.forall_mem_nil _
  dead_known := List.forall_mem_nil _
  log_known := List.forall_mem_nil _
  job := List.forall_mem_nil _

theorem Reaper.Kept.ready (h : r.Kept maxAttempts backoff) (hmem : (name, content) ∈ r.files) :
    ∃ failures due item, content = .json (.obj item) ∧ Ready failures due item := by
  have hname : name ∈ r.files.map Prod.fst := List.mem_map.mpr ⟨_, hmem, rfl⟩
  obtain ⟨job, hholds, -⟩ := h.job name (h.files_known name hname)
  cases job with
  | waiting failures due =>
    obtain ⟨-, item, hitem, hready⟩ := hholds
    have hsame := List.inj_on_of_nodup_map h.names hmem hitem rfl
    exact ⟨failures, due, item, (Prod.mk.inj hsame).2, hready⟩
  | succeeded => exact absurd hname hholds.1
  | abandoned => exact absurd hname hholds.1

theorem Reaper.Kept.allReady (h : r.Kept maxAttempts backoff) : AllReady r.files :=
  fun _ hfile => h.ready hfile

theorem trials_nil (h : ∀ entry ∈ r.log, entry.1 ≠ name) : r.trials name = [] := by
  unfold Reaper.trials
  rw [List.map_eq_nil_iff, List.filter_eq_nil_iff]
  exact fun entry hentry heq => h entry hentry (of_decide_eq_true heq)

/-! ## Queueing -/

theorem ready_fields {queued : Outbox.Item} (h : queued.attempt = 0) :
    Ready 0 queued.nextRetry queued.fields where
  attempt := by
    show Json.num queued.attempt = _
    rw [h]
  nextRetry := rfl

theorem kept_queue {queued : Outbox.Item} (hmax : 0 < maxAttempts)
    (h : r.Kept maxAttempts backoff) (hattempt : queued.attempt = 0)
    (hstep : r.step (.queue queued) = some r') : r'.Kept maxAttempts backoff := by
  unfold Reaper.step at hstep
  dsimp only at hstep
  split_ifs at hstep with hnew
  obtain rfl := Option.some.inj hstep
  have hperm := List.perm_orderedInsert (fun a b : String × Loaded => a.1 ≤ b.1)
    (fileName queued.id, .json (.obj queued.fields)) r.files
  have hmem := fun file => hperm.mem_iff (a := file)
  have hnames := hperm.map Prod.fst
  refine ⟨?_, ?_, ?_, ?_, ?_⟩
  · refine hnames.nodup_iff.mpr (List.nodup_cons.mpr ⟨fun hold => hnew ?_, h.names⟩)
    exact h.files_known _ hold
  · intro name hname
    rcases List.mem_cons.mp (hnames.mem_iff.mp hname) with rfl | hold
    · exact List.mem_cons_self
    · exact List.mem_cons_of_mem _ (h.files_known name hold)
  · exact fun name hname => List.mem_cons_of_mem _ (h.dead_known name hname)
  · exact fun entry hentry => List.mem_cons_of_mem _ (h.log_known entry hentry)
  · intro name hname
    rcases List.mem_cons.mp hname with rfl | hold
    · refine ⟨.waiting 0 queued.nextRetry, ⟨fun hdead => hnew (h.dead_known _ hdead), queued.fields,
        (hmem _).mpr List.mem_cons_self, ready_fields hattempt⟩, ?_⟩
      have htrials : r.trials (fileName queued.id) = [] := by
        refine trials_nil fun entry hentry heq => hnew ?_
        exact heq ▸ h.log_known entry hentry
      show (policy maxAttempts backoff).Kept (r.trials _) _
      rw [htrials]
      exact RetryPolicy.kept_nil hmax _
    · obtain ⟨job, hholds, hkept⟩ := h.job name hold
      refine ⟨job, ?_, hkept⟩
      have hne : name ≠ fileName queued.id := fun heq => hnew (heq ▸ hold)
      have habsent : name ∉ r.files.map Prod.fst → name ∉ (r.files.orderedInsert
          (fun a b : String × Loaded => a.1 ≤ b.1)
          (fileName queued.id, .json (.obj queued.fields))).map Prod.fst := by
        intro hnone hin
        rcases List.mem_cons.mp (hnames.mem_iff.mp hin) with heq | hin
        · exact hne heq
        · exact hnone hin
      cases job with
      | waiting failures due =>
        obtain ⟨hdead, item, hitem, hready⟩ := hholds
        exact ⟨hdead, item, (hmem _).mpr (List.mem_cons_of_mem _ hitem), hready⟩
      | succeeded => exact ⟨habsent hholds.1, hholds.2⟩
      | abandoned => exact ⟨habsent hholds.1, hholds.2⟩

/-! ## Sweeping -/

/-- The outbox after a sweep. -/
def Reaper.swept (r : Reaper) (s : Sweep) (meets : String → Meets) (w : World) : Reaper :=
  { r with
    files := leftover (s.sweep meets r.files w).1 r.files
    dead := r.dead ++ buriedNames (s.sweep meets r.files w).1
    log := r.log ++ (s.tries meets r.files w).map fun t => (t.name, t.trial s.now) }

theorem step_sweep : r.step (.sweep s meets w) = some (r.swept s meets w) := rfl

theorem trials_swept : (r.swept s meets w).trials name = r.trials name ++
    ((s.tries meets r.files w).filter fun t => t.name = name).map (Tried.trial s.now) := by
  unfold Reaper.trials Reaper.swept
  dsimp only
  rw [List.filter_append, List.map_append, List.filter_map, List.map_map]
  rfl

/-- An item that is not in the outbox stays where it is. -/
theorem swept_absent (s : Sweep) (meets : String → Meets) (w : World)
    (h : name ∉ r.files.map Prod.fst) :
    name ∉ (r.swept s meets w).files.map Prod.fst ∧
      (r.swept s meets w).dead.count name = r.dead.count name ∧
      (r.swept s meets w).trials name = r.trials name := by
  have hburied : name ∉ buriedNames (s.sweep meets r.files w).1 :=
    fun hmem => h (sweep_names.subset (buriedNames_sublist.subset hmem))
  refine ⟨fun hmem => h (leftover_names.subset hmem), ?_, ?_⟩
  · show (r.dead ++ _).count name = _
    rw [List.count_append, List.count_eq_zero_of_not_mem hburied, Nat.add_zero]
  · rw [trials_swept, filter_tries h, List.map_nil, List.append_nil]

/-- Where the files of an item are after a turn. -/
structure Reaper.Follows (r : Reaper) (name : String) (content : Loaded) (turn : Turn) :
    Prop where
  gone : turn.leaves content = none → name ∉ r.files.map Prod.fst
  kept : ∀ left, turn.leaves content = some left → (name, left) ∈ r.files
  alive : turn ≠ .buried → name ∉ r.dead
  dead : turn = .buried → r.dead.count name = 1

/-- The turn of an item decides where it is after the sweep. -/
theorem swept_follows (hnames : (r.files.map Prod.fst).Nodup) (hfile : (name, content) ∈ r.files)
    (hdead : name ∉ r.dead) (hturn : (name, turn) ∈ (s.sweep meets r.files w).1) :
    (r.swept s meets w).Follows name content turn := by
  have hturns : ((s.sweep meets r.files w).1.map Prod.fst).Nodup :=
    hnames.sublist sweep_names.sublist
  have hfiles : ∀ left, (name, left) ∈ (r.swept s meets w).files ↔ turn.leaves content = some left :=
    fun left => mem_leftover_iff hnames hfile (lookup_of_mem hturns hturn)
  have hcount : (r.swept s meets w).dead.count name =
      (buriedNames (s.sweep meets r.files w).1).count name := by
    show (r.dead ++ _).count name = _
    rw [List.count_append, List.count_eq_zero_of_not_mem hdead, Nat.zero_add]
  refine ⟨?_, fun left => (hfiles left).mpr, ?_, ?_⟩
  · intro hnone hmem
    obtain ⟨⟨name', left⟩, hleft, rfl⟩ := List.mem_map.mp hmem
    rw [hfiles, hnone] at hleft
    cases hleft
  · intro hne
    rw [← List.count_eq_zero, hcount, List.count_eq_zero]
    exact fun hmem => hne (turn_unique hnames hturn (mem_buriedNames.mp hmem))
  · rintro rfl
    rw [hcount]
    exact List.count_eq_one_of_mem (hturns.sublist buriedNames_sublist) (mem_buriedNames.mpr hturn)

/-- The files that follow the turn of a due item are where the policy puts it. -/
theorem Reaper.Follows.holds {done : Bool} {item : List (String × Json)}
    (hmax : s.maxAttempts = maxAttempts) (hbackoff : s.backoff = backoff)
    (h : r.Follows name (.json (.obj item)) (s.fate failures done item)) :
    r.Holds name (if done then .succeeded else if maxAttempts ≤ failures + 1 then .abandoned
      else .waiting (failures + 1) (s.now + backoff * 2 ^ failures)) := by
  unfold Sweep.fate at h
  rw [hmax] at h
  cases done with
  | true => exact ⟨h.gone rfl, h.alive nofun⟩
  | false =>
    rw [if_neg Bool.false_ne_true] at h ⊢
    by_cases hlast : maxAttempts ≤ failures + 1
    · rw [if_pos (by exact_mod_cast hlast)] at h
      rw [if_pos hlast]
      exact ⟨h.gone rfl, h.dead rfl⟩
    · rw [if_neg (by exact_mod_cast hlast)] at h
      rw [if_neg hlast, ← hbackoff]
      exact ⟨h.alive nofun, s.postponed failures item, h.kept _ rfl, ready_postponed⟩

/-- **A sweep is a turn of every job.** -/
theorem swept_job (hkept : r.Kept maxAttempts backoff) (hmax : s.maxAttempts = maxAttempts)
    (hbackoff : s.backoff = backoff) (horderly : s.Orderly (s.tries meets r.files w))
    {job : Job Time} (hholds : r.Holds name job) :
    ∃ ok, (r.swept s meets w).Holds name ((policy maxAttempts backoff).turn s.now ok job) ∧
      (r.swept s meets w).trials name = r.trials name ++ RetryPolicy.made s.now ok job := by
  cases job with
  | succeeded =>
    obtain ⟨hfiles, hcount, htrials⟩ := swept_absent s meets w hholds.1
    refine ⟨true, ⟨hfiles, ?_⟩, htrials.trans (List.append_nil _).symm⟩
    rw [← List.count_eq_zero, hcount, List.count_eq_zero]
    exact hholds.2
  | abandoned =>
    obtain ⟨hfiles, hcount, htrials⟩ := swept_absent s meets w hholds.1
    exact ⟨true, ⟨hfiles, hcount.trans hholds.2⟩, htrials.trans (List.append_nil _).symm⟩
  | waiting failures due =>
    obtain ⟨hdead, item, hitem, hready⟩ := hholds
    obtain ⟨w', hturn, htries⟩ := sweep_file hkept.allReady hkept.names horderly hitem
    have hown : s.Orderly (s.tried (meets name) name (.json (.obj item)) w').toList := by
      rw [← htries]
      exact horderly.mono List.filter_sublist.subset
    have hfollows := swept_follows hkept.names hitem hdead hturn
    rcases turn_ready hready hown with ⟨hearly, heq, htried⟩ | ⟨hlate, done, htried, heq⟩
    · have hsame : (policy maxAttempts backoff).turn s.now true (.waiting failures due) =
          .waiting failures due := if_pos hearly
      rw [heq] at hfollows
      refine ⟨true, ?_, ?_⟩
      · rw [hsame]
        exact ⟨hfollows.alive nofun, item, hfollows.kept _ rfl, hready⟩
      · rw [trials_swept, htries, htried]
        exact congrArg _ (if_pos hearly).symm
    · have hnext : (policy maxAttempts backoff).turn s.now done (.waiting failures due) =
          if done then .succeeded
          else if maxAttempts ≤ failures + 1 then .abandoned
          else .waiting (failures + 1) (s.now + backoff * 2 ^ failures) := if_neg (not_lt.mpr hlate)
      rw [heq] at hfollows
      refine ⟨done, ?_, ?_⟩
      · rw [hnext]
        exact hfollows.holds hmax hbackoff
      · rw [trials_swept, htries, htried]
        exact congrArg _ (if_neg (not_lt.mpr hlate)).symm

theorem kept_swept (hkept : r.Kept maxAttempts backoff) (hmax : s.maxAttempts = maxAttempts)
    (hbackoff : s.backoff = backoff) (horderly : s.Orderly (s.tries meets r.files w)) :
    (r.swept s meets w).Kept maxAttempts backoff where
  names := hkept.names.sublist leftover_names
  files_known name hname := hkept.files_known name (leftover_names.subset hname)
  dead_known name hname := by
    rcases List.mem_append.mp hname with hold | hburied
    · exact hkept.dead_known name hold
    · exact hkept.files_known name (sweep_names.subset (buriedNames_sublist.subset hburied))
  log_known entry hentry := by
    rcases List.mem_append.mp hentry with hold | hnew
    · exact hkept.log_known entry hold
    · obtain ⟨t, ht, rfl⟩ := List.mem_map.mp hnew
      exact hkept.files_known t.name (tries_name ht)
  job name hname := by
    obtain ⟨job, hholds, hjob⟩ := hkept.job name hname
    obtain ⟨ok, hholds', htrials⟩ := swept_job hkept hmax hbackoff horderly hholds
    refine ⟨(policy maxAttempts backoff).turn s.now ok job, hholds', ?_⟩
    rw [htrials]
    exact hjob.turn s.now ok

theorem orderly_of_guard (hsteady : Steady maxAttempts backoff r (.sweep s meets w))
    (hbearable : Bearable maxAttempts r (.sweep s meets w)) :
    s.Orderly (s.tries meets r.files w) where
  returns := hsteady.2.2
  bearable := by
    rw [hsteady.1, Int.cast_natCast]
    exact hbearable

theorem kept_step (hmax : 0 < maxAttempts) {e : Reaper.Event} (hkept : r.Kept maxAttempts backoff)
    (hguard : Steady maxAttempts backoff r e ∧ Bearable maxAttempts r e)
    (hstep : r.step e = some r') : r'.Kept maxAttempts backoff := by
  obtain ⟨hsteady, hbearable⟩ := hguard
  cases e with
  | queue item => exact kept_queue hmax hkept hsteady hstep
  | sweep s meets w =>
    obtain rfl := Option.some.inj (step_sweep.symm.trans hstep)
    exact kept_swept hkept hsteady.1 hsteady.2.1 (orderly_of_guard hsteady hbearable)

theorem kept_run {es : List Reaper.Event} (hmax : 0 < maxAttempts)
    (hrun : Run Reaper.step
      (fun r e => Steady maxAttempts backoff r e ∧ Bearable maxAttempts r e) {} es r) :
    r.Kept maxAttempts backoff :=
  hrun.invariant (fun _ _ _ hkept hguard hstep => kept_step hmax hkept hguard hstep) kept_empty

/-! ## The schedule -/

theorem count_files (hnames : (r.files.map Prod.fst).Nodup) (hfile : (name, content) ∈ r.files) :
    (r.files.map Prod.fst).count name = 1 :=
  List.count_eq_one_of_mem hnames (List.mem_map.mpr ⟨_, hfile, rfl⟩)

theorem onSchedule_of_kept (hkept : r.Kept maxAttempts backoff) (hname : name ∈ r.queued) :
    OnSchedule maxAttempts backoff r name := by
  obtain ⟨job, hholds, hjob⟩ := hkept.job name hname
  refine ⟨hjob.bounded, hjob.spaced, ?_, ?_, ?_⟩
  · intro hok
    obtain rfl := hjob.eq_succeeded hok
    exact hholds
  · intro hfailed hlast
    rcases hjob.eq_of_failed hfailed with ⟨-, rfl⟩ | ⟨hmore, -⟩
    · exact hholds
    · exact absurd hlast hmore.ne
  · intro hfailed hmore
    rcases hjob.eq_of_failed hfailed with ⟨hlast, -⟩ | ⟨-, due, rfl⟩
    · exact absurd hlast hmore
    · obtain ⟨hdead, item, hitem, hready⟩ := hholds
      exact ⟨count_files hkept.names hitem, hdead, item, hitem, hready.attempt⟩

/-- A due item has its attempt in the next sweep, whatever the other items do. -/
theorem takesTurns_of_kept (hkept : r.Kept maxAttempts backoff) (hmax : s.maxAttempts = maxAttempts)
    (hbackoff : s.backoff = backoff) (horderly : s.Orderly (s.tries meets r.files w)) :
    TakesTurns s.now r (r.swept s meets w) := by
  intro name item due hitem hdue hlate
  have hname : name ∈ r.files.map Prod.fst := List.mem_map.mpr ⟨_, hitem, rfl⟩
  obtain ⟨job, hholds, -⟩ := hkept.job name (hkept.files_known name hname)
  obtain ⟨ok, -, htrials⟩ := swept_job hkept hmax hbackoff horderly hholds
  refine ⟨ok, htrials.trans (congrArg _ ?_)⟩
  cases job with
  | waiting failures due' =>
    obtain ⟨-, item', hitem', hready⟩ := hholds
    obtain ⟨-, hsame⟩ := Prod.mk.inj (List.inj_on_of_nodup_map hkept.names hitem hitem' rfl)
    obtain rfl := Json.obj.inj (Loaded.json.inj hsame)
    obtain rfl : due = due' := Json.num.inj (hdue.symm.trans hready.nextRetry)
    exact if_neg (not_lt.mpr hlate)
  | succeeded => exact absurd hname hholds.1
  | abandoned => exact absurd hname hholds.1

/-- **The retries are on schedule.** In every run of one reaper in which no failure comes that is
one too many for the delay, every item that was queued is on schedule, and a further sweep of that
kind attempts every item that is due. -/
theorem retries_on_schedule {es : List Reaper.Event} (hmax : 0 < maxAttempts)
    (hrun : Run Reaper.step
      (fun r e => Steady maxAttempts backoff r e ∧ Bearable maxAttempts r e) {} es r) :
    (∀ name ∈ r.queued, OnSchedule maxAttempts backoff r name) ∧
      ∀ s meets w r', Steady maxAttempts backoff r (.sweep s meets w) →
        Bearable maxAttempts r (.sweep s meets w) → r.step (.sweep s meets w) = some r' →
        TakesTurns s.now r r' := by
  have hkept := kept_run hmax hrun
  refine ⟨fun name hname => onSchedule_of_kept hkept hname, ?_⟩
  intro s meets w r' hsteady hbearable hstep
  obtain rfl := Option.some.inj (step_sweep.symm.trans hstep)
  exact takesTurns_of_kept hkept hsteady.1 hsteady.2.1 (orderly_of_guard hsteady hbearable)

theorem bearable_of_le {e : Reaper.Event} (hfew : maxAttempts ≤ 1025) :
    Bearable maxAttempts r e := by
  cases e with
  | queue item => trivial
  | sweep s meets w =>
    intro t _ _ hmore
    have hfew : (maxAttempts : ℚ) ≤ 1025 := by exact_mod_cast hfew
    linarith

/-! ## A peer that stays down -/

/-- The call of the question. -/
def questionPosting : Posting where
  url := "http://peer"
  envelope := .str questionItem.paddedMessage
  sender := .str "zero"
  signTimestamp := true
  anchor := .null

theorem resolveItem_question (n : ℕ) (due : Time) :
    resolveItem zeroDown [] (questionItem.later n due).fields = .ok (some questionPosting) := by
  have htarget : targetOf zeroDown (.str "vera") = .ok (.ok "http://peer") := rfl
  exact resolveItem_eq rfl rfl rfl htarget

theorem question_refused :
    (questionPosting.deliver zeroDown).toOption.map (fun d => d.deliveryId.isSome) = some false := by
  decide +kernel

theorem attempt_refused (n : ℕ) (due : Time) (w : World) :
    (attemptItem zeroDown [] (questionItem.later n due).fields w).1 = .ok false := by
  have hbegin : beginAttempt zeroDown [] (questionItem.later n due).fields w =
      (.posting questionPosting, w) := by
    unfold beginAttempt
    rw [show checkRef zeroDown (questionItem.later n due).fields w = (.ok false, w) from rfl]
    dsimp only
    rw [resolveItem_question]
    rfl
  unfold attemptItem
  rw [hbegin]
  dsimp only
  have hrefused := question_refused
  generalize questionPosting.deliver zeroDown = ended at hrefused
  cases ended with
  | error e => cases hrefused
  | ok d =>
    have hnone : d.deliveryId.isSome = false := Option.some.inj hrefused
    unfold settleAttempt
    dsimp only
    rw [hnone, if_neg Bool.false_ne_true]

/-- Without a delay the item is due again at once. -/
def downSweep (maxAttempts : ℕ) : Sweep := { maxAttempts, backoff := 0, now := 0 }

def meetsDown : String → Meets := fun _ => { env := zeroDown }

def downEvent (maxAttempts : ℕ) : Reaper.Event := .sweep (downSweep maxAttempts) meetsDown emptyWorld

/-- The question after `n` refusals, of which the file has counted `failures`. -/
def downAt (n failures : ℕ) : Reaper where
  files := [("0.json", .json (.obj (questionItem.later failures 0).fields))]
  queued := ["0.json"]
  log := List.replicate n ("0.json", ⟨0, false⟩)

theorem trials_down (n : ℕ) :
    (downAt n failures).trials "0.json" = List.replicate n ⟨0, false⟩ := by
  unfold Reaper.trials downAt
  dsimp only
  rw [List.filter_replicate, if_pos (decide_eq_true rfl), List.map_replicate]

theorem ready_question (n : ℕ) : Ready n 0 (questionItem.later n 0).fields := ⟨rfl, rfl⟩

theorem tried_down (n : ℕ) (w : World) :
    (downSweep maxAttempts).tried (meetsDown "0.json") "0.json"
      (.json (.obj (questionItem.later n 0).fields)) w = some ⟨"0.json", n, .ok false⟩ := by
  rw [tried_due (ready_question n) (lt_irrefl _), counted_later]
  exact congrArg (fun outcome => some (Tried.mk "0.json" n outcome)) (attempt_refused (n + 1) 0 w)

/-- The 1025th failure raises. -/
theorem turn_down {n : ℕ} (hmore : n + 1 < maxAttempts) (w : World) :
    ((downSweep maxAttempts).turn (meetsDown "0.json")
      (.json (.obj (questionItem.later n 0).fields)) w).1 =
      if n < 1024 then .postponed (questionItem.later (n + 1) 0).fields
      else .raised (.other "OverflowError") := by
  have hrefused := attempt_refused (n + 1) 0 w
  rw [turn_due (ready_question n) (lt_irrefl _), counted_later]
  rw [show attemptItem (meetsDown "0.json").env (downSweep maxAttempts).extra
    (questionItem.later (n + 1) 0).fields w =
      attemptItem zeroDown [] (questionItem.later (n + 1) 0).fields w from rfl]
  generalize attemptItem zeroDown [] (questionItem.later (n + 1) 0).fields w = c at hrefused
  obtain ⟨ended, w₁⟩ := c
  obtain rfl : ended = .ok false := hrefused
  have hmax : ¬ ((downSweep maxAttempts).maxAttempts : ℚ) ≤ (n : ℚ) + 1 := by
    show ¬ (((maxAttempts : ℕ) : ℤ) : ℚ) ≤ (n : ℚ) + 1
    exact_mod_cast not_le.mpr hmore
  dsimp only
  unfold Sweep.finish
  rw [if_neg Bool.false_ne_true, if_neg hmax, add_sub_cancel_right]
  by_cases hfew : n < 1024
  · rw [if_pos hfew, delay_nat hfew]
    have hfields := postponed_later (s := downSweep maxAttempts) questionItem n 0
    unfold Sweep.postponed at hfields
    rw [counted_later] at hfields
    dsimp only
    rw [hfields]
    simp [downSweep]
  · rw [if_neg hfew, delay_overflows (not_lt.mp hfew)]

theorem tries_down (n failures : ℕ) :
    (downSweep maxAttempts).tries meetsDown (downAt n failures).files emptyWorld =
      [⟨"0.json", failures, .ok false⟩] := by
  unfold downAt
  rw [tries_single, tried_down]
  rfl

/-- **One more sweep**: one more attempt, and up to 1024 it is counted. -/
theorem step_down (n : ℕ) (hmore : failures + 1 < maxAttempts) :
    (downAt n failures).step (downEvent maxAttempts) =
      some (downAt (n + 1) (if failures < 1024 then failures + 1 else failures)) := by
  have hturns : ((downSweep maxAttempts).sweep meetsDown (downAt n failures).files emptyWorld).1 =
      [("0.json", if failures < 1024 then .postponed (questionItem.later (failures + 1) 0).fields
        else .raised (.other "OverflowError"))] := by
    unfold downAt
    rw [sweep_single, turn_down hmore]
  have hlog : (downAt n failures).log ++ [("0.json", ⟨0, false⟩)] =
      List.replicate (n + 1) ("0.json", ⟨0, false⟩) := List.replicate_succ'.symm
  unfold downEvent
  rw [step_sweep]
  refine congrArg some ?_
  unfold Reaper.swept
  rw [hturns, tries_down]
  by_cases hfew : failures < 1024
  · rw [if_pos hfew, if_pos hfew]
    unfold downAt
    rw [leftover_single, Reaper.mk.injEq]
    exact ⟨rfl, rfl, rfl, hlog⟩
  · rw [if_neg hfew, if_neg hfew]
    unfold downAt
    rw [leftover_single, Reaper.mk.injEq]
    exact ⟨rfl, rfl, rfl, hlog⟩

/-- The question, and this many sweeps. -/
def downEvents (maxAttempts n : ℕ) : List Reaper.Event :=
  .queue questionItem :: List.replicate n (downEvent maxAttempts)

theorem steady_down (n : ℕ) : Steady maxAttempts 0 (downAt n failures) (downEvent maxAttempts) := by
  refine ⟨rfl, rfl, fun t ht => ?_⟩
  rw [tries_down] at ht
  rw [List.mem_singleton.mp ht]
  exact ⟨false, rfl⟩

theorem step_question : ({} : Reaper).step (.queue questionItem) = some (downAt 0 0) := by
  rfl

/-- As long as no failure is the last, each sweep is one more attempt, and the file counts the first
1024. -/
theorem run_down {G : Reaper → Reaper.Event → Prop} {n : ℕ} (hmore : min n 1024 + 1 < maxAttempts)
    (hqueue : G {} (.queue questionItem))
    (hsweep : ∀ k < n, G (downAt k (min k 1024)) (downEvent maxAttempts)) :
    Run Reaper.step G {} (downEvents maxAttempts n) (downAt n (min n 1024)) := by
  induction n with
  | zero =>
    rw [Nat.zero_min]
    exact .cons hqueue step_question (.nil _)
  | succ n ih =>
    have hbefore : min n 1024 + 1 < maxAttempts := by omega
    have hnext : min (n + 1) 1024 =
        if min n 1024 < 1024 then min n 1024 + 1 else min n 1024 := by
      split_ifs <;> omega
    have hevents : downEvents maxAttempts (n + 1) =
        downEvents maxAttempts n ++ [downEvent maxAttempts] := by
      unfold downEvents
      rw [List.replicate_succ', List.cons_append]
    rw [hevents, hnext]
    exact (ih hbefore fun k hk => hsweep k (hk.trans n.lt_succ_self)).append
      (.cons (hsweep n n.lt_succ_self) (step_down n hbefore) (.nil _))

theorem bearable_down (n : ℕ) (hfew : failures < 1024) :
    Bearable maxAttempts (downAt n failures) (downEvent maxAttempts) := by
  intro t ht _ _
  rw [tries_down] at ht
  rw [List.mem_singleton.mp ht]
  show (failures : ℚ) < 1024
  exact_mod_cast hfew

theorem retries_on_schedule_down : ∃ es, Run Reaper.step
      (fun r e => Steady 5 0 r e ∧ Bearable 5 r e) {} es (downAt 2 2) ∧
    OnSchedule 5 0 (downAt 2 2) "0.json" ∧ TakesTurns 0 (downAt 2 2) (downAt 3 3) := by
  have hrun : Run Reaper.step (fun r e => Steady 5 0 r e ∧ Bearable 5 r e) {} (downEvents 5 2)
      (downAt 2 2) := by
    refine run_down (by decide) ⟨rfl, trivial⟩ fun k hk => ⟨steady_down k, bearable_down k ?_⟩
    omega
  obtain ⟨hall, hturns⟩ := retries_on_schedule (by decide) hrun
  exact ⟨_, hrun, hall _ (List.mem_singleton_self _),
    hturns _ _ _ _ (steady_down 2) (bearable_down 2 (by decide)) (step_down 2 (by decide))⟩

/-- A peer that stays down, where 1026 attempts are allowed: the 1025th is not counted, nor is any
after it, and there is no last one. -/
theorem attempts_never_end : Run Reaper.step (Steady 1026 0) {} (downEvents 1026 1027)
      (downAt 1027 1024) ∧
    "0.json" ∈ (downAt 1027 1024).queued ∧ ¬ OnSchedule 1026 0 (downAt 1027 1024) "0.json" := by
  refine ⟨run_down (by decide) rfl fun k _ => steady_down k, List.mem_singleton_self _, ?_⟩
  intro h
  have hbounded := h.bounded
  rw [trials_down, List.length_replicate] at hbounded
  omega

/-- Every run is on schedule exactly where at most 1025 attempts are allowed. -/
theorem on_schedule_iff (hmax : 0 < maxAttempts) :
    (∀ backoff es r, Run Reaper.step (Steady maxAttempts backoff) {} es r →
      ∀ name ∈ r.queued, OnSchedule maxAttempts backoff r name) ↔ maxAttempts ≤ 1025 := by
  constructor
  · intro h
    by_contra hmany
    have hrun : Run Reaper.step (Steady maxAttempts 0) {} (downEvents maxAttempts (maxAttempts + 1))
        (downAt (maxAttempts + 1) (min (maxAttempts + 1) 1024)) :=
      run_down (by omega) rfl fun k _ => steady_down k
    have hbounded := (h 0 _ _ hrun "0.json" (List.mem_singleton_self _)).bounded
    rw [trials_down, List.length_replicate] at hbounded
    omega
  · intro hfew backoff es r hrun name hname
    have hkept : r.Kept maxAttempts backoff :=
      kept_run hmax (hrun.mono fun _ _ hsteady => ⟨hsteady, bearable_of_le hfew⟩)
    exact onSchedule_of_kept hkept hname

end HermesMesh.Retry
