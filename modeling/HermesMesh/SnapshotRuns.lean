import HermesMesh.SnapshotSteps

/-!
# What `is_closed` answers

`is_closed` answers from a set that the process read earlier and tagged with an mtime. Under the
lock the read, the set and the tag see one file. `load` and `list_closed` refresh the same set
without the lock: a write that falls between their read and their stat leaves an old set under the
new mtime, and every later `is_closed` of the process takes it for the file's
(`closed_thread_reported_open`).

`is_closed_answers_from_file`: in every run where no such write changes the anchors, `is_closed`
answers from the file as it was when the call took the lock. The invariant is `Sound`: what each
process is about to install, to tag or to answer agrees with the file, because nobody else writes
while it holds the lock, and what others write while it does not leaves the anchors alone.
-/

namespace HermesMesh.Threads.Steps

open Lib

variable {valid : TokenRule} {s t : State} {e : Event} {pid : ℕ} {p : Process} {file : File}

/-- The call that holds the lock. -/
def Phase.op : Phase → Option Op
  | .checking (.locked op) | .reading (.locked op) | .writing op _ | .installing (.locked op) _
  | .tagging (.locked op) | .leaving op => some op
  | _ => none

/-- A `load` or a `list_closed` between its read and its stat. -/
def Phase.exposed : Phase → Bool
  | .installing .load _ | .installing .listClosed _ | .tagging .load | .tagging .listClosed => true
  | _ => false

/-- A write gives the file an mtime that it has not had before. -/
def freshMtime (s : State) : Event → Bool
  | .write _ stamp => stamp ∉ s.used
  | _ => true

def FreshMtime (s : State) (e : Event) : Prop := freshMtime s e = true

/-- No write that adds or drops an anchor falls between the read and the stat of a `load` or a
`list_closed`. -/
def Undisturbed (s : State) : Event → Prop
  | .write pid _ =>
    match (s.procs pid).phase with
    | .writing _ kept =>
      (∃ other, (s.procs other).phase.exposed = true) →
        ∀ anchor, kept.any (ofAnchor anchor) = s.file.entries.any (ofAnchor anchor)
    | _ => True
  | _ => True

def Guarded (s : State) (e : Event) : Prop := FreshMtime s e ∧ Undisturbed s e

/-- The set holds the anchors of the file. -/
def Agrees (file : File) (locked : List String) : Prop :=
  ∀ anchor, anchor ∈ locked ↔ file.entries.any (ofAnchor anchor) = true

/-- What the process is about to do fits the file. -/
def Phase.Fits (valid : TokenRule) (file : File) (cache : Cache) : Phase → Prop
  | .waiting op | .checking (.locked op) | .reading (.locked op) => accepts valid op = true
  | .writing op kept => Wellformed valid kept ∧ ∀ anchor, op ≠ .isClosed anchor
  | .installing _ entries => Agrees file (entries.filterMap (lockedAnchor valid))
  | .tagging _ | .leaving (.isClosed _) => Agrees file cache.locked
  | _ => True

/-- One process: it holds the lock inside a locked call, and its snapshot is the file's where it
carries the file's mtime. -/
structure ProcOk (valid : TokenRule) (file : File) (used : List Time) (holder : Option ℕ) (pid : ℕ)
    (p : Process) : Prop where
  holds : p.phase.op.isSome = true → holder = some pid
  fits : p.phase.Fits valid file p.cache
  tagged : ∀ m, p.cache.mtime = some m → m ∈ used
  snapshot : p.cache.loaded = true → p.cache.mtime = file.mtime → Agrees file p.cache.locked
  seen : ∀ anchor, p.phase.op = some (.isClosed anchor) → p.lockedAt = file

structure Sound (valid : TokenRule) (s : State) : Prop where
  good : Good valid s.file
  stamped : ∀ m, s.file.mtime = some m → m ∈ s.used
  procs : ∀ pid, ProcOk valid s.file s.used s.holder pid (s.procs pid)

/-! ## One process moves -/

/-- The set that `_hydrate` builds from the file's own entries. -/
theorem agrees_hydrate (h : Wellformed valid file.entries) :
    Agrees file (file.entries.filterMap (lockedAnchor valid)) := by
  intro anchor
  rw [h.mem_locked, status_ne_open]

theorem Start.sound (h : Start valid s) : Sound valid s := by
  refine ⟨h.good, h.stamped, fun pid => ?_⟩
  obtain ⟨hphase, hcache⟩ := h.procs pid
  constructor <;> simp [hphase, hcache, Phase.op, Phase.Fits]

/-- Outside the lock a process does not depend on who holds it. -/
theorem ProcOk.free {used : List Time} {holder : Option ℕ}
    (h : ProcOk valid file used holder pid p) (hop : p.phase.op = none) (holder' : Option ℕ) :
    ProcOk valid file used holder' pid p where
  holds := by simp [hop]
  fits := h.fits
  tagged := h.tagged
  snapshot := h.snapshot
  seen := by simp [hop]

/-- A process that moves on with its snapshot as it was. -/
theorem ProcOk.move {used : List Time} {holder : Option ℕ} {phase : Phase}
    (h : ProcOk valid file used holder pid p)
    (hop : phase.op = none ∨ phase.op = p.phase.op)
    (hfits : phase.Fits valid file p.cache) :
    ProcOk valid file used holder pid { p with phase } where
  holds := by
    obtain hop | hop := hop
    · simp [hop]
    · simpa [hop] using h.holds
  fits := hfits
  tagged := h.tagged
  snapshot := h.snapshot
  seen := by
    obtain hop | hop := hop
    · simp [hop]
    · simpa [hop] using h.seen

theorem Sound.put (h : Sound valid s) (hp : ProcOk valid s.file s.used s.holder pid p) :
    Sound valid (s.put pid p) := by
  refine ⟨h.good, h.stamped, ?_⟩
  exact (Function.forall_update_iff s.procs
    fun other q => ProcOk valid s.file s.used s.holder other q).mpr
    ⟨hp, fun other _ => h.procs other⟩

/-- The lock changes hands from nobody, or to nobody, by the process itself. -/
theorem Sound.putHolder {holder : Option ℕ} (h : Sound valid s)
    (hmine : s.holder = none ∨ s.holder = some pid)
    (hp : ProcOk valid s.file s.used holder pid p) :
    Sound valid { s.put pid p with holder } := by
  refine ⟨h.good, h.stamped, ?_⟩
  refine (Function.forall_update_iff s.procs
    fun other q => ProcOk valid s.file s.used holder other q).mpr ⟨hp, fun other hne => ?_⟩
  refine (h.procs other).free ?_ holder
  rw [← Option.not_isSome_iff_eq_none]
  intro hsome
  have hother := (h.procs other).holds hsome
  obtain hnone | hpid := hmine
  · rw [hnone] at hother
    cases hother
  · rw [hpid] at hother
    exact hne (Option.some.inj hother).symm

/-! ## The steps -/

theorem first_fits (call : Call) (cache : Cache) :
    (call.first valid).op = none ∧ (call.first valid).Fits valid file cache := by
  cases call with
  | locked op =>
    dsimp only [Call.first]
    split_ifs with ha
    · exact ⟨rfl, ha⟩
    · exact ⟨rfl, trivial⟩
  | load => exact ⟨rfl, trivial⟩
  | listClosed => exact ⟨rfl, trivial⟩

theorem inside_fits {op : Op} (ha : accepts valid op = true) (cache : Cache) :
    (inside op).op = some op ∧ (inside op).Fits valid file cache := by
  cases op <;> exact ⟨rfl, ha⟩

theorem finish_op (call : Call) :
    call.finish.op = none ∨ call.finish.op = (Phase.tagging call).op := by
  cases call with
  | locked op => exact .inr rfl
  | load | listClosed => exact .inl rfl

theorem finish_fits (call : Call) {cache : Cache} (h : Agrees file cache.locked) :
    call.finish.Fits valid file cache := by
  cases call with
  | locked op =>
    cases op with
    | isClosed anchor => exact h
    | record | promote | withdraw => trivial
  | load | listClosed => trivial

theorem rewriting_fits {op : Op} {failed changed : Bool} {kept : List Json} (cache : Cache)
    (hop : ∀ anchor, op ≠ .isClosed anchor) (hw : Wellformed valid kept) :
    (rewriting op failed (.ok (changed, kept))).op = some op ∧
      (rewriting op failed (.ok (changed, kept))).Fits valid file cache := by
  have hleave : Phase.Fits valid file cache (.leaving op) := by
    cases op with
    | isClosed anchor => exact absurd rfl (hop anchor)
    | record | promote | withdraw => trivial
  unfold rewriting
  cases failed with
  | true => exact ⟨rfl, hleave⟩
  | false =>
    cases changed with
    | true => exact ⟨rfl, hw, hop⟩
    | false => exact ⟨rfl, hleave⟩

/-- What a call goes on with after its read fits the file it has read. -/
theorem afterRead_fits (hempty : valid "" = false) (hw : Wellformed valid file.entries) {call : Call}
    {cache : Cache} (failed : Bool) (h : (Phase.reading call).Fits valid file cache) :
    (call.afterRead file.entries failed).op = (Phase.reading call).op ∧
      (call.afterRead file.entries failed).Fits valid file cache := by
  cases call with
  | load => exact ⟨rfl, agrees_hydrate hw⟩
  | listClosed => exact ⟨rfl, agrees_hydrate hw⟩
  | locked op =>
    cases op with
    | record closedAt a closedBy pending =>
      have hboth : (valid a && valid closedBy) = true := h
      have ha : valid a = true := ((Bool.and_eq_true _ _).mp hboth).1
      have hne : a ≠ "" := by
        rintro rfl
        rw [hempty] at ha
        cases ha
      dsimp only [Call.afterRead]
      rw [findAnchor_eq hw]
      cases file.entries.any (ofAnchor a) with
      | true => exact ⟨rfl, agrees_hydrate hw⟩
      | false => exact ⟨rfl, hw.append_newEntry closedAt pending hne ha, nofun⟩
    | promote a =>
      dsimp only [Call.afterRead]
      rw [rewriteEntries_promote hw]
      exact rewriting_fits cache nofun hw.map_settle
    | withdraw a =>
      dsimp only [Call.afterRead]
      rw [rewriteEntries_drop hw]
      exact rewriting_fits cache nofun (hw.filter _)
    | isClosed anchor => exact ⟨rfl, agrees_hydrate hw⟩

/-- Another process after a write of the holder: its snapshot has an older mtime, and what it is
about to install or to tag still has the anchors of the file. -/
theorem ProcOk.written {used : List Time} {writer : ℕ} {kept : List Json} {stamp : Time}
    (h : ProcOk valid file used (some writer) pid p) (hne : pid ≠ writer) (hfresh : stamp ∉ used)
    (hsame : p.phase.exposed = true →
      ∀ anchor, kept.any (ofAnchor anchor) = file.entries.any (ofAnchor anchor)) :
    ProcOk valid ⟨.entries kept, some stamp⟩ (stamp :: used) (some writer) pid p := by
  have hop : p.phase.op = none := by
    rw [← Option.not_isSome_iff_eq_none]
    intro hsome
    exact hne (Option.some.inj (h.holds hsome)).symm
  refine ⟨h.holds, ?_, fun m hm => List.mem_cons_of_mem _ (h.tagged m hm), ?_, by simp [hop]⟩
  · have hfits := h.fits
    have hagrees : ∀ locked, p.phase.exposed = true → Agrees file locked →
        Agrees ⟨.entries kept, some stamp⟩ locked := fun locked hexp hagr anchor =>
      (hagr anchor).trans (by rw [← hsame hexp anchor]; rfl)
    cases hphase : p.phase with
    | idle => trivial
    | waiting op => rwa [hphase] at hfits
    | checking call | reading call =>
      cases call with
      | locked op => simp [hphase, Phase.op] at hop
      | load | listClosed => trivial
    | installing call entries | tagging call =>
      cases call with
      | locked op => simp [hphase, Phase.op] at hop
      | load | listClosed =>
        rw [hphase] at hfits
        exact hagrees _ (by rw [hphase]; rfl) hfits
    | writing op kept | leaving op => simp [hphase, Phase.op] at hop
  · rintro - hm
    exact absurd (h.tagged stamp hm) hfresh

theorem begin_sound {call : Call} (h : Sound valid s)
    (hs : step valid s (.begin pid call) = some t) : Sound valid t := by
  obtain ⟨-, rfl⟩ := begin_step hs
  obtain ⟨hop, hfits⟩ := first_fits call (s.procs pid).cache
  exact h.put ((h.procs pid).move (.inl hop) hfits)

theorem lock_sound (h : Sound valid s) (hs : step valid s (.lock pid) = some t) :
    Sound valid t := by
  obtain ⟨op, hphase, hholder, rfl⟩ := lock_step hs
  have hmine := h.procs pid
  have ha : accepts valid op = true := by simpa [hphase, Phase.Fits] using hmine.fits
  obtain ⟨hop, hfits⟩ := inside_fits ha (s.procs pid).cache
  exact h.putHolder (.inl hholder)
    ⟨fun _ => rfl, hfits, hmine.tagged, hmine.snapshot, fun _ _ => rfl⟩

theorem check_sound (h : Sound valid s) (hs : step valid s (.check pid) = some t) :
    Sound valid t := by
  obtain ⟨call, hphase, rfl | ⟨hloaded, htag, rfl⟩⟩ := check_step hs
  · have hmine := h.procs pid
    have hfits := hmine.fits
    rw [hphase] at hfits
    refine h.put (hmine.move (.inr ?_) ?_)
    · rw [hphase]
      cases call <;> rfl
    · cases call with
      | locked op => exact hfits
      | load | listClosed => trivial
  · have hmine := h.procs pid
    have hop : (Phase.tagging call).op = (s.procs pid).phase.op := by
      rw [hphase]
      cases call <;> rfl
    refine h.put (hmine.move ((finish_op call).imp_right (·.trans hop)) ?_)
    exact finish_fits call (hmine.snapshot hloaded htag.symm)

theorem read_sound (hempty : valid "" = false) (h : Sound valid s)
    (hs : step valid s (.read pid) = some t) : Sound valid t := by
  obtain ⟨call, hphase, rfl⟩ := read_step hs
  have hmine := h.procs pid
  have hfits := hmine.fits
  rw [hphase] at hfits
  obtain ⟨hop, hafter⟩ := afterRead_fits hempty h.good.wellformed
    (readEntriesStrict {} s.file).2 hfits
  rw [← hphase] at hop
  exact h.put (hmine.move (.inr hop) hafter)

/-- The writer itself, with the entries that it has written. -/
theorem ProcOk.writes {used : List Time} {holder : Option ℕ} {op : Op} {kept : List Json}
    {stamp : Time} (h : ProcOk valid file used holder pid p) (hphase : p.phase = .writing op kept)
    (hfresh : stamp ∉ used) :
    ProcOk valid ⟨.entries kept, some stamp⟩ (stamp :: used) holder pid
      { p with phase := .installing (.locked op) kept } := by
  have hfits := h.fits
  rw [hphase] at hfits
  refine ⟨fun _ => h.holds (by rw [hphase]; rfl),
    @agrees_hydrate valid ⟨.entries kept, some stamp⟩ hfits.1,
    fun m hm => List.mem_cons_of_mem _ (h.tagged m hm), ?_, ?_⟩
  · rintro - hm
    exact absurd (h.tagged stamp hm) hfresh
  · intro anchor hop
    exact absurd (Option.some.inj hop) (hfits.2 anchor)

theorem write_sound {stamp : Time} (h : Sound valid s) (hg : Guarded s (.write pid stamp))
    (hs : step valid s (.write pid stamp) = some t) : Sound valid t := by
  obtain ⟨op, kept, hphase, rfl⟩ := write_step hs
  obtain ⟨hfresh, hund⟩ := hg
  have hfresh : stamp ∉ s.used := of_decide_eq_true hfresh
  simp only [Undisturbed, hphase] at hund
  have hmine := h.procs pid
  have hholder : s.holder = some pid := hmine.holds (by rw [hphase]; rfl)
  have hw : Wellformed valid kept := by
    have hfits := hmine.fits
    rw [hphase] at hfits
    exact hfits.1
  have hgood : Good valid ⟨.entries kept, some stamp⟩ := ⟨nofun, hw⟩
  refine ⟨hgood, fun m hm => ?_, ?_⟩
  · obtain rfl := Option.some.inj hm
    exact List.mem_cons_self
  · refine (Function.forall_update_iff s.procs fun other q =>
      ProcOk valid ⟨.entries kept, some stamp⟩ (stamp :: s.used) s.holder other q).mpr
      ⟨hmine.writes hphase hfresh, fun other hne => ?_⟩
    have hother := h.procs other
    rw [hholder] at hother ⊢
    exact hother.written hne hfresh fun hexp => hund ⟨other, hexp⟩

theorem install_sound (h : Sound valid s) (hs : step valid s (.install pid) = some t) :
    Sound valid t := by
  obtain ⟨call, entries, hphase, rfl⟩ := install_step hs
  have hmine := h.procs pid
  have hfits := hmine.fits
  rw [hphase] at hfits
  have hop : (Phase.tagging call).op = (s.procs pid).phase.op := by
    rw [hphase]
    cases call <;> rfl
  exact h.put ⟨fun hsome => hmine.holds (by rwa [← hop]), hfits, hmine.tagged,
    fun _ _ => hfits, fun anchor ha => hmine.seen anchor (by rwa [← hop])⟩

theorem tag_sound (h : Sound valid s) (hs : step valid s (.tag pid) = some t) :
    Sound valid t := by
  obtain ⟨call, hphase, rfl⟩ := tag_step hs
  have hmine := h.procs pid
  have hfits := hmine.fits
  rw [hphase] at hfits
  have hop := finish_op call
  rw [← hphase] at hop
  have hmoved := hmine.move hop (finish_fits call hfits)
  exact h.put ⟨hmoved.holds, finish_fits call hfits, h.stamped, fun _ _ => hfits, hmoved.seen⟩

/-- The holder comes out of its call, and gives the lock back. -/
theorem Sound.release {op : Op} (h : Sound valid s) (hop : (s.procs pid).phase.op = some op) :
    Sound valid { s.move pid .idle with holder := none } := by
  have hmine := h.procs pid
  have hholder : s.holder = some pid := hmine.holds (by rw [hop]; rfl)
  have hidle : ProcOk valid s.file s.used s.holder pid { s.procs pid with phase := .idle } :=
    hmine.move (.inl rfl) trivial
  exact h.putHolder (.inr hholder) (hidle.free rfl none)

theorem fail_sound (h : Sound valid s) (hs : step valid s (.fail pid) = some t) :
    Sound valid t := by
  obtain ⟨-, rfl⟩ | ⟨⟨op, kept, hphase⟩, rfl⟩ := fail_step hs
  · exact h.put ((h.procs pid).move (.inl rfl) trivial)
  · exact h.release (by rw [hphase]; rfl)

theorem restart_sound (h : Sound valid s) (hs : step valid s (.restart pid) = some t) :
    Sound valid t := by
  obtain rfl := Option.some.inj hs
  have hfresh : ∀ holder, ProcOk valid s.file s.used holder pid
      { s.procs pid with phase := .idle, cache := {} } := fun holder => by
    constructor <;> simp [Phase.op, Phase.Fits]
  dsimp only
  split_ifs with hmine
  · exact h.putHolder (.inr hmine) (hfresh none)
  · exact h.put (hfresh s.holder)

/-- **One step.** -/
theorem step_sound (hempty : valid "" = false) (h : Sound valid s) (hg : Guarded s e)
    (hs : step valid s e = some t) : Sound valid t := by
  cases e with
  | begin pid call => exact begin_sound h hs
  | lock pid => exact lock_sound h hs
  | check pid => exact check_sound h hs
  | read pid => exact read_sound hempty h hs
  | write pid stamp => exact write_sound h hg hs
  | install pid => exact install_sound h hs
  | tag pid => exact tag_sound h hs
  | leave pid =>
    obtain ⟨op, hphase, rfl⟩ := leave_step hs
    exact h.release (by rw [hphase]; rfl)
  | fail pid => exact fail_sound h hs
  | restart pid => exact restart_sound h hs

/-- **`is_closed` does not lie.** In every run whose writes have fresh mtimes and do not change the
anchors between the read and the stat of another process's `load` or `list_closed`, a call of
`is_closed` returns `True` exactly where the file, when the call took the lock, has an entry for the
anchor; and the file is the same as the call leaves. -/
theorem is_closed_answers_from_file (hempty : valid "" = false) {es : List Event} {anchor : String}
    (h0 : Start valid s) (h : Run (step valid) Guarded s es t)
    (hl : (t.procs pid).phase = .leaving (.isClosed (some anchor))) :
    (t.procs pid).lockedAt = t.file ∧
      (t.answer pid anchor = true ↔
        ∃ entry ∈ (t.procs pid).lockedAt.entries, ofAnchor anchor entry = true) := by
  have hsound : Sound valid t :=
    h.invariant (fun _ _ _ h hg hs => step_sound hempty h hg hs) h0.sound
  have hseen : (t.procs pid).lockedAt = t.file :=
    (hsound.procs pid).seen (some anchor) (by rw [hl]; rfl)
  have hfits := (hsound.procs pid).fits
  rw [hl] at hfits
  refine ⟨hseen, ?_⟩
  rw [hseen, ← List.any_eq_true, ← hfits anchor]
  exact List.contains_iff_mem

/-- One closed thread, and processes that have just started. -/
def oneClosed : State := ⟨⟨.entries [newEntry 10 "t" "zero" false], some 1⟩, [1], none, fun _ => {}⟩

/-- A process looks the anchor up while another one lists the closed threads. -/
def lookup : List Event :=
  [.begin 1 .listClosed, .check 1, .begin 0 (.locked (.isClosed (some "t"))), .lock 0, .read 1,
    .check 0, .read 0, .install 1, .install 0, .tag 0]

theorem is_closed_answers_from_file_lookup :
    ∃ t, Run (step anyToken) Guarded oneClosed lookup t ∧
      (t.procs 0).phase = .leaving (.isClosed (some "t")) ∧ (t.procs 0).lockedAt = t.file ∧
      (t.answer 0 "t" = true ↔
        ∃ entry ∈ (t.procs 0).lockedAt.entries, ofAnchor "t" entry = true) := by
  have h0 : Start anyToken oneClosed := by
    refine ⟨⟨nofun, ?_⟩, fun m hm => ?_, fun _ => ⟨rfl, rfl⟩, rfl⟩
    · intro entry hmem
      obtain rfl := List.mem_singleton.mp hmem
      exact ⟨"t", rfl⟩
    · obtain rfl := Option.some.inj hm
      exact List.mem_singleton_self _
  obtain ⟨t, ht, hl⟩ : ∃ t, exec (step anyToken) oneClosed lookup = some t ∧
      (t.procs 0).phase = .leaving (.isClosed (some "t")) := ⟨_, rfl, rfl⟩
  -- none of the events is a write
  have hquiet : ∀ e ∈ lookup, ∀ s, Guarded s e := by
    intro e he s
    simp only [lookup, List.mem_cons, List.not_mem_nil, or_false] at he
    rcases he with rfl | rfl | rfl | rfl | rfl | rfl | rfl | rfl | rfl | rfl <;>
      exact ⟨rfl, trivial⟩
  have hrun : Run (step anyToken) Guarded oneClosed lookup t :=
    ((run_of_exec ht).of_forall hquiet).mono fun s e h => h s
  exact ⟨t, hrun, hl, is_closed_answers_from_file rfl h0 hrun hl⟩

/-- No log yet. -/
def noLog : State := ⟨⟨.absent, none⟩, [], none, fun _ => {}⟩

/-- Process 0 loads the registry, and process 1 closes a thread between its read and its stat. -/
def lateTag : List Event :=
  [.begin 0 .load, .read 0,
    .begin 1 (.locked (.record 10 "t" "zero" false)), .lock 1, .read 1, .write 1 1, .install 1,
    .tag 1, .leave 1,
    .install 0, .tag 0, .begin 0 (.locked (.isClosed (some "t"))), .lock 0, .check 0]

/-- Process 0 has tagged the empty set with the mtime of the new file, and reports the closed thread
open. -/
theorem closed_thread_reported_open :
    ∃ t, Start anyToken noLog ∧ Run (step anyToken) FreshMtime noLog lateTag t ∧
      (t.procs 0).phase = .leaving (.isClosed (some "t")) ∧ t.answer 0 "t" = false ∧
      ∃ entry ∈ (t.procs 0).lockedAt.entries, ofAnchor "t" entry = true := by
  have h0 : Start anyToken noLog := ⟨⟨nofun, nofun⟩, nofun, fun _ => ⟨rfl, rfl⟩, rfl⟩
  obtain ⟨t, ht, hl, hanswer, hentry⟩ : ∃ t,
      exec (checked freshMtime (step anyToken)) noLog lateTag = some t ∧
      (t.procs 0).phase = .leaving (.isClosed (some "t")) ∧ t.answer 0 "t" = false ∧
      (t.procs 0).lockedAt.entries.any (ofAnchor "t") = true := ⟨_, rfl, rfl, rfl, rfl⟩
  exact ⟨t, h0, run_of_checked ht, hl, hanswer, List.any_eq_true.mp hentry⟩

end HermesMesh.Threads.Steps
