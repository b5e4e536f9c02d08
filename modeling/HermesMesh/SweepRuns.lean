import HermesMesh.SweepMoves
import HermesMesh.Lib.Holders
import HermesMesh.Lib.Runs

/-!
# Reapers on one outbox

Every gateway runs its own reaper over the shared outbox, without a lock. As long as no sweep reads
an item that another sweep has in hand (`Alone`), an item has one owner at a time, and the disk stays
in order (`Ordered`): a removed item never comes back, and no sweep stumbles over a missing file
(`sweeps_alone_safe`). Two sweeps with the same item in hand break both (`sweeps_collide`).
-/

namespace HermesMesh.Outbox

open Lib

variable {cfg : Config} {disk disk' : Disk} {p p' : Proc} {a : Act} {path x : Uuid} {s t : State}
  {e : Event} {es : List Event}

/-- A sweep reads an item only when no other sweep has it in hand. -/
def Alone (s : State) : Event → Prop
  | .act pid (.go _) => ∀ sw path rest, s.procs pid = .sweeping sw → sw.hand = none →
      sw.todo = path :: rest → ∀ q ≠ pid, (s.procs q).hand ≠ some path
  | _ => True

/-- One owner an item, one place an item, and nothing of a removed item. -/
structure Ordered (s : State) : Prop where
  alone : Exclusive fun p => (s.procs p).hand
  present : ∀ p path, (s.procs p).hand = some path → path ∈ s.disk.outbox
  /-- A handle is that of the file it was opened under. -/
  opened : ∀ p sw path ino item, s.procs p = .sweeping sw →
    sw.hand = some (path, .dumping ino item) → ∃ c, s.disk.outbox.lookup path = some ⟨ino, c⟩
  apart : ∀ path ∈ s.disk.outbox, path ∉ s.disk.dead
  used : ∀ path, path ∈ s.disk.outbox ∨ path ∈ s.disk.dead ∨ path ∈ s.removed → path ∈ s.used
  gone : ∀ path ∈ s.removed, path ∉ s.disk.outbox ∧ path ∉ s.disk.dead
  calm : ∀ p, s.procs p ≠ .raised .fileGone

/-! ## One move -/

theorem mem_congr {d d' : Dir} (h : d'.lookup x = d.lookup x) : x ∈ d' ↔ x ∈ d := by
  rw [← AList.lookup_isSome, ← AList.lookup_isSome, h]

theorem read_mem (h : (disk.read x).isSome) : x ∈ disk.outbox := by
  unfold Disk.read at h
  rw [← AList.lookup_isSome]
  split at h
  · rename_i heq
    rw [heq]
    rfl
  · cases h

theorem Dir.mem_write {dir : Dir} {ino : ℕ} {content : Content} :
    x ∈ dir.write path ino content ↔ x ∈ dir := by
  unfold Dir.write
  split
  · rename_i f hf
    split_ifs
    · rw [AList.mem_insert]
      refine ⟨?_, .inr⟩
      rintro (rfl | h)
      · exact AList.lookup_isSome.mp (by rw [hf]; rfl)
      · exact h
    · exact Iff.rfl
  · exact Iff.rfl

theorem Dir.lookup_write {dir : Dir} {ino : ℕ} {c content : Content}
    (h : dir.lookup path = some ⟨ino, c⟩) :
    (dir.write path ino content).lookup path = some ⟨ino, content⟩ := by
  unfold Dir.write
  rw [h]
  dsimp only
  rw [if_pos rfl]
  exact AList.lookup_insert _

theorem Disk.lookup_truncate :
    (disk.truncate path).2.outbox.lookup path = some ⟨(disk.truncate path).1, .torn⟩ := by
  unfold Disk.truncate
  split
  · exact AList.lookup_insert _
  · exact AList.lookup_insert _

/-- The path in hand is in the outbox after the step too. -/
theorem Moves.present (h : Moves cfg disk p a disk' p')
    (hp : ∀ path, p.hand = some path → path ∈ disk.outbox) (hx : p'.hand = some x) :
    x ∈ disk'.outbox := by
  cases h with
  | start | finish | skip | unopened | remove | discard | bury | dump | missing | fault | undelivered
  | stop => cases hx
  | take hhand htodo hread hdue =>
    obtain rfl := Option.some.inj hx
    exact read_mem (by rw [hread]; rfl)
  | succeed hhand _ | exhaust hhand _ | retry hhand _ | madeDead hhand | unburied _ hhand _ =>
    obtain rfl := Option.some.inj hx
    exact hp _ (hand_sweeping hhand)
  | open_ hhand =>
    obtain rfl := Option.some.inj hx
    exact AList.lookup_isSome.mp (by rw [Disk.lookup_truncate]; rfl)

/-- The handle of a dump that begins is that of the file it truncates. -/
theorem Moves.opened (h : Moves cfg disk p a disk' p') {sw : Sweep} {ino : ℕ} {item : Item}
    (hp : p' = .sweeping sw) (hhand : sw.hand = some (x, .dumping ino item)) :
    ∃ c, disk'.outbox.lookup x = some ⟨ino, c⟩ := by
  cases h with
  | open_ =>
    obtain rfl := Proc.sweeping.inj hp
    cases hhand
    exact ⟨.torn, Disk.lookup_truncate⟩
  | finish | missing | fault | undelivered | stop => cases hp
  | start | skip | take | succeed | exhaust | retry | madeDead | unburied | unopened | remove
  | discard | bury | dump =>
    obtain rfl := Proc.sweeping.inj hp
    cases hhand

/-- The path in hand stays in one directory. -/
theorem Moves.apart (h : Moves cfg disk p a disk' p') (hx : p.hand = some x)
    (hout : x ∉ disk.dead) (hin : x ∈ disk'.outbox) : x ∉ disk'.dead := by
  cases h with
  | bury hhand _ =>
    rw [hand_sweeping hhand] at hx
    obtain rfl := Option.some.inj hx
    exact absurd rfl (AList.mem_erase.mp hin).1
  | open_ => rwa [Disk.dead_truncate]
  | dump => exact fun hd => hout (Dir.mem_write.mp hd)
  | start | finish | skip | take | succeed | exhaust | retry | madeDead | unburied | unopened
  | remove | discard | missing | fault | undelivered | stop => exact hout

/-- What a step removes after success was in the outbox and is then gone. -/
theorem Moves.removes (h : Moves cfg disk p a disk' p') (hx : p.removes disk a = some x) :
    p.hand = some x ∧ x ∈ disk.outbox ∧ x ∉ disk'.outbox ∧ disk'.dead = disk.dead := by
  unfold Proc.removes at hx
  split at hx
  · rename_i path now todo retried delivered
    split_ifs at hx with hmem
    obtain rfl := Option.some.inj hx
    refine ⟨rfl, hmem, ?_⟩
    cases h with
    | remove hhand _ =>
      cases hhand
      exact ⟨fun hin => (AList.mem_erase.mp hin).1 rfl, rfl⟩
    | missing hhand hno =>
      cases hhand
      exact absurd hmem hno
    | finish _ hhand | skip _ hhand | take hhand | madeDead hhand | unburied _ hhand | discard hhand
    | bury hhand | open_ hhand | dump _ hhand => cases hhand
  · cases hx

/-- No step of a process stumbles over a missing file as long as its item is there. -/
theorem Moves.calm (h : Moves cfg disk p a disk' p')
    (hp : ∀ path, p.hand = some path → path ∈ disk.outbox) : p' ≠ .raised .fileGone := by
  rintro rfl
  cases h with
  | missing hhand hno => exact hno (hp _ (hand_sweeping hhand))

/-! ## One step -/

theorem update_hand (procs : ℕ → Proc) (pid : ℕ) (p : Proc) :
    (fun q => (Function.update procs pid p q).hand) =
      Function.update (fun q => (procs q).hand) pid p.hand := by
  funext q
  by_cases hq : q = pid
  · subst hq
    rw [Function.update_self, Function.update_self]
  · rw [Function.update_of_ne hq, Function.update_of_ne hq]

/-- What another process has in hand this one has not. -/
theorem Ordered.other {pid q : ℕ} (h : Ordered s) (hq : q ≠ pid)
    (hpath : (s.procs q).hand = some path) : (s.procs pid).hand ≠ some path :=
  fun hpid => hq (h.alone q pid path hpath hpid)

/-- **One step of a process.** -/
theorem Ordered.act {pid : ℕ} (h : Ordered s) (hg : Alone s (.act pid a))
    (m : Moves cfg s.disk (s.procs pid) a disk' p') :
    Ordered
      { s with
        disk := disk'
        procs := Function.update s.procs pid p'
        settled := ((s.procs pid).settles a).toList ++ s.settled
        removed := ((s.procs pid).removes s.disk a).toList ++ s.removed } where
  alone := by
    show Exclusive fun q => (Function.update s.procs pid p' q).hand
    rw [update_hand]
    apply h.alone.update
    intro k hk
    rcases m.hand hk with hold | ⟨sw, rest, hp, hhand, htodo, rfl, -⟩
    · exact .inl hold
    · exact .inr (hg sw k rest hp hhand htodo)
  present := by
    refine (Function.forall_update_iff s.procs fun _ p => ∀ path, p.hand = some path →
      path ∈ disk'.outbox).mpr ⟨fun path => m.present (h.present pid), fun q hq path hpath => ?_⟩
    exact (mem_congr (m.frame (h.other hq hpath)).1).mpr (h.present q path hpath)
  opened := by
    refine (Function.forall_update_iff s.procs fun _ p => ∀ sw path ino item, p = .sweeping sw →
      sw.hand = some (path, .dumping ino item) →
        ∃ c, disk'.outbox.lookup path = some ⟨ino, c⟩).mpr ⟨?_, fun q hq => ?_⟩
    · exact fun sw path ino item => m.opened
    · intro sw path ino item hsw hhand
      have hpath : (s.procs q).hand = some path := by rw [hsw]; exact hand_sweeping hhand
      rw [(m.frame (h.other hq hpath)).1]
      exact h.opened q sw path ino item hsw hhand
  apart path hin := by
    by_cases hx : (s.procs pid).hand = some path
    · exact m.apart hx (h.apart path (h.present pid path hx)) hin
    · obtain ⟨hout, hdead⟩ := m.frame hx
      exact fun hd => h.apart path ((mem_congr hout).mp hin) ((mem_congr hdead).mp hd)
  used path hpath := by
    by_cases hx : (s.procs pid).hand = some path
    · exact h.used path (.inl (h.present pid path hx))
    · obtain ⟨hout, hdead⟩ := m.frame hx
      rcases hpath with hin | hin | hin
      · exact h.used path (.inl ((mem_congr hout).mp hin))
      · exact h.used path (.inr (.inl ((mem_congr hdead).mp hin)))
      · rcases List.mem_append.mp hin with hnew | hold
        · exact absurd (m.removes (Option.mem_toList.mp hnew)).1 hx
        · exact h.used path (.inr (.inr hold))
  gone path hpath := by
    rcases List.mem_append.mp hpath with hnew | hold
    · obtain ⟨-, hin, hout, hdead⟩ := m.removes (Option.mem_toList.mp hnew)
      refine ⟨hout, ?_⟩
      show path ∉ disk'.dead
      rw [hdead]
      exact h.apart path hin
    · obtain ⟨hout, hdead⟩ := h.gone path hold
      obtain ⟨hfo, hfd⟩ := m.frame fun hx => hout (h.present pid path hx)
      exact ⟨fun hin => hout ((mem_congr hfo).mp hin), fun hin => hdead ((mem_congr hfd).mp hin)⟩
  calm := by
    show ∀ q, Function.update s.procs pid p' q ≠ .raised .fileGone
    rw [Function.forall_update_iff s.procs fun _ p => p ≠ .raised .fileGone]
    exact ⟨m.calm (h.present pid), fun q _ => h.calm q⟩

/-- A new file, under a name that was never used. -/
theorem Ordered.create (h : Ordered s) {id : Uuid} (hid : id ∉ s.used) (content : Content)
    (queued : List Item) :
    Ordered
      { s with disk := s.disk.create id content, used := id :: s.used, queued := queued } where
  alone := h.alone
  present p path hp := (AList.mem_insert _).mpr (.inr (h.present p path hp))
  opened p sw path ino item hp hhand := by
    obtain ⟨c, hc⟩ := h.opened p sw path ino item hp hhand
    have hne : path ≠ id := by
      rintro rfl
      exact hid (h.used path (.inl (AList.lookup_isSome.mp (by rw [hc]; rfl))))
    exact ⟨c, (AList.lookup_insert_ne hne).trans hc⟩
  apart path hin hdead := by
    rcases (AList.mem_insert _).mp hin with rfl | hin
    · exact hid (h.used path (.inr (.inl hdead)))
    · exact h.apart path hin hdead
  used path hpath := by
    rcases hpath with hin | hin | hin
    · rcases (AList.mem_insert _).mp hin with rfl | hin
      · exact List.mem_cons_self
      · exact List.mem_cons_of_mem _ (h.used path (.inl hin))
    · exact List.mem_cons_of_mem _ (h.used path (.inr (.inl hin)))
    · exact List.mem_cons_of_mem _ (h.used path (.inr (.inr hin)))
  gone path hpath := by
    obtain ⟨hout, hdead⟩ := h.gone path hpath
    refine ⟨fun hin => ?_, hdead⟩
    rcases (AList.mem_insert _).mp hin with rfl | hin
    · exact hid (h.used path (.inr (.inr hpath)))
    · exact hout hin
  calm := h.calm

/-- **One step.** -/
theorem step_ordered (h : Ordered s) (hg : Alone s e) (hs : step cfg s e = some t) : Ordered t := by
  cases step_steps hs with
  | queue hid => exact h.create hid _ _
  | queueTorn hid => exact h.create hid _ _
  | act m => exact h.act hg m

theorem ordered_empty : Ordered {} where
  alone := .of_none fun _ => rfl
  present _ _ h := nomatch h
  opened _ _ _ _ _ h := nomatch h
  apart _ h := absurd h (AList.notMem_empty _)
  used path h := by
    rcases h with h | h | h
    · exact absurd h (AList.notMem_empty _)
    · exact absurd h (AList.notMem_empty _)
    · cases h
  gone _ h := nomatch h
  calm _ h := nomatch h

/-! ## One sweep at a time -/

/-- A sweep starts when no other one is under way. -/
def Sequential (s : State) : Event → Prop
  | .act _ (.start _) => ∀ q, ¬ (s.procs q).Sweeping
  | _ => True

/-- At most one process sweeps. -/
def Solo (s : State) : Prop :=
  ∀ p q, (s.procs p).Sweeping → (s.procs q).Sweeping → p = q

theorem Moves.sweeping (h : Moves cfg disk p a disk' p') (hp : p'.Sweeping) :
    p.Sweeping ∨ ∃ now, a = .start now := by
  cases h with
  | start now _ => exact .inr ⟨now, rfl⟩
  | finish | missing | fault | undelivered | stop => exact hp.elim
  | skip | take | succeed | exhaust | retry | madeDead | unburied | unopened | remove | discard
  | bury | open_ | dump => exact .inl trivial

theorem sweeping_of_hand (h : p.hand = some path) : p.Sweeping := by
  cases p with
  | sweeping s => trivial
  | idle | returned _ _ | raised _ | stopped => cases h

theorem step_solo (h : Solo s) (hg : Sequential s e) (hs : step cfg s e = some t) : Solo t := by
  cases step_steps hs with
  | queue _ => exact h
  | queueTorn _ => exact h
  | @act pid a disk' p' m =>
    -- whoever else sweeps after the step swept before it, and then the step was no start
    have hothers : p'.Sweeping → ∀ q ≠ pid, ¬ (s.procs q).Sweeping := by
      intro hp' q hq hsweep
      rcases m.sweeping hp' with hp | ⟨now, rfl⟩
      · exact hq (h q pid hsweep hp)
      · exact hg q hsweep
    intro i j hi hj
    change (Function.update s.procs pid p' i).Sweeping at hi
    change (Function.update s.procs pid p' j).Sweeping at hj
    by_cases hip : i = pid
    · by_cases hjp : j = pid
      · rw [hip, hjp]
      · rw [hip, Function.update_self] at hi
        rw [Function.update_of_ne hjp] at hj
        exact absurd hj (hothers hi j hjp)
    · rw [Function.update_of_ne hip] at hi
      by_cases hjp : j = pid
      · rw [hjp, Function.update_self] at hj
        exact absurd hi (hothers hj i hip)
      · rw [Function.update_of_ne hjp] at hj
        exact h i j hi hj

/-- Where one process sweeps at a time, sweeps keep apart. -/
theorem Solo.alone (h : Solo s) : Alone s e := by
  cases e with
  | queue item => trivial
  | queueTorn id => trivial
  | act pid a =>
    cases a with
    | go fault =>
      intro sw path rest hsw _ _ q hq hhand
      refine hq (h q pid (sweeping_of_hand hhand) ?_)
      rw [hsw]
      trivial
    | start | attempt | stop => trivial

/-- Only this process sweeps. -/
def Only (pid : ℕ) : Event → Prop
  | .act pid' _ => pid' = pid
  | _ => True

instance {pid : ℕ} : DecidablePred (Only pid) := fun e =>
  match e with
  | .act _ _ => inferInstanceAs (Decidable (_ = _))
  | .queue _ | .queueTorn _ => .isTrue trivial

theorem step_idle {pid : ℕ} (h : ∀ p ≠ pid, s.procs p = .idle) (hg : Only pid e)
    (hs : step cfg s e = some t) : ∀ p ≠ pid, t.procs p = .idle := by
  cases step_steps hs with
  | queue _ => exact h
  | queueTorn _ => exact h
  | @act pid' _ _ _ m =>
    obtain rfl : pid' = pid := hg
    intro p hp
    exact (Function.update_of_ne hp ..).trans (h p hp)

/-- A single reaper sweeps one sweep at a time. -/
theorem sequential_of_only {pid : ℕ} (h : ∀ p ≠ pid, s.procs p = .idle) (hg : Only pid e)
    (hs : step cfg s e = some t) : Sequential s e := by
  cases step_steps hs with
  | queue _ => trivial
  | queueTorn _ => trivial
  | @act pid' a _ _ m =>
    obtain rfl : pid' = pid := hg
    cases a with
    | go | attempt | stop => trivial
    | start now =>
      intro q
      by_cases hq : q = pid'
      · rw [hq]
        intro hsweep
        generalize s.procs pid' = p at m hsweep
        cases m with
        | start _ hno => exact hno hsweep
      · rw [h q hq]
        exact id

theorem Solo.of_idle {pid : ℕ} (h : ∀ p ≠ pid, s.procs p = .idle) : Solo s := by
  have hpid : ∀ p, (s.procs p).Sweeping → p = pid := by
    intro p hp
    by_contra hne
    rw [h p hne] at hp
    exact hp
  intro p q hp hq
  rw [hpid p hp, hpid q hq]

/-! ## Runs -/

/-- A removed item stays away, and no sweep ends on a missing file. -/
structure Undisturbed (s : State) : Prop where
  gone : ∀ path ∈ s.removed, path ∉ s.disk.outbox ∧ path ∉ s.disk.dead
  calm : ∀ p, s.procs p ≠ .raised .fileGone

/-- **Concurrent sweeps are safe while they keep apart.** In every run of any number of reapers, of
queued items and of file operations that fail or are cut, if no sweep reads an item that another one
has in hand, no removed item comes back and no sweep ends on a missing file. -/
theorem sweeps_alone_safe (h : Run (step cfg) Alone {} es t) : Undisturbed t := by
  have hord : Ordered t := h.invariant (fun _ _ _ hI hg hs => step_ordered hI hg hs) ordered_empty
  exact ⟨hord.gone, hord.calm⟩

/-- A message of zero's that waits for vera. -/
def letter : Item := newItem 7 0 0 "zero" "vera" "hello" "hello" 0 none false none

theorem sweeps_alone_safe_delivery :
    ∃ t, exec (step {}) {} [.queue letter, .act 0 (.start 1), .act 0 (.go false),
        .act 0 (.attempt .delivered), .act 0 (.go false)] = some t ∧ Undisturbed t := by
  have hrun : (exec (step {}) {} [.queue letter, .act 0 (.start 1), .act 0 (.go false),
      .act 0 (.attempt .delivered), .act 0 (.go false)]).isSome = true := by decide +kernel
  obtain ⟨t, ht⟩ := Option.isSome_iff_exists.mp hrun
  have honly : Run (step {}) (fun _ e => Only 0 e) {} _ t :=
    (run_of_exec ht).of_forall (by simp [Only])
  refine ⟨t, ht, sweeps_alone_safe (honly.refine (I := fun s => ∀ p ≠ 0, s.procs p = .idle) ?_ ?_ ?_)⟩
  · exact fun _ _ _ hI hg hs => step_idle hI hg hs
  · exact fun _ _ _ hI _ _ => (Solo.of_idle hI).alone
  · exact fun _ _ => rfl

/-- Two sweeps list and read the same item; one delivers and removes it. -/
def bothRead : List Event :=
  [.queue letter, .act 0 (.start 1), .act 1 (.start 1), .act 0 (.go false), .act 1 (.go false),
    .act 0 (.attempt .delivered), .act 0 (.go false)]

/-- The other one fails and writes it back, or delivers it too and finds the file gone. -/
theorem sweeps_collide :
    (∃ t, Run (step {}) Free {}
        (bothRead ++ [.act 1 (.attempt .failed), .act 1 (.go false), .act 1 (.go false)]) t ∧
      7 ∈ t.removed ∧ 7 ∈ t.disk.outbox) ∧
    ∃ t, Run (step {}) Free {} (bothRead ++ [.act 1 (.attempt .delivered), .act 1 (.go false)]) t ∧
      t.procs 1 = .raised .fileGone := by
  constructor
  · have hrun : (exec (step {}) {} (bothRead ++
        [.act 1 (.attempt .failed), .act 1 (.go false), .act 1 (.go false)])).map
          (fun t => decide (7 ∈ t.removed ∧ 7 ∈ t.disk.outbox)) = some true := by decide +kernel
    obtain ⟨t, ht, hboth⟩ := Option.map_eq_some_iff.mp hrun
    exact ⟨t, run_of_exec ht, of_decide_eq_true hboth⟩
  · have hrun : (exec (step {}) {} (bothRead ++
        [.act 1 (.attempt .delivered), .act 1 (.go false)])).map (fun t => t.procs 1) =
          some (.raised .fileGone) := by decide +kernel
    obtain ⟨t, ht, hraised⟩ := Option.map_eq_some_iff.mp hrun
    exact ⟨t, run_of_exec ht, hraised⟩

end HermesMesh.Outbox
