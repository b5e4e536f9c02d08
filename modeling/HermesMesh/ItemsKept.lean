import HermesMesh.SweepRuns

/-!
# No item is lost

One reaper sweeps at a time (`Sequential`), and any file operation may fail or be the last before the
process stops. Two operations give an item up: a dump that is cut after `open` has emptied the file
leaves a file that every later sweep skips, and an unlink after a failed `os.replace` removes the
only copy. Away from these (`Intact`), an item that was queued is settled, or one complete copy of it
is in the outbox or in `dead/` (`items_kept`), and a sweep that finds it due picks it up
(`picked_up`).
-/

namespace HermesMesh.Outbox

open Lib

variable {cfg : Config} {disk disk' : Disk} {p p' : Proc} {a : Act} {path x : Uuid} {s t : State}
  {e : Event} {es : List Event} {q : Item}

/-- The item without what a sweep rewrites. -/
def Item.message (i : Item) : Item := { i with attempt := 0, nextRetry := 0 }

/-- The directory holds one complete file with this message. -/
def Copy (dir : Dir) (q : Item) : Prop :=
  ∃ ino i, dir.lookup q.id = some ⟨ino, .item i⟩ ∧ i.message = q.message

/-- The operation gives an item up: a dump that fails or is cut, or the unlink after a failed
`os.replace`. -/
def Proc.givesUp (p : Proc) (a : Act) : Bool :=
  match p, a with
  | .sweeping { hand := some (_, .dumping _ _), .. }, .go true => true
  | .sweeping { hand := some (_, .dumping _ _), .. }, .stop => true
  | .sweeping { hand := some (_, .buryUnlink), .. }, .go false => true
  | _, _ => false

/-- No item is given up. -/
def Intact (s : State) : Event → Prop
  | .act pid a => (s.procs pid).givesUp a = false
  | _ => True

instance : DecidablePred (Intact s) := fun e =>
  match e with
  | .act _ _ => inferInstanceAs (Decidable (_ = _))
  | .queue _ | .queueTorn _ => .isTrue trivial

theorem Intact.go {pid : ℕ} {fault : Bool} {sw : Sweep} {stage : Stage}
    (hg : Intact s (.act pid (.go fault))) (hsw : s.procs pid = .sweeping sw)
    (hhand : sw.hand = some (path, stage)) :
    (fault = true → ∀ ino item, stage ≠ .dumping ino item) ∧
      (fault = false → stage ≠ .buryUnlink) := by
  obtain ⟨now, todo, retried, delivered, hand⟩ := sw
  cases hhand
  change (s.procs pid).givesUp _ = false at hg
  rw [hsw] at hg
  constructor
  · rintro rfl ino item rfl
    cases hg
  · rintro rfl rfl
    cases hg

theorem Intact.stop {pid ino : ℕ} {sw : Sweep} {item : Item} (hg : Intact s (.act pid .stop))
    (hsw : s.procs pid = .sweeping sw) : sw.hand ≠ some (path, .dumping ino item) := by
  intro hhand
  obtain ⟨now, todo, retried, delivered, hand⟩ := sw
  cases hhand
  change (s.procs pid).givesUp _ = false at hg
  rw [hsw] at hg
  cases hg

/-! ## The item in hand -/

/-- The item a stage carries. -/
def Stage.item? : Stage → Option Item
  | .attempting item | .rewriting item | .dumping _ item => some item
  | .removing | .makingDead | .burying | .buryUnlink => none

/-- What a stage carries is a message read from the disk, or the one it carried before. -/
theorem Moves.carried (h : Moves cfg disk p a disk' p') {sw : Sweep} {stage : Stage} {item : Item}
    (hp : p' = .sweeping sw) (hhand : sw.hand = some (x, stage)) (hitem : stage.item? = some item) :
    (∃ i, disk.read x = some i ∧ i.message = item.message) ∨
      ∃ sw' stage' i, p = .sweeping sw' ∧ sw'.hand = some (x, stage') ∧ stage'.item? = some i ∧
        i.message = item.message := by
  cases h with
  | @take s path rest i hhand' htodo hread hdue =>
    obtain rfl := Proc.sweeping.inj hp
    cases hhand
    cases hitem
    exact .inl ⟨i, hread, rfl⟩
  | @retry s path i hhand' hmax =>
    obtain rfl := Proc.sweeping.inj hp
    cases hhand
    cases hitem
    exact .inr ⟨s, _, _, rfl, hhand', rfl, rfl⟩
  | @open_ s path i hhand' =>
    obtain rfl := Proc.sweeping.inj hp
    cases hhand
    cases hitem
    exact .inr ⟨s, _, _, rfl, hhand', rfl, rfl⟩
  | finish | missing | fault | undelivered | stop => cases hp
  | start | skip | unopened | remove | discard | bury | dump =>
    obtain rfl := Proc.sweeping.inj hp
    cases hhand
  | succeed | exhaust | madeDead | unburied =>
    obtain rfl := Proc.sweeping.inj hp
    cases hhand
    cases hitem

/-- An item is about to be removed only after its attempt succeeded. -/
theorem Moves.removing (h : Moves cfg disk p a disk' p') {sw : Sweep} (hp : p' = .sweeping sw)
    (hhand : sw.hand = some (x, .removing)) : p.settles a = some x := by
  cases h with
  | @succeed s path item outcome hhand' hout =>
    obtain rfl := Proc.sweeping.inj hp
    cases hhand
    obtain ⟨now, todo, retried, delivered, hand⟩ := s
    cases hhand'
    rcases hout with rfl | rfl <;> rfl
  | finish | missing | fault | undelivered | stop => cases hp
  | start | skip | take | exhaust | retry | madeDead | unburied | unopened | remove | discard | bury
  | open_ | dump =>
    obtain rfl := Proc.sweeping.inj hp
    cases hhand

/-! ## The invariant -/

/-- The item is settled, or a complete copy is on the disk, or its dump is under way. -/
def Kept (s : State) (q : Item) : Prop :=
  q.id ∈ s.settled ∨ Copy s.disk.outbox q ∨ Copy s.disk.dead q ∨
    ∃ p sw ino item, s.procs p = .sweeping sw ∧ sw.hand = some (q.id, .dumping ino item)

structure Safe (s : State) : Prop where
  ordered : Ordered s
  queuedUsed : ∀ q ∈ s.queued, q.id ∈ s.used
  carried : ∀ q ∈ s.queued, ∀ p sw stage item, s.procs p = .sweeping sw →
    sw.hand = some (q.id, stage) → stage.item? = some item → item.message = q.message
  removing : ∀ p sw path, s.procs p = .sweeping sw → sw.hand = some (path, .removing) →
    path ∈ s.settled
  same : ∀ q ∈ s.queued, ∀ ino i, s.disk.outbox.lookup q.id = some ⟨ino, .item i⟩ →
    i.message = q.message
  kept : ∀ q ∈ s.queued, Kept s q

theorem read_eq_some {i : Item} :
    disk.read x = some i ↔ ∃ ino, disk.outbox.lookup x = some ⟨ino, .item i⟩ := by
  unfold Disk.read
  constructor
  · intro h
    split at h
    · rename_i ino j heq
      obtain rfl := Option.some.inj h
      exact ⟨ino, heq⟩
    · cases h
  · rintro ⟨ino, h⟩
    rw [h]

theorem Copy.mem {dir : Dir} (h : Copy dir q) : q.id ∈ dir := by
  obtain ⟨ino, i, hlookup, -⟩ := h
  exact AList.lookup_isSome.mp (by rw [hlookup]; rfl)

theorem Copy.congr {dir dir' : Dir} (h : Copy dir q) (heq : dir'.lookup q.id = dir.lookup q.id) :
    Copy dir' q := by
  obtain ⟨ino, i, hlookup, hi⟩ := h
  exact ⟨ino, i, heq.trans hlookup, hi⟩

/-- An item in hand that is not being dumped is settled, or complete in the outbox. -/
theorem Safe.in_hand (h : Safe s) (hq : q ∈ s.queued) {pid : ℕ} {sw : Sweep} {stage : Stage}
    (hsw : s.procs pid = .sweeping sw) (hhand : sw.hand = some (q.id, stage))
    (hstage : ∀ ino item, stage ≠ .dumping ino item) :
    q.id ∈ s.settled ∨ Copy s.disk.outbox q := by
  have hpid : (s.procs pid).hand = some q.id := by rw [hsw]; exact hand_sweeping hhand
  rcases h.kept q hq with hset | hout | hdead | ⟨p, sw', ino, item, hsw', hhand'⟩
  · exact .inl hset
  · exact .inr hout
  · exact absurd hdead.mem (h.ordered.apart _ (h.ordered.present pid _ hpid))
  · have hp : (s.procs p).hand = some q.id := by rw [hsw']; exact hand_sweeping hhand'
    obtain rfl := h.ordered.alone p pid _ hp hpid
    obtain rfl := Proc.sweeping.inj (hsw.symm.trans hsw')
    rw [hhand] at hhand'
    cases hhand'
    exact absurd rfl (hstage ino item)

/-- **The item in hand.** One intact step keeps it. -/
theorem Safe.kept_in_hand (h : Safe s) (hq : q ∈ s.queued) {pid : ℕ}
    (hg : Intact s (.act pid a)) (m : Moves cfg s.disk (s.procs pid) a disk' p')
    (hx : (s.procs pid).hand = some q.id) :
    q.id ∈ s.settled ∨ Copy disk'.outbox q ∨ Copy disk'.dead q ∨
      ∃ sw ino item, p' = .sweeping sw ∧ sw.hand = some (q.id, .dumping ino item) := by
  have hmem : q.id ∈ s.disk.outbox := h.ordered.present pid q.id hx
  generalize hp : s.procs pid = p at m hx
  -- in every stage but a dump the item is settled or complete in the outbox
  have hin : ∀ {sw stage}, p = .sweeping sw → sw.hand = some (q.id, stage) →
      (∀ ino item, stage ≠ .dumping ino item) → q.id ∈ s.settled ∨ Copy s.disk.outbox q :=
    fun hsw hhand hstage => h.in_hand hq (hp.trans hsw) hhand hstage
  cases m with
  | start now hno => exact absurd (sweeping_of_hand hx) hno
  | finish fault hhand _ | skip fault hhand _ _ | take hhand _ _ _ =>
    rw [hand_none hhand] at hx
    cases hx
  | succeed hhand _ | exhaust hhand _ | retry hhand _ | madeDead hhand | unburied _ hhand _
  | unopened hhand | undelivered hhand =>
    obtain rfl := hand_path hx hhand
    exact (hin rfl hhand nofun).imp_right .inl
  | remove hhand _ =>
    obtain rfl := hand_path hx hhand
    exact .inl (h.removing pid _ _ hp hhand)
  | discard hhand _ => exact absurd rfl ((hg.go hp hhand).2 rfl)
  | bury hhand hlookup =>
    obtain rfl := hand_path hx hhand
    rcases hin rfl hhand nofun with hset | ⟨ino, i, hi, hmsg⟩
    · exact .inl hset
    · rw [hlookup] at hi
      obtain rfl := Option.some.inj hi
      exact .inr (.inr (.inl ⟨ino, i, AList.lookup_insert _, hmsg⟩))
  | open_ hhand =>
    obtain rfl := hand_path hx hhand
    exact .inr (.inr (.inr ⟨_, _, _, rfl, rfl⟩))
  | @dump sw path ino item fault hhand =>
    obtain rfl := hand_path hx hhand
    obtain rfl : fault = false := by
      rw [← Bool.not_eq_true]
      exact fun hf => (hg.go hp hhand).1 hf ino item rfl
    obtain ⟨c, hc⟩ := h.ordered.opened pid sw q.id ino item hp hhand
    exact .inr (.inl ⟨ino, item, Dir.lookup_write hc, h.carried q hq pid sw _ item hp hhand rfl⟩)
  | missing hhand hno =>
    obtain rfl := hand_path hx hhand
    exact absurd hmem hno
  | fault hhand _ =>
    obtain rfl := hand_path hx hhand
    exact (hin rfl hhand ((hg.go hp hhand).1 rfl)).imp_right .inl
  | @stop sw =>
    cases hhand : sw.hand with
    | none => rw [hand_none hhand] at hx; cases hx
    | some held =>
      obtain ⟨path, stage⟩ := held
      obtain rfl := hand_path hx hhand
      have hstage : ∀ ino item, stage ≠ .dumping ino item := by
        rintro ino item rfl
        exact hg.stop hp hhand
      exact (hin rfl hhand hstage).imp_right .inl

/-- The complete file in hand keeps its message. -/
theorem Safe.same_in_hand (h : Safe s) (hq : q ∈ s.queued) {pid : ℕ}
    (m : Moves cfg s.disk (s.procs pid) a disk' p') (hx : (s.procs pid).hand = some q.id) {ino : ℕ}
    {i : Item} (hi : disk'.outbox.lookup q.id = some ⟨ino, .item i⟩) : i.message = q.message := by
  generalize hp : s.procs pid = p at m hx
  cases m with
  | remove hhand _ | discard hhand _ | bury hhand _ =>
    obtain rfl := hand_path hx hhand
    have hi := (AList.lookup_erase q.id s.disk.outbox).symm.trans hi
    cases hi
  | open_ hhand =>
    obtain rfl := hand_path hx hhand
    rw [Disk.lookup_truncate] at hi
    cases hi
  | @dump sw path ino' item fault hhand =>
    obtain rfl := hand_path hx hhand
    obtain ⟨c, hc⟩ := h.ordered.opened pid sw q.id ino' item hp hhand
    have hi := (Dir.lookup_write hc).symm.trans hi
    cases fault with
    | true => cases hi
    | false =>
      cases hi
      exact h.carried q hq pid sw _ i hp hhand rfl
  | start | finish | skip | take | succeed | exhaust | retry | madeDead | unburied | unopened
  | missing | fault | undelivered | stop => exact h.same q hq ino i hi

/-- **One step of a process.** -/
theorem Safe.act {pid : ℕ} (h : Safe s) (ha : Alone s (.act pid a)) (hg : Intact s (.act pid a))
    (m : Moves cfg s.disk (s.procs pid) a disk' p') :
    Safe
      { s with
        disk := disk'
        procs := Function.update s.procs pid p'
        settled := ((s.procs pid).settles a).toList ++ s.settled
        removed := ((s.procs pid).removes s.disk a).toList ++ s.removed } where
  ordered := h.ordered.act ha m
  queuedUsed := h.queuedUsed
  carried q hq := by
    refine (Function.forall_update_iff s.procs fun _ p => ∀ sw stage item, p = .sweeping sw →
      sw.hand = some (q.id, stage) → stage.item? = some item →
        item.message = q.message).mpr ⟨fun sw stage item hsw hhand hitem => ?_, fun p _ => ?_⟩
    · rcases m.carried hsw hhand hitem with ⟨i, hread, hmsg⟩ | ⟨sw', stage', i, hsw', hhand', hi, hmsg⟩
      · obtain ⟨ino, hlookup⟩ := read_eq_some.mp hread
        rw [← hmsg]
        exact h.same q hq ino i hlookup
      · rw [← hmsg]
        exact h.carried q hq pid sw' stage' i hsw' hhand' hi
    · exact h.carried q hq p
  removing := by
    refine (Function.forall_update_iff s.procs fun _ p => ∀ sw path, p = .sweeping sw →
      sw.hand = some (path, .removing) → path ∈ ((s.procs pid).settles a).toList ++ s.settled).mpr
        ⟨fun sw path hsw hhand => ?_, fun p _ sw path hsw hhand => ?_⟩
    · rw [m.removing hsw hhand]
      exact List.mem_cons_self
    · exact List.mem_append_right _ (h.removing p sw path hsw hhand)
  same q hq ino i hi := by
    by_cases hx : (s.procs pid).hand = some q.id
    · exact h.same_in_hand hq m hx hi
    · exact h.same q hq ino i ((m.frame hx).1.symm.trans hi)
  kept q hq := by
    by_cases hx : (s.procs pid).hand = some q.id
    · rcases h.kept_in_hand hq hg m hx with hset | hout | hdead | ⟨sw, ino, item, rfl, hhand⟩
      · exact .inl (List.mem_append_right _ hset)
      · exact .inr (.inl hout)
      · exact .inr (.inr (.inl hdead))
      · exact .inr (.inr (.inr ⟨pid, sw, ino, item, Function.update_self .., hhand⟩))
    · obtain ⟨hfo, hfd⟩ := m.frame hx
      rcases h.kept q hq with hset | hout | hdead | ⟨p, sw, ino, item, hsw, hhand⟩
      · exact .inl (List.mem_append_right _ hset)
      · exact .inr (.inl (hout.congr hfo))
      · exact .inr (.inr (.inl (hdead.congr hfd)))
      · have hp : p ≠ pid := by
          rintro rfl
          rw [hsw, hand_sweeping hhand] at hx
          exact hx rfl
        exact .inr (.inr (.inr ⟨p, sw, ino, item, (Function.update_of_ne hp ..).trans hsw, hhand⟩))

/-- A new file leaves the queued items as they were. -/
theorem Safe.create (h : Safe s) {id : Uuid} (hid : id ∉ s.used) (content : Content) :
    Safe { s with disk := s.disk.create id content, used := id :: s.used } := by
  have hne : ∀ q ∈ s.queued, q.id ≠ id := fun q hq heq => hid (heq ▸ h.queuedUsed q hq)
  have hlookup : ∀ q ∈ s.queued,
      (s.disk.create id content).outbox.lookup q.id = s.disk.outbox.lookup q.id :=
    fun q hq => AList.lookup_insert_ne (hne q hq)
  refine ⟨h.ordered.create hid content _, fun q hq => List.mem_cons_of_mem _ (h.queuedUsed q hq),
    h.carried, h.removing, fun q hq ino i hi => ?_, fun q hq => ?_⟩
  · exact h.same q hq ino i ((hlookup q hq).symm.trans hi)
  · rcases h.kept q hq with hset | hout | hdead | hdump
    · exact .inl hset
    · exact .inr (.inl (hout.congr (hlookup q hq)))
    · exact .inr (.inr (.inl hdead))
    · exact .inr (.inr (.inr hdump))

/-- `queue_message` adds a complete copy. -/
theorem Safe.queue (h : Safe s) (hid : q.id ∉ s.used) :
    Safe
      { s with
        disk := s.disk.create q.id (.item q)
        used := q.id :: s.used
        queued := q :: s.queued } := by
  have hc := h.create hid (.item q)
  have hlookup : (s.disk.create q.id (.item q)).outbox.lookup q.id =
      some ⟨s.disk.nextIno, .item q⟩ := AList.lookup_insert _
  -- nobody has a name in hand that was never used
  have hfree : ∀ p sw stage, s.procs p = .sweeping sw → sw.hand ≠ some (q.id, stage) := by
    intro p sw stage hsw hhand
    have hp : (s.procs p).hand = some q.id := by rw [hsw]; exact hand_sweeping hhand
    exact hid (h.ordered.used _ (.inl (h.ordered.present p _ hp)))
  refine ⟨h.ordered.create hid (.item q) _, List.forall_mem_cons.mpr ⟨List.mem_cons_self, hc.queuedUsed⟩,
    List.forall_mem_cons.mpr ⟨?_, hc.carried⟩, hc.removing, List.forall_mem_cons.mpr ⟨?_, hc.same⟩,
    List.forall_mem_cons.mpr ⟨?_, hc.kept⟩⟩
  · exact fun p sw stage _ hsw hhand _ => absurd hhand (hfree p sw stage hsw)
  · intro ino i hi
    cases hlookup.symm.trans hi
    rfl
  · exact .inr (.inl ⟨_, q, hlookup, rfl⟩)

/-- **One step.** -/
theorem step_safe (h : Safe s) (ha : Alone s e) (hg : Intact s e) (hs : step cfg s e = some t) :
    Safe t := by
  cases step_steps hs with
  | queue hid => exact h.queue hid
  | queueTorn hid => exact h.create hid _
  | act m => exact h.act ha hg m

theorem safe_empty : Safe {} where
  ordered := ordered_empty
  queuedUsed _ h := nomatch h
  carried _ h := nomatch h
  removing _ _ _ h := nomatch h
  same _ h := nomatch h
  kept _ h := nomatch h

/-! ## A due sweep picks the item up -/

/-- An exception leaves the sweep in this step, or its process stops. -/
def Proc.breaksOff (p : Proc) (a : Act) : Bool :=
  match p, a with
  | .sweeping _, .stop => true
  | .sweeping { hand := some (_, .attempting _), .. }, .attempt .raised => true
  | .sweeping { hand := some (_, .removing), .. }, .go true => true
  | .sweeping { hand := some (_, .makingDead), .. }, .go true => true
  | .sweeping { hand := some (_, .buryUnlink), .. }, .go true => true
  | _, _ => false

/-- The step brings the sweep nearer to a path that it still has on its list: no other sweep starts,
no exception leaves the sweep, its process does not stop, and the read of the path does not fail. -/
def Nears (path : Uuid) (s : State) : Event → Prop
  | .act _ (.start _) => False
  | .act pid a => ∀ sw, s.procs pid = .sweeping sw → path ∈ sw.todo →
      (s.procs pid).breaksOff a = false ∧
        (sw.hand = none → ∀ rest, sw.todo = path :: rest → a ≠ .go true)
  | _ => True

/-- The process has read the path as due and is about to attempt its item. -/
def Proc.PicksUp (path : Uuid) (p : Proc) : Prop :=
  ∃ sw item, p = .sweeping sw ∧ sw.hand = some (path, .attempting item)

/-- Every later sweep that starts when the item is due, and that nothing breaks off before it comes to
the item, is over only after it has picked the item up. -/
def PickedUp (cfg : Config) (s : State) (path : Uuid) (due : Time) : Prop :=
  ∀ pid now u es t, due ≤ now → step cfg s (.act pid (.start now)) = some u →
    Run (step cfg) (Nears path) u es t → ¬ (t.procs pid).Sweeping →
      ∃ front rest v, es = front ++ rest ∧ exec (step cfg) u front = some v ∧
        (v.procs pid).PicksUp path

/-- The sweep will still come to the path, and the file is as it was. -/
def Awaits (path : Uuid) (f : File) (now : Time) (disk : Disk) (p : Proc) : Prop :=
  ∃ sw, p = .sweeping sw ∧ sw.now = now ∧ path ∈ sw.todo ∧ p.hand ≠ some path ∧
    disk.outbox.lookup path = some f

/-- **One move of the sweep.** It goes on waiting for the path, or picks it up. -/
theorem Moves.awaits (m : Moves cfg disk p a disk' p') {ino : ℕ} {i : Item} {now : Time}
    (hdue : i.nextRetry ≤ now) (hstart : ∀ now, a ≠ .start now)
    (hnears : ∀ sw, p = .sweeping sw → path ∈ sw.todo → p.breaksOff a = false ∧
      (sw.hand = none → ∀ rest, sw.todo = path :: rest → a ≠ .go true))
    (hpresent : ∀ path, p.hand = some path → path ∈ disk.outbox)
    (h : Awaits path ⟨ino, .item i⟩ now disk p) :
    Awaits path ⟨ino, .item i⟩ now disk' p' ∨ p'.PicksUp path := by
  obtain ⟨sw, rfl, rfl, hmem, hne, hlook⟩ := h
  obtain ⟨hgoes, hread⟩ := hnears sw rfl hmem
  have hlook' := (m.frame hne).1.trans hlook
  have hdisk : disk.read path = some i := read_eq_some.mpr ⟨ino, hlook⟩
  cases m with
  | start now' _ => exact absurd rfl (hstart now')
  | finish fault hhand htodo =>
    rw [htodo] at hmem
    cases hmem
  | @skip _ path' rest fault hhand htodo hskip =>
    rw [htodo, List.mem_cons] at hmem
    rcases hmem with rfl | hmem
    · -- the path is readable and due, so it is not skipped
      rcases hskip with rfl | hlate
      · exact absurd rfl (hread hhand rest htodo)
      · exact absurd hdue (not_le.mpr (hlate i hdisk))
    · exact .inl ⟨_, rfl, rfl, hmem, nofun, hlook'⟩
  | @take _ path' rest item hhand htodo hread' _ =>
    rw [htodo, List.mem_cons] at hmem
    by_cases hpath : path = path'
    · subst hpath
      exact .inr ⟨_, _, rfl, rfl⟩
    · exact .inl ⟨_, rfl, rfl, hmem.resolve_left hpath, fun hx => hpath (Option.some.inj hx).symm,
        hlook'⟩
  -- the remaining moves keep the list of paths, and write only under the path in hand
  | succeed hhand _ | exhaust hhand _ | retry hhand _ | madeDead hhand | unburied _ hhand _
  | open_ hhand =>
    rw [hand_sweeping hhand] at hne
    exact .inl ⟨_, rfl, rfl, hmem, hne, hlook'⟩
  | unopened | remove | discard | bury | dump => exact .inl ⟨_, rfl, rfl, hmem, nofun, hlook'⟩
  | missing hhand hno => exact absurd (hpresent _ (hand_sweeping hhand)) hno
  | fault hhand hstage =>
    obtain ⟨now, todo, retried, delivered, hand⟩ := sw
    cases hhand
    rcases hstage with rfl | rfl | rfl <;> cases hgoes
  | undelivered hhand =>
    obtain ⟨now, todo, retried, delivered, hand⟩ := sw
    cases hhand
    cases hgoes
  | stop => cases hgoes

theorem Moves.sweeping_before (m : Moves cfg disk p a disk' p') (hstart : ∀ now, a ≠ .start now) :
    p.Sweeping := by
  cases m with
  | start now _ => exact absurd rfl (hstart now)
  | finish | skip | take | succeed | exhaust | retry | madeDead | unburied | unopened | remove
  | discard | bury | open_ | dump | missing | fault | undelivered | stop => trivial

/-- While one sweep is under way: it awaits the path, and nobody else sweeps. -/
structure Visit (pid : ℕ) (path : Uuid) (f : File) (now : Time) (s : State) : Prop where
  ordered : Ordered s
  others : ∀ p ≠ pid, ¬ (s.procs p).Sweeping
  awaits : Awaits path f now s.disk (s.procs pid)

theorem Visit.create {pid : ℕ} {f : File} {now : Time} (h : Visit pid path f now s) {id : Uuid}
    (hid : id ∉ s.used) (content : Content) (queued : List Item) :
    Visit pid path f now
      { s with disk := s.disk.create id content, used := id :: s.used, queued := queued } where
  ordered := h.ordered.create hid content queued
  others := h.others
  awaits := by
    obtain ⟨sw, hsw, hnow, hmem, hne, hlook⟩ := h.awaits
    have hid' : path ≠ id := by
      rintro rfl
      exact hid (h.ordered.used path (.inl (AList.lookup_isSome.mp (by rw [hlook]; rfl))))
    exact ⟨sw, hsw, hnow, hmem, hne, (AList.lookup_insert_ne hid').trans hlook⟩

/-- **One step.** -/
theorem step_visit {pid ino : ℕ} {i : Item} {now : Time} (hdue : i.nextRetry ≤ now)
    (h : Visit pid path ⟨ino, .item i⟩ now s) (hg : Nears path s e) (hs : step cfg s e = some t) :
    Visit pid path ⟨ino, .item i⟩ now t ∨ (t.procs pid).PicksUp path := by
  cases step_steps hs with
  | queue hid => exact .inl (h.create hid _ _)
  | queueTorn hid => exact .inl (h.create hid _ _)
  | @act pid' a disk' p' m =>
    have hstart : ∀ now, a ≠ .start now := by
      rintro now rfl
      exact hg
    obtain rfl : pid' = pid := by
      by_contra hne
      exact h.others pid' hne (m.sweeping_before hstart)
    have hnears : ∀ sw, s.procs pid' = .sweeping sw → path ∈ sw.todo →
        (s.procs pid').breaksOff a = false ∧
          (sw.hand = none → ∀ rest, sw.todo = path :: rest → a ≠ .go true) := by
      cases a with
      | start now => exact absurd rfl (hstart now)
      | go | attempt | stop => exact hg
    have hsolo : Solo s := by
      intro p q hp hq
      have hpid : ∀ p, (s.procs p).Sweeping → p = pid' := fun p hp => by
        by_contra hne
        exact h.others p hne hp
      rw [hpid p hp, hpid q hq]
    refine (m.awaits hdue hstart hnears (h.ordered.present pid') h.awaits).imp
      (fun hawaits => ⟨h.ordered.act hsolo.alone m, fun p hp => ?_, ?_⟩) fun hpicks => ?_
    · show ¬ (Function.update s.procs pid' p' p).Sweeping
      rw [Function.update_of_ne hp]
      exact h.others p hp
    · show Awaits path _ now disk' (Function.update s.procs pid' p' pid')
      rwa [Function.update_self]
    · show (Function.update s.procs pid' p' pid').PicksUp path
      rwa [Function.update_self]

theorem picked_up (h : Ordered s) (hquiet : ∀ p, ¬ (s.procs p).Sweeping) {ino : ℕ} {i : Item}
    (hlook : s.disk.outbox.lookup path = some ⟨ino, .item i⟩) : PickedUp cfg s path i.nextRetry := by
  intro pid now u es t hdue hs hrun hover
  have hmem : path ∈ s.disk.outbox := AList.lookup_isSome.mp (by rw [hlook]; rfl)
  have hsolo : Solo s := fun p _ hp => (hquiet p hp).elim
  have hordered : Ordered u := step_ordered h hsolo.alone hs
  have hvisit : Visit pid path ⟨ino, .item i⟩ now u := by
    cases step_steps hs with
    | act m =>
      refine ⟨hordered, fun p hp => ?_, ?_⟩
      · show ¬ (Function.update s.procs pid _ p).Sweeping
        rw [Function.update_of_ne hp]
        exact hquiet p
      · show Awaits path _ now _ (Function.update s.procs pid _ pid)
        rw [Function.update_self]
        generalize s.procs pid = p at m
        cases m with
        | start _ hno =>
          refine ⟨_, rfl, rfl, ?_, nofun, hlook⟩
          rw [List.mem_insertionSort]
          exact AList.mem_keys.mp hmem
  rcases hrun.reaches (fun _ _ _ => step_visit hdue) hvisit with hend | hpicked
  · obtain ⟨sw, hsw, -⟩ := hend.awaits
    rw [hsw] at hover
    exact absurd trivial hover
  · exact hpicked

/-! ## Runs -/

/-- A sweep starts alone, and no operation gives an item up. -/
def Careful (s : State) (e : Event) : Prop := Sequential s e ∧ Intact s e

theorem run_safe (h : Run (step cfg) Careful {} es t) : Safe t := by
  have hsolo : Solo {} := fun _ _ hp => hp.elim
  have halone : Run (step cfg) (fun s e => Alone s e ∧ Intact s e) {} es t :=
    h.refine (fun _ _ _ hI hg hs => step_solo hI hg.1 hs) (fun _ _ _ hI hg _ => ⟨hI.alone, hg.2⟩) hsolo
  exact halone.invariant (fun _ _ _ hI hg hs => step_safe hI hg.1 hg.2 hs) safe_empty

/-- What has become of a queued item between two sweeps. -/
inductive Whereabouts (cfg : Config) (s : State) (q : Item) : Prop
  /-- It was delivered, or dropped because its thread was closed. -/
  | settled (h : q.id ∈ s.settled)
  | outbox (ino : ℕ) (i : Item) (hfile : s.disk.outbox.lookup q.id = some ⟨ino, .item i⟩)
      (hmessage : i.message = q.message) (honce : q.id ∉ s.disk.dead)
      (hdue : PickedUp cfg s q.id i.nextRetry)
  | dead (ino : ℕ) (i : Item) (hfile : s.disk.dead.lookup q.id = some ⟨ino, .item i⟩)
      (hmessage : i.message = q.message) (honce : q.id ∉ s.disk.outbox)

/-- **No item is lost.** After any sequence of sweeps whose file operations fail or are cut anywhere
but in the two places, every queued item is settled, or has one complete file in the outbox, which a
due sweep picks up, or in `dead/`. -/
theorem items_kept (h : Run (step cfg) Careful {} es t) (hquiet : ∀ p, ¬ (t.procs p).Sweeping) :
    ∀ q ∈ t.queued, Whereabouts cfg t q := by
  intro q hq
  have hsafe := run_safe h
  rcases hsafe.kept q hq with hset | hout | hdead | ⟨p, sw, ino, item, hsw, -⟩
  · exact .settled hset
  · have honce := hsafe.ordered.apart q.id hout.mem
    obtain ⟨ino, i, hfile, hmsg⟩ := hout
    exact .outbox ino i hfile hmsg honce (picked_up hsafe.ordered hquiet hfile)
  · have honce : q.id ∉ t.disk.outbox := fun hin => hsafe.ordered.apart q.id hin hdead.mem
    obtain ⟨ino, i, hfile, hmsg⟩ := hdead
    exact .dead ino i hfile hmsg honce
  · exact absurd (by rw [hsw]; trivial) (hquiet p)

/-- A sweep that fails to deliver the letter and is about to dump it again. -/
def reopened : List Event :=
  [.queue letter, .act 0 (.start 1), .act 0 (.go false), .act 0 (.attempt .failed),
    .act 0 (.go false)]

theorem quiet_of_idle (h : ∀ p ≠ 0, s.procs p = .idle) (h0 : ¬ (s.procs 0).Sweeping) :
    ∀ p, ¬ (s.procs p).Sweeping := by
  intro p
  by_cases hp : p = 0
  · rwa [hp]
  · rw [h p hp]
    exact id

theorem items_kept_rewritten :
    ∃ t, Run (step {}) Free {} (reopened ++ [.act 0 (.go false), .act 0 (.go false)]) t ∧
      letter ∈ t.queued ∧ Whereabouts {} t letter := by
  have hrun : (exec (checked (fun s e => decide (Only 0 e ∧ Intact s e)) (step {})) {}
      (reopened ++ [.act 0 (.go false), .act 0 (.go false)])).map
        (fun t => decide (t.queued = [letter] ∧ t.procs 0 = .returned [7] [])) = some true := by
    decide +kernel
  obtain ⟨t, ht, hend⟩ := Option.map_eq_some_iff.mp hrun
  obtain ⟨hqueued, hproc⟩ := of_decide_eq_true hend
  have hchecked := (run_of_checked ht).mono fun _ _ hg => of_decide_eq_true hg
  have hidle : ∀ p ≠ 0, t.procs p = .idle :=
    hchecked.invariant (fun _ _ _ hI hg hs => step_idle hI hg.1 hs) (fun _ _ => rfl)
  have hcareful : Run (step {}) Careful {} _ t :=
    hchecked.refine (fun _ _ _ hI hg hs => step_idle hI hg.1 hs)
      (fun _ _ _ hI hg hs => ⟨sequential_of_only hI hg.1 hs, hg.2⟩) (fun _ _ => rfl)
  refine ⟨t, hchecked.mono (fun _ _ _ => trivial), by rw [hqueued]; exact List.mem_cons_self, ?_⟩
  refine items_kept hcareful (quiet_of_idle hidle ?_) letter (by rw [hqueued]; exact List.mem_cons_self)
  rw [hproc]
  exact id

/-- The disk is full when the item is dumped: the file is torn, and the item is nowhere. -/
theorem item_lost :
    ∃ t, Run (step {}) Free {} (reopened ++ [.act 0 (.go true), .act 0 (.go false)]) t ∧
      (∀ p, ¬ (t.procs p).Sweeping) ∧ letter ∈ t.queued ∧ ¬ Whereabouts {} t letter := by
  have hrun : (exec (step {}) {} (reopened ++ [.act 0 (.go true), .act 0 (.go false)])).map
      (fun t => decide (t.queued = [letter] ∧ t.procs 0 = .returned [7] [] ∧ t.settled = [] ∧
        t.disk.outbox.lookup 7 = some ⟨0, .torn⟩ ∧ t.disk.dead.lookup 7 = none)) = some true := by
    decide +kernel
  obtain ⟨t, ht, hend⟩ := Option.map_eq_some_iff.mp hrun
  obtain ⟨hqueued, hproc, hsettled, hout, hdead⟩ := of_decide_eq_true hend
  have honly : Run (step {}) (fun _ e => Only 0 e) {} _ t :=
    (run_of_exec ht).of_forall (by simp [reopened, Only])
  have hidle : ∀ p ≠ 0, t.procs p = .idle :=
    honly.invariant (fun _ _ _ hI hg hs => step_idle hI hg hs) (fun _ _ => rfl)
  refine ⟨t, run_of_exec ht, quiet_of_idle hidle ?_, by rw [hqueued]; exact List.mem_cons_self, ?_⟩
  · rw [hproc]
    exact id
  · intro hw
    cases hw with
    | settled h => rw [hsettled] at h; cases h
    | outbox ino i hfile => cases hout.symm.trans hfile
    | dead ino i hfile => cases hdead.symm.trans hfile

end HermesMesh.Outbox
