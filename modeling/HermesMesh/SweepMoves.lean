import HermesMesh.Outbox

/-!
# What one step of a sweep can do

`Moves` lists the moves of a process, one constructor a case of `Proc.act`, guards included
(`act_moves`), and `Steps` the steps of the system (`step_steps`). A sweep writes only under the path
it has in hand (`Moves.frame`).
-/

namespace HermesMesh.Outbox

variable {cfg : Config} {disk disk' : Disk} {p p' : Proc} {a : Act} {path x : Uuid}

def Proc.Sweeping : Proc → Prop
  | .sweeping _ => True
  | _ => False

/-- The moves of one process. -/
inductive Moves (cfg : Config) (disk : Disk) : Proc → Act → Disk → Proc → Prop
  | start {p : Proc} (now : Time) (h : ¬ p.Sweeping) :
      Moves cfg disk p (.start now) disk
        (.sweeping { now, todo := disk.outbox.keys.insertionSort (· ≤ ·) })
  | finish {s : Sweep} (fault : Bool) (hhand : s.hand = none) (htodo : s.todo = []) :
      Moves cfg disk (.sweeping s) (.go fault) disk (.returned s.retried s.delivered)
  /-- The path is gone, unreadable, or not due. -/
  | skip {s : Sweep} {path : Uuid} {rest : List Uuid} (fault : Bool) (hhand : s.hand = none)
      (htodo : s.todo = path :: rest)
      (hskip : fault = true ∨ ∀ item, disk.read path = some item → s.now < item.nextRetry) :
      Moves cfg disk (.sweeping s) (.go fault) disk
        (.sweeping { s with todo := rest, hand := none })
  | take {s : Sweep} {path : Uuid} {rest : List Uuid} {item : Item} (hhand : s.hand = none)
      (htodo : s.todo = path :: rest) (hread : disk.read path = some item)
      (hdue : item.nextRetry ≤ s.now) :
      Moves cfg disk (.sweeping s) (.go false) disk
        (.sweeping { s with
          todo := rest
          retried := path :: s.retried
          hand := some (path, .attempting { item with attempt := item.attempt + 1 }) })
  /-- The item in hand goes to its next stage, the disk as it was. -/
  | succeed {s : Sweep} {path : Uuid} {item : Item} {outcome : Attempted}
      (hhand : s.hand = some (path, .attempting item))
      (hout : outcome = .delivered ∨ outcome = .dropped) :
      Moves cfg disk (.sweeping s) (.attempt outcome) disk
        (.sweeping { s with hand := some (path, .removing) })
  | exhaust {s : Sweep} {path : Uuid} {item : Item}
      (hhand : s.hand = some (path, .attempting item)) (hmax : cfg.maxAttempts ≤ item.attempt) :
      Moves cfg disk (.sweeping s) (.attempt .failed) disk
        (.sweeping { s with hand := some (path, .makingDead) })
  | retry {s : Sweep} {path : Uuid} {item : Item}
      (hhand : s.hand = some (path, .attempting item)) (hmax : ¬ cfg.maxAttempts ≤ item.attempt) :
      Moves cfg disk (.sweeping s) (.attempt .failed) disk
        (.sweeping { s with hand := some (path, .rewriting (cfg.postpone s.now item)) })
  | madeDead {s : Sweep} {path : Uuid} (hhand : s.hand = some (path, .makingDead)) :
      Moves cfg disk (.sweeping s) (.go false) disk
        (.sweeping { s with hand := some (path, .burying) })
  | unburied {s : Sweep} {path : Uuid} (fault : Bool) (hhand : s.hand = some (path, .burying))
      (hfail : fault = true ∨ path ∉ disk.outbox) :
      Moves cfg disk (.sweeping s) (.go fault) disk
        (.sweeping { s with hand := some (path, .buryUnlink) })
  /-- The sweep lets go of its item. -/
  | unopened {s : Sweep} {path : Uuid} {item : Item} (hhand : s.hand = some (path, .rewriting item)) :
      Moves cfg disk (.sweeping s) (.go true) disk (.sweeping { s with hand := none })
  | remove {s : Sweep} {path : Uuid} (hhand : s.hand = some (path, .removing))
      (hmem : path ∈ disk.outbox) :
      Moves cfg disk (.sweeping s) (.go false) (disk.unlink path)
        (.sweeping { s with delivered := path :: s.delivered, hand := none })
  | discard {s : Sweep} {path : Uuid} (hhand : s.hand = some (path, .buryUnlink))
      (hmem : path ∈ disk.outbox) :
      Moves cfg disk (.sweeping s) (.go false) (disk.unlink path)
        (.sweeping { s with hand := none })
  | bury {s : Sweep} {path : Uuid} {f : File} (hhand : s.hand = some (path, .burying))
      (hlookup : disk.outbox.lookup path = some f) :
      Moves cfg disk (.sweeping s) (.go false)
        { disk with outbox := disk.outbox.erase path, dead := disk.dead.insert path f }
        (.sweeping { s with hand := none })
  | open_ {s : Sweep} {path : Uuid} {item : Item} (hhand : s.hand = some (path, .rewriting item)) :
      Moves cfg disk (.sweeping s) (.go false) (disk.truncate path).2
        (.sweeping { s with hand := some (path, .dumping (disk.truncate path).1 item) })
  | dump {s : Sweep} {path : Uuid} {ino : ℕ} {item : Item} (fault : Bool)
      (hhand : s.hand = some (path, .dumping ino item)) :
      Moves cfg disk (.sweeping s) (.go fault)
        (disk.write path ino (if fault then .torn else .item item))
        (.sweeping { s with hand := none })
  /-- An exception leaves the sweep. -/
  | missing {s : Sweep} {path : Uuid} {stage : Stage} (hhand : s.hand = some (path, stage))
      (hmem : path ∉ disk.outbox) :
      Moves cfg disk (.sweeping s) (.go false) disk (.raised .fileGone)
  | fault {s : Sweep} {path : Uuid} {stage : Stage} (hhand : s.hand = some (path, stage))
      (hstage : stage = .removing ∨ stage = .makingDead ∨ stage = .buryUnlink) :
      Moves cfg disk (.sweeping s) (.go true) disk (.raised .osError)
  | undelivered {s : Sweep} {path : Uuid} {item : Item}
      (hhand : s.hand = some (path, .attempting item)) :
      Moves cfg disk (.sweeping s) (.attempt .raised) disk (.raised .delivery)
  | stop {s : Sweep} : Moves cfg disk (.sweeping s) .stop disk .stopped

theorem visit_moves {s : Sweep} {path : Uuid} {rest : List Uuid} (fault : Bool)
    (hhand : s.hand = none) (htodo : s.todo = path :: rest) :
    Moves cfg disk (.sweeping s) (.go fault) disk
      (.sweeping ({ s with todo := rest, hand := none }.visit disk fault path)) := by
  unfold Sweep.visit
  cases fault with
  | true => exact .skip true hhand htodo (.inl rfl)
  | false =>
    cases hread : disk.read path with
    | none =>
      simp only [Bool.false_eq_true, if_false]
      exact .skip false hhand htodo (.inr (by rw [hread]; nofun))
    | some item =>
      simp only [Bool.false_eq_true, if_false]
      split_ifs with hdue
      · refine .skip false hhand htodo (.inr fun i hi => ?_)
        rw [hread] at hi
        obtain rfl := Option.some.inj hi
        exact hdue
      · exact .take hhand htodo hread (not_lt.mp hdue)

/-- With nothing in hand. -/
theorem next_moves {s : Sweep} {fault : Bool} (hhand : s.hand = none)
    (h : s.go disk fault = some (disk', p')) : Moves cfg disk (.sweeping s) (.go fault) disk' p' := by
  unfold Sweep.go at h
  rw [hhand] at h
  cases htodo : s.todo with
  | nil =>
    rw [htodo] at h
    cases h
    exact .finish fault hhand htodo
  | cons path rest =>
    rw [htodo] at h
    cases h
    exact visit_moves fault hhand htodo

/-- The move to the dead letters. -/
theorem bury_moves {s : Sweep} {fault : Bool} (hhand : s.hand = some (path, .burying))
    (h : s.go disk fault = some (disk', p')) : Moves cfg disk (.sweeping s) (.go fault) disk' p' := by
  unfold Sweep.go at h
  rw [hhand] at h
  cases fault with
  | true =>
    cases h
    exact .unburied true hhand (.inl rfl)
  | false =>
    cases hlookup : disk.outbox.lookup path with
    | none =>
      simp only [Disk.bury, hlookup] at h
      cases h
      exact .unburied false hhand (.inr (AList.lookup_eq_none.mp hlookup))
    | some f =>
      simp only [Disk.bury, hlookup] at h
      cases h
      exact .bury hhand hlookup

theorem go_moves {s : Sweep} {fault : Bool} (h : s.go disk fault = some (disk', p')) :
    Moves cfg disk (.sweeping s) (.go fault) disk' p' := by
  cases hhand : s.hand with
  | none => exact next_moves hhand h
  | some held =>
    obtain ⟨path, stage⟩ := held
    have hgo := h
    unfold Sweep.go at h
    rw [hhand] at h
    cases stage with
    | attempting item => cases h
    | removing =>
      dsimp only at h
      split_ifs at h with hf hm <;> cases h
      · obtain rfl := hf
        exact .fault hhand (.inl rfl)
      · obtain rfl := Bool.eq_false_of_not_eq_true hf
        exact .remove hhand hm
      · obtain rfl := Bool.eq_false_of_not_eq_true hf
        exact .missing hhand hm
    | makingDead =>
      dsimp only at h
      split_ifs at h with hf <;> cases h
      · obtain rfl := hf
        exact .fault hhand (.inr (.inl rfl))
      · obtain rfl := Bool.eq_false_of_not_eq_true hf
        exact .madeDead hhand
    | burying => exact bury_moves hhand hgo
    | buryUnlink =>
      dsimp only at h
      split_ifs at h with hf hm <;> cases h
      · obtain rfl := hf
        exact .fault hhand (.inr (.inr rfl))
      · obtain rfl := Bool.eq_false_of_not_eq_true hf
        exact .discard hhand hm
      · obtain rfl := Bool.eq_false_of_not_eq_true hf
        exact .missing hhand hm
    | rewriting item =>
      dsimp only at h
      split_ifs at h with hf <;> cases h
      · obtain rfl := hf
        exact .unopened hhand
      · obtain rfl := Bool.eq_false_of_not_eq_true hf
        exact .open_ hhand
    | dumping ino item =>
      cases h
      exact .dump fault hhand

theorem settle_moves {s : Sweep} {outcome : Attempted} (h : s.settle cfg outcome = some p') :
    Moves cfg disk (.sweeping s) (.attempt outcome) disk p' := by
  unfold Sweep.settle at h
  cases hhand : s.hand with
  | none => rw [hhand] at h; cases h
  | some held =>
    obtain ⟨path, stage⟩ := held
    rw [hhand] at h
    cases stage with
    | attempting item =>
      cases outcome with
      | delivered => cases h; exact .succeed hhand (.inl rfl)
      | dropped => cases h; exact .succeed hhand (.inr rfl)
      | failed =>
        dsimp only at h
        split_ifs at h with hmax <;> cases h
        · exact .exhaust hhand hmax
        · exact .retry hhand hmax
      | raised => cases h; exact .undelivered hhand
    | removing | makingDead | burying | buryUnlink | rewriting _ | dumping _ _ => cases h

/-- **Inversion.** Every step of a process is one of its moves. -/
theorem act_moves (h : p.act cfg disk a = some (disk', p')) : Moves cfg disk p a disk' p' := by
  cases p with
  | sweeping s =>
    cases a with
    | start now => cases h
    | go fault => exact go_moves h
    | attempt outcome =>
      simp only [Proc.act, Option.map_eq_some_iff, Prod.mk.injEq] at h
      obtain ⟨q, hq, rfl, rfl⟩ := h
      exact settle_moves hq
    | stop => cases h; exact .stop
  | idle | returned _ _ | raised _ | stopped =>
    cases a with
    | start now => cases h; exact .start now id
    | go _ | attempt _ | stop => cases h

/-- The steps of the system: a new file under a new name, or a move of one process. -/
inductive Steps (cfg : Config) (s : State) : Event → State → Prop
  | queue {item : Item} (hid : item.id ∉ s.used) :
      Steps cfg s (.queue item)
        { s with
          disk := s.disk.create item.id (.item item)
          used := item.id :: s.used
          queued := item :: s.queued }
  | queueTorn {id : Uuid} (hid : id ∉ s.used) :
      Steps cfg s (.queueTorn id)
        { s with disk := s.disk.create id .torn, used := id :: s.used }
  | act {pid : ℕ} {a : Act} {disk' : Disk} {p' : Proc}
      (m : Moves cfg s.disk (s.procs pid) a disk' p') :
      Steps cfg s (.act pid a)
        { s with
          disk := disk'
          procs := Function.update s.procs pid p'
          settled := ((s.procs pid).settles a).toList ++ s.settled
          removed := ((s.procs pid).removes s.disk a).toList ++ s.removed }

theorem step_steps {s t : State} {e : Event} (h : step cfg s e = some t) : Steps cfg s e t := by
  cases e with
  | queue item =>
    simp only [step] at h
    split_ifs at h with hid
    obtain rfl := Option.some.inj h
    exact .queue hid
  | queueTorn id =>
    simp only [step] at h
    split_ifs at h with hid
    obtain rfl := Option.some.inj h
    exact .queueTorn hid
  | act pid a =>
    obtain ⟨⟨disk', p'⟩, hact, rfl⟩ := Option.map_eq_some_iff.mp h
    exact .act (act_moves hact)

/-! ## Where a step writes -/

theorem hand_sweeping {s : Sweep} {path : Uuid} {stage : Stage} (h : s.hand = some (path, stage)) :
    (Proc.sweeping s).hand = some path := by
  show s.hand.map (·.1) = some path
  rw [h]
  rfl

theorem hand_path {s : Sweep} {path x : Uuid} {stage : Stage}
    (hx : (Proc.sweeping s).hand = some x) (h : s.hand = some (path, stage)) : path = x := by
  rw [hand_sweeping h] at hx
  exact Option.some.inj hx

theorem hand_none {s : Sweep} (h : s.hand = none) : (Proc.sweeping s).hand = none := by
  show s.hand.map (·.1) = none
  rw [h]
  rfl

theorem Dir.lookup_write_of_ne {dir : Dir} {ino : ℕ} {content : Content} (h : x ≠ path) :
    (dir.write path ino content).lookup x = dir.lookup x := by
  unfold Dir.write
  split
  · split_ifs
    · exact AList.lookup_insert_ne h
    · rfl
  · rfl

theorem Disk.lookup_truncate_of_ne (h : x ≠ path) :
    (disk.truncate path).2.outbox.lookup x = disk.outbox.lookup x := by
  unfold Disk.truncate
  split <;> exact AList.lookup_insert_ne h

theorem Disk.dead_truncate : (disk.truncate path).2.dead = disk.dead := by
  unfold Disk.truncate
  split <;> rfl

/-- **Frame.** A step leaves every path as it was but the one in hand. -/
theorem Moves.frame (h : Moves cfg disk p a disk' p') (hx : p.hand ≠ some x) :
    disk'.outbox.lookup x = disk.outbox.lookup x ∧ disk'.dead.lookup x = disk.dead.lookup x := by
  have hne : ∀ {s : Sweep} {path : Uuid} {stage : Stage}, p = .sweeping s →
      s.hand = some (path, stage) → x ≠ path := by
    rintro s path stage rfl hhand rfl
    exact hx (hand_sweeping hhand)
  cases h with
  | remove hhand _ | discard hhand _ => exact ⟨AList.lookup_erase_ne (hne rfl hhand), rfl⟩
  | bury hhand _ =>
    exact ⟨AList.lookup_erase_ne (hne rfl hhand), AList.lookup_insert_ne (hne rfl hhand)⟩
  | open_ hhand =>
    exact ⟨Disk.lookup_truncate_of_ne (hne rfl hhand), by rw [Disk.dead_truncate]⟩
  | dump fault hhand =>
    exact ⟨Dir.lookup_write_of_ne (hne rfl hhand), Dir.lookup_write_of_ne (hne rfl hhand)⟩
  | start | finish | skip | take | succeed | exhaust | retry | madeDead | unburied | unopened
  | missing | fault | undelivered | stop => exact ⟨rfl, rfl⟩

/-- What a process has in hand after a step it had before, or it has just read. -/
theorem Moves.hand (h : Moves cfg disk p a disk' p') (hx : p'.hand = some x) :
    p.hand = some x ∨ ∃ s rest, p = .sweeping s ∧ s.hand = none ∧ s.todo = x :: rest ∧
      a = .go false ∧ (disk.read x).isSome := by
  cases h with
  | start | finish | skip | missing | fault | undelivered | stop => cases hx
  | @take s path rest item hhand htodo hread _ =>
    obtain rfl : path = x := Option.some.inj hx
    exact .inr ⟨s, rest, rfl, hhand, htodo, rfl, by rw [hread]; rfl⟩
  | succeed hhand _ | exhaust hhand _ | retry hhand _ | madeDead hhand | unburied _ hhand _
  | open_ hhand =>
    rw [hand_sweeping hhand]
    exact .inl hx
  | unopened | remove | discard | bury | dump => cases hx

end HermesMesh.Outbox
