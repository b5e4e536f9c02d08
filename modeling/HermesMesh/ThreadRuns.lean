import HermesMesh.ThreadLog
import HermesMesh.Lib.Runs
import Mathlib.Logic.Function.Basic

/-!
# Sender, recipient and reaper on one closed registry

Any number of processes share the log of closed anchors, and each answers `is_closed` from its own
snapshot. Every call is one locked section, so a call is one step. No call meets an I/O failure here.

Seen from one anchor a call is a step of a small automaton (`Op.act`, `op_status`). A close is
confirmed by a `record` that is not pending, or by a `promote` that finds the anchor. The automaton
has one transition that confirms nothing although the call returns: a `record` that is not pending
finds the anchor pending and leaves it so (`act_record_pending`), and a `withdraw` by another process
then takes the close away. `confirmed_close_stays`: away from that transition a confirmed close stays.
-/

namespace HermesMesh.Threads

open Lib

inductive Op where
  | record (closedAt : Time) (anchor closedBy : String) (pending : Bool)
  | promote (anchor : String)
  | withdraw (anchor : String)
  | isClosed (anchor : Option String)

/-- One call, with the mtime its write gives the file. -/
def Op.run (valid : TokenRule) (stamp : Time) (v : View) : Op → View
  | .record closedAt anchor closedBy pending =>
    (Threads.record valid {} stamp closedAt anchor closedBy pending v).2
  | .promote anchor => Threads.promote valid {} stamp anchor v
  | .withdraw anchor => Threads.withdraw valid {} stamp anchor v
  | .isClosed anchor => (Threads.isClosed valid {} anchor v).2

/-- What a call does to the status of one anchor. -/
def Op.act (valid : TokenRule) (anchor : String) (st : Status) : Op → Status
  | .record _ a closedBy pending =>
    if a = anchor ∧ valid a = true ∧ valid closedBy = true ∧ st = .open_ then
      if pending then .pending else .closed
    else st
  | .promote a => if a = anchor ∧ st = .pending then .closed else st
  | .withdraw a => if a = anchor ∧ st = .pending then .open_ else st
  | .isClosed _ => st

/-- The idempotent path: a `record` that is not pending leaves a pending close pending. -/
theorem act_record_pending (valid : TokenRule) (closedAt : Time) (anchor closedBy : String)
    (pending : Bool) :
    (Op.record closedAt anchor closedBy pending).act valid anchor .pending = .pending := by
  simp [Op.act]

/-! ## The system -/

/-- The file, and the snapshot of every process. -/
structure State where
  file : File
  caches : ℕ → Cache

inductive Event where
  | call (pid : ℕ) (op : Op) (stamp : Time)
  /-- A process starts again with an empty snapshot. -/
  | restart (pid : ℕ)

def State.view (s : State) (pid : ℕ) : View := ⟨s.file, s.caches pid⟩

def step (valid : TokenRule) (s : State) : Event → Option State
  | .call pid op stamp =>
    let v := op.run valid stamp (s.view pid)
    some ⟨v.file, Function.update s.caches pid v.cache⟩
  | .restart pid => some { s with caches := Function.update s.caches pid {} }

/-- The entries of the log. -/
def File.entries (file : File) : List Json :=
  match file.content with
  | .entries stored => stored
  | _ => []

/-- The log is a list of entries or not there yet, and no process holds a snapshot. -/
structure Start (valid : TokenRule) (s : State) : Prop where
  content : s.file.content ≠ .corrupt
  wellformed : Wellformed valid s.file.entries
  unloaded : ∀ pid, (s.caches pid).loaded = false

/-- The anchor is in the log, and every process reports it closed. -/
structure ClosedFor (valid : TokenRule) (anchor : String) (s : State) : Prop where
  present : ∃ entry ∈ s.file.entries, ofAnchor anchor entry = true
  closed : ∀ pid, (Threads.isClosed valid {} (some anchor) (s.view pid)).1 = true

/-- The event confirms the close: a `record` that is not pending returns, or a `promote` finds the
anchor in the log. -/
def Confirms (valid : TokenRule) (anchor : String) (s : State) : Event → Prop
  | .call pid (.record closedAt a closedBy pending) stamp =>
    a = anchor ∧ pending = false ∧
      (Threads.record valid {} stamp closedAt a closedBy pending (s.view pid)).1 = .ok ()
  | .call _ (.promote a) _ => a = anchor ∧ ∃ entry ∈ s.file.entries, ofAnchor anchor entry = true
  | _ => False

/-- A write gives the file an mtime that no process's snapshot carries. -/
def FreshMtime (s : State) : Event → Prop
  | .call _ _ stamp => ∀ pid, (s.caches pid).mtime ≠ some stamp
  | .restart _ => True

/-- Fresh mtimes, and no `record` that is not pending while the anchor's close is. -/
def Careful (anchor : String) (s : State) (e : Event) : Prop :=
  FreshMtime s e ∧
    match e with
    | .call _ (.record _ a _ pending) _ =>
      ¬ (a = anchor ∧ pending = false ∧ status anchor s.file.entries = .pending)
    | _ => True

/-! ## One call -/

variable {valid : TokenRule} {anchor : String} {v : View} {stamp : Time}

/-- The file holds a readable log. -/
structure Good (valid : TokenRule) (file : File) : Prop where
  content : file.content ≠ .corrupt
  wellformed : Wellformed valid file.entries

/-- Where the read fails there are no entries. -/
theorem readEntriesStrict_cases (file : File) :
    readEntriesStrict {} file = (file.entries, false) ∨
      readEntriesStrict {} file = (file.entries, true) ∧ file.entries = [] := by
  unfold readEntriesStrict File.entries
  cases file.content with
  | absent => exact .inl rfl
  | corrupt => exact .inr ⟨rfl, rfl⟩
  | entries stored => exact .inl rfl

theorem readEntriesStrict_entries (file : File) : (readEntriesStrict {} file).1 = file.entries := by
  obtain h | ⟨h, -⟩ := readEntriesStrict_cases file <;> rw [h]

/-- What is read is what the file holds, or nothing. -/
theorem readEntriesStrict_or (io : Io) (file : File) :
    (readEntriesStrict io file).1 = file.entries ∨ (readEntriesStrict io file).1 = [] := by
  unfold readEntriesStrict
  cases hr : io.readable with
  | false => exact .inr rfl
  | true => exact .inl (readEntriesStrict_entries file)

/-- `is_closed` writes nothing. -/
theorem isClosed_file {io : Io} {a : Option String} :
    (Threads.isClosed valid io a v).2.file = v.file := by
  unfold Threads.isClosed
  cases a with
  | none => rfl
  | some a => dsimp only; split_ifs <;> rfl

/-- A new log under a new mtime, with its snapshot. -/
def View.put (valid : TokenRule) (stamp : Time) (stored : List Json) (v : View) : View :=
  { v with file := ⟨.entries stored, some stamp⟩ }.hydrate valid stored

theorem record_invalid {a closedBy : String} (h : ¬ (valid a = true ∧ valid closedBy = true))
    (closedAt : Time) (pending : Bool) :
    (Threads.record valid {} stamp closedAt a closedBy pending v).1 ≠ .ok () ∧
      (Threads.record valid {} stamp closedAt a closedBy pending v).2 = v := by
  unfold Threads.record
  simp only [validateEnvelopeToken_eq]
  by_cases ha : valid a = true
  · have hb : ¬ valid closedBy = true := fun hb => h ⟨ha, hb⟩
    rw [if_pos ha, if_neg hb]
    exact ⟨nofun, rfl⟩
  · rw [if_neg ha]
    exact ⟨nofun, rfl⟩

section

variable {a closedBy : String} {closedAt : Time} {pending drop promote : Bool}

/-! `record` and `_rewrite` by what the loop over the entries gives. -/

theorem record_stumbles {e : PyError} (ha : valid a = true) (hb : valid closedBy = true)
    (h : findAnchor a (readEntriesStrict {} v.file).1 = .error e) :
    Threads.record valid {} stamp closedAt a closedBy pending v = (.error e, v) := by
  unfold Threads.record
  simp only [validateEnvelopeToken_eq]
  rw [if_pos ha, if_pos hb]
  simp [h]

theorem record_finds (ha : valid a = true) (hb : valid closedBy = true)
    (h : findAnchor a (readEntriesStrict {} v.file).1 = .ok true) :
    Threads.record valid {} stamp closedAt a closedBy pending v =
      (.ok (), v.hydrate valid (readEntriesStrict {} v.file).1) := by
  unfold Threads.record
  simp only [validateEnvelopeToken_eq]
  rw [if_pos ha, if_pos hb]
  simp [h]

theorem record_adds (ha : valid a = true) (hb : valid closedBy = true)
    (h : findAnchor a (readEntriesStrict {} v.file).1 = .ok false) :
    Threads.record valid {} stamp closedAt a closedBy pending v =
      (.ok (), v.put valid stamp
        ((readEntriesStrict {} v.file).1 ++ [newEntry closedAt a closedBy pending])) := by
  unfold Threads.record
  simp only [validateEnvelopeToken_eq]
  rw [if_pos ha, if_pos hb]
  simp [h, View.put]

theorem rewrite_unread (ha : valid a = true) (hread : (readEntriesStrict {} v.file).2 = true) :
    (rewrite valid {} stamp a drop promote v).2 = v := by
  unfold rewrite
  simp only [validateEnvelopeToken_eq]
  rw [if_pos ha, ← @Prod.mk.eta _ _ (readEntriesStrict {} v.file), hread]
  rfl

theorem rewrite_stumbles {e : PyError} (ha : valid a = true)
    (h : rewriteEntries a drop promote (readEntriesStrict {} v.file).1 = .error e) :
    (rewrite valid {} stamp a drop promote v).2 = v := by
  cases hread : (readEntriesStrict {} v.file).2 with
  | true => exact rewrite_unread ha hread
  | false =>
    unfold rewrite
    simp only [validateEnvelopeToken_eq]
    rw [if_pos ha, ← @Prod.mk.eta _ _ (readEntriesStrict {} v.file), hread]
    simp [h]

theorem rewrite_loops {changed : Bool} {kept : List Json} (ha : valid a = true)
    (hread : (readEntriesStrict {} v.file).2 = false)
    (h : rewriteEntries a drop promote (readEntriesStrict {} v.file).1 = .ok (changed, kept)) :
    (rewrite valid {} stamp a drop promote v).2 = if changed then v.put valid stamp kept else v := by
  unfold rewrite
  simp only [validateEnvelopeToken_eq]
  rw [if_pos ha, ← @Prod.mk.eta _ _ (readEntriesStrict {} v.file), hread]
  cases changed <;> simp [h, View.put]

end

theorem record_valid {a closedBy : String} (hw : Wellformed valid v.file.entries)
    (ha : valid a = true) (hb : valid closedBy = true) (closedAt : Time) (pending : Bool) :
    Threads.record valid {} stamp closedAt a closedBy pending v =
      (.ok (), if v.file.entries.any (ofAnchor a) then v.hydrate valid v.file.entries
        else v.put valid stamp (v.file.entries ++ [newEntry closedAt a closedBy pending])) := by
  unfold Threads.record
  simp only [validateEnvelopeToken_eq]
  rw [if_pos ha, if_pos hb]
  dsimp only
  rw [readEntriesStrict_entries, findAnchor_eq hw]
  cases v.file.entries.any (ofAnchor a) <;> rfl

theorem rewrite_eq {a : String} {drop promote changed : Bool} {kept : List Json}
    (ha : valid a = true)
    (hr : rewriteEntries a drop promote v.file.entries = .ok (changed, kept)) :
    (rewrite valid {} stamp a drop promote v).2 = if changed then v.put valid stamp kept else v := by
  unfold rewrite
  simp only [validateEnvelopeToken_eq]
  rw [if_pos ha]
  dsimp only
  obtain hread | ⟨hread, hnone⟩ := readEntriesStrict_cases v.file
  · rw [hread]
    dsimp only
    rw [hr]
    cases changed <;> rfl
  · rw [hnone] at hr
    obtain rfl : false = changed := (Prod.mk.inj (Except.ok.inj hr)).1
    rw [hread]
    rfl

theorem rewrite_invalid {a : String} (ha : ¬ valid a = true) (drop promote : Bool) :
    (rewrite valid {} stamp a drop promote v).2 = v := by
  unfold rewrite
  simp only [validateEnvelopeToken_eq]
  rw [if_neg ha]

/-- What one call can do to the view of its process: nothing, a new snapshot of the log as it is,
or a new log with its snapshot. -/
inductive Effect (valid : TokenRule) (stamp : Time) (v : View) : View → Prop
  | same : Effect valid stamp v v
  | reread : Effect valid stamp v (v.hydrate valid v.file.entries)
  | wrote (stored : List Json) (h : Wellformed valid stored) :
      Effect valid stamp v (v.put valid stamp stored)

theorem record_effect (hempty : valid "" = false)
    (hw : Wellformed valid v.file.entries) (closedAt : Time) (a closedBy : String)
    (pending : Bool) :
    Effect valid stamp v (Threads.record valid {} stamp closedAt a closedBy pending v).2 := by
  by_cases h : valid a = true ∧ valid closedBy = true
  · rw [record_valid hw h.1 h.2]
    dsimp only
    split_ifs
    · exact .reread
    · refine .wrote _ (hw.append_newEntry closedAt pending ?_ h.1)
      rintro rfl
      rw [hempty] at h
      cases h.1
  · rw [(record_invalid h closedAt pending).2]
    exact .same

theorem promote_effect (hw : Wellformed valid v.file.entries) (a : String) :
    Effect valid stamp v (Threads.promote valid {} stamp a v) := by
  unfold Threads.promote
  by_cases ha : valid a = true
  · rw [rewrite_eq ha (rewriteEntries_promote hw)]
    split_ifs
    · exact .wrote _ hw.map_settle
    · exact .same
  · rw [rewrite_invalid ha]
    exact .same

theorem withdraw_effect (hw : Wellformed valid v.file.entries) (a : String) :
    Effect valid stamp v (Threads.withdraw valid {} stamp a v) := by
  unfold Threads.withdraw
  by_cases ha : valid a = true
  · rw [rewrite_eq ha (rewriteEntries_drop hw)]
    split_ifs
    · exact .wrote _ (hw.filter _)
    · exact .same
  · rw [rewrite_invalid ha]
    exact .same

theorem isClosed_effect (a : Option String) :
    Effect valid stamp v (Threads.isClosed valid {} a v).2 := by
  unfold Threads.isClosed
  cases a with
  | none => exact .same
  | some a =>
    dsimp only
    rw [readEntriesStrict_entries]
    simp only [Bool.not_true, Bool.false_eq_true, if_false]
    split_ifs
    · exact .reread
    · exact .same

/-- **One call, the view.** -/
theorem op_effect (hempty : valid "" = false) (hw : Wellformed valid v.file.entries) (op : Op) :
    Effect valid stamp v (op.run valid stamp v) := by
  cases op with
  | record closedAt a closedBy pending => exact record_effect hempty hw closedAt a closedBy pending
  | promote a => exact promote_effect hw a
  | withdraw a => exact withdraw_effect hw a
  | isClosed a => exact isClosed_effect a

theorem put_entries (stored : List Json) : (v.put valid stamp stored).file.entries = stored := rfl

theorem record_status (hw : Wellformed valid v.file.entries) (closedAt : Time)
    (a closedBy : String) (pending : Bool) :
    status anchor ((Op.record closedAt a closedBy pending).run valid stamp v).file.entries =
      (Op.record closedAt a closedBy pending).act valid anchor (status anchor v.file.entries) := by
  unfold Op.run Op.act
  dsimp only
  by_cases h : valid a = true ∧ valid closedBy = true
  · rw [record_valid hw h.1 h.2]
    dsimp only
    by_cases ho : status a v.file.entries = .open_
    · have hany : ¬ v.file.entries.any (ofAnchor a) = true := fun hany =>
        status_ne_open.mpr hany ho
      rw [if_neg hany, put_entries, status_append closedAt pending ho]
      by_cases ha : anchor = a
      · subst ha
        rw [if_pos rfl, if_pos (show _ ∧ _ from ⟨rfl, h.1, h.2, ho⟩)]
      · rw [if_neg ha, if_neg fun hc => ha hc.1.symm]
    · rw [if_pos (status_ne_open.mp ho), if_neg]
      · rfl
      · rintro ⟨rfl, -, -, hst⟩
        exact ho hst
  · rw [(record_invalid h closedAt pending).2, if_neg fun hc => h ⟨hc.2.1, hc.2.2.1⟩]

/-- A rewrite changes the log exactly where it finds a pending close of its anchor. -/
theorem rewrite_status {a : String} {drop promote : Bool} {kept : List Json} {st : Status}
    (hw : Wellformed valid v.file.entries)
    (hr : rewriteEntries a drop promote v.file.entries =
      .ok (v.file.entries.any (pendingOf a), kept))
    (hkept : status anchor kept =
      if anchor = a ∧ status anchor v.file.entries = .pending then st
      else status anchor v.file.entries) :
    status anchor (rewrite valid {} stamp a drop promote v).2.file.entries =
      if a = anchor ∧ status anchor v.file.entries = .pending then st
      else status anchor v.file.entries := by
  by_cases ha : valid a = true
  · rw [rewrite_eq ha hr]
    by_cases hp : v.file.entries.any (pendingOf a) = true
    · rw [if_pos hp, put_entries, hkept]
      simp only [eq_comm]
    · rw [if_neg hp, if_neg]
      rintro ⟨rfl, hst⟩
      exact hp (pendingOf_of_status hst)
  · rw [rewrite_invalid ha, if_neg]
    rintro ⟨rfl, hst⟩
    exact ha (hw.valid_of_status (by rw [hst]; nofun))

/-- **One call, the anchor.** Each call is a step of the automaton of every anchor. -/
theorem op_status (hw : Wellformed valid v.file.entries) (op : Op) :
    status anchor (op.run valid stamp v).file.entries =
      op.act valid anchor (status anchor v.file.entries) := by
  cases op with
  | record closedAt a closedBy pending => exact record_status hw closedAt a closedBy pending
  | promote a => exact rewrite_status hw (rewriteEntries_promote hw) status_settle
  | withdraw a => exact rewrite_status hw (rewriteEntries_drop hw) status_drop
  | isClosed a =>
    show status anchor (Threads.isClosed valid {} a v).2.file.entries = _
    rw [isClosed_file]
    rfl

/-! ## Snapshots -/

/-- A snapshot that carries the file's mtime holds the anchors of the file. -/
def Snapshot (valid : TokenRule) (file : File) (cache : Cache) : Prop :=
  cache.loaded = true → cache.mtime = file.mtime →
    cache.locked = file.entries.filterMap (lockedAnchor valid)

structure Coherent (valid : TokenRule) (s : State) : Prop where
  good : Good valid s.file
  snapshots : ∀ pid, Snapshot valid s.file (s.caches pid)

theorem Start.coherent {s : State} (h : Start valid s) : Coherent valid s where
  good := ⟨h.content, h.wellformed⟩
  snapshots pid hl := by
    rw [h.unloaded pid] at hl
    cases hl

/-- Another file or one other snapshot. -/
theorem Coherent.update {file : File} {caches : ℕ → Cache} {pid : ℕ} {cache : Cache}
    (hg : Good valid file) (hmine : Snapshot valid file cache)
    (hothers : ∀ pid' ≠ pid, Snapshot valid file (caches pid')) :
    Coherent valid ⟨file, Function.update caches pid cache⟩ :=
  ⟨hg, (Function.forall_update_iff caches fun _ c => Snapshot valid file c).mpr ⟨hmine, hothers⟩⟩

/-- A process whose snapshot holds what the file holds answers from the file. -/
theorem isClosed_iff (hw : Wellformed valid v.file.entries) (hs : Snapshot valid v.file v.cache) :
    (Threads.isClosed valid {} (some anchor) v).1 = true ↔ status anchor v.file.entries ≠ .open_ := by
  rw [← hw.mem_locked]
  unfold Threads.isClosed
  dsimp only
  rw [readEntriesStrict_entries]
  simp only [Bool.not_true, Bool.false_eq_true, if_false]
  split_ifs with hstale
  · exact List.contains_iff_mem
  · simp only [Bool.or_eq_true, Bool.not_eq_true', decide_eq_true_eq, not_or,
      Bool.not_eq_false, not_not] at hstale
    rw [List.contains_iff_mem, hs hstale.1 hstale.2.symm]

/-- The answer of `is_closed` does not depend on the process. -/
theorem Coherent.isClosed {s : State} (h : Coherent valid s) (pid : ℕ) :
    (Threads.isClosed valid {} (some anchor) (s.view pid)).1 = true ↔
      status anchor s.file.entries ≠ .open_ :=
  isClosed_iff (v := s.view pid) h.good.wellformed (h.snapshots pid)

theorem closedFor_iff {s : State} (h : Coherent valid s) :
    ClosedFor valid anchor s ↔ status anchor s.file.entries ≠ .open_ := by
  constructor
  · intro hc
    exact (h.isClosed 0).mp (hc.closed 0)
  · intro hst
    exact ⟨List.any_eq_true.mp (status_ne_open.mp hst), fun pid => (h.isClosed pid).mpr hst⟩

/-! ## Runs -/

theorem Effect.coherent {s : State} {pid : ℕ} {v' : View} (he : Effect valid stamp (s.view pid) v')
    (h : Coherent valid s) (hfresh : ∀ pid, (s.caches pid).mtime ≠ some stamp) :
    Coherent valid ⟨v'.file, Function.update s.caches pid v'.cache⟩ := by
  cases he with
  | same =>
    show Coherent valid ⟨s.file, Function.update s.caches pid (s.caches pid)⟩
    rwa [Function.update_eq_self]
  | reread => exact .update h.good (fun _ _ => rfl) fun pid' _ => h.snapshots pid'
  | wrote stored hw =>
    exact .update ⟨nofun, hw⟩ (fun _ _ => rfl) fun pid' _ _ hm => absurd hm (hfresh pid')

theorem Effect.good {v' : View} (he : Effect valid stamp v v') (h : Good valid v.file) :
    Good valid v'.file := by
  cases he with
  | same => exact h
  | reread => exact h
  | wrote stored hw => exact ⟨nofun, hw⟩

/-- **One step.** Snapshots stay coherent under writes with fresh mtimes. -/
theorem step_coherent (hempty : valid "" = false) {s t : State} {e : Event}
    (h : Coherent valid s) (hg : FreshMtime s e) (hs : step valid s e = some t) :
    Coherent valid t := by
  cases e with
  | call pid op stamp =>
    obtain rfl := Option.some.inj hs
    exact (op_effect hempty h.good.wellformed op).coherent h hg
  | restart pid =>
    obtain rfl := Option.some.inj hs
    exact .update h.good nofun fun pid' _ => h.snapshots pid'

theorem step_good (hempty : valid "" = false) {s t : State} {pid : ℕ} {op : Op}
    (h : Good valid s.file) (hs : step valid s (.call pid op stamp) = some t) :
    Good valid t.file := by
  obtain rfl := Option.some.inj hs
  exact (op_effect (v := s.view pid) hempty h.wellformed op).good h

theorem step_status {s t : State} {pid : ℕ} {op : Op} (h : Good valid s.file)
    (hs : step valid s (.call pid op stamp) = some t) :
    status anchor t.file.entries = op.act valid anchor (status anchor s.file.entries) := by
  obtain rfl := Option.some.inj hs
  exact op_status (v := s.view pid) h.wellformed op

/-- **One step.** A closed anchor stays closed. -/
theorem step_closed {s t : State} {e : Event} (h : Good valid s.file)
    (hc : status anchor s.file.entries = .closed) (hs : step valid s e = some t) :
    status anchor t.file.entries = .closed := by
  cases e with
  | call pid op stamp =>
    rw [step_status h hs, hc]
    cases op <;> simp [Op.act]
  | restart pid =>
    obtain rfl := Option.some.inj hs
    exact hc

/-- A confirming event closes the anchor. -/
theorem confirms_closed {s t : State} {e : Event} (h : Good valid s.file) (hg : Careful anchor s e)
    (hconf : Confirms valid anchor s e) (hs : step valid s e = some t) :
    status anchor t.file.entries = .closed := by
  cases e with
  | restart pid => exact hconf.elim
  | call pid op stamp =>
    rw [step_status h hs]
    cases op with
    | record closedAt a closedBy pending =>
      obtain ⟨rfl, rfl, hok⟩ := hconf
      have hnp : status a s.file.entries ≠ .pending := fun hp => hg.2 ⟨rfl, rfl, hp⟩
      have hv : valid a = true ∧ valid closedBy = true := by
        by_contra hv
        exact (record_invalid hv closedAt false).1 hok
      unfold Op.act
      cases hst : status a s.file.entries with
      | open_ => simp [hv]
      | pending => exact absurd hst hnp
      | closed => simp
    | promote a =>
      obtain ⟨rfl, hmem⟩ := hconf
      have hne := status_ne_open.mpr (List.any_eq_true.mpr hmem)
      unfold Op.act
      cases hst : status a s.file.entries with
      | open_ => exact absurd hst hne
      | pending => simp
      | closed => simp
    | withdraw a => exact hconf.elim
    | isClosed a => exact hconf.elim

/-- Off the careful path the close is lost: a `record` that finds it pending returns and leaves it
pending, and the next `withdraw` takes it away. -/
theorem pending_record_lost (hempty : valid "" = false) {s s₁ t : State} {closedBy : String}
    {pid pid' : ℕ} {closedAt stamp' : Time} (h : Good valid s.file)
    (hp : status anchor s.file.entries = .pending) (hb : valid closedBy = true)
    (hs1 : step valid s (.call pid (.record closedAt anchor closedBy false) stamp) = some s₁)
    (hs2 : step valid s₁ (.call pid' (.withdraw anchor) stamp') = some t) :
    Confirms valid anchor s (.call pid (.record closedAt anchor closedBy false) stamp) ∧
      ¬ ClosedFor valid anchor t := by
  have ha : valid anchor = true := h.wellformed.valid_of_status (by rw [hp]; nofun)
  refine ⟨⟨rfl, rfl, ?_⟩, ?_⟩
  · rw [record_valid (v := s.view pid) h.wellformed ha hb]
  · intro hc
    have hst : status anchor t.file.entries = .open_ := by
      rw [step_status (step_good hempty h hs1) hs2, step_status h hs1, hp, act_record_pending]
      simp [Op.act]
    exact status_ne_open.mpr (List.any_eq_true.mpr hc.present) hst

/-- **A confirmed close stays.** In every run that stays careful, once an event has confirmed the
anchor it is in the log and every process reports it closed. -/
theorem confirmed_close_stays (hempty : valid "" = false) {s s₁ s₂ t : State} {e : Event}
    {es fs : List Event} (h0 : Start valid s) (h1 : Run (step valid) (Careful anchor) s es s₁)
    (hconf : Confirms valid anchor s₁ e) (hg : Careful anchor s₁ e)
    (hs : step valid s₁ e = some s₂) (h2 : Run (step valid) (Careful anchor) s₂ fs t) :
    ClosedFor valid anchor t := by
  have hc1 : Coherent valid s₁ :=
    h1.invariant (fun _ _ _ h hg hs => step_coherent hempty h hg.1 hs) h0.coherent
  have hc2 : Coherent valid s₂ := step_coherent hempty hc1 hg.1 hs
  have hst2 := confirms_closed hc1.good hg hconf hs
  have hboth : Coherent valid t ∧ status anchor t.file.entries = .closed :=
    h2.invariant (I := fun u => Coherent valid u ∧ status anchor u.file.entries = .closed)
      (fun _ _ _ h hg hs => ⟨step_coherent hempty h.1 hg.1 hs, step_closed h.1.good h.2 hs⟩)
      ⟨hc2, hst2⟩
  rw [closedFor_iff hboth.1, hboth.2]
  nofun

/-- An empty log, and processes that have just started. -/
def emptyLog : State := ⟨⟨.absent, none⟩, fun _ => {}⟩

/-- Tokens that are not empty. -/
def anyToken : TokenRule := .of fun token => token ≠ ""

/-- The sender has recorded a pending close. -/
def pendingLog : State :=
  ⟨⟨.entries [newEntry 10 "t" "zero" true], some 1⟩,
    Function.update emptyLog.caches 0 ⟨true, ["t"], some 1⟩⟩

/-- The sender has promoted it. -/
def promotedLog : State :=
  ⟨⟨.entries [newEntry 10 "t" "zero" false], some 2⟩,
    Function.update pendingLog.caches 0 ⟨true, ["t"], some 2⟩⟩

theorem confirmed_close_stays_promoted :
    ClosedFor anyToken "t"
      { promotedLog with caches := Function.update promotedLog.caches 1 (promotedLog.caches 1) } := by
  have hfresh : ∀ pid, (pendingLog.caches pid).mtime ≠ some 2 := by
    intro pid
    by_cases hp : pid = 0 <;> simp [pendingLog, emptyLog, Function.update, hp]
  have hfresh' : ∀ pid, (promotedLog.caches pid).mtime ≠ some 3 := by
    intro pid
    by_cases hp : pid = 0 <;> simp [promotedLog, pendingLog, emptyLog, Function.update, hp]
  have h0 : Start anyToken emptyLog := ⟨nofun, nofun, fun _ => rfl⟩
  have h1 : Run (step anyToken) (Careful "t") emptyLog
      [.call 0 (.record 10 "t" "zero" true) 1] pendingLog :=
    .cons ⟨fun _ => nofun, nofun⟩ rfl (.nil _)
  have hconf : Confirms anyToken "t" pendingLog (.call 0 (.promote "t") 2) :=
    ⟨rfl, _, List.mem_singleton_self _, rfl⟩
  have h2 : Run (step anyToken) (Careful "t") promotedLog [.call 1 (.withdraw "t") 3] _ :=
    .cons ⟨hfresh', trivial⟩ rfl (.nil _)
  exact confirmed_close_stays rfl h0 h1 hconf ⟨hfresh, trivial⟩ rfl h2

/-- The recipient's `record` confirms the close that the sender has pending, and the sender then
withdraws it. -/
theorem confirmed_close_withdrawn :
    ∃ s₁ s₂ t : State, Start anyToken emptyLog ∧
      Run (step anyToken) Free emptyLog [.call 0 (.record 10 "t" "zero" true) 1] s₁ ∧
      Confirms anyToken "t" s₁ (.call 1 (.record 11 "t" "zero" false) 2) ∧
      step anyToken s₁ (.call 1 (.record 11 "t" "zero" false) 2) = some s₂ ∧
      Run (step anyToken) Free s₂ [.call 0 (.withdraw "t") 3] t ∧
      ¬ ClosedFor anyToken "t" t := by
  refine ⟨_, _, _, ⟨nofun, nofun, fun _ => rfl⟩, run_of_exec rfl, ⟨rfl, rfl, rfl⟩, rfl,
    run_of_exec rfl, ?_⟩
  rintro ⟨⟨entry, hmem, -⟩, -⟩
  cases hmem

end HermesMesh.Threads
