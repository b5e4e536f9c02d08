import HermesMesh.ThreadRuns
import Mathlib.Data.List.Basic
import Mathlib.Data.List.Count

/-!
# The log loses no anchor

`record`, `promote` and `withdraw` by any number of processes on one log. The log starts as any
list of dicts and stays readable; a lock that is refused or a write that fails ends its call with
an exception. Beside the system runs a ledger: the anchors that are on record, which a `record`
that returns joins and a `withdraw` that finds the close pending leaves.

`Edit` is what a locked section does to the entries. From it each of the three statements follows
for one section, and `Ledger.log_keeps_anchors` has them for every interleaving.
-/

namespace HermesMesh.Threads

open Lib

variable {valid : TokenRule} {anchor : String} {entries after : List Json} {io : Io} {stamp : Time}
  {v : View}

/-- One locked section, with its result. `promote` and `withdraw` log the exception and go on. -/
def Op.perform (valid : TokenRule) (io : Io) (stamp : Time) (v : View) :
    Op → Except PyError Unit × View
  | .record closedAt anchor closedBy pending =>
    Threads.record valid io stamp closedAt anchor closedBy pending v
  | .promote anchor => rewrite valid io stamp anchor false true v
  | .withdraw anchor => rewrite valid io stamp anchor true false v
  | .isClosed anchor => (.ok (), (Threads.isClosed valid io anchor v).2)

theorem Op.run_eq_perform (op : Op) : op.run valid stamp v = (op.perform valid {} stamp v).2 := by
  cases op <;> rfl

/-- The entry records the anchor that the call is about. -/
def Op.concerns (entry : Json) : Op → Bool
  | .record _ anchor _ _ | .promote anchor | .withdraw anchor => ofAnchor anchor entry
  | .isClosed _ => false

/-- What a locked section does to the entries of the log. -/
inductive Edit : Op → List Json → Except PyError Unit → List Json → Prop
  | raised (op : Op) (entries : List Json) (e : PyError) : Edit op entries (.error e) entries
  | found {anchor : String} {entries : List Json} (closedAt : Time) (closedBy : String)
      (pending : Bool) (h : entries.any (ofAnchor anchor) = true) :
      Edit (.record closedAt anchor closedBy pending) entries (.ok ()) entries
  | appended {anchor : String} {entries : List Json} (closedAt : Time) (closedBy : String)
      (pending : Bool) (h : entries.any (ofAnchor anchor) = false) :
      Edit (.record closedAt anchor closedBy pending) entries (.ok ())
        (entries ++ [newEntry closedAt anchor closedBy pending])
  | promoted (anchor : String) (entries : List Json) :
      Edit (.promote anchor) entries (.ok ()) (entries.map (settle anchor))
  | withdrawn (anchor : String) (entries : List Json) :
      Edit (.withdraw anchor) entries (.ok ())
        (entries.filter fun entry => !pendingOf anchor entry)
  | looked (anchor : Option String) (entries : List Json) :
      Edit (.isClosed anchor) entries (.ok ()) entries

/-! ## The sections make these edits -/

/-- The file can be read as a list of dicts. -/
structure Readable (file : File) : Prop where
  content : file.content ≠ .corrupt
  dicts : Dicts file.entries

theorem Readable.read {file : File} (h : Readable file) (hr : io.readable = true) :
    readEntriesStrict io file = (file.entries, false) := by
  unfold readEntriesStrict File.entries
  rw [hr]
  cases hc : file.content with
  | absent => rfl
  | corrupt => exact absurd hc h.content
  | entries stored => rfl

/-- A `record` that comes to its write, and writes. -/
structure Appends (valid : TokenRule) (io : Io) (anchor closedBy : String) (file : File) : Prop where
  token : valid anchor = true
  author : valid closedBy = true
  lockable : io.lockable = true
  absent : findAnchor anchor (readEntriesStrict io file).1 = .ok false
  writable : io.writable = true

/-- The file that such a `record` writes. -/
def recordedFile (io : Io) (stamp closedAt : Time) (anchor closedBy : String) (pending : Bool)
    (file : File) : File :=
  ⟨.entries ((readEntriesStrict io file).1 ++ [newEntry closedAt anchor closedBy pending]),
    some stamp⟩

/-- **`record`, every exit.** It writes the file with one more entry and returns, or it leaves the
file; and then it returns only where it has found the anchor. -/
theorem record_cases (valid : TokenRule) (io : Io) (stamp closedAt : Time) (a closedBy : String)
    (pending : Bool) (v : View) :
    (Appends valid io a closedBy v.file ∧
        (Threads.record valid io stamp closedAt a closedBy pending v).1 = .ok () ∧
        (Threads.record valid io stamp closedAt a closedBy pending v).2.file =
          recordedFile io stamp closedAt a closedBy pending v.file) ∨
      ¬ Appends valid io a closedBy v.file ∧
        (Threads.record valid io stamp closedAt a closedBy pending v).2.file = v.file ∧
        ((Threads.record valid io stamp closedAt a closedBy pending v).1 = .ok () →
          findAnchor a (readEntriesStrict io v.file).1 = .ok true) := by
  unfold Threads.record
  simp only [validateEnvelopeToken_eq]
  by_cases ha : valid a = true
  · by_cases hb : valid closedBy = true
    · rw [if_pos ha, if_pos hb]
      dsimp only
      by_cases hlock : (!io.lockable) = true
      · rw [if_pos hlock]
        refine .inr ⟨fun h => ?_, rfl, nofun⟩
        rw [h.lockable] at hlock
        cases hlock
      · rw [if_neg hlock]
        cases hfind : findAnchor a (readEntriesStrict io v.file).1 with
        | error e =>
          refine .inr ⟨fun h => ?_, rfl, nofun⟩
          cases hfind.symm.trans h.absent
        | ok found =>
          cases found with
          | true =>
            refine .inr ⟨fun h => ?_, rfl, fun _ => rfl⟩
            cases hfind.symm.trans h.absent
          | false =>
            dsimp only
            by_cases hw : io.writable = true
            · rw [if_pos hw]
              exact .inl ⟨⟨ha, hb, by simpa using hlock, hfind, hw⟩, rfl, rfl⟩
            · rw [if_neg hw]
              exact .inr ⟨fun h => hw h.writable, rfl, nofun⟩
    · rw [if_pos ha, if_neg hb]
      exact .inr ⟨fun h => hb h.author, rfl, nofun⟩
  · rw [if_neg ha]
    exact .inr ⟨fun h => ha h.token, rfl, nofun⟩

/-- A section whose lock or write fails leaves the view as it was. -/
theorem record_edit (h : Readable v.file) (hr : io.readable = true) (closedAt : Time)
    (a closedBy : String) (pending : Bool) :
    Edit (.record closedAt a closedBy pending) v.file.entries
      (Threads.record valid io stamp closedAt a closedBy pending v).1
      (Threads.record valid io stamp closedAt a closedBy pending v).2.file.entries := by
  have hread : (readEntriesStrict io v.file).1 = v.file.entries := by rw [h.read hr]
  obtain ⟨happends, hok, hfile⟩ | ⟨-, hfile, hfound⟩ :=
    record_cases valid io stamp closedAt a closedBy pending v
  · have habsent := happends.absent
    rw [hread] at habsent
    rw [hok, hfile]
    show Edit _ _ _ ((readEntriesStrict io v.file).1 ++ [newEntry closedAt a closedBy pending])
    rw [hread]
    exact .appended closedAt closedBy pending (findAnchor_none habsent).2
  · rw [hfile]
    cases hresult : (Threads.record valid io stamp closedAt a closedBy pending v).1 with
    | error e => exact .raised _ _ e
    | ok _ =>
      have hsome := hfound hresult
      rw [hread] at hsome
      exact .found closedAt closedBy pending (findAnchor_some hsome)

/-- The two ways a rewrite leaves a readable log: as it was, with an exception, or with the entries
that its loop keeps. -/
theorem rewrite_entries (valid : TokenRule) (stamp : Time) {a : String} {drop promote : Bool}
    {kept : List Json} (h : Readable v.file)
    (hr : io.readable = true) (hloop : rewriteEntries a drop promote v.file.entries =
      .ok (v.file.entries.any (pendingOf a), kept))
    (hsame : v.file.entries.any (pendingOf a) = false → kept = v.file.entries) :
    (∃ e, (rewrite valid io stamp a drop promote v).1 = .error e ∧
        (rewrite valid io stamp a drop promote v).2.file.entries = v.file.entries) ∨
      (rewrite valid io stamp a drop promote v).1 = .ok () ∧
        (rewrite valid io stamp a drop promote v).2.file.entries = kept := by
  unfold rewrite
  simp only [validateEnvelopeToken_eq]
  by_cases ha : valid a = true
  · rw [if_pos ha]
    dsimp only
    rw [h.read hr]
    dsimp only
    rw [hloop]
    by_cases hlock : (!io.lockable) = true
    · rw [if_pos hlock]
      exact .inl ⟨_, rfl, rfl⟩
    · rw [if_neg hlock]
      cases hany : v.file.entries.any (pendingOf a) with
      | false => exact .inr ⟨rfl, (hsame hany).symm⟩
      | true =>
        dsimp only
        by_cases hw : io.writable = true
        · rw [if_pos hw]
          exact .inr ⟨rfl, rfl⟩
        · rw [if_neg hw]
          exact .inl ⟨_, rfl, rfl⟩
  · rw [if_neg ha]
    exact .inl ⟨_, rfl, rfl⟩

theorem filter_pendingOf_none (h : entries.any (pendingOf anchor) = false) :
    (entries.filter fun entry => !pendingOf anchor entry) = entries := by
  rw [List.filter_eq_self]
  intro entry hmem
  rw [List.any_eq_false] at h
  simpa using h entry hmem

theorem map_settle_none (h : entries.any (pendingOf anchor) = false) :
    entries.map (settle anchor) = entries := by
  rw [List.any_eq_false] at h
  refine (List.map_congr_left fun entry hmem => ?_).trans (List.map_id entries)
  have hnot := h entry hmem
  cases entry with
  | obj fields =>
    unfold settle
    exact if_neg hnot
  | null | bool _ | num _ | str _ | arr _ => rfl

/-- **One section, the entries.** -/
theorem Op.perform_edit (valid : TokenRule) (stamp : Time) (v : View) (h : Readable v.file)
    (hr : io.readable = true) (op : Op) :
    Edit op v.file.entries (op.perform valid io stamp v).1
      (op.perform valid io stamp v).2.file.entries := by
  cases op with
  | record closedAt a closedBy pending => exact record_edit h hr closedAt a closedBy pending
  | promote a =>
    obtain ⟨e, he, hsame⟩ | ⟨hok, hkept⟩ := rewrite_entries valid stamp h hr
      h.dicts.rewriteEntries_promote (@map_settle_none a v.file.entries)
    · unfold Op.perform
      rw [he, hsame]
      exact .raised _ _ _
    · unfold Op.perform
      rw [hok, hkept]
      exact .promoted a _
  | withdraw a =>
    obtain ⟨e, he, hsame⟩ | ⟨hok, hkept⟩ := rewrite_entries valid stamp h hr
      h.dicts.rewriteEntries_drop (@filter_pendingOf_none a v.file.entries)
    · unfold Op.perform
      rw [he, hsame]
      exact .raised _ _ _
    · unfold Op.perform
      rw [hok, hkept]
      exact .withdrawn a _
  | isClosed a =>
    unfold Op.perform
    rw [isClosed_file]
    exact .looked a _

/-! ## What an edit keeps -/

/-- How many entries an anchor has. -/
def copies (anchor : String) (entries : List Json) : ℕ := entries.countP (ofAnchor anchor)

theorem copies_settle (a : String) : copies anchor (entries.map (settle a)) = copies anchor entries := by
  unfold copies
  rw [List.countP_map]
  congr 1
  funext entry
  exact ofAnchor_settle

/-- A section adds no second entry for an anchor. -/
theorem Edit.copies_le {op : Op} {result : Except PyError Unit} (h : Edit op entries result after)
    (anchor : String) : copies anchor after ≤ max 1 (copies anchor entries) := by
  cases h with
  | raised | found | looked => exact le_max_right _ _
  | @appended a _ closedAt closedBy pending hnone =>
    unfold copies
    rw [List.countP_append, List.countP_singleton, ofAnchor_newEntry]
    by_cases ha : a = anchor
    · subst ha
      have hzero : entries.countP (ofAnchor a) = 0 := by
        rw [List.countP_eq_zero]
        rw [List.any_eq_false] at hnone
        exact hnone
      rw [hzero]
      simp
    · simp [ha]
  | promoted a => exact (copies_settle a).le.trans (le_max_right _ _)
  | withdrawn a =>
    refine le_trans ?_ (le_max_right _ _)
    exact List.filter_sublist.countP_le

theorem filter_other_settle (a : String) :
    ((entries.map (settle a)).filter fun entry => !ofAnchor a entry) =
      entries.filter fun entry => !ofAnchor a entry := by
  induction entries with
  | nil => rfl
  | cons entry entries ih =>
    rw [List.map_cons, List.filter_cons, List.filter_cons, ofAnchor_settle, ih]
    cases ho : ofAnchor a entry with
    | true => rfl
    | false =>
      have hsame : settle a entry = entry := by
        cases entry with
        | obj fields =>
          apply if_neg
          unfold pendingOf
          rw [ho]
          simp
        | null | bool _ | num _ | str _ | arr _ => rfl
      rw [hsame]

/-- A section leaves the entries of every other anchor as they are, and in order. -/
theorem Edit.others {op : Op} {result : Except PyError Unit} (h : Edit op entries result after) :
    (after.filter fun entry => !op.concerns entry) =
      entries.filter fun entry => !op.concerns entry := by
  cases h with
  | raised | found | looked => rfl
  | @appended a _ closedAt closedBy pending hnone =>
    show List.filter (fun entry => !ofAnchor a entry) _ =
      List.filter (fun entry => !ofAnchor a entry) _
    rw [List.filter_append, List.filter_singleton, ofAnchor_newEntry]
    simp
  | promoted a => exact filter_other_settle a
  | withdrawn a =>
    show List.filter (fun entry => !ofAnchor a entry) _ =
      List.filter (fun entry => !ofAnchor a entry) _
    rw [List.filter_filter]
    congr 1
    funext entry
    unfold pendingOf
    cases ofAnchor a entry <;> rfl

theorem Edit.dicts {op : Op} {result : Except PyError Unit} (h : Edit op entries result after)
    (hd : Dicts entries) : Dicts after := by
  cases h with
  | raised | found | looked => exact hd
  | appended closedAt closedBy pending => exact hd.append_newEntry closedAt pending
  | promoted a => exact hd.map_settle
  | withdrawn a => exact hd.filter _

/-! ## The ledger -/

/-- The anchors on record after a section: a `record` that returns puts its anchor there, and a
`withdraw` that gets through while every entry of its anchor is pending takes it away. -/
def Op.book (op : Op) (entries : List Json) (result : Except PyError Unit) (recorded : List String) :
    List String :=
  match op, result with
  | .record _ anchor _ _, .ok () => anchor :: recorded
  | .withdraw anchor, .ok () =>
    if status anchor entries = .pending then recorded.filter (· ≠ anchor) else recorded
  | _, _ => recorded

theorem status_any (anchor : String) (entries : List Json) :
    entries.any (ofAnchor anchor) = decide (status anchor entries ≠ .open_) := by
  rw [Bool.eq_iff_iff, decide_eq_true_iff]
  exact status_ne_open.symm

/-- A section keeps the anchors of the log and those on record the same. -/
theorem Edit.book {op : Op} {result : Except PyError Unit} (h : Edit op entries result after)
    {recorded : List String}
    (hrec : ∀ a, a ∈ recorded ↔ entries.any (ofAnchor a) = true) (a : String) :
    a ∈ op.book entries result recorded ↔ after.any (ofAnchor a) = true := by
  cases h with
  | raised op _ e =>
    have hnone : op.book entries (.error e) recorded = recorded := by cases op <;> rfl
    rw [hnone, hrec]
  | looked => exact hrec a
  | @found b _ closedAt closedBy pending hfound =>
    show a ∈ b :: recorded ↔ _
    rw [List.mem_cons, hrec, or_iff_right_of_imp]
    rintro rfl
    exact hfound
  | @appended b _ closedAt closedBy pending hnone =>
    show a ∈ b :: recorded ↔ _
    rw [List.mem_cons, hrec, List.any_append, Bool.or_eq_true, or_comm, List.any_cons, List.any_nil,
      Bool.or_false, ofAnchor_newEntry, decide_eq_true_iff, @eq_comm _ b a]
  | promoted b =>
    show a ∈ recorded ↔ _
    rw [hrec, List.any_map]
    have hany : ofAnchor a ∘ settle b = ofAnchor a := funext fun entry => ofAnchor_settle
    rw [hany]
  | withdrawn b =>
    show a ∈ (if status b entries = .pending then recorded.filter (· ≠ b) else recorded) ↔ _
    rw [status_any, decide_eq_true_iff, status_drop]
    by_cases hst : status b entries = .pending
    · rw [if_pos hst, List.mem_filter, hrec, ← status_ne_open]
      by_cases hab : a = b
      · subst hab
        simp [hst]
      · simp [hab]
    · rw [if_neg hst, hrec, ← status_ne_open, if_neg]
      rintro ⟨rfl, hp⟩
      exact hst hp

/-- The system, and the anchors on record. -/
structure Ledger where
  state : State
  recorded : List String

/-- The entries of the log. -/
def Ledger.log (s : Ledger) : List Json := s.state.file.entries

inductive Ledger.Event where
  /-- One call, whether its lock is granted and its write succeeds, and the mtime of the write. -/
  | call (pid : ℕ) (op : Op) (lockable writable : Bool) (stamp : Time)
  | restart (pid : ℕ)

def Ledger.step (valid : TokenRule) (s : Ledger) : Ledger.Event → Option Ledger
  | .call pid op lockable writable stamp =>
    let (result, v) := op.perform valid { lockable, writable } stamp (s.state.view pid)
    some ⟨⟨v.file, Function.update s.state.caches pid v.cache⟩, op.book s.log result s.recorded⟩
  | .restart pid =>
    some { s with state := { s.state with caches := Function.update s.state.caches pid {} } }

/-- The entry records the anchor that the event is about. -/
def Ledger.Event.concerns (entry : Json) : Ledger.Event → Bool
  | .call _ op _ _ _ => op.concerns entry
  | .restart _ => false

/-- A readable log, and its anchors on record. -/
structure Ledger.Opened (s : Ledger) : Prop where
  readable : Readable s.state.file
  recorded : ∀ anchor, anchor ∈ s.recorded ↔ s.log.any (ofAnchor anchor) = true

/-- What holds after the step from `t` to `u` of a run that began with the entries `start`. -/
structure Ledger.Kept (start : List Json) (t : Ledger) (e : Ledger.Event) (u : Ledger) : Prop where
  /-- An anchor has one entry, or no more than it began with. -/
  single : ∀ anchor, copies anchor u.log ≤ max 1 (copies anchor start)
  others : (u.log.filter fun entry => !e.concerns entry) =
    t.log.filter fun entry => !e.concerns entry
  anchors : ∀ anchor, u.log.any (ofAnchor anchor) = true ↔ anchor ∈ u.recorded

/-- A rewrite leaves the file, or writes what its loop keeps. -/
theorem rewrite_file (valid : TokenRule) (io : Io) (stamp : Time) (a : String) (drop promote : Bool)
    (v : View) :
    (rewrite valid io stamp a drop promote v).2.file = v.file ∨
      ∃ stored, rewriteEntries a drop promote (readEntriesStrict io v.file).1 = .ok (true, stored) ∧
        (rewrite valid io stamp a drop promote v).2.file = ⟨.entries stored, some stamp⟩ := by
  unfold rewrite
  simp only [validateEnvelopeToken_eq]
  by_cases ha : valid a = true
  · rw [if_pos ha]
    dsimp only
    by_cases hlock : (!io.lockable) = true
    · rw [if_pos hlock]
      exact .inl rfl
    · rw [if_neg hlock]
      obtain ⟨entries, failed⟩ := readEntriesStrict io v.file
      cases failed with
      | true => exact .inl rfl
      | false =>
        dsimp only
        obtain e | ⟨changed, stored⟩ := rewriteEntries a drop promote entries
        · exact .inl rfl
        · cases changed with
          | false => exact .inl rfl
          | true =>
            dsimp only
            split_ifs
            · exact .inr ⟨stored, rfl, rfl⟩
            · exact .inl rfl
  · rw [if_neg ha]
    exact .inl rfl

/-- A section leaves the file alone or puts a list there. -/
theorem Op.perform_file (valid : TokenRule) (io : Io) (stamp : Time) (v : View) (op : Op) :
    (op.perform valid io stamp v).2.file = v.file ∨
      ∃ stored, (op.perform valid io stamp v).2.file = ⟨.entries stored, some stamp⟩ := by
  cases op with
  | record closedAt a closedBy pending =>
    unfold Op.perform Threads.record
    dsimp only
    split
    · split_ifs
      · exact .inl rfl
      · split
        · exact .inl rfl
        · exact .inl rfl
        · exact .inr ⟨_, rfl⟩
      · split <;> exact .inl rfl
    · exact .inl rfl
    · exact .inl rfl
  | promote a =>
    exact (rewrite_file valid io stamp a false true v).imp_right fun ⟨stored, _, h⟩ => ⟨stored, h⟩
  | withdraw a =>
    exact (rewrite_file valid io stamp a true false v).imp_right fun ⟨stored, _, h⟩ => ⟨stored, h⟩
  | isClosed a => exact .inl isClosed_file

theorem Op.perform_readable (h : Readable v.file) (hr : io.readable = true) (op : Op) :
    Readable (op.perform valid io stamp v).2.file := by
  refine ⟨?_, (op.perform_edit valid stamp v h hr).dicts h.dicts⟩
  obtain hsame | ⟨stored, hput⟩ := op.perform_file valid io stamp v
  · rw [hsame]
    exact h.content
  · rw [hput]
    nofun

/-! ## Runs -/

namespace Ledger

variable {s t u : Ledger} {e : Event} {es : List Event}

/-- **One step.** -/
theorem step_kept (h : t.Opened) (hs : step valid t e = some u) : Kept t.log t e u ∧ u.Opened := by
  cases e with
  | restart pid =>
    obtain rfl := Option.some.inj hs
    refine ⟨⟨fun _ => le_max_right _ _, rfl, fun a => (h.recorded a).symm⟩, h.readable, h.recorded⟩
  | call pid op lockable writable stamp =>
    obtain rfl := Option.some.inj hs
    have hr : ({ lockable, writable } : Io).readable = true := rfl
    have hedit := op.perform_edit valid stamp (t.state.view pid) h.readable hr
    have hbook := hedit.book h.recorded
    exact ⟨⟨hedit.copies_le, hedit.others, fun a => (hbook a).symm⟩,
      op.perform_readable h.readable rfl, hbook⟩

theorem run_opened (h0 : s.Opened) (h : Run (step valid) Free s es t) :
    t.Opened ∧ ∀ anchor, copies anchor t.log ≤ max 1 (copies anchor s.log) := by
  refine h.invariant (I := fun t => t.Opened ∧
    ∀ anchor, copies anchor t.log ≤ max 1 (copies anchor s.log)) ?_ ⟨h0, fun _ => le_max_right _ _⟩
  rintro t e u ⟨ht, hcopies⟩ - hs
  obtain ⟨hkept, hu⟩ := step_kept ht hs
  refine ⟨hu, fun anchor => (hkept.single anchor).trans ?_⟩
  exact max_le (le_max_left _ _) (hcopies anchor)

/-- **No anchor is lost or doubled.** After every step of every run an anchor has one entry (or no
more than it began with), the step has left the entries of all other anchors unchanged and in order,
and the anchors of the log are the ones on record. -/
theorem log_keeps_anchors (h0 : s.Opened) (h : Run (step valid) Free s es t)
    (hs : step valid t e = some u) : Kept s.log t e u := by
  obtain ⟨ht, hcopies⟩ := run_opened h0 h
  obtain ⟨hkept, -⟩ := step_kept ht hs
  exact ⟨fun anchor => (hkept.single anchor).trans (max_le (le_max_left _ _) (hcopies anchor)),
    hkept.others, hkept.anchors⟩

/-- Nothing recorded yet. -/
def empty : Ledger := ⟨emptyLog, []⟩

/-- Two processes record an anchor each, and the first withdraws. -/
theorem log_keeps_anchors_pair :
    ∃ t u, Run (step anyToken) Free empty
        [.call 0 (.record 10 "t" "zero" true) true true 1,
          .call 1 (.record 11 "u" "vera" false) true true 2] t ∧
      step anyToken t (.call 0 (.withdraw "t") true true 3) = some u ∧
      Kept empty.log t (.call 0 (.withdraw "t") true true 3) u := by
  have h0 : empty.Opened :=
    ⟨⟨nofun, nofun⟩, fun anchor => by simp [empty, log, emptyLog, File.entries]⟩
  obtain ⟨t, ht⟩ : ∃ t, exec (step anyToken) empty
      [.call 0 (.record 10 "t" "zero" true) true true 1,
        .call 1 (.record 11 "u" "vera" false) true true 2] = some t := ⟨_, rfl⟩
  obtain ⟨u, hu⟩ : ∃ u, step anyToken t (.call 0 (.withdraw "t") true true 3) = some u := ⟨_, rfl⟩
  exact ⟨t, u, run_of_exec ht, hu, log_keeps_anchors h0 (run_of_exec ht) hu⟩

/-- The anchor withdrawn while pending is off the record, the other stays. -/
example : (exec (step anyToken) empty
    [.call 0 (.record 10 "t" "zero" true) true true 1,
      .call 1 (.record 11 "u" "vera" false) true true 2,
      .call 0 (.withdraw "t") true true 3]).map (·.recorded) = some ["u"] := by decide

end Ledger

end HermesMesh.Threads
