import HermesMesh.LeaseRuns
import HermesMesh.Lib.Edits

/-!
# Nobody holds a door for ever

A lease runs for the default time and may be resized once, by a touch that still finds it live. To say
how often its `lease_until` changes, the run keeps a record beside the registry: the same leases, each
with a count of its changes. Every call edits the table in place (`Call.edits`), so the record is
kept by doing the same edits to the leases with their counts.

`nobody_holds_a_door`: in every run whose claims ask for the default time, no lease runs past
`DEFAULT_LEASE_MINUTES + MAX_LEASE_MINUTES` after it was opened, and no count passes 1.
-/

namespace HermesMesh.OpenThreads

open Lib

variable {valid : TokenRule} {io : Io} {now : Time} {file : File} {call : Call}

/-! ## The calls as edits -/

/-- The edits of a claim: its locked section drops what has lapsed where it opens a lease. -/
def claimEdits (io : Io) (now : Time) : Except PyError Claimed → List (Edit Lease)
  | .ok (.opened lease) => [.keep fun r => io.readable && live now r, .append lease]
  | _ => []

/-- What the call's locked section does to the records of the file. -/
def Call.edits (valid : TokenRule) (io : Io) (now : Time) (file : File) : Call → List (Edit Lease)
  | .claim threadId openedBy peer minutes =>
    claimEdits io now (OpenThreads.claim valid io now threadId openedBy peer minutes file).1
  | .touch threadId resizeTo =>
    if io.healthy then [.revise (anchored threadId now) (bump now resizeTo)] else []
  | .release threadId =>
    if io.healthy then [.keep fun r => decide (r.threadId ≠ threadId)] else []
  | .releaseIfParty threadId who =>
    if io.healthy then [.keep fun r => !releasable (.str threadId) who r] else []
  | .releaseIfPartyStatus _ threadId who =>
    if io.statOk && io.healthy then [.keep fun r => !releasable threadId who r] else []
  | .leaseFor _ => []
  | .expire =>
    if io.lockable && io.writable then [.keep fun r => io.readable && live now r] else []

theorem liveEntries_eq (io : Io) (now : Time) (file : File) :
    liveEntries io now file = file.entries.filter fun r => io.readable && live now r := by
  unfold liveEntries read
  cases io.readable with
  | true => simp
  | false => simp

theorem claim_edits (threadId openedBy peer : String) (minutes : ℤ) :
    (claim valid io now threadId openedBy peer minutes file).2.entries =
      applyAll (claimEdits io now (claim valid io now threadId openedBy peer minutes file).1)
        file.entries := by
  rcases claim_cases valid io now threadId openedBy peer minutes file with
    ⟨-, e, heq⟩ | ⟨-, ⟨-, heq⟩ | ⟨-, heq⟩⟩
  · rw [heq]
    rfl
  · rw [heq]
    rfl
  · rw [heq]
    rcases claimLocked_cases io now threadId openedBy peer (clampMinutes minutes) file with
      ⟨_, -, -, hl⟩ | ⟨-, ⟨_, -, -, hl⟩ | ⟨-, ⟨_, _, -, hl⟩ | ⟨-, ⟨-, hl⟩ | ⟨-, hl⟩⟩⟩⟩ <;> rw [hl]
    any_goals rfl
    rw [liveEntries_eq]
    rfl

theorem touch_edits (threadId : String) (resizeTo : Option ℤ) :
    (touch io now threadId resizeTo file).2.entries =
      applyAll (if io.healthy then [.revise (anchored threadId now) (bump now resizeTo)] else [])
        file.entries := by
  rw [touch_snd]
  cases hf : file.entries.find? (anchored threadId now) with
  | none =>
    have hsame : updateFirst (anchored threadId now) (bump now resizeTo) file.entries = file.entries := by
      apply updateFirst_eq_self
      simpa using hf
    cases io.healthy with
    | true => exact hsame.symm
    | false => rfl
  | some rec => cases io.healthy <;> rfl

theorem release_edits (threadId : String) :
    (release io threadId file).2.entries =
      applyAll (if io.healthy then [.keep fun r => decide (r.threadId ≠ threadId)] else [])
        file.entries := by
  have hsame (h : ¬ (file.entries.filter (·.threadId ≠ threadId)).length ≠ file.entries.length) :
      (file.entries.filter (·.threadId ≠ threadId)) = file.entries := by
    apply List.filter_eq_self.mpr
    apply List.length_filter_eq_length_iff.mp
    omega
  unfold release Io.healthy read write
  cases io.lockable with
  | false => rfl
  | true =>
    cases io.readable with
    | false => rfl
    | true =>
      simp only [if_true]
      by_cases hlen : (file.entries.filter (·.threadId ≠ threadId)).length ≠ file.entries.length
      · rw [if_pos hlen]
        cases io.writable <;> rfl
      · rw [if_neg hlen]
        cases io.writable with
        | false => rfl
        | true => exact (hsame hlen).symm

/-- The records a party's release leaves, also where there is nothing for her to release. -/
theorem filter_of_none {p : Lease → Bool} {l : List Lease} (h : ∀ r ∈ l, p r = false) :
    (l.filter fun r => !p r) = l := by
  apply List.filter_eq_self.mpr
  intro r hr
  rw [h r hr, Bool.not_false]

theorem releaseIfParty_edits (threadId who : String) :
    (releaseIfParty io threadId who file).2.entries =
      applyAll (if io.healthy then [.keep fun r => !releasable (.str threadId) who r] else [])
        file.entries := by
  rw [releaseIfParty_snd]
  cases io.healthy with
  | false => rfl
  | true =>
    by_cases hany : file.entries.any (releasable (.str threadId) who) = true
    · rw [hany]
      rfl
    · rw [if_neg (by simpa using hany)]
      symm
      apply filter_of_none
      simpa using hany

theorem releaseIfPartyStatus_edits (explicitlyConfigured : Bool) (threadId : Json) (who : String) :
    (releaseIfPartyStatus explicitlyConfigured io threadId who file).2.entries =
      applyAll
        (if io.statOk && io.healthy then [.keep fun r => !releasable threadId who r] else [])
        file.entries := by
  rcases releaseIfPartyStatus_cases explicitlyConfigured io threadId who file with
    ⟨hstat, hio, heq⟩ | ⟨hnone, reason, -, heq⟩
  · rw [heq, hstat, hio]
    rfl
  · rw [heq]
    split_ifs with hio
    · rw [Bool.and_eq_true] at hio
      exact (filter_of_none (hnone hio.1 hio.2)).symm
    · rfl

theorem expire_edits :
    (expireLocked io now file).2.entries =
      applyAll (if io.lockable && io.writable then [.keep fun r => io.readable && live now r] else [])
        file.entries := by
  have hlive : (read io file).filter (live now) =
      file.entries.filter fun r => io.readable && live now r := liveEntries_eq io now file
  unfold expireLocked
  simp only [hlive]
  unfold write
  cases io.lockable <;> cases io.writable <;> rfl

/-- **The calls are edits.** Whatever its readings and whatever the disk does. -/
theorem commit_edits (io : Io) (now : Time) (file : File) (call : Call) :
    (call.commit valid io now file).entries = applyAll (call.edits valid io now file) file.entries := by
  cases call with
  | claim threadId openedBy peer minutes => exact claim_edits threadId openedBy peer minutes
  | touch threadId resizeTo => exact touch_edits threadId resizeTo
  | release threadId => exact release_edits threadId
  | releaseIfParty threadId who => exact releaseIfParty_edits threadId who
  | releaseIfPartyStatus explicitlyConfigured threadId who =>
    exact releaseIfPartyStatus_edits explicitlyConfigured threadId who
  | leaseFor _ => rfl
  | expire => exact expire_edits

/-! ## The record beside the registry -/

/-- What an event does to the records of the file. -/
def Event.edits (valid : TokenRule) (s : State) : Event → List (Edit Lease)
  | .begin_ .. => []
  | .commit pid io =>
    match s.waiting pid with
    | none => []
    | some (call, now) => call.edits valid io now s.file

theorem edits_commit {s : State} {pid : ℕ} {io : Io} {call : Call}
    (hwaits : s.waiting pid = some (call, now)) :
    (Event.commit pid io).edits valid s = call.edits valid io now s.file := by
  unfold Event.edits
  dsimp only
  rw [hwaits]

/-- The leases of the registry, each with the number of times its `lease_until` has changed. -/
def counted (valid : TokenRule) (s : State) (e : Event) (table : List (Lease × ℕ)) :
    List (Lease × ℕ) :=
  applyAllCounted Lease.leaseUntil (e.edits valid s) table

theorem step_edits {s t : State} {e : Event} (h : step valid s e = some t) :
    t.file.entries = applyAll (e.edits valid s) s.file.entries := by
  cases step_steps h with
  | begin_ _ => rfl
  | @commit _ io call now hwaits =>
    rw [edits_commit hwaits]
    exact commit_edits io now s.file call

/-! ## The bound -/

/-- The relay's claims ask for the default time. -/
def Call.DefaultTime : Call → Prop
  | .claim _ _ _ minutes => minutes = defaultLeaseMinutes
  | _ => True

/-- A claim that a process begins asks for the default time. -/
def Event.DefaultTime : Event → Prop
  | .begin_ _ call _ _ => call.DefaultTime
  | .commit .. => True

/-- A lease with its count: as opened until it is resized, and resized once from within its time. -/
structure Bounded (x : Lease × ℕ) : Prop where
  opened : x.1.resized = false →
    x.2 = 0 ∧ x.1.leaseUntil = x.1.openedAt + defaultLeaseMinutes * 60
  resized : x.1.resized = true →
    x.2 ≤ 1 ∧ x.1.leaseUntil ≤ x.1.openedAt + (defaultLeaseMinutes + maxLeaseMinutes) * 60

/-- The record is the registry with its counts, its leases are within the bound, and the claims under
way ask for the default time. -/
structure Held (x : State × List (Lease × ℕ)) : Prop where
  table : x.2.map Prod.fst = x.1.file.entries
  bounded : ∀ y ∈ x.2, Bounded y
  waiting : ∀ pid call now, x.1.waiting pid = some (call, now) → call.DefaultTime

theorem clampMinutes_le (minutes : ℤ) : clampMinutes minutes ≤ maxLeaseMinutes := by
  show max 1 (min minutes maxLeaseMinutes) ≤ maxLeaseMinutes
  unfold maxLeaseMinutes
  omega

theorem Bounded.within {x : Lease × ℕ} (h : Bounded x) :
    x.1.leaseUntil ≤ x.1.openedAt + (defaultLeaseMinutes + maxLeaseMinutes) * 60 ∧ x.2 ≤ 1 := by
  cases hr : x.1.resized with
  | true => exact ⟨(h.resized hr).2, (h.resized hr).1⟩
  | false =>
    obtain ⟨hcount, huntil⟩ := h.opened hr
    refine ⟨?_, by omega⟩
    rw [huntil]
    norm_num [defaultLeaseMinutes, maxLeaseMinutes]

theorem bounded_opened (threadId openedBy peer : String) :
    Bounded (newLease now threadId openedBy peer (clampMinutes defaultLeaseMinutes), 0) := by
  refine ⟨fun _ => ⟨rfl, ?_⟩, fun h => by cases h⟩
  show now + (clampMinutes defaultLeaseMinutes : ℤ) * 60 = now + (defaultLeaseMinutes : ℤ) * 60
  rfl

/-- A touch resizes a lease once, and only while the lease is live at its reading. -/
theorem Bounded.touched {x : Lease × ℕ} {threadId : String} (resizeTo : Option ℤ)
    (hlive : anchored threadId now x.1 = true) (h : Bounded x) :
    Bounded (recount Lease.leaseUntil (bump now resizeTo) x) := by
  obtain ⟨rec, count⟩ := x
  have hbefore : now < rec.leaseUntil := live_iff.mp (live_of_anchored hlive)
  cases resizeTo with
  | none =>
    have hcount : recount Lease.leaseUntil (bump now none) (rec, count) =
        ({ rec with replies := rec.replies + 1 }, count) := by
      simp [recount, bump]
    rw [hcount]
    exact ⟨h.opened, h.resized⟩
  | some minutes =>
    cases hr : rec.resized with
    | true =>
      have hcount : recount Lease.leaseUntil (bump now (some minutes)) (rec, count) =
          ({ rec with replies := rec.replies + 1 }, count) := by
        simp [recount, bump, hr]
      rw [hcount]
      exact ⟨h.opened, h.resized⟩
    | false =>
      obtain ⟨rfl, huntil⟩ := h.opened hr
      have hafter : (bump now (some minutes) rec).leaseUntil = now + clampMinutes minutes * 60 := by
        simp [bump, hr]
      have hopened : (bump now (some minutes) rec).openedAt = rec.openedAt := by
        simp [bump, hr]
      have hresized : (bump now (some minutes) rec).resized = true := by
        simp [bump, hr]
      refine ⟨fun hcon => ?_, fun _ => ⟨?_, ?_⟩⟩
      · have hcon : (bump now (some minutes) rec).resized = false := hcon
        rw [hresized] at hcon
        cases hcon
      · show (if _ then 0 else 1) ≤ 1
        split_ifs <;> simp
      · show (bump now (some minutes) rec).leaseUntil ≤ (bump now (some minutes) rec).openedAt + _
        have hclamp : (clampMinutes minutes : ℚ) ≤ (maxLeaseMinutes : ℚ) := by
          exact_mod_cast clampMinutes_le minutes
        have huntil : rec.leaseUntil = rec.openedAt + defaultLeaseMinutes * 60 := huntil
        rw [hafter, hopened]
        linarith

theorem keep_keeps {c : Bool} {q : Lease → Bool} {e : Edit Lease}
    (he : e ∈ if c then [Edit.keep q] else []) : e.Keeps Lease.leaseUntil Bounded := by
  split_ifs at he
  · obtain rfl := List.mem_singleton.mp he
    trivial
  · cases he

/-- Every edit of a call that asks for the default time keeps the bound. -/
theorem edits_keep (hcall : call.DefaultTime) :
    ∀ e ∈ call.edits valid io now file, e.Keeps Lease.leaseUntil Bounded := by
  intro e he
  cases call with
  | claim threadId openedBy peer minutes =>
    have hminutes : minutes = defaultLeaseMinutes := hcall
    subst hminutes
    have he : e ∈ claimEdits io now
      (claim valid io now threadId openedBy peer defaultLeaseMinutes file).1 := he
    rcases claim_cases valid io now threadId openedBy peer defaultLeaseMinutes file with
      ⟨-, e', heq⟩ | ⟨-, ⟨-, heq⟩ | ⟨-, heq⟩⟩ <;> rw [heq] at he
    · cases he
    · cases he
    · rcases claimLocked_cases io now threadId openedBy peer (clampMinutes defaultLeaseMinutes) file
        with ⟨_, -, -, hl⟩ | ⟨-, ⟨_, -, -, hl⟩ | ⟨-, ⟨_, _, -, hl⟩ | ⟨-, ⟨-, hl⟩ | ⟨-, hl⟩⟩⟩⟩ <;>
          rw [hl] at he
      · cases he
      · cases he
      · cases he
      · rcases List.mem_pair.mp he with rfl | rfl
        · trivial
        · exact bounded_opened threadId openedBy peer
      · cases he
  | touch threadId resizeTo =>
    have he : e ∈ if io.healthy then [Edit.revise (anchored threadId now) (bump now resizeTo)] else [] :=
      he
    split_ifs at he
    · obtain rfl := List.mem_singleton.mp he
      intro x hlive hx
      exact hx.touched resizeTo hlive
    · cases he
  | leaseFor _ => cases he
  | release | releaseIfParty | releaseIfPartyStatus | expire => exact keep_keeps he

/-- **One step.** -/
theorem Held.step {x y : State × List (Lease × ℕ)} {e : Event} (hx : Held x)
    (hguard : e.DefaultTime)
    (h : withGhost (OpenThreads.step valid) (counted valid) x e = some y) : Held y := by
  obtain ⟨s, table⟩ := x
  obtain ⟨t, table'⟩ := y
  obtain ⟨hstep, htable⟩ := withGhost_some h
  have hstep : OpenThreads.step valid s e = some t := hstep
  obtain rfl : table' = counted valid s e table := htable
  refine ⟨?_, ?_, ?_⟩
  · show (applyAllCounted _ _ _).map Prod.fst = t.file.entries
    rw [map_fst_applyAllCounted, hx.table, step_edits hstep]
  · apply forall_applyAllCounted ?_ hx.bounded
    cases step_steps hstep with
    | begin_ _ => exact List.forall_mem_nil _
    | @commit pid io call now hwaits =>
      rw [edits_commit hwaits]
      exact edits_keep (hx.waiting pid call now hwaits)
  · intro pid' call' now' hwait
    cases step_steps hstep with
    | begin_ _ =>
      rcases update_eq_some hwait with ⟨-, hbegun⟩ | ⟨-, hold⟩
      · split_ifs at hbegun
        obtain ⟨rfl, rfl⟩ := Prod.mk.inj (Option.some.inj hbegun)
        exact hguard
      · exact hx.waiting pid' call' now' hold
    | commit _ =>
      rcases update_eq_some hwait with ⟨-, hnone⟩ | ⟨-, hold⟩
      · cases hnone
      · exact hx.waiting pid' call' now' hold

/-- **Nobody can hold a door for ever.** After any interleaving of the calls of any number of
processes, whose claims ask for the default time, every lease lapses within the default time and one
longest resize of its opening, and its `lease_until` has changed at most once. -/
theorem nobody_holds_a_door (valid : TokenRule) {s t : State} {es : List Event} (h0 : Initial s)
    (h : Run (step valid) (fun _ e => e.DefaultTime) s es t) :
    ∃ table, exec (withGhost (step valid) (counted valid)) (s, []) es = some (t, table) ∧
      table.map Prod.fst = t.file.entries ∧
      ∀ x ∈ table,
        x.1.leaseUntil ≤ x.1.openedAt + (defaultLeaseMinutes + maxLeaseMinutes) * 60 ∧ x.2 ≤ 1 := by
  obtain ⟨table, hrun⟩ := h.ghost (counted valid) []
  have hstart : Held (s, []) := by
    refine ⟨h0.1.symm, ?_, ?_⟩
    · intro x hx
      cases hx
    · intro pid call now hwait
      have hwait : s.waiting pid = some (call, now) := hwait
      rw [h0.2 pid] at hwait
      cases hwait
  have hend : Held (t, table) :=
    hrun.invariant (fun _ _ _ hx hguard hstep => hx.step hguard hstep) hstart
  exact ⟨table, hrun.exec_eq, hend.table, fun x hx => (hend.bounded x hx).within⟩

theorem nobody_holds_a_door_race :
    ∃ table : List (Lease × ℕ), table.map Prod.fst = raceFile.entries ∧
      ∀ x ∈ table,
        x.1.leaseUntil ≤ x.1.openedAt + (defaultLeaseMinutes + maxLeaseMinutes) * 60 ∧ x.2 ≤ 1 := by
  have hrace : (exec (step (.of fun _ => true)) ⟨some [], fun _ => none⟩ race).map State.file =
      some raceFile := by decide +kernel
  obtain ⟨s, hs, hfile⟩ := Option.map_eq_some_iff.mp hrace
  have hdefault : ∀ e ∈ race, e.DefaultTime := by
    intro e he
    simp only [race, List.mem_cons, List.not_mem_nil, or_false] at he
    rcases he with rfl | rfl | rfl | rfl | rfl | rfl | rfl | rfl <;> trivial
  obtain ⟨table, -, hmap, hbound⟩ :=
    nobody_holds_a_door (.of fun _ => true) ⟨rfl, fun _ => rfl⟩ ((run_of_exec hs).of_forall hdefault)
  exact ⟨table, by rw [hmap, hfile], hbound⟩

end HermesMesh.OpenThreads
