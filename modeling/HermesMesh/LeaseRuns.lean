import HermesMesh.LeaseOps
import HermesMesh.Lib.Runs
import Mathlib.Logic.Function.Basic

/-!
# Many gateways on one registry

Any number of processes share the registry file. A call first does its unlocked part: it reads the
clock, and `expire` and `release_if_party_status` may already answer from an unlocked look at the
file. It then waits for the lock, and its locked section runs as one step, with the clock reading
taken before the wait. Nothing relates the readings of different calls: a reading may be stale by
any amount.

`registry_keeps_gate_limits`: whatever the processes do, the leases live at any instant respect the
three limits of the gate. The invariant is stronger and simpler than the claim: all leases in the
file respect them, lapsed ones included, so a `touch` that revives a lapsed lease revives nothing
that a later claim did not see.
-/

namespace HermesMesh.OpenThreads

open Lib

/-! ## The limits of the gate -/

/-- What the busy gate promises about the leases that are live at one instant. -/
structure GateLimits (leases : List Lease) : Prop where
  /-- No two leases join the same unordered pair. -/
  pairs : leases.Pairwise fun r r' => r.joins r'.openedBy r'.peer = false
  /-- Two leases that name one peer were opened by one agent, or by the peer herself. -/
  doors : leases.Pairwise fun r r' =>
    r.peer = r'.peer → r.openedBy = r'.openedBy ∨ r.openedBy = r.peer ∨ r'.openedBy = r'.peer
  /-- Nobody has opened more than `MAX_OUTBOUND_THREADS` of them. -/
  outbound : ∀ agent, (leases.filter (·.openedBy = agent)).length ≤ maxOutboundThreads

/-- Any two leases that name one peer. -/
theorem GateLimits.door {leases : List Lease} (h : GateLimits leases) {r r' : Lease}
    (hr : r ∈ leases) (hr' : r' ∈ leases) (hpeer : r.peer = r'.peer) :
    r.openedBy = r'.openedBy ∨ r.openedBy = r.peer ∨ r'.openedBy = r'.peer := by
  have hflip : leases.Pairwise (flip fun r r' : Lease =>
      r.peer = r'.peer → r.openedBy = r'.openedBy ∨ r.openedBy = r.peer ∨ r'.openedBy = r'.peer) :=
    h.doors.imp fun {r r'} hdoor hpeer =>
      (hdoor hpeer.symm).imp Eq.symm Or.symm
  exact h.doors.forall_of_forall_of_flip (fun _ _ _ => .inl rfl) hflip hr hr' hpeer

/-- The limits on leases are the limits on their links. -/
theorem gateLimits_of_links {leases : List Lease}
    (h : Limits maxOutboundThreads (leases.map Lease.link)) : GateLimits leases where
  pairs := by
    refine (List.pairwise_map.mp h.pairs).imp fun {r r'} hne => ?_
    rw [← Bool.not_eq_true, joins_iff_samePair]
    exact hne
  doors := by
    refine (List.pairwise_map.mp h.doors).imp fun {r r'} hne hpeer => ?_
    by_contra hcon
    simp only [not_or] at hcon
    exact hne ⟨hpeer, hcon.1, hcon.2.1, hcon.2.2⟩
  outbound agent := by
    have hout := h.outbound agent
    rw [List.countP_map] at hout
    rw [← List.countP_eq_length_filter]
    exact hout

/-! ## The system -/

/-- A call into the registry. -/
inductive Call where
  | claim (threadId openedBy peer : String) (minutes : ℤ)
  | touch (threadId : String) (resizeTo : Option ℤ)
  | release (threadId : String)
  | releaseIfParty (threadId who : String)
  | releaseIfPartyStatus (explicitlyConfigured : Bool) (threadId : Json) (who : String)
  | leaseFor (threadId : String)
  | expire

/-- Whether the call goes on to the lock after its unlocked part. -/
def Call.proceeds (io : Io) (now : Time) (file : File) : Call → Bool
  | .releaseIfPartyStatus .. => io.statOk && file.isSome
  | .expire => lapsed io now file
  | _ => true

/-- The file after the call's locked section. -/
def Call.commit (valid : TokenRule) (io : Io) (now : Time) (file : File) : Call → File
  | .claim threadId openedBy peer minutes =>
    (OpenThreads.claim valid io now threadId openedBy peer minutes file).2
  | .touch threadId resizeTo => (OpenThreads.touch io now threadId resizeTo file).2
  | .release threadId => (OpenThreads.release io threadId file).2
  | .releaseIfParty threadId who => (OpenThreads.releaseIfParty io threadId who file).2
  | .releaseIfPartyStatus explicitlyConfigured threadId who =>
    (OpenThreads.releaseIfPartyStatus explicitlyConfigured io threadId who file).2
  | .leaseFor _ => file
  | .expire => (expireLocked io now file).2

/-- The registry file, and for each process the call that waits for the lock with the clock reading
it took. -/
structure State where
  file : File
  waiting : ℕ → Option (Call × Time)

inductive Event where
  /-- A process begins a call and reads its clock. -/
  | begin_ (pid : ℕ) (call : Call) (now : Time) (io : Io)
  /-- A waiting call gets the lock and runs its section. -/
  | commit (pid : ℕ) (io : Io)

def step (valid : TokenRule) (s : State) : Event → Option State
  | .begin_ pid call now io =>
    match s.waiting pid with
    | some _ => none
    | none =>
      let call? := if call.proceeds io now s.file then some (call, now) else none
      some { s with waiting := Function.update s.waiting pid call? }
  | .commit pid io =>
    match s.waiting pid with
    | none => none
    | some (call, now) =>
      some
        { file := call.commit valid io now s.file
          waiting := Function.update s.waiting pid none }

/-- An empty registry, and no call under way. -/
def Initial (s : State) : Prop := s.file.entries = [] ∧ ∀ pid, s.waiting pid = none

/-! ## The invariant -/

variable {valid : TokenRule}

theorem commit_admits (io : Io) (now : Time) (file : File) (call : Call) :
    Admits maxOutboundThreads (links file) (links (call.commit valid io now file)) := by
  cases call with
  | claim => exact claim_admits
  | touch => exact touch_admits _
  | release => exact release_admits
  | releaseIfParty => exact releaseIfParty_admits
  | releaseIfPartyStatus => exact releaseIfPartyStatus_admits _ _
  | leaseFor => exact .refl
  | expire => exact expireLocked_admits

/-- What a step can do. -/
inductive Steps (valid : TokenRule) (s : State) : Event → State → Prop
  | begin_ {pid : ℕ} {call : Call} {now : Time} {io : Io} (hidle : s.waiting pid = none) :
      Steps valid s (.begin_ pid call now io)
        { s with
          waiting := Function.update s.waiting pid
            (if call.proceeds io now s.file then some (call, now) else none) }
  | commit {pid : ℕ} {io : Io} {call : Call} {now : Time} (hwaits : s.waiting pid = some (call, now)) :
      Steps valid s (.commit pid io)
        { file := call.commit valid io now s.file
          waiting := Function.update s.waiting pid none }

theorem step_steps {s t : State} {e : Event} (h : step valid s e = some t) : Steps valid s e t := by
  cases e with
  | begin_ pid call now io =>
    simp only [step] at h
    cases hw : s.waiting pid with
    | some _ => rw [hw] at h; cases h
    | none =>
      rw [hw] at h
      obtain rfl := Option.some.inj h
      exact .begin_ hw
  | commit pid io =>
    simp only [step] at h
    cases hw : s.waiting pid with
    | none => rw [hw] at h; cases h
    | some w =>
      rw [hw] at h
      obtain rfl := Option.some.inj h
      exact .commit hw

/-- **One step.** Every step of the system is a step of the guarded table of links. -/
theorem step_admits {s t : State} {e : Event} (h : step valid s e = some t) :
    Admits maxOutboundThreads (links s.file) (links t.file) := by
  cases step_steps h with
  | begin_ _ => exact .refl
  | @commit _ io call now _ => exact commit_admits io now s.file call

/-- **Whole runs.** All leases of the file, lapsed ones included, stay within the limits. -/
theorem links_limits {s t : State} {es : List Event} (h : Run (step valid) Free s es t)
    (hs : Limits maxOutboundThreads (links s.file)) : Limits maxOutboundThreads (links t.file) :=
  h.invariant (I := fun s => Limits maxOutboundThreads (links s.file))
    (fun _ _ _ hI _ hstep => hI.admits (step_admits hstep)) hs

theorem links_initial {s : State} (h : Initial s) : links s.file = [] := by
  unfold links
  rw [h.1, List.map_nil]

/-- **The lease registry invariant.** From the empty registry, after any interleaving of the calls
of any number of processes, the leases live at any instant respect the limits of the gate. -/
theorem registry_keeps_gate_limits (valid : TokenRule) {s t : State} {es : List Event}
    (h0 : Initial s) (h : Run (step valid) Free s es t) (now : Time) :
    GateLimits (t.file.liveAt now) := by
  have hall : Limits maxOutboundThreads (links t.file) := by
    apply links_limits h
    rw [links_initial h0]
    exact .nil
  refine gateLimits_of_links (hall.sublist ?_)
  exact (List.filter_sublist (l := t.file.entries)).map Lease.link

/-- The events of two senders who race for one recipient, and of a touch whose clock reading is
older than the lapse of the lease it revives. -/
def race : List Event :=
  [.begin_ 0 (.claim "t" "zero" "vera" 30) 1000 {}, .begin_ 1 (.claim "u" "britney" "vera" 30) 1001 {},
    .commit 0 {}, .commit 1 {}, .begin_ 2 (.touch "t" (some 120)) 2799 {},
    .begin_ 1 (.claim "u" "britney" "linda" 30) 2799 {}, .commit 1 {}, .commit 2 {}]

/-- The registry after the race. -/
def raceFile : File :=
  some
    [{ newLease 1000 "t" "zero" "vera" 30 with
        leaseUntil := 9999, leaseMinutes := 120, replies := 1, resized := true },
      newLease 2799 "u" "britney" "linda" 30]

theorem registry_keeps_gate_limits_race :
    ∃ s : State, s.file = raceFile ∧ GateLimits (s.file.liveAt 3000) := by
  have hrace : (exec (step (.of fun _ => true)) ⟨some [], fun _ => none⟩ race).map State.file =
      some raceFile := by decide +kernel
  obtain ⟨s, hs, hfile⟩ := Option.map_eq_some_iff.mp hrace
  exact ⟨s, hfile,
    registry_keeps_gate_limits (.of fun _ => true) ⟨rfl, fun _ => rfl⟩ (run_of_exec hs) 3000⟩

end HermesMesh.OpenThreads
