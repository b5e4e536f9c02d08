import HermesMesh.Failover
import Mathlib.Tactic.Ring

/-!
# The budget of a delivery

The deadline of a call is one timeout away, and is put off once, by another, where the first attempt
got no answer. So a call should be over within two timeouts. `timedLoop` is the loop with its clock:
time passes while a connection is tried, each for no longer than the timeout it is given, and in the
pauses of the loop. It is the loop of `_deliver_webhook` with the readings of that clock
(`timedLoop_deliverLoop`).

Two timeouts are not enough in general. An attempt that begins just before the deadline gets a second,
whatever is left; and a timeout is given to every address of a name, not to the attempt.
`delivery_within_iff`: the ceiling holds for one address and two attempts, for two addresses and one
attempt, and for nothing more.
-/

namespace HermesMesh

/-- How long each connection of an attempt would take to end. -/
abbrev Waits := ℕ → ℕ → Time

/-- The time that the connections of one attempt take, each cut off at the timeout. -/
def spent (timeout : Time) (wait : ℕ → Time) (dials : ℕ) : Time :=
  ((List.range dials).map fun k => min timeout (wait k)).sum

/-- What a call returns, and the clock when it does. -/
structure Timed where
  delivery : Delivery
  clock : Time
  /-- The clock when each attempt began and when it had failed. -/
  readings : List (Time × Time) := []

section

variable (exceptionToReason : Exc → String) (budget : Budget) (net : Net) (wait : Waits)
  (allowLoopback : Bool) (ips : List Ip)

/-- The retry loop of `_deliver_webhook`, with the clock at its top. -/
def timedLoop : ℕ → ℕ → Time → Bool → Time → Timed
  | 0, _, _, _, clock => ⟨{ deliveryId := .null, reason := some "unreachable" }, clock, []⟩
  | fuel + 1, attempt, deadline, extended, clock =>
    let remaining := deadline - clock
    if remaining ≤ 0 then ⟨{ deliveryId := .null, reason := some unconfirmed }, clock, [(clock, clock)]⟩
    else
      let attemptTimeout : Time := if attempt = 0 then budget.timeout else max 1 remaining
      let made := tryOnce net allowLoopback ips attempt attemptTimeout
      let ended := clock + spent attemptTimeout (wait attempt) made.dials.length
      match made.ended with
      | .ok deliveryId =>
        ⟨{ deliveryId, reason := none, attempts := [made], metrics := ["total"] }, ended,
          [(clock, ended)]⟩
      | .error exc =>
        let extend := attempt = 0 && !extended && isTimeout exc
        let deadline := if extend then ended + budget.timeout else deadline
        let remaining := deadline - ended
        if (attempt : ℤ) < budget.retries - 1 ∧ remaining > 0 then
          if 1024 ≤ attempt then
            ⟨{ deliveryId := .null
               reason := none
               attempts := [made]
               raised := some (.other "OverflowError") }, ended, [(clock, ended)]⟩
          else
            let sleepTime := min (budget.backoff * 2 ^ attempt) (max 0 (remaining - 1))
            let slept := if sleepTime > 1 / 1000 then [sleepTime] else []
            let rest := timedLoop fuel (attempt + 1) deadline (extended || extend) (ended + slept.sum)
            { delivery :=
                { rest.delivery with
                  attempts := made :: rest.delivery.attempts
                  sleeps := slept ++ rest.delivery.sleeps }
              clock := rest.clock
              readings := (clock, ended) :: rest.readings }
        else
          ⟨{ deliveryId := .null
             reason := some (deliveryFailureReason exceptionToReason exc)
             attempts := [made]
             metrics := ["failed"] }, ended, [(clock, ended)]⟩

/-- The whole loop: the deadline is one timeout after the reading with which it is computed. -/
def timedDelivery : Timed :=
  timedLoop exceptionToReason budget net wait allowLoopback ips budget.retries.toNat 0
    (net.opened + budget.timeout) false net.opened

end

variable {exceptionToReason : Exc → String} {budget : Budget} {net : Net} {wait : Waits}
  {allowLoopback : Bool} {ips : List Ip}

/-! ## The loop with a clock is the loop -/

/-- The network reads the clock of these readings, the first of them at the given attempt. -/
def Reads (net : Net) (attempt : ℕ) (readings : List (Time × Time)) : Prop :=
  ∀ i r, readings[i]? = some r →
    net.tried (attempt + i) = r.1 ∧ net.failed (attempt + i) = r.2 ∧ net.left (attempt + i) = r.2

theorem reads_cons {attempt : ℕ} {r : Time × Time} {readings : List (Time × Time)}
    (h : Reads net attempt (r :: readings)) :
    (net.tried attempt = r.1 ∧ net.failed attempt = r.2 ∧ net.left attempt = r.2) ∧
      Reads net (attempt + 1) readings := by
  refine ⟨h 0 r rfl, fun i r' hr' => ?_⟩
  have hnext := h (i + 1) r' hr'
  rwa [show attempt + (i + 1) = attempt + 1 + i by omega] at hnext

theorem timedLoop_head (exceptionToReason : Exc → String) (budget : Budget) (net : Net) (wait : Waits)
    (allowLoopback : Bool) (ips : List Ip) (fuel attempt : ℕ) (deadline : Time) (extended : Bool) (clock : Time) :
    ∃ ended rest, (timedLoop exceptionToReason budget net wait allowLoopback ips (fuel + 1) attempt
      deadline extended clock).readings = (clock, ended) :: rest := by
  unfold timedLoop
  dsimp only
  by_cases hleft : deadline - clock ≤ 0
  · rw [if_pos hleft]
    exact ⟨_, _, rfl⟩
  · rw [if_neg hleft]
    generalize (if attempt = 0 then (budget.timeout : Time) else _) = timeout
    cases (tryOnce net allowLoopback ips attempt timeout).ended with
    | ok deliveryId => exact ⟨_, _, rfl⟩
    | error exc =>
      dsimp only
      generalize clock + spent timeout (wait attempt) _ = ended
      generalize (if (decide (attempt = 0) && !extended && isTimeout exc) = true then
        ended + (budget.timeout : Time) else deadline) = deadline'
      by_cases hgo : (attempt : ℤ) < budget.retries - 1 ∧ deadline' - ended > 0
      · rw [if_pos hgo]
        split_ifs <;> exact ⟨_, _, rfl⟩
      · rw [if_neg hgo]
        exact ⟨_, _, rfl⟩

/-- **The same loop.** Where the network reads the clock, the call does what the loop does. -/
theorem timedLoop_deliverLoop (fuel : ℕ) : ∀ (attempt : ℕ) (deadline : Time) (extended : Bool)
    (clock : Time),
    Reads net attempt (timedLoop exceptionToReason budget net wait allowLoopback ips fuel attempt
      deadline extended clock).readings →
    deliverLoop exceptionToReason budget net allowLoopback ips fuel attempt deadline extended =
      (timedLoop exceptionToReason budget net wait allowLoopback ips fuel attempt deadline extended
        clock).delivery := by
  induction fuel with
  | zero => exact fun _ _ _ _ _ => rfl
  | succ fuel ih =>
    intro attempt deadline extended clock hreads
    have htried : net.tried attempt = clock := by
      obtain ⟨ended, rest, hhead⟩ := timedLoop_head exceptionToReason budget net wait
        allowLoopback ips fuel attempt deadline extended clock
      rw [hhead] at hreads
      exact (reads_cons hreads).1.1
    unfold timedLoop at hreads ⊢
    unfold deliverLoop
    dsimp only at hreads ⊢
    rw [htried]
    by_cases hleft : deadline - clock ≤ 0
    · rw [if_pos hleft, if_pos hleft]
    · rw [if_neg hleft] at hreads ⊢
      rw [if_neg hleft]
      generalize (if attempt = 0 then (budget.timeout : Time) else _) = timeout at hreads ⊢
      cases hmade : (tryOnce net allowLoopback ips attempt timeout).ended with
      | ok deliveryId => rfl
      | error exc =>
        rw [hmade] at hreads
        dsimp only at hreads ⊢
        generalize hended : clock + spent timeout (wait attempt)
          (tryOnce net allowLoopback ips attempt timeout).dials.length = ended at hreads ⊢
        generalize hlate : (if (decide (attempt = 0) && !extended && isTimeout exc) = true then
          ended + (budget.timeout : Time) else deadline) = deadline' at hreads ⊢
        by_cases hgo : (attempt : ℤ) < budget.retries - 1 ∧ deadline' - ended > 0
        · rw [if_pos hgo] at hreads ⊢
          by_cases hbig : 1024 ≤ attempt
          · rw [if_pos hbig] at hreads ⊢
            obtain ⟨-, hfailed, hleft⟩ := (reads_cons hreads).1
            rw [hfailed, hleft]
            dsimp only
            rw [hlate, if_pos hgo, if_pos hbig]
          · rw [if_neg hbig] at hreads ⊢
            obtain ⟨⟨-, hfailed, hleft⟩, hrest⟩ := reads_cons hreads
            rw [hfailed, hleft]
            dsimp only
            rw [hlate, if_pos hgo, if_neg hbig, ih _ _ _ _ hrest]
        · rw [if_neg hgo] at hreads ⊢
          obtain ⟨-, hfailed, hleft⟩ := (reads_cons hreads).1
          rw [hfailed, hleft]
          dsimp only
          rw [hlate, if_neg hgo]

/-- The whole call, on the clock of its loop. -/
theorem deliverWebhook_timed {url : String} {signature : String}
    (hfault : net.fault = none)
    (hips : resolveTargetUrl url net.host net.resolved allowLoopback = .ok ips)
    (hreads : Reads net 0
      (timedDelivery exceptionToReason budget net wait allowLoopback ips).readings) :
    deliverWebhook exceptionToReason budget net allowLoopback url (.ok signature) =
      (timedDelivery exceptionToReason budget net wait allowLoopback ips).delivery.result := by
  unfold deliverWebhook
  rw [hfault]
  dsimp only
  rw [hips]
  exact congrArg Delivery.result (timedLoop_deliverLoop _ _ _ _ _ hreads)

/-! ## What one attempt takes -/

theorem pinnedRequest_length {dial : Ip → DialOutcome} :
    ∀ lastExc, (pinnedRequest allowLoopback dial lastExc ips).1.length ≤ ips.length := by
  induction ips with
  | nil => exact fun _ => le_rfl
  | cons ip rest ih =>
    intro lastExc
    unfold pinnedRequest
    split_ifs
    · exact (ih lastExc).trans (Nat.le_succ _)
    · exact Nat.zero_le _
    · cases dial ip with
      | answered status body =>
        dsimp only
        split_ifs
        · simp
        · exact Nat.succ_le_succ (ih _)
        · simp
      | timedOut | failed _ => exact Nat.succ_le_succ (ih _)
      | aborted _ => simp

/-- An attempt dials an address once. -/
theorem tryOnce_length (net : Net) (allowLoopback : Bool) (ips : List Ip) (attempt : ℕ)
    (timeout : Time) : (tryOnce net allowLoopback ips attempt timeout).dials.length ≤ ips.length := by
  show ((net.request allowLoopback ips attempt).1.map _).length ≤ _
  rw [List.length_map]
  unfold Net.request
  cases net.refused with
  | some text => exact Nat.zero_le _
  | none => exact pinnedRequest_length none

theorem spent_succ (timeout : Time) (wait : ℕ → Time) (dials : ℕ) :
    spent timeout wait (dials + 1) = spent timeout wait dials + min timeout (wait dials) := by
  unfold spent
  rw [List.range_succ, List.map_append, List.sum_append]
  simp

theorem spent_nonneg {timeout : Time} {wait : ℕ → Time} (htimeout : 0 ≤ timeout)
    (hwait : ∀ k, 0 ≤ wait k) (dials : ℕ) : 0 ≤ spent timeout wait dials := by
  induction dials with
  | zero => exact le_rfl
  | succ dials ih =>
    rw [spent_succ]
    exact add_nonneg ih (le_min htimeout (hwait dials))

/-- No connection takes longer than its timeout. -/
theorem spent_le {timeout : Time} (htimeout : 0 ≤ timeout) (wait : ℕ → Time) {dials n : ℕ}
    (hn : dials ≤ n) : spent timeout wait dials ≤ n * timeout := by
  have hdials : spent timeout wait dials ≤ dials * timeout := by
    clear hn
    induction dials with
    | zero =>
      rw [Nat.cast_zero, zero_mul]
      exact le_rfl
    | succ dials ih =>
      rw [spent_succ, Nat.cast_succ, add_mul, one_mul]
      exact add_le_add ih (min_le_left _ _)
  have hcast : (dials : Time) ≤ n := by exact_mod_cast hn
  exact hdials.trans (mul_le_mul_of_nonneg_right hcast htimeout)

/-- The pause after a failed attempt, with so much left until the deadline. -/
def napOf (budget : Budget) (attempt : ℕ) (remaining : Time) : Time :=
  (if min (budget.backoff * 2 ^ attempt) (max 0 (remaining - 1)) > 1 / 1000 then
    [min (budget.backoff * 2 ^ attempt) (max 0 (remaining - 1))] else []).sum

theorem napOf_nonneg (budget : Budget) (attempt : ℕ) (remaining : Time) :
    0 ≤ napOf budget attempt remaining := by
  unfold napOf
  split_ifs with h
  · rw [List.sum_singleton]
    linarith
  · exact le_rfl

/-- A second is left for the next attempt, or there is no pause. -/
theorem napOf_le (budget : Budget) (attempt : ℕ) (remaining : Time) :
    napOf budget attempt remaining ≤ max 0 (remaining - 1) := by
  unfold napOf
  split_ifs with h
  · rw [List.sum_singleton]
    exact min_le_right _ _
  · exact le_max_left _ _

/-- The timeout that an attempt gets. -/
def timeoutOf (budget : Budget) (attempt : ℕ) (remaining : Time) : Time :=
  if attempt = 0 then budget.timeout else max 1 remaining

/-- The clock after the connections of an attempt. -/
def endOf (budget : Budget) (net : Net) (wait : Waits) (allowLoopback : Bool) (ips : List Ip)
    (attempt : ℕ) (deadline clock : Time) : Time :=
  clock + spent (timeoutOf budget attempt (deadline - clock)) (wait attempt)
    (tryOnce net allowLoopback ips attempt
      (timeoutOf budget attempt (deadline - clock))).dials.length

/-- The deadline after a failed attempt. -/
def deadlineOf (budget : Budget) (attempt : ℕ) (deadline ended : Time) (extended : Bool) (exc : Exc) :
    Time :=
  if attempt = 0 && !extended && isTimeout exc then ended + budget.timeout else deadline

/-- How the loop goes on from the top of an attempt: it is over at once, over when the attempt has
ended, or goes on after a pause. -/
theorem timedLoop_cases (exceptionToReason : Exc → String) (budget : Budget) (net : Net)
    (wait : Waits) (allowLoopback : Bool) (ips : List Ip) (fuel attempt : ℕ) (deadline : Time)
    (extended : Bool) (clock : Time) :
    (deadline ≤ clock ∧
      (timedLoop exceptionToReason budget net wait allowLoopback ips (fuel + 1) attempt deadline
        extended clock).clock = clock) ∨
    (clock < deadline ∧ ∃ ended, ended = endOf budget net wait allowLoopback ips attempt deadline clock ∧
      ((timedLoop exceptionToReason budget net wait allowLoopback ips (fuel + 1) attempt deadline
          extended clock).clock = ended ∧
        (∀ exc, (tryOnce net allowLoopback ips attempt
            (timeoutOf budget attempt (deadline - clock))).ended = .error exc →
          budget.retries ≤ attempt + 1 ∨
            deadlineOf budget attempt deadline ended extended exc ≤ ended ∨ 1024 ≤ attempt) ∨
      ∃ exc later, (tryOnce net allowLoopback ips attempt
            (timeoutOf budget attempt (deadline - clock))).ended = .error exc ∧
        later = deadlineOf budget attempt deadline ended extended exc ∧
        (attempt : ℤ) + 1 < budget.retries ∧ ended < later ∧ ∃ extended',
          (timedLoop exceptionToReason budget net wait allowLoopback ips (fuel + 1) attempt deadline
            extended clock).clock =
            (timedLoop exceptionToReason budget net wait allowLoopback ips fuel (attempt + 1) later
              extended' (ended + napOf budget attempt (later - ended))).clock)) := by
  rw [timedLoop]
  dsimp only
  by_cases hleft : deadline - clock ≤ 0
  · rw [if_pos hleft]
    exact .inl ⟨by linarith, rfl⟩
  · rw [if_neg hleft]
    refine .inr ⟨by linarith, _, rfl, ?_⟩
    unfold endOf
    have htimeout : timeoutOf budget attempt (deadline - clock) =
        if attempt = 0 then (budget.timeout : Time) else max 1 (deadline - clock) := rfl
    rw [← htimeout]
    generalize timeoutOf budget attempt (deadline - clock) = timeout
    generalize clock + spent timeout (wait attempt) _ = ended
    cases hmade : (tryOnce net allowLoopback ips attempt timeout).ended with
    | ok deliveryId => exact .inl ⟨rfl, fun exc h => by cases h⟩
    | error exc =>
      have hlater : deadlineOf budget attempt deadline ended extended exc =
          if attempt = 0 && !extended && isTimeout exc then ended + (budget.timeout : Time)
            else deadline := rfl
      dsimp only
      rw [← hlater]
      by_cases hgo : (attempt : ℤ) < budget.retries - 1 ∧
          deadlineOf budget attempt deadline ended extended exc - ended > 0
      · rw [if_pos hgo]
        by_cases hbig : 1024 ≤ attempt
        · rw [if_pos hbig]
          exact .inl ⟨rfl, fun _ _ => .inr (.inr hbig)⟩
        · rw [if_neg hbig]
          exact .inr ⟨exc, _, rfl, rfl, by omega, by linarith [hgo.2], _, rfl⟩
      · rw [if_neg hgo]
        refine .inl ⟨rfl, fun exc' h => ?_⟩
        obtain rfl := Except.error.inj h
        by_contra hcon
        rw [not_or, not_or, not_le, not_le] at hcon
        exact hgo ⟨by omega, by linarith [hcon.2.1]⟩

/-! ## The ceiling -/

/-- Every schedule of the call is over within two timeouts of the moment its deadline was computed. -/
def WithinBudget (budget : Budget) (allowLoopback : Bool) (ips : List Ip) : Prop :=
  ∀ (exceptionToReason : Exc → String) (net : Net) (wait : Waits), (∀ attempt k, 0 ≤ wait attempt k) →
    (timedDelivery exceptionToReason budget net wait allowLoopback ips).clock ≤
      net.opened + 2 * budget.timeout

theorem timeoutOf_nonneg (hT : 1 ≤ budget.timeout) (attempt : ℕ) (remaining : Time) :
    0 ≤ timeoutOf budget attempt remaining := by
  have hT : (1 : Time) ≤ budget.timeout := by exact_mod_cast hT
  unfold timeoutOf
  split_ifs
  · linarith
  · exact zero_le_one.trans (le_max_left _ _)

theorem endOf_ge (hT : 1 ≤ budget.timeout) (hwait : ∀ attempt k, 0 ≤ wait attempt k) (attempt : ℕ)
    (deadline clock : Time) :
    clock ≤ endOf budget net wait allowLoopback ips attempt deadline clock := by
  have hspent := spent_nonneg (timeoutOf_nonneg hT attempt (deadline - clock)) (hwait attempt)
    (tryOnce net allowLoopback ips attempt
      (timeoutOf budget attempt (deadline - clock))).dials.length
  unfold endOf
  linarith

theorem endOf_le (hT : 1 ≤ budget.timeout) (attempt : ℕ) (deadline clock : Time) :
    endOf budget net wait allowLoopback ips attempt deadline clock ≤
      clock + ips.length * timeoutOf budget attempt (deadline - clock) := by
  have hspent := spent_le (timeoutOf_nonneg hT attempt (deadline - clock)) (wait attempt)
    (tryOnce_length net allowLoopback ips attempt (timeoutOf budget attempt (deadline - clock)))
  unfold endOf
  linarith

/-- The clock of the loop only runs on. -/
theorem timedLoop_ge (hT : 1 ≤ budget.timeout) (hwait : ∀ attempt k, 0 ≤ wait attempt k)
    (fuel : ℕ) : ∀ (attempt : ℕ) (deadline : Time) (extended : Bool) (clock : Time),
    clock ≤ (timedLoop exceptionToReason budget net wait allowLoopback ips fuel attempt deadline
      extended clock).clock := by
  induction fuel with
  | zero => exact fun _ _ _ _ => le_rfl
  | succ fuel ih =>
    intro attempt deadline extended clock
    rcases timedLoop_cases exceptionToReason budget net wait allowLoopback ips fuel attempt deadline
      extended clock with ⟨-, heq⟩ | ⟨-, ended, hended, ⟨heq, -⟩ | ⟨_, later, -, -, -, -, _, heq⟩⟩
    · rw [heq]
    · rw [heq, hended]
      exact endOf_ge hT hwait attempt deadline clock
    · have hge : clock ≤ ended := hended ▸ endOf_ge hT hwait attempt deadline clock
      have hnap := napOf_nonneg budget attempt (later - ended)
      rw [heq]
      exact le_trans (by linarith) (ih _ _ _ _)

/-- An attempt that begins is part of the call. -/
theorem endOf_le_clock (hT : 1 ≤ budget.timeout) (hwait : ∀ attempt k, 0 ≤ wait attempt k)
    {fuel attempt : ℕ} {deadline : Time} {extended : Bool} {clock : Time} (hleft : clock < deadline) :
    endOf budget net wait allowLoopback ips attempt deadline clock ≤
      (timedLoop exceptionToReason budget net wait allowLoopback ips (fuel + 1) attempt deadline
        extended clock).clock := by
  rcases timedLoop_cases exceptionToReason budget net wait allowLoopback ips fuel attempt deadline
    extended clock with ⟨hover, -⟩ | ⟨-, ended, hended, ⟨heq, -⟩ | ⟨_, later, -, -, -, -, _, heq⟩⟩
  · exact absurd hleft (not_lt.mpr hover)
  · rw [heq, hended]
  · have hnap := napOf_nonneg budget attempt (later - ended)
    rw [heq, ← hended]
    exact le_trans (by linarith) (timedLoop_ge hT hwait _ _ _ _ _)

/-- A failed attempt with time and attempts left is followed by another. -/
theorem timedLoop_again {fuel attempt : ℕ} {deadline : Time} {extended : Bool} {clock ended : Time}
    {exc : Exc} (hleft : clock < deadline)
    (hended : endOf budget net wait allowLoopback ips attempt deadline clock = ended)
    (hexc : (tryOnce net allowLoopback ips attempt
      (timeoutOf budget attempt (deadline - clock))).ended = .error exc)
    (hretries : (attempt : ℤ) + 1 < budget.retries) (hfits : attempt < 1024)
    (hlater : ended < deadlineOf budget attempt deadline ended extended exc) :
    ∃ extended',
      (timedLoop exceptionToReason budget net wait allowLoopback ips (fuel + 1) attempt deadline
          extended clock).clock =
        (timedLoop exceptionToReason budget net wait allowLoopback ips fuel (attempt + 1)
          (deadlineOf budget attempt deadline ended extended exc) extended'
          (ended + napOf budget attempt
            (deadlineOf budget attempt deadline ended extended exc - ended))).clock := by
  rcases timedLoop_cases exceptionToReason budget net wait allowLoopback ips fuel attempt deadline
    extended clock with ⟨hover, -⟩ | ⟨-, ended', hended', h⟩
  · exact absurd hleft (not_lt.mpr hover)
  · obtain rfl : ended' = ended := hended'.trans hended
    rcases h with ⟨-, hspent⟩ | ⟨exc', later, hexc', rfl, -, -, extended', heq⟩
    · rcases hspent exc hexc with hlast | hover | hbig
      · omega
      · exact absurd hlater (not_lt.mpr hover)
      · omega
    · obtain rfl : exc = exc' := Except.error.inj (hexc.symm.trans hexc')
      exact ⟨extended', heq⟩

/-! ### Where the ceiling holds -/

theorem timeoutOf_zero (remaining : Time) : timeoutOf budget 0 remaining = budget.timeout := rfl

theorem timeoutOf_succ (attempt : ℕ) (remaining : Time) :
    timeoutOf budget (attempt + 1) remaining = max 1 remaining := rfl

theorem endOf_zero_le (hT : 1 ≤ budget.timeout) (deadline : Time) :
    endOf budget net wait allowLoopback ips 0 deadline net.opened ≤
      net.opened + ips.length * budget.timeout := by
  rw [← timeoutOf_zero (deadline - net.opened)]
  exact endOf_le hT 0 deadline net.opened

/-- One attempt takes a timeout for each address. -/
theorem timedDelivery_once (hT : 1 ≤ budget.timeout) (hretries : budget.retries = 1) :
    (timedDelivery exceptionToReason budget net wait allowLoopback ips).clock ≤
      net.opened + max 1 (ips.length : Time) * budget.timeout := by
  have hT' : (1 : Time) ≤ budget.timeout := by exact_mod_cast hT
  have hfuel : budget.retries.toNat = 0 + 1 := by omega
  have hone : (1 : Time) * budget.timeout ≤ max 1 (ips.length : Time) * budget.timeout :=
    mul_le_mul_of_nonneg_right (le_max_left _ _) (by linarith)
  have hmany : (ips.length : Time) * budget.timeout ≤ max 1 (ips.length : Time) * budget.timeout :=
    mul_le_mul_of_nonneg_right (le_max_right _ _) (by linarith)
  unfold timedDelivery
  rw [hfuel]
  rcases timedLoop_cases exceptionToReason budget net wait allowLoopback ips 0 0
    (net.opened + budget.timeout) false net.opened with
    ⟨-, heq⟩ | ⟨-, ended, hended, ⟨heq, -⟩ | ⟨_, _, -, -, hgo, -⟩⟩
  · rw [heq]
    linarith
  · have hle := hended.trans_le (endOf_zero_le hT _)
    rw [heq]
    linarith
  · rw [hretries] at hgo
    exact absurd hgo (by decide)

/-- Two attempts at one address: the second begins a second before the deadline where that was put
off, and a whole timeout before the ceiling where it was not. -/
theorem timedDelivery_twice (hT : 1 ≤ budget.timeout) (hretries : budget.retries = 2)
    (hips : ips.length = 1) :
    (timedDelivery exceptionToReason budget net wait allowLoopback ips).clock ≤
      net.opened + 2 * budget.timeout := by
  have hT' : (1 : Time) ≤ budget.timeout := by exact_mod_cast hT
  have hfuel : budget.retries.toNat = 1 + 1 := by omega
  unfold timedDelivery
  rw [hfuel]
  rcases timedLoop_cases exceptionToReason budget net wait allowLoopback ips 1 0
    (net.opened + budget.timeout) false net.opened with
    ⟨-, heq⟩ | ⟨-, ended, hended, hrest⟩
  · rw [heq]
    linarith
  · have hle := hended.trans_le (endOf_zero_le hT _)
    rw [hips, Nat.cast_one, one_mul] at hle
    rcases hrest with ⟨heq, -⟩ | ⟨exc, later, -, hlater, -, hgo, extended', heq⟩
    · rw [heq]
      linarith
    · -- what is left when the second attempt begins, and where its deadline lies
      have hnap := napOf_le budget 0 (later - ended)
      have hbegin : ended + napOf budget 0 (later - ended) + 1 ≤ net.opened + 2 * budget.timeout ∧
          later ≤ net.opened + 2 * budget.timeout := by
        unfold deadlineOf at hlater
        split_ifs at hlater
        · rw [hlater, add_sub_cancel_left, max_eq_right (by linarith)] at hnap
          rw [hlater]
          rw [add_sub_cancel_left]
          exact ⟨by linarith, by linarith⟩
        · rcases le_total (later - ended - 1) 0 with hshort | hlong
          · rw [max_eq_left hshort] at hnap
            exact ⟨by linarith, by linarith⟩
          · rw [max_eq_right hlong] at hnap
            exact ⟨by linarith, by linarith⟩
      rw [heq]
      generalize ended + napOf budget 0 (later - ended) = clock at hbegin
      rcases timedLoop_cases exceptionToReason budget net wait allowLoopback ips 0 1 later extended'
        clock with ⟨-, heq'⟩ | ⟨-, ended', hended', ⟨heq', -⟩ | ⟨_, _, -, -, hgo', -⟩⟩
      · rw [heq']
        linarith [hbegin.1]
      · have hle' : endOf budget net wait allowLoopback ips 1 later clock ≤
            clock + ips.length * timeoutOf budget 1 (later - clock) := endOf_le hT 1 _ _
        rw [timeoutOf_succ, hips, Nat.cast_one, one_mul, ← hended'] at hle'
        have hmax : clock + max 1 (later - clock) ≤ net.opened + 2 * budget.timeout := by
          rcases le_total 1 (later - clock) with hlong | hshort
          · rw [max_eq_right hlong]
            linarith [hbegin.2]
          · rw [max_eq_left hshort]
            linarith [hbegin.1]
        rw [heq']
        exact hle'.trans hmax
      · rw [hretries] at hgo'
        exact absurd hgo' (by decide)

theorem withinBudget_of_small (hT : 1 ≤ budget.timeout) (hne : ips ≠ [])
    (h : budget.retries ≤ 0 ∨ budget.retries + ips.length ≤ 3) :
    WithinBudget budget allowLoopback ips := by
  intro exceptionToReason net wait _
  have hT' : (1 : Time) ≤ budget.timeout := by exact_mod_cast hT
  have hlength : 0 < ips.length := List.length_pos_of_ne_nil hne
  rcases le_or_gt budget.retries 0 with hnone | hsome
  · unfold timedDelivery
    rw [Int.toNat_of_nonpos hnone]
    show net.opened ≤ net.opened + 2 * budget.timeout
    linarith
  · have hsum : budget.retries + ips.length ≤ 3 := h.resolve_left (not_le.mpr hsome)
    rcases (by omega : budget.retries = 1 ∨ budget.retries = 2) with hone | htwo
    · have hfew : (ips.length : Time) ≤ 2 := by exact_mod_cast (by omega : ips.length ≤ 2)
      refine (timedDelivery_once hT hone).trans ?_
      have hmax : max 1 (ips.length : Time) * budget.timeout ≤ 2 * budget.timeout :=
        mul_le_mul_of_nonneg_right (max_le (by norm_num) hfew) (by linarith)
      linarith
    · exact timedDelivery_twice hT htwo (by omega)

/-! ### Where it does not -/

/-- Every connection of the call times out. -/
def stalled : Net where
  resolved := .ok []
  dial := fun _ _ => .timedOut
  opened := 0
  tried := fun _ => 0
  failed := fun _ => 0
  left := fun _ => 0

theorem pinnedRequest_stalled (attempt : ℕ)
    (hips : ∀ ip ∈ ips, isIpBlocked allowLoopback ip = false) :
    ∀ lastExc, pinnedRequest allowLoopback (stalled.dial attempt) lastExc ips =
      (ips, .error (if ips = [] then
        lastExc.getD (.other "Could not connect to any resolved IP") else .timeout)) := by
  induction ips with
  | nil => exact fun _ => rfl
  | cons ip rest ih =>
    obtain ⟨hip, hrest⟩ := List.forall_mem_cons.mp hips
    intro lastExc
    unfold pinnedRequest
    rw [hip, if_neg Bool.false_ne_true]
    show (ip :: (pinnedRequest allowLoopback (stalled.dial attempt) (some .timeout) rest).1,
      (pinnedRequest allowLoopback (stalled.dial attempt) (some .timeout) rest).2) = _
    rw [ih hrest, if_neg (List.cons_ne_nil ip rest)]
    split_ifs <;> rfl

/-- A stalled attempt dials every address, and gets no answer. -/
theorem tryOnce_stalled (hne : ips ≠ []) (hips : ∀ ip ∈ ips, isIpBlocked allowLoopback ip = false)
    (attempt : ℕ) (timeout : Time) :
    (tryOnce stalled allowLoopback ips attempt timeout).dials.length = ips.length ∧
      (tryOnce stalled allowLoopback ips attempt timeout).ended = .error .timeout := by
  have hrequest : stalled.request allowLoopback ips attempt = (ips, .error .timeout) := by
    show pinnedRequest allowLoopback (stalled.dial attempt) none ips = _
    rw [pinnedRequest_stalled attempt hips, if_neg hne]
  unfold tryOnce
  rw [hrequest]
  exact ⟨List.length_map _, rfl⟩

theorem endOf_stalled (hne : ips ≠ []) (hips : ∀ ip ∈ ips, isIpBlocked allowLoopback ip = false)
    (attempt : ℕ) (deadline clock : Time) :
    endOf budget stalled wait allowLoopback ips attempt deadline clock =
      clock + spent (timeoutOf budget attempt (deadline - clock)) (wait attempt) ips.length := by
  unfold endOf
  rw [(tryOnce_stalled hne hips attempt _).1]

theorem spent_const (timeout value : Time) (dials : ℕ) :
    spent timeout (fun _ => value) dials = dials * min timeout value := by
  induction dials with
  | zero => simp [spent]
  | succ dials ih =>
    rw [spent_succ, ih, Nat.cast_succ, add_mul, one_mul]

/-- After the first attempt of a stalled call: the deadline is put off, and the second begins. -/
theorem stalled_second (exceptionToReason : Exc → String) (hT : 1 ≤ budget.timeout) (hne : ips ≠ [])
    (hips : ∀ ip ∈ ips, isIpBlocked allowLoopback ip = false) (hretries : 2 ≤ budget.retries)
    {ended : Time} (hended : endOf budget stalled wait allowLoopback ips 0 budget.timeout 0 = ended)
    (fuel : ℕ) :
    ∃ extended', (timedLoop exceptionToReason budget stalled wait allowLoopback ips (fuel + 1) 0
        budget.timeout false 0).clock =
      (timedLoop exceptionToReason budget stalled wait allowLoopback ips fuel 1
        (ended + budget.timeout) extended' (ended + napOf budget 0 budget.timeout)).clock := by
  have hT' : (1 : Time) ≤ budget.timeout := by exact_mod_cast hT
  have hlater : deadlineOf budget 0 budget.timeout ended false .timeout = ended + budget.timeout := rfl
  have hagain := @timedLoop_again exceptionToReason budget stalled wait allowLoopback ips fuel 0
    budget.timeout false 0 ended .timeout (by linarith) hended (tryOnce_stalled hne hips 0 _).2
    (by omega) (by decide) (by rw [hlater]; linarith)
  rwa [hlater, add_sub_cancel_left] at hagain

/-- A second is left when the second attempt begins. -/
theorem napOf_second (hT : 1 ≤ budget.timeout) :
    0 ≤ napOf budget 0 budget.timeout ∧ napOf budget 0 budget.timeout ≤ budget.timeout - 1 := by
  have hT' : (1 : Time) ≤ budget.timeout := by exact_mod_cast hT
  refine ⟨napOf_nonneg budget 0 _, ?_⟩
  have hle := napOf_le budget 0 budget.timeout
  rwa [max_eq_right (by linarith)] at hle

/-- Many addresses: each of them takes the whole timeout. -/
theorem stalled_many (exceptionToReason : Exc → String) (hT : 1 ≤ budget.timeout) (hne : ips ≠ [])
    (hips : ∀ ip ∈ ips, isIpBlocked allowLoopback ip = false) (hpos : 0 < budget.retries)
    (hmany : 2 ≤ ips.length) (hsum : 3 < budget.retries + ips.length) :
    2 * (budget.timeout : Time) <
      (timedLoop exceptionToReason budget stalled (fun _ _ => budget.timeout) allowLoopback ips
        budget.retries.toNat 0 budget.timeout false 0).clock := by
  have hT' : (1 : Time) ≤ budget.timeout := by exact_mod_cast hT
  have hwait : ∀ attempt k : ℕ, (0 : Time) ≤ (fun _ _ => (budget.timeout : Time)) attempt k := by
    intro _ _
    show (0 : Time) ≤ budget.timeout
    linarith
  have hended : endOf budget stalled (fun _ _ => budget.timeout) allowLoopback ips 0 budget.timeout 0 =
      ips.length * budget.timeout := by
    rw [endOf_stalled hne hips, timeoutOf_zero, spent_const, min_self, zero_add]
  obtain ⟨fuel, hfuel⟩ : ∃ fuel, budget.retries.toNat = fuel + 1 :=
    ⟨budget.retries.toNat - 1, by omega⟩
  rw [hfuel]
  rcases (by omega : 3 ≤ ips.length ∨ ips.length = 2) with hthree | htwo
  · apply lt_of_lt_of_le ?_ (endOf_le_clock hT hwait (by linarith))
    have hcast : (3 : Time) ≤ ips.length := by exact_mod_cast hthree
    have hprod : 3 * (budget.timeout : Time) ≤ ips.length * budget.timeout :=
      mul_le_mul_of_nonneg_right hcast (by linarith)
    rw [hended]
    linarith
  · obtain ⟨rest, rfl⟩ : ∃ rest, fuel = rest + 1 := ⟨fuel - 1, by omega⟩
    obtain ⟨extended', heq⟩ := stalled_second exceptionToReason hT hne hips (by omega) hended (rest + 1)
    obtain ⟨hnap, hnap'⟩ := napOf_second hT
    rw [heq]
    apply lt_of_lt_of_le ?_ (endOf_le_clock hT hwait (by linarith))
    have htime : (0 : Time) < min (timeoutOf budget 1 (2 * budget.timeout + budget.timeout -
        (2 * budget.timeout + napOf budget 0 budget.timeout))) budget.timeout := by
      rw [timeoutOf_succ]
      exact lt_min (lt_of_lt_of_le one_pos (le_max_left _ _)) (by linarith)
    rw [endOf_stalled hne hips, spent_const, htwo]
    push_cast
    linarith

/-- How long the connections of a stalled call at one address take: the first its whole timeout, the
second until half a second before the deadline, the third the second it gets. -/
def lastMoment (budget : Budget) : Waits := fun attempt _ =>
  match attempt with
  | 0 => budget.timeout
  | 1 => budget.timeout - napOf budget 0 budget.timeout - 1 / 2
  | _ => 1

theorem lastMoment_nonneg (hT : 1 ≤ budget.timeout) (attempt k : ℕ) :
    0 ≤ lastMoment budget attempt k := by
  have hT' : (1 : Time) ≤ budget.timeout := by exact_mod_cast hT
  obtain ⟨-, hnap⟩ := napOf_second hT
  match attempt with
  | 0 =>
    show (0 : Time) ≤ budget.timeout
    linarith
  | 1 =>
    show (0 : Time) ≤ budget.timeout - napOf budget 0 budget.timeout - 1 / 2
    linarith
  | _ + 2 => exact zero_le_one

theorem spent_lastMoment (hone : ips.length = 1) (attempt : ℕ) (timeout : Time) :
    spent timeout (lastMoment budget attempt) ips.length = min timeout (lastMoment budget attempt 0) := by
  rw [hone, spent_succ]
  simp [spent]

/-- The second attempt ends half a second before the deadline. -/
theorem endOf_lastMoment (hT : 1 ≤ budget.timeout)
    (hips : ∀ ip ∈ ips, isIpBlocked allowLoopback ip = false) (hone : ips.length = 1) :
    endOf budget stalled (lastMoment budget) allowLoopback ips 1 (budget.timeout + budget.timeout)
      (budget.timeout + napOf budget 0 budget.timeout) = 2 * budget.timeout - 1 / 2 := by
  have hne : ips ≠ [] := List.ne_nil_of_length_pos (by omega)
  obtain ⟨hnap, hnap'⟩ := napOf_second hT
  have hleft : (budget.timeout : Time) + budget.timeout -
      (budget.timeout + napOf budget 0 budget.timeout) =
        budget.timeout - napOf budget 0 budget.timeout := by ring
  have htime : lastMoment budget 1 0 = budget.timeout - napOf budget 0 budget.timeout - 1 / 2 := rfl
  rw [endOf_stalled hne hips, spent_lastMoment hone, timeoutOf_succ, hleft, htime,
    max_eq_right (by linarith), min_eq_right (by linarith)]
  ring

/-- Three attempts: the last begins half a second before the deadline, and takes a second. -/
theorem stalled_thrice (exceptionToReason : Exc → String) (hT : 1 ≤ budget.timeout)
    (hips : ∀ ip ∈ ips, isIpBlocked allowLoopback ip = false) (hone : ips.length = 1)
    (hthree : 3 ≤ budget.retries) :
    2 * (budget.timeout : Time) <
      (timedLoop exceptionToReason budget stalled (lastMoment budget) allowLoopback ips
        budget.retries.toNat 0 budget.timeout false 0).clock := by
  have hT' : (1 : Time) ≤ budget.timeout := by exact_mod_cast hT
  have hne : ips ≠ [] := List.ne_nil_of_length_pos (by omega)
  obtain ⟨hnap, hnap'⟩ := napOf_second hT
  have hfirst : endOf budget stalled (lastMoment budget) allowLoopback ips 0 budget.timeout 0 =
      budget.timeout := by
    rw [endOf_stalled hne hips, spent_lastMoment hone, timeoutOf_zero, zero_add]
    exact min_self _
  obtain ⟨fuel, hfuel⟩ : ∃ fuel, budget.retries.toNat = fuel + 2 + 1 :=
    ⟨budget.retries.toNat - 3, by omega⟩
  obtain ⟨extended', heq⟩ := stalled_second exceptionToReason hT hne hips (by omega) hfirst (fuel + 2)
  have hlater : deadlineOf budget 1 (budget.timeout + budget.timeout) (2 * budget.timeout - 1 / 2)
      extended' .timeout = budget.timeout + budget.timeout := rfl
  obtain ⟨extended'', heq'⟩ := @timedLoop_again exceptionToReason budget stalled (lastMoment budget)
    allowLoopback ips (fuel + 1) 1 (budget.timeout + budget.timeout) extended'
    (budget.timeout + napOf budget 0 budget.timeout) (2 * budget.timeout - 1 / 2) .timeout
    (by linarith) (endOf_lastMoment hT hips hone) (tryOnce_stalled hne hips 1 _).2
    (by push_cast; omega) (by decide) (by rw [hlater]; linarith)
  -- no pause follows, since less than a second is left
  have hhalf : (budget.timeout : Time) + budget.timeout - (2 * budget.timeout - 1 / 2) = 1 / 2 := by
    ring
  have hpause : napOf budget 1 (1 / 2) = 0 := by
    apply le_antisymm ?_ (napOf_nonneg budget 1 _)
    exact (napOf_le budget 1 _).trans (by norm_num)
  rw [hlater, hhalf, hpause, add_zero] at heq'
  rw [hfuel, heq, heq']
  apply lt_of_lt_of_le ?_ (endOf_le_clock hT (lastMoment_nonneg hT) (by linarith))
  have htime : min (max 1 (1 / 2)) (lastMoment budget 2 0) = 1 := by
    show min (max 1 (1 / 2)) (1 : Time) = 1
    norm_num
  rw [endOf_stalled hne hips, spent_lastMoment hone, timeoutOf_succ, hhalf, htime]
  linarith

/-- **The budget of a delivery.** Every schedule of connections and pauses is over within two
timeouts exactly where there are no attempts at all, one address and at most two attempts, or two
addresses and one attempt. -/
theorem delivery_within_iff {budget : Budget} {allowLoopback : Bool} {ips : List Ip}
    (hT : 1 ≤ budget.timeout) (hne : ips ≠ [])
    (hips : ∀ ip ∈ ips, isIpBlocked allowLoopback ip = false) :
    WithinBudget budget allowLoopback ips ↔
      budget.retries ≤ 0 ∨ budget.retries + ips.length ≤ 3 := by
  refine ⟨fun h => ?_, withinBudget_of_small hT hne⟩
  have hlength : 0 < ips.length := List.length_pos_of_ne_nil hne
  have hstart : stalled.opened + (budget.timeout : Time) = budget.timeout := zero_add _
  by_contra hcon
  rw [not_or, not_le, not_le] at hcon
  have hT' : (1 : Time) ≤ budget.timeout := by exact_mod_cast hT
  have hopened : stalled.opened = 0 := rfl
  rcases (by omega : 2 ≤ ips.length ∨ ips.length = 1) with hmany | hone
  · have hceiling := h (fun _ => "") stalled (fun _ _ => budget.timeout) fun _ _ => by linarith
    unfold timedDelivery at hceiling
    rw [hstart, hopened, zero_add] at hceiling
    exact absurd (stalled_many (fun _ => "") hT hne hips hcon.1 hmany hcon.2) (not_lt.mpr hceiling)
  · have hceiling := h (fun _ => "") stalled (lastMoment budget) (lastMoment_nonneg hT)
    unfold timedDelivery at hceiling
    rw [hstart, hopened, zero_add] at hceiling
    exact absurd (stalled_thrice (fun _ => "") hT hips hone (by omega)) (not_lt.mpr hceiling)

theorem delivery_within_iff_two_attempts :
    WithinBudget { retries := 2 } false [{ text := "1.2.3.4" }] :=
  (delivery_within_iff (by decide) (by decide) (by decide)).mpr (.inr (by decide))

/-- With the defaults, the third attempt begins half a second before the deadline and takes a second:
the call is over after 20.5 seconds. -/
theorem delivery_over_budget :
    (timedDelivery (fun _ => "") {} stalled (lastMoment {}) false [{ text := "1.2.3.4" }]).clock =
        41 / 2 ∧
      ¬ WithinBudget {} false [{ text := "1.2.3.4" }] := by
  have hclock : (timedDelivery (fun _ => "") {} stalled (lastMoment {}) false
      [{ text := "1.2.3.4" }]).clock = 41 / 2 := by decide +kernel
  refine ⟨hclock, fun h => ?_⟩
  have hceiling := h (fun _ => "") stalled (lastMoment {}) (lastMoment_nonneg (by decide))
  rw [hclock] at hceiling
  revert hceiling
  decide +kernel

end HermesMesh
