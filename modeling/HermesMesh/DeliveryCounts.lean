import HermesMesh.DeliveryOutcome

/-!
# What a delivery counts, and when it is exact

`_deliver_webhook` counts `send.total` for the answer that ends it, and `send.failed` where its last
attempt failed and nothing is left. It counts nothing where the URL is refused, where no retry is
allowed, or where the budget is spent before an attempt. Which of these it is can be read off the
network and the clock (`Lands`, `GivesUp`): `deliverWebhook_counts`. So can the one exception of the
loop (`BackoffOverflows`), and with it when a call returns a pair of which one is there
(`delivery_exact_iff`).
-/

namespace HermesMesh

variable (budget : Budget) (net : Net) (allowLoopback : Bool) (ips : List Ip)

/-- How the `try` of an attempt ends. -/
def Net.answer (index : ℕ) : Except Exc Json :=
  (net.request allowLoopback ips index).2.bind readDeliveryId

/-- The first attempt timed out. -/
def Net.slowStart : Bool :=
  match net.answer allowLoopback ips 0 with
  | .ok _ => false
  | .error exc => isTimeout exc

/-- The deadline once the first attempt is over. -/
def Net.dueLater : Time :=
  if net.slowStart allowLoopback ips then net.failed 0 + budget.timeout
  else net.opened + budget.timeout

/-- The deadline at the top of an attempt. -/
def Net.dueAt (index : ℕ) : Time :=
  if index = 0 then net.opened + budget.timeout else net.dueLater budget allowLoopback ips

/-- The attempt is made in time and fails, and another one comes after it: the pause before that one
can be computed. -/
structure GoesOn (index : ℕ) : Prop where
  inTime : net.tried index < net.dueAt budget allowLoopback ips index
  fails : ∃ exc, net.answer allowLoopback ips index = .error exc
  timeLeft : net.left index < net.dueLater budget allowLoopback ips
  more : (index : ℤ) + 1 < budget.retries
  fits : index < 1024

/-- The loop comes to the attempt. -/
inductive Comes : ℕ → Prop
  | first (h : 0 < budget.retries) : Comes 0
  | next {index : ℕ} (hcomes : Comes index) (h : GoesOn budget net allowLoopback ips index) :
      Comes (index + 1)

/-- The attempt is made. -/
def Makes (index : ℕ) : Prop :=
  Comes budget net allowLoopback ips index ∧
    net.tried index < net.dueAt budget allowLoopback ips index

/-- An attempt that is made is answered under this id. -/
def Lands (deliveryId : Json) : Prop :=
  ∃ index, Makes budget net allowLoopback ips index ∧
    net.answer allowLoopback ips index = .ok deliveryId

/-- An attempt that is made fails, and nothing is left. -/
def GivesUp : Prop :=
  ∃ index, Makes budget net allowLoopback ips index ∧
    (∃ exc, net.answer allowLoopback ips index = .error exc) ∧
    (budget.retries ≤ (index : ℤ) + 1 ∨ net.dueLater budget allowLoopback ips ≤ net.left index)

/-- The budget is spent before an attempt. -/
def Overdue : Prop :=
  ∃ index, Comes budget net allowLoopback ips index ∧
    net.dueAt budget allowLoopback ips index ≤ net.tried index

/-- An attempt fails with another one allowed and time left, and no float holds its `2 ** attempt`. -/
def BackoffOverflows : Prop :=
  ∃ index, Makes budget net allowLoopback ips index ∧
    (∃ exc, net.answer allowLoopback ips index = .error exc) ∧
    net.left index < net.dueLater budget allowLoopback ips ∧ (index : ℤ) + 1 < budget.retries ∧
    1024 ≤ index

/-- How a loop that returns ends, and what it counts. -/
inductive Counts (d : Delivery) : Prop
  | landed (h : Lands budget net allowLoopback ips d.deliveryId) (hmetrics : d.metrics = ["total"])
      (hreason : d.reason = none)
  | overdue (h : Overdue budget net allowLoopback ips) (hid : d.deliveryId = .null)
      (hmetrics : d.metrics = []) (hreason : d.reason ≠ none)
  | gaveUp (h : GivesUp budget net allowLoopback ips) (hid : d.deliveryId = .null)
      (hmetrics : d.metrics = ["failed"]) (hreason : d.reason ≠ none)

/-- How the loop ends. -/
inductive Finishes (d : Delivery) : Prop
  | returns (h : Counts budget net allowLoopback ips d) (hraised : d.raised = none)
  | raises (h : BackoffOverflows budget net allowLoopback ips)
      (hraised : d.raised = some (.other "OverflowError"))

variable {budget net allowLoopback ips} {exceptionToReason : Exc → String} {d : Delivery}

/-! ## The loop ends once -/

/-- Every attempt before one that the loop comes to went on. -/
theorem Comes.before {index : ℕ} (h : Comes budget net allowLoopback ips index) :
    ∀ earlier < index, GoesOn budget net allowLoopback ips earlier := by
  induction h with
  | first h => exact fun _ hlt => absurd hlt (Nat.not_lt_zero _)
  | next hcomes hgoes ih =>
    intro earlier hlt
    rcases Nat.lt_succ_iff_lt_or_eq.mp hlt with hlt | rfl
    · exact ih earlier hlt
    · exact hgoes

theorem ends_at {index index' : ℕ} (h : Comes budget net allowLoopback ips index)
    (h' : Comes budget net allowLoopback ips index')
    (hends : ¬ GoesOn budget net allowLoopback ips index)
    (hends' : ¬ GoesOn budget net allowLoopback ips index') : index = index' := by
  rcases Nat.lt_trichotomy index index' with hlt | heq | hlt
  · exact absurd (h'.before index hlt) hends
  · exact heq
  · exact absurd (h.before index' hlt) hends'

theorem not_goesOn_of_ok {index : ℕ} {deliveryId : Json}
    (h : net.answer allowLoopback ips index = .ok deliveryId) :
    ¬ GoesOn budget net allowLoopback ips index := by
  rintro ⟨-, ⟨exc, herr⟩, -⟩
  rw [h] at herr
  cases herr

theorem not_goesOn_of_spent {index : ℕ}
    (h : budget.retries ≤ (index : ℤ) + 1 ∨ net.dueLater budget allowLoopback ips ≤ net.left index) :
    ¬ GoesOn budget net allowLoopback ips index := by
  rintro ⟨-, -, hleft, hmore, -⟩
  rcases h with h | h
  · omega
  · exact absurd hleft (not_lt.mpr h)

theorem not_goesOn_of_overdue {index : ℕ}
    (h : net.dueAt budget allowLoopback ips index ≤ net.tried index) :
    ¬ GoesOn budget net allowLoopback ips index :=
  fun hgoes => absurd hgoes.inTime (not_lt.mpr h)

/-- A call whose pause cannot be computed ends in no other way. -/
theorem BackoffOverflows.ends (h : BackoffOverflows budget net allowLoopback ips) :
    (∀ deliveryId, ¬ Lands budget net allowLoopback ips deliveryId) ∧
      ¬ Overdue budget net allowLoopback ips ∧ ¬ GivesUp budget net allowLoopback ips := by
  obtain ⟨index, hmakes, ⟨exc, herr⟩, hleft, hmore, hbig⟩ := h
  have hends : ¬ GoesOn budget net allowLoopback ips index := fun hgoes => by
    have := hgoes.fits
    omega
  refine ⟨?_, ?_, ?_⟩
  · rintro deliveryId ⟨index', hmakes', hok⟩
    obtain rfl := ends_at hmakes.1 hmakes'.1 hends (not_goesOn_of_ok hok)
    rw [hok] at herr
    cases herr
  · rintro ⟨index', hcomes, hdue⟩
    obtain rfl := ends_at hmakes.1 hcomes hends (not_goesOn_of_overdue hdue)
    exact absurd hmakes.2 (not_lt.mpr hdue)
  · rintro ⟨index', hmakes', -, hspent⟩
    obtain rfl := ends_at hmakes.1 hmakes'.1 hends (not_goesOn_of_spent hspent)
    rcases hspent with hspent | hspent
    · omega
    · exact absurd hleft (not_lt.mpr hspent)

theorem Lands.not_givesUp {deliveryId : Json} (h : Lands budget net allowLoopback ips deliveryId) :
    ¬ GivesUp budget net allowLoopback ips := by
  rintro ⟨index, hmakes, ⟨exc, herr⟩, hspent⟩
  obtain ⟨index', hmakes', hok⟩ := h
  obtain rfl := ends_at hmakes.1 hmakes'.1 (not_goesOn_of_spent hspent) (not_goesOn_of_ok hok)
  rw [hok] at herr
  cases herr

theorem Lands.unique {deliveryId deliveryId' : Json}
    (h : Lands budget net allowLoopback ips deliveryId)
    (h' : Lands budget net allowLoopback ips deliveryId') : deliveryId = deliveryId' := by
  obtain ⟨index, hmakes, hok⟩ := h
  obtain ⟨index', hmakes', hok'⟩ := h'
  obtain rfl := ends_at hmakes.1 hmakes'.1 (not_goesOn_of_ok hok) (not_goesOn_of_ok hok')
  exact Except.ok.inj (hok.symm.trans hok')

/-- What is overdue is no attempt, and so neither lands nor gives up. -/
theorem Overdue.not_made (h : Overdue budget net allowLoopback ips) {index : ℕ}
    (hmakes : Makes budget net allowLoopback ips index) :
    GoesOn budget net allowLoopback ips index := by
  obtain ⟨late, hcomes, hdue⟩ := h
  by_contra hends
  obtain rfl := ends_at hmakes.1 hcomes hends (not_goesOn_of_overdue hdue)
  exact absurd hmakes.2 (not_lt.mpr hdue)

/-! ## The loop -/

theorem slowStart_error {exc : Exc} (h : net.answer allowLoopback ips 0 = .error exc) :
    net.slowStart allowLoopback ips = isTimeout exc := by
  unfold Net.slowStart
  rw [h]

/-- The deadline after a failed attempt, as the loop computes it. -/
theorem dueLater_eq {index : ℕ} {extended : Bool} {exc : Exc}
    (herr : net.answer allowLoopback ips index = .error exc) (hext : index = 0 → extended = false) :
    (if index = 0 && !extended && isTimeout exc then net.failed index + (budget.timeout : Time)
      else net.dueAt budget allowLoopback ips index) = net.dueLater budget allowLoopback ips := by
  unfold Net.dueAt
  by_cases h0 : index = 0
  · obtain rfl := h0
    rw [hext rfl, if_pos rfl]
    unfold Net.dueLater
    rw [slowStart_error herr]
    rfl
  · rw [if_neg h0, decide_eq_false h0]
    rfl

theorem Finishes.of_eq {d' : Delivery} (h : Finishes budget net allowLoopback ips d)
    (hid : d'.deliveryId = d.deliveryId) (hreason : d'.reason = d.reason)
    (hmetrics : d'.metrics = d.metrics) (hraised : d'.raised = d.raised) :
    Finishes budget net allowLoopback ips d' := by
  cases h with
  | returns h hno =>
    refine .returns ?_ (hraised.trans hno)
    cases h with
    | landed h hm hr => exact .landed (hid ▸ h) (hmetrics.trans hm) (hreason.trans hr)
    | overdue h hnull hm hr =>
      exact .overdue h (hid.trans hnull) (hmetrics.trans hm) (hreason ▸ hr)
    | gaveUp h hnull hm hr => exact .gaveUp h (hid.trans hnull) (hmetrics.trans hm) (hreason ▸ hr)
  | raises h hr => exact .raises h (hraised.trans hr)

/-- **One attempt**: the loop ends with it, or goes on. -/
theorem deliverLoop_attempt {fuel index : ℕ} {extended : Bool}
    (hcomes : Comes budget net allowLoopback ips index) (hext : index = 0 → extended = false)
    (hrest : GoesOn budget net allowLoopback ips index → ∀ extended,
      Finishes budget net allowLoopback ips (deliverLoop exceptionToReason budget net allowLoopback
        ips fuel (index + 1) (net.dueLater budget allowLoopback ips) extended)) :
    Finishes budget net allowLoopback ips (deliverLoop exceptionToReason budget net allowLoopback
      ips (fuel + 1) index (net.dueAt budget allowLoopback ips index) extended) := by
  unfold deliverLoop
  dsimp only
  by_cases hrem : net.dueAt budget allowLoopback ips index - net.tried index ≤ 0
  · rw [if_pos hrem]
    exact .returns (.overdue ⟨index, hcomes, sub_nonpos.mp hrem⟩ rfl rfl (by simp)) rfl
  · rw [if_neg hrem]
    have hmakes : Makes budget net allowLoopback ips index :=
      ⟨hcomes, sub_pos.mp (not_le.mp hrem)⟩
    generalize (if index = 0 then (budget.timeout : Time) else _) = timeout
    have hended : (tryOnce net allowLoopback ips index timeout).ended =
        net.answer allowLoopback ips index := rfl
    cases hanswer : net.answer allowLoopback ips index with
    | ok deliveryId =>
      rw [hended, hanswer]
      exact .returns (.landed ⟨index, hmakes, hanswer⟩ rfl rfl) rfl
    | error exc =>
      rw [hended, hanswer]
      dsimp only
      rw [dueLater_eq hanswer hext]
      by_cases hgo : (index : ℤ) < budget.retries - 1 ∧
          net.dueLater budget allowLoopback ips - net.left index > 0
      · rw [if_pos hgo]
        by_cases hbig : 1024 ≤ index
        · rw [if_pos hbig]
          exact .raises ⟨index, hmakes, ⟨exc, hanswer⟩, sub_pos.mp hgo.2, by omega, hbig⟩ rfl
        · rw [if_neg hbig]
          have hgoes : GoesOn budget net allowLoopback ips index :=
            ⟨hmakes.2, ⟨exc, hanswer⟩, sub_pos.mp hgo.2, by omega, not_le.mp hbig⟩
          exact (hrest hgoes _).of_eq rfl rfl rfl rfl
      · rw [if_neg hgo]
        refine .returns (.gaveUp ⟨index, hmakes, ⟨exc, hanswer⟩, ?_⟩ rfl rfl (by simp)) rfl
        rw [not_and_or] at hgo
        refine hgo.imp (fun h => by omega) fun h => ?_
        exact sub_nonpos.mp (not_lt.mp h)

/-- **The loop**, from an attempt that it comes to: by induction on the attempts that remain. -/
theorem deliverLoop_finishes (fuel : ℕ) :
    ∀ (index : ℕ) (extended : Bool), (index : ℤ) + fuel + 1 = budget.retries →
      Comes budget net allowLoopback ips index → (index = 0 → extended = false) →
      Finishes budget net allowLoopback ips (deliverLoop exceptionToReason budget net allowLoopback
        ips (fuel + 1) index (net.dueAt budget allowLoopback ips index) extended) := by
  induction fuel with
  | zero =>
    intro index extended hfuel hcomes hext
    refine deliverLoop_attempt hcomes hext fun hgoes => ?_
    have hmore := hgoes.more
    omega
  | succ fuel ih =>
    intro index extended hfuel hcomes hext
    refine deliverLoop_attempt hcomes hext fun hgoes extended' => ?_
    have hrest : (((index + 1 : ℕ) : ℤ)) + fuel + 1 = budget.retries := by
      push_cast at hfuel ⊢
      omega
    exact ih (index + 1) extended' hrest (.next hcomes hgoes) fun h => absurd h index.succ_ne_zero

/-! ## The call -/

variable {url : String} {signature : Except PyError String}

/-- **How the loop of a call ends.** Without retries it does not begin. -/
theorem deliverLoop_whole (exceptionToReason : Exc → String) (budget : Budget) (net : Net)
    (allowLoopback : Bool) (ips : List Ip) :
    (budget.retries ≤ 0 ∧
        deliverLoop exceptionToReason budget net allowLoopback ips budget.retries.toNat 0
          (net.opened + budget.timeout) false =
            { deliveryId := .null, reason := some "unreachable" }) ∨
      Finishes budget net allowLoopback ips (deliverLoop exceptionToReason budget net allowLoopback
        ips budget.retries.toNat 0 (net.opened + budget.timeout) false) := by
  by_cases hpos : 0 < budget.retries
  · obtain ⟨n, hn⟩ : ∃ n : ℕ, budget.retries.toNat = n + 1 := ⟨budget.retries.toNat - 1, by omega⟩
    rw [hn]
    exact .inr (deliverLoop_finishes n 0 false (by push_cast; omega) (.first hpos) fun _ => rfl)
  · rw [Int.toNat_of_nonpos (by omega)]
    exact .inl ⟨by omega, rfl⟩

/-- **What a call counts.** A URL that is refused counts nothing, nor does a call without retries;
every other call that returns ends its loop in one of three ways. -/
theorem deliverWebhook_counts
    (h : deliverWebhook exceptionToReason budget net allowLoopback url signature = .ok d) :
    (∃ text, resolveTargetUrl url net.host net.resolved allowLoopback = .error text ∧
        d.deliveryId = .null ∧ d.metrics = [] ∧ d.reason ≠ none) ∨
      ∃ ips, resolveTargetUrl url net.host net.resolved allowLoopback = .ok ips ∧
        (budget.retries ≤ 0 ∧ d.deliveryId = .null ∧ d.metrics = [] ∧ d.reason ≠ none ∨
          Counts budget net allowLoopback ips d) := by
  rcases deliverWebhook_ok h with
    ⟨text, hresolve, hid, hreason, -, hmetrics, -⟩ | ⟨ips, key, hresolve, -, hno, rfl⟩
  · exact .inl ⟨text, hresolve, hid, hmetrics, hreason⟩
  · refine .inr ⟨ips, hresolve, ?_⟩
    rcases deliverLoop_whole exceptionToReason budget net allowLoopback ips with ⟨hpos, hd⟩ | hends
    · rw [hd]
      exact .inl ⟨hpos, rfl, rfl, nofun⟩
    · cases hends with
      | returns hcounts _ => exact .inr hcounts
      | raises _ hraised =>
        rw [hraised] at hno
        cases hno

theorem Comes.pos {index : ℕ} (h : Comes budget net allowLoopback ips index) :
    0 < budget.retries := by
  induction h with
  | first h => exact h
  | next hcomes hgoes ih => exact ih

/-- The call comes back with an id exactly where an attempt is answered under one. -/
theorem deliveryId_isSome_iff
    (h : deliverWebhook exceptionToReason budget net allowLoopback url signature = .ok d) :
    d.deliveryId.isSome = true ↔
      ∃ ips, resolveTargetUrl url net.host net.resolved allowLoopback = .ok ips ∧
        ∃ deliveryId, deliveryId.isSome = true ∧ Lands budget net allowLoopback ips deliveryId := by
  rcases deliverWebhook_counts h with ⟨text, hres, hid, -⟩ | ⟨ips, hres, ⟨hpos, hid, -, -⟩ | hcounts⟩
  · rw [hid]
    refine iff_of_false Bool.false_ne_true fun ⟨ips, hres', _⟩ => ?_
    rw [hres] at hres'
    cases hres'
  · rw [hid]
    refine iff_of_false Bool.false_ne_true fun ⟨ips', _, _, _, _, hmakes, _⟩ => ?_
    exact absurd hmakes.1.pos (not_lt.mpr hpos)
  · have hsame : ∀ ips', resolveTargetUrl url net.host net.resolved allowLoopback = .ok ips' →
        ips = ips' := fun ips' hres' => Except.ok.inj (hres.symm.trans hres')
    cases hcounts with
    | landed hlands _ _ =>
      refine ⟨fun hsome => ⟨ips, hres, d.deliveryId, hsome, hlands⟩, ?_⟩
      rintro ⟨ips', hres', deliveryId, hsome, hlands'⟩
      obtain rfl := hsame ips' hres'
      rw [hlands.unique hlands']
      exact hsome
    | overdue hoverdue hid _ _ =>
      rw [hid]
      refine iff_of_false Bool.false_ne_true ?_
      rintro ⟨ips', hres', deliveryId, -, index, hmakes, hok⟩
      obtain rfl := hsame ips' hres'
      exact not_goesOn_of_ok hok (hoverdue.not_made hmakes)
    | gaveUp hgave hid _ _ =>
      rw [hid]
      refine iff_of_false Bool.false_ne_true ?_
      rintro ⟨ips', hres', deliveryId, -, hlands⟩
      obtain rfl := hsame ips' hres'
      exact hlands.not_givesUp hgave

/-- The call counts a failure of its own exactly where it gives up. -/
theorem failed_count (h : deliverWebhook exceptionToReason budget net allowLoopback url signature =
    .ok d) :
    (d.metrics.count "failed" = 1 ∧
        ∃ ips, resolveTargetUrl url net.host net.resolved allowLoopback = .ok ips ∧
          GivesUp budget net allowLoopback ips) ∨
      (d.metrics.count "failed" = 0 ∧
        ¬ ∃ ips, resolveTargetUrl url net.host net.resolved allowLoopback = .ok ips ∧
          GivesUp budget net allowLoopback ips) := by
  rcases deliverWebhook_counts h with ⟨text, hres, -, hm, -⟩ | ⟨ips, hres, ⟨hpos, -, hm, -⟩ | hcounts⟩
  · refine .inr ⟨by rw [hm]; rfl, fun ⟨ips, hres', _⟩ => ?_⟩
    rw [hres] at hres'
    cases hres'
  · refine .inr ⟨by rw [hm]; rfl, fun ⟨ips', _, _, hmakes, _⟩ => ?_⟩
    exact absurd hmakes.1.pos (not_lt.mpr hpos)
  · have hsame : ∀ ips', resolveTargetUrl url net.host net.resolved allowLoopback = .ok ips' →
        ips = ips' := fun ips' hres' => Except.ok.inj (hres.symm.trans hres')
    cases hcounts with
    | landed hlands hm _ =>
      refine .inr ⟨by rw [hm]; rfl, ?_⟩
      rintro ⟨ips', hres', hgives⟩
      obtain rfl := hsame ips' hres'
      exact hlands.not_givesUp hgives
    | overdue hoverdue _ hm _ =>
      refine .inr ⟨by rw [hm]; rfl, ?_⟩
      rintro ⟨ips', hres', index, hmakes, -, hspent⟩
      obtain rfl := hsame ips' hres'
      exact not_goesOn_of_spent hspent (hoverdue.not_made hmakes)
    | gaveUp hgives _ hm _ => exact .inl ⟨by rw [hm]; rfl, ips, hres, hgives⟩

/-- What makes a call raise, once it knows whether it may go to loopback addresses: the resolution, the
signing of a request whose target resolves, or the pause of its loop. -/
def CallRaises (budget : Budget) (net : Net) (allowLoopback : Bool) (url : String)
    (signature : Except PyError String) : Prop :=
  net.fault ≠ none ∨ ∃ ips, resolveTargetUrl url net.host net.resolved allowLoopback = .ok ips ∧
    ((∃ e, signature = .error e) ∨ BackoffOverflows budget net allowLoopback ips)

theorem deliverWebhook_raises_iff :
    (∃ e, deliverWebhook exceptionToReason budget net allowLoopback url signature = .error e) ↔
      CallRaises budget net allowLoopback url signature := by
  have hloop : ∀ ips, (∃ e, (deliverLoop exceptionToReason budget net allowLoopback ips
      budget.retries.toNat 0 (net.opened + budget.timeout) false).raised = some e) ↔
      BackoffOverflows budget net allowLoopback ips := by
    intro ips
    rcases deliverLoop_whole exceptionToReason budget net allowLoopback ips with ⟨hpos, hd⟩ | hends
    · rw [hd]
      refine iff_of_false nofun fun ⟨_, hmakes, _⟩ => ?_
      exact absurd hmakes.1.pos (not_lt.mpr hpos)
    · cases hends with
      | returns hcounts hno =>
        rw [hno]
        refine iff_of_false nofun fun hover => ?_
        cases hcounts with
        | landed hlands _ _ => exact hover.ends.1 _ hlands
        | overdue hoverdue _ _ _ => exact hover.ends.2.1 hoverdue
        | gaveUp hgives _ _ _ => exact hover.ends.2.2 hgives
      | raises hover hraised => exact iff_of_true ⟨_, hraised⟩ hover
  unfold CallRaises
  simp only [deliverWebhook_error_iff]
  cases net.fault with
  | some e => simp
  | none =>
    simp only [reduceCtorEq, false_or, true_and, ne_eq, not_true_eq_false]
    constructor
    · rintro ⟨e, ips, hips, hsigned | ⟨-, hraised⟩⟩
      · exact ⟨ips, hips, .inl ⟨e, hsigned⟩⟩
      · exact ⟨ips, hips, .inr ((hloop ips).mp ⟨e, hraised⟩)⟩
    · rintro ⟨ips, hips, h⟩
      cases hsignature : signature with
      | error e => exact ⟨e, ips, hips, .inl rfl⟩
      | ok key =>
        rcases h with ⟨e, hsigned⟩ | hover
        · cases hsignature.symm.trans hsigned
        · obtain ⟨e, hraised⟩ := (hloop ips).mpr hover
          exact ⟨e, ips, hips, .inr ⟨⟨key, rfl⟩, hraised⟩⟩

/-! ## The result is exact -/

/-- A call that returns says neither exactly where an attempt lands under an id of JSON `null`. -/
theorem reportless_iff
    (h : deliverWebhook exceptionToReason budget net allowLoopback url signature = .ok d) :
    (d.deliveryId = .null ∧ d.reason = none) ↔
      ∃ ips, resolveTargetUrl url net.host net.resolved allowLoopback = .ok ips ∧
        Lands budget net allowLoopback ips .null := by
  rcases deliverWebhook_counts h with ⟨text, hres, -, -, hr⟩ | ⟨ips, hres, ⟨hpos, -, -, hr⟩ | hcounts⟩
  · refine iff_of_false (fun hnone => hr hnone.2) fun ⟨ips, hres', _⟩ => ?_
    rw [hres] at hres'
    cases hres'
  · refine iff_of_false (fun hnone => hr hnone.2) fun ⟨_, _, _, hmakes, _⟩ => ?_
    exact absurd hmakes.1.pos (not_lt.mpr hpos)
  · have hsame : ∀ ips', resolveTargetUrl url net.host net.resolved allowLoopback = .ok ips' →
        ips = ips' := fun ips' hres' => Except.ok.inj (hres.symm.trans hres')
    cases hcounts with
    | landed hlands _ hr =>
      constructor
      · rintro ⟨hid, -⟩
        exact ⟨ips, hres, hid ▸ hlands⟩
      · rintro ⟨ips', hres', hnull⟩
        obtain rfl := hsame ips' hres'
        exact ⟨hlands.unique hnull, hr⟩
    | overdue hoverdue _ _ hr =>
      refine iff_of_false (fun hnone => hr hnone.2) ?_
      rintro ⟨ips', hres', index, hmakes, hok⟩
      obtain rfl := hsame ips' hres'
      exact not_goesOn_of_ok hok (hoverdue.not_made hmakes)
    | gaveUp hgives _ _ hr =>
      refine iff_of_false (fun hnone => hr hnone.2) ?_
      rintro ⟨ips', hres', hlands⟩
      obtain rfl := hsame ips' hres'
      exact hlands.not_givesUp hgives

/-- **When the result is exact.** A signed request comes back with an exact pair, unless the peer lands
it with an answer whose delivery id is JSON `null`, or the 1025th attempt fails with another one allowed
and time left, or the resolution of the URL raised more than a `ValueError`. -/
theorem delivery_exact_iff (exceptionToReason : Exc → String) (budget : Budget) (net : Net)
    (allowLoopback : Bool) (url key : String) :
    (∃ d, deliverWebhook exceptionToReason budget net allowLoopback url (.ok key) = .ok d ∧ Exact d) ↔
      net.fault = none ∧
        ∀ ips, resolveTargetUrl url net.host net.resolved allowLoopback = .ok ips →
          ¬ Lands budget net allowLoopback ips .null ∧
            ¬ BackoffOverflows budget net allowLoopback ips := by
  have hraises : (∃ e, deliverWebhook exceptionToReason budget net allowLoopback url (.ok key) =
      .error e) ↔ CallRaises budget net allowLoopback url (.ok key) := deliverWebhook_raises_iff
  cases hcall : deliverWebhook exceptionToReason budget net allowLoopback url (.ok key) with
  | error e =>
    refine iff_of_false nofun fun ⟨hfault, h⟩ => ?_
    rcases hraises.mp ⟨e, hcall⟩ with hfault' | ⟨ips, hips, ⟨e', hsigned⟩ | hover⟩
    · exact hfault' hfault
    · cases hsigned
    · exact (h ips hips).2 hover
  | ok d =>
    have hno : ¬ CallRaises budget net allowLoopback url (.ok key) := by
      rw [← hraises]
      rintro ⟨e, he⟩
      cases hcall.symm.trans he
    have hexact : Exact d ↔ _ := (exact_iff_reported hcall).trans (not_congr (reportless_iff hcall))
    constructor
    · rintro ⟨d', hd, h⟩
      obtain rfl := Except.ok.inj hd
      exact ⟨deliverWebhook_fault hcall, fun ips hips =>
        ⟨fun hlands => hexact.mp h ⟨ips, hips, hlands⟩,
          fun hover => hno (.inr ⟨ips, hips, .inr hover⟩)⟩⟩
    · rintro ⟨-, h⟩
      exact ⟨d, rfl, hexact.mpr fun ⟨ips, hips, hlands⟩ => (h ips hips).1 hlands⟩

/-- A peer that has the message and says so with an id of `null`. -/
def nullId : ℕ → DialOutcome :=
  fun _ => .answered 200 (some (.obj [("status", .str "duplicate"), ("delivery_id", .null)]))

theorem delivery_null_id :
    ∃ d, deliverWebhook sharedReason {} (onePeer 1 nullId) false "http://peer" (.ok "") = .ok d ∧
      ¬ Exact d := by
  have hrun : reported (deliverWebhook sharedReason {} (onePeer 1 nullId) false "http://peer"
      (.ok "")) = some (false, none, [(false, true)]) := by decide +kernel
  obtain ⟨d, hd⟩ := deliverWebhook_returns sharedReason (onePeer 1 nullId) false "http://peer" ""
    defaultRetries rfl
  rw [hd] at hrun
  obtain ⟨hid, hrest⟩ := Prod.mk.inj (Option.some.inj hrun)
  have hreason := (Prod.mk.inj hrest).1
  have hnull : d.deliveryId = .null := by
    by_contra hne
    rw [Json.isSome_iff.mpr hne] at hid
    cases hid
  exact ⟨d, hd, fun h => h.one ⟨fun _ => hreason, fun _ => hnull⟩⟩

end HermesMesh
