import HermesMesh.Delivery
import Mathlib.Tactic.Linarith

/-!
# What a delivery reports

The callers of `_deliver_webhook` ask one question of it: did the message land? They read the answer
off the delivery id. Here its two results are compared with what the peer answered.

A loop that returns ends in one of three ways (`Ends`): its last attempt landed, the budget was spent
before a further attempt, or the last attempt failed and nothing was left. Two slips follow from how
the end is reported. An id of JSON `null` is returned as it is, so a landed message counts as failed
(`exact_iff_dials`). The reason is read off the last exception alone, so a connection error after a
timeout hides that an earlier attempt may have arrived (`unknown_arrival_iff`).
-/

namespace HermesMesh

/-- The peer answered over HTTP. -/
def DialOutcome.Answered : DialOutcome → Prop
  | .answered _ _ => True
  | _ => False

instance : DecidablePred DialOutcome.Answered := fun o =>
  match o with
  | .answered _ _ => .isTrue trivial
  | .timedOut | .failed _ | .aborted _ => .isFalse id

/-- The answer says that the message is there: a JSON object below 400, or an arrival token. -/
def DialOutcome.Landed : DialOutcome → Prop
  | .answered status body =>
    (status < 400 ∧ ∃ fields, body = some (.obj fields)) ∨
      (400 ≤ status ∧ declaresArrival body = true)
  | _ => False

/-- The delivery id that the answer carries. -/
def DialOutcome.deliveryId : DialOutcome → Json
  | .answered _ (some (.obj fields)) => (fields.lookup "delivery_id").getD (.str "unknown")
  | _ => .null

/-- The attempt ended without an answer. -/
def Attempt.timedOut (a : Attempt) : Bool :=
  match a.ended with
  | .ok _ => false
  | .error exc => isTimeout exc

def Attempt.Answered (a : Attempt) : Prop := ∃ o ∈ a.dials, o.Answered

instance : DecidablePred Attempt.Answered := fun a => inferInstanceAs (Decidable (∃ o ∈ a.dials, _))

/-- Every connection of the call, in order. -/
def Delivery.dials (d : Delivery) : List DialOutcome := d.attempts.flatMap (·.dials)

/-- **The result is exact.** One of id and reason is there, the id exactly when an answer said that
the message landed, and nothing was dialed after such an answer. -/
structure Exact (d : Delivery) : Prop where
  one : ¬ (d.deliveryId = .null ↔ d.reason = none)
  landed : d.deliveryId ≠ .null ↔ ∃ o ∈ d.dials, o.Landed
  last : ∀ before o after, d.dials = before ++ o :: after → o.Landed → after = []

theorem DialOutcome.Landed.answered {o : DialOutcome} (h : o.Landed) : o.Answered := by
  cases o with
  | answered status body => trivial
  | timedOut | failed _ | aborted _ => exact h

/-! ## One attempt -/

theorem declaresArrival_obj {body : Body} (h : declaresArrival body = true) :
    ∃ fields, body = some (.obj fields) := by
  unfold declaresArrival jsonStatusToken at h
  split at h
  · split at * <;> simp_all
  · cases h

theorem readDeliveryId_ok (body : Body) {deliveryId : Json}
    (h : readDeliveryId body = .ok deliveryId) :
    ∃ fields, body = some (.obj fields) ∧
      deliveryId = (fields.lookup "delivery_id").getD (.str "unknown") := by
  unfold readDeliveryId at h
  split at h
  · exact ⟨_, rfl, (Except.ok.inj h).symm⟩
  · cases h

/-- An exception that no answer carries. -/
def Exc.Unheard : Exc → Prop
  | .timeout | .other _ => True
  | .http _ _ | .unreadable => False

/-- What `_pinned_request` does: it returns the body of its last answer, which alone can have landed,
or raises without one. `quiet` says that the exception it starts with was no answer. -/
inductive Pinned (dial : Ip → DialOutcome) (quiet : Prop) : List Ip × Except Exc Body → Prop
  | answered (init : List Ip) {ip : Ip} {status : ℕ} {body : Body}
      (hinit : ∀ ip ∈ init, ¬ (dial ip).Landed) (hdial : dial ip = .answered status body)
      (hbody : status < 400 ∨ declaresArrival body = true) :
      Pinned dial quiet (init ++ [ip], .ok body)
  | raised {dialed : List Ip} {exc : Exc} (hdialed : ∀ ip ∈ dialed, ¬ (dial ip).Landed)
      (hexc : quiet → (∀ ip ∈ dialed, ¬ (dial ip).Answered) → exc.Unheard) :
      Pinned dial quiet (dialed, .error exc)

theorem Pinned.cons {dial : Ip → DialOutcome} {quiet quiet' : Prop}
    {p : List Ip × Except Exc Body} {ip : Ip} (h : Pinned dial quiet' p)
    (hip : ¬ (dial ip).Landed) (hquiet : quiet → ¬ (dial ip).Answered → quiet') :
    Pinned dial quiet (ip :: p.1, p.2) := by
  cases h with
  | @answered init last status body hinit hdial hbody =>
    have hinit' : ∀ ip' ∈ ip :: init, ¬ (dial ip').Landed :=
      List.forall_mem_cons.mpr ⟨hip, hinit⟩
    exact .answered (ip :: init) hinit' hdial hbody
  | @raised dialed exc hdialed hexc =>
    refine .raised (List.forall_mem_cons.mpr ⟨hip, hdialed⟩) fun hq hno => ?_
    rw [List.forall_mem_cons] at hno
    exact hexc (hquiet hq hno.1) hno.2

theorem pinnedRequest_spec (allowLoopback : Bool) (dial : Ip → DialOutcome) (ips : List Ip) :
    ∀ lastExc : Option Exc, Pinned dial (∀ exc ∈ lastExc, exc.Unheard)
      (pinnedRequest allowLoopback dial lastExc ips) := by
  induction ips with
  | nil =>
    intro lastExc
    refine .raised (by simp) fun hq _ => ?_
    cases lastExc with
    | none => trivial
    | some exc => exact hq exc rfl
  | cons ip rest ih =>
    intro lastExc
    have hnext : ∀ exc, ¬ (dial ip).Landed → (¬ (dial ip).Answered → exc.Unheard) →
        Pinned dial (∀ exc ∈ lastExc, exc.Unheard)
          (ip :: (pinnedRequest allowLoopback dial (some exc) rest).1,
            (pinnedRequest allowLoopback dial (some exc) rest).2) := by
      intro exc hip hexc
      apply (ih (some exc)).cons hip
      intro _ hno e he
      obtain rfl := Option.some.inj he
      exact hexc hno
    unfold pinnedRequest
    split_ifs
    · exact ih lastExc
    · exact .raised (by simp) fun _ _ => trivial
    · cases hd : dial ip with
      | answered status body =>
        dsimp only
        split_ifs with hstatus harrival
        · exact .answered [] (by simp) hd (.inr harrival)
        · refine hnext _ ?_ fun hno => ?_
          · rw [hd]
            rintro (⟨hlt, -⟩ | ⟨-, ha⟩)
            · omega
            · exact harrival ha
          · rw [hd] at hno
            exact absurd trivial hno
        · exact .answered [] (by simp) hd (.inl (by omega))
      | timedOut => exact hnext .timeout (by rw [hd]; exact id) fun _ => trivial
      | failed text => exact hnext (.other text) (by rw [hd]; exact id) fun _ => trivial
      | aborted text =>
        refine .raised ?_ fun _ _ => trivial
        intro ip' hmem
        obtain rfl := List.mem_singleton.mp hmem
        rw [hd]
        exact id

/-- The end of an attempt agrees with its connections. -/
structure Attempt.Sound (a : Attempt) : Prop where
  landed : ∀ deliveryId, a.ended = .ok deliveryId → ∃ init o, a.dials = init ++ [o] ∧
    (∀ o' ∈ init, ¬ o'.Landed) ∧ o.Landed ∧ o.deliveryId = deliveryId
  failed : ∀ exc, a.ended = .error exc → ∀ o ∈ a.dials, ¬ o.Landed
  unheard : ∀ exc, a.ended = .error exc → ¬ a.Answered → exc.Unheard

theorem request_spec (net : Net) (allowLoopback : Bool) (ips : List Ip) (index : ℕ) :
    Pinned (net.dial index) True (net.request allowLoopback ips index) := by
  unfold Net.request
  cases net.refused with
  | some text => exact .raised (by simp) fun _ _ => trivial
  | none => simpa using pinnedRequest_spec allowLoopback (net.dial index) ips none

theorem tryOnce_sound (net : Net) (allowLoopback : Bool) (ips : List Ip) (index : ℕ)
    (timeout : Time) : (tryOnce net allowLoopback ips index timeout).Sound := by
  have hp := request_spec net allowLoopback ips index
  unfold tryOnce
  generalize net.request allowLoopback ips index = p at hp
  cases hp with
  | @answered init ip status body hinit hdial hbody =>
    have hinit' : ∀ o ∈ init.map (net.dial index), ¬ o.Landed := by
      simpa using hinit
    constructor
    · intro deliveryId hok
      obtain ⟨fields, rfl, rfl⟩ := readDeliveryId_ok body hok
      refine ⟨init.map (net.dial index), net.dial index ip, by simp, hinit', ?_, ?_⟩
      · rw [hdial]
        rcases hbody with hlt | harr
        · exact .inl ⟨hlt, fields, rfl⟩
        · by_cases hlt : status < 400
          · exact .inl ⟨hlt, fields, rfl⟩
          · exact .inr ⟨by omega, harr⟩
      · rw [hdial]
        rfl
    · intro exc herr o ho
      have hno : ∀ fields, body ≠ some (.obj fields) := by
        rintro fields rfl
        cases herr
      have ho : o ∈ init.map (net.dial index) ++ [net.dial index ip] := by simpa using ho
      rcases List.mem_append.mp ho with ho | ho
      · exact hinit' o ho
      · obtain rfl := List.mem_singleton.mp ho
        rw [hdial]
        rintro (⟨-, fields, hb⟩ | ⟨-, harr⟩)
        · exact hno fields hb
        · obtain ⟨fields, hb⟩ := declaresArrival_obj harr
          exact hno fields hb
    · intro exc _ hno
      refine absurd ⟨net.dial index ip, by simp, ?_⟩ hno
      rw [hdial]
      trivial
  | @raised dialed exc hdialed hexc =>
    constructor
    · exact nofun
    · intro exc' _ o ho
      obtain ⟨ip, hip, rfl⟩ := List.mem_map.mp ho
      exact hdialed ip hip
    · intro exc' herr hno
      obtain rfl : exc = exc' := Except.error.inj herr
      refine hexc trivial fun ip hip ha => hno ⟨net.dial index ip, ?_, ha⟩
      exact List.mem_map_of_mem hip

/-! ## The loop -/

/-- The deadline in force after the first attempt: a first attempt that timed out extends it. -/
def Net.deadline (budget : Budget) (net : Net) : List Attempt → Time
  | [] => net.opened + budget.timeout
  | first :: _ =>
    if first.timedOut then net.failed 0 + budget.timeout else net.opened + budget.timeout

/-- Nothing is left after an attempt: it was the last one, or the time is up. -/
def Spent (budget : Budget) (net : Net) (deadline : Time) (a : Attempt) : Prop :=
  budget.retries ≤ a.index + 1 ∨ deadline ≤ net.left a.index

/-- How a loop that returns ends. -/
inductive Ends (exceptionToReason : Exc → String) (budget : Budget) (net : Net) (deadline : Time)
    (d : Delivery) : Prop
  | landed (init : List Attempt) {a : Attempt} (hmade : d.attempts = init ++ [a])
      (hinit : ∀ b ∈ init, ∃ exc, b.ended = .error exc) (hok : a.ended = .ok d.deliveryId)
      (hreason : d.reason = none)
  | overdue (hfailed : ∀ b ∈ d.attempts, ∃ exc, b.ended = .error exc) (hid : d.deliveryId = .null)
      (hreason : d.reason = some unconfirmed)
      (hlast : ∀ init a, d.attempts = init ++ [a] → ¬ Spent budget net deadline a)
  | gaveUp (init : List Attempt) {a : Attempt} {exc : Exc} (hmade : d.attempts = init ++ [a])
      (hinit : ∀ b ∈ init, ∃ exc, b.ended = .error exc) (herr : a.ended = .error exc)
      (hid : d.deliveryId = .null)
      (hreason : d.reason = some (deliveryFailureReason exceptionToReason exc))
      (hlast : Spent budget net deadline a)

variable {exceptionToReason : Exc → String} {budget : Budget} {net : Net} {allowLoopback : Bool}
  {ips : List Ip}

theorem Ends.cons {deadline : Time} {d : Delivery} {made : Attempt} {exc : Exc}
    {sleeps : List Time} (h : Ends exceptionToReason budget net deadline d)
    (herr : made.ended = .error exc) (hmade : ¬ Spent budget net deadline made) :
    Ends exceptionToReason budget net deadline
      { d with attempts := made :: d.attempts, sleeps := sleeps } := by
  cases h with
  | @landed init a hmade' hinit hok hreason =>
    exact .landed (made :: init) (by rw [hmade']; rfl)
      (List.forall_mem_cons.mpr ⟨⟨exc, herr⟩, hinit⟩) hok hreason
  | overdue hfailed hid hreason hlast =>
    refine .overdue (List.forall_mem_cons.mpr ⟨⟨exc, herr⟩, hfailed⟩) hid hreason ?_
    intro init a heq
    cases init with
    | nil =>
      obtain rfl : made = a := (List.cons.inj heq).1
      exact hmade
    | cons b init => exact hlast init a (List.cons.inj heq).2
  | @gaveUp init a exc' hmade' hinit herr' hid hreason hlast =>
    exact .gaveUp (made :: init) (by rw [hmade']; rfl)
      (List.forall_mem_cons.mpr ⟨⟨exc, herr⟩, hinit⟩) herr' hid hreason hlast

/-- **One attempt.** If the deadline after the attempt is `deadline'` and the rest of the loop ends
well under it, so does the loop, unless it raises. -/
theorem deliverLoop_step {fuel attempt : ℕ} {deadline deadline' : Time} {extended : Bool}
    (hdeadline : ∀ exc timeout, (tryOnce net allowLoopback ips attempt timeout).ended = .error exc →
      (if attempt = 0 && !extended && isTimeout exc then net.failed attempt + budget.timeout
        else deadline) = deadline')
    (hrest : (attempt : ℤ) < budget.retries - 1 → ∀ extended,
      (deliverLoop exceptionToReason budget net allowLoopback ips fuel (attempt + 1) deadline'
        extended).raised = none →
      Ends exceptionToReason budget net deadline'
        (deliverLoop exceptionToReason budget net allowLoopback ips fuel (attempt + 1) deadline'
          extended))
    (hraised : (deliverLoop exceptionToReason budget net allowLoopback ips (fuel + 1) attempt deadline
      extended).raised = none) :
    Ends exceptionToReason budget net deadline'
      (deliverLoop exceptionToReason budget net allowLoopback ips (fuel + 1) attempt deadline
        extended) := by
  unfold deliverLoop at hraised ⊢
  dsimp only at hraised ⊢
  by_cases hrem : deadline - net.tried attempt ≤ 0
  · rw [if_pos hrem]
    exact .overdue (by simp) rfl rfl (by simp)
  · rw [if_neg hrem] at hraised ⊢
    generalize (if attempt = 0 then (budget.timeout : Time) else _) = timeout at hraised ⊢
    cases herr : (tryOnce net allowLoopback ips attempt timeout).ended with
    | ok deliveryId => exact .landed [] rfl (by simp) herr rfl
    | error exc =>
      rw [herr] at hraised
      dsimp only at hraised ⊢
      rw [hdeadline exc timeout herr] at hraised ⊢
      by_cases hgo : (attempt : ℤ) < budget.retries - 1 ∧ deadline' - net.left attempt > 0
      · rw [if_pos hgo] at hraised ⊢
        by_cases hbig : 1024 ≤ attempt
        · rw [if_pos hbig] at hraised
          cases hraised
        rw [if_neg hbig] at hraised ⊢
        apply (hrest hgo.1 _ hraised).cons herr
        rintro (hspent | hspent)
        · have : (attempt : ℤ) < budget.retries - 1 := hgo.1
          change budget.retries ≤ (attempt : ℤ) + 1 at hspent
          omega
        · change deadline' ≤ net.left attempt at hspent
          linarith [hgo.2]
      · rw [if_neg hgo]
        refine .gaveUp [] rfl (by simp) herr rfl rfl ?_
        rw [not_and_or] at hgo
        rcases hgo with hgo | hgo
        · refine .inl ?_
          change budget.retries ≤ (attempt : ℤ) + 1
          omega
        · refine .inr ?_
          change deadline' ≤ net.left attempt
          linarith

/-- **The loop**, from any attempt but the first: by induction on the attempts that remain. -/
theorem deliverLoop_later {deadline : Time} (fuel : ℕ) :
    ∀ (attempt : ℕ) (extended : Bool), attempt ≠ 0 → (attempt : ℤ) + fuel + 1 = budget.retries →
      (deliverLoop exceptionToReason budget net allowLoopback ips (fuel + 1) attempt deadline
        extended).raised = none →
      Ends exceptionToReason budget net deadline
        (deliverLoop exceptionToReason budget net allowLoopback ips (fuel + 1) attempt deadline
          extended) := by
  induction fuel with
  | zero =>
    intro attempt extended hne hfuel
    refine deliverLoop_step (fun _ _ _ => by simp [hne]) fun hlt => ?_
    omega
  | succ fuel ih =>
    intro attempt extended hne hfuel
    refine deliverLoop_step (fun _ _ _ => by simp [hne]) fun hlt extended' => ?_
    apply ih (attempt + 1) extended' (Nat.succ_ne_zero attempt)
    push_cast at hfuel ⊢
    omega

/-- The attempts of the loop: its own, and those of the loop that goes on after it. -/
theorem deliverLoop_attempts (exceptionToReason : Exc → String) (budget : Budget) (net : Net)
    (allowLoopback : Bool) (ips : List Ip) (fuel attempt : ℕ) (deadline : Time) (extended : Bool) :
    (deliverLoop exceptionToReason budget net allowLoopback ips (fuel + 1) attempt deadline
        extended).attempts = [] ∨
      ∃ timeout rest, (deliverLoop exceptionToReason budget net allowLoopback ips (fuel + 1) attempt
          deadline extended).attempts = tryOnce net allowLoopback ips attempt timeout :: rest ∧
        (rest = [] ∨ ∃ deadline' extended', rest = (deliverLoop exceptionToReason budget net
          allowLoopback ips fuel (attempt + 1) deadline' extended').attempts) := by
  rw [deliverLoop]
  by_cases hrem : deadline - net.tried attempt ≤ 0
  · rw [if_pos hrem]
    exact .inl rfl
  · rw [if_neg hrem]
    refine .inr ⟨if attempt = 0 then budget.timeout else max 1 (deadline - net.tried attempt), ?_⟩
    dsimp only
    generalize (if attempt = 0 then (budget.timeout : Time) else _) = timeout
    cases (tryOnce net allowLoopback ips attempt timeout).ended with
    | ok deliveryId => exact ⟨[], rfl, .inl rfl⟩
    | error exc =>
      dsimp only
      generalize (if (decide (attempt = 0) && !extended && isTimeout exc) = true then
        net.failed attempt + (budget.timeout : Time) else deadline) = deadline'
      by_cases hgo : (attempt : ℤ) < budget.retries - 1 ∧ deadline' - net.left attempt > 0
      · rw [if_pos hgo]
        by_cases hbig : 1024 ≤ attempt
        · rw [if_pos hbig]
          exact ⟨[], rfl, .inl rfl⟩
        · rw [if_neg hbig]
          exact ⟨_, rfl, .inr ⟨_, _, rfl⟩⟩
      · rw [if_neg hgo]
        exact ⟨[], rfl, .inl rfl⟩

theorem deliverLoop_sound (fuel : ℕ) : ∀ (attempt : ℕ) (deadline : Time) (extended : Bool),
    ∀ a ∈ (deliverLoop exceptionToReason budget net allowLoopback ips fuel attempt deadline
      extended).attempts, a.Sound := by
  induction fuel with
  | zero => exact fun _ _ _ => nofun
  | succ fuel ih =>
    intro attempt deadline extended
    rcases deliverLoop_attempts exceptionToReason budget net allowLoopback ips fuel attempt
      deadline extended with h | ⟨timeout, rest, h, hrest⟩
    · rw [h]
      exact nofun
    · rw [h, List.forall_mem_cons]
      refine ⟨tryOnce_sound .., ?_⟩
      rcases hrest with rfl | ⟨deadline', extended', rfl⟩
      · exact nofun
      · exact ih _ _ _

/-! ## The call -/

variable {url : String} {signature : Except PyError String} {d : Delivery}

theorem timedOut_error {a : Attempt} {exc : Exc} (h : a.ended = .error exc) :
    a.timedOut = isTimeout exc := by
  unfold Attempt.timedOut
  rw [h]

theorem deliverLoop_ends (hpos : 0 < budget.retries)
    (hd : deliverLoop exceptionToReason budget net allowLoopback ips budget.retries.toNat 0
      (net.opened + budget.timeout) false = d) (hraised : d.raised = none) :
    Ends exceptionToReason budget net (net.deadline budget d.attempts) d := by
  obtain ⟨n, hn⟩ : ∃ n : ℕ, budget.retries.toNat = n + 1 := ⟨budget.retries.toNat - 1, by omega⟩
  rw [hn] at hd
  have hends : Ends exceptionToReason budget net
      (net.deadline budget [tryOnce net allowLoopback ips 0 0]) d := by
    subst hd
    refine deliverLoop_step (fun exc timeout herr => ?_) (fun hlt extended => ?_) hraised
    · have herr0 : (tryOnce net allowLoopback ips 0 0).ended = .error exc := herr
      simp [Net.deadline, timedOut_error herr0]
    · obtain ⟨m, rfl⟩ : ∃ m, n = m + 1 := ⟨n - 1, by omega⟩
      exact deliverLoop_later m 1 extended one_ne_zero (by push_cast; omega)
  have hhead := deliverLoop_attempts exceptionToReason budget net allowLoopback ips n 0
    (net.opened + budget.timeout) false
  rw [hd] at hhead
  rcases hhead with hnil | ⟨timeout, rest, hcons, -⟩
  · cases hends with
    | landed _ hmade => rw [hnil] at hmade; simp at hmade
    | gaveUp _ hmade => rw [hnil] at hmade; simp at hmade
    | overdue hfailed hid hreason _ =>
      refine .overdue hfailed hid hreason fun init a heq => ?_
      rw [hnil] at heq
      simp at heq
  · rw [hcons]
    exact hends

theorem deliverWebhook_ends
    (h : deliverWebhook exceptionToReason budget net allowLoopback url signature = .ok d) :
    (∀ a ∈ d.attempts, a.Sound) ∧
      ((d.attempts = [] ∧ d.deliveryId = .null ∧ d.reason ≠ none) ∨
        Ends exceptionToReason budget net (net.deadline budget d.attempts) d) := by
  rcases deliverWebhook_ok h with ⟨text, -, hid, hreason, hnil, -⟩ | ⟨ips, key, -, -, hraised, hd⟩
  · refine ⟨fun a ha => ?_, .inl ⟨hnil, hid, hreason⟩⟩
    rw [hnil] at ha
    cases ha
  · refine ⟨?_, ?_⟩
    · rw [hd]
      exact deliverLoop_sound _ _ _ _
    · by_cases hpos : 0 < budget.retries
      · exact .inr (deliverLoop_ends hpos hd.symm hraised)
      · rw [Int.toNat_of_nonpos (by omega)] at hd
        rw [hd]
        exact .inl ⟨rfl, rfl, nofun⟩

/-- With so few retries the loop does not come to a sum that it cannot make. -/
theorem deliverLoop_returns (hfew : budget.retries ≤ 1025) (fuel : ℕ) :
    ∀ (attempt : ℕ) (deadline : Time) (extended : Bool),
      (deliverLoop exceptionToReason budget net allowLoopback ips fuel attempt deadline
        extended).raised = none := by
  induction fuel with
  | zero => exact fun _ _ _ => rfl
  | succ fuel ih =>
    intro attempt deadline extended
    unfold deliverLoop
    dsimp only
    split_ifs with hrem
    · rfl
    all_goals
      cases (tryOnce net allowLoopback ips attempt _).ended with
      | ok deliveryId => rfl
      | error exc =>
        dsimp only
        split_ifs with hgo hbig
        all_goals first | rfl | exact ih _ _ _ | omega

/-- Once the URL is resolved and the request signed the call returns, with so few retries. -/
theorem deliverWebhook_returns (exceptionToReason : Exc → String) {budget : Budget} (net : Net)
    (allowLoopback : Bool) (url key : String) (hfew : budget.retries ≤ 1025)
    (hfault : net.fault = none) :
    ∃ d, deliverWebhook exceptionToReason budget net allowLoopback url (.ok key) = .ok d := by
  unfold deliverWebhook
  rw [hfault]
  dsimp only
  cases resolveTargetUrl url net.host net.resolved allowLoopback with
  | error text => exact ⟨_, rfl⟩
  | ok ips =>
    dsimp only
    unfold Delivery.result
    rw [deliverLoop_returns hfew]
    exact ⟨_, rfl⟩

/-! ## The result is exact -/

theorem exact_of_failed (hno : ∀ o ∈ d.dials, ¬ o.Landed) (hid : d.deliveryId = .null)
    (hreason : d.reason ≠ none) : Exact d where
  one h := hreason (h.mp hid)
  landed := ⟨fun h => absurd hid h, fun ⟨o, ho, hl⟩ => absurd hl (hno o ho)⟩
  last before o after h hl := absurd hl (hno o (by rw [h]; simp))

theorem failed_dials {init : List Attempt} (hs : ∀ a ∈ init, a.Sound)
    (hinit : ∀ b ∈ init, ∃ exc, b.ended = .error exc) : ∀ o ∈ init.flatMap (·.dials), ¬ o.Landed := by
  intro o ho
  obtain ⟨a, ha, hoa⟩ := List.mem_flatMap.mp ho
  obtain ⟨exc, herr⟩ := hinit a ha
  exact (hs a ha).failed exc herr o hoa

/-- A list whose only member with a property is its last one. -/
theorem last_of_append {α : Type*} {P : α → Prop} {init before after : List α} {x y : α}
    (hinit : ∀ z ∈ init, ¬ P z) (h : init ++ [x] = before ++ y :: after) (hy : P y) :
    after = [] := by
  rcases List.eq_nil_or_concat after with rfl | ⟨after', z, rfl⟩
  · rfl
  · rw [List.concat_eq_append, ← List.cons_append, ← List.append_assoc] at h
    obtain ⟨rfl, -⟩ := List.append_inj' h rfl
    exact absurd hy (hinit y (by simp))

theorem exact_iff_of_landed (init : List DialOutcome) {o : DialOutcome}
    (hdials : d.dials = init ++ [o]) (hinit : ∀ o' ∈ init, ¬ o'.Landed) (ho : o.Landed)
    (hid : o.deliveryId = d.deliveryId) (hreason : d.reason = none) :
    Exact d ↔ ∀ o' ∈ d.dials, o'.Landed → o'.deliveryId ≠ .null := by
  have hmem : o ∈ d.dials := by rw [hdials]; simp
  constructor
  · intro h o' ho' hl
    rw [hdials, List.mem_append, List.mem_singleton] at ho'
    rcases ho' with ho' | rfl
    · exact absurd hl (hinit o' ho')
    · rw [hid]
      exact h.landed.mpr ⟨o', hmem, hl⟩
  · intro h
    have hne : d.deliveryId ≠ .null := by rw [← hid]; exact h o hmem ho
    refine ⟨fun hiff => hne (hiff.mpr hreason), ⟨fun _ => ⟨o, hmem, ho⟩, fun _ => hne⟩, ?_⟩
    intro before o' after heq hl
    exact last_of_append hinit (hdials.symm.trans heq) hl

/-- A result is exact unless the peer lands the message with an answer whose delivery id is JSON
`null`. -/
theorem exact_iff_dials
    (h : deliverWebhook exceptionToReason budget net allowLoopback url signature = .ok d) :
    Exact d ↔ ∀ o ∈ d.dials, o.Landed → o.deliveryId ≠ .null := by
  obtain ⟨hs, ⟨hnil, hid, hreason⟩ | hends⟩ := deliverWebhook_ends h
  · have hno : ∀ o ∈ d.dials, ¬ o.Landed := by
      unfold Delivery.dials
      rw [hnil]
      exact nofun
    exact ⟨fun _ o ho hl => absurd hl (hno o ho), fun _ => exact_of_failed hno hid hreason⟩
  · cases hends with
    | @landed init a hmade hinit hok hreason =>
      have ha : a ∈ d.attempts := by rw [hmade]; simp
      obtain ⟨front, o, hdials, hfront, ho, hid⟩ := (hs a ha).landed _ hok
      refine exact_iff_of_landed (init.flatMap (·.dials) ++ front) ?_ ?_ ho hid hreason
      · unfold Delivery.dials
        rw [hmade, List.flatMap_append, List.flatMap_singleton, hdials, List.append_assoc]
      · have hinit' := failed_dials (fun b hb => hs b (by rw [hmade]; simp [hb])) hinit
        exact fun o' ho' => (List.mem_append.mp ho').elim (hinit' o') (hfront o')
    | overdue hfailed hid hreason _ =>
      have hno := failed_dials hs hfailed
      exact ⟨fun _ o ho hl => absurd hl (hno o ho),
        fun _ => exact_of_failed hno hid (by rw [hreason]; nofun)⟩
    | @gaveUp init a exc hmade hinit herr hid hreason _ =>
      have hno : ∀ o ∈ d.dials, ¬ o.Landed := by
        apply failed_dials hs
        intro b hb
        rw [hmade, List.mem_append, List.mem_singleton] at hb
        rcases hb with hb | rfl
        · exact hinit b hb
        · exact ⟨exc, herr⟩
      exact ⟨fun _ o ho hl => absurd hl (hno o ho),
        fun _ => exact_of_failed hno hid (by rw [hreason]; nofun)⟩

/-- A result is exact unless neither of the two is there. -/
theorem exact_iff_reported
    (h : deliverWebhook exceptionToReason budget net allowLoopback url signature = .ok d) :
    Exact d ↔ ¬ (d.deliveryId = .null ∧ d.reason = none) := by
  refine ⟨fun hexact hnone => hexact.one (iff_of_true hnone.1 hnone.2), fun hreported => ?_⟩
  refine (exact_iff_dials h).mpr fun o ho hlanded hnull => ?_
  obtain ⟨hs, ⟨hnil, -⟩ | hends⟩ := deliverWebhook_ends h
  · unfold Delivery.dials at ho
    rw [hnil] at ho
    cases ho
  · obtain ⟨a, ha, hoa⟩ := List.mem_flatMap.mp ho
    cases hends with
    | @landed init last hmade hinit hok hreason =>
      rw [hmade, List.mem_append, List.mem_singleton] at ha
      rcases ha with ha | rfl
      · obtain ⟨exc, herr⟩ := hinit a ha
        exact (hs a (by rw [hmade]; simp [ha])).failed exc herr o hoa hlanded
      · obtain ⟨front, o', hdials, hfront, -, hid⟩ := (hs a (by rw [hmade]; simp)).landed _ hok
        rw [hdials, List.mem_append, List.mem_singleton] at hoa
        rcases hoa with hoa | rfl
        · exact hfront o hoa hlanded
        · exact hreported ⟨hid.symm.trans hnull, hreason⟩
    | overdue hfailed hid hreason _ =>
      obtain ⟨exc, herr⟩ := hfailed a ha
      exact (hs a ha).failed exc herr o hoa hlanded
    | @gaveUp init last exc hmade hinit herr hid hreason _ =>
      have hfails : ∃ exc, a.ended = .error exc := by
        rw [hmade, List.mem_append, List.mem_singleton] at ha
        rcases ha with ha | rfl
        · exact hinit a ha
        · exact ⟨exc, herr⟩
      obtain ⟨exc', herr'⟩ := hfails
      exact (hs a ha).failed exc' herr' o hoa hlanded

/-- One peer, at one address; its first answer or timeout comes after `wait` seconds, and every later
attempt fails at once. -/
def onePeer (wait : Time) (outcome : ℕ → DialOutcome) : Net where
  resolved := .ok [{ text := "203.0.113.5" }]
  dial attempt _ := outcome attempt
  opened := 0
  tried attempt := if attempt = 0 then 0 else wait + 2 * attempt - 1
  failed attempt := if attempt = 0 then wait else wait + 2 * attempt - 1
  left attempt := if attempt = 0 then wait else wait + 2 * attempt - 1

/-- The default budget has few retries. -/
theorem defaultRetries : ({} : Budget).retries ≤ 1025 := by decide

/-- The mapping that the comments of `session_relay.py` describe. -/
def sharedReason : Exc → String
  | .http 503 _ => "busy"
  | .http 400 _ => "bad-request"
  | .http 404 _ => "not-found"
  | .http 429 _ => "rate-limited"
  | _ => "unreachable"

/-- The id and the reason of a call, and how its attempts went. -/
def reported (call : Except PyError Delivery) : Option (Bool × Option String × List (Bool × Bool)) :=
  call.toOption.map fun d =>
    (d.deliveryId.isSome, d.reason, d.attempts.map fun a => (a.timedOut, decide a.Answered))

/-! ## Unknown arrival -/

/-- Some attempt got no answer, and no later one was answered over HTTP: the message may have
arrived. -/
def Unknown (attempts : List Attempt) : Prop :=
  ∃ before a after, attempts = before ++ a :: after ∧ a.timedOut = true ∧ ∀ b ∈ after, ¬ b.Answered

/-- After the timeout the last attempt ended in a connection error, and nothing was left after it. -/
def Masked (budget : Budget) (net : Net) (attempts : List Attempt) : Prop :=
  Unknown attempts ∧ ∃ init b, attempts = init ++ [b] ∧ b.timedOut = false ∧ ¬ b.Answered ∧
    Spent budget net (net.deadline budget attempts) b

theorem reason_of_timeout {exc : Exc} (h : isTimeout exc = true) :
    deliveryFailureReason exceptionToReason exc = unconfirmed := by
  unfold deliveryFailureReason
  cases exc with
  | http status body => cases h
  | timeout => rfl
  | unreadable => cases h
  | other text =>
    show (if isTimeout (.other text) then unconfirmed else _) = _
    rw [if_pos h]

theorem reason_of_unheard (exceptionToReason : Exc → String) {exc : Exc} (hexc : exc.Unheard) (h : isTimeout exc = false) :
    deliveryFailureReason exceptionToReason exc = exceptionToReason exc ∧ ∃ text, exc = .other text := by
  cases exc with
  | http status body => exact hexc.elim
  | timeout => cases h
  | unreadable => exact hexc.elim
  | other text =>
    refine ⟨?_, text, rfl⟩
    show (if isTimeout (.other text) then unconfirmed else _) = _
    rw [h]
    rfl

/-- The last attempt, unless it is the one that timed out, comes after it. -/
theorem Unknown.last {init : List Attempt} {b : Attempt} (h : Unknown (init ++ [b]))
    (hb : b.timedOut = false) : ¬ b.Answered := by
  obtain ⟨before, a, after, heq, ha, hafter⟩ := h
  rcases List.eq_nil_or_concat after with rfl | ⟨after', c, rfl⟩
  · obtain ⟨-, hba⟩ := List.append_inj' heq rfl
    obtain rfl : b = a := (List.cons.inj hba).1
    rw [ha] at hb
    cases hb
  · rw [List.concat_eq_append, ← List.cons_append, ← List.append_assoc] at heq
    obtain ⟨-, hbc⟩ := List.append_inj' heq rfl
    obtain rfl : b = c := (List.cons.inj hbc).1
    exact hafter b (by simp)

/-- **When unknown arrival is reported.** Where connection errors have reasons of their own, an
unknown arrival that fails is reported as such, unless a later connection error masks it. -/
theorem unknown_arrival_iff
    (hreasons : ∀ text, isTimeout (.other text) = false →
      exceptionToReason (.other text) ≠ unconfirmed)
    (h : deliverWebhook exceptionToReason budget net allowLoopback url signature = .ok d) :
    (Unknown d.attempts → d.deliveryId = .null → d.reason = some unconfirmed) ↔
      ¬ Masked budget net d.attempts := by
  obtain ⟨hs, ⟨hnil, -, -⟩ | hends⟩ := deliverWebhook_ends h
  · have hno : ¬ Unknown d.attempts := by
      rintro ⟨before, a, after, heq, -⟩
      rw [hnil] at heq
      simp at heq
    exact ⟨fun _ hm => hno hm.1, fun _ hu => absurd hu hno⟩
  · cases hends with
    | @landed init a hmade hinit hok hreason =>
      -- the last attempt was answered, so nothing is unknown
      have hto : a.timedOut = false := by
        unfold Attempt.timedOut
        rw [hok]
      have hans : a.Answered := by
        obtain ⟨front, o, hdials, -, ho, -⟩ := (hs a (by rw [hmade]; simp)).landed _ hok
        exact ⟨o, by rw [hdials]; simp, ho.answered⟩
      have hno : ¬ Unknown d.attempts := by
        rw [hmade]
        exact fun hu => hu.last hto hans
      exact ⟨fun _ hm => hno hm.1, fun _ hu => absurd hu hno⟩
    | overdue hfailed hid hreason hlast =>
      refine ⟨fun _ => ?_, fun _ _ _ => hreason⟩
      rintro ⟨-, init, b, hmade, -, -, hspent⟩
      exact hlast init b hmade hspent
    | @gaveUp init a exc hmade hinit herr hid hreason hlast =>
      have hto := timedOut_error herr
      constructor
      · rintro hprop ⟨hu, init', b, hmade', hb, hno, -⟩
        obtain rfl : a = b := by
          obtain ⟨-, hab⟩ := List.append_inj' (hmade.symm.trans hmade') rfl
          exact (List.cons.inj hab).1
        have hunheard := (hs a (by rw [hmade]; simp)).unheard exc herr hno
        obtain ⟨hr, text, rfl⟩ := reason_of_unheard exceptionToReason hunheard
          (hto.symm.trans hb)
        have := hprop hu hid
        rw [hreason, hr] at this
        exact hreasons text (hto.symm.trans hb) (Option.some.inj this)
      · intro hm hu _
        rw [hreason]
        by_cases hb : a.timedOut = true
        · rw [reason_of_timeout (hto.symm.trans hb)]
        · rw [Bool.not_eq_true] at hb
          exact absurd ⟨hu, init, a, hmade, hb, (hmade ▸ hu).last hb, hlast⟩ hm

/-- A peer that lets the first attempt time out and is down after it. -/
def goesDown : ℕ → DialOutcome
  | 0 => .timedOut
  | _ => .failed "[Errno 111] Connection refused"

theorem unknown_arrival_iff_down :
    ∃ d, deliverWebhook sharedReason {} (onePeer 10 goesDown) false "http://peer" (.ok "") = .ok d ∧
      ((Unknown d.attempts → d.deliveryId = .null → d.reason = some unconfirmed) ↔
        ¬ Masked {} (onePeer 10 goesDown) d.attempts) := by
  obtain ⟨d, hd⟩ := deliverWebhook_returns sharedReason (onePeer 10 goesDown) false "http://peer" ""
    defaultRetries rfl
  have hother : "unreachable" ≠ unconfirmed := by decide
  exact ⟨d, hd, unknown_arrival_iff (fun _ _ => hother) hd⟩

theorem unknown_arrival_masked :
    ∃ d, deliverWebhook sharedReason {} (onePeer 10 goesDown) false "http://peer" (.ok "") = .ok d ∧
      (∀ text, sharedReason (.other text) ≠ unconfirmed) ∧
      ¬ (Unknown d.attempts → d.deliveryId = .null → d.reason = some unconfirmed) := by
  have hrun : reported (deliverWebhook sharedReason {} (onePeer 10 goesDown) false "http://peer"
      (.ok "")) =
        some (false, some "unreachable", [(true, false), (false, false), (false, false)]) := by
    decide +kernel
  have hother : "unreachable" ≠ unconfirmed := by decide
  obtain ⟨d, hd⟩ := deliverWebhook_returns sharedReason (onePeer 10 goesDown) false "http://peer" ""
    defaultRetries rfl
  rw [hd] at hrun
  obtain ⟨hid, hrest⟩ := Prod.mk.inj (Option.some.inj hrun)
  obtain ⟨hreason, hattempts⟩ := Prod.mk.inj hrest
  refine ⟨d, hd, fun _ => hother, fun h => ?_⟩
  have hunknown : Unknown d.attempts := by
    obtain ⟨a, rest, heq, ha, hafter⟩ := List.map_eq_cons_iff.mp hattempts
    refine ⟨[], a, rest, heq, (Prod.mk.inj ha).1, fun b hb => ?_⟩
    have hmem := List.mem_map_of_mem (f := fun a : Attempt => (a.timedOut, decide a.Answered)) hb
    rw [hafter] at hmem
    have hno : decide b.Answered = false := by
      simp only [List.mem_cons, List.not_mem_nil, or_false, or_self, Prod.mk.injEq] at hmem
      exact hmem.2
    exact of_decide_eq_false hno
  have hnull : d.deliveryId = .null := by
    by_contra hne
    rw [Json.isSome_iff.mpr hne] at hid
    cases hid
  have := h hunknown hnull
  rw [hreason] at this
  exact hother (Option.some.inj this)

end HermesMesh
