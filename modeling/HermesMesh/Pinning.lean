import HermesMesh.Delivery

/-!
# One lookup for a whole delivery

`_deliver_webhook` once more, with the name resolution spelled out and every lookup and connection
logged. `Net` takes the resolved addresses as given; a `Resolver` answers each lookup as it likes, so
a second one could lead elsewhere. `_pinned_request` has a branch that looks the host up on its own:
the model keeps it, and the theorem has to show that no delivery takes it. Of `net` the functions
here read everything but `resolved`.
-/

namespace HermesMesh.Pinning

/-- What the call does to the outside: its `index`-th `getaddrinfo`, or a connection (a dial that
fails before it has one counts too). -/
inductive Act where
  | lookup (index : ℕ)
  | connect (ip : Ip)
  deriving DecidableEq, Repr

/-- How one `getaddrinfo` ends. An entry that is no address is `none`. -/
inductive Lookup where
  /-- A `gaierror`. -/
  | failed (text : String)
  | raised (e : PyError)
  | answer (entries : List (Option Ip))

/-- The resolver of one call. -/
structure Resolver where
  /-- `urlparse(url).hostname or ""`, or the text of the `ValueError`. -/
  hostname : Except String String
  lookup : ℕ → Lookup

/-- The addresses that a lookup returned. -/
def Lookup.entries : Lookup → List (Option Ip)
  | .answer entries => entries
  | _ => []

/-- What `_resolve_host` makes of a lookup. -/
def Lookup.addresses (host : String) : Lookup → Except PyError (List Ip)
  | .failed text => .error (.valueError ("Unable to resolve host " ++ host ++ ": " ++ text))
  | .raised e => .error e
  | .answer [] => .error (.valueError ("No addresses for host " ++ host))
  | .answer entries =>
    match (entries.filterMap id).eraseDups with
    | [] => .error (.valueError ("No valid IP addresses for host " ++ host))
    | ips => .ok ips

/-- `_resolve_host`, after `looked` lookups. -/
def Resolver.resolveHost (dns : Resolver) (looked : ℕ) (host : String) :
    Except PyError (List Ip) × List Act :=
  if host = "" then (.error (.valueError "Empty host"), [])
  else ((dns.lookup looked).addresses host, [.lookup looked])

/-- The rest of `_resolve_target_url`. -/
def admitted (host : String) (allowLoopback : Bool) (ips : List Ip) : Except PyError (List Ip) :=
  match allowedIps allowLoopback ips with
  | .error text => .error (.valueError text)
  | .ok allowed =>
    if allowed.isEmpty then .error (.valueError ("No valid IP addresses for host " ++ host))
    else .ok allowed

/-- `_resolve_target_url`. -/
def Resolver.resolveTargetUrl (dns : Resolver) (looked : ℕ) (url : String) (allowLoopback : Bool) :
    Except PyError (List Ip) × List Act :=
  let url := strip url
  if !(startsWith "http://" url || startsWith "https://" url) then
    (.error (.valueError ("URL must use http/https: " ++ url)), [])
  else
    match dns.hostname with
    | .error text => (.error (.valueError text), [])
    | .ok host =>
      let (found, acts) := dns.resolveHost looked host
      (found >>= admitted host allowLoopback, acts)

/-- An exception of the resolution, where it reaches the retry loop. -/
def excOf : PyError → Exc
  | .valueError text | .attributeError text | .osError text | .other text => .other text

/-- The addresses that were dialed. -/
def connections (acts : List Act) : List Ip :=
  acts.filterMap fun
    | .connect ip => some ip
    | .lookup _ => none

/-- How many lookups were made. -/
def lookups (acts : List Act) : ℕ :=
  acts.countP fun
    | .lookup _ => true
    | .connect _ => false

/-- The addresses `_pinned_request` works with: without any it resolves the URL itself. -/
def Resolver.addressesFor (dns : Resolver) (looked : ℕ) (url : String) (allowLoopback : Bool) :
    Option (List Ip) → Except PyError (List Ip) × List Act
  | some ips => (.ok ips, [])
  | none => dns.resolveTargetUrl looked url allowLoopback

variable (exceptionToReason : Exc → String) (budget : Budget) (dns : Resolver) (net : Net)
  (url : String) (allowLoopback : Bool)

/-- `_pinned_request`. -/
def pinnedRequest (looked index : ℕ) (resolvedIpObjs : Option (List Ip)) :
    List Act × Except Exc Body :=
  match net.refused with
  | some text => ([], .error (.other text))
  | none =>
    match dns.addressesFor looked url allowLoopback resolvedIpObjs with
    | (.error e, acts) => (acts, .error (excOf e))
    | (.ok ips, acts) =>
      if ips.isEmpty then
        (acts, .error (.other ("No valid IP addresses for host " ++ net.host)))
      else
        let (dialed, answer) := HermesMesh.pinnedRequest allowLoopback (net.dial index) none ips
        (acts ++ dialed.map Act.connect, answer)

/-- The body of the `try`. -/
def tryOnce (looked index : ℕ) (ips : List Ip) (timeout : Time) : List Act × HermesMesh.Attempt :=
  let (acts, answer) := pinnedRequest dns net url allowLoopback looked index (some ips)
  (acts, ⟨index, timeout, (connections acts).map (net.dial index), answer.bind readDeliveryId⟩)

/-- The loop of `_deliver_webhook`, after `looked` lookups. -/
def deliverLoop (ips : List Ip) : ℕ → ℕ → Time → Bool → ℕ → Delivery × List Act
  | 0, _, _, _, _ => ({ deliveryId := .null, reason := some "unreachable" }, [])
  | fuel + 1, attempt, deadline, extended, looked =>
    let remaining := deadline - net.tried attempt
    if remaining ≤ 0 then ({ deliveryId := .null, reason := some unconfirmed }, [])
    else
      let attemptTimeout : Time := if attempt = 0 then budget.timeout else max 1 remaining
      let (acts, made) := tryOnce dns net url allowLoopback looked attempt ips attemptTimeout
      match made.ended with
      | .ok deliveryId =>
        ({ deliveryId, reason := none, attempts := [made], metrics := ["total"] }, acts)
      | .error exc =>
        let extend := attempt = 0 && !extended && isTimeout exc
        let deadline := if extend then net.failed attempt + budget.timeout else deadline
        let remaining := deadline - net.left attempt
        if (attempt : ℤ) < budget.retries - 1 ∧ remaining > 0 then
          if 1024 ≤ attempt then
            ({ deliveryId := .null
               reason := none
               attempts := [made]
               raised := some (.other "OverflowError") }, acts)
          else
            let sleepTime := min (budget.backoff * 2 ^ attempt) (max 0 (remaining - 1))
            let (rest, more) := deliverLoop ips fuel (attempt + 1) deadline (extended || extend)
              (looked + lookups acts)
            ({ rest with
                attempts := made :: rest.attempts
                sleeps := (if sleepTime > 1 / 1000 then [sleepTime] else []) ++ rest.sleeps },
              acts ++ more)
        else
          ({ deliveryId := .null
             reason := some (deliveryFailureReason exceptionToReason exc)
             attempts := [made]
             metrics := ["failed"] }, acts)

/-- `_deliver_webhook`, with its log. -/
def deliverWebhook (signature : Except PyError String) : Except PyError Delivery × List Act :=
  match dns.resolveTargetUrl 0 url allowLoopback with
  | (.error (.valueError text), acts) =>
    (.ok
      { deliveryId := .null
        reason := some (if hasText "blocked" (lower text) then "loopback-blocked" else "unreachable") },
      acts)
  | (.error e, acts) => (.error e, acts)
  | (.ok ips, acts) =>
    match signature with
    | .error e => (.error e, acts)
    | .ok _ =>
      let (d, more) := deliverLoop exceptionToReason budget dns net url allowLoopback ips
        budget.retries.toNat 0 (net.opened + budget.timeout) false (lookups acts)
      (d.result, acts ++ more)

/-! ## What is dialed -/

theorem mem_allowedIps {ips allowed : List Ip} (h : allowedIps allowLoopback ips = .ok allowed)
    {ip : Ip} (hip : ip ∈ allowed) : ip ∈ ips ∧ isIpBlocked allowLoopback ip = false := by
  induction ips generalizing allowed with
  | nil => cases h; cases hip
  | cons first rest ih =>
    unfold allowedIps at h
    split_ifs at h with hblocked hloop
    · exact (ih h hip).imp_left (List.mem_cons_of_mem _)
    · obtain ⟨kept, hkept, hcons⟩ := bind_ok h
      cases hcons
      rcases List.mem_cons.mp hip with rfl | hip
      · exact ⟨List.mem_cons_self, by simpa using hblocked⟩
      · exact (ih hkept hip).imp_left (List.mem_cons_of_mem _)

/-- Without loopback one blocked address is enough to refuse them all. -/
theorem allowedIps_strict {ips allowed : List Ip} (h : allowedIps false ips = .ok allowed) :
    ∀ ip ∈ ips, isIpBlocked false ip = false := by
  induction ips generalizing allowed with
  | nil => simp
  | cons first rest ih =>
    unfold allowedIps at h
    split_ifs at h with hblocked hfalse
    · cases hfalse
    · obtain ⟨kept, hkept, -⟩ := bind_ok h
      exact List.forall_mem_cons.mpr ⟨by simpa using hblocked, ih hkept⟩

theorem mem_pinnedRequest {dial : Ip → DialOutcome} {ips : List Ip} {ip : Ip} :
    ∀ {lastExc : Option Exc},
      ip ∈ (HermesMesh.pinnedRequest allowLoopback dial lastExc ips).1 → ip ∈ ips := by
  induction ips with
  | nil => intro lastExc h; cases h
  | cons first rest ih =>
    intro lastExc h
    have hone : ip ∈ [first] → ip ∈ first :: rest :=
      fun h => List.mem_singleton.mp h ▸ List.mem_cons_self
    have hnext : ∀ exc, ip ∈ first ::
        (HermesMesh.pinnedRequest allowLoopback dial (some exc) rest).1 → ip ∈ first :: rest :=
      fun exc h => (List.mem_cons.mp h).elim (fun h => h ▸ List.mem_cons_self)
        fun h => List.mem_cons_of_mem _ (ih h)
    unfold HermesMesh.pinnedRequest at h
    split_ifs at h
    · exact List.mem_cons_of_mem _ (ih h)
    · cases h
    · cases hd : dial first with
      | answered status body =>
        rw [hd] at h
        dsimp only at h
        split_ifs at h
        · exact hone h
        · exact hnext _ h
        · exact hone h
      | timedOut => rw [hd] at h; exact hnext _ h
      | failed text => rw [hd] at h; exact hnext _ h
      | aborted text => rw [hd] at h; exact hone h

/-- Only connections, and only to these addresses. -/
def Dials (ips : List Ip) (acts : List Act) : Prop := ∃ dialed ⊆ ips, acts = dialed.map .connect

theorem Dials.nil (ips : List Ip) : Dials ips [] := ⟨[], List.nil_subset _, rfl⟩

theorem Dials.append {ips : List Ip} {acts more : List Act} (h : Dials ips acts)
    (hmore : Dials ips more) : Dials ips (acts ++ more) := by
  obtain ⟨dialed, hsub, rfl⟩ := h
  obtain ⟨dialed', hsub', rfl⟩ := hmore
  exact ⟨dialed ++ dialed', List.append_subset.mpr ⟨hsub, hsub'⟩, (List.map_append ..).symm⟩

@[simp] theorem connections_connect (ips : List Ip) : connections (ips.map .connect) = ips := by
  induction ips with
  | nil => rfl
  | cons ip rest ih => exact congrArg (ip :: ·) ih

/-! ## The same delivery, seen without its lookups -/

variable {ips : List Ip}

theorem mem_request {index : ℕ} {ip : Ip} (h : ip ∈ (net.request allowLoopback ips index).1) :
    ip ∈ ips := by
  unfold Net.request at h
  cases hr : net.refused with
  | some text => rw [hr] at h; cases h
  | none => rw [hr] at h; exact mem_pinnedRequest allowLoopback h

/-- With the addresses at hand, an attempt looks nothing up. -/
theorem tryOnce_eq (looked index : ℕ) (hips : ips ≠ []) (timeout : Time) :
    tryOnce dns net url allowLoopback looked index ips timeout =
      ((net.request allowLoopback ips index).1.map .connect,
        HermesMesh.tryOnce net allowLoopback ips index timeout) := by
  have hmade : pinnedRequest dns net url allowLoopback looked index (some ips) =
      ((net.request allowLoopback ips index).1.map .connect,
        (net.request allowLoopback ips index).2) := by
    unfold pinnedRequest Resolver.addressesFor Net.request
    cases net.refused with
    | some text => rfl
    | none => simp [hips]
  unfold tryOnce HermesMesh.tryOnce
  rw [hmade]
  simp

/-- The loop does what the loop without lookups does, and only dials. -/
theorem deliverLoop_refines (hips : ips ≠ []) (fuel : ℕ) :
    ∀ (attempt : ℕ) (deadline : Time) (extended : Bool) (looked : ℕ),
      (deliverLoop exceptionToReason budget dns net url allowLoopback ips fuel attempt deadline
          extended looked).1 =
        HermesMesh.deliverLoop exceptionToReason budget net allowLoopback ips fuel attempt deadline
          extended ∧
      Dials ips (deliverLoop exceptionToReason budget dns net url allowLoopback ips fuel attempt
        deadline extended looked).2 := by
  induction fuel with
  | zero => intro attempt deadline extended looked; exact ⟨rfl, .nil ips⟩
  | succ fuel ih =>
    intro attempt deadline extended looked
    have hdials : Dials ips ((net.request allowLoopback ips attempt).1.map .connect) :=
      ⟨_, fun _ => mem_request net allowLoopback, rfl⟩
    unfold deliverLoop HermesMesh.deliverLoop
    dsimp only
    rw [tryOnce_eq _ _ _ _ _ _ hips]
    by_cases hrem : deadline - net.tried attempt ≤ 0
    · rw [if_pos hrem, if_pos hrem]
      exact ⟨rfl, .nil ips⟩
    · rw [if_neg hrem, if_neg hrem]
      generalize (if attempt = 0 then (budget.timeout : Time) else _) = timeout
      cases (HermesMesh.tryOnce net allowLoopback ips attempt timeout).ended with
      | ok deliveryId => exact ⟨rfl, hdials⟩
      | error exc =>
        dsimp only
        generalize (if (decide (attempt = 0) && !extended && isTimeout exc) = true then
          net.failed attempt + (budget.timeout : Time) else deadline) = deadline'
        by_cases hgo : (attempt : ℤ) < budget.retries - 1 ∧ deadline' - net.left attempt > 0
        · rw [if_pos hgo, if_pos hgo]
          by_cases hbig : 1024 ≤ attempt
          · rw [if_pos hbig, if_pos hbig]
            exact ⟨rfl, hdials⟩
          rw [if_neg hbig, if_neg hbig]
          obtain ⟨hrest, hmore⟩ := ih (attempt + 1) deadline'
            (extended || decide (attempt = 0) && !extended && isTimeout exc)
            (looked + lookups ((net.request allowLoopback ips attempt).1.map .connect))
          refine ⟨?_, hdials.append hmore⟩
          rw [hrest]
        · rw [if_neg hgo, if_neg hgo]
          exact ⟨rfl, hdials⟩

/-! ## The resolution -/

theorem addresses_ok {host : String} {answer : Lookup} {ips : List Ip}
    (h : answer.addresses host = .ok ips) : ∀ ip, ip ∈ ips ↔ some ip ∈ answer.entries := by
  intro ip
  cases answer with
  | failed text => cases h
  | raised e => cases h
  | answer entries =>
    have hips : ips = (entries.filterMap id).eraseDups := by
      cases entries with
      | nil => cases h
      | cons entry rest =>
        unfold Lookup.addresses at h
        dsimp only at h
        split at h
        · cases h
        · exact (Except.ok.inj h).symm
    rw [hips, List.mem_eraseDups, List.mem_filterMap]
    exact ⟨fun ⟨_, hmem, hid⟩ => hid ▸ hmem, fun hmem => ⟨_, hmem, rfl⟩⟩

theorem admitted_ok {host : String} {found : List Ip} (h : admitted host allowLoopback found = .ok ips) :
    ips ≠ [] ∧ allowedIps allowLoopback found = .ok ips := by
  unfold admitted at h
  cases hallowed : allowedIps allowLoopback found with
  | error text => rw [hallowed] at h; cases h
  | ok allowed =>
    rw [hallowed] at h
    dsimp only at h
    split_ifs at h with hempty
    cases h
    exact ⟨by simpa using hempty, rfl⟩

/-- The resolution makes one lookup, or none and fails. -/
theorem resolveTargetUrl_cases (looked : ℕ) :
    (∃ e, dns.resolveTargetUrl looked url allowLoopback = (.error e, [])) ∨
      ∃ found, dns.resolveTargetUrl looked url allowLoopback = (found, [.lookup looked]) ∧
        ∀ ips, found = .ok ips → ips ≠ [] ∧ ∃ host answered,
          (dns.lookup looked).addresses host = .ok answered ∧
            allowedIps allowLoopback answered = .ok ips := by
  unfold Resolver.resolveTargetUrl Resolver.resolveHost
  dsimp only
  split_ifs with hscheme
  · exact .inl ⟨_, rfl⟩
  · cases dns.hostname with
    | error text => exact .inl ⟨_, rfl⟩
    | ok host =>
      dsimp only
      split_ifs with hhost
      · exact .inl ⟨_, rfl⟩
      · refine .inr ⟨_, rfl, fun ips hips => ?_⟩
        obtain ⟨answered, hanswered, hadmit⟩ := bind_ok hips
        obtain ⟨hne, hallowed⟩ := admitted_ok allowLoopback hadmit
        exact ⟨hne, host, answered, hanswered, hallowed⟩

/-- What a `Net` holds of the first lookup. -/
def Resolver.resolved (dns : Resolver) : Except String (List Ip) :=
  match dns.hostname with
  | .error text => .error text
  | .ok host =>
    match (dns.resolveHost 0 host).1 with
    | .ok ips => .ok ips
    | .error (.valueError text) | .error (.attributeError text) | .error (.osError text)
    | .error (.other text) => .error text

/-- A resolver that raises nothing but `gaierror` makes `_resolve_host` raise nothing but
`ValueError`. -/
theorem addresses_error {host : String} {answer : Lookup} {e : PyError}
    (hraised : ∀ e, answer ≠ .raised e) (h : answer.addresses host = .error e) :
    ∃ text, e = .valueError text := by
  cases answer with
  | failed text => exact ⟨_, (Except.error.inj h).symm⟩
  | raised e' => exact absurd rfl (hraised e')
  | answer entries =>
    cases entries with
    | nil => exact ⟨_, (Except.error.inj h).symm⟩
    | cons entry rest =>
      unfold Lookup.addresses at h
      dsimp only at h
      split at h
      · exact ⟨_, (Except.error.inj h).symm⟩
      · cases h

theorem resolveTargetUrl_refines (hraised : ∀ e, dns.lookup 0 ≠ .raised e) :
    (dns.resolveTargetUrl 0 url allowLoopback).1 =
      (HermesMesh.resolveTargetUrl url (dns.hostname.toOption.getD "") dns.resolved
        allowLoopback).mapError .valueError := by
  unfold Resolver.resolveTargetUrl HermesMesh.resolveTargetUrl Resolver.resolved
  dsimp only
  split_ifs with hscheme
  · rfl
  · cases dns.hostname with
    | error text => rfl
    | ok host =>
      have hadmit : ∀ ips, admitted host allowLoopback ips = (do
          let allowed ← allowedIps allowLoopback ips
          if allowed.isEmpty then throw ("No valid IP addresses for host " ++ host)
          return allowed : Except String (List Ip)).mapError .valueError := by
        intro ips
        unfold admitted
        cases allowedIps allowLoopback ips with
        | error text => rfl
        | ok allowed => cases allowed <;> rfl
      dsimp only
      cases hfound : (dns.resolveHost 0 host).1 with
      | ok ips => exact hadmit ips
      | error e =>
        obtain ⟨text, rfl⟩ : ∃ text, e = .valueError text := by
          unfold Resolver.resolveHost at hfound
          split_ifs at hfound
          · exact ⟨_, (Except.error.inj hfound).symm⟩
          · exact addresses_error hraised hfound
        rfl

/-- With its log left out, the call is the delivery over the answer of the first lookup. -/
theorem deliverWebhook_refines (hraised : ∀ e, dns.lookup 0 ≠ .raised e)
    (hfault : net.fault = none) (hhost : net.host = dns.hostname.toOption.getD "")
    (hresolved : net.resolved = dns.resolved) (signature : Except PyError String) :
    (deliverWebhook exceptionToReason budget dns net url allowLoopback signature).1 =
      HermesMesh.deliverWebhook exceptionToReason budget net allowLoopback url signature := by
  have hres := resolveTargetUrl_refines dns url allowLoopback hraised
  rw [← hhost, ← hresolved] at hres
  unfold deliverWebhook HermesMesh.deliverWebhook
  rw [hfault]
  have hcases := resolveTargetUrl_cases dns url allowLoopback 0
  revert hres hcases
  generalize dns.resolveTargetUrl 0 url allowLoopback = resolution
  obtain ⟨found, acts⟩ := resolution
  rintro hres hcases
  cases hold : HermesMesh.resolveTargetUrl url net.host net.resolved allowLoopback with
  | error text =>
    rw [hold] at hres
    obtain rfl : found = .error (.valueError text) := hres
    rfl
  | ok ips =>
    rw [hold] at hres
    obtain rfl : found = .ok ips := hres
    have hips : ips ≠ [] := by
      rcases hcases with ⟨e, he⟩ | ⟨found, hfound, hok⟩
      · cases he
      · cases hfound
        exact (hok ips rfl).1
    cases signature with
    | error e => rfl
    | ok _ =>
      exact congrArg Delivery.result (deliverLoop_refines exceptionToReason budget dns net url
        allowLoopback hips _ _ _ _ _).1

/-! ## The policy -/

/-- The connections of one call keep to its first lookup and to the policy. -/
structure Keeps (answer : Lookup) (allowLoopback : Bool) (acts : List Act) : Prop where
  /-- One lookup, before everything else, or nothing at all. -/
  once : acts = [] ∨ ∃ dialed : List Ip, acts = .lookup 0 :: dialed.map .connect
  answered : ∀ ip, .connect ip ∈ acts → some ip ∈ answer.entries
  allowed : ∀ ip, .connect ip ∈ acts → isIpBlocked allowLoopback ip = false
  /-- Without loopback one blocked address rules out every connection. -/
  strict : allowLoopback = false → ∀ blocked, some blocked ∈ answer.entries →
    isIpBlocked false blocked = true → ∀ ip, .connect ip ∉ acts

theorem Keeps.quiet {answer : Lookup} {acts : List Act} (h : acts = [] ∨ acts = [.lookup 0]) :
    Keeps answer allowLoopback acts := by
  have hno : ∀ ip, Act.connect ip ∉ acts := by
    rcases h with rfl | rfl <;> simp
  refine ⟨h.imp_right fun h => ⟨[], h⟩, fun ip hip => (hno ip hip).elim,
    fun ip hip => (hno ip hip).elim, fun _ _ _ _ => hno⟩

/-- **The pinning.** Whatever each lookup answers and however the attempts end, one delivery makes
at most one lookup, first of all, and connects only to addresses out of its answer that the policy
admits. -/
theorem deliverWebhook_keeps (signature : Except PyError String) :
    Keeps (dns.lookup 0) allowLoopback
      (deliverWebhook exceptionToReason budget dns net url allowLoopback signature).2 := by
  unfold deliverWebhook
  rcases resolveTargetUrl_cases dns url allowLoopback 0 with ⟨e, he⟩ | ⟨found, hfound, hok⟩
  · rw [he]
    cases e <;> exact .quiet allowLoopback (.inl rfl)
  · rw [hfound]
    cases found with
    | error e => cases e <;> exact .quiet allowLoopback (.inr rfl)
    | ok ips =>
      obtain ⟨hne, host, answered, hanswered, hallowed⟩ := hok ips rfl
      cases signature with
      | error e => exact .quiet allowLoopback (.inr rfl)
      | ok _ =>
        obtain ⟨dialed, hsub, hdialed⟩ := (deliverLoop_refines exceptionToReason budget dns net url
          allowLoopback hne budget.retries.toNat 0 (net.opened + budget.timeout) false
          (lookups [.lookup 0])).2
        dsimp only
        rw [hdialed]
        have hmem : ∀ ip, Act.connect ip ∈ [.lookup 0] ++ dialed.map Act.connect →
            ip ∈ answered ∧ isIpBlocked allowLoopback ip = false := fun ip hip =>
          mem_allowedIps allowLoopback hallowed (hsub (by simpa using hip))
        refine ⟨.inr ⟨dialed, rfl⟩, fun ip hip => (addresses_ok hanswered ip).mp (hmem ip hip).1,
          fun ip hip => (hmem ip hip).2, ?_⟩
        rintro rfl blocked hblocked hyes
        have hno := allowedIps_strict hallowed blocked ((addresses_ok hanswered blocked).mpr hblocked)
        rw [hno] at hyes
        cases hyes

end HermesMesh.Pinning
