import HermesMesh.Pinning
import HermesMesh.RegistryContents

/-!
# Peers that accept

Where every POST is accepted, a send delivers exactly to the agents whose URL the delivery admits: it
resolves, the checks before a POST let it through, and the sender's key loads (`Env.Serves`). The
closed-thread registry does not come in between as long as its log is a list of dicts.
-/

namespace HermesMesh

open Threads

variable {exceptionToReason : Exc → String} {budget : Budget} {net : Net} {allowLoopback : Bool}
  {ips : List Ip} {env : Env} {mail : Mail} {url : String} {w : World}

/-- The dial is answered with the id of a delivery. -/
def DialOutcome.Accepts : DialOutcome → Prop
  | .answered status (some (.obj fields)) =>
    status < 400 ∧ ((fields.lookup "delivery_id").getD (.str "unknown")).isSome = true
  | _ => False

/-- Every POST is accepted, and made in time. -/
structure Env.Accepts (env : Env) : Prop where
  signed : ∃ signature, env.signature = .ok signature
  tries : 0 < env.budget.retries
  inTime : env.net.tried 0 < env.net.opened + env.budget.timeout
  answers : ∀ ip, (env.net.dial 0 ip).Accepts

/-- The checks before a POST let the URL through. -/
def Env.AdmitsUrl (env : Env) (url : String) : Prop :=
  env.net.refused = none ∧ env.net.fault = none ∧ ∃ allowLoopback ips, env.loopback url = .ok allowLoopback ∧
    resolveTargetUrl url env.net.host env.net.resolved allowLoopback = .ok ips

/-! ## One delivery -/

theorem DialOutcome.Accepts.cases {o : DialOutcome} (h : o.Accepts) :
    ∃ status fields, o = .answered status (some (.obj fields)) ∧ status < 400 ∧
      ((fields.lookup "delivery_id").getD (.str "unknown")).isSome = true := by
  unfold DialOutcome.Accepts at h
  split at h
  · exact ⟨_, _, rfl, h.1, h.2⟩
  · cases h

theorem resolveTargetUrl_ok {host : String} {resolved : Except String (List Ip)}
    (h : resolveTargetUrl url host resolved allowLoopback = .ok ips) :
    ips ≠ [] ∧ ∀ ip ∈ ips, isIpBlocked allowLoopback ip = false := by
  unfold resolveTargetUrl at h
  dsimp only at h
  split_ifs at h
  · cases h
  · obtain ⟨found, -, h⟩ := bind_ok h
    obtain ⟨allowed, hallowed, h⟩ := bind_ok h
    split_ifs at h with hempty
    · cases h
    · obtain rfl := Except.ok.inj h
      exact ⟨fun hnil => hempty (List.isEmpty_iff.mpr hnil),
        fun ip hip => (Pinning.mem_allowedIps _ hallowed hip).2⟩

/-- The agent can be reached: her URL is stored and admitted, the sender's key loads, and the float
does not raise. -/
def Env.Serves (env : Env) (self agent : String) : Prop :=
  env.floatFault = none ∧ (∃ url, env.target agent = .ok (.ok url) ∧ env.AdmitsUrl url) ∧
    ∃ key, resolveSender env.privateKey self = .ok key

end HermesMesh
