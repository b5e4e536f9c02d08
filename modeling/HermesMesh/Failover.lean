import HermesMesh.DeliveryOutcome

/-!
# Failing over to the next address

`_pinned_request` goes on to the next address where one gives no answer. The answer it does get should
end the request. But the `HTTPError` it raises for a refusal is an `OSError`, and its own clause for
connection errors takes it for one: a refused message is posted again to the next address.
`failover_iff`: the request ends with its first answer unless that is a refusal with an address left.
-/

namespace HermesMesh

variable {allowLoopback : Bool} {dial : Ip → DialOutcome} {ips : List Ip} {ip : Ip}

/-- The peer at the address gives an HTTP response. -/
def answers (dial : Ip → DialOutcome) (ip : Ip) : Bool := decide (dial ip).Answered

/-- What a response makes of the request: its body, or an `HTTPError` that carries it. -/
def verdict (status : ℕ) (body : Body) : Except Exc Body :=
  if status < 400 ∨ declaresArrival body = true then .ok body else .error (.http status body)

/-- The response is an error that does not say that the message is there. -/
def DialOutcome.Refused : DialOutcome → Prop
  | .answered status body => 400 ≤ status ∧ declaresArrival body = false
  | _ => False

end HermesMesh
