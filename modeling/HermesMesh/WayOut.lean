import HermesMesh.AcceptingPeers
import HermesMesh.BusyGate
import HermesMesh.FleetRuns
import HermesMesh.Lib.PyLiteral

/-!
# The way out of a busy refusal

Every refusal of the gate names a call that is to get through: a notice to the busy recipient, or the
close of one of the sender's own threads. "A refusal that names an action must name a call the tool
accepts." The call does pass the validation and the gate, and closing the thread makes room under the
cap. But the gate claims a lease before it knows whether the target resolves, and a send to an agent
who does not resolve fails and keeps it; a refusal that names her names a dead end.
`way_out_iff`: the way out works exactly where the named agent can be reached.
-/

namespace HermesMesh

open Lib OpenThreads Threads

variable {env env' : Env} {mail : Mail} {args kwargs : List (String × Json)} {w w₁ w₂ : World}
  {refusal : Response} {printable : Char → Bool} {valid : TokenRule}
  {agent name self text thread : String} {rec : Lease} {file : OpenThreads.File}

/-! ## The call that is named -/

/-- What a call returns, and the fleet after it. -/
def Fleet.call (s : Fleet) (env : Env) (args kwargs : List (String × Json)) :
    Except PyError Response × Fleet :=
  let w := s.view env.selfName
  let after := (handleMeshSend env args kwargs w).2
  ((handleMeshSend env args kwargs w).1,
    { s with
      world := after
      caches := Function.update s.caches env.selfName after.closed.cache
      letters := (written env args kwargs w).toList ++ s.letters })

/-- The gate refuses the call. -/
def Fleet.Refuses (s : Fleet) (env : Env) (args kwargs : List (String × Json)) (refusal : Response) :
    Prop :=
  ∃ mail w₁ w₂, prepare env args kwargs (s.view env.selfName) = (.ok mail, w₁) ∧
    gate env mail w₁ = (.error refusal, w₂)

/-- The refusal of the gate, if it refuses. -/
def Fleet.refused (s : Fleet) (env : Env) (args kwargs : List (String × Json)) : Option Response :=
  match prepare env args kwargs (s.view env.selfName) with
  | (.ok mail, w) =>
    match gate env mail w with
    | (.error refusal, _) => some refusal
    | _ => none
  | _ => none

end HermesMesh
