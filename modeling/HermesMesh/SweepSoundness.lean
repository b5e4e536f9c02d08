import HermesMesh.DeliveryCounts
import HermesMesh.RetrySweep
import HermesMesh.SendTokens
import HermesMesh.ThreadRuns

/-!
# Turns that raise

What raises in the turn of a file, read off the file and the state before the turn: `SoundAttempt`
and `Sound` hold exactly where nothing does (`attemptItem_raises`, `turn_raises`).
-/

namespace HermesMesh.Retry

variable {env : Env} {extra item : List (String × Json)} {w w' : World} {p : Posting} {url : String}
  {s : Sweep} {m : Meets} {content : Loaded}

/-! ## Sound attempts -/

/-- The reference of the item is looked up. -/
def ChecksRef (item : List (String × Json)) : Prop :=
  (Json.get "ref" item).isSome = true ∧ (Json.get "is_dsn" item).truthy = false

/-- A list or a dict. -/
def Unhashable : Json → Prop
  | .arr _ | .obj _ => True
  | _ => False

/-- The reference can be looked up where it is. -/
def SoundRef (env : Env) (item : List (String × Json)) : Prop :=
  ChecksRef item → env.closedIo.lockable = true → ¬ Unhashable (Json.get "ref" item)

/-- The item is dropped: its thread is closed. -/
def Dropped (env : Env) (item : List (String × Json)) (w : World) : Prop :=
  ChecksRef item ∧ ∃ ref, Json.get "ref" item = .str ref ∧
    (Threads.isClosed env.valid env.closedIo (some ref) w.closed).1 = true

/-- The keys that the attempt takes for granted are there, and the recipient is nothing, or a name with
no fault in its identity. -/
structure Addressed (env : Env) (item : List (String × Json)) : Prop where
  sender : (item.lookup "from").isSome = true
  recipient : (item.lookup "to").isSome = true
  envelope : (Json.get "padded_message" item).truthy = true ∨ (item.lookup "body").isSome = true
  named : (Json.get "to" item).truthy = true →
    ∃ name, Json.get "to" item = .str name ∧ env.identityFault name = none

/-- Both agents resolve, the recipient to this URL. -/
def Resolves (env : Env) (item : List (String × Json)) (url : String) : Prop :=
  (Json.get "to" item).truthy = true ∧
    (∃ name, Json.get "to" item = .str name ∧ env.target name = .ok (.ok url)) ∧
    ∃ key, resolveSender env.privateKey (env.text (Json.get "from" item)) = .ok key

/-- What the guard around the pending close catches. -/
def Caught : PyError → Prop
  | .osError _ | .valueError _ => True
  | _ => False

/-- The pending close can be recorded, or fails in a way that is caught: the validator raises nothing
else, and the log holds a dict wherever the search for the anchor looks. -/
def Recordable (env : Env) (item : List (String × Json)) (w : World) : Prop :=
  (Json.get "anchor" item).truthy = true →
    (∀ e, env.token (Json.get "anchor" item) = .error e → Caught e) ∧
    ∀ anchor, env.token (Json.get "anchor" item) = .ok anchor →
      (∀ e, env.token (Json.get "from" item) = .error e → Caught e) ∧
      ∀ by_, env.token (Json.get "from" item) = .ok by_ →
        env.valid anchor = true → env.valid by_ = true → env.record.io.lockable = true →
        ∃ found, Threads.findAnchor anchor
          (Threads.readEntriesStrict env.record.io w.closed.file).1 = .ok found

/-- The delivery returns: the URL can be parsed, an envelope that has to name the sender is a text, and
neither the resolution nor the signing raises, nor a pause of the loop. -/
structure Postable (env : Env) (item : List (String × Json)) (url : String) : Prop where
  parsed : ∃ allowed, env.loopback url = .ok allowed
  text : (Json.get "from" item).truthy = false → ∀ envelope, itemEnvelope item = .ok envelope →
    envelope.truthy = true → ∃ text, envelope = .str text
  returns : ∀ allowed, env.loopback url = .ok allowed →
    ¬ CallRaises env.budget env.net allowed url env.signature

/-- Nothing in the attempt raises. -/
def SoundAttempt (env : Env) (item : List (String × Json)) (w : World) : Prop :=
  SoundRef env item ∧ (Dropped env item w ∨ Addressed env item ∧
    ∀ url, Resolves env item url → Recordable env item w ∧ Postable env item url)

/-- A sound attempt comes to nothing: an agent does not resolve, or the delivery fails. -/
def Fails (env : Env) (item : List (String × Json)) (w : World) : Prop :=
  ¬ Dropped env item w ∧ ∀ url, Resolves env item url →
    ∃ d, env.post env.net env.signature url = .ok d ∧ d.deliveryId.isSome = false

/-! ## The parts of an attempt -/

/-- Nothing in the turn of the file raises. -/
def Sound (s : Sweep) (m : Meets) (content : Loaded) (w : World) : Prop :=
  match content with
  | .unreadable => True
  | .raised _ => False
  | .json (.obj item) =>
    ∃ due, number (nextRetry item) = .ok due ∧
      (due ≤ s.now → ∃ count, number (attemptOf item) = .ok count ∧
        SoundAttempt m.env (counted count item) w ∧
        (Fails m.env (counted count item) w → count + 1 < s.maxAttempts → ¬ Overflows count))
  | .json _ => False

end HermesMesh.Retry
