import HermesMesh.Intake
import HermesMesh.Send

/-!
# The request on the wire

What `_deliver_webhook` makes of its arguments before the first attempt, in the `json` wire format:
the body, the headers and the signature. `json.dumps` and `sign_ed25519` are not under this
repository. Every attempt sends the same request.
-/

namespace HermesMesh

/-- What the composition calls outside of the repository. -/
structure Pen where
  /-- `json.dumps(fields, sort_keys=True)`. -/
  dumps : List (String × Json) → String
  /-- `sign_ed25519` of a private key and the bytes. -/
  sign : String → String → Except PyError String

/-- One request as it is posted. -/
structure Post where
  headers : List (String × String)
  body : String
  deriving DecidableEq, Repr

/-- `_extract_envelope_sender`. -/
def extractEnvelopeSender (body : String) : Option String :=
  body.toList.tails.findSome? fun text => (bracket "from" text).map (·.1)

/-- The sender that the body names. -/
def Wire.from_ (wire : Wire) : String :=
  if wire.sender = "" then (extractEnvelopeSender wire.text).getD "hermes" else wire.sender

/-- The two fields of the body. -/
def Wire.payload (wire : Wire) : List (String × Json) :=
  [("from", .str wire.from_), ("text", .str wire.text)]

/-- `headers[key] = value`. -/
def setHeader (key value : String) : List (String × String) → List (String × String)
  | [] => [(key, value)]
  | (key', value') :: rest =>
    if key' = key then (key, value) :: rest else (key', value') :: setHeader key value rest

/-- The headers before the signature. -/
def Wire.opening (wire : Wire) (timestamp : String) : List (String × String) :=
  wire.headers.foldl (fun headers extra => setHeader extra.1 extra.2 headers)
    [("Content-Type", "application/json"), ("X-Mesh-Timestamp", timestamp)]

/-- The bytes that are signed. -/
def Wire.signedBody (wire : Wire) (timestamp body : String) : String :=
  if wire.signTimestamp then timestamp ++ "\n" ++ body else body

/-- The request that `_deliver_webhook` composes when the clock reads `timestamp`. -/
def compose (pen : Pen) (key timestamp : String) (wire : Wire) : Except PyError Post := do
  let body := pen.dumps wire.payload
  let signature ← pen.sign key (wire.signedBody timestamp body)
  return ⟨setHeader "X-Mesh-Signature" signature (wire.opening timestamp), body⟩

/-- The request as the adapter reads it. -/
def Post.received (post : Post) : Intake.Request where
  timestamp := (post.headers.lookup "X-Mesh-Timestamp").getD ""
  signature := (post.headers.lookup "X-Mesh-Signature").getD ""
  isDsn := post.headers.lookup dsnHeader.1 = some dsnHeader.2
  body := post.body

/-- The request arrives as it was composed; `X-Mesh-DSN` is there where it was given. -/
theorem compose_received {pen : Pen} {key timestamp : String} {wire : Wire} {post : Post} (dsn : Bool)
    (hheaders : wire.headers = if dsn then [dsnHeader] else [])
    (hpost : compose pen key timestamp wire = .ok post) :
    ∃ signature, pen.sign key (wire.signedBody timestamp (pen.dumps wire.payload)) = .ok signature ∧
      post.received = ⟨timestamp, signature, dsn, pen.dumps wire.payload⟩ := by
  obtain ⟨signature, hsign, hpost⟩ := bind_ok hpost
  obtain rfl := Except.ok.inj hpost
  refine ⟨signature, hsign, ?_⟩
  unfold Post.received Wire.opening
  rw [hheaders]
  cases dsn with
  | true => simp [setHeader, dsnHeader, List.lookup_cons]
  | false => simp [setHeader, dsnHeader, List.lookup_cons]

end HermesMesh
