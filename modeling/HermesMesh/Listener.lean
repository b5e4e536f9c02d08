import HermesMesh.Routing

/-!
# The adapter that listens

What `__init__` reads from `platforms.mesh.extra` about where to listen and whom to trust, and `connect`
and `disconnect` around the requests. `connect` lets the adapter listen without authentication on a
loopback interface only, so whatever the configuration says and however often the adapter is connected
and disconnected, a message that comes into the inbox came over loopback, or was signed under the key of
the sender it is shown with (`listener_admits`).
-/

namespace HermesMesh.Listener

open Lib Intake Routing

/-- `platforms.mesh.extra`. -/
abbrev Extra := List (String × Json)

/-- What the adapter is given from outside. -/
structure Host where
  int : Json → Except PyError ℤ
  /-- `str.lower` outside ASCII. -/
  lowerOther : String → String := id
  getenv : String → Option String
  /-- `is_loopback_bind_host`. -/
  isLoopbackBindHost : Json → Bool
  aiohttpAvailable : Bool := true

/-- `DEFAULT_HOST`. -/
def defaultHost : String := "127.0.0.1"

/-- `DEFAULT_PORT`. -/
def defaultPort : ℤ := 8645

/-- The sentinel that turns authentication off. -/
def insecureNoAuth : String := "INSECURE_NO_AUTH"

/-- The adapter after `__init__`, with what else its configuration says in `config`. -/
structure MeshAdapter where
  /-- No host stands for all interfaces. -/
  host : Json
  port : ℤ
  route : Json
  authSentinel : String
  config : Config

/-- `__init__`, with what it reads besides from `rest`. -/
def MeshAdapter.init (out : Host) (kit : Kit) (extra : Extra) (rest : Config) :
    Except PyError MeshAdapter := do
  let host := (extra.lookup "host").getD (.str defaultHost)
  let port ← out.int ((extra.lookup "port").getD (.num defaultPort))
  let authSentinel := kit.text ((extra.lookup "secret").getD (.str ""))
  let named := Json.get "agent_name" extra
  let agentName :=
    if named.truthy then kit.text named else (out.getenv "MESH_AGENT_NAME").getD "hermes-agent"
  return {
    host := if host.truthy then host else .null
    port
    route := (extra.lookup "route").getD (.str "receive")
    authSentinel
    config := { rest with
      agentName := strLower out.lowerOther (strip agentName)
      insecure := authSentinel = insecureNoAuth } }

/-- How `site.start` ends. -/
inductive Bind where
  | started
  /-- One of the four numbers that stand for an address that is not to be had. -/
  | refused
  | failed (e : PyError)

/-- `connect`, up to what it returns or raises. -/
def connect (out : Host) (kit : Kit) (a : MeshAdapter) (bind : Bind) : Except PyError Bool :=
  if !out.aiohttpAvailable then .ok false
  else if a.authSentinel = "" then
    .error (.valueError ("[mesh] auth sentinel is required. Set platforms.mesh.extra.secret " ++
      "to any non-empty value to enable Ed25519, or 'INSECURE_NO_AUTH' " ++
      "for local loopback-only testing."))
  else if a.authSentinel = insecureNoAuth && !out.isLoopbackBindHost a.host then
    .error (.valueError ("[mesh] INSECURE_NO_AUTH is only allowed on loopback interfaces, " ++
      "not '" ++ kit.text a.host ++ "'."))
  else
    match bind with
    | .started => .ok true
    | .refused => .ok false
    | .failed e => .error e

/-! ## The adapter between `connect` and `disconnect` -/

/-- The sites that listen, and what `_runner` holds: nothing, a runner whose site listens, or one whose
site never came to. -/
structure State where
  sites : ℕ := 0
  runner : Option Bool := none
  adapter : Adapter

inductive Event where
  | connect (bind : Bind)
  | disconnect
  | intake (e : Intake.Event)

/-- What a connect leaves behind. A runner that was there is forgotten, and its site goes on. -/
def State.connect (out : Host) (kit : Kit) (a : MeshAdapter) (bind : Bind) (s : State) : State :=
  match Listener.connect out kit a bind, bind with
  | .ok true, _ => { s with sites := s.sites + 1, runner := some true }
  | .ok false, .refused => if out.aiohttpAvailable then { s with runner := none } else s
  | .error _, .failed _ =>
    -- the guard raises before there is a runner
    if (Listener.connect out kit a .started).isOk then { s with runner := some false } else s
  | _, _ => s

/-- `disconnect`, which cleans up what `_runner` holds. -/
def State.disconnect (s : State) : State :=
  { s with sites := if s.runner = some true then s.sites - 1 else s.sites, runner := none }

/-- Requests arrive while a site listens. -/
def step (out : Host) (kit : Kit) (a : MeshAdapter) (s : State) : Event → Option State
  | .connect bind => some (s.connect out kit a bind)
  | .disconnect => some s.disconnect
  | .intake e =>
    match e, s.sites with
    | .arrive .., 0 => none
    | _, _ => (Intake.step a.config kit s.adapter e).map fun adapter => { s with adapter }

/-- What the adapter was constructed as. -/
structure Constructed (s : State) : Prop where
  sites : s.sites = 0
  waiting : ∀ conn, s.adapter.waiting conn = none

variable {out : Host} {kit : Kit} {a : MeshAdapter} {extra : Extra} {rest : Config} {s t s₀ : State}
  {e : Event} {es : List Event} {bind : Bind}

/-- The adapter may listen: it has a sentinel, and without authentication it is on loopback. -/
def MayListen (out : Host) (a : MeshAdapter) : Prop :=
  a.authSentinel ≠ "" ∧ (a.authSentinel = insecureNoAuth → out.isLoopbackBindHost a.host = true)

theorem connect_true (h : connect out kit a bind = .ok true) : MayListen out a := by
  unfold connect at h
  split_ifs at h with _ hempty hinsecure
  · cases h
  · refine ⟨hempty, fun hsentinel => ?_⟩
    by_contra hhost
    apply hinsecure
    rw [Bool.not_eq_true] at hhost
    simp [hsentinel, hhost]

theorem connect_sites (hno : ¬ MayListen out a) : (s.connect out kit a bind).sites = s.sites := by
  unfold State.connect
  split
  · rename_i h
    exact absurd (connect_true h) hno
  · split_ifs <;> rfl
  · split_ifs <;> rfl
  · rfl

theorem connect_adapter : (s.connect out kit a bind).adapter = s.adapter := by
  unfold State.connect
  split
  · rfl
  · split_ifs <;> rfl
  · split_ifs <;> rfl
  · rfl

/-- The event of the intake that this is. -/
def Event.served : Event → Option Intake.Event
  | .intake e => some e
  | _ => none

/-- One step is one of the intake, or leaves it alone. -/
theorem step_intake (h : step out kit a s e = some t) :
    (e.served = none ∧ t.adapter = s.adapter) ∨
      ∃ e', e.served = some e' ∧ Intake.step a.config kit s.adapter e' = some t.adapter := by
  cases e with
  | connect bind =>
    obtain rfl := Option.some.inj h
    exact .inl ⟨rfl, connect_adapter⟩
  | disconnect =>
    obtain rfl := Option.some.inj h
    exact .inl ⟨rfl, rfl⟩
  | intake e =>
    unfold step at h
    dsimp only at h
    split at h
    · cases h
    · obtain ⟨adapter, hadapter, rfl⟩ := Option.map_eq_some_iff.mp h
      exact .inr ⟨_, rfl, hadapter⟩

/-- The run of the intake in a run of the adapter. -/
theorem run_intake (h : Run (step out kit a) Free s es t) :
    Run (Intake.step a.config kit) Free s.adapter (es.filterMap Event.served) t.adapter := by
  induction h with
  | nil s => exact .nil _
  | cons _ hstep _ ih =>
    rcases step_intake hstep with ⟨hserved, hsame⟩ | ⟨e', hserved, hintake⟩
    · rw [List.filterMap_cons_none hserved, ← hsame]
      exact ih
    · rw [List.filterMap_cons_some hserved]
      exact .cons trivial hintake ih

/-! ## An adapter that may not listen -/

/-- It stays as it was constructed, with no site and no request. -/
theorem step_constructed (hno : ¬ MayListen out a) (h : Constructed s)
    (hstep : step out kit a s e = some t) : Constructed t := by
  cases e with
  | connect bind =>
    obtain rfl := Option.some.inj hstep
    refine ⟨(connect_sites hno).trans h.sites, fun conn => ?_⟩
    rw [connect_adapter]
    exact h.waiting conn
  | disconnect =>
    obtain rfl := Option.some.inj hstep
    refine ⟨?_, h.waiting⟩
    show (if s.runner = some true then s.sites - 1 else s.sites) = 0
    rw [h.sites]
    exact ite_self 0
  | intake e =>
    unfold step at hstep
    rw [h.sites] at hstep
    cases e with
    | arrive conn request publicKey now => cases hstep
    | resume conn meets =>
      simp only [Intake.step, h.waiting conn] at hstep
      cases hstep
    | take =>
      obtain rfl := Option.some.inj hstep
      exact ⟨rfl, h.waiting⟩
    | closedElsewhere file =>
      obtain rfl := Option.some.inj hstep
      exact ⟨rfl, h.waiting⟩

/-- Nothing comes into the inbox of an adapter in which no request waits. -/
theorem inbox_le (hwaiting : ∀ conn, s.adapter.waiting conn = none)
    (hstep : step out kit a s e = some t) : t.adapter.inbox.length ≤ s.adapter.inbox.length := by
  obtain ⟨-, hsame⟩ | ⟨e', -, hintake⟩ := step_intake hstep
  · rw [hsame]
  · have hchecked : Checked a.config kit s.adapter := by
      intro conn p hp
      rw [hwaiting conn] at hp
      cases hp
    obtain ⟨-, -, hrefuses | ⟨conn, meets, p, parsed, htakes⟩⟩ := step_cases hchecked hintake
    · exact hrefuses.inbox
    · have hp := htakes.waits
      rw [hwaiting conn] at hp
      cases hp

/-- The sentinel alone decides whether signatures are asked for. -/
theorem init_insecure (h : MeshAdapter.init out kit extra rest = .ok a) :
    a.config.insecure = decide (a.authSentinel = insecureNoAuth) := by
  obtain ⟨port, -, h⟩ := bind_ok h
  obtain rfl := Except.ok.inj h
  rfl

/-- **Whom the adapter lets in.** Whatever `platforms.mesh.extra` says, and however the adapter is
connected and disconnected: without a sentinel, or without authentication and off loopback, no site ever
listens. And a message that comes into the inbox came over a loopback interface, or it is made of the
request that the step resumes, which has arrived and was signed under the key of the sender that its
envelope names and its event carries. -/
theorem listener_admits (hnew : MeshAdapter.init out kit extra rest = .ok a) (h0 : Constructed s₀)
    (hrun : Run (step out kit a) Free s₀ es s) :
    (¬ MayListen out a → s.sites = 0) ∧
      ∀ e t, step out kit a s e = some t → s.adapter.inbox.length < t.adapter.inbox.length →
        (a.authSentinel = insecureNoAuth ∧ out.isLoopbackBindHost a.host = true) ∨
          (a.authSentinel ≠ insecureNoAuth ∧ a.authSentinel ≠ "" ∧
            ∃ event conn meets r publicKey now name, t.adapter.inbox = s.adapter.inbox ++ [event] ∧
              e = .intake (.resume conn meets) ∧
              (∃ p, s.adapter.waiting conn = some p ∧ p.request = r) ∧
              .intake (.arrive conn r publicKey now) ∈ es ∧ MadeOf a.config kit r name event ∧
              Signed kit (publicKey name) r ∧ Attributed name event.source) := by
  have hidle : ¬ MayListen out a → Constructed s := fun hno =>
    hrun.invariant (fun _ _ _ h _ hstep => step_constructed hno h hstep) h0
  refine ⟨fun hno => (hidle hno).sites, fun e t hstep hput => ?_⟩
  have hmay : MayListen out a := by
    by_contra hno
    exact absurd (inbox_le (hidle hno).waiting hstep) (not_le.mpr hput)
  by_cases hsentinel : a.authSentinel = insecureNoAuth
  · exact .inl ⟨hsentinel, hmay.2 hsentinel⟩
  · have hauth : a.config.insecure = false := by
      rw [init_insecure hnew]
      exact decide_eq_false hsentinel
    obtain ⟨-, hsame⟩ | ⟨e', hserves, hintake⟩ := step_intake hstep
    · rw [hsame] at hput
      exact absurd hput (lt_irrefl _)
    · obtain ⟨event, conn, meets, r, publicKey, now, name, hinbox, rfl, hwaits, harrived, hmade,
        hsigned, hattributed, -⟩ :=
        events_attributed hauth h0.waiting (run_intake hrun) hintake hput
      obtain rfl : e = .intake (.resume conn meets) := by
        cases e with
        | intake e => exact congrArg Event.intake (Option.some.inj hserves)
        | connect bind => cases hserves
        | disconnect => cases hserves
      obtain ⟨e, he, hserved⟩ := List.mem_filterMap.mp harrived
      cases e with
      | intake e =>
        obtain rfl := Option.some.inj hserved
        exact .inr ⟨hsentinel, hmay.1, event, conn, meets, r, publicKey, now, name, hinbox, rfl, hwaits,
          he, hmade, hsigned, hattributed⟩
      | connect bind => cases hserved
      | disconnect => cases hserved

/-- A host that tells loopback by its name. -/
def localHost : Host where
  int
    | .num q => .ok q.num
    | _ => .error (.valueError "invalid literal for int()")
  getenv _ := none
  isLoopbackBindHost
    | .str host => host = "127.0.0.1" || host = "localhost"
    | _ => false

/-- All interfaces, with authentication. -/
def openExtra : Extra := [("host", .str ""), ("secret", .str "on"), ("agent_name", .str "Vera")]

/-- A signed notice comes to an adapter that could not be bound at first. -/
def reconnects : List Event :=
  [.connect .refused, .connect .started, .disconnect, .connect .started,
    .intake (.arrive 0 (signedNotice "1300" "m1") (fun _ => "key") 1000)]

def noticeResumes : Event := .intake (.resume 0 { rateAt := 1000, seenAt := 1000, sweptAt := 1000 })

theorem listener_admits_open : ∃ a s t, MeshAdapter.init localHost sampleKit openExtra vera = .ok a ∧
    exec (step localHost sampleKit a) { adapter := freshAdapter } reconnects = some s ∧
    step localHost sampleKit a s noticeResumes = some t ∧
    ∃ event conn r name, t.adapter.inbox = s.adapter.inbox ++ [event] ∧
      .intake (.arrive conn r (fun _ => "key") 1000) ∈ reconnects ∧
      MadeOf a.config sampleKit r name event ∧ Signed sampleKit "key" r ∧
      Attributed name event.source := by
  obtain ⟨a, ha⟩ : ∃ a, MeshAdapter.init localHost sampleKit openExtra vera = .ok a := ⟨_, rfl⟩
  have hends : (exec (step localHost sampleKit a) { adapter := freshAdapter } reconnects).bind
      (fun s => (step localHost sampleKit a s noticeResumes).map fun t =>
        decide (s.adapter.inbox.length < t.adapter.inbox.length)) = some true := by
    obtain rfl := Except.ok.inj ha
    decide +kernel
  have hsecret : a.authSentinel ≠ insecureNoAuth := by
    obtain rfl := Except.ok.inj ha
    decide
  obtain ⟨s, hs, hends⟩ := Option.bind_eq_some_iff.mp hends
  obtain ⟨t, ht, hput⟩ := Option.map_eq_some_iff.mp hends
  obtain ⟨hinsecure, -⟩ | ⟨-, -, event, conn, meets, r, publicKey, now, name, hinbox, -, -, harrived,
      hmade, hsigned, hattributed⟩ :=
    (listener_admits ha ⟨rfl, fun _ => rfl⟩ (run_of_exec hs)).2 _ _ ht (of_decide_eq_true hput)
  · exact absurd hinsecure hsecret
  · simp only [reconnects, List.mem_cons, List.not_mem_nil, reduceCtorEq, false_or, or_false,
      Event.intake.injEq, Intake.Event.arrive.injEq] at harrived
    obtain ⟨rfl, rfl, rfl, rfl⟩ := harrived
    exact ⟨a, s, t, ha, hs, ht, event, 0, _, name, hinbox, by simp [reconnects], hmade, hsigned,
      hattributed⟩

end HermesMesh.Listener
