import HermesMesh.Lib.Runs
import HermesMesh.SendLeases

/-!
# Failed sends

The comment at the gate says that a failed send rolls its claim back. The rollback is
`release_if_party` on the message's id, and it runs on one exit only: after a failed delivery with
the outbox off. The exits before the delivery leave the lease that the gate opened, and so does the
outbox, which never looks at the registry. Where the rollback runs it takes every lease of the
sender under that id with it, and the gate may have granted the call on a lease that was already
there. `failed_send_rolls_back` says when none of this happens.
-/

namespace HermesMesh

open Lib OpenThreads

variable {env : Env} {mail : Mail} {args kwargs : List (String × Json)} {w w₀ w₁ w' : World}
  {held : Bool} {file : File} {now : Time} {resp : Response}

/-- The leases live at the instant are those from before, and the lease that the call opened is
gone. -/
structure RolledBack (env : Env) (mail : Mail) (now : Time) (before after : File) : Prop where
  kept : ∀ rec, live now rec = true → (rec ∈ after.entries ↔ rec ∈ before.entries)
  gone : Opens env mail before → env.ownLease mail ∉ after.entries

/-- No lease live at the instant is one that the sender may release under the message's id. -/
def Spared (mail : Mail) (now : Time) (file : File) : Prop :=
  ∀ rec ∈ file.entries, live now rec = true → releasable (.str mail.taskId) mail.self rec = false

/-- When a failed send leaves the registry as it was. A call that opened a lease has to come to the
rollback, with a registry it can read and write; and a rollback has to find nothing but that lease
under the message's id. -/
def RollsBack (env : Env) (mail : Mail) (now : Time) (before : File) : Prop :=
  (Opens env mail before → Attempted env mail ∧ env.rollback.healthy = true ∧
      (env.claim.io.readable = true ∨ before.liveAt now = []) ∧ Spared mail now before) ∧
    (¬ Opens env mail before → Attempted env mail → Joined env mail before →
      env.rollback.healthy = true → Spared mail now before)

/-! ## The rollback -/

theorem releaseIfParty_entries (io : Io) (threadId who : String) (file : File) :
    (releaseIfParty io threadId who file).2.entries =
      if io.healthy then file.entries.filter fun r => !releasable (.str threadId) who r
      else file.entries := by
  rw [releaseIfParty_snd]
  cases io.healthy with
  | false => rfl
  | true =>
    by_cases ha : file.entries.any (releasable (.str threadId) who) = true
    · rw [if_pos (by simpa using ha)]
      rfl
    · rw [if_neg (by simpa using ha), if_pos rfl]
      refine (List.filter_eq_self.mpr fun r hr => ?_).symm
      simp only [List.any_eq_true, not_exists, not_and, Bool.not_eq_true] at ha
      rw [ha r hr]
      rfl

theorem mem_rollback {rec : Lease} :
    rec ∈ (rollback env mail held file).entries ↔
      rec ∈ file.entries ∧ (held = true → env.rollback.healthy = true →
        releasable (.str mail.taskId) mail.self rec = false) := by
  unfold rollback
  cases held with
  | false => simp
  | true =>
    rw [if_pos rfl, releaseIfParty_entries]
    cases env.rollback.healthy <;> simp

/-- The sender may release the lease it has opened. -/
theorem releasable_ownLease (env : Env) (mail : Mail) :
    releasable (.str mail.taskId) mail.self (env.ownLease mail) = true := by
  have hparty : (env.ownLease mail).hasParty mail.self = true := hasParty_iff.mpr (.inl rfl)
  unfold releasable
  rw [hparty, Bool.and_true]
  exact Json.isStr_iff.mpr rfl

/-- A failed send ends before the delivery, or in the rollback. -/
theorem forward_failed (h : forward env mail held w = (.ok resp, w')) (herr : resp.isError = true) :
    (¬ Attempted env mail ∧ w'.leases = w.leases) ∨
      (Attempted env mail ∧ w'.leases = rollback env mail held w.leases) := by
  rcases forward_returns h with ⟨-, hends⟩ | ⟨hno, -⟩
  · exact hends
  · rw [herr] at hno
    cases hno

/-! ## When the registry is as it was -/

theorem rolledBack_self (h : ¬ Opens env mail file) : RolledBack env mail now file file :=
  ⟨fun _ _ => Iff.rfl, fun ho => absurd ho h⟩

/-- Without a lease of its own, the call rolls back nothing but what was there. -/
theorem rolledBack_kept (h : ¬ Opens env mail file) :
    RolledBack env mail now file (rollback env mail held file) ↔
      (held = true → env.rollback.healthy = true → Spared mail now file) := by
  constructor
  · intro hr hheld hhealthy rec hrec hlive
    have hmem := (hr.kept rec hlive).mpr hrec
    exact (mem_rollback.mp hmem).2 hheld hhealthy
  · intro hs
    refine ⟨fun rec hlive => ⟨fun hmem => (mem_rollback.mp hmem).1, fun hrec => ?_⟩,
      fun ho => absurd ho h⟩
    exact mem_rollback.mpr ⟨hrec, fun hheld hhealthy => hs hheld hhealthy rec hrec hlive⟩

theorem ownLease_mem (env : Env) (mail : Mail) (file : File) :
    env.ownLease mail ∈ (env.opened mail file).entries :=
  List.mem_append_right _ (List.mem_singleton_self _)

/-- A live lease is seen by the claim exactly where the claim can read the registry. -/
theorem mem_seen {rec : Lease} (hnow : env.claim.now ≤ now) (hlive : live now rec = true) :
    rec ∈ env.seen file ↔ env.claim.io.readable = true ∧ rec ∈ file.entries := by
  unfold Env.seen liveEntries OpenThreads.read
  cases env.claim.io.readable with
  | false => simp
  | true =>
    rw [if_pos rfl, List.mem_filter]
    exact ⟨fun h => ⟨rfl, h.1⟩, fun h => ⟨h.2, live_of_le hnow hlive⟩⟩

/-- The lease of its own goes, and the other live ones stay, exactly where the rollback works and
none of them lies under the message's id. -/
theorem rolledBack_opened (ho : Opens env mail file) (hnow : env.claim.now ≤ now) :
    RolledBack env mail now file (rollback env mail true (env.opened mail file)) ↔
      env.rollback.healthy = true ∧
        (env.claim.io.readable = true ∨ file.liveAt now = []) ∧ Spared mail now file := by
  have hown := releasable_ownLease env mail
  constructor
  · intro hr
    have hhealthy : env.rollback.healthy = true := by
      by_contra hno
      refine hr.gone ho (mem_rollback.mpr ⟨ownLease_mem env mail file, fun _ h => ?_⟩)
      exact absurd h hno
    have hafter : ∀ rec ∈ file.entries, live now rec = true →
        env.claim.io.readable = true ∧ releasable (.str mail.taskId) mail.self rec = false := by
      intro rec hrec hlive
      obtain ⟨hmem, hrel⟩ := mem_rollback.mp ((hr.kept rec hlive).mpr hrec)
      have hrel := hrel rfl hhealthy
      rcases List.mem_append.mp hmem with hseen | hmem
      · exact ⟨((mem_seen hnow hlive).mp hseen).1, hrel⟩
      · obtain rfl := List.mem_singleton.mp hmem
        rw [hown] at hrel
        cases hrel
    refine ⟨hhealthy, ?_, fun rec hrec hlive => (hafter rec hrec hlive).2⟩
    by_cases hempty : file.liveAt now = []
    · exact .inr hempty
    · obtain ⟨rec, hrec⟩ := List.exists_mem_of_ne_nil _ hempty
      obtain ⟨hrec, hlive⟩ := mem_liveAt.mp hrec
      exact .inl (hafter rec hrec hlive).1
  · rintro ⟨hhealthy, hread, hs⟩
    have hgone : env.ownLease mail ∉ (rollback env mail true (env.opened mail file)).entries := by
      intro hmem
      rw [(mem_rollback.mp hmem).2 rfl hhealthy] at hown
      cases hown
    refine ⟨fun rec hlive => ⟨fun hmem => ?_, fun hrec => ?_⟩, fun _ => hgone⟩
    · rcases List.mem_append.mp (mem_rollback.mp hmem).1 with hseen | hself
      · exact ((mem_seen hnow hlive).mp hseen).2
      · obtain rfl := List.mem_singleton.mp hself
        exact absurd hmem hgone
    · refine mem_rollback.mpr ⟨List.mem_append_left _ ?_, fun _ _ => hs rec hrec hlive⟩
      refine (mem_seen hnow hlive).mpr ⟨hread.resolve_right fun hempty => ?_, hrec⟩
      exact List.ne_nil_of_mem (mem_liveAt.mpr ⟨hrec, hlive⟩) hempty

/-- What a failed send leaves, from the registry before the gate. -/
theorem rolledBack_iff (hgate : gate env mail w = (.ok held, w₁))
    (hsend : forward env mail held w₁ = (.ok resp, w')) (herr : resp.isError = true)
    (hnow : env.claim.now ≤ now) :
    RolledBack env mail now w.leases w'.leases ↔ RollsBack env mail now w.leases := by
  have hend := forward_failed hsend herr
  rcases gate_cases env mail w with
    ⟨hj, heq⟩ | ⟨-, r, w₂, heq, -⟩ | ⟨ho, heq⟩ | ⟨hj, -, ho, heq⟩ <;>
    rw [hgate] at heq <;> cases heq
  · have ho : ¬ Opens env mail w.leases := fun ho => ho.not_joined hj
    rcases hend with ⟨ha, hleases⟩ | ⟨ha, hleases⟩ <;> rw [hleases]
    · exact ⟨fun _ => ⟨fun h => absurd h ho, fun _ h => absurd h ha⟩, fun _ => rolledBack_self ho⟩
    · rw [rolledBack_kept ho]
      exact ⟨fun h => ⟨fun h' => absurd h' ho, fun _ _ _ => h rfl⟩,
        fun h _ => h.2 ho ha hj⟩
  · rcases hend with ⟨ha, hleases⟩ | ⟨ha, hleases⟩ <;> rw [hleases]
    · constructor
      · intro h
        exact absurd (ownLease_mem env mail w.leases) (h.gone ho)
      · intro h
        exact absurd (h.1 ho).1 ha
    · apply (rolledBack_opened ho hnow).trans
      exact ⟨fun h => ⟨fun _ => ⟨ha, h⟩, fun h' => absurd ho h'⟩, fun h => (h.1 ho).2⟩
  · rcases hend with ⟨ha, hleases⟩ | ⟨ha, hleases⟩ <;> rw [hleases]
    · exact ⟨fun _ => ⟨fun h => absurd h ho, fun _ h => absurd h ha⟩, fun _ => rolledBack_self ho⟩
    · rw [rolledBack_kept ho]
      exact ⟨fun _ => ⟨fun h' => absurd h' ho, fun _ _ h => absurd h hj⟩, fun _ => nofun⟩

/-! ## Dead letters -/

/-- The registry and the outbox of a host. -/
structure Host where
  leases : File
  outbox : Outbox.State

/-- A step of the outbox: `outbox.py` never opens the registry. -/
def Host.step (cfg : Outbox.Config) (s : Host) (e : Outbox.Event) : Option Host :=
  (Outbox.step cfg s.outbox e).map fun outbox => { s with outbox }

/-- From this registry on the item was queued, and sweeps have brought it to `dead/`. -/
def DeadLettered (cfg : Outbox.Config) (item : Outbox.Item) (leases : File) (t : Host) : Prop :=
  ∃ s es, s.leases = leases ∧ Run (Host.step cfg) Free s es t ∧ item ∈ t.outbox.queued ∧
    item.id ∈ t.outbox.disk.dead

theorem DeadLettered.leases {cfg : Outbox.Config} {item : Outbox.Item} {leases : File} {t : Host}
    (h : DeadLettered cfg item leases t) : t.leases = leases := by
  obtain ⟨s, es, hs, hrun, -⟩ := h
  refine hrun.invariant (I := fun s => s.leases = leases) ?_ hs
  intro s e s' hleases _ hstep
  obtain ⟨outbox, -, rfl⟩ := Option.map_eq_some_iff.mp hstep
  exact hleases

theorem forward_queued (h : forward env mail held w = (.ok resp, w'))
    (hqueued : resp.state = some "queued") : w'.leases = w.leases := by
  rcases forward_returns h with ⟨hfails, -⟩ | ⟨-, ⟨-, hleases⟩ | ⟨hstate, -⟩⟩
  · rw [hfails.2] at hqueued
    cases hqueued
  · exact hleases
  · rw [hqueued] at hstate
    exact absurd (Option.some.inj hstate) (by decide)

theorem handleMeshSend_granted (hprep : prepare env args kwargs w = (.ok mail, w₀))
    (hgate : gate env mail w₀ = (.ok held, w₁)) :
    handleMeshSend env args kwargs w = forward env mail held w₁ := by
  unfold handleMeshSend
  simp only [hprep, hgate]

theorem handleMeshSend_refused {refusal : Response} (hprep : prepare env args kwargs w = (.ok mail, w₀))
    (hgate : gate env mail w₀ = (.error refusal, w₁)) :
    handleMeshSend env args kwargs w = (.ok refusal, w₁) := by
  unfold handleMeshSend
  simp only [hprep, hgate]

/-- A call that comes to the gate and returns is refused there, or goes on to the delivery. -/
theorem handleMeshSend_returns (hprep : prepare env args kwargs w = (.ok mail, w₀))
    (hsend : handleMeshSend env args kwargs w = (.ok resp, w')) :
    gate env mail w₀ = (.error resp, w') ∨
      ∃ held w₁, gate env mail w₀ = (.ok held, w₁) ∧ forward env mail held w₁ = (.ok resp, w') := by
  rcases hgate : gate env mail w₀ with ⟨refusal | held, w₁⟩
  · rw [handleMeshSend_refused hprep hgate] at hsend
    obtain ⟨hresp, rfl⟩ := Prod.mk.inj hsend
    obtain rfl := Except.ok.inj hresp
    exact .inl rfl
  · exact .inr ⟨held, w₁, rfl, (handleMeshSend_granted hprep hgate).symm.trans hsend⟩

/-- **When a failed send rolls its claim back.** A call that the gate let through and that returns an
error leaves the registry as it was exactly where `RollsBack` says so; and a queued message that is
dead-lettered leaves no lease behind exactly where its send opened none. -/
theorem failed_send_rolls_back (hprep : prepare env args kwargs w = (.ok mail, w₀))
    (hgate : gate env mail w₀ = (.ok held, w₁))
    (hsend : handleMeshSend env args kwargs w = (.ok resp, w')) :
    (resp.isError = true → ∀ now, env.claim.now ≤ now →
      (RolledBack env mail now w.leases w'.leases ↔ RollsBack env mail now w.leases)) ∧
    (resp.state = some "queued" → ∀ cfg item t, w'.outbox.head? = some item →
      DeadLettered cfg item w'.leases t →
      ((Opens env mail w.leases → env.ownLease mail ∉ t.leases.entries) ↔
        ¬ Opens env mail w.leases)) := by
  rw [handleMeshSend_granted hprep hgate] at hsend
  rw [← prepared_leases hprep]
  refine ⟨fun herr now hnow => rolledBack_iff hgate hsend herr hnow, ?_⟩
  intro hqueued cfg item t _ hdead
  refine ⟨fun h ho => h ho ?_, fun hno ho => absurd ho hno⟩
  rw [hdead.leases, forward_queued hsend hqueued]
  rcases gate_cases env mail w₀ with
    ⟨hj, -⟩ | ⟨hr, -⟩ | ⟨-, heq⟩ | ⟨-, -, hno, -⟩
  · exact absurd hj ho.not_joined
  · exact absurd hr ho.not_refused
  · rw [hgate] at heq
    cases heq
    exact ownLease_mem env mail w₀.leases
  · exact absurd ho hno

/-- Tokens made of the characters of a name. -/
def nameToken : TokenRule := .of fun token => token ≠ "" && token.toList.all isNameChar

/-- A peer that refuses every connection. -/
def downPeer : Net where
  resolved := .ok [{ text := "203.0.113.5" }]
  dial _ _ := .failed "[Errno 111] Connection refused"
  opened := 0
  tried attempt := attempt
  failed attempt := attempt
  left attempt := attempt

/-- A gateway whose peer is down. -/
def zeroDown : Env where
  valid := nameToken
  selfName := "zero"
  uuid := "m1"
  claim := { now := 1000 }
  identity _ := some "http://peer"
  net := downPeer

/-- A question to vera. -/
def question : List (String × Json) :=
  [("message", .str "ready?"), ("agent", .str "vera"), ("action", .str "info"),
    ("reply", .str "yes")]

/-- The same, to a session whose name is no token. -/
def badSession : List (String × Json) := question ++ [("session", .str "day shift")]

/-- No lease, no closed thread. -/
def emptyWorld : World where
  closed := ⟨⟨.absent, none⟩, {}⟩

/-- The gate lets the call pass. -/
def passes (env : Env) (args kwargs : List (String × Json)) (w : World) : Bool :=
  match prepare env args kwargs w with
  | (.ok mail, w) => (gate env mail w).1.isOk
  | _ => false

theorem granted_of_passes (h : passes env args kwargs w = true) :
    ∃ mail w₀ held w₁, prepare env args kwargs w = (.ok mail, w₀) ∧
      gate env mail w₀ = (.ok held, w₁) := by
  unfold passes at h
  generalize prepare env args kwargs w = p at h
  obtain ⟨stop | mail, w₀⟩ := p
  · cases h
  · dsimp only at h
    generalize hg : gate env mail w₀ = g at h
    obtain ⟨r | held, w₁⟩ := g
    · cases h
    · exact ⟨mail, w₀, held, w₁, rfl, hg⟩

/-- What a call leaves: whether it was an error, and the registry. -/
def outcome (call : Except PyError Response × World) : Option Bool × File :=
  (call.1.toOption.map Response.isError, call.2.leases)

theorem returns_of_outcome {call : Except PyError Response × World} {err : Bool} {file : File}
    (h : outcome call = (some err, file)) :
    ∃ resp w', call = (.ok resp, w') ∧ resp.isError = err ∧ w'.leases = file := by
  obtain ⟨e | resp, w'⟩ := call
  · cases (Prod.mk.inj h).1
  · exact ⟨resp, w', rfl, Option.some.inj (Prod.mk.inj h).1, (Prod.mk.inj h).2⟩

/-- The item that the question becomes. -/
def questionItem : Outbox.Item :=
  let text := "[mesh][v:1][from:zero][to:vera][id:m1][action:info][reply:yes] ready?"
  Outbox.newItem 0 0 0 "zero" "vera" text text 0 none false none

/-- One sweep that gives the item up after its first attempt. -/
def buried : List Outbox.Event :=
  [.queue questionItem, .act 0 (.start 0), .act 0 (.go false), .act 0 (.attempt .failed),
    .act 0 (.go false), .act 0 (.go false)]

theorem deadLettered_buried (leases : File) :
    ∃ t, DeadLettered { maxAttempts := 1 } questionItem leases t := by
  have hsweep : (exec (Host.step { maxAttempts := 1 }) ⟨none, {}⟩ buried).map (fun t =>
      (t.outbox.queued, decide (0 ∈ t.outbox.disk.dead))) = some ([questionItem], true) := by
    decide +kernel
  have hany : (exec (Host.step { maxAttempts := 1 }) ⟨leases, {}⟩ buried).map (fun t =>
      (t.outbox.queued, decide (0 ∈ t.outbox.disk.dead))) = some ([questionItem], true) := hsweep
  obtain ⟨t, ht, hends⟩ := Option.map_eq_some_iff.mp hany
  obtain ⟨hq, hdead⟩ := Prod.mk.inj hends
  exact ⟨t, _, _, rfl, run_of_exec ht, by rw [hq]; exact List.mem_singleton_self _,
    of_decide_eq_true hdead⟩

/-- The gateway with its outbox on. -/
def zeroQueues : Env := { zeroDown with outboxEnabled := true }

theorem failed_send_rolls_back_down :
    (∃ mail resp w', handleMeshSend zeroDown question [] emptyWorld = (.ok resp, w') ∧
      resp.isError = true ∧
      (RolledBack zeroDown mail 1000 emptyWorld.leases w'.leases ↔
        RollsBack zeroDown mail 1000 emptyWorld.leases)) ∧
    ∃ mail resp w' t, handleMeshSend zeroQueues question [] emptyWorld = (.ok resp, w') ∧
      DeadLettered { maxAttempts := 1 } questionItem w'.leases t ∧
      ((Opens zeroQueues mail emptyWorld.leases → zeroQueues.ownLease mail ∉ t.leases.entries) ↔
        ¬ Opens zeroQueues mail emptyWorld.leases) := by
  have hpass : passes zeroDown question [] emptyWorld = true := by decide +kernel
  have hout : outcome (handleMeshSend zeroDown question [] emptyWorld) = (some true, some []) := by
    decide +kernel
  have hpass' : passes zeroQueues question [] emptyWorld = true := by decide +kernel
  have hout' : (handleMeshSend zeroQueues question [] emptyWorld).1.toOption.map Response.state =
      some (some "queued") := by
    decide +kernel
  have hitem : (handleMeshSend zeroQueues question [] emptyWorld).2.outbox = [questionItem] := by
    decide +kernel
  obtain ⟨mail, w₀, held, w₁, hprep, hgate⟩ := granted_of_passes hpass
  obtain ⟨resp, w', hsend, herr, -⟩ := returns_of_outcome hout
  obtain ⟨mail', v₀, held', v₁, hprep', hgate'⟩ := granted_of_passes hpass'
  generalize hsend' : handleMeshSend zeroQueues question [] emptyWorld = c at hout' hitem
  obtain ⟨e | resp', v'⟩ := c
  · cases hout'
  · obtain ⟨t, ht⟩ := deadLettered_buried v'.leases
    refine ⟨⟨mail, resp, w', hsend, herr,
      (failed_send_rolls_back hprep hgate hsend).1 herr 1000 (le_refl 1000)⟩,
      mail', resp', v', t, rfl, ht, ?_⟩
    exact (failed_send_rolls_back hprep' hgate' hsend').2 (Option.some.inj hout') _ questionItem t
      (congrArg List.head? hitem) ht

/-- The gate opens a lease for a question to vera, the session token is refused, and the lease
stays. -/
theorem failed_send_keeps_lease :
    ∃ mail w₀ held w₁ resp w',
      prepare zeroDown badSession [] emptyWorld = (.ok mail, w₀) ∧
      gate zeroDown mail w₀ = (.ok held, w₁) ∧
      handleMeshSend zeroDown badSession [] emptyWorld = (.ok resp, w') ∧
      resp.isError = true ∧ ¬ RolledBack zeroDown mail 1000 emptyWorld.leases w'.leases := by
  have hpass : passes zeroDown badSession [] emptyWorld = true := by decide +kernel
  have hout : outcome (handleMeshSend zeroDown badSession [] emptyWorld) =
      (some true, some [newLease 1000 "m1" "zero" "vera" 30]) := by
    decide +kernel
  obtain ⟨mail, w₀, held, w₁, hprep, hgate⟩ := granted_of_passes hpass
  obtain ⟨resp, w', hsend, herr, hfile⟩ := returns_of_outcome hout
  refine ⟨mail, w₀, held, w₁, resp, w', hprep, hgate, hsend, herr, fun h => ?_⟩
  have hlive : live 1000 (newLease 1000 "m1" "zero" "vera" 30) = true :=
    newLease_live (by decide)
  have hmem := (h.kept _ hlive).mp (by rw [hfile]; exact List.mem_singleton_self _)
  cases hmem

end HermesMesh
