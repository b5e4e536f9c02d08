import HermesMesh.QueuedItems
import HermesMesh.ThreadAddress

/-!
# Late terminators

A terminator that is delivered by `handle_mesh_send` closes its anchor and releases its lease. One
that is delivered out of the outbox closes its anchor and nothing else: `_attempt_item` has no lease
bookkeeping, and the item does not even carry the `thread` that the sender named. The two paths
agree exactly where there was nothing to release (`late_terminator_iff`).
-/

namespace HermesMesh

open OpenThreads

variable {env env' : Env} {mail : Mail} {args kwargs extra item : List (String × Json)}
  {w w₀ w' v v' : World} {resp : Response} {file : File} {now : Time} {deliveryId : Json} {rec : Lease}

/-- The delivery id of an attempt that delivers its item, and what the attempt leaves. -/
def redeliver (env : Env) (extra item : List (String × Json)) (w : World) : Option (Json × World) :=
  match beginAttempt env extra item w with
  | (.posting p, w₁) =>
    match p.deliver env with
    | .ok d =>
      if d.deliveryId.isSome then some (d.deliveryId, (settleAttempt env p.anchor (.ok d) w₁).2)
      else none
    | .error _ => none
  | _ => none

/-- A probe of the id takes this lease out. -/
def Takes (mail : Mail) (probe : Json × Io) (rec : Lease) : Prop :=
  probe.2.statOk = true ∧ probe.2.healthy = true ∧ releasable probe.1 mail.self rec = true

/-- The ids that a terminator without a `thread` probes. -/
def Env.fallbackProbes (env : Env) (mail : Mail) (deliveryId : Json) : List (Json × Io) :=
  [(optText mail.ref, env.refProbe), (deliveryId, env.deliveryProbe),
    (.str mail.taskId, env.taskProbe)]

/-- The terminator releases this lease as its delivery is confirmed. -/
def Releases (env : Env) (mail : Mail) (deliveryId : Json) (rec : Lease) : Prop :=
  match mail.thread with
  | some thread => Takes mail (.str thread, env.threadProbe) rec
  | none => ∃ probe ∈ env.fallbackProbes mail deliveryId, probe.1.truthy = true ∧ Takes mail probe rec

/-- A live delivery releases this lease: its float does not raise before the release. -/
def ReleasesLive (env : Env) (mail : Mail) (deliveryId : Json) (rec : Lease) : Prop :=
  env.floatFault = none ∧ Releases env mail deliveryId rec

/-! ## The live path -/

theorem mem_releaseIfPartyStatus (explicitlyConfigured : Bool) (probe : Json × Io) :
    rec ∈ (releaseIfPartyStatus explicitlyConfigured probe.2 probe.1 mail.self file).2.entries ↔
      rec ∈ file.entries ∧ ¬ Takes mail probe rec := by
  unfold Takes
  rcases releaseIfPartyStatus_cases explicitlyConfigured probe.2 probe.1 mail.self file with
    ⟨hstat, hhealthy, heq⟩ | ⟨hnone, _, -, heq⟩ <;> rw [heq]
  · rw [File.entries_some, List.mem_filter]
    simp [hstat, hhealthy]
  · refine ⟨fun h => ⟨h, fun ⟨hstat, hhealthy, hrel⟩ => ?_⟩, fun h => h.1⟩
    rw [hnone hstat hhealthy rec h] at hrel
    cases hrel

theorem mem_probeAll (explicitlyConfigured : Bool) (probes : List (Json × Io)) :
    ∀ file : File, rec ∈ (probeAll explicitlyConfigured mail.self probes file).2.entries ↔
      rec ∈ file.entries ∧ ∀ probe ∈ probes, probe.1.truthy = true → ¬ Takes mail probe rec := by
  induction probes with
  | nil => simp [probeAll]
  | cons probe rest ih =>
    intro file
    unfold probeAll
    dsimp only
    rw [List.forall_mem_cons]
    split_ifs with htruthy
    · exact (ih _).trans ((and_congr_left' (mem_releaseIfPartyStatus explicitlyConfigured probe)).trans
        ⟨fun h => ⟨h.1.1, fun _ => h.1.2, h.2⟩, fun h => ⟨⟨h.1, h.2.1 htruthy⟩, h.2.2⟩⟩)
    · exact (ih file).trans ⟨fun h => ⟨h.1, fun ht => absurd ht htruthy, h.2⟩,
        fun h => ⟨h.1, h.2.2⟩⟩

theorem mem_bookkeeping (hreply : mail.reply = .end_) :
    rec ∈ (bookkeeping env mail deliveryId file).2.entries ↔
      rec ∈ file.entries ∧ ¬ Releases env mail deliveryId rec := by
  unfold bookkeeping terminate Releases
  rw [hreply]
  cases mail.thread with
  | some thread =>
    exact mem_releaseIfPartyStatus env.explicitlyConfigured (.str thread, env.threadProbe)
  | none =>
    apply (mem_probeAll env.explicitlyConfigured (env.fallbackProbes mail deliveryId) file).trans
    simp only [not_exists, not_and]

theorem mem_delivered {padded : String} (hreply : mail.reply = .end_) :
    rec ∈ (delivered env mail padded deliveryId w).2.leases.entries ↔
      rec ∈ w.leases.entries ∧ ¬ ReleasesLive env mail deliveryId rec := by
  obtain ⟨e, hfault, -, hkept⟩ | ⟨hfault, -, hbook⟩ := delivered_spec env mail padded deliveryId w
  · rw [hkept]
    refine ⟨fun h => ⟨h, fun hlive => ?_⟩, fun h => h.1⟩
    cases hfault.symm.trans hlive.1
  · rw [hbook, mem_bookkeeping hreply]
    exact and_congr_right' (not_congr ⟨fun h => ⟨hfault, h⟩, fun h => h.2⟩)

/-! ## Both paths -/

theorem redeliver_attempt (h : redeliver env extra item v = some (deliveryId, v')) :
    attemptItem env extra item v = (.ok true, v') := by
  unfold redeliver at h
  unfold attemptItem
  generalize beginAttempt env extra item v = b at h ⊢
  obtain ⟨e | - | - | p, v₁⟩ := b
  · cases h
  · cases h
  · cases h
  · dsimp only at h ⊢
    cases hdeliver : p.deliver env with
    | error e => rw [hdeliver] at h; cases h
    | ok d =>
      rw [hdeliver] at h
      dsimp only at h
      split_ifs at h with hsome
      obtain ⟨-, rfl⟩ := Prod.mk.inj (Option.some.inj h)
      unfold settleAttempt
      dsimp only
      rw [if_pos hsome]

theorem redeliver_leases (h : redeliver env extra item v = some (deliveryId, v')) :
    v'.leases = v.leases := by
  have hleases : (attemptItem env extra item v).2.leases = v.leases := attemptItem_leases
  rw [redeliver_attempt h] at hleases
  exact hleases

/-- The same leases are live in both registries. -/
def SameLive (now : Time) (file file' : File) : Prop :=
  ∀ rec, rec ∈ file.liveAt now ↔ rec ∈ file'.liveAt now

/-- **When a late terminator does what a live one does.** For every terminator that was queued, and
every retry that delivers it: the same leases are live after it as after a live delivery under the
same id, exactly where that delivery would have released no live lease. The retry itself keeps every
lease, the one under the terminator's `thread` or `ref` too. -/
theorem late_terminator_iff (hprep : prepare env args kwargs w = (.ok mail, w₀))
    (hreply : mail.reply = .end_) (hsend : handleMeshSend env args kwargs w = (.ok resp, w'))
    (hqueued : resp.state = some "queued") :
    ∃ item, w'.outbox.head? = some item ∧ item.anchor = some mail.taskId ∧
      ∀ attempt nextRetry env' extra v deliveryId v',
        redeliver env' extra (item.later attempt nextRetry).fields v = some (deliveryId, v') →
        attemptItem env' extra (item.later attempt nextRetry).fields v = (.ok true, v') ∧
        v'.leases = v.leases ∧ ∀ now,
          (SameLive now v'.leases
              (delivered env' mail item.paddedMessage deliveryId v).2.leases ↔
            ∀ rec ∈ v.leases.liveAt now, ¬ ReleasesLive env' mail deliveryId rec) := by
  rw [handleMeshSend_end hprep hreply] at hsend
  obtain ⟨session, fromSession, url, -, -, -, -, houtbox⟩ := forward_queuedItem hsend hqueued
  refine ⟨_, houtbox, if_pos hreply, fun attempt nextRetry env' extra v deliveryId v' hretry => ?_⟩
  have hleases := redeliver_leases hretry
  refine ⟨redeliver_attempt hretry, hleases, fun now => ?_⟩
  rw [hleases]
  constructor
  · intro h rec hrec
    have hafter := mem_liveAt.mp ((h rec).mp hrec)
    exact ((mem_delivered hreply).mp hafter.1).2
  · intro h rec
    refine ⟨fun hrec => ?_, fun hrec => ?_⟩
    · obtain ⟨hmem, hlive⟩ := mem_liveAt.mp hrec
      exact mem_liveAt.mpr ⟨(mem_delivered hreply).mpr ⟨hmem, h rec hrec⟩, hlive⟩
    · obtain ⟨hmem, hlive⟩ := mem_liveAt.mp hrec
      exact mem_liveAt.mpr ⟨((mem_delivered hreply).mp hmem).1, hlive⟩

/-- Zero ends the thread `t`. -/
def farewell : List (String × Json) :=
  [("message", .str "bye"), ("agent", .str "vera"), ("action", .str "info"), ("reply", .str "end"),
    ("thread", .str "t")]

/-- The thread that vera has opened. -/
def veraTalk : Lease := newLease 900 "t" "vera" "zero" 30

def veraTalks : World := { emptyWorld with leases := some [veraTalk] }

/-- The item of the farewell. -/
def farewellItem : Outbox.Item :=
  let text := "[mesh][v:1][from:zero][to:vera][id:m1][action:info][reply:end] bye"
  Outbox.newItem 0 0 0 "zero" "vera" text text 0 none false (some "m1")

/-- The gateway as vera is back. -/
def zeroBack : Env := { zeroQueues with net := accepting "m1" }

/-- The farewell is queued, and delivered by the next sweep; the lease is there before and after. -/
theorem farewell_late :
    ∃ mail w₀ resp w' v', prepare zeroQueues farewell [] veraTalks = (.ok mail, w₀) ∧
      mail.self = "zero" ∧ mail.reply = .end_ ∧ mail.thread = some "t" ∧
      handleMeshSend zeroQueues farewell [] veraTalks = (.ok resp, w') ∧
      resp.state = some "queued" ∧ w'.outbox.head? = some farewellItem ∧
      w'.leases = some [veraTalk] ∧
      redeliver zeroBack [] (farewellItem.later 1 1000).fields w' = some (.str "m1", v') ∧
      v'.leases = some [veraTalk] := by
  have hmail : (prepare zeroQueues farewell [] veraTalks).1.toOption.map (fun mail =>
      (mail.self, mail.reply, mail.thread)) = some ("zero", .end_, some "t") := by
    decide +kernel
  have hcall : (handleMeshSend zeroQueues farewell [] veraTalks).1.toOption.map Response.state =
      some (some "queued") := by
    decide +kernel
  have hleft : ((handleMeshSend zeroQueues farewell [] veraTalks).2.outbox.head?,
      (handleMeshSend zeroQueues farewell [] veraTalks).2.leases) =
      (some farewellItem, some [veraTalk]) := by
    decide +kernel
  have hretry : (redeliver zeroBack [] (farewellItem.later 1 1000).fields
      (handleMeshSend zeroQueues farewell [] veraTalks).2).map (fun r =>
        (r.1.isStr "m1", r.2.leases)) = some (true, some [veraTalk]) := by
    decide +kernel
  generalize prepare zeroQueues farewell [] veraTalks = p at hmail ⊢
  generalize handleMeshSend zeroQueues farewell [] veraTalks = c at hcall hleft hretry ⊢
  obtain ⟨stop | mail, w₀⟩ := p
  · cases hmail
  · obtain ⟨e | resp, w'⟩ := c
    · cases hcall
    · obtain ⟨⟨id, v'⟩, hretry, hends⟩ := Option.map_eq_some_iff.mp hretry
      obtain ⟨hid, hleases⟩ := Prod.mk.inj hends
      obtain rfl := Json.isStr_iff.mp hid
      obtain ⟨hself, hmail⟩ := Prod.mk.inj (Option.some.inj hmail)
      obtain ⟨hitem, hbefore⟩ := Prod.mk.inj hleft
      exact ⟨mail, w₀, resp, w', v', rfl, hself, (Prod.mk.inj hmail).1, (Prod.mk.inj hmail).2, rfl,
        Option.some.inj hcall, hitem, hbefore, hretry, hleases⟩

theorem late_terminator_iff_farewell :
    ∃ mail w₀ resp w' v', prepare zeroQueues farewell [] veraTalks = (.ok mail, w₀) ∧
      handleMeshSend zeroQueues farewell [] veraTalks = (.ok resp, w') ∧
      redeliver zeroBack [] (farewellItem.later 1 1000).fields w' = some (.str "m1", v') ∧
      (SameLive 1000 v'.leases
          (delivered zeroBack mail farewellItem.paddedMessage (.str "m1") w').2.leases ↔
        ∀ rec ∈ w'.leases.liveAt 1000, ¬ ReleasesLive zeroBack mail (.str "m1") rec) := by
  obtain ⟨mail, w₀, resp, w', v', hprep, -, hreply, -, hsend, hqueued, hitem, -, hretry, -⟩ :=
    farewell_late
  obtain ⟨item, hitem', -, h⟩ := late_terminator_iff hprep hreply hsend hqueued
  obtain rfl := Option.some.inj (hitem.symm.trans hitem')
  exact ⟨mail, w₀, resp, w', v', hprep, hsend, hretry,
    (h 1 1000 zeroBack [] w' (.str "m1") v' hretry).2.2 1000⟩

/-- Delivered live, the farewell releases the lease; out of the outbox it does not. -/
theorem late_terminator_holds_on :
    ∃ mail w₀ resp w' v', prepare zeroQueues farewell [] veraTalks = (.ok mail, w₀) ∧
      mail.reply = .end_ ∧ mail.thread = some "t" ∧
      handleMeshSend zeroQueues farewell [] veraTalks = (.ok resp, w') ∧
      resp.state = some "queued" ∧ w'.outbox.head? = some farewellItem ∧
      redeliver zeroBack [] (farewellItem.later 1 1000).fields w' = some (.str "m1", v') ∧
      veraTalk ∈ v'.leases.liveAt 1000 ∧
      ¬ SameLive 1000 v'.leases
          (delivered zeroBack mail farewellItem.paddedMessage (.str "m1") w').2.leases := by
  obtain ⟨mail, w₀, resp, w', v', hprep, hself, hreply, hthread, hsend, hqueued, hitem, -, hretry,
    hafter⟩ := farewell_late
  have hlive : veraTalk ∈ v'.leases.liveAt 1000 := by
    rw [hafter]
    exact mem_liveAt.mpr ⟨List.mem_singleton_self _, by decide +kernel⟩
  have hreleases : ReleasesLive zeroBack mail (.str "m1") veraTalk := by
    refine ⟨rfl, ?_⟩
    unfold Releases Takes
    rw [hthread, hself]
    exact ⟨rfl, rfl, rfl⟩
  refine ⟨mail, w₀, resp, w', v', hprep, hreply, hthread, hsend, hqueued, hitem, hretry, hlive, ?_⟩
  intro hsame
  have hkept := (mem_liveAt.mp ((hsame veraTalk).mp hlive)).1
  exact ((mem_delivered hreply).mp hkept).2 hreleases

end HermesMesh
