import HermesMesh.LateTerminators

/-!
# Terminator reports

The response to a terminator says under `lease_released` what became of the lease, and the comment
beside it says that the field is always there: without it a caller could not tell a build that has
no such field. One lemma for each exit says what it reports. The exits before the delivery attempt
report nothing (`report_faithful_iff`); every other response is right.
-/

namespace HermesMesh

open OpenThreads

variable {env : Env} {mail : Mail} {args kwargs : List (String × Json)} {w w₀ w' : World}
  {held : Bool} {resp : Response} {file : File} {deliveryId : Json}

/-- `lease_released`, where the response has it. -/
def Response.report (r : Response) : Option Json := r.lookup "lease_released"

/-- `lease_released["released"] is True`. -/
def saysReleased : Json → Bool
  | .obj fields =>
    match Json.get "released" fields with
    | .bool released => released
    | _ => false
  | _ => false

/-- The ids that a delivered terminator probes, each with what its probe meets. -/
def Env.probes (env : Env) (mail : Mail) (deliveryId : Json) : List (Json × Io) :=
  match mail.thread with
  | some thread => [(.str thread, env.threadProbe)]
  | none => (env.fallbackProbes mail deliveryId).filter (·.1.truthy)

/-- A release is attempted: the terminator is delivered, and there is an id to probe. -/
def ReleaseAttempted (env : Env) (mail : Mail) : Prop :=
  Attempted env mail ∧ ∃ deliveryId, Delivers env mail deliveryId ∧ env.probes mail deliveryId ≠ []

/-- The probe cannot read the registry, or cannot write what it would take out. A registry that is
configured explicitly and is not there cannot be read. -/
def unavailable (explicitlyConfigured : Bool) (who : String) (file : File) (probe : Json × Io) :
    Bool :=
  !probe.2.statOk ||
    match file with
    | none => explicitlyConfigured
    | some entries =>
      !probe.2.lockable || !probe.2.readable ||
        !probe.2.writable && entries.any (releasable probe.1 who)

/-- The id names a lease of others. -/
def namesOthers (who : String) (file : File) (probe : Json × Io) : Bool :=
  file.entries.any fun rec => probe.1.isStr rec.threadId && !rec.hasParty who

/-- The reason to give where no lease was removed. -/
def dueReason (explicitlyConfigured : Bool) (who : String) (file : File)
    (probes : List (Json × Io)) : Reason :=
  if probes.any (unavailable explicitlyConfigured who file) then .registryUnavailable
  else if probes.any (namesOthers who file) then .notAParty
  else .noSuchLease

/-- What a terminator's report should say of the registry before and after the call. -/
structure FaithfulValue (env : Env) (mail : Mail) (before after : File) (value : Json) : Prop where
  none_iff : value = .null ↔ ¬ ReleaseAttempted env mail
  released_iff : saysReleased value = true ↔
    ∃ rec ∈ before.entries, rec.hasParty mail.self = true ∧ rec ∉ after.entries
  reason : value ≠ .null → saysReleased value = false →
    ∃ deliveryId fields, Delivers env mail deliveryId ∧ value = .obj fields ∧
      Json.get "reason" fields = .str (dueReason env.explicitlyConfigured mail.self before
        (env.probes mail deliveryId)).text

/-- The response reports on a lease exactly where it answers a terminator, and what it reports is
right. -/
structure FaithfulReport (env : Env) (mail : Mail) (before after : File) (resp : Response) :
    Prop where
  present : resp.report.isSome = true ↔ mail.reply = .end_
  value : ∀ value, resp.report = some value → FaithfulValue env mail before after value

/-! ## The probes -/

theorem Takes.party {probe : Json × Io} {rec : Lease} (h : Takes mail probe rec) :
    rec.hasParty mail.self = true :=
  (Bool.and_eq_true_iff.mp h.2.2).2

theorem any_releasable_false {tid : Json} {who : String} {entries : List Lease}
    (h : entries.any (releasable tid who) = false) :
    (entries.any fun rec => tid.isStr rec.threadId && !rec.hasParty who) =
      entries.any fun rec => tid.isStr rec.threadId := by
  rw [Bool.eq_iff_iff, List.any_eq_true, List.any_eq_true]
  constructor
  · rintro ⟨rec, hrec, hothers⟩
    exact ⟨rec, hrec, (Bool.and_eq_true_iff.mp hothers).1⟩
  · rintro ⟨rec, hrec, hid⟩
    have hnot := List.any_eq_false.mp h rec hrec
    unfold releasable at hnot
    rw [hid, Bool.true_and] at hnot
    refine ⟨rec, hrec, ?_⟩
    rw [hid, Bool.true_and, Bool.not_eq_true']
    exact Bool.eq_false_iff.mpr hnot

/-- A probe takes leases out and says so, or leaves the registry and gives the due reason. -/
theorem probe_cases (mail : Mail) (explicitlyConfigured : Bool) (probe : Json × Io) (file : File) :
    ((releaseIfPartyStatus explicitlyConfigured probe.2 probe.1 mail.self file).1 =
        ⟨true, .released⟩ ∧ ∃ rec ∈ file.entries, Takes mail probe rec) ∨
      (releaseIfPartyStatus explicitlyConfigured probe.2 probe.1 mail.self file =
          (⟨false, dueReason explicitlyConfigured mail.self file [probe]⟩, file) ∧
        ∀ rec ∈ file.entries, ¬ Takes mail probe rec) := by
  unfold releaseIfPartyStatus dueReason unavailable Takes Io.healthy write
  simp only [List.any_cons, List.any_nil, Bool.or_false]
  cases probe.2.statOk with
  | false => exact .inr ⟨rfl, fun _ _ h => Bool.false_ne_true h.1⟩
  | true =>
    cases file with
    | none =>
      refine .inr ⟨?_, fun _ hrec => absurd hrec List.not_mem_nil⟩
      cases explicitlyConfigured <;> rfl
    | some entries =>
      cases probe.2.lockable with
      | false => exact .inr ⟨rfl, fun _ _ h => Bool.false_ne_true h.2.1⟩
      | true =>
        cases probe.2.readable with
        | false => exact .inr ⟨rfl, fun _ _ h => Bool.false_ne_true h.2.1⟩
        | true =>
          cases hany : entries.any (releasable probe.1 mail.self) with
          | true =>
            simp only [hany]
            cases probe.2.writable with
            | false => exact .inr ⟨rfl, fun _ _ h => Bool.false_ne_true h.2.1⟩
            | true =>
              obtain ⟨rec, hrec, hrel⟩ := List.any_eq_true.mp hany
              exact .inl ⟨rfl, rec, hrec, trivial, rfl, hrel⟩
          | false =>
            refine .inr ⟨?_, fun rec hrec h => List.any_eq_false.mp hany rec hrec h.2.2⟩
            unfold namesOthers
            simp only [hany, File.entries_some, any_releasable_false hany]
            cases entries.any (fun rec => probe.1.isStr rec.threadId) <;>
              cases probe.2.writable <;> rfl

theorem dueReason_unavailable {explicitlyConfigured : Bool} {who : String}
    {probes : List (Json × Io)} :
    dueReason explicitlyConfigured who file probes = .registryUnavailable ↔
      probes.any (unavailable explicitlyConfigured who file) = true := by
  unfold dueReason
  split_ifs with hun hothers <;> simp [hun]

theorem dueReason_notAParty {explicitlyConfigured : Bool} {who : String}
    {probes : List (Json × Io)} :
    dueReason explicitlyConfigured who file probes = .notAParty ↔
      probes.any (unavailable explicitlyConfigured who file) = false ∧
        probes.any (namesOthers who file) = true := by
  unfold dueReason
  split_ifs with hun hothers
  · simp [hun]
  · exact iff_of_true rfl ⟨Bool.eq_false_iff.mpr hun, hothers⟩
  · exact iff_of_false nofun fun h => hothers h.2

/-- The summary of probes that took nothing gives the reason that is due for all of them. -/
theorem summary_dueReason (explicitlyConfigured : Bool) (who : String) (file : File)
    (probes : List (Json × Io)) :
    summary (probes.map fun probe => ⟨false, dueReason explicitlyConfigured who file [probe]⟩) =
      ⟨false, dueReason explicitlyConfigured who file probes⟩ := by
  have hreleased : ((probes.map fun probe =>
      (⟨false, dueReason explicitlyConfigured who file [probe]⟩ : Status)).any (·.released)) =
      false := by
    rw [List.any_map]
    exact List.any_eq_false.mpr fun _ _ => Bool.false_ne_true
  have hmem : ∀ reason, ((probes.map fun probe =>
      (⟨false, dueReason explicitlyConfigured who file [probe]⟩ : Status)).map (·.reason)).contains
        reason = true ↔
      ∃ probe ∈ probes, dueReason explicitlyConfigured who file [probe] = reason := by
    intro reason
    rw [List.map_map, List.contains_iff_mem, List.mem_map]
    rfl
  unfold summary
  dsimp only
  rw [hreleased, if_neg Bool.false_ne_true]
  by_cases hun : probes.any (unavailable explicitlyConfigured who file) = true
  · have hcontains : ∃ probe ∈ probes,
        dueReason explicitlyConfigured who file [probe] = .registryUnavailable := by
      obtain ⟨probe, hprobe, hu⟩ := List.any_eq_true.mp hun
      refine ⟨probe, hprobe, dueReason_unavailable.mpr ?_⟩
      simpa using hu
    rw [if_pos ((hmem _).mpr hcontains), dueReason_unavailable.mpr hun]
  · rw [Bool.not_eq_true] at hun
    have hnone : ∀ probe ∈ probes, unavailable explicitlyConfigured who file probe = false :=
      fun probe hprobe => Bool.eq_false_iff.mpr (List.any_eq_false.mp hun probe hprobe)
    have hnot : ¬ ∃ probe ∈ probes,
        dueReason explicitlyConfigured who file [probe] = .registryUnavailable := by
      rintro ⟨probe, hprobe, hdue⟩
      have hu := dueReason_unavailable.mp hdue
      rw [List.any_cons, hnone probe hprobe] at hu
      cases hu
    have hothers : (∃ probe ∈ probes, dueReason explicitlyConfigured who file [probe] = .notAParty) ↔
        probes.any (namesOthers who file) = true := by
      rw [List.any_eq_true]
      refine exists_congr fun probe => and_congr_right fun hprobe => ?_
      rw [dueReason_notAParty]
      simp [hnone probe hprobe]
    have hdue : dueReason explicitlyConfigured who file probes =
        if probes.any (namesOthers who file) then .notAParty else .noSuchLease := by
      unfold dueReason
      rw [hun, if_neg Bool.false_ne_true]
    rw [if_neg (fun h => hnot ((hmem _).mp h)), hdue]
    by_cases ho : probes.any (namesOthers who file) = true
    · rw [if_pos ho, if_pos ((hmem _).mpr (hothers.mpr ho))]
    · rw [if_neg ho, if_neg (fun h => ho (hothers.mp ((hmem _).mp h)))]

/-- Several probes, of which those with a falsy id are not made. -/
theorem probeAll_cases (mail : Mail) (explicitlyConfigured : Bool) (probes : List (Json × Io))
    (file : File) :
    (((probeAll explicitlyConfigured mail.self probes file).1.any (·.released)) = true ∧
        ∃ rec ∈ file.entries, ∃ probe ∈ probes, probe.1.truthy = true ∧ Takes mail probe rec) ∨
      (probeAll explicitlyConfigured mail.self probes file =
          ((probes.filter (·.1.truthy)).map fun probe =>
            ⟨false, dueReason explicitlyConfigured mail.self file [probe]⟩, file) ∧
        ∀ rec ∈ file.entries, ∀ probe ∈ probes, probe.1.truthy = true → ¬ Takes mail probe rec) := by
  induction probes generalizing file with
  | nil => exact .inr ⟨rfl, fun _ _ _ h => nomatch h⟩
  | cons probe rest ih =>
    unfold probeAll
    dsimp only
    split_ifs with htruthy
    · rcases probe_cases mail explicitlyConfigured probe file with
        ⟨hstatus, rec, hrec, htakes⟩ | ⟨heq, hnone⟩
      · refine .inl ⟨?_, rec, hrec, probe, List.mem_cons_self, htruthy, htakes⟩
        rw [List.any_cons, hstatus, Bool.true_or]
      · have hfilter : (probe :: rest).filter (·.1.truthy) = probe :: rest.filter (·.1.truthy) :=
          List.filter_cons_of_pos htruthy
        rw [heq, hfilter]
        rcases ih file with ⟨hany, rec, hrec, p, hp, htaken⟩ | ⟨hrest, hnoneRest⟩
        · refine .inl ⟨?_, rec, hrec, p, List.mem_cons_of_mem _ hp, htaken⟩
          rw [List.any_cons, hany, Bool.or_true]
        · refine .inr ⟨by rw [hrest]; rfl, fun rec hrec => ?_⟩
          exact List.forall_mem_cons.mpr ⟨fun _ => hnone rec hrec, hnoneRest rec hrec⟩
    · have hfilter : (probe :: rest).filter (·.1.truthy) = rest.filter (·.1.truthy) :=
        List.filter_cons_of_neg htruthy
      rw [hfilter]
      rcases ih file with ⟨hany, rec, hrec, p, hp, htaken⟩ | ⟨hrest, hnoneRest⟩
      · exact .inl ⟨hany, rec, hrec, p, List.mem_cons_of_mem _ hp, htaken⟩
      · refine .inr ⟨hrest, fun rec hrec => ?_⟩
        exact List.forall_mem_cons.mpr ⟨fun h => absurd h htruthy, hnoneRest rec hrec⟩

/-- The releases of a delivered terminator: some lease goes and the report says so, or the registry
stays and the reason is the due one. -/
theorem terminate_cases (env : Env) (mail : Mail) (deliveryId : Json) (file : File) :
    ((terminate env mail deliveryId file).1.released = true ∧
        ∃ rec ∈ file.entries, Releases env mail deliveryId rec) ∨
      (terminate env mail deliveryId file =
          (⟨false, dueReason env.explicitlyConfigured mail.self file
            (env.probes mail deliveryId)⟩, file) ∧
        ∀ rec ∈ file.entries, ¬ Releases env mail deliveryId rec) := by
  unfold terminate Env.probes Releases
  cases mail.thread with
  | some thread =>
    rcases probe_cases mail env.explicitlyConfigured (.str thread, env.threadProbe) file with
      ⟨hstatus, htaken⟩ | h
    · exact .inl ⟨congrArg Status.released hstatus, htaken⟩
    · exact .inr h
  | none =>
    have hall := probeAll_cases mail env.explicitlyConfigured
      (env.fallbackProbes mail deliveryId) file
    unfold Env.fallbackProbes optText at hall ⊢
    dsimp only
    rcases hall with ⟨hany, htaken⟩ | ⟨heq, hnone⟩
    · refine .inl ⟨?_, htaken⟩
      unfold summary
      dsimp only
      rw [if_pos hany]
    · rw [heq]
      refine .inr ⟨?_, fun rec hrec ⟨probe, hprobe, htruthy, htakes⟩ =>
        hnone rec hrec probe hprobe htruthy htakes⟩
      rw [summary_dueReason]

/-! ## What each exit reports -/

theorem releaseField_lookup (mail : Mail) (value : Json) :
    (releaseField mail value).lookup "lease_released" =
      if mail.reply = .end_ then some value else none := by
  unfold releaseField
  cases mail.reply <;> rfl

theorem sessions_report {r : Response} (h : sessions env mail = .error (.answer r)) :
    r.report = none := by
  obtain ⟨text, rfl⟩ := sessions_text h
  rfl

theorem unresolved_report {text : String} {r : Response}
    (h : (unresolved env mail text w).1 = .ok r) : r.report = none := by
  unfold unresolved at h
  generalize notifyFailure env mail text w = n at h
  obtain ⟨e | ⟨⟩, w'⟩ := n
  · cases h
  · obtain rfl := Except.ok.inj h
    rfl

theorem gate_report {refusal : Response} (h : gate env mail w = (.error refusal, w')) :
    refusal.report = none ∧ mail.reply ≠ .end_ := by
  unfold gate at h
  cases hreply : mail.reply with
  | no => rw [hreply] at h; cases h
  | end_ => rw [hreply] at h; cases h
  | yes =>
    refine ⟨?_, nofun⟩
    rw [hreply] at h
    dsimp only at h
    split_ifs at h
    · cases h
    · split at h <;> cases h <;> rfl

theorem forward_unattempted_report (ha : ¬ Attempted env mail)
    (h : (forward env mail held w).1 = .ok resp) : resp.report = none := by
  rcases forward_stops held w ha with ⟨stop, hs, heq⟩ | ⟨text, heq⟩ <;> rw [heq] at h
  · cases stop with
    | raise e => cases h
    | answer r =>
      obtain rfl := Except.ok.inj h
      exact sessions_report (hs r rfl)
  · exact unresolved_report h

theorem queued_report {padded : String} (h : (queued env mail padded w).1 = .ok resp) :
    resp.report = if mail.reply = .end_ then some .null else none := by
  unfold queued at h
  dsimp only at h
  generalize queueMessage env env.item mail.self mail.agent padded mail.ref false _ w = q at h
  obtain ⟨e | ⟨⟩, w'⟩ := q
  · cases h
  · obtain rfl := Except.ok.inj h
    exact releaseField_lookup mail .null

theorem failed_report {reason : Option String} (h : (failed env mail held reason w).1 = .ok resp) :
    resp.report = if mail.reply = .end_ then some .null else none := by
  unfold failed at h
  generalize notifyFailure env mail (reason.getD "") w = n at h
  obtain ⟨e | ⟨⟩, w'⟩ := n
  · cases h
  · obtain rfl := Except.ok.inj h
    exact releaseField_lookup mail .null

theorem delivered_report {padded : String}
    (h : (delivered env mail padded deliveryId w).1 = .ok resp) :
    resp.report = if mail.reply = .end_ then
      some (leaseReleased env (bookkeeping env mail deliveryId w.leases).1) else none := by
  have hret : delivered env mail padded deliveryId w =
      (.ok resp, (delivered env mail padded deliveryId w).2) := Prod.ext h rfl
  obtain ⟨-, hret⟩ := delivered_ok hret
  unfold completed at hret
  obtain rfl := Except.ok.inj (Prod.mk.inj hret).1
  exact releaseField_lookup mail _

/-- What a call that passes the gate reports: nothing before the attempt, no value where the attempt
fails, and after a delivery what the bookkeeping came to. -/
theorem forward_report (h : forward env mail held w = (.ok resp, w')) :
    (¬ Attempted env mail ∧ resp.report = none) ∨
      Attempted env mail ∧
        ((¬ ∃ deliveryId, Delivers env mail deliveryId) ∧
            resp.report = (if mail.reply = .end_ then some .null else none) ∧
            (w'.leases = w.leases ∨ w'.leases = rollback env mail held w.leases) ∨
          ∃ deliveryId, Delivers env mail deliveryId ∧
            resp.report = (if mail.reply = .end_ then
              some (leaseReleased env (bookkeeping env mail deliveryId w.leases).1) else none) ∧
            w'.leases = (bookkeeping env mail deliveryId w.leases).2) := by
  have hfst : (forward env mail held w).1 = .ok resp := by rw [h]
  by_cases ha : Attempted env mail
  · refine .inr ⟨ha, ?_⟩
    obtain ⟨session, fromSession, url, -, hurl, heq⟩ := forward_attempted (w := w) held ha
    rw [heq] at h
    rcases dispatch_cases env mail held (mail.padded session fromSession) url w with
      ⟨e, w₁, -, hres⟩ | ⟨w₁, hleases, ⟨e, -, hres⟩ | ⟨d, hpost, -, ⟨hsome, hres⟩ |
        ⟨hnone, hres | hres⟩⟩⟩ <;> rw [h] at hres
    · cases hres
    · cases hres
    · refine .inr ⟨d.deliveryId, ⟨hsome, url, d, hurl, hpost, rfl⟩, ?_, ?_⟩
      · rw [← hleases]
        exact delivered_report (congrArg Prod.fst hres).symm
      · obtain ⟨e, -, he, -⟩ | ⟨-, -, hbook⟩ :=
          delivered_spec env mail (mail.padded session fromSession) d.deliveryId w₁
        · rw [← hres] at he
          cases he
        · rw [← hleases, ← hbook, ← hres]
    · refine .inl ⟨not_delivers hurl hpost hnone, queued_report (congrArg Prod.fst hres).symm,
        .inl ?_⟩
      rw [← hleases, ← (queued_spec env mail _ w₁).1, ← hres]
    · refine .inl ⟨not_delivers hurl hpost hnone, failed_report (congrArg Prod.fst hres).symm,
        .inr ?_⟩
      rcases failed_spec env mail held d.reason w₁ with ⟨⟨e, he⟩, -⟩ | ⟨-, hrolled⟩
      · rw [← hres] at he
        cases he
      · rw [← hleases, ← hrolled, ← hres]
  · exact .inl ⟨ha, forward_unattempted_report ha hfst⟩

/-! ## When the report is right -/

theorem optToken_ne {name token : String} {v : Json} (h : env.optToken name v = .ok (some token)) :
    token ≠ "" := by
  unfold Env.optToken at h
  split at h
  · split at h
    · have horNone := Except.ok.inj h
      unfold orNone at horNone
      split_ifs at horNone with hempty
      exact Option.some.inj horNone ▸ hempty
    · cases h
    · cases h
  · cases h

/-- The id of a message is never empty: an empty `task_id` counts as none given. -/
theorem prepare_taskId (hprep : prepare env args kwargs w = (.ok mail, w₀))
    (huuid : env.uuid ≠ "") : mail.taskId ≠ "" := by
  unfold prepare at hprep
  cases hr : readArgs env args kwargs with
  | error stop => rw [hr] at hprep; cases hprep
  | ok draft =>
    rw [hr] at hprep
    dsimp only at hprep
    split_ifs at hprep
    · cases hprep
    · have haddress := (Prod.mk.inj hprep).1
      unfold address at haddress
      obtain ⟨taskId, htask, haddress⟩ := bind_ok haddress
      cases hself : validateAgentName env.repr env.selfName with
      | error e => rw [hself] at haddress; cases haddress
      | ok self =>
        rw [hself] at haddress
        obtain rfl := Except.ok.inj haddress
        cases taskId with
        | none => exact huuid
        | some token => exact optToken_ne htask

theorem probes_ne (deliveryId : Json) (h : mail.taskId ≠ "") : env.probes mail deliveryId ≠ [] := by
  unfold Env.probes
  cases mail.thread with
  | some thread => exact List.cons_ne_nil _ _
  | none =>
    have hmem : (.str mail.taskId, env.taskProbe) ∈ env.fallbackProbes mail deliveryId :=
      List.mem_cons_of_mem _ (List.mem_cons_of_mem _ (List.mem_singleton_self _))
    exact List.ne_nil_of_mem (List.mem_filter.mpr ⟨hmem, decide_eq_true h⟩)

theorem Releases.party {rec : Lease} (h : Releases env mail deliveryId rec) :
    rec.hasParty mail.self = true := by
  unfold Releases at h
  cases hthread : mail.thread with
  | some thread =>
    rw [hthread] at h
    exact h.party
  | none =>
    rw [hthread] at h
    obtain ⟨probe, -, -, htakes⟩ := h
    exact htakes.party

/-- Nothing was delivered and nothing is reported. -/
theorem faithful_null (hno : ¬ ∃ deliveryId, Delivers env mail deliveryId) :
    FaithfulValue env mail file file .null where
  none_iff := iff_of_true rfl fun ⟨_, deliveryId, hd, _⟩ => hno ⟨deliveryId, hd⟩
  released_iff := iff_of_false Bool.false_ne_true fun ⟨_, hrec, _, hgone⟩ => hgone hrec
  reason h := absurd rfl h

/-- What a delivered terminator reports is what its releases did. -/
theorem faithful_released (ha : Attempted env mail) (hd : Delivers env mail deliveryId)
    (htask : mail.taskId ≠ "") (hreply : mail.reply = .end_) :
    FaithfulValue env mail file (bookkeeping env mail deliveryId file).2
      (leaseReleased env (bookkeeping env mail deliveryId file).1) := by
  have hbook : bookkeeping env mail deliveryId file =
      (some (terminate env mail deliveryId file).1, (terminate env mail deliveryId file).2) := by
    unfold bookkeeping
    rw [hreply]
  have hattempt : ReleaseAttempted env mail := ⟨ha, deliveryId, hd, probes_ne deliveryId htask⟩
  have hafter : ∀ rec, rec ∈ (terminate env mail deliveryId file).2.entries ↔
      rec ∈ file.entries ∧ ¬ Releases env mail deliveryId rec := by
    intro rec
    have hmem : rec ∈ (bookkeeping env mail deliveryId file).2.entries ↔
        rec ∈ file.entries ∧ ¬ Releases env mail deliveryId rec := mem_bookkeeping hreply
    rwa [hbook] at hmem
  rw [hbook]
  refine ⟨iff_of_false nofun fun h => h hattempt, ?_, fun _ hnot => ?_⟩
  · rcases terminate_cases env mail deliveryId file with ⟨hreleased, rec, hrec, hrel⟩ | ⟨heq, hnone⟩
    · refine iff_of_true hreleased ⟨rec, hrec, hrel.party, fun hkept => ?_⟩
      exact ((hafter rec).mp hkept).2 hrel
    · rw [heq]
      exact iff_of_false Bool.false_ne_true fun ⟨rec, hrec, _, hgone⟩ => hgone hrec
  · rcases terminate_cases env mail deliveryId file with ⟨hreleased, -⟩ | ⟨heq, -⟩
    · exact absurd (hreleased.symm.trans hnot) nofun
    · refine ⟨deliveryId, _, hd, rfl, ?_⟩
      rw [heq]
      rfl

/-- A response to anything but a terminator reports nothing. -/
theorem silent (hprep : prepare env args kwargs w = (.ok mail, w₀)) (hreply : mail.reply ≠ .end_)
    (hsend : handleMeshSend env args kwargs w = (.ok resp, w')) : resp.report = none := by
  rcases handleMeshSend_returns hprep hsend with hgate | ⟨held, w₁, -, hforward⟩
  · exact (gate_report hgate).1
  · rcases forward_report hforward with ⟨-, h⟩ | ⟨-, ⟨-, h, -⟩ | ⟨deliveryId, -, h, -⟩⟩
    · exact h
    · rw [h, if_neg hreply]
    · rw [h, if_neg hreply]

/-- **When the report is faithful.** For every call that gets past its arguments and returns, with
every registry: the response reports on a lease exactly where it answers a terminator, and reports
right, unless the call answers a terminator before it comes to the delivery attempt. -/
theorem report_faithful_iff (hprep : prepare env args kwargs w = (.ok mail, w₀))
    (huuid : env.uuid ≠ "") (hsend : handleMeshSend env args kwargs w = (.ok resp, w')) :
    FaithfulReport env mail w.leases w'.leases resp ↔ (mail.reply = .end_ → Attempted env mail) := by
  by_cases hreply : mail.reply = .end_
  · have htask := prepare_taskId hprep huuid
    rw [handleMeshSend_end hprep hreply] at hsend
    rw [← prepared_leases hprep]
    constructor
    · intro hfaithful _
      by_contra ha
      have hnone := forward_unattempted_report ha (congrArg Prod.fst hsend)
      have hsome := hfaithful.present.mpr hreply
      rw [hnone] at hsome
      cases hsome
    · intro hattempted
      rcases forward_report hsend with ⟨hno, -⟩ | ⟨ha, ⟨hno, hreport, hleases⟩ | hdelivered⟩
      · exact absurd (hattempted hreply) hno
      · rw [if_pos hreply] at hreport
        have hsame : w'.leases = w₀.leases := hleases.elim id id
        rw [hsame]
        refine ⟨iff_of_true (by rw [hreport]; rfl) hreply, fun value hvalue => ?_⟩
        obtain rfl := Option.some.inj (hreport.symm.trans hvalue)
        exact faithful_null hno
      · obtain ⟨deliveryId, hd, hreport, hleases⟩ := hdelivered
        rw [if_pos hreply] at hreport
        rw [hleases]
        refine ⟨iff_of_true (by rw [hreport]; rfl) hreply, fun value hvalue => ?_⟩
        obtain rfl := Option.some.inj (hreport.symm.trans hvalue)
        exact faithful_released ha hd htask hreply
  · have hnone := silent hprep hreply hsend
    refine iff_of_true ⟨iff_of_false ?_ hreply, ?_⟩ fun h => absurd h hreply
    · rw [hnone]
      exact Bool.false_ne_true
    · intro value hvalue
      rw [hnone] at hvalue
      cases hvalue

/-- What a call asks for, and whether its response reports on a lease. -/
def reporting (env : Env) (args : List (String × Json)) (w : World) : Option Reply × Option Bool :=
  ((prepare env args [] w).1.toOption.map (·.reply),
    (handleMeshSend env args [] w).1.toOption.map fun r : Response => r.report.isSome)

theorem exists_of_reporting {reply : Reply} {reported : Bool}
    (h : reporting env args w = (some reply, some reported)) :
    ∃ mail w₀ resp w', prepare env args [] w = (.ok mail, w₀) ∧ mail.reply = reply ∧
      handleMeshSend env args [] w = (.ok resp, w') ∧ resp.report.isSome = reported := by
  unfold reporting at h
  obtain ⟨hreply, hreported⟩ := Prod.mk.inj h
  generalize prepare env args [] w = p at hreply ⊢
  generalize handleMeshSend env args [] w = c at hreported ⊢
  obtain ⟨stop | mail, w₀⟩ := p
  · cases hreply
  · obtain ⟨e | resp, w'⟩ := c
    · cases hreported
    · exact ⟨mail, w₀, resp, w', rfl, Option.some.inj hreply, rfl, Option.some.inj hreported⟩

/-- A gateway that does not know vera. -/
def zeroAlone : Env := { zeroDown with identity := fun _ => none }

theorem report_faithful_iff_back :
    ∃ mail w₀ resp w', prepare zeroBack farewell [] veraTalks = (.ok mail, w₀) ∧
      mail.reply = .end_ ∧ handleMeshSend zeroBack farewell [] veraTalks = (.ok resp, w') ∧
      resp.report.isSome = true ∧
      (FaithfulReport zeroBack mail veraTalks.leases w'.leases resp ↔
        (mail.reply = .end_ → Attempted zeroBack mail)) := by
  have hends : reporting zeroBack farewell veraTalks = (some .end_, some true) := by decide +kernel
  obtain ⟨mail, w₀, resp, w', hprep, hreply, hsend, hreport⟩ := exists_of_reporting hends
  exact ⟨mail, w₀, resp, w', hprep, hreply, hsend, hreport,
    report_faithful_iff hprep (by decide) hsend⟩

/-- The farewell to an agent that the gateway does not know is answered without the field. -/
theorem report_missing_alone :
    ∃ mail w₀ resp w', prepare zeroAlone farewell [] veraTalks = (.ok mail, w₀) ∧
      mail.reply = .end_ ∧ handleMeshSend zeroAlone farewell [] veraTalks = (.ok resp, w') ∧
      ¬ FaithfulReport zeroAlone mail veraTalks.leases w'.leases resp := by
  have hends : reporting zeroAlone farewell veraTalks = (some .end_, some false) := by decide +kernel
  obtain ⟨mail, w₀, resp, w', hprep, hreply, hsend, hreport⟩ := exists_of_reporting hends
  refine ⟨mail, w₀, resp, w', hprep, hreply, hsend, fun h => ?_⟩
  rw [h.present.mpr hreply] at hreport
  cases hreport

end HermesMesh
