import HermesMesh.FailedSends

/-!
# Third parties

A send runs the claim, the touch of its `ref`, up to three releases and the rollback. The releases
check that the sender is a party; `touch` does not, so a delivered question whose `ref` names a
lease of two other agents counts it and resizes it. And a claim that cannot read the registry takes
it for empty, and writes its own lease over everybody else's. These are the only two ways in which a
send affects a lease of others (`third_parties_kept`).
-/

namespace HermesMesh

open Lib OpenThreads

/-- The leases live at the instant to which the agent is no party. -/
def OpenThreads.File.others (who : String) (now : Time) (file : File) : List Lease :=
  file.entries.filter fun rec => live now rec && !rec.hasParty who

variable {env : Env} {mail : Mail} {args kwargs : List (String × Json)} {w w₀ : World}
  {file before : File} {now : Time} {who threadId : String}

theorem mem_others {rec : Lease} :
    rec ∈ file.others who now ↔
      rec ∈ file.entries ∧ live now rec = true ∧ rec.hasParty who = false := by
  unfold OpenThreads.File.others
  simp

/-- The claim opens a lease over a registry it could not read, with live leases of others in it. -/
def Wipes (env : Env) (mail : Mail) (now : Time) (before : File) : Prop :=
  Opens env mail before ∧ env.claim.io.readable = false ∧ before.others mail.self now ≠ []

/-- The touch of the bookkeeping meets a lease of others first. -/
def Touches (env : Env) (mail : Mail) (file : File) : Prop :=
  env.resizeMinutes ≠ none ∧ env.touch.io.healthy = true ∧
    ∃ ref rec, mail.ref = some ref ∧ rec.hasParty mail.self = false ∧
      file.entries.find? (anchored ref env.touch.now) = some rec

/-- The question passes the gate, is delivered and floated, and its touch meets a lease of others. -/
def CountsOthers (env : Env) (mail : Mail) (before : File) : Prop :=
  ¬ Refused env mail before ∧ Attempted env mail ∧ (∃ id, Delivers env mail id) ∧
    env.floatFault = none ∧ mail.reply = .yes ∧ Touches env mail before

/-! ## The releases -/

/-- What an agent releases it is a party to. -/
theorem others_of_released {tid : Json} (entries : List Lease) :
    File.others who now (some (entries.filter fun r => !releasable tid who r)) =
      File.others who now (some entries) := by
  unfold OpenThreads.File.others
  rw [File.entries_some, File.entries_some, List.filter_filter]
  apply List.filter_congr
  intro rec _
  unfold releasable
  cases rec.hasParty who <;> simp

theorem releaseIfPartyStatus_others (explicitlyConfigured : Bool) (io : Io) (tid : Json)
    (file : File) :
    (releaseIfPartyStatus explicitlyConfigured io tid who file).2.others who now =
      file.others who now := by
  rcases releaseIfPartyStatus_cases explicitlyConfigured io tid who file with
    ⟨-, -, heq⟩ | ⟨-, _, -, heq⟩ <;> rw [heq]
  exact others_of_released file.entries

theorem probeAll_others (explicitlyConfigured : Bool) (probes : List (Json × Io)) :
    ∀ file : File, (probeAll explicitlyConfigured who probes file).2.others who now =
      file.others who now := by
  induction probes with
  | nil => exact fun _ => rfl
  | cons probe rest ih =>
    intro file
    unfold probeAll
    dsimp only
    split_ifs
    · exact (ih _).trans (releaseIfPartyStatus_others ..)
    · exact ih file

theorem terminate_others (env : Env) (mail : Mail) (deliveryId : Json) (file : File) :
    (terminate env mail deliveryId file).2.others mail.self now = file.others mail.self now := by
  unfold terminate
  split
  · exact releaseIfPartyStatus_others ..
  · exact probeAll_others ..

theorem rollback_others (env : Env) (mail : Mail) (held : Bool) (file : File) :
    (rollback env mail held file).others mail.self now = file.others mail.self now := by
  unfold rollback
  split_ifs
  · rw [releaseIfParty_snd]
    split_ifs
    · exact others_of_released file.entries
    · rfl
  · rfl

/-! ## The touch -/

theorem hasParty_bump (resizeTo : Option ℤ) (rec : Lease) :
    (bump now resizeTo rec).hasParty who = rec.hasParty who := by
  have hlink : (bump now resizeTo rec).link = rec.link := bump_link resizeTo rec
  have hby : (bump now resizeTo rec).openedBy = rec.openedBy := congrArg Prod.fst hlink
  have hpeer : (bump now resizeTo rec).peer = rec.peer := congrArg Prod.snd hlink
  unfold Lease.hasParty
  rw [hby, hpeer]

/-- `touch` keeps the leases of others, unless the first one it finds is theirs. -/
theorem touch_others {io : Io} {at_ : Time} (hle : now ≤ at_) (resizeTo : Option ℤ) :
    (touch io at_ threadId resizeTo file).2.others who now = file.others who now ↔
      ¬ (io.healthy = true ∧ ∃ rec, rec.hasParty who = false ∧
        file.entries.find? (anchored threadId at_) = some rec) := by
  rw [touch_snd]
  cases hf : file.entries.find? (anchored threadId at_) with
  | none => simp
  | some rec =>
    have hlive : live now rec = true := live_of_le hle (live_of_anchored (List.find?_some hf))
    cases io.healthy with
    | false => simp
    | true =>
      rw [Bool.true_and, Option.isSome_some, if_pos rfl]
      cases hp : rec.hasParty who with
      | true =>
        refine ⟨fun _ => ?_, fun _ => ?_⟩
        · rintro ⟨-, rec', hp', heq⟩
          obtain rfl := Option.some.inj heq
          rw [hp] at hp'
          cases hp'
        · refine filter_updateFirst hf ?_ ?_
          · rw [hp, Bool.not_true, Bool.and_false]
          · rw [hasParty_bump, hp, Bool.not_true, Bool.and_false]
      | false =>
        refine ⟨fun h => absurd h ?_, fun h => absurd ⟨rfl, rec, hp, rfl⟩ h⟩
        refine filter_updateFirst_ne hf ?_ (bump_ne resizeTo rec)
        rw [hlive, hp]
        rfl

/-! ## The whole call -/

/-- What the claim leaves of the others' leases. -/
theorem opened_others (hclaim : env.claim.now ≤ now) :
    (env.opened mail file).others mail.self now =
      if env.claim.io.readable then file.others mail.self now else [] := by
  have hparty : (env.ownLease mail).hasParty mail.self = true := hasParty_iff.mpr (.inl rfl)
  have hown : [env.ownLease mail].filter (fun rec => live now rec && !rec.hasParty mail.self) =
      [] := by
    simp [hparty]
  unfold OpenThreads.File.others Env.opened Env.seen liveEntries OpenThreads.read
  rw [File.entries_some, List.filter_append, hown, List.append_nil]
  cases env.claim.io.readable with
  | false => rfl
  | true =>
    rw [if_pos rfl, if_pos rfl, List.filter_filter]
    apply List.filter_congr
    intro rec _
    cases hl : live now rec with
    | false => rfl
    | true => rw [live_of_le hclaim hl, Bool.and_true]

theorem bookkeeping_others {deliveryId : Json} (h : mail.reply ≠ .yes) :
    (bookkeeping env mail deliveryId file).2.others mail.self now = file.others mail.self now := by
  unfold bookkeeping
  cases hr : mail.reply with
  | yes => exact absurd hr h
  | no => rfl
  | end_ => exact terminate_others env mail deliveryId file

theorem bookkeeping_others_iff {deliveryId : Json} (htouch : now ≤ env.touch.now)
    (hyes : mail.reply = .yes) :
    (bookkeeping env mail deliveryId file).2.others mail.self now = file.others mail.self now ↔
      ¬ Touches env mail file := by
  unfold bookkeeping Touches
  rw [hyes]
  cases hresize : env.resizeMinutes with
  | none => simp
  | some minutes =>
    cases href : mail.ref with
    | none => simp
    | some ref =>
      dsimp only
      rw [touch_others htouch]
      simp

/-- What follows the gate keeps the leases of others, unless the message is delivered and its touch
meets one of them. -/
theorem forward_others (held : Bool) (w : World) (htouch : now ≤ env.touch.now) :
    (forward env mail held w).2.leases.others mail.self now = w.leases.others mail.self now ↔
      ¬ (Attempted env mail ∧ (∃ id, Delivers env mail id) ∧ env.floatFault = none ∧
        mail.reply = .yes ∧ Touches env mail w.leases) := by
  by_cases ha : Attempted env mail
  · by_cases hd : ∃ id, Delivers env mail id
    · obtain ⟨id, hid⟩ := hd
      by_cases hyes : mail.reply = .yes
      · rcases forward_delivered held w ha hid with ⟨hend | hfault, -, hleases⟩ | ⟨hfloat, -, hleases⟩
        · rw [hyes] at hend
          cases hend
        · rw [hleases]
          exact iff_of_true rfl fun h => hfault h.2.2.1
        · rw [hleases, bookkeeping_others_iff htouch hyes]
          exact not_congr ⟨fun h => ⟨ha, ⟨id, hid⟩, hfloat, hyes, h⟩, fun h => h.2.2.2.2⟩
      · refine ⟨fun _ h => hyes h.2.2.2.1, fun _ => ?_⟩
        rcases forward_delivered held w ha hid with ⟨-, -, hleases⟩ | ⟨-, -, hleases⟩
        · rw [hleases]
        · rw [hleases, bookkeeping_others hyes]
    · refine ⟨fun _ h => hd h.2.1, fun _ => ?_⟩
      rcases forward_undelivered held w ha hd with ⟨-, hleases⟩ | ⟨-, hleases⟩ | ⟨-, hleases⟩
      · rw [hleases]
      · rw [hleases]
      · rw [hleases, rollback_others]
  · refine ⟨fun _ h => ha h.1, fun _ => ?_⟩
    rw [(forward_unattempted held w ha).1]

/-- After a claim the touch meets a lease of others where it would have met it before. -/
theorem touches_opened (hclaim : env.claim.now ≤ now) (htouch : now ≤ env.touch.now) :
    Touches env mail (env.opened mail file) ↔
      env.claim.io.readable = true ∧ Touches env mail file := by
  have hown : (env.ownLease mail).hasParty mail.self = true := hasParty_iff.mpr (.inl rfl)
  have hfind : ∀ ref rec, rec.hasParty mail.self = false →
      ((env.opened mail file).entries.find? (anchored ref env.touch.now) = some rec ↔
        env.claim.io.readable = true ∧
          file.entries.find? (anchored ref env.touch.now) = some rec) := by
    intro ref rec hrec
    unfold Env.opened Env.seen liveEntries OpenThreads.read
    rw [File.entries_some, List.find?_append]
    have hlast : ∀ l : List Lease, l = [env.ownLease mail] →
        l.find? (anchored ref env.touch.now) ≠ some rec := by
      rintro l rfl hl
      have hmem := List.mem_of_find?_eq_some hl
      rw [List.mem_singleton.mp hmem, hown] at hrec
      cases hrec
    cases env.claim.io.readable with
    | false => simpa using hlast _ rfl
    | true =>
      rw [if_pos rfl, find?_filter_of_imp]
      · cases hf : file.entries.find? (anchored ref env.touch.now) with
        | none => simpa using hlast _ rfl
        | some r => simp
      · intro r hr
        exact live_of_le (hclaim.trans htouch) (live_of_anchored hr)
  unfold Touches
  constructor
  · rintro ⟨hresize, hhealthy, ref, rec, href, hrec, hf⟩
    obtain ⟨hread, hf⟩ := (hfind ref rec hrec).mp hf
    exact ⟨hread, hresize, hhealthy, ref, rec, href, hrec, hf⟩
  · rintro ⟨hread, hresize, hhealthy, ref, rec, href, hrec, hf⟩
    exact ⟨hresize, hhealthy, ref, rec, href, hrec, (hfind ref rec hrec).mpr ⟨hread, hf⟩⟩

/-- A lease that a touch meets is live before it. -/
theorem Touches.others_ne (h : Touches env mail file) (htouch : now ≤ env.touch.now) :
    file.others mail.self now ≠ [] := by
  obtain ⟨-, -, ref, rec, -, hrec, hf⟩ := h
  have hlive := live_of_le htouch (live_of_anchored (List.find?_some hf))
  exact List.ne_nil_of_mem (mem_others.mpr ⟨List.mem_of_find?_eq_some hf, hlive, hrec⟩)

/-- The call from the gate on. -/
theorem send_others_iff (hclaim : env.claim.now ≤ now) (htouch : now ≤ env.touch.now)
    (hprep : prepare env args kwargs w = (.ok mail, w₀)) (hleases : w₀.leases = w.leases) :
    (handleMeshSend env args kwargs w).2.leases.others mail.self now =
        w.leases.others mail.self now ↔
      ¬ Wipes env mail now w.leases ∧ ¬ CountsOthers env mail w.leases := by
  unfold handleMeshSend
  rw [hprep]
  dsimp only
  rw [← hleases]
  rcases gate_cases env mail w₀ with
    ⟨hj, heq⟩ | ⟨hr, r, w₁, heq, hw₁⟩ | ⟨ho, heq⟩ | ⟨hj, hr, ho, heq⟩ <;> rw [heq] <;> dsimp only
  · have hno : ¬ Refused env mail w₀.leases := fun h => h.not_joined hj
    rw [forward_others true w₀ htouch]
    exact ⟨fun h => ⟨fun hw => hw.1.not_joined hj, fun hc => h hc.2⟩,
      fun h hc => h.2 ⟨hno, hc⟩⟩
  · rw [hw₁]
    exact ⟨fun _ => ⟨fun hw => hw.1.not_refused hr, fun hc => hc.1 hr⟩, fun _ => rfl⟩
  · have hgate : (env.opened mail w₀.leases).others mail.self now = _ := opened_others hclaim
    by_cases hwipe : Wipes env mail now w₀.leases
    · -- nothing of the others is left, and no touch brings anything back
      have hempty : (env.opened mail w₀.leases).others mail.self now = [] := by
        rw [hgate, if_neg (by rw [hwipe.2.1]; exact Bool.false_ne_true)]
      have hno : ¬ Touches env mail (env.opened mail w₀.leases) := fun h =>
        h.others_ne htouch hempty
      have hafter := (forward_others true { w₀ with leases := env.opened mail w₀.leases }
        htouch).mpr fun h => hno h.2.2.2.2
      rw [hafter, show File.others _ _ (World.leases _) = [] from hempty]
      exact ⟨fun h => absurd h.symm hwipe.2.2, fun h => absurd hwipe h.1⟩
    · have hsame : (env.opened mail w₀.leases).others mail.self now =
          w₀.leases.others mail.self now := by
        rw [hgate]
        by_cases hread : env.claim.io.readable = true
        · rw [if_pos hread]
        · rw [if_neg hread]
          by_contra hne
          exact hwipe ⟨ho, by simpa using hread, fun h => hne h.symm⟩
      have htouches : Touches env mail (env.opened mail w₀.leases) ↔
          Touches env mail w₀.leases := by
        rw [touches_opened hclaim htouch]
        refine ⟨fun h => h.2, fun h => ⟨?_, h⟩⟩
        by_contra hread
        exact hwipe ⟨ho, by simpa using hread, h.others_ne htouch⟩
      rw [← hsame]
      apply (forward_others true { w₀ with leases := env.opened mail w₀.leases } htouch).trans
      refine ⟨fun h => ⟨hwipe, fun hc => h ?_⟩, fun h hc => h.2 ?_⟩
      · exact ⟨hc.2.1, hc.2.2.1, hc.2.2.2.1, hc.2.2.2.2.1, htouches.mpr hc.2.2.2.2.2⟩
      · exact ⟨ho.not_refused, hc.1, hc.2.1, hc.2.2.1, hc.2.2.2.1, htouches.mp hc.2.2.2.2⟩
  · rw [forward_others false w₀ htouch]
    exact ⟨fun h => ⟨fun hw => ho hw.1, fun hc => h hc.2⟩, fun h hc => h.2 ⟨hr, hc⟩⟩

/-- **When third parties are kept out.** For every instant between the claim and the bookkeeping of
a call, the live leases of others are the same before and after it, exactly where the call neither
wipes a registry it could not read nor counts a lease of others. -/
theorem third_parties_kept {self : String} (hself : validateAgentName env.repr env.selfName = .ok self)
    (hclaim : env.claim.now ≤ now) (htouch : now ≤ env.touch.now) :
    (handleMeshSend env args kwargs w).2.leases.others self now = w.leases.others self now ↔
      ∀ mail w₀, prepare env args kwargs w = (.ok mail, w₀) →
        ¬ Wipes env mail now w.leases ∧ ¬ CountsOthers env mail w.leases := by
  have hleases := prepare_leases env args kwargs w
  cases hprep : prepare env args kwargs w with
  | mk result w₁ =>
    rw [hprep] at hleases
    cases result with
    | error stop =>
      refine ⟨fun _ _ _ h => ?_, fun _ => ?_⟩
      · cases (Prod.mk.inj h).1
      · unfold handleMeshSend
        rw [hprep]
        exact congrArg (File.others self now) hleases
    | ok mail =>
      obtain rfl : mail.self = self := Except.ok.inj ((prepare_self hprep).symm.trans hself)
      rw [send_others_iff hclaim htouch hprep hleases]
      constructor
      · intro h mail' w' heq
        obtain rfl := Except.ok.inj (Prod.mk.inj heq).1
        exact h
      · exact fun h => h mail w₁ rfl

/-- A peer that accepts the message. -/
def upPeer : Net :=
  { downPeer with
    dial := fun _ _ =>
      .answered 202 (some (.obj [("status", .str "accepted"), ("delivery_id", .str "m1")])) }

/-- A gateway whose peer is up. -/
def zeroUp : Env := { zeroDown with net := upPeer, touch := { now := 1000 } }

/-- Britney and linda are talking. -/
def othersTalk : World := { emptyWorld with leases := some [newLease 900 "t" "britney" "linda" 30] }

theorem third_parties_kept_notice :
    (handleMeshSend zeroUp question [] othersTalk).2.leases.others "zero" 1000 =
        othersTalk.leases.others "zero" 1000 ↔
      ∀ mail w₀, prepare zeroUp question [] othersTalk = (.ok mail, w₀) →
        ¬ Wipes zeroUp mail 1000 othersTalk.leases ∧ ¬ CountsOthers zeroUp mail othersTalk.leases :=
  third_parties_kept rfl (le_refl 1000) (le_refl 1000)

/-- Zero asks vera, and names the thread of britney and linda as `ref`. -/
theorem third_party_counts :
    validateAgentName zeroUp.repr zeroUp.selfName = .ok "zero" ∧
      (handleMeshSend zeroUp (question ++ [("ref", .str "t")]) [] othersTalk).2.leases.others
        "zero" 1000 ≠ othersTalk.leases.others "zero" 1000 := by
  refine ⟨rfl, ?_⟩
  decide +kernel

example : (handleMeshSend zeroUp (question ++ [("ref", .str "t")]) [] othersTalk).2.leases =
    some
      [{ newLease 900 "t" "britney" "linda" 30 with
          leaseUntil := 8200, leaseMinutes := 120, replies := 1, resized := true },
        newLease 1000 "m1" "zero" "vera" 30] := by
  decide +kernel

end HermesMesh
