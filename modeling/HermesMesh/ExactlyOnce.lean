import HermesMesh.Verdicts

/-!
# Exactly once

A sender repeats a message under its id until the answer is a success. The seen-id table takes an id in
again only after it was swept out (`step_spaced`), so what is taken in under one id lies further apart
than the replay window (`run_spaced`). Together with the answers: a message that was delivered is there
once, as long as it was not repeated for longer than the window (`delivered_once`).
-/

namespace HermesMesh.Verdicts

open Lib Intake

variable {cfg : Config} {kit : Kit} {s t : Adapter} {e : Event} {es : List Event} {r : Request}

/-! ## At most once within the window -/

/-- What is taken in under one id, newest first, is further apart than the window. -/
def Spaced (ttl : Time) (accepted : List Accepted) : Prop :=
  accepted.Pairwise fun b a => b.messageId = a.messageId → ttl < b.sweptAt - a.seenAt

/-- An id that is not in the table has been swept out of it since it was last taken in. -/
theorem swept_of_unseen (h : Kept cfg kit s) {id : String} (hunseen : s.seen.lookup id = none)
    {a : Accepted} (ha : a ∈ s.accepted) (hid : a.messageId = id) :
    ∃ b ∈ s.accepted, cfg.replayWindowTtl < b.sweptAt - a.seenAt := by
  by_contra hno
  push Not at hno
  have hseen := (h.seen_iff id).mpr ⟨a, ha, hid, hno⟩
  rw [hunseen] at hseen
  cases hseen

theorem step_spaced (h : Kept cfg kit s) (hspaced : Spaced cfg.replayWindowTtl s.accepted)
    (hstep : step cfg kit s e = some t) : Spaced cfg.replayWindowTtl t.accepted := by
  obtain ⟨-, -, hrefuses | ⟨conn, meets, p, parsed, htakes⟩⟩ := step_cases h.checked hstep
  · rwa [hrefuses.accepted]
  · rw [htakes.accepted]
    refine List.pairwise_cons.mpr ⟨fun a ha hid => ?_, hspaced⟩
    obtain ⟨b, hb, hswept⟩ := swept_of_unseen h htakes.unseen ha hid.symm
    -- the sweep that dropped the id was before this message
    calc cfg.replayWindowTtl < b.sweptAt - a.seenAt := hswept
      _ ≤ meets.sweptAt - a.seenAt :=
        sub_le_sub_right ((h.swept b hb).trans (htakes.before.trans htakes.sweeps)) a.seenAt

theorem run_spaced (h0 : Start s) (hrun : Run (step cfg kit) (Roomy cfg kit) s es t) :
    Spaced cfg.replayWindowTtl t.accepted := by
  have hstart : Spaced cfg.replayWindowTtl s.accepted := by
    rw [h0.accepted]
    exact .nil
  exact (hrun.invariant (I := fun s => Kept cfg kit s ∧ Spaced cfg.replayWindowTtl s.accepted)
    (fun _ _ _ h hroom hstep => ⟨step_kept h.1 hroom hstep, step_spaced h.1 h.2 hstep⟩)
    ⟨h0.kept, hstart⟩).2

/-! ## And at least once -/

/-- What the adapter took in under an id. -/
def Adapter.under (s : Adapter) (id : String) : List Accepted :=
  s.accepted.filter fun a => a.messageId = id

variable {exceptionToReason : Exc → String} {budget : Budget} {net : Net} {allowLoopback : Bool}
  {url : String} {signature : Except PyError String} {d : Delivery} {msgId : String}

/-- Within one window there is at most one. -/
theorem Spaced.once {ttl : Time} (h : Spaced ttl s.accepted)
    (hwindow : ∀ a ∈ Adapter.under s msgId, ∀ b ∈ Adapter.under s msgId, b.sweptAt - a.seenAt ≤ ttl) :
    (Adapter.under s msgId).length ≤ 1 := by
  have hpairs : Spaced ttl (Adapter.under s msgId) := h.sublist List.filter_sublist
  have hids : ∀ a ∈ Adapter.under s msgId, a.messageId = msgId :=
    fun a ha => of_decide_eq_true (List.mem_filter.mp ha).2
  generalize Adapter.under s msgId = taken at hwindow hpairs hids
  match taken with
  | [] => exact Nat.zero_le 1
  | [a] => exact le_refl 1
  | b :: a :: rest =>
    have ha : a ∈ b :: a :: rest := List.mem_cons_of_mem _ List.mem_cons_self
    have hb : b ∈ b :: a :: rest := List.mem_cons_self
    have hfar := (List.pairwise_cons.mp hpairs).1 a List.mem_cons_self
    exact absurd (hwindow a ha b hb) (not_le.mpr (hfar ((hids b hb).trans (hids a ha).symm)))

/-- **Exactly once.** Let every answer that a delivery gets be one that the intake gave to its request
in a run in which the seen-id table never evicts for want of room. If the delivery reports a success,
and nothing else under the id of its message is taken in for longer than the replay window, then the
message is taken in once: not lost, and not twice, however often it is sent and by how many calls. -/
theorem delivered_once (h0 : Start s) (hrun : Run (step cfg kit) (Roomy cfg kit) s es t)
    (hcall : deliverWebhook exceptionToReason budget net allowLoopback url signature = .ok d)
    (hdials : AnsweredBy cfg kit s es t r d) (hreason : d.reason = none)
    (hcarries : Carries kit (requestText kit r) msgId)
    (hwindow : ∀ a ∈ Adapter.under t msgId, ∀ b ∈ Adapter.under t msgId,
      b.sweptAt - a.seenAt ≤ cfg.replayWindowTtl) :
    (Adapter.under t msgId).length = 1 := by
  refine le_antisymm ((run_spaced h0 hrun).once hwindow) ?_
  obtain ⟨id, hid, ⟨a, ha, rfl⟩, -⟩ := hdials.taken_in h0 hcall hreason
  have hsame : a.messageId = msgId := by
    obtain ⟨parsed, hparsed, hid⟩ := hid
    obtain ⟨parsed', hparsed', hid'⟩ := hcarries
    rw [hid, hid', Option.some.inj (hparsed.symm.trans hparsed')]
  exact List.length_pos_of_mem (List.mem_filter.mpr ⟨ha, decide_eq_true hsame⟩)

theorem delivered_once_notice : ∃ t,
    exec (step vera sampleKit) freshAdapter (atOnce 0 (signedNotice "1300" "m1") 1000) = some t ∧
    (Adapter.under t "m1").length = 1 := by
  have hends : (exec (checked hasRoom (step vera sampleKit)) freshAdapter
      (atOnce 0 (signedNotice "1300" "m1") 1000)).map (fun t =>
        (Adapter.under t "m1").all fun a => (Adapter.under t "m1").all fun b =>
          b.sweptAt - a.seenAt ≤ vera.replayWindowTtl) = some true := by
    decide +kernel
  obtain ⟨u, t, d, h, hfree, hd, hreason⟩ := notice_delivered
  have hdials := h.answeredBy hd
  obtain ⟨msgId, hcarries, -⟩ := hdials.taken_in freshAdapter_start hd hreason
  obtain rfl := notice_carries hcarries
  obtain ⟨t', ht', hwindow⟩ := Option.map_eq_some_iff.mp hends
  have hrun : Run (step vera sampleKit) (Roomy vera sampleKit) freshAdapter _ t' :=
    (run_of_checked ht').mono fun s e h => roomy_of_hasRoom h
  obtain rfl : t = t' := Option.some.inj (hfree.exec_eq.symm.trans hrun.exec_eq)
  refine ⟨t, hrun.exec_eq, delivered_once freshAdapter_start hrun hd hdials hreason hcarries ?_⟩
  intro a ha b hb
  exact of_decide_eq_true (List.all_eq_true.mp (List.all_eq_true.mp hwindow a ha) b hb)

end HermesMesh.Verdicts
