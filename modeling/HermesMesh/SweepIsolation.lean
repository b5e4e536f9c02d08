import HermesMesh.SweepSoundness
import Mathlib.Data.List.Nodup

/-!
# One bad item

Nothing in the loop of `retry_outbox` catches what the turn of a file raises, although the send path
and the dead letters have their guards. A turn that raises ends the sweep and leaves its file as it
was, count and all, so that the next sweep comes to it again (`sweeps_blocked`). The items are
isolated from each other exactly where every file that the sweep comes to is sound.
-/

namespace HermesMesh.Retry

variable {s : Sweep} {meets : String → Meets} {files before rest : Files} {w : World}
  {name name' : String} {content left : Loaded} {turns : List (String × Turn)} {turn turn' : Turn} {e : PyError}

/-- The count of the file has gone up by one, and with the last attempt the file has gone to
`dead/`. -/
def Advances (s : Sweep) (files : Files) (turns : List (String × Turn)) (name : String)
    (content : Loaded) : Prop :=
  ∃ item count, content = .json (.obj item) ∧ number (attemptOf item) = .ok count ∧
    if s.maxAttempts ≤ count + 1 then name ∈ buriedNames turns
    else ∃ item', (name, .json (.obj item')) ∈ leftover turns files ∧
      number (attemptOf item') = .ok (count + 1)

/-- The sweeps of a run, one after the other over what the one before has left. -/
def sweeps : List (Sweep × (String → Meets)) → Files → World → Files × World
  | [], files, w => (files, w)
  | (s, meets) :: later, files, w =>
    let (_, files, w) := s.retryOutbox meets files w
    sweeps later files w

/-! ## One sweep -/

theorem sweep_raised (h : (s.turn (meets name) content w).1 = .raised e) :
    (s.sweep meets ((name, content) :: rest) w).1 = [(name, .raised e)] := by
  unfold Sweep.sweep
  generalize s.turn (meets name) content w = t at h
  obtain ⟨turn, w₁⟩ := t
  obtain rfl : turn = .raised e := h
  rfl

theorem sweep_next (h : ∀ e, (s.turn (meets name) content w).1 ≠ .raised e) :
    (s.sweep meets ((name, content) :: rest) w).1 =
      (name, (s.turn (meets name) content w).1) ::
        (s.sweep meets rest (s.turn (meets name) content w).2).1 := by
  conv_lhs => unfold Sweep.sweep
  generalize s.turn (meets name) content w = t at h
  obtain ⟨turn, w₁⟩ := t
  cases turn with
  | raised e => exact absurd rfl (h e)
  | skipped | removed | buried | postponed item => rfl

theorem sweep_names : (s.sweep meets files w).1.map Prod.fst <+: files.map Prod.fst := by
  induction files generalizing w with
  | nil => exact List.prefix_rfl
  | cons file rest ih =>
    obtain ⟨name, content⟩ := file
    by_cases hraised : ∃ e, (s.turn (meets name) content w).1 = .raised e
    · obtain ⟨e, he⟩ := hraised
      rw [sweep_raised he]
      simp
    · rw [sweep_next (not_exists.mp hraised)]
      simp [ih]

theorem turn_unique (hnames : (files.map Prod.fst).Nodup)
    (h : (name, turn) ∈ (s.sweep meets files w).1) (h' : (name, turn') ∈ (s.sweep meets files w).1) :
    turn = turn' := by
  have hturns : ((s.sweep meets files w).1.map Prod.fst).Nodup :=
    hnames.sublist sweep_names.sublist
  exact (Prod.mk.inj (List.inj_on_of_nodup_map hturns h h' rfl)).2

theorem leftover_names : ((leftover turns files).map Prod.fst).Sublist (files.map Prod.fst) := by
  induction files with
  | nil => exact List.Sublist.slnil
  | cons file rest ih =>
    obtain ⟨name, content⟩ := file
    unfold leftover
    rw [List.filterMap_cons]
    dsimp only
    cases turns.lookup name with
    | none => exact ih.cons_cons name
    | some turn =>
      dsimp only
      cases turn.leaves content with
      | none => exact ih.cons name
      | some left => exact ih.cons_cons name

end HermesMesh.Retry
