import HermesMesh.QueuedItems
import HermesMesh.SweepIsolation

/-!
# The attempts of a sweep

Which items a sweep attempts, and where each of them is after it. In an outbox that holds only items
whose two counters are numbers, and where every attempt ends with a delivery or a failure, every file
has its turn (`sweep_file`), and the turn is that of `Sweep.fate` (`turn_ready`). The delay of an item
with 1024 failures behind it is no float, so a further failure that is not the last raises: the
attempts are `Sweep.Orderly` where this does not happen.
-/

namespace HermesMesh.Retry

variable {s : Sweep} {meets : String → Meets} {m : Meets} {files : Files} {w : World} {name : String}
  {content left : Loaded} {turns : List (String × Turn)} {turn : Turn}
  {item : List (String × Json)} {failures : ℕ} {due : ℚ}

/-- One attempt: the file, the count that it had, and how the attempt ended. -/
structure Tried where
  name : String
  count : ℚ
  outcome : Except PyError Bool

/-- The attempt that the turn of a file makes, if it makes one. -/
def Sweep.tried (s : Sweep) (m : Meets) (name : String) (content : Loaded) (w : World) :
    Option Tried :=
  match content with
  | .json (.obj item) =>
    match number (nextRetry item), number (attemptOf item) with
    | .ok due, .ok count =>
      if s.now < due then none
      else some ⟨name, count, (attemptItem m.env s.extra (counted count item) w).1⟩
    | _, _ => none
  | _ => none

/-- The attempts of a sweep, as far as it comes. -/
def Sweep.tries (s : Sweep) (meets : String → Meets) : Files → World → List Tried
  | [], _ => []
  | (name, content) :: rest, w =>
    (s.tried (meets name) name content w).toList ++
      match s.turn (meets name) content w with
      | (.raised _, _) => []
      | (_, w) => s.tries meets rest w

/-! ## One turn -/

/-- The file holds an item with this many failures that is due at this time. -/
structure Ready (failures : ℕ) (due : ℚ) (item : List (String × Json)) : Prop where
  attempt : attemptOf item = .num failures
  nextRetry : nextRetry item = .num due

/-- How the turn of an item ends that fails and is not done with. -/
def Sweep.postponed (s : Sweep) (failures : ℕ) (item : List (String × Json)) :
    List (String × Json) :=
  setField "next_retry" (.num (s.now + s.backoff * 2 ^ failures)) (counted failures item)

theorem ready_postponed : Ready (failures + 1) (s.now + s.backoff * 2 ^ failures)
    (s.postponed failures item) where
  attempt := by
    unfold attemptOf Sweep.postponed counted
    rw [lookup_setField_of_ne (by decide), lookup_setField, if_pos rfl]
    simp
  nextRetry := by
    unfold Retry.nextRetry Sweep.postponed
    rw [lookup_setField, if_pos rfl]
    rfl

theorem counted_later (item : Outbox.Item) (n : ℕ) (due : Time) :
    counted n (item.later n due).fields = (item.later (n + 1) due).fields := by
  unfold counted
  simp [Outbox.Item.fields, Outbox.Item.later, setField]

theorem postponed_later (item : Outbox.Item) (n : ℕ) (due : Time) :
    s.postponed n (item.later n due).fields =
      (item.later (n + 1) (s.now + s.backoff * 2 ^ n)).fields := by
  unfold Sweep.postponed
  rw [counted_later]
  simp [Outbox.Item.fields, Outbox.Item.later, setField]

theorem delay_nat (h : failures < 1024) : s.delay (failures : ℚ) = .ok (s.backoff * 2 ^ failures) := by
  have hfits : ¬ Overflows (failures : ℚ) := by
    rintro (hlarge | hsmall)
    · have : (1024 : ℕ) ≤ failures := by exact_mod_cast hlarge
      omega
    · have hpos : (0 : ℚ) ≤ failures := Nat.cast_nonneg _
      have hpow : (2 : ℚ) ^ 970 < 2 ^ 1024 := pow_lt_pow_right₀ one_lt_two (by decide)
      have hneg : -(2 ^ 1024 - 2 ^ 970 : ℚ) < 0 := neg_lt_zero.mpr (sub_pos.mpr hpow)
      exact absurd hpos (not_le.mpr (hsmall.trans_lt hneg))
  unfold Sweep.delay
  rw [if_neg hfits]
  simp

theorem delay_overflows (h : 1024 ≤ failures) :
    s.delay (failures : ℚ) = .error (.other "OverflowError") := by
  have hlarge : (1024 : ℚ) ≤ failures := by exact_mod_cast h
  unfold Sweep.delay
  rw [if_pos (.inl hlarge)]

/-- The attempts end with a delivery or a failure, and no failure is one too many. -/
structure Sweep.Orderly (s : Sweep) (tries : List Tried) : Prop where
  returns : ∀ t ∈ tries, ∃ done, t.outcome = .ok done
  bearable : ∀ t ∈ tries, t.outcome = .ok false → t.count + 1 < s.maxAttempts → t.count < 1024

theorem Sweep.Orderly.mono {tries tries' : List Tried} (h : s.Orderly tries) (hsub : tries' ⊆ tries) :
    s.Orderly tries' where
  returns t ht := h.returns t (hsub ht)
  bearable t ht := h.bearable t (hsub ht)

/-- What the turn of an item makes of it, where an attempt ends with `done`. -/
def Sweep.fate (s : Sweep) (failures : ℕ) (done : Bool) (item : List (String × Json)) : Turn :=
  if done then .removed
  else if s.maxAttempts ≤ failures + 1 then .buried
  else .postponed (s.postponed failures item)

theorem tried_due (hready : Ready failures due item) (hlate : ¬ s.now < due) :
    s.tried m name (.json (.obj item)) w =
      some ⟨name, failures, (attemptItem m.env s.extra (counted failures item) w).1⟩ := by
  have hdue : number (nextRetry item) = .ok due := congrArg number hready.nextRetry
  have hcount : number (attemptOf item) = .ok (failures : ℚ) := congrArg number hready.attempt
  unfold Sweep.tried
  dsimp only
  rw [hdue, hcount]
  exact if_neg hlate

theorem turn_due (hready : Ready failures due item) (hlate : ¬ s.now < due) :
    s.turn m (.json (.obj item)) w =
      match attemptItem m.env s.extra (counted failures item) w with
      | (.error e, w) => (.raised e, w)
      | (.ok done, w) => s.finish m (counted failures item) (failures + 1) done w := by
  have hdue : number (nextRetry item) = .ok due := congrArg number hready.nextRetry
  have hcount : number (attemptOf item) = .ok (failures : ℚ) := congrArg number hready.attempt
  unfold Sweep.turn
  dsimp only
  rw [hdue, hcount]
  exact if_neg hlate

/-- **One turn.** An item that is not due is skipped. One that is due has its attempt, and goes where
the attempt and the count send it. -/
theorem turn_ready (hready : Ready failures due item)
    (horderly : s.Orderly (s.tried m name (.json (.obj item)) w).toList) :
    (s.now < due ∧ (s.turn m (.json (.obj item)) w).1 = .skipped ∧
        s.tried m name (.json (.obj item)) w = none) ∨
      (due ≤ s.now ∧ ∃ done, s.tried m name (.json (.obj item)) w = some ⟨name, failures, .ok done⟩ ∧
        (s.turn m (.json (.obj item)) w).1 = s.fate failures done item) := by
  by_cases hlate : s.now < due
  · have hdue : number (nextRetry item) = .ok due := congrArg number hready.nextRetry
    have hcount : number (attemptOf item) = .ok (failures : ℚ) := congrArg number hready.attempt
    refine .inl ⟨hlate, ?_, ?_⟩
    · unfold Sweep.turn
      dsimp only
      rw [hdue]
      exact congrArg Prod.fst (if_pos hlate)
    · unfold Sweep.tried
      dsimp only
      rw [hdue, hcount]
      exact if_pos hlate
  · rw [tried_due hready hlate] at horderly ⊢
    rw [turn_due hready hlate]
    refine .inr ⟨not_lt.mp hlate, ?_⟩
    generalize attemptItem m.env s.extra (counted failures item) w = c at horderly ⊢
    obtain ⟨e | done, w₁⟩ := c
    · obtain ⟨done, hdone⟩ := horderly.returns _ (List.mem_singleton_self _)
      cases hdone
    · refine ⟨done, rfl, ?_⟩
      unfold Sweep.finish Sweep.fate
      dsimp only
      cases done with
      | true => rfl
      | false =>
        by_cases hmax : (s.maxAttempts : ℚ) ≤ failures + 1
        · have hmax' : s.maxAttempts ≤ failures + 1 := by exact_mod_cast hmax
          simp [hmax, hmax']
        · have hmax' : ¬ s.maxAttempts ≤ failures + 1 := by exact_mod_cast hmax
          have hfew : failures < 1024 := by
            have hcount : (failures : ℚ) < 1024 :=
              horderly.bearable _ (List.mem_singleton_self _) rfl (not_le.mp hmax)
            exact_mod_cast hcount
          simp [hmax, hmax', delay_nat hfew, Sweep.postponed]

/-! ## One sweep -/

theorem tried_name {t : Tried} (h : s.tried m name content w = some t) : t.name = name := by
  unfold Sweep.tried at h
  split at h
  · split at h
    · split_ifs at h
      rw [← Option.some.inj h]
    · cases h
  · cases h

theorem tries_name {t : Tried} (h : t ∈ s.tries meets files w) : t.name ∈ files.map Prod.fst := by
  induction files generalizing w with
  | nil => cases h
  | cons file rest ih =>
    obtain ⟨name, content⟩ := file
    unfold Sweep.tries at h
    rcases List.mem_append.mp h with h | h
    · rw [tried_name (Option.mem_toList.mp h)]
      exact List.mem_cons_self
    · split at h
      · cases h
      · exact List.mem_cons_of_mem _ (ih h)

theorem filter_tried (other : String) :
    (s.tried m name content w).toList.filter (fun t => t.name = other) =
      if name = other then (s.tried m name content w).toList else [] := by
  cases htried : s.tried m name content w with
  | none => simp
  | some t => by_cases h : name = other <;> simp [tried_name htried, h]

theorem filter_tries (h : name ∉ files.map Prod.fst) :
    (s.tries meets files w).filter (fun t => t.name = name) = [] := by
  rw [List.filter_eq_nil_iff]
  intro t ht hname
  rw [← of_decide_eq_true hname] at h
  exact h (tries_name ht)

/-- Every file holds an item. -/
def AllReady (files : Files) : Prop :=
  ∀ file ∈ files, ∃ failures due item, file.2 = .json (.obj item) ∧ Ready failures due item

theorem fate_ne_raised (done : Bool) (e : PyError) : s.fate failures done item ≠ .raised e := by
  unfold Sweep.fate
  split_ifs <;> nofun

theorem turn_ne_raised (hready : Ready failures due item)
    (horderly : s.Orderly (s.tried m name (.json (.obj item)) w).toList) (e : PyError) :
    (s.turn m (.json (.obj item)) w).1 ≠ .raised e := by
  rcases turn_ready hready horderly with ⟨-, heq, -⟩ | ⟨-, done, -, heq⟩ <;> rw [heq]
  · nofun
  · exact fate_ne_raised done e

theorem tried_subset {rest : Files} :
    (s.tried (meets name) name content w).toList ⊆ s.tries meets ((name, content) :: rest) w :=
  List.subset_append_left _ _

theorem tries_next {rest : Files} (h : ∀ e, (s.turn (meets name) content w).1 ≠ .raised e) :
    s.tries meets ((name, content) :: rest) w =
      (s.tried (meets name) name content w).toList ++
        s.tries meets rest (s.turn (meets name) content w).2 := by
  conv_lhs => unfold Sweep.tries
  generalize s.turn (meets name) content w = t at h
  obtain ⟨turn, w₁⟩ := t
  cases turn with
  | raised e => exact absurd rfl (h e)
  | skipped | removed | buried | postponed item => rfl

theorem sweep_single : (s.sweep meets [(name, content)] w).1 =
    [(name, (s.turn (meets name) content w).1)] := by
  unfold Sweep.sweep
  generalize s.turn (meets name) content w = t
  obtain ⟨turn, w₁⟩ := t
  cases turn with
  | raised e => rfl
  | skipped | removed | buried | postponed item => rfl

theorem tries_single : s.tries meets [(name, content)] w =
    (s.tried (meets name) name content w).toList := by
  unfold Sweep.tries
  generalize s.turn (meets name) content w = t
  obtain ⟨turn, w₁⟩ := t
  cases turn with
  | raised e => exact List.append_nil _
  | skipped | removed | buried | postponed item => exact List.append_nil _

/-- **One file of a sweep**: it has a turn, and its attempts are those of that turn. -/
theorem sweep_file (hready : AllReady files) (hnames : (files.map Prod.fst).Nodup)
    (horderly : s.Orderly (s.tries meets files w)) (hmem : (name, content) ∈ files) :
    ∃ w', (name, (s.turn (meets name) content w').1) ∈ (s.sweep meets files w).1 ∧
      (s.tries meets files w).filter (fun t => t.name = name) =
        (s.tried (meets name) name content w').toList := by
  induction files generalizing w with
  | nil => cases hmem
  | cons file rest ih =>
    obtain ⟨first, content₁⟩ := file
    obtain ⟨⟨failures, due, item, hitem, hfirst⟩, hrest⟩ := List.forall_mem_cons.mp hready
    obtain rfl : content₁ = .json (.obj item) := hitem
    obtain ⟨hnew, hnames⟩ := List.nodup_cons.mp hnames
    have hraises := turn_ne_raised hfirst (horderly.mono tried_subset)
    rw [tries_next hraises] at horderly ⊢
    rw [sweep_next hraises]
    rcases List.mem_cons.mp hmem with heq | hmem
    · obtain ⟨rfl, rfl⟩ := Prod.mk.inj heq
      refine ⟨w, List.mem_cons_self, ?_⟩
      rw [List.filter_append, filter_tried, if_pos rfl, filter_tries hnew, List.append_nil]
    · obtain ⟨w', hturn, htries⟩ := ih hrest hnames (horderly.mono (List.subset_append_right _ _)) hmem
      refine ⟨w', List.mem_cons_of_mem _ hturn, ?_⟩
      have hname : name ∈ rest.map Prod.fst := List.mem_map.mpr ⟨_, hmem, rfl⟩
      have hne : first ≠ name := fun heq => hnew (heq ▸ hname)
      rw [List.filter_append, filter_tried, if_neg hne, List.nil_append, htries]

/-! ## What a sweep leaves -/

theorem lookup_of_mem (hnames : (turns.map Prod.fst).Nodup) (h : (name, turn) ∈ turns) :
    turns.lookup name = some turn := by
  induction turns with
  | nil => cases h
  | cons head rest ih =>
    obtain ⟨first, turn₁⟩ := head
    obtain ⟨hnew, hnames⟩ := List.nodup_cons.mp hnames
    rcases List.mem_cons.mp h with heq | hrest
    · obtain ⟨rfl, rfl⟩ := Prod.mk.inj heq
      exact List.lookup_cons_self
    · have hname : name ∈ rest.map Prod.fst := List.mem_map.mpr ⟨_, hrest, rfl⟩
      have hne : (name == first) = false :=
        beq_eq_false_iff_ne.mpr fun heq => hnew (heq ▸ hname)
      rw [List.lookup_cons, hne]
      exact ih hnames hrest

/-- A file that had a turn is left as the turn leaves it. -/
theorem mem_leftover_iff (hnames : (files.map Prod.fst).Nodup) (hfile : (name, content) ∈ files)
    (hlookup : turns.lookup name = some turn) :
    (name, left) ∈ leftover turns files ↔ turn.leaves content = some left := by
  unfold leftover
  rw [List.mem_filterMap]
  constructor
  · rintro ⟨⟨name', content'⟩, hmem, heq⟩
    dsimp only at heq
    have hname : name' = name := by
      split at heq
      · obtain ⟨_, -, heq⟩ := Option.map_eq_some_iff.mp heq
        exact (Prod.mk.inj heq).1
      · exact (Prod.mk.inj (Option.some.inj heq)).1
    obtain rfl := hname
    obtain rfl : content' = content :=
      (Prod.mk.inj (List.inj_on_of_nodup_map hnames hmem hfile rfl)).2
    rw [hlookup] at heq
    obtain ⟨left', hleaves, heq⟩ := Option.map_eq_some_iff.mp heq
    obtain ⟨-, rfl⟩ := Prod.mk.inj heq
    exact hleaves
  · intro hleaves
    refine ⟨(name, content), hfile, ?_⟩
    dsimp only
    rw [hlookup]
    exact Option.map_eq_some_iff.mpr ⟨left, hleaves, rfl⟩

theorem leftover_single : leftover [(name, turn)] [(name, content)] =
    ((turn.leaves content).map (name, ·)).toList := by
  have hlookup : [(name, turn)].lookup name = some turn := List.lookup_cons_self
  unfold leftover
  rw [List.filterMap_cons]
  dsimp only
  rw [hlookup]
  dsimp only
  cases turn.leaves content with
  | none => rfl
  | some left => rfl

theorem mem_buriedNames : name ∈ buriedNames turns ↔ (name, .buried) ∈ turns := by
  unfold buriedNames
  rw [List.mem_filterMap]
  constructor
  · rintro ⟨⟨name', turn⟩, hmem, heq⟩
    cases turn with
    | buried =>
      obtain rfl := Option.some.inj heq
      exact hmem
    | skipped | removed | postponed item | raised e => cases heq
  · exact fun h => ⟨(name, .buried), h, rfl⟩

theorem buriedNames_sublist : (buriedNames turns).Sublist (turns.map Prod.fst) := by
  induction turns with
  | nil => exact List.Sublist.slnil
  | cons head rest ih =>
    obtain ⟨first, turn⟩ := head
    unfold buriedNames
    rw [List.filterMap_cons]
    cases turn with
    | buried => exact ih.cons_cons first
    | skipped | removed | postponed item | raised e => exact ih.cons first

end HermesMesh.Retry
