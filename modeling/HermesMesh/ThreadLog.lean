import HermesMesh.Threads

/-!
# What the log says about an anchor

To its users the log is, for each anchor, a small automaton: the thread is open, its close is
pending, or it is closed (`Status`). This file reads that status off the stored entries and shows
what the two loops of `threads.py` do to it: the append of `record` (`status_append`), the drop of
`withdraw` (`status_drop`) and the promotion (`status_settle`). The loops raise on an element that
is not a dict, so what they compute is stated for logs whose elements all are (`Dicts`); in a
`Wellformed` log every element names a valid anchor as well.
-/

namespace HermesMesh.Threads

variable {valid : TokenRule} {anchor other closedBy : String} {entries : List Json} {entry : Json}

inductive Status where
  | open_
  | pending
  | closed
  deriving DecidableEq, Repr

/-- The entry records this anchor. -/
def ofAnchor (anchor : String) : Json → Bool
  | .obj fields => (Json.get "anchor_task_id" fields).isStr anchor
  | _ => false

def isPending : Json → Bool
  | .obj fields => (Json.get "pending" fields).truthy
  | _ => false

/-- The entry is a pending close of this anchor. -/
def pendingOf (anchor : String) (entry : Json) : Bool := ofAnchor anchor entry && isPending entry

theorem pendingOf_obj (fields : List (String × Json)) :
    pendingOf anchor (.obj fields) =
      ((Json.get "anchor_task_id" fields).isStr anchor && (Json.get "pending" fields).truthy) := rfl

/-- An anchor is closed once one of its entries is not pending. -/
def status (anchor : String) (entries : List Json) : Status :=
  if entries.any (fun entry => ofAnchor anchor entry && !isPending entry) then .closed
  else if entries.any (ofAnchor anchor) then .pending
  else .open_

/-- Every element is a dict that names a valid anchor. -/
def Wellformed (valid : TokenRule) (entries : List Json) : Prop :=
  ∀ entry ∈ entries, ∃ anchor, lockedAnchor valid entry = some anchor

/-! ## Entries -/

theorem lockedAnchor_eq_some :
    lockedAnchor valid entry = some anchor ↔
      ofAnchor anchor entry = true ∧ anchor ≠ "" ∧ valid anchor = true := by
  cases entry with
  | obj fields =>
    unfold lockedAnchor ofAnchor
    cases hget : Json.get "anchor_task_id" fields with
    | str a =>
      simp only [hget, Json.isStr_str, decide_eq_true_eq]
      constructor
      · intro h
        split_ifs at h with hv
        obtain rfl := Option.some.inj h
        exact ⟨rfl, hv⟩
      · rintro ⟨rfl, hv⟩
        rw [if_pos hv]
    | null | bool _ | num _ | arr _ | obj _ => simp [hget, Json.isStr]
  | null | bool _ | num _ | str _ | arr _ => simp [lockedAnchor, ofAnchor]

/-- The fields of a wellformed entry. -/
theorem exists_fields (h : lockedAnchor valid entry = some anchor) :
    ∃ fields, entry = .obj fields := by
  cases entry with
  | obj fields => exact ⟨fields, rfl⟩
  | null | bool _ | num _ | str _ | arr _ => simp [lockedAnchor] at h

/-- An entry names one anchor. -/
theorem ofAnchor_unique (ho : ofAnchor other entry = true) (hne : other ≠ anchor) :
    ofAnchor anchor entry = false := by
  rw [Bool.eq_false_iff]
  intro ha
  cases entry with
  | obj fields =>
    rw [ofAnchor, Json.isStr_iff] at ha ho
    rw [ha] at ho
    exact hne (Json.str.inj ho).symm
  | null | bool _ | num _ | str _ | arr _ => simp [ofAnchor] at ho

theorem ofAnchor_newEntry (closedAt : Time) (pending : Bool) :
    ofAnchor other (newEntry closedAt anchor closedBy pending) = decide (anchor = other) := by
  cases pending <;> rfl

theorem isPending_newEntry (closedAt : Time) (pending : Bool) :
    isPending (newEntry closedAt anchor closedBy pending) = pending := by
  cases pending <;> rfl

/-- `entry.pop("pending", None)` of a pending close of the anchor. -/
def settle (anchor : String) (entry : Json) : Json :=
  match entry with
  | .obj fields => if pendingOf anchor entry then .obj (Json.pop "pending" fields) else entry
  | _ => entry

theorem ofAnchor_settle : ofAnchor other (settle anchor entry) = ofAnchor other entry := by
  cases entry with
  | obj fields =>
    unfold settle
    dsimp only
    split_ifs
    · show (Json.get _ (Json.pop _ fields)).isStr other = _
      rw [Json.get_pop_of_ne (by decide)]
      rfl
    · rfl
  | null | bool _ | num _ | str _ | arr _ => rfl

theorem isPending_settle :
    isPending (settle anchor entry) = (isPending entry && !ofAnchor anchor entry) := by
  cases entry with
  | obj fields =>
    unfold settle
    dsimp only
    by_cases h : pendingOf anchor (.obj fields) = true
    · rw [if_pos h]
      rw [pendingOf, Bool.and_eq_true] at h
      show (Json.get _ (Json.pop _ fields)).truthy = _
      rw [Json.get_pop_self, h.1, h.2]
      rfl
    · rw [if_neg h]
      rw [pendingOf, Bool.and_eq_true, not_and_or, Bool.not_eq_true, Bool.not_eq_true] at h
      rcases h with h | h <;> simp [h]
  | null | bool _ | num _ | str _ | arr _ => rfl

/-! ## The status under the three edits -/

theorem status_append (closedAt : Time) (pending : Bool)
    (hopen : status anchor entries = .open_) :
    status other (entries ++ [newEntry closedAt anchor closedBy pending]) =
      if other = anchor then (if pending then .pending else .closed) else status other entries := by
  by_cases h : other = anchor
  · subst h
    unfold status at hopen
    split_ifs at hopen with h1 h2
    rw [Bool.not_eq_true] at h1 h2
    unfold status
    rw [List.any_append, List.any_append, h1, h2]
    cases pending <;> simp [ofAnchor_newEntry, isPending_newEntry]
  · have h' : ¬ anchor = other := fun e => h e.symm
    unfold status
    simp [List.any_append, ofAnchor_newEntry, h, h']

/-- Dropping the pending closes of an anchor opens it again, unless it is closed. -/
theorem status_drop :
    status other (entries.filter fun entry => !pendingOf anchor entry) =
      if other = anchor ∧ status other entries = .pending then .open_ else status other entries := by
  have hclosed : ((entries.filter fun entry => !pendingOf anchor entry).any
      fun entry => ofAnchor other entry && !isPending entry) =
        entries.any fun entry => ofAnchor other entry && !isPending entry := by
    rw [List.any_filter]
    congr 1
    funext entry
    unfold pendingOf
    cases ofAnchor other entry <;> cases ofAnchor anchor entry <;> cases isPending entry <;> rfl
  unfold status
  rw [hclosed, List.any_filter]
  by_cases h : other = anchor
  · subst h
    have hmine : (fun entry => !pendingOf other entry && ofAnchor other entry) =
        fun entry => ofAnchor other entry && !isPending entry := by
      funext entry
      unfold pendingOf
      cases ofAnchor other entry <;> cases isPending entry <;> rfl
    rw [hmine]
    split_ifs <;> simp_all
  · have hother : ∀ entry, (!pendingOf anchor entry && ofAnchor other entry) =
        ofAnchor other entry := by
      intro entry
      unfold pendingOf
      cases ho : ofAnchor other entry with
      | false => simp
      | true => simp [ofAnchor_unique ho h]
    simp only [hother, h, false_and, if_false]

/-- Promoting closes an anchor whose close was pending. -/
theorem status_settle :
    status other (entries.map (settle anchor)) =
      if other = anchor ∧ status other entries = .pending then .closed else status other entries := by
  unfold status
  rw [List.any_map, List.any_map]
  have hany : ofAnchor other ∘ settle anchor = ofAnchor other := by
    funext entry
    exact ofAnchor_settle
  have hclosed : ((fun entry => ofAnchor other entry && !isPending entry) ∘ settle anchor) =
      fun entry => ofAnchor other entry && (!isPending entry || ofAnchor anchor entry) := by
    funext entry
    simp only [Function.comp_apply, ofAnchor_settle, isPending_settle]
    cases ofAnchor other entry <;> cases ofAnchor anchor entry <;> cases isPending entry <;> rfl
  rw [hany, hclosed]
  by_cases h : other = anchor
  · subst h
    have hmine : (fun entry => ofAnchor other entry && (!isPending entry || ofAnchor other entry)) =
        ofAnchor other := by
      funext entry
      cases ofAnchor other entry <;> cases isPending entry <;> rfl
    rw [hmine]
    have hmono : entries.any (fun entry => ofAnchor other entry && !isPending entry) = true →
        entries.any (ofAnchor other) = true := by
      simp only [List.any_eq_true, Bool.and_eq_true]
      rintro ⟨entry, hmem, ho, -⟩
      exact ⟨entry, hmem, ho⟩
    split_ifs <;> simp_all
  · have hother : (fun entry => ofAnchor other entry && (!isPending entry || ofAnchor anchor entry)) =
        fun entry => ofAnchor other entry && !isPending entry := by
      funext entry
      cases ho : ofAnchor other entry with
      | false => rfl
      | true => simp [ofAnchor_unique ho h]
    simp only [hother, h, false_and, if_false]

theorem status_ne_open : status anchor entries ≠ .open_ ↔ entries.any (ofAnchor anchor) = true := by
  have hmono : entries.any (fun entry => ofAnchor anchor entry && !isPending entry) = true →
      entries.any (ofAnchor anchor) = true := by
    simp only [List.any_eq_true, Bool.and_eq_true]
    rintro ⟨entry, hmem, ho, -⟩
    exact ⟨entry, hmem, ho⟩
  unfold status
  split_ifs with h1 h2 <;> simp_all

/-- Without a pending close to change, neither edit changes the status. -/
theorem pendingOf_of_status (h : status anchor entries = .pending) :
    entries.any (pendingOf anchor) = true := by
  unfold status at h
  split_ifs at h with h1 h2
  simp only [List.any_eq_true, Bool.and_eq_true, not_exists, not_and, Bool.not_eq_true',
    Bool.not_eq_false] at h1 h2
  obtain ⟨entry, hmem, ho⟩ := h2
  refine List.any_eq_true.mpr ⟨entry, hmem, ?_⟩
  rw [pendingOf, ho, h1 entry hmem ho]
  rfl

/-! ## The two loops -/

theorem Wellformed.append_newEntry (h : Wellformed valid entries) (closedAt : Time) (pending : Bool)
    (hne : anchor ≠ "") (hv : valid anchor = true) :
    Wellformed valid (entries ++ [newEntry closedAt anchor closedBy pending]) := by
  intro e he
  rcases List.mem_append.mp he with he | he
  · exact h e he
  · obtain rfl := List.mem_singleton.mp he
    exact ⟨anchor, lockedAnchor_eq_some.mpr ⟨by simp [ofAnchor_newEntry], hne, hv⟩⟩

theorem Wellformed.filter (h : Wellformed valid entries) (p : Json → Bool) :
    Wellformed valid (entries.filter p) :=
  fun e he => h e (List.mem_of_mem_filter he)

theorem Wellformed.map_settle (h : Wellformed valid entries) :
    Wellformed valid (entries.map (settle anchor)) := by
  intro e he
  obtain ⟨e', he', rfl⟩ := List.mem_map.mp he
  obtain ⟨a, ha⟩ := h e' he'
  refine ⟨a, ?_⟩
  rw [lockedAnchor_eq_some] at ha ⊢
  rwa [ofAnchor_settle]

/-- In a wellformed log only valid anchors have a status. -/
theorem Wellformed.valid_of_status (h : Wellformed valid entries)
    (hst : status anchor entries ≠ .open_) : valid anchor = true := by
  rw [status_ne_open, List.any_eq_true] at hst
  obtain ⟨e, he, ho⟩ := hst
  obtain ⟨a, ha⟩ := h e he
  obtain ⟨ha, -, hv⟩ := lockedAnchor_eq_some.mp ha
  by_cases hne : anchor = a
  · rwa [hne]
  · rw [ofAnchor_unique ho hne] at ha
    cases ha

/-- The snapshot of a wellformed log holds the anchors that have a status. -/
theorem Wellformed.mem_locked (h : Wellformed valid entries) :
    anchor ∈ entries.filterMap (lockedAnchor valid) ↔ status anchor entries ≠ .open_ := by
  rw [status_ne_open, List.any_eq_true, List.mem_filterMap]
  constructor
  · rintro ⟨e, he, ha⟩
    exact ⟨e, he, (lockedAnchor_eq_some.mp ha).1⟩
  · rintro ⟨e, he, ho⟩
    obtain ⟨a, ha⟩ := h e he
    refine ⟨e, he, ?_⟩
    by_cases hne : anchor = a
    · rwa [hne]
    · rw [lockedAnchor_eq_some, ofAnchor_unique ho hne] at ha
      cases ha.1

/-- The two loops get through: every element is a dict. -/
def Dicts (entries : List Json) : Prop := ∀ entry ∈ entries, ∃ fields, entry = .obj fields

theorem Dicts.tail (h : Dicts (entry :: entries)) : Dicts entries :=
  fun e he => h e (List.mem_cons_of_mem entry he)

theorem Dicts.append_newEntry (h : Dicts entries) (closedAt : Time) (pending : Bool) :
    Dicts (entries ++ [newEntry closedAt anchor closedBy pending]) := by
  intro e he
  rcases List.mem_append.mp he with he | he
  · exact h e he
  · exact ⟨_, List.mem_singleton.mp he⟩

theorem Dicts.filter (h : Dicts entries) (p : Json → Bool) : Dicts (entries.filter p) :=
  fun e he => h e (List.mem_of_mem_filter he)

theorem Dicts.map_settle (h : Dicts entries) : Dicts (entries.map (settle anchor)) := by
  intro e he
  obtain ⟨e', he', rfl⟩ := List.mem_map.mp he
  obtain ⟨fields, rfl⟩ := h e' he'
  unfold settle
  dsimp only
  split_ifs <;> exact ⟨_, rfl⟩

theorem Wellformed.dicts (h : Wellformed valid entries) : Dicts entries := by
  intro e he
  obtain ⟨a, ha⟩ := h e he
  exact exists_fields ha

theorem Dicts.findAnchor_eq (h : Dicts entries) :
    findAnchor anchor entries = .ok (entries.any (ofAnchor anchor)) := by
  induction entries with
  | nil => rfl
  | cons entry rest ih =>
    obtain ⟨fields, rfl⟩ := h _ List.mem_cons_self
    rw [findAnchor, ih h.tail, List.any_cons]
    show (if (Json.get "anchor_task_id" fields).isStr anchor then _ else _) = _
    unfold ofAnchor
    dsimp only
    split_ifs with hf
    · rw [hf]
      rfl
    · rw [Bool.not_eq_true] at hf
      rw [hf, Bool.false_or]

/-- What the loop of `_rewrite` does to a list of dicts: it drops the pending entries of the anchor, or
it settles them. -/
theorem Dicts.rewriteEntries_eq (h : Dicts entries) (drop : Bool) :
    rewriteEntries anchor drop (!drop) entries =
      .ok (entries.any (pendingOf anchor),
        if drop then entries.filter fun entry => !pendingOf anchor entry
        else entries.map (settle anchor)) := by
  induction entries with
  | nil => cases drop <;> rfl
  | cons entry rest ih =>
    obtain ⟨fields, rfl⟩ := h _ List.mem_cons_self
    rw [rewriteEntries, ih h.tail, List.any_cons, List.map_cons, List.filter_cons, settle, pendingOf_obj]
    show (if !(Json.get "anchor_task_id" fields).isStr anchor then _ else _) = _
    cases drop <;> cases (Json.get "anchor_task_id" fields).isStr anchor <;>
      cases (Json.get "pending" fields).truthy <;> rfl

theorem Dicts.rewriteEntries_drop (h : Dicts entries) :
    rewriteEntries anchor true false entries =
      .ok (entries.any (pendingOf anchor), entries.filter fun entry => !pendingOf anchor entry) :=
  h.rewriteEntries_eq true

theorem Dicts.rewriteEntries_promote (h : Dicts entries) :
    rewriteEntries anchor false true entries =
      .ok (entries.any (pendingOf anchor), entries.map (settle anchor)) :=
  h.rewriteEntries_eq false

/-- A search that comes to the end has met dicts only, and none of the anchor. -/
theorem findAnchor_none (h : findAnchor anchor entries = .ok false) :
    Dicts entries ∧ entries.any (ofAnchor anchor) = false := by
  induction entries with
  | nil => exact ⟨nofun, rfl⟩
  | cons entry rest ih =>
    cases entry with
    | obj fields =>
      have h' : (if (Json.get "anchor_task_id" fields).isStr anchor then .ok true
          else findAnchor anchor rest : Except PyError Bool) = .ok false := h
      by_cases hf : (Json.get "anchor_task_id" fields).isStr anchor = true
      · rw [if_pos hf] at h'
        cases h'
      · rw [if_neg hf] at h'
        obtain ⟨hdicts, hany⟩ := ih h'
        refine ⟨fun e he => ?_, ?_⟩
        · rcases List.mem_cons.mp he with rfl | he
          · exact ⟨fields, rfl⟩
          · exact hdicts e he
        · rw [List.any_cons, hany, Bool.or_false]
          exact Bool.eq_false_iff.mpr hf
    | null | bool _ | num _ | str _ | arr _ => cases h

/-- A search that stops has found an entry of the anchor. -/
theorem findAnchor_some (h : findAnchor anchor entries = .ok true) :
    entries.any (ofAnchor anchor) = true := by
  induction entries with
  | nil => cases h
  | cons entry rest ih =>
    cases entry with
    | obj fields =>
      have h' : (if (Json.get "anchor_task_id" fields).isStr anchor then .ok true
          else findAnchor anchor rest : Except PyError Bool) = .ok true := h
      rw [List.any_cons, Bool.or_eq_true]
      by_cases hf : (Json.get "anchor_task_id" fields).isStr anchor = true
      · exact .inl hf
      · rw [if_neg hf] at h'
        exact .inr (ih h')
    | null | bool _ | num _ | str _ | arr _ => cases h

theorem findAnchor_eq (h : Wellformed valid entries) :
    findAnchor anchor entries = .ok (entries.any (ofAnchor anchor)) :=
  h.dicts.findAnchor_eq

theorem rewriteEntries_drop (h : Wellformed valid entries) :
    rewriteEntries anchor true false entries =
      .ok (entries.any (pendingOf anchor), entries.filter fun entry => !pendingOf anchor entry) :=
  h.dicts.rewriteEntries_drop

theorem rewriteEntries_promote (h : Wellformed valid entries) :
    rewriteEntries anchor false true entries =
      .ok (entries.any (pendingOf anchor), entries.map (settle anchor)) :=
  h.dicts.rewriteEntries_promote

end HermesMesh.Threads
