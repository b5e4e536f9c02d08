import HermesMesh.EnvelopeRoundTrip

/-!
# The normal form of an agent name

`_validate_agent_name` strips, matches an allowlist without regard to case and lowers what it let
through. The allowlist is that of ASCII letters and digits, but a class of letters matched without
regard to case also takes the four letters outside ASCII that case-fold into it. The Kelvin sign is
lowered to a `k`; the other three stay outside (`agentName_normal_iff`).
-/

namespace HermesMesh

variable {repr : String → String} {raw name : String} {c : Char}

/-- `a-z` and `0-9`. -/
def isPlainStart (c : Char) : Bool := c.isLower || c.isDigit

/-- `a-z`, `0-9`, `_`, `.` and `-`. -/
def isPlain (c : Char) : Bool := isPlainStart c || c = '_' || c = '.' || c = '-'

/-- A name in normal form, which every gateway accepts and leaves as it is. -/
structure Normal (name : String) : Prop where
  plain : ∀ c ∈ name.toList, isPlain c = true
  start : ∃ c rest, name.toList = c :: rest ∧ isPlainStart c = true
  dots : hasText ".." name = false
  again : ∀ repr, validateAgentName repr name = .ok name

/-- `_validate_agent_name` raises `ValueError` or returns a normal form. -/
structure Normalizes (repr : String → String) (raw : String) : Prop where
  refused : ∀ e, validateAgentName repr raw = .error e → ∃ text, e = .valueError text
  accepted : ∀ name, validateAgentName repr raw = .ok name → Normal name

/-- The stripped string is not empty, has no `..` and matches `_AGENT_NAME_RE`. -/
def Passes (raw : String) : Prop :=
  hasText ".." (strip raw) = false ∧ ∃ c rest, (strip raw).toList = c :: rest ∧
    isNameStart c = true ∧ rest.all isNameChar = true

/-- The dotted capital I, the dotless i and the long s: they match `[a-z]` without regard to case,
and their lower case is not in it. -/
def staysOutside (c : Char) : Bool := c.toNat = 0x130 || c.toNat = 0x131 || c.toNat = 0x17F

/-! ## Characters -/

theorem isPlain_lowerChar : ∀ n < 128, isNameChar (Char.ofNat n) = true →
    isPlain (lowerChar (Char.ofNat n)) = true ∧
      (isNameStart (Char.ofNat n) = true → isPlainStart (lowerChar (Char.ofNat n)) = true) := by
  decide +kernel

/-- A character of the pattern is lowered into the normal form, but for the three. -/
theorem lowerName_plain (h : isNameChar c = true) (hc : staysOutside c = false) :
    lowerName c = [lowerChar c] ∧ isPlain (lowerChar c) = true ∧
      (isNameStart c = true → isPlainStart (lowerChar c) = true) := by
  by_cases hascii : c.toNat < 128
  · have hlower := lowerChar_ascii c.toNat hascii
    have hplain := isPlain_lowerChar c.toNat hascii
    rw [Char.ofNat_toNat] at hlower hplain
    exact ⟨(hlower h).1, hplain h⟩
  · unfold staysOutside at hc
    simp only [Bool.or_eq_false_iff, decide_eq_false_iff_not] at hc
    rcases isNameChar_special h hascii with hn | hn | hn | hn
    · exact absurd hn hc.1.1
    · exact absurd hn hc.1.2
    · exact absurd hn hc.2
    · obtain rfl : c = Char.ofNat 0x212A :=
        (Char.ofNat_toNat c).symm.trans (congrArg Char.ofNat hn)
      decide

/-- The three leave something in the name that is not of the normal form. -/
theorem lowerName_outside (h : staysOutside c = true) : ∃ d ∈ lowerName c, isPlain d = false := by
  unfold staysOutside at h
  simp only [Bool.or_eq_true, decide_eq_true_eq] at h
  rcases h with (hn | hn) | hn
  all_goals
    obtain rfl : c = Char.ofNat _ := (Char.ofNat_toNat c).symm.trans (congrArg Char.ofNat hn)
  · exact ⟨Char.ofNat 0x307, by decide, by decide⟩
  · exact ⟨Char.ofNat 0x131, by decide, by decide⟩
  · exact ⟨Char.ofNat 0x17F, by decide, by decide⟩

theorem isPlain_ascii (h : isPlain c = true) : c.toNat < 128 := by
  unfold isPlain isPlainStart at h
  simp only [Bool.or_eq_true, decide_eq_true_eq] at h
  rcases h with (((hlower | hdigit) | rfl) | rfl) | rfl
  · apply isAlphanum_ascii
    show ((c.isUpper || c.isLower) || c.isDigit) = true
    rw [hlower, Bool.or_true, Bool.true_or]
  · apply isAlphanum_ascii
    show ((c.isUpper || c.isLower) || c.isDigit) = true
    rw [hdigit, Bool.or_true]
  · decide
  · decide
  · decide

/-! ## Names -/

/-- What passes is lowered character by character. -/
theorem validateAgentName_passes (repr : String → String) (h : Passes raw) :
    validateAgentName repr raw =
      .ok (String.ofList ((strip raw).toList.flatMap lowerName)) := by
  obtain ⟨hdots, c, rest, hlist, hstart, hall⟩ := h
  have hempty : strip raw ≠ "" := by
    intro hnil
    rw [hnil] at hlist
    cases hlist
  unfold validateAgentName
  dsimp only
  rw [if_neg hempty, hdots, if_neg Bool.false_ne_true, hlist]
  dsimp only
  rw [hstart, hall, Bool.and_self, if_pos rfl]

theorem passes_of_ok (h : validateAgentName repr raw = .ok name) : Passes raw := by
  obtain ⟨c, rest, hlist, hstart, hchars, hdots, -⟩ := validateAgentName_ok h
  refine ⟨hdots, c, rest, hlist, hstart, ?_⟩
  rw [List.all_eq_true]
  intro d hd
  exact hchars d (List.mem_cons_of_mem _ hd)

/-- Every refusal is a `ValueError`. -/
theorem validateAgentName_error {e : PyError} (h : validateAgentName repr raw = .error e) :
    ∃ text, e = .valueError text := by
  unfold validateAgentName at h
  dsimp only at h
  split_ifs at h
  · exact ⟨_, (Except.error.inj h).symm⟩
  · exact ⟨_, (Except.error.inj h).symm⟩
  · split at h
    · split_ifs at h
      exact ⟨_, (Except.error.inj h).symm⟩
    · exact ⟨_, (Except.error.inj h).symm⟩

/-- A name without the three is returned in normal form. -/
theorem normal_of_inside (h : validateAgentName repr raw = .ok name)
    (hinside : ∀ c ∈ (strip raw).toList, staysOutside c = false) : Normal name := by
  obtain ⟨c, rest, hlist, hstart, hchars, hdots, hname⟩ := validateAgentName_ok h
  rw [hlist] at hinside
  have hlow : ∀ d ∈ c :: rest, lowerName d = [lowerChar d] ∧ isPlain (lowerChar d) = true ∧
      (isNameStart d = true → isPlainStart (lowerChar d) = true) := by
    intro d hd
    exact lowerName_plain (hchars d hd) (hinside d hd)
  have hmap : name.toList = (c :: rest).map lowerChar := by
    rw [hname, List.flatMap_congr fun d hd => (hlow d hd).1, ← List.flatMap_pure_eq_map]
    rfl
  have hplain : ∀ d ∈ name.toList, isPlain d = true := by
    intro d hd
    rw [hmap] at hd
    obtain ⟨d', hd', rfl⟩ := List.mem_map.mp hd
    exact (hlow d' hd').2.1
  have hagain : ∀ repr', validateAgentName repr' name = .ok name := by
    intro repr'
    apply validateAgentName_again h
    intro d hd
    exact isPlain_ascii (hplain d hd)
  refine ⟨hplain, ⟨lowerChar c, rest.map lowerChar, hmap, ?_⟩, ?_, hagain⟩
  · exact (hlow c List.mem_cons_self).2.2 hstart
  · -- a name that is validated to itself is its own stripped form
    have hself := hagain repr
    obtain ⟨c', rest', hlist', -, -, hdots', -⟩ := validateAgentName_ok hself
    have hstrip : strip name = name := by
      apply strip_eq
      intro d hd
      rw [hmap] at hd
      obtain ⟨d', hd', rfl⟩ := List.mem_map.mp hd
      have hlowered := (lowerName_ascii (hchars d' hd') (by
        intro e he
        rw [(hlow d' hd').1, List.mem_singleton] at he
        rw [he]
        exact isPlain_ascii (hlow d' hd').2.1)).2.1
      simp only [isLowered, Bool.and_eq_true, Bool.not_eq_true'] at hlowered
      exact hlowered.1.2
    rwa [hstrip] at hdots'

/-- **The normal form of an agent name.** A string is refused or normalized, unless it passes the
checks with one of the three letters in it. -/
theorem agentName_normal_iff (repr : String → String) (raw : String) :
    Normalizes repr raw ↔
      (Passes raw → ∀ c ∈ (strip raw).toList, staysOutside c = false) := by
  constructor
  · intro h hpass c hc
    by_contra hout
    obtain ⟨d, hd, hbad⟩ := lowerName_outside (by simpa using hout)
    have hplain := (h.accepted _ (validateAgentName_passes repr hpass)).plain d
    rw [String.toList_ofList] at hplain
    rw [hplain (List.mem_flatMap.mpr ⟨c, hc, hd⟩)] at hbad
    cases hbad
  · intro h
    refine ⟨fun e => validateAgentName_error, ?_⟩
    intro name hname
    exact normal_of_inside hname (h (passes_of_ok hname))

/-- The dotted capital I is lowered to two characters, and the name is refused at the other end. -/
theorem agentName_dotted : ¬ Normalizes (fun s => s) "\u0130ris" := by
  intro h
  have hok : validateAgentName (fun s => s) "\u0130ris" = .ok "i\u0307ris" := by decide +kernel
  have hagain : validateAgentName (fun s => s) "i\u0307ris" ≠ .ok "i\u0307ris" := by decide +kernel
  exact hagain ((h.accepted _ hok).again _)

end HermesMesh
