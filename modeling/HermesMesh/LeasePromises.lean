import HermesMesh.LeaseOps

/-!
# What one call promises about a lease

Two promises of the registry about the lease of a pair. A party's release takes out exactly her
leases under the id, and the two versions of it should agree (`partyRelease_exact_iff`): the older one
does not look at what its write returned. A follow-up should renew the lease (`renews_iff`): the
branch of `claim` that merges comes after the one that lets thread traffic through, and that one
leaves the lease as it is.
-/

namespace HermesMesh.OpenThreads

open Lib

variable {valid : TokenRule} {io : Io} {now : Time} {threadId who : String} {minutes : ℤ}
  {entries : List Lease} {file : File} {rec : Lease}

/-! ## A party's release -/

/-- The record is a lease under the id, and `who` is one of its two parties. -/
def Lease.HeldBy (rec : Lease) (threadId who : String) : Prop :=
  rec.threadId = threadId ∧ (rec.openedBy = who ∨ rec.peer = who)

instance (rec : Lease) (threadId who : String) : Decidable (rec.HeldBy threadId who) :=
  inferInstanceAs (Decidable (_ ∧ _))

theorem releasable_iff : releasable (.str threadId) who rec = true ↔ rec.HeldBy threadId who := by
  unfold releasable Lease.HeldBy
  rw [Bool.and_eq_true, hasParty_iff, Json.isStr_str, decide_eq_true_iff, eq_comm (a := threadId),
    eq_comm (a := who), eq_comm (a := who)]

/-- What `release_if_party_status` should do to a readable registry: its file, its flag, and when it
gives each of its four reasons. -/
structure StatusExact (threadId who : String) (writable : Bool) (entries : List Lease)
    (out : Status × File) : Prop where
  file : out.2 =
    some (if writable then entries.filter fun r => ¬ r.HeldBy threadId who else entries)
  flag : out.1.released = true ↔ out.1.reason = .released
  released : out.1.reason = .released ↔
    ∃ r ∈ entries, r.HeldBy threadId who ∧ r ∉ out.2.entries
  notAParty : out.1.reason = .notAParty ↔
    (∃ r ∈ entries, r.threadId = threadId) ∧ ∀ r ∈ entries, ¬ r.HeldBy threadId who
  noSuchLease : out.1.reason = .noSuchLease ↔ ∀ r ∈ entries, r.threadId ≠ threadId
  /-- The write was made, and failed. -/
  registryUnavailable : out.1.reason = .registryUnavailable ↔
    writable = false ∧ ∃ r ∈ entries, r.HeldBy threadId who

/-- `release_if_party_status` is exact, and `release_if_party` says and does the same. -/
structure PartyReleaseExact (explicitlyConfigured writable : Bool) (threadId who : String)
    (entries : List Lease) : Prop where
  status : StatusExact threadId who writable entries
    (releaseIfPartyStatus explicitlyConfigured { writable } (.str threadId) who (some entries))
  flags : (releaseIfParty { writable } threadId who (some entries)).1 =
    (releaseIfPartyStatus explicitlyConfigured { writable } (.str threadId) who
      (some entries)).1.released
  files : (releaseIfParty { writable } threadId who (some entries)).2 =
    (releaseIfPartyStatus explicitlyConfigured { writable } (.str threadId) who (some entries)).2

theorem any_releasable_iff :
    entries.any (releasable (.str threadId) who) = true ↔ ∃ r ∈ entries, r.HeldBy threadId who := by
  simp only [List.any_eq_true, releasable_iff]

theorem filter_releasable :
    (entries.filter fun r => !releasable (.str threadId) who r) =
      entries.filter fun r => ¬ r.HeldBy threadId who := by
  apply List.filter_congr
  intro r _
  rw [Bool.eq_iff_iff, Bool.not_eq_true', decide_eq_true_iff, ← releasable_iff,
    Bool.not_eq_true]

/-- The party releases where she holds a lease under the id, and the write decides. -/
theorem releaseIfPartyStatus_held (explicitlyConfigured writable : Bool)
    (h : ∃ r ∈ entries, r.HeldBy threadId who) :
    releaseIfPartyStatus explicitlyConfigured { writable } (.str threadId) who (some entries) =
      if writable then
        (⟨true, .released⟩, some (entries.filter fun r => ¬ r.HeldBy threadId who))
      else (⟨false, .registryUnavailable⟩, some entries) := by
  unfold releaseIfPartyStatus
  rw [← filter_releasable]
  simp only [any_releasable_iff.mpr h]
  cases writable <;> rfl

/-- Where she holds none, nothing is written. -/
theorem releaseIfPartyStatus_free (explicitlyConfigured writable : Bool)
    (h : ∀ r ∈ entries, ¬ r.HeldBy threadId who) :
    releaseIfPartyStatus explicitlyConfigured { writable } (.str threadId) who (some entries) =
      (⟨false, if ∃ r ∈ entries, r.threadId = threadId then .notAParty else .noSuchLease⟩,
        some entries) := by
  have hnone : entries.any (releasable (.str threadId) who) = false := by
    rw [← Bool.not_eq_true, any_releasable_iff]
    rintro ⟨r, hr, hheld⟩
    exact h r hr hheld
  have hid : (entries.any fun r => (Json.str threadId).isStr r.threadId) = true ↔
      ∃ r ∈ entries, r.threadId = threadId := by
    simp only [List.any_eq_true, Json.isStr_str, decide_eq_true_iff, eq_comm (a := threadId)]
  unfold releaseIfPartyStatus
  simp only [hnone]
  by_cases hany : ∃ r ∈ entries, r.threadId = threadId
  · rw [if_pos hany, hid.mpr hany]
    rfl
  · rw [if_neg hany, Bool.eq_false_iff.mpr fun hcon => hany (hid.mp hcon)]
    rfl

theorem releaseIfParty_held (writable : Bool) (h : ∃ r ∈ entries, r.HeldBy threadId who) :
    releaseIfParty { writable } threadId who (some entries) =
      (true, some (if writable then entries.filter fun r => ¬ r.HeldBy threadId who else entries)) := by
  have hread : read { writable } (some entries) = entries := rfl
  unfold releaseIfParty
  rw [← filter_releasable]
  simp only [hread, any_releasable_iff.mpr h]
  cases writable <;> rfl

theorem releaseIfParty_free (writable : Bool) (h : ∀ r ∈ entries, ¬ r.HeldBy threadId who) :
    releaseIfParty { writable } threadId who (some entries) = (false, some entries) := by
  have hnone : entries.any (releasable (.str threadId) who) = false := by
    rw [← Bool.not_eq_true, any_releasable_iff]
    rintro ⟨r, hr, hheld⟩
    exact h r hr hheld
  have hread : read { writable } (some entries) = entries := rfl
  unfold releaseIfParty
  simp only [hread, hnone]
  rfl

/-- The version that reports is exact for every content and both outcomes of its write. -/
theorem releaseIfPartyStatus_exact (explicitlyConfigured writable : Bool) (threadId who : String)
    (entries : List Lease) :
    StatusExact threadId who writable entries
      (releaseIfPartyStatus explicitlyConfigured { writable } (.str threadId) who
        (some entries)) := by
  by_cases h : ∃ r ∈ entries, r.HeldBy threadId who
  · have hnot : ¬ ∀ r ∈ entries, ¬ r.HeldBy threadId who := by
      intro hall
      obtain ⟨r, hr, hheld⟩ := h
      exact hall r hr hheld
    have hid : ¬ ∀ r ∈ entries, r.threadId ≠ threadId := by
      intro hall
      obtain ⟨r, hr, hheld⟩ := h
      exact hall r hr hheld.1
    rw [releaseIfPartyStatus_held _ _ h]
    cases writable with
    | true =>
      refine ⟨rfl, by simp, ?_, by simp [hnot], by simpa using hid, by simp⟩
      obtain ⟨r, hr, hheld⟩ := h
      exact iff_of_true rfl ⟨r, hr, hheld, by simp [hheld]⟩
    | false =>
      refine ⟨rfl, by simp, ?_, by simp [hnot], by simpa using hid, by simpa using h⟩
      refine iff_of_false (by simp) ?_
      rintro ⟨r, hr, -, hgone⟩
      exact hgone hr
  · have hfree : ∀ r ∈ entries, ¬ r.HeldBy threadId who := fun r hr hheld => h ⟨r, hr, hheld⟩
    have hsame : (entries.filter fun r => ¬ r.HeldBy threadId who) = entries := by
      simpa using hfree
    rw [releaseIfPartyStatus_free _ _ hfree]
    refine ⟨by rw [hsame, ite_self], ?_, ?_, ?_, ?_, ?_⟩
    · by_cases hid : ∃ r ∈ entries, r.threadId = threadId <;> simp [hid]
    · refine iff_of_false ?_ ?_
      · by_cases hid : ∃ r ∈ entries, r.threadId = threadId <;> simp [hid]
      · rintro ⟨r, hr, hheld, -⟩
        exact hfree r hr hheld
    · by_cases hid : ∃ r ∈ entries, r.threadId = threadId
      · rw [if_pos hid]
        exact iff_of_true rfl ⟨hid, hfree⟩
      · rw [if_neg hid]
        exact iff_of_false nofun fun hcon => hid hcon.1
    · by_cases hid : ∃ r ∈ entries, r.threadId = threadId
      · simp [hid]
      · rw [if_neg hid]
        exact iff_of_true rfl fun r hr heq => hid ⟨r, hr, heq⟩
    · refine iff_of_false ?_ fun hcon => h hcon.2
      by_cases hid : ∃ r ∈ entries, r.threadId = threadId <;> simp [hid]

/-- **The two versions of a party's release.** They agree exactly where the write goes through or there
is nothing to write: a failed write is a release for the one and an unavailable registry for the
other. -/
theorem partyRelease_exact_iff (explicitlyConfigured writable : Bool) (threadId who : String)
    (entries : List Lease) :
    PartyReleaseExact explicitlyConfigured writable threadId who entries ↔
      writable = true ∨ ∀ r ∈ entries, ¬ r.HeldBy threadId who := by
  have hstatus := releaseIfPartyStatus_exact explicitlyConfigured writable threadId who entries
  by_cases h : ∃ r ∈ entries, r.HeldBy threadId who
  · constructor
    · intro hexact
      have hflags := hexact.flags
      rw [releaseIfPartyStatus_held _ _ h, releaseIfParty_held _ h] at hflags
      cases writable with
      | true => exact .inl rfl
      | false => cases hflags
    · rintro (rfl | hfree)
      · refine ⟨hstatus, ?_, ?_⟩ <;> rw [releaseIfPartyStatus_held _ _ h, releaseIfParty_held _ h] <;>
          rfl
      · obtain ⟨r, hr, hheld⟩ := h
        exact absurd hheld (hfree r hr)
  · have hfree : ∀ r ∈ entries, ¬ r.HeldBy threadId who := fun r hr hheld => h ⟨r, hr, hheld⟩
    refine iff_of_true ⟨hstatus, ?_, ?_⟩ (.inr hfree) <;>
      rw [releaseIfPartyStatus_free _ _ hfree, releaseIfParty_free _ hfree]

theorem partyRelease_pretended :
    ¬ PartyReleaseExact false false "t" "zero" [newLease 0 "t" "zero" "vera" 30] := by
  intro h
  have hpretended : (releaseIfParty { writable := false } "t" "zero"
      (some [newLease 0 "t" "zero" "vera" 30])).1 = true := by decide +kernel
  have hhonest : (releaseIfPartyStatus false { writable := false } (.str "t") "zero"
      (some [newLease 0 "t" "zero" "vera" 30])).1.released = false := by decide +kernel
  have hflags := h.flags
  rw [hpretended, hhonest] at hflags
  cases hflags

/-! ## A follow-up -/

/-- The lease as a follow-up should leave it. -/
def Lease.renewed (rec : Lease) (now : Time) (minutes : ℤ) : Lease :=
  { rec with leaseUntil := max rec.leaseUntil (now + clampMinutes minutes * 60) }

/-- A claim of the pair's opener on its peer returns the lease and runs it on, and every other live
lease stays what and where it was. -/
structure Renews (valid : TokenRule) (io : Io) (now : Time) (threadId : String) (minutes : ℤ)
    (rec : Lease) (file : File) : Prop where
  returns : ∃ claimed,
    (claim valid io now threadId rec.openedBy rec.peer minutes file).1 = .ok claimed ∧
      claimed.ok = true ∧ claimed.lease = some (rec.renewed now minutes)
  stores : ∃ front back, file.liveAt now = front ++ rec :: back ∧
    (claim valid io now threadId rec.openedBy rec.peer minutes file).2.liveAt now =
      front ++ rec.renewed now minutes :: back

/-- What already runs as long as the follow-up asks is not changed by it. -/
theorem renewed_eq_iff :
    rec.renewed now minutes = rec ↔ now + clampMinutes minutes * 60 ≤ rec.leaseUntil := by
  unfold Lease.renewed
  rw [← max_eq_left_iff]
  constructor
  · exact fun h => congrArg Lease.leaseUntil h
  · intro h
    rw [h]

/-- Whatever live lease joins the pair first is the answer, and the file stays as it is. -/
theorem claim_traffic (minutes : ℤ) (hio : io.healthy = true) {openedBy peer : String}
    (hvalid : valid threadId = true ∧ valid openedBy = true ∧ valid peer = true)
    (hfind : (file.liveAt now).find? (·.joins openedBy peer) = some rec) :
    claim valid io now threadId openedBy peer minutes file = (.ok (.traffic rec), file) := by
  unfold Io.healthy at hio
  rw [Bool.and_eq_true, Bool.and_eq_true] at hio
  obtain ⟨⟨hlock, hread⟩, -⟩ := hio
  have hentries : (read io file).filter (live now) = file.liveAt now := by
    unfold read File.liveAt
    rw [if_pos hread]
  rcases claim_cases valid io now threadId openedBy peer minutes file with
    ⟨hbad, -⟩ | ⟨-, ⟨hfree, -⟩ | ⟨-, heq⟩⟩
  · exact absurd hvalid hbad
  · rw [hlock] at hfree
    cases hfree
  · rw [heq]
    unfold claimLocked
    simp only [hentries, hfind]

/-- **A follow-up renews the thread** exactly where there is nothing to renew: its lease is the first
live one that joins the two, and runs as long as the follow-up asks for already. -/
theorem renews_iff (valid : TokenRule) {io : Io} {now : Time} (threadId : String) (minutes : ℤ)
    {rec : Lease} {file : File} (hio : io.healthy = true) (hrec : rec ∈ file.entries)
    (hlive : live now rec = true) :
    Renews valid io now threadId minutes rec file ↔
      (valid threadId = true ∧ valid rec.openedBy = true ∧ valid rec.peer = true) ∧
        (file.liveAt now).find? (·.joins rec.openedBy rec.peer) = some rec ∧
        now + clampMinutes minutes * 60 ≤ rec.leaseUntil := by
  have hmem : rec ∈ file.liveAt now := mem_liveAt.mpr ⟨hrec, hlive⟩
  have hjoins : rec.joins rec.openedBy rec.peer = true := joins_iff.mpr (.inl ⟨rfl, rfl⟩)
  obtain ⟨found, hfound⟩ : ∃ found,
      (file.liveAt now).find? (·.joins rec.openedBy rec.peer) = some found :=
    Option.isSome_iff_exists.mp (List.find?_isSome.mpr ⟨rec, hmem, hjoins⟩)
  by_cases hvalid : valid threadId = true ∧ valid rec.openedBy = true ∧ valid rec.peer = true
  · have hclaim := claim_traffic minutes hio hvalid hfound
    constructor
    · rintro ⟨⟨claimed, hok, -, hlease⟩, front, back, hbefore, hafter⟩
      rw [hclaim] at hok hafter
      obtain rfl := Except.ok.inj hok
      obtain rfl : found = rec.renewed now minutes := Option.some.inj hlease
      have hstays : rec.renewed now minutes = rec :=
        (List.cons.inj (List.append_cancel_left (hafter.symm.trans hbefore))).1
      rw [hstays] at hfound
      exact ⟨hvalid, hfound, renewed_eq_iff.mp hstays⟩
    · rintro ⟨-, hfirst, hlong⟩
      obtain rfl : found = rec := Option.some.inj (hfound.symm.trans hfirst)
      obtain ⟨front, back, hsplit⟩ := List.append_of_mem hmem
      have hstays := renewed_eq_iff.mpr hlong
      refine ⟨⟨_, congrArg Prod.fst hclaim, rfl, ?_⟩, front, back, hsplit, ?_⟩
      · rw [hstays]
        rfl
      · rw [hclaim, hstays]
        exact hsplit
  · refine iff_of_false ?_ fun h => hvalid h.1
    rintro ⟨⟨claimed, hok, -⟩, -⟩
    rcases claim_cases valid io now threadId rec.openedBy rec.peer minutes file with
      ⟨-, e, heq⟩ | ⟨hgood, -⟩
    · rw [heq] at hok
      cases hok
    · exact hvalid hgood

theorem renews_iff_settled :
    Renews (.of fun _ => true) {} 600 "u" 20 (newLease 0 "t" "zero" "vera" 30)
        (some [newLease 0 "t" "zero" "vera" 30]) := by
  apply (renews_iff (.of fun _ => true) "u" 20 (by decide) (by decide +kernel) (by decide +kernel)).mpr
  exact ⟨⟨rfl, rfl, rfl⟩, by decide +kernel, by decide +kernel⟩

theorem renews_forgotten :
    ¬ Renews (.of fun _ => true) {} 600 "u" 30 (newLease 0 "t" "zero" "vera" 30)
        (some [newLease 0 "t" "zero" "vera" 30]) := by
  rintro ⟨⟨claimed, hok, -, hlease⟩, -⟩
  have hclaim : claim (.of fun _ => true) {} 600 "u" "zero" "vera" 30
      (some [newLease 0 "t" "zero" "vera" 30]) =
        (.ok (.traffic (newLease 0 "t" "zero" "vera" 30)),
          some [newLease 0 "t" "zero" "vera" 30]) :=
    claim_traffic 30 rfl ⟨rfl, rfl, rfl⟩ (by decide +kernel)
  obtain rfl := Except.ok.inj ((congrArg Prod.fst hclaim).symm.trans hok)
  have hsame : newLease 0 "t" "zero" "vera" 30 =
      (newLease 0 "t" "zero" "vera" 30).renewed 600 30 := Option.some.inj hlease
  revert hsame
  decide +kernel

end HermesMesh.OpenThreads
