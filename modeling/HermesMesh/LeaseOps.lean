import HermesMesh.OpenThreads

/-!
# What one locked section does to the registry

One lemma for each operation says everything it can do: what it returns and the file it leaves
(`claimLocked_cases`, `claim_cases`, `touch_cases`). Seen through its links the registry is a table
guarded by the gate's limits: every section drops links, or drops some and adds a checked one
(`Admits`), whatever its clock reading and whatever the disk does.
-/

namespace HermesMesh.OpenThreads

open Lib

variable {valid : TokenRule} {io : Io} {now : Time} {threadId openedBy peer who : String}
  {minutes : ℤ} {file : File}

/-- The links of a registry file. -/
def links (file : File) : List (String × String) := file.entries.map Lease.link

/-- The records a section with this clock reading sees as live. -/
def liveEntries (io : Io) (now : Time) (file : File) : List Lease :=
  (read io file).filter (live now)

/-- The leases of the file that are live at an instant. -/
def File.liveAt (now : Time) (file : File) : List Lease := file.entries.filter (live now)

theorem liveEntries_sublist : (liveEntries io now file).Sublist file.entries :=
  List.filter_sublist.trans (read_sublist io file)

theorem mem_liveAt {rec : Lease} :
    rec ∈ file.liveAt now ↔ rec ∈ file.entries ∧ live now rec = true := List.mem_filter

@[simp] theorem newLease_link :
    (newLease now threadId openedBy peer minutes).link = (openedBy, peer) := rfl

/-- The lease a claim opens is live at its own clock reading. -/
theorem newLease_live (h : 1 ≤ minutes) :
    live now (newLease now threadId openedBy peer minutes) = true := by
  have hm : (0 : ℚ) < (minutes : ℚ) := by exact_mod_cast h
  rw [live_iff]
  show now < now + minutes * 60
  linarith

@[simp] theorem bump_link (resizeTo : Option ℤ) (rec : Lease) :
    (bump now resizeTo rec).link = rec.link := by
  unfold bump
  cases resizeTo with
  | none => rfl
  | some m => dsimp only; split_ifs <;> rfl

theorem bump_replies (resizeTo : Option ℤ) (rec : Lease) :
    (bump now resizeTo rec).replies = rec.replies + 1 := by
  unfold bump
  cases resizeTo with
  | none => rfl
  | some m => dsimp only; split_ifs <;> rfl

/-- A counted record is never the record it was. -/
theorem bump_ne (resizeTo : Option ℤ) (rec : Lease) : bump now resizeTo rec ≠ rec := by
  intro h
  have hcount : (bump now resizeTo rec).replies = rec.replies + 1 := bump_replies resizeTo rec
  rw [h] at hcount
  omega

/-! ## The cases of each operation -/

/-- What the locked section of `claim` can do. The merge branch is never reached: whatever it looks
for has already been found as thread traffic. -/
theorem claimLocked_cases (io : Io) (now : Time) (threadId openedBy peer : String) (minutes : ℤ)
    (file : File) :
    (∃ rec ∈ liveEntries io now file, rec.joins openedBy peer = true ∧
      claimLocked io now threadId openedBy peer minutes file = (.traffic rec, file)) ∨
    (∀ rec ∈ liveEntries io now file, rec.joins openedBy peer = false) ∧
      ((∃ rec ∈ liveEntries io now file, blocks openedBy peer rec = true ∧
          claimLocked io now threadId openedBy peer minutes file = (.busy rec, file)) ∨
        (∀ rec ∈ liveEntries io now file, blocks openedBy peer rec = false) ∧
          ((∃ threads peers,
              maxOutboundThreads ≤
                ((liveEntries io now file).filter (·.openedBy = openedBy)).length ∧
              claimLocked io now threadId openedBy peer minutes file =
                (.cap maxOutboundThreads threads peers, file)) ∨
            ((liveEntries io now file).filter (·.openedBy = openedBy)).length <
                maxOutboundThreads ∧
              (io.writable = true ∧
                  claimLocked io now threadId openedBy peer minutes file =
                    (.opened (newLease now threadId openedBy peer minutes),
                      some (liveEntries io now file ++
                        [newLease now threadId openedBy peer minutes])) ∨
                io.writable = false ∧
                  claimLocked io now threadId openedBy peer minutes file = (.degraded, file)))) := by
  have hentries : (read io file).filter (live now) = liveEntries io now file := rfl
  unfold claimLocked
  simp only [hentries]
  cases hpair : (liveEntries io now file).find? (·.joins openedBy peer) with
  | some rec =>
    exact .inl ⟨rec, List.mem_of_find?_eq_some hpair, by simpa using List.find?_some hpair, rfl⟩
  | none =>
    have hnone : ∀ rec ∈ liveEntries io now file, rec.joins openedBy peer = false := by
      simpa using hpair
    refine .inr ⟨hnone, ?_⟩
    cases hbusy : (liveEntries io now file).find? (blocks openedBy peer) with
    | some rec => exact .inl ⟨rec, List.mem_of_find?_eq_some hbusy, List.find?_some hbusy, rfl⟩
    | none =>
      refine .inr ⟨by simpa using hbusy, ?_⟩
      have hsame : (liveEntries io now file).find?
          (fun r => decide (r.openedBy = openedBy ∧ r.peer = peer)) = none := by
        rw [List.find?_eq_none]
        intro rec hrec hmatch
        have hj := hnone rec hrec
        rw [joins_iff.mpr (.inl (by simpa using hmatch))] at hj
        cases hj
      simp only [hsame]
      by_cases hcap : maxOutboundThreads ≤
          ((liveEntries io now file).filter (·.openedBy = openedBy)).length
      · exact .inl ⟨_, _, hcap, if_pos hcap⟩
      · refine .inr ⟨by omega, ?_⟩
        rw [if_neg hcap]
        cases hw : io.writable with
        | true => exact .inl ⟨rfl, by simp [write, hw]⟩
        | false => exact .inr ⟨rfl, by simp [write, hw]⟩

/-- What `claim` can do: raise on a malformed token, degrade without the lock, or run its locked
section on the tokens it was given. -/
theorem claim_cases (valid : TokenRule) (io : Io) (now : Time) (threadId openedBy peer : String)
    (minutes : ℤ) (file : File) :
    (¬ (valid threadId = true ∧ valid openedBy = true ∧ valid peer = true) ∧
      ∃ e, claim valid io now threadId openedBy peer minutes file = (.error e, file)) ∨
    (valid threadId = true ∧ valid openedBy = true ∧ valid peer = true) ∧
      (io.lockable = false ∧
          claim valid io now threadId openedBy peer minutes file = (.ok .degraded, file) ∨
        io.lockable = true ∧
          claim valid io now threadId openedBy peer minutes file =
            (.ok (claimLocked io now threadId openedBy peer (clampMinutes minutes) file).1,
              (claimLocked io now threadId openedBy peer (clampMinutes minutes) file).2)) := by
  unfold claim
  simp only [validateEnvelopeToken_eq]
  by_cases h1 : valid threadId = true
  · by_cases h2 : valid openedBy = true
    · by_cases h3 : valid peer = true
      · refine .inr ⟨⟨h1, h2, h3⟩, ?_⟩
        simp only [h1, h2, h3, if_true]
        cases hl : io.lockable with
        | false => exact .inl ⟨rfl, rfl⟩
        | true => exact .inr ⟨rfl, rfl⟩
      · exact .inl ⟨fun h => h3 h.2.2, _, by simp only [h1, h2, h3, if_true]; rfl⟩
    · exact .inl ⟨fun h => h2 h.2.1, _, by simp only [h1, h2, if_true]; rfl⟩
  · exact .inl ⟨fun h => h1 h.1, _, by simp only [h1]; rfl⟩

/-- What `touch` can do: nothing, or rewrite the first live record under the id. -/
theorem touch_cases (io : Io) (now : Time) (threadId : String) (resizeTo : Option ℤ)
    (file : File) :
    (touch io now threadId resizeTo file).2 = file ∨
    ∃ rec, (read io file).find? (anchored threadId now) = some rec ∧ io.lockable = true ∧
      io.writable = true ∧
      (touch io now threadId resizeTo file).2 =
        some (updateFirst (anchored threadId now) (bump now resizeTo) (read io file)) := by
  unfold touch
  cases hl : io.lockable with
  | false => exact .inl rfl
  | true =>
    cases hf : (read io file).find? (anchored threadId now) with
    | none => exact .inl (by simp [hf])
    | some rec =>
      simp only [hf, if_true, write_snd]
      cases hw : io.writable with
      | false => exact .inl rfl
      | true => exact .inr ⟨rec, rfl, trivial, rfl, rfl⟩

theorem touch_snd (io : Io) (now : Time) (threadId : String) (resizeTo : Option ℤ) (file : File) :
    (touch io now threadId resizeTo file).2 =
      if io.healthy && (file.entries.find? (anchored threadId now)).isSome then
        some (updateFirst (anchored threadId now) (bump now resizeTo) file.entries)
      else file := by
  unfold touch Io.healthy OpenThreads.read write
  cases io.lockable <;> cases io.readable <;> cases io.writable <;>
    cases hf : file.entries.find? (anchored threadId now) <;> simp [hf]

/-- `release_if_party` removes, where the disk lets it, exactly what `who` may release. -/
theorem releaseIfParty_snd (io : Io) (threadId who : String) (file : File) :
    (releaseIfParty io threadId who file).2 =
      if io.healthy && file.entries.any (releasable (.str threadId) who) then
        some (file.entries.filter fun r => !releasable (.str threadId) who r)
      else file := by
  unfold releaseIfParty Io.healthy read write
  cases io.lockable <;> cases io.readable <;> cases io.writable <;>
    by_cases ha : file.entries.any (releasable (.str threadId) who) = true <;>
    simp [ha]

/-- What `release_if_party_status` can do: take out what `who` may release, or leave the registry and
say why. -/
theorem releaseIfPartyStatus_cases (explicitlyConfigured : Bool) (io : Io) (tid : Json)
    (who : String) (file : File) :
    (io.statOk = true ∧ io.healthy = true ∧
        releaseIfPartyStatus explicitlyConfigured io tid who file =
          (⟨true, .released⟩, some (file.entries.filter fun r => !releasable tid who r))) ∨
      ((io.statOk = true → io.healthy = true → ∀ r ∈ file.entries, releasable tid who r = false) ∧
        ∃ reason, reason ≠ .released ∧
          releaseIfPartyStatus explicitlyConfigured io tid who file = (⟨false, reason⟩, file)) := by
  unfold releaseIfPartyStatus Io.healthy write
  cases io.statOk with
  | false => exact .inr ⟨nofun, .registryUnavailable, nofun, rfl⟩
  | true =>
    cases file with
    | none =>
      cases explicitlyConfigured with
      | true => exact .inr ⟨nofun, .registryUnavailable, nofun, rfl⟩
      | false => exact .inr ⟨nofun, .noSuchLease, nofun, rfl⟩
    | some entries =>
      cases io.lockable with
      | false => exact .inr ⟨nofun, .registryUnavailable, nofun, rfl⟩
      | true =>
        cases io.readable with
        | false => exact .inr ⟨nofun, .registryUnavailable, nofun, rfl⟩
        | true =>
          by_cases hany : entries.any (releasable tid who) = true
          · simp only [hany]
            cases io.writable with
            | false => exact .inr ⟨nofun, .registryUnavailable, nofun, rfl⟩
            | true => exact .inl ⟨trivial, rfl, rfl⟩
          · refine .inr ⟨fun _ _ r hr => ?_, ?_⟩
            · by_contra hrel
              exact hany (List.any_eq_true.mpr ⟨r, hr, by simpa using hrel⟩)
            · simp only [hany]
              by_cases hid : entries.any (fun r => tid.isStr r.threadId) = true
              · exact ⟨.notAParty, nofun, by simp [hid]⟩
              · exact ⟨.noSuchLease, nofun, by simp [hid]⟩

/-! ## Every operation keeps within the limits -/

theorem admits_write {l : List Lease} (h : l.Sublist file.entries) :
    Admits maxOutboundThreads (links file) (links (write io l file).2) := by
  rw [write_snd]
  split_ifs
  · exact .drop (h.map _)
  · exact .refl

/-- A claim adds a link only after the three checks, and only next to the leases it saw. -/
theorem claimLocked_admits :
    Admits maxOutboundThreads (links file)
      (links (claimLocked io now threadId openedBy peer minutes file).2) := by
  rcases claimLocked_cases io now threadId openedBy peer minutes file with
    ⟨_, -, -, heq⟩ | ⟨hpair, ⟨_, -, -, heq⟩ | ⟨hdoor, ⟨_, _, -, heq⟩ |
      ⟨hcap, ⟨-, heq⟩ | ⟨-, heq⟩⟩⟩⟩
  any_goals rw [heq]; exact .refl
  rw [heq]
  show Admits _ _ (List.map _ (liveEntries io now file ++ [_]))
  rw [List.map_append, List.map_singleton, newLease_link]
  refine .add (liveEntries_sublist.map _) ⟨?_, ?_, ?_⟩
  · intro x hx hsame
    obtain ⟨rec, hrec, rfl⟩ := List.mem_map.mp hx
    have hj := hpair rec hrec
    rw [joins_iff_samePair.mpr hsame] at hj
    cases hj
  · rintro x hx ⟨hto, hne, hstranger, -⟩
    obtain ⟨rec, hrec, rfl⟩ := List.mem_map.mp hx
    have hto : rec.peer = peer := hto
    have hb : blocks openedBy peer rec = true :=
      decide_eq_true ⟨hto, hne, fun he => hstranger (he.trans hto.symm)⟩
    rw [hdoor rec hrec] at hb
    cases hb
  · rw [List.countP_map]
    calc _ = (liveEntries io now file).countP (fun r => decide (r.openedBy = openedBy)) := rfl
      _ = ((liveEntries io now file).filter (·.openedBy = openedBy)).length :=
        List.countP_eq_length_filter
      _ < maxOutboundThreads := hcap

theorem claim_admits :
    Admits maxOutboundThreads (links file)
      (links (claim valid io now threadId openedBy peer minutes file).2) := by
  rcases claim_cases valid io now threadId openedBy peer minutes file with
    ⟨-, e, heq⟩ | ⟨-, ⟨-, heq⟩ | ⟨-, heq⟩⟩ <;> rw [heq]
  · exact .refl
  · exact .refl
  · exact claimLocked_admits

theorem touch_admits (resizeTo : Option ℤ) :
    Admits maxOutboundThreads (links file) (links (touch io now threadId resizeTo file).2) := by
  rcases touch_cases io now threadId resizeTo file with heq | ⟨_, -, -, -, heq⟩ <;> rw [heq]
  · exact .refl
  · refine .drop ?_
    show (List.map _ (updateFirst _ _ _)).Sublist _
    rw [map_updateFirst (bump_link resizeTo)]
    exact (read_sublist io file).map _

theorem release_admits :
    Admits maxOutboundThreads (links file) (links (release io threadId file).2) := by
  unfold release
  dsimp only
  split_ifs
  · exact admits_write (List.filter_sublist.trans (read_sublist io file))
  · exact .refl
  · exact .refl

theorem releaseIfParty_admits :
    Admits maxOutboundThreads (links file) (links (releaseIfParty io threadId who file).2) := by
  rw [releaseIfParty_snd]
  split_ifs
  · exact .drop (List.filter_sublist.map _)
  · exact .refl

theorem releaseIfPartyStatus_admits (explicitlyConfigured : Bool) (tid : Json) :
    Admits maxOutboundThreads (links file)
      (links (releaseIfPartyStatus explicitlyConfigured io tid who file).2) := by
  rcases releaseIfPartyStatus_cases explicitlyConfigured io tid who file with
    ⟨-, -, heq⟩ | ⟨-, _, -, heq⟩ <;> rw [heq]
  · exact .drop (List.filter_sublist.map _)
  · exact .refl

theorem expireLocked_admits :
    Admits maxOutboundThreads (links file) (links (expireLocked io now file).2) := by
  unfold expireLocked
  dsimp only
  split_ifs
  · exact admits_write (List.filter_sublist.trans (read_sublist io file))
  · exact .refl

end HermesMesh.OpenThreads
