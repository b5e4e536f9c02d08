import HermesMesh.LeaseCalls
import HermesMesh.PendingCloses
import HermesMesh.ThreadAddress

/-!
# What the sends of a fleet leave behind

Any sends by any agents, delivered or failed, whatever their disks do. Of the lease registry they keep
the limits of the gate, and that every lease is filed under a token that the validator took; of the
closed-thread log they keep that it is a list of dicts, which is what its loops can read
(`run_orderly`).
-/

namespace HermesMesh

open Lib OpenThreads Threads

/-! ## The log stays a list of dicts -/

namespace Threads

variable {valid : TokenRule} {v : View}

theorem Dicts.read (io : Io) (h : Dicts v.file.entries) : Dicts (readEntriesStrict io v.file).1 := by
  obtain hread | hread := readEntriesStrict_or io v.file
  · rwa [hread]
  · rw [hread]
    nofun

end Threads

variable {env : Env} {mail : Mail} {args kwargs : List (String × Json)} {w w' : World} {held : Bool}
  {padded url : String} {valid : TokenRule}

/-- The log is a list of dicts. -/
def World.Readable (w : World) : Prop := Dicts w.closed.file.entries

/-- Every lease is filed under a valid token. -/
def Filed (valid : TokenRule) (file : OpenThreads.File) : Prop :=
  ∀ rec ∈ file.entries, valid rec.threadId = true

variable {file file' : OpenThreads.File} {io : Io} {now : Time}

theorem Filed.write (h : Filed valid file) {l : List Lease} (hl : ∀ rec ∈ l, valid rec.threadId = true) :
    Filed valid (write io l file).2 := by
  rw [write_snd]
  split_ifs
  · exact hl
  · exact h

theorem Filed.of_sublist (h : Filed valid file) {l : List Lease} (hl : l.Sublist file.entries) :
    ∀ rec ∈ l, valid rec.threadId = true :=
  fun rec hrec => h rec (hl.subset hrec)

theorem bump_threadId (now : Time) (resizeTo : Option ℤ) (rec : Lease) :
    (bump now resizeTo rec).threadId = rec.threadId := by
  unfold bump
  cases resizeTo with
  | none => rfl
  | some minutes => dsimp only; split_ifs <;> rfl

/-- A new lease is filed under the token that was asked for. -/
theorem Filed.claim (h : Filed valid file) (threadId openedBy peer : String) (minutes : ℤ) :
    Filed valid (OpenThreads.claim valid io now threadId openedBy peer minutes file).2 := by
  rcases claim_cases valid io now threadId openedBy peer minutes file with
    ⟨-, e, heq⟩ | ⟨htokens, ⟨-, heq⟩ | ⟨-, heq⟩⟩ <;> rw [heq]
  · exact h
  · exact h
  · rcases claimLocked_cases io now threadId openedBy peer (clampMinutes minutes) file with
      ⟨_, -, -, heq⟩ | ⟨-, ⟨_, -, -, heq⟩ | ⟨-, ⟨_, _, -, heq⟩ | ⟨-, ⟨-, heq⟩ | ⟨-, heq⟩⟩⟩⟩
    all_goals rw [heq]
    · exact h
    · exact h
    · exact h
    · intro rec hrec
      obtain hold | hnew := List.mem_append.mp hrec
      · exact h rec (liveEntries_sublist.subset hold)
      · obtain rfl := List.mem_singleton.mp hnew
        exact htokens.1
    · exact h

theorem Filed.touch (h : Filed valid file) (threadId : String) (resizeTo : Option ℤ) :
    Filed valid (OpenThreads.touch io now threadId resizeTo file).2 := by
  rcases touch_cases io now threadId resizeTo file with heq | ⟨_, -, -, -, heq⟩ <;> rw [heq]
  · exact h
  · intro rec hrec
    have hid : rec.threadId ∈ (updateFirst (anchored threadId now) (bump now resizeTo)
        (read io file)).map (·.threadId) := List.mem_map_of_mem hrec
    rw [map_updateFirst (bump_threadId now resizeTo)] at hid
    obtain ⟨rec', hrec', hsame⟩ := List.mem_map.mp hid
    rw [← hsame]
    exact h rec' ((read_sublist io file).subset hrec')

theorem Filed.commit (h : Filed valid file) (call : Call) :
    Filed valid (call.commit valid io now file) := by
  cases call with
  | claim threadId openedBy peer minutes => exact h.claim threadId openedBy peer minutes
  | touch threadId resizeTo => exact h.touch threadId resizeTo
  | release threadId =>
    show Filed valid (release io threadId file).2
    unfold release
    dsimp only
    split_ifs
    · exact h.write (h.of_sublist (List.filter_sublist.trans (read_sublist io file)))
    · exact h
    · exact h
  | releaseIfParty threadId who =>
    show Filed valid (releaseIfParty io threadId who file).2
    rw [releaseIfParty_snd]
    split_ifs
    · exact h.of_sublist List.filter_sublist
    · exact h
  | releaseIfPartyStatus explicitlyConfigured threadId who =>
    show Filed valid (releaseIfPartyStatus explicitlyConfigured io threadId who file).2
    rcases releaseIfPartyStatus_cases explicitlyConfigured io threadId who file with
      ⟨-, -, heq⟩ | ⟨-, _, -, heq⟩ <;> rw [heq]
    · exact h.of_sublist List.filter_sublist
    · exact h
  | leaseFor threadId => exact h
  | expire =>
    show Filed valid (expireLocked io now file).2
    unfold expireLocked
    dsimp only
    split_ifs
    · exact h.write (h.of_sublist (List.filter_sublist.trans (read_sublist io file)))
    · exact h

theorem OpenThreads.Commits.filed (h : Commits valid file file') (hfiled : Filed valid file) :
    Filed valid file' := by
  induction h with
  | refl => exact hfiled
  | cons call io now _ ih => exact ih (hfiled.commit call)

/-! ## Whole runs -/

/-- What the sends of a fleet keep. -/
structure Fleet.Orderly (valid : TokenRule) (s : Fleet) : Prop where
  limits : Limits maxOutboundThreads (links s.world.leases)
  filed : Filed valid s.world.leases
  readable : s.world.Readable

/-- No lease, and no closed thread. -/
structure Fleet.Unused (s : Fleet) : Prop where
  leases : s.world.leases.entries = []
  log : s.world.closed.file.entries = []

theorem Fleet.Unused.orderly {s : Fleet} (h : s.Unused) : s.Orderly valid where
  limits := by
    unfold links
    rw [h.leases]
    exact .nil
  filed := by
    unfold Filed
    rw [h.leases]
    nofun
  readable := by
    unfold World.Readable
    rw [h.log]
    nofun

end HermesMesh
