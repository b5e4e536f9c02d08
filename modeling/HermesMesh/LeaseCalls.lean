import HermesMesh.DeliveryCalls
import HermesMesh.LeaseRuns
import HermesMesh.SendLeases

/-!
# The registry calls of a send

Whatever a send does to the lease registry it does by calls (`Commits`): the claim of the gate, and
after the delivery the releases of a terminator, the `touch` of an answer or the rollback. So what
every call keeps, a send keeps. A call takes a live lease out in a few cases only (`Call.takes`);
otherwise the pair that the lease joined is still joined (`commit_keeps`).
-/

namespace HermesMesh

namespace OpenThreads

open Lib

variable {valid : TokenRule} {io : Io} {now : Time} {call : Call} {file file' file'' : File} {rec : Lease}
  {a b : String}

/-- The call takes this lease out, although it has not lapsed: a release that names it, or a section
that takes the registry for empty and writes it. -/
def Call.takes (io : Io) (rec : Lease) : Call → Bool
  | .claim _ openedBy peer _ =>
    io.lockable && !io.readable && io.writable && !rec.joins openedBy peer
  | .expire => io.lockable && !io.readable && io.writable
  | .release threadId => io.healthy && decide (rec.threadId = threadId)
  | .releaseIfParty threadId who => io.healthy && releasable (.str threadId) who rec
  | .releaseIfPartyStatus _ threadId who =>
    io.statOk && io.healthy && releasable threadId who rec
  | .touch .. | .leaseFor _ => false

theorem mem_read (hreadable : io.readable = true) : rec ∈ read io file ↔ rec ∈ file.entries := by
  unfold read
  rw [if_pos hreadable]

theorem read_unreadable (hreadable : io.readable = false) : read io file = [] := by
  unfold read
  rw [hreadable]
  rfl

theorem mem_liveEntries (hreadable : io.readable = true) (hmem : rec ∈ file.entries)
    (hlive : live now rec = true) : rec ∈ liveEntries io now file :=
  List.mem_filter.mpr ⟨(mem_read hreadable).mpr hmem, hlive⟩

/-- Two links between one pair of agents. -/
theorem joins_of_link {rec' : Lease} (hlink : rec'.link = rec.link) (hjoins : rec.joins a b = true) :
    rec'.joins a b = true := by
  rw [joins_iff_samePair] at *
  rwa [hlink]

theorem newLease_joins {threadId openedBy peer : String} {minutes : ℤ}
    (hpair : rec.joins openedBy peer = true) (hjoins : rec.joins a b = true) :
    (newLease now threadId openedBy peer minutes).joins a b = true := by
  rw [joins_iff] at *
  show openedBy = a ∧ peer = b ∨ openedBy = b ∧ peer = a
  obtain ⟨rfl, rfl⟩ | ⟨rfl, rfl⟩ := hpair <;> obtain ⟨rfl, rfl⟩ | ⟨rfl, rfl⟩ := hjoins <;> simp

/-! ## What a call keeps -/

theorem claim_keeps {threadId openedBy peer : String} {minutes : ℤ} (hmem : rec ∈ file.entries)
    (hlive : live now rec = true) (hjoins : rec.joins a b = true)
    (htakes : (Call.claim threadId openedBy peer minutes).takes io rec = false) :
    ∃ rec' ∈ (claim valid io now threadId openedBy peer minutes file).2.entries,
      rec'.joins a b = true := by
  rcases claim_cases valid io now threadId openedBy peer minutes file with
    ⟨-, e, heq⟩ | ⟨-, ⟨-, heq⟩ | ⟨hlock, heq⟩⟩ <;> rw [heq]
  · exact ⟨rec, hmem, hjoins⟩
  · exact ⟨rec, hmem, hjoins⟩
  · rcases claimLocked_cases io now threadId openedBy peer (clampMinutes minutes) file with
      ⟨_, -, -, heq⟩ | ⟨-, ⟨_, -, -, heq⟩ | ⟨-, ⟨_, _, -, heq⟩ | ⟨-, ⟨hwritable, heq⟩ | ⟨-, heq⟩⟩⟩⟩
    all_goals rw [heq]
    · exact ⟨rec, hmem, hjoins⟩
    · exact ⟨rec, hmem, hjoins⟩
    · exact ⟨rec, hmem, hjoins⟩
    · -- the claim has written: the lease it read is still there, or it opens one for the same pair
      rw [File.entries_some]
      cases hreadable : io.readable with
      | true =>
        exact ⟨rec, List.mem_append_left _ (mem_liveEntries hreadable hmem hlive), hjoins⟩
      | false =>
        have hpair : rec.joins openedBy peer = true := by
          simpa [Call.takes, hlock, hreadable, hwritable] using htakes
        exact ⟨_, List.mem_append_right _ (List.mem_singleton_self _), newLease_joins hpair hjoins⟩
    · exact ⟨rec, hmem, hjoins⟩

theorem touch_keeps {threadId : String} {resizeTo : Option ℤ} (hmem : rec ∈ file.entries)
    (hjoins : rec.joins a b = true) :
    ∃ rec' ∈ (touch io now threadId resizeTo file).2.entries, rec'.joins a b = true := by
  rcases touch_cases io now threadId resizeTo file with heq | ⟨found, hfound, -, -, heq⟩ <;> rw [heq]
  · exact ⟨rec, hmem, hjoins⟩
  · have hreadable : io.readable = true := by
      by_contra hno
      rw [read_unreadable (Bool.not_eq_true _ ▸ hno)] at hfound
      cases hfound
    have hlink : rec.link ∈
        (updateFirst (anchored threadId now) (bump now resizeTo) (read io file)).map Lease.link := by
      rw [map_updateFirst (bump_link resizeTo)]
      exact List.mem_map_of_mem ((mem_read hreadable).mpr hmem)
    obtain ⟨rec', hrec', hsame⟩ := List.mem_map.mp hlink
    exact ⟨rec', hrec', joins_of_link hsame hjoins⟩

theorem release_keeps {threadId : String} (hmem : rec ∈ file.entries)
    (htakes : (Call.release threadId).takes io rec = false) :
    rec ∈ (release io threadId file).2.entries := by
  unfold release
  dsimp only
  split_ifs with hlock hkept
  · rw [write_snd]
    split_ifs with hwritable
    · cases hreadable : io.readable with
      | true =>
        have hid : rec.threadId ≠ threadId := by
          simpa [Call.takes, Io.healthy, hlock, hreadable, hwritable] using htakes
        exact List.mem_filter.mpr ⟨(mem_read hreadable).mpr hmem, decide_eq_true hid⟩
      | false =>
        rw [read_unreadable hreadable] at hkept
        exact absurd rfl hkept
    · exact hmem
  · exact hmem
  · exact hmem

theorem releaseIfParty_keeps {threadId who : String} (hmem : rec ∈ file.entries)
    (htakes : (Call.releaseIfParty threadId who).takes io rec = false) :
    rec ∈ (releaseIfParty io threadId who file).2.entries := by
  rw [releaseIfParty_snd]
  split_ifs with hreleases
  · have hhealthy := (Bool.and_eq_true_iff.mp hreleases).1
    have hkept : releasable (.str threadId) who rec = false := by
      simpa [Call.takes, hhealthy] using htakes
    exact List.mem_filter.mpr ⟨hmem, by rw [hkept]; rfl⟩
  · exact hmem

theorem releaseIfPartyStatus_keeps {explicitlyConfigured : Bool} {threadId : Json} {who : String}
    (hmem : rec ∈ file.entries)
    (htakes : (Call.releaseIfPartyStatus explicitlyConfigured threadId who).takes io rec = false) :
    rec ∈ (releaseIfPartyStatus explicitlyConfigured io threadId who file).2.entries := by
  rcases releaseIfPartyStatus_cases explicitlyConfigured io threadId who file with
    ⟨hstat, hhealthy, heq⟩ | ⟨-, _, -, heq⟩ <;> rw [heq]
  · have hkept : releasable threadId who rec = false := by
      simpa [Call.takes, hstat, hhealthy] using htakes
    exact List.mem_filter.mpr ⟨hmem, by rw [hkept]; rfl⟩
  · exact hmem

theorem expireLocked_keeps (hmem : rec ∈ file.entries) (hlive : live now rec = true)
    (htakes : Call.expire.takes io rec = false) : rec ∈ (expireLocked io now file).2.entries := by
  unfold expireLocked
  dsimp only
  split_ifs with hlock
  · rw [write_snd]
    split_ifs with hwritable
    · have hreadable : io.readable = true := by
        simpa [Call.takes, hlock, hwritable] using htakes
      exact mem_liveEntries hreadable hmem hlive
    · exact hmem
  · exact hmem

/-- **What a call keeps.** A pair that a live lease joins stays joined, unless the call takes the
lease out. -/
theorem commit_keeps (hmem : rec ∈ file.entries) (hlive : live now rec = true)
    (hjoins : rec.joins a b = true) (htakes : call.takes io rec = false) :
    ∃ rec' ∈ (call.commit valid io now file).entries, rec'.joins a b = true := by
  cases call with
  | claim => exact claim_keeps hmem hlive hjoins htakes
  | touch => exact touch_keeps hmem hjoins
  | release => exact ⟨rec, release_keeps hmem htakes, hjoins⟩
  | releaseIfParty => exact ⟨rec, releaseIfParty_keeps hmem htakes, hjoins⟩
  | releaseIfPartyStatus => exact ⟨rec, releaseIfPartyStatus_keeps hmem htakes, hjoins⟩
  | leaseFor => exact ⟨rec, hmem, hjoins⟩
  | expire => exact ⟨rec, expireLocked_keeps hmem hlive htakes, hjoins⟩

/-! ## Several calls -/

/-- Some calls lead from one registry to the other. -/
inductive Commits (valid : TokenRule) : File → File → Prop
  | refl (file : File) : Commits valid file file
  | cons {file file' : File} (call : Call) (io : Io) (now : Time)
      (hrest : Commits valid (call.commit valid io now file) file') : Commits valid file file'

theorem Commits.one (call : Call) (io : Io) (now : Time) (file : File) :
    Commits valid file (call.commit valid io now file) :=
  .cons call io now (.refl _)

theorem Commits.of_eq (h : file' = file) : Commits valid file file' := h ▸ .refl _

theorem Commits.trans (h : Commits valid file file') (h' : Commits valid file' file'') :
    Commits valid file file'' := by
  induction h with
  | refl => exact h'
  | cons call io now _ ih => exact .cons call io now (ih h')

/-- The gate's limits survive any calls. -/
theorem Commits.limits (h : Commits valid file file')
    (hlimits : Limits maxOutboundThreads (links file)) : Limits maxOutboundThreads (links file') := by
  induction h with
  | refl => exact hlimits
  | cons call io now _ ih => exact ih (hlimits.admits (commit_admits io now _ call))

end OpenThreads

open OpenThreads

variable {env : Env} {mail : Mail} {args kwargs : List (String × Json)} {w : World} {held : Bool}

/-! ## The calls of a send -/

theorem gate_commits (env : Env) (mail : Mail) (w : World) :
    Commits env.valid w.leases (gate env mail w).2.leases := by
  unfold gate
  cases mail.reply with
  | no => exact .refl _
  | end_ => exact .refl _
  | yes =>
    dsimp only
    split_ifs
    · exact .refl _
    · -- every branch leaves what the claim leaves
      have hclaim : Commits env.valid w.leases (env.claimDoor mail w.leases).2 :=
        .one (.claim mail.taskId mail.self mail.agent defaultLeaseMinutes) env.claim.io
          env.claim.now w.leases
      split <;> exact hclaim

theorem probeAll_commits {valid : TokenRule} (explicitlyConfigured : Bool) (who : String)
    (probes : List (Json × Io)) :
    ∀ file : File, Commits valid file (probeAll explicitlyConfigured who probes file).2 := by
  induction probes with
  | nil => exact fun file => .refl file
  | cons probe rest ih =>
    intro file
    unfold probeAll
    dsimp only
    split_ifs
    · exact .cons (.releaseIfPartyStatus explicitlyConfigured probe.1 who) probe.2 0 (ih _)
    · exact ih file

theorem bookkeeping_commits (env : Env) (mail : Mail) (deliveryId : Json) (file : File) :
    Commits env.valid file (bookkeeping env mail deliveryId file).2 := by
  unfold bookkeeping
  cases mail.reply with
  | no => exact .refl _
  | end_ =>
    dsimp only
    unfold terminate
    cases mail.thread with
    | some thread =>
      exact .one (.releaseIfPartyStatus env.explicitlyConfigured (.str thread) mail.self)
        env.threadProbe 0 file
    | none => exact probeAll_commits _ _ _ _
  | yes =>
    dsimp only
    cases env.resizeMinutes with
    | none => exact .refl _
    | some minutes =>
      cases mail.ref with
      | none => exact .refl _
      | some ref => exact .one (.touch ref (some minutes)) env.touch.io env.touch.now file

theorem rollback_commits (env : Env) (mail : Mail) (held : Bool) (file : File) :
    Commits env.valid file (rollback env mail held file) := by
  unfold rollback
  split_ifs
  · exact .one (.releaseIfParty mail.taskId mail.self) env.rollback 0 file
  · exact .refl _

/-- The delivery and what follows it. -/
theorem settleSend_commits (env : Env) (sending : Sending) (w : World) :
    Commits env.valid w.leases (settleSend env sending w).2.leases := by
  obtain ⟨mail, held, padded, url⟩ := sending
  have hleases := deliver_leases env env.net env.signature (env.wire mail padded url) w
  unfold settleSend
  dsimp only
  generalize deliver env env.net env.signature (env.wire mail padded url) w = r at hleases ⊢
  obtain ⟨e | d, w₁⟩ := r
  · exact .of_eq hleases
  · dsimp only at hleases ⊢
    rw [← hleases]
    split_ifs
    · obtain ⟨-, -, -, hkept⟩ | ⟨-, -, hbook⟩ := delivered_spec env mail padded d.deliveryId w₁
      · exact .of_eq hkept
      · rw [hbook]
        exact bookkeeping_commits ..
    · rw [(queued_spec env mail padded _).1, withdrawPending_leases]
      exact .refl _
    · obtain ⟨-, heq⟩ | ⟨-, heq⟩ := failed_spec env mail held d.reason
        (withdrawPending env mail { w₁ with metrics := ("send", "failed") :: w₁.metrics })
      all_goals rw [heq, withdrawPending_leases]
      · exact .refl _
      · exact rollback_commits ..

end HermesMesh
