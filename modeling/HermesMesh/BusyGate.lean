import HermesMesh.FailedSends

/-!
# Who the busy gate lets through

The gate looks for a lease between the two agents before it looks at anybody else's lease or at the
cap, so the two parties of a live thread never block each other; and a lease blocks only where it
names the recipient as the one who was called. `Blocked` and `Capped` are the two grounds of a
refusal, and the response tells them apart (`gate_refuses`).
-/

namespace HermesMesh

open OpenThreads

variable {env : Env} {mail : Mail} {args kwargs : List (String × Json)} {w w₁ w₂ : World}
  {file : File} {rec : Lease} {refusal : Response}

/-- Somebody else's live lease has called the recipient. -/
def Blocked (env : Env) (mail : Mail) (file : File) (blocker : Lease) : Prop :=
  blocker ∈ env.seen file ∧ blocks mail.self mail.agent blocker = true

/-- The sender holds as many threads as the cap allows. -/
def Capped (env : Env) (mail : Mail) (file : File) : Prop :=
  maxOutboundThreads ≤ ((env.seen file).filter (·.openedBy = mail.self)).length

/-- The leases that the sender has opened, as the claim sees them. -/
def Env.outbound (env : Env) (mail : Mail) (file : File) : List Lease :=
  (env.seen file).filter (·.openedBy = mail.self)

/-- What the claim answers at the cap. -/
theorem claimLocked_cap {io : Io} {now : Time} (threadId : String) {openedBy peer : String}
    (minutes : ℤ)
    (hpair : ∀ rec ∈ liveEntries io now file, rec.joins openedBy peer = false)
    (hdoor : ∀ rec ∈ liveEntries io now file, blocks openedBy peer rec = false)
    (hcap : maxOutboundThreads ≤
      ((liveEntries io now file).filter (·.openedBy = openedBy)).length) :
    claimLocked io now threadId openedBy peer minutes file =
      (.cap maxOutboundThreads
        (((liveEntries io now file).filter (·.openedBy = openedBy)).map (·.threadId))
        (((liveEntries io now file).filter (·.openedBy = openedBy)).map (·.peer)), file) := by
  have hentries : (read io file).filter (live now) = liveEntries io now file := rfl
  have hjoin : (liveEntries io now file).find? (·.joins openedBy peer) = none := by
    simpa using hpair
  have hbusy : (liveEntries io now file).find? (blocks openedBy peer) = none := by
    simpa using hdoor
  have hsame : (liveEntries io now file).find?
      (fun r => decide (r.openedBy = openedBy ∧ r.peer = peer)) = none := by
    rw [List.find?_eq_none]
    intro rec hrec hmatch
    have hj := hpair rec hrec
    rw [joins_iff.mpr (.inl (by simpa using hmatch))] at hj
    cases hj
  unfold claimLocked
  simp only [hentries, hjoin, hbusy, hsame]
  exact if_pos hcap

/-- **A refusal of the gate.** No lease joins the two agents, and the response names the lease that
blocks the recipient, or the threads that the sender holds. -/
theorem gate_refuses (h : gate env mail w = (.error refusal, w₂)) :
    Seeks env mail w.leases ∧ w₂.leases = w.leases ∧
      (∀ rec ∈ env.seen w.leases, rec.joins mail.self mail.agent = false) ∧
      ((∃ blocker, Blocked env mail w.leases blocker ∧
          refusal = recipientBusy env mail blocker) ∨
        (∀ rec ∈ env.seen w.leases, blocks mail.self mail.agent rec = false) ∧
          Capped env mail w.leases ∧
          refusal = tooManyOpen env mail maxOutboundThreads
            ((env.outbound mail w.leases).map (·.threadId))
            ((env.outbound mail w.leases).map (·.peer))) := by
  obtain ⟨-, heq⟩ | ⟨⟨hseek, hpair, -⟩, refusal', w', heq, hleases⟩ | ⟨-, heq⟩ | ⟨-, -, -, heq⟩ :=
    gate_cases env mail w
  · cases h.symm.trans heq
  · obtain ⟨hr, rfl⟩ := Prod.mk.inj (heq.symm.trans h)
    obtain rfl := Except.error.inj hr
    refine ⟨hseek, hleases, hpair, ?_⟩
    rcases claimLocked_cases env.claim.io env.claim.now mail.taskId mail.self mail.agent
      (clampMinutes defaultLeaseMinutes) w.leases with
      ⟨rec, -, -, hl⟩ | ⟨-, ⟨rec, hrec, hb, hl⟩ | ⟨hdoor, ⟨threads, peers, hcap, -⟩ |
        ⟨-, ⟨-, hl⟩ | ⟨-, hl⟩⟩⟩⟩
    · cases heq.symm.trans (gate_sought hseek hl)
    · refine .inl ⟨rec, ⟨hrec, hb⟩, ?_⟩
      exact Except.error.inj (Prod.mk.inj (heq.symm.trans (gate_sought hseek hl))).1
    · refine .inr ⟨hdoor, hcap, ?_⟩
      have hl := claimLocked_cap mail.taskId (clampMinutes defaultLeaseMinutes) hpair hdoor hcap
      exact Except.error.inj (Prod.mk.inj (heq.symm.trans (gate_sought hseek hl))).1
    · cases heq.symm.trans (gate_sought hseek hl)
    · cases heq.symm.trans (gate_sought hseek hl)
  · cases h.symm.trans heq
  · cases h.symm.trans heq

/-! ## The parties of a live thread -/

theorem joins_comm (rec : Lease) (a b : String) : rec.joins a b = rec.joins b a := by
  rw [Bool.eq_iff_iff, joins_iff, joins_iff, or_comm]

/-- A lease that is live as the claim reads the clock is not seen only where the registry cannot be
read, and then nothing is. -/
theorem mem_seen_or (hrec : rec ∈ file.entries) (hlive : live env.claim.now rec = true) :
    rec ∈ env.seen file ∨ env.seen file = [] := by
  unfold Env.seen liveEntries OpenThreads.read
  cases env.claim.io.readable with
  | true => exact .inl (List.mem_filter.mpr ⟨hrec, hlive⟩)
  | false => exact .inr rfl

/-- No refusal where a live lease joins the two agents. -/
theorem gate_joined (hrec : rec ∈ w.leases.entries) (hlive : live env.claim.now rec = true)
    (hjoins : rec.joins mail.self mail.agent = true) :
    ∃ held w₂, gate env mail w = (.ok held, w₂) := by
  cases hgate : gate env mail w with
  | mk result w₂ =>
    cases result with
    | ok held => exact ⟨held, w₂, rfl⟩
    | error refusal =>
      obtain ⟨-, -, hpair, hground⟩ := gate_refuses hgate
      exfalso
      obtain hseen | hnone := mem_seen_or hrec hlive
      · rw [hpair rec hseen] at hjoins
        cases hjoins
      · obtain ⟨blocker, ⟨hb, -⟩, -⟩ | ⟨-, hcap, -⟩ := hground
        · rw [hnone] at hb
          cases hb
        · unfold Capped at hcap
          rw [hnone, List.filter_nil, List.length_nil] at hcap
          exact absurd hcap (by decide)

/-- The recipient is refused to nobody where she has opened every live lease that she is a party
to. -/
theorem gate_opener {agent : String} (hagent : mail.agent = agent)
    (hown : ∀ rec ∈ w.leases.entries, live env.claim.now rec = true → rec.hasParty agent = true →
      rec.openedBy = agent)
    (h : gate env mail w = (.error refusal, w₂)) :
    refusal.lookup "reason" = some (.str "too-many-open") := by
  obtain ⟨-, -, -, ⟨blocker, ⟨hb, hblocks⟩, -⟩ | ⟨-, -, rfl⟩⟩ := gate_refuses h
  · exfalso
    obtain ⟨hpeer, -, hopened⟩ := of_decide_eq_true hblocks
    have hmem : blocker ∈ w.leases.entries := liveEntries_sublist.subset hb
    have hlive : live env.claim.now blocker = true := (List.mem_filter.mp hb).2
    subst hagent
    exact hopened (hown blocker hmem hlive (hasParty_iff.mpr (.inr hpeer.symm)))
  · rfl

/-- **No deadlock between the parties of a live thread.** Whatever else the registry holds, a call
that has passed validation is let through where a live lease joins its two agents, in either
direction; and an agent who has opened every live lease she is a party to is busy to nobody: the only
refusal left is the sender's own cap. -/
theorem live_thread_never_refused (hprep : prepare env args kwargs w = (.ok mail, w₁)) :
    (∀ a b, ∀ rec ∈ w.leases.entries, live env.claim.now rec = true → rec.joins a b = true →
        mail.self = a ∧ mail.agent = b ∨ mail.self = b ∧ mail.agent = a →
        ∃ held w₂, gate env mail w₁ = (.ok held, w₂) ∧
          handleMeshSend env args kwargs w = forward env mail held w₂) ∧
      ∀ agent, mail.agent = agent →
        (∀ rec ∈ w.leases.entries, live env.claim.now rec = true → rec.hasParty agent = true →
          rec.openedBy = agent) →
        ∀ refusal w₂, gate env mail w₁ = (.error refusal, w₂) →
          refusal.lookup "reason" = some (.str "too-many-open") := by
  rw [← prepared_leases hprep]
  constructor
  · intro a b rec hrec hlive hjoins hends
    have hmine : rec.joins mail.self mail.agent = true := by
      obtain ⟨rfl, rfl⟩ | ⟨rfl, rfl⟩ := hends
      · exact hjoins
      · rwa [joins_comm]
    obtain ⟨held, w₂, hgate⟩ := gate_joined hrec hlive hmine
    exact ⟨held, w₂, hgate, handleMeshSend_granted hprep hgate⟩
  · intro agent hagent hown refusal w₂ hgate
    exact gate_opener hagent hown hgate

/-- vera has opened a thread with zero, and linda one with vera. -/
def talking : World :=
  { emptyWorld with
    leases := some [newLease 900 "u" "linda" "vera" 30, newLease 900 "t" "vera" "zero" 30] }

/-- The call is prepared for these two agents. -/
def prepares (env : Env) (args kwargs : List (String × Json)) (w : World) (self agent : String) :
    Bool :=
  match prepare env args kwargs w with
  | (.ok mail, _) => decide (mail.self = self ∧ mail.agent = agent)
  | _ => false

theorem exists_of_prepares {self agent : String} (h : prepares env args kwargs w self agent = true) :
    ∃ mail w₁, prepare env args kwargs w = (.ok mail, w₁) ∧ mail.self = self ∧
      mail.agent = agent := by
  unfold prepares at h
  generalize prepare env args kwargs w = p at h
  obtain ⟨stop | mail, w₁⟩ := p
  · cases h
  · exact ⟨mail, w₁, rfl, of_decide_eq_true h⟩

theorem live_thread_never_refused_talking :
    ∃ mail w₁ held w₂, prepare zeroDown question [] talking = (.ok mail, w₁) ∧
      gate zeroDown mail w₁ = (.ok held, w₂) ∧
      handleMeshSend zeroDown question [] talking = forward zeroDown mail held w₂ := by
  have hcheck : prepares zeroDown question [] talking "zero" "vera" = true := by decide +kernel
  obtain ⟨mail, w₁, hprep, hself, hagent⟩ := exists_of_prepares hcheck
  obtain ⟨held, w₂, hgate, hsend⟩ := (live_thread_never_refused hprep).1 "vera" "zero"
    (newLease 900 "t" "vera" "zero" 30) (by simp [talking]) (by decide +kernel)
    (by decide) (.inr ⟨hself, hagent⟩)
  exact ⟨mail, w₁, held, w₂, hprep, hgate, hsend⟩

end HermesMesh
