import HermesMesh.Lib.LastWrite
import HermesMesh.Migration
import Mathlib.Data.List.TakeWhile

/-!
# Keys and identities of a migrated fleet

The key file of an agent is addressed by the name in its identity, and two agents may give the same
name, or two names that lead to one file. The last of them that opens the file then decides what is in
it. And an agent whose identity cannot be written is reported after its key file has been replaced.
`migration_iff` says on which vaults, and under which failures, keys and identities stay paired all the
same.
-/

namespace HermesMesh.Migration

open Lib (PosixPath WritesAt exists_last put writeAll writeAll_last writeAll_of_forall_not)

/-! ## What is promised -/

/-- The public key in an identity. -/
def publicKeyIn (cfg : Config) (text : String) : Option String :=
  match cfg.load text with
  | .ok loaded =>
    match readIdentity loaded with
    | .ok (_, _, auth) =>
      match Json.get "public_key" auth with
      | .str key => some key
      | _ => none
    | .error _ => none
  | .error _ => none

/-- No write of the run fails. -/
structure Meets.Flawless (m : Meets) : Prop where
  mkdir : m.mkdir = .ok ()
  keyWrite : ∀ dir, m.keyWrite dir = .done
  keyChmod : ∀ dir, m.keyChmod dir = .ok ()
  identityWrite : ∀ dir, m.identityWrite dir = .done

/-- **Keys and identities stay paired.** `holds text key` says that the text of a key file holds the
private key of a public one. -/
structure Paired (cfg : Config) (holds : String → String → Prop) (m : Meets) (s : State) : Prop where
  migrated : ∀ dir name, (dir, .migrated name) ∈ (migrate cfg m false s).2.1 →
    ∃ text key pem, (migrate cfg m false s).2.2.identities dir = some text ∧
      publicKeyIn cfg text = some key ∧
      (migrate cfg m false s).2.2.keys (cfg.keyFile name) = some pem ∧ holds pem key
  failed : ∀ dir name error, (dir, .failed name error) ∈ (migrate cfg m false s).2.1 →
    (migrate cfg m false s).2.2.identities dir = s.identities dir ∧
      (migrate cfg m false s).2.2.keys (cfg.keyFile name) = s.keys (cfg.keyFile name)
  again : ∀ m' : Meets, m'.Flawless → ∀ dir name,
    (dir, .migrated name) ∈ (migrate cfg m false s).2.1 →
      (migrate cfg m' false (migrate cfg m false s).2.2).2.2.identities dir =
          (migrate cfg m false s).2.2.identities dir ∧
        (migrate cfg m' false (migrate cfg m false s).2.2).2.2.keys (cfg.keyFile name) =
          (migrate cfg m false s).2.2.keys (cfg.keyFile name)

/-! ## What the inputs say of an agent -/

/-- The agent ends the run with an exception. -/
def stops (cfg : Config) (s : State) (dir : String) : Bool :=
  match plan cfg dir (s.identities dir) with
  | .error _ => true
  | .ok (.due name _ _) => hasNul name
  | .ok _ => false

/-- The agents that the run comes to and gets past. -/
def reached (cfg : Config) (m : Meets) (s : State) : List String :=
  if cfg.rootIsDir = true ∧ m.mkdir = .ok () then cfg.entries.takeWhile fun dir => !stops cfg s dir
  else []

/-- The agent is due. -/
def Due (cfg : Config) (s : State) (dir name : String) (raw transport : Fields) : Prop :=
  plan cfg dir (s.identities dir) = .ok (.due name raw transport)

/-- The key file of an agent that is due, or whose identity cannot be read. -/
def HasFile (cfg : Config) (s : State) (dir : String) (file : PosixPath) : Prop :=
  (∃ name raw transport, Due cfg s dir name raw transport ∧ cfg.keyFile name = file) ∨
    (∃ error, plan cfg dir (s.identities dir) = .ok (.unreadable error)) ∧ cfg.keyFile dir = file

/-- Nothing fails for the agent, up to the identity or all through. -/
structure KeyGoes (m : Meets) (dir : String) : Prop where
  write : m.keyWrite dir = .done
  chmod : m.keyChmod dir = .ok ()

structure Goes (m : Meets) (dir : String) : Prop extends KeyGoes m dir where
  identity : m.identityWrite dir = .done

/-- What the agent writes to a key file. -/
def keyEntry (cfg : Config) (m : Meets) (s : State) (dir : String) :
    Option (PosixPath × Option String) :=
  match plan cfg dir (s.identities dir) with
  | .ok (.due name _ _) =>
    match m.keyWrite dir with
    | .refused _ => none
    | write => some (cfg.keyFile name, write.leaves (m.keypair dir).1 none)
  | _ => none

/-- **The condition.** An identity that cannot be written is left as it was. And the last write to each
key file either is that of an agent that is migrated, the only one with this file; or it leaves what
was there, and no agent with this file is migrated. -/
structure Unharmed (cfg : Config) (m : Meets) (s : State) : Prop where
  identities : ∀ dir ∈ reached cfg m s, ∀ name raw transport, Due cfg s dir name raw transport →
    KeyGoes m dir → ∀ n error, m.identityWrite dir = .cut n error →
      s.identities dir =
        some (String.ofList ((cfg.dump (withKey raw transport (m.keypair dir).2)).toList.take n))
  keys : ∀ before dir after, reached cfg m s = before ++ dir :: after →
    ∀ file content, keyEntry cfg m s dir = some (file, content) →
      (∀ later ∈ after, ¬ WritesAt (keyEntry cfg m s) file later) →
        (Goes m dir ∧ ∀ other ∈ reached cfg m s, other ≠ dir → ¬ HasFile cfg s other file) ∨
        (s.keys file = content ∧ ∀ other ∈ reached cfg m s, ∀ name raw transport,
          Due cfg s other name raw transport → cfg.keyFile name = file → ¬ Goes m other)

/-- What is relied on: the directories have different names, what the run dumps is read back, a generated
private key is that of its public key, and of no other one, whole or cut short; and it is new. -/
structure Works (cfg : Config) (holds : String → String → Prop) (m : Meets) (s : State) : Prop where
  nodup : cfg.entries.Nodup
  /-- `yaml.safe_load` takes back what `yaml.safe_dump` gives, here of the identities that the run
  writes. -/
  reads : ∀ dir name raw transport, Due cfg s dir name raw transport →
    cfg.load (cfg.dump (withKey raw transport (m.keypair dir).2)) =
      .ok (withKey raw transport (m.keypair dir).2)
  own : ∀ dir ∈ cfg.entries, holds (m.keypair dir).1 (m.keypair dir).2
  foreign : ∀ dir ∈ cfg.entries, ∀ other ∈ cfg.entries, ∀ n, dir ≠ other →
    ¬ holds (String.ofList ((m.keypair other).1.toList.take n)) (m.keypair dir).2
  public_ne : ∀ dir ∈ cfg.entries, (m.keypair dir).2 ≠ ""
  new : ∀ file, ∀ dir ∈ cfg.entries, s.keys file ≠ some (m.keypair dir).1

variable {cfg : Config} {holds : String → String → Prop} {m : Meets} {s t : State}
  {dir name : String} {raw transport : Fields} {dirs : List String} {file : PosixPath}

/-! ## One agent -/

/-- What becomes of an agent that does not stop the run. -/
def verdictOf (cfg : Config) (m : Meets) (s : State) (dir : String) : Verdict :=
  match plan cfg dir (s.identities dir) with
  | .error _ | .ok .ignored => .ignored
  | .ok .skipped => .skipped
  | .ok (.unreadable e) => .failed dir (dir ++ ": failed to read identity: " ++ e)
  | .ok (.due name _ _) =>
    match (m.keyWrite dir).ends, m.keyChmod dir with
    | .error e, _ | .ok (), .error e => .failed name (name ++ ": failed to write private key: " ++ e)
    | .ok (), .ok () =>
      match (m.identityWrite dir).ends with
      | .error e => .failed name (name ++ ": failed to write identity: " ++ e)
      | .ok () => .migrated name

/-- What its identity file holds after its turn. -/
def identityLeft (cfg : Config) (m : Meets) (s : State) (dir : String) : Option String :=
  match plan cfg dir (s.identities dir) with
  | .ok (.due _ raw transport) =>
    match (m.keyWrite dir).ends, m.keyChmod dir with
    | .ok (), .ok () =>
      (m.identityWrite dir).leaves (cfg.dump (withKey raw transport (m.keypair dir).2))
        (s.identities dir)
    | _, _ => s.identities dir
  | _ => s.identities dir

/-- The state after its turn. -/
def turn (cfg : Config) (m : Meets) (s : State) (dir : String) (t : State) : State where
  identities := Function.update t.identities dir (identityLeft cfg m s dir)
  keys := put (keyEntry cfg m s dir) t.keys

theorem put_keyWrite (write : Write) (file : PosixPath) (pem : String)
    (keys : PosixPath → Option String) :
    Function.update keys file (write.leaves pem (keys file)) =
      put (match write with
        | .refused _ => none
        | write => some (file, write.leaves pem none)) keys := by
  cases write with
  | done => rfl
  | refused text => exact Function.update_eq_self file keys
  | cut n text => rfl

theorem migrateOne_stops (hsame : t.identities dir = s.identities dir) (h : stops cfg s dir = true) :
    ∃ e, migrateOne cfg m false dir t = (.error e, t) := by
  unfold stops at h
  unfold migrateOne
  rw [hsame]
  generalize plan cfg dir (s.identities dir) = planned at h
  rcases planned with e | _ | _ | e | ⟨name, raw, transport⟩
  · exact ⟨e, rfl⟩
  · cases h
  · cases h
  · cases h
  · refine ⟨.valueError "embedded null byte", ?_⟩
    dsimp only
    rw [if_neg Bool.false_ne_true]
    exact if_pos h

theorem migrateOne_turn (hsame : t.identities dir = s.identities dir) (h : stops cfg s dir = false) :
    migrateOne cfg m false dir t = (.ok (verdictOf cfg m s dir), turn cfg m s dir t) := by
  have hself : Function.update t.identities dir (s.identities dir) = t.identities := by
    rw [← hsame, Function.update_eq_self]
  unfold stops at h
  unfold migrateOne verdictOf turn identityLeft keyEntry
  rw [hsame]
  generalize plan cfg dir (s.identities dir) = planned at h
  rcases planned with e | _ | _ | e | ⟨name, raw, transport⟩
  · cases h
  · dsimp only
    rw [hself]
    rfl
  · dsimp only
    rw [hself]
    rfl
  · dsimp only
    rw [hself]
    rfl
  · dsimp only at h ⊢
    unfold migrateDue
    rw [if_neg Bool.false_ne_true, h, if_neg Bool.false_ne_true]
    dsimp only
    rw [put_keyWrite, hsame]
    rcases (m.keyWrite dir).ends with e | _
    · dsimp only
      rw [hself]
    · rcases m.keyChmod dir with e | _
      · dsimp only
        rw [hself]
      · dsimp only
        rcases (m.identityWrite dir).ends with e | _
        · rfl
        · rfl

/-! ## The run -/

/-- The state after the turns of these agents. -/
def turns (cfg : Config) (m : Meets) (s : State) (dirs : List String) (t : State) : State where
  identities := fun dir => if dir ∈ dirs then identityLeft cfg m s dir else t.identities dir
  keys := writeAll (keyEntry cfg m s) dirs t.keys

theorem turns_cons (cfg : Config) (m : Meets) (s : State) (dir : String) (dirs : List String)
    (t : State) : turns cfg m s dirs (turn cfg m s dir t) = turns cfg m s (dir :: dirs) t := by
  unfold turns turn
  congr 1
  funext other
  dsimp only
  by_cases hlater : other ∈ dirs
  · rw [if_pos hlater, if_pos (List.mem_cons_of_mem _ hlater)]
  · rw [if_neg hlater]
    by_cases hother : other = dir
    · subst hother
      rw [Function.update_self, if_pos List.mem_cons_self]
    · rw [Function.update_of_ne hother, if_neg (List.not_mem_cons_of_ne_of_not_mem hother hlater)]

/-- **The loop.** Every agent has its turn as if there were no others before it, up to the first that
stops the run. -/
theorem migrateAll_turns (hnodup : dirs.Nodup)
    (hsame : ∀ dir ∈ dirs, t.identities dir = s.identities dir) :
    (migrateAll cfg m false dirs t).2 =
      ((dirs.takeWhile fun dir => !stops cfg s dir).map fun dir => (dir, verdictOf cfg m s dir),
        turns cfg m s (dirs.takeWhile fun dir => !stops cfg s dir) t) := by
  induction dirs generalizing t with
  | nil => rfl
  | cons dir dirs ih =>
    obtain ⟨hfirst, hrest⟩ := List.forall_mem_cons.mp hsame
    obtain ⟨hnew, hnodup⟩ := List.nodup_cons.mp hnodup
    unfold migrateAll
    cases hstops : stops cfg s dir with
    | true =>
      obtain ⟨e, he⟩ := migrateOne_stops (m := m) hfirst hstops
      rw [he, List.takeWhile_cons_of_neg (by simp [hstops])]
      rfl
    | false =>
      have hne : ∀ other ∈ dirs, other ≠ dir := fun other hother h => hnew (h ▸ hother)
      have hnext := ih (t := turn cfg m s dir t) hnodup fun other hother =>
        (Function.update_of_ne (hne other hother) ..).trans (hrest other hother)
      rw [migrateOne_turn hfirst hstops, List.takeWhile_cons_of_pos (by simp [hstops])]
      dsimp only
      generalize migrateAll cfg m false dirs (turn cfg m s dir t) = later at hnext
      obtain ⟨ends, verdicts, u⟩ := later
      obtain ⟨rfl, rfl⟩ := Prod.mk.inj hnext
      exact Prod.ext rfl (turns_cons cfg m s dir _ t)

/-- **The run** in terms of the agents that it gets past. -/
theorem migrate_turns (hnodup : cfg.entries.Nodup) :
    (migrate cfg m false s).2 =
      ((reached cfg m s).map fun dir => (dir, verdictOf cfg m s dir),
        turns cfg m s (reached cfg m s) s) := by
  unfold migrate reached
  cases hdir : cfg.rootIsDir with
  | false => rfl
  | true =>
    rw [if_neg (by decide)]
    cases hmkdir : m.mkdir with
    | error e => rfl
    | ok _ =>
      dsimp only
      rw [if_pos ⟨rfl, rfl⟩]
      exact migrateAll_turns hnodup fun _ _ => rfl

/-! ## Which agents are migrated, and which are reported -/

theorem ends_ok_iff (write : Write) : write.ends = .ok () ↔ write = .done := by
  cases write with
  | done => exact iff_of_true rfl rfl
  | refused text => exact iff_of_false (by simp [Write.ends]) (by simp)
  | cut n text => exact iff_of_false (by simp [Write.ends]) (by simp)

theorem verdictOf_goes (hdue : Due cfg s dir name raw transport) (hgoes : Goes m dir) :
    verdictOf cfg m s dir = .migrated name := by
  unfold verdictOf
  rw [show plan cfg dir (s.identities dir) = _ from hdue]
  dsimp only
  rw [hgoes.write, hgoes.chmod, hgoes.identity]
  rfl

/-- An agent that is due fails where something fails for it. -/
theorem verdictOf_not_goes (hdue : Due cfg s dir name raw transport) (hgoes : ¬ Goes m dir) :
    ∃ error, verdictOf cfg m s dir = .failed name error := by
  unfold verdictOf
  rw [show plan cfg dir (s.identities dir) = _ from hdue]
  dsimp only
  rcases hwrite : (m.keyWrite dir).ends with e | _
  · exact ⟨_, rfl⟩
  · rcases hchmod : m.keyChmod dir with e | _
    · exact ⟨_, rfl⟩
    · dsimp only
      rcases hidentity : (m.identityWrite dir).ends with e | _
      · exact ⟨_, rfl⟩
      · exact absurd ⟨⟨(ends_ok_iff _).mp hwrite, hchmod⟩, (ends_ok_iff _).mp hidentity⟩ hgoes

/-- An agent is passed over, cannot be read, or is due. -/
theorem verdictOf_cases (cfg : Config) (m : Meets) (s : State) (dir : String) :
    (verdictOf cfg m s dir = .ignored ∨ verdictOf cfg m s dir = .skipped) ∨
      (∃ error, plan cfg dir (s.identities dir) = .ok (.unreadable error) ∧
        verdictOf cfg m s dir = .failed dir (dir ++ ": failed to read identity: " ++ error)) ∨
      ∃ name raw transport, Due cfg s dir name raw transport := by
  unfold verdictOf Due
  generalize plan cfg dir (s.identities dir) = planned
  rcases planned with e | _ | _ | e | ⟨name, raw, transport⟩
  · exact .inl (.inl rfl)
  · exact .inl (.inl rfl)
  · exact .inl (.inr rfl)
  · exact .inr (.inl ⟨e, rfl, rfl⟩)
  · exact .inr (.inr ⟨name, raw, transport, rfl⟩)

theorem verdictOf_migrated_iff : verdictOf cfg m s dir = .migrated name ↔
    ∃ raw transport, Due cfg s dir name raw transport ∧ Goes m dir := by
  constructor
  · intro h
    rcases verdictOf_cases cfg m s dir with
      (hidle | hidle) | ⟨e, -, hunread⟩ | ⟨name', raw, transport, hdue⟩
    · cases hidle.symm.trans h
    · cases hidle.symm.trans h
    · cases hunread.symm.trans h
    · by_cases hgoes : Goes m dir
      · obtain rfl : name' = name := Verdict.migrated.inj ((verdictOf_goes hdue hgoes).symm.trans h)
        exact ⟨raw, transport, hdue, hgoes⟩
      · obtain ⟨error, herror⟩ := verdictOf_not_goes hdue hgoes
        cases herror.symm.trans h
  · rintro ⟨raw, transport, hdue, hgoes⟩
    exact verdictOf_goes hdue hgoes

/-- An agent is reported where its identity cannot be read, or it is due and something fails. -/
theorem verdictOf_failed_iff : (∃ error, verdictOf cfg m s dir = .failed name error) ↔
    (∃ error, plan cfg dir (s.identities dir) = .ok (.unreadable error)) ∧ name = dir ∨
      ∃ raw transport, Due cfg s dir name raw transport ∧ ¬ Goes m dir := by
  constructor
  · rintro ⟨error, h⟩
    rcases verdictOf_cases cfg m s dir with
      (hidle | hidle) | ⟨e, hplan, hunread⟩ | ⟨name', raw, transport, hdue⟩
    · cases hidle.symm.trans h
    · cases hidle.symm.trans h
    · exact .inl ⟨⟨e, hplan⟩, (Verdict.failed.inj (hunread.symm.trans h)).1.symm⟩
    · by_cases hgoes : Goes m dir
      · cases (verdictOf_goes hdue hgoes).symm.trans h
      · obtain ⟨error', herror⟩ := verdictOf_not_goes hdue hgoes
        obtain rfl := (Verdict.failed.inj (herror.symm.trans h)).1
        exact .inr ⟨raw, transport, hdue, hgoes⟩
  · rintro (⟨⟨e, hplan⟩, rfl⟩ | ⟨raw, transport, hdue, hgoes⟩)
    · unfold verdictOf
      rw [hplan]
      exact ⟨_, rfl⟩
    · exact verdictOf_not_goes hdue hgoes

theorem mem_verdicts {verdict : Verdict} :
    (dir, verdict) ∈ (reached cfg m s).map (fun dir => (dir, verdictOf cfg m s dir)) ↔
      dir ∈ reached cfg m s ∧ verdictOf cfg m s dir = verdict := by
  rw [List.mem_map]
  constructor
  · rintro ⟨other, hmem, heq⟩
    obtain ⟨rfl, hverdict⟩ := Prod.mk.inj heq
    exact ⟨hmem, hverdict⟩
  · rintro ⟨hmem, hverdict⟩
    exact ⟨dir, hmem, Prod.ext rfl hverdict⟩

/-! ## The identity that is written -/

/-- The written identity reads back with the public key. -/
theorem readIdentity_withKey (raw transport : Fields) (key : String) :
    ∃ raw' transport', readIdentity (withKey raw transport key) =
      .ok (raw', transport', [("public_key", .str key)]) := ⟨_, _, rfl⟩

theorem publicKeyIn_dump {key : String}
    (hreads : cfg.load (cfg.dump (withKey raw transport key)) = .ok (withKey raw transport key)) :
    publicKeyIn cfg (cfg.dump (withKey raw transport key)) = some key := by
  obtain ⟨raw', transport', hread⟩ := readIdentity_withKey raw transport key
  unfold publicKeyIn
  rw [hreads]
  dsimp only
  rw [hread]
  rfl

/-- The next run skips an agent that has been migrated. -/
theorem plan_dump (dir : String) {key : String}
    (hreads : cfg.load (cfg.dump (withKey raw transport key)) = .ok (withKey raw transport key))
    (hkey : key ≠ "") :
    plan cfg dir (some (cfg.dump (withKey raw transport key))) = .ok .skipped := by
  obtain ⟨raw', transport', hread⟩ := readIdentity_withKey raw transport key
  have hdone : isEd25519 [("public_key", .str key)] = true := by
    have htruthy : (Json.str key).truthy = true := decide_eq_true hkey
    show ((Json.str key).truthy && !Json.null.truthy && !Json.null.isStr "hmac-sha256") = true
    rw [htruthy]
    rfl
  unfold plan
  dsimp only
  rw [hreads]
  dsimp only
  rw [hread]
  show Except.ok (if isEd25519 [("public_key", .str key)] then Plan.skipped else _) = _
  rw [hdone]
  rfl

/-! ## What the run leaves -/

theorem identityLeft_goes (hdue : Due cfg s dir name raw transport) (hgoes : Goes m dir) :
    identityLeft cfg m s dir = some (cfg.dump (withKey raw transport (m.keypair dir).2)) := by
  unfold identityLeft
  rw [show plan cfg dir (s.identities dir) = _ from hdue]
  dsimp only
  rw [hgoes.write, hgoes.chmod, hgoes.identity]
  rfl

/-- An agent that is not migrated keeps its identity, unless the write of it is cut short. -/
theorem identityLeft_stays
    (hgoes : ∀ name raw transport, Due cfg s dir name raw transport → ¬ Goes m dir)
    (hcut : ∀ name raw transport, Due cfg s dir name raw transport → KeyGoes m dir →
      ∀ n error, m.identityWrite dir = .cut n error → s.identities dir =
        some (String.ofList ((cfg.dump (withKey raw transport (m.keypair dir).2)).toList.take n))) :
    identityLeft cfg m s dir = s.identities dir := by
  unfold identityLeft
  unfold Due at hgoes hcut
  rcases hplan : plan cfg dir (s.identities dir) with e | _ | _ | e | ⟨name, raw, transport⟩
  · rfl
  · rfl
  · rfl
  · rfl
  · dsimp only
    rcases hwrite : (m.keyWrite dir).ends with e | _
    · rfl
    · rcases hchmod : m.keyChmod dir with e | _
      · rfl
      · have hkey : KeyGoes m dir := ⟨(ends_ok_iff _).mp hwrite, hchmod⟩
        dsimp only
        cases hidentity : m.identityWrite dir with
        | done => exact absurd ⟨hkey, hidentity⟩ (hgoes name raw transport hplan)
        | refused text => rfl
        | cut n text => exact (hcut name raw transport hplan hkey n text hidentity).symm

/-- The identity that a cut leaves. -/
theorem identityLeft_cut (hdue : Due cfg s dir name raw transport) (hkey : KeyGoes m dir) {n : ℕ}
    {error : String} (hcut : m.identityWrite dir = .cut n error) : identityLeft cfg m s dir =
      some (String.ofList ((cfg.dump (withKey raw transport (m.keypair dir).2)).toList.take n)) := by
  unfold identityLeft
  rw [show plan cfg dir (s.identities dir) = _ from hdue]
  dsimp only
  rw [hkey.write, hkey.chmod, hcut]
  rfl

/-- Only agents that are due write key files, and each a prefix of its own key. -/
theorem keyEntry_some {content : Option String} (h : keyEntry cfg m s dir = some (file, content)) :
    ∃ name raw transport n, Due cfg s dir name raw transport ∧ cfg.keyFile name = file ∧
      content = some (String.ofList ((m.keypair dir).1.toList.take n)) := by
  unfold keyEntry at h
  split at h
  · rename_i name raw transport hplan
    refine ⟨name, raw, transport, ?_⟩
    cases hwrite : m.keyWrite dir with
    | refused text =>
      rw [hwrite] at h
      cases h
    | done =>
      rw [hwrite] at h
      obtain ⟨hfile, hcontent⟩ := Prod.mk.inj (Option.some.inj h)
      refine ⟨(m.keypair dir).1.toList.length, hplan, hfile, hcontent.symm.trans ?_⟩
      rw [List.take_length, String.ofList_toList]
      rfl
    | cut n text =>
      rw [hwrite] at h
      obtain ⟨hfile, hcontent⟩ := Prod.mk.inj (Option.some.inj h)
      exact ⟨n, hplan, hfile, hcontent.symm⟩
  · cases h

theorem keyEntry_done (hdue : Due cfg s dir name raw transport) (hwrite : m.keyWrite dir = .done) :
    keyEntry cfg m s dir = some (cfg.keyFile name, some (m.keypair dir).1) := by
  unfold keyEntry
  rw [show plan cfg dir (s.identities dir) = _ from hdue]
  dsimp only
  rw [hwrite]
  rfl

/-! ## After the run -/

theorem reached_begins (hmem : dir ∈ reached cfg m s) : cfg.rootIsDir = true ∧ m.mkdir = .ok () := by
  unfold reached at hmem
  split_ifs at hmem with hbegins
  · exact hbegins
  · cases hmem

theorem not_stops_of_reached (hmem : dir ∈ reached cfg m s) : stops cfg s dir = false := by
  unfold reached at hmem
  split_ifs at hmem
  · simpa using List.mem_takeWhile_imp hmem
  · cases hmem

theorem mem_entries (hmem : dir ∈ reached cfg m s) : dir ∈ cfg.entries := by
  unfold reached at hmem
  split_ifs at hmem
  · exact (List.takeWhile_prefix _).subset hmem
  · cases hmem

section

variable (hnodup : cfg.entries.Nodup)
include hnodup

theorem mem_migrate {verdict : Verdict} : (dir, verdict) ∈ (migrate cfg m false s).2.1 ↔
    dir ∈ reached cfg m s ∧ verdictOf cfg m s dir = verdict := by
  rw [migrate_turns hnodup]
  exact mem_verdicts

theorem identities_migrate (hmem : dir ∈ reached cfg m s) :
    (migrate cfg m false s).2.2.identities dir = identityLeft cfg m s dir := by
  rw [migrate_turns hnodup]
  exact if_pos hmem

theorem identities_unreached (hmem : dir ∉ reached cfg m s) :
    (migrate cfg m false s).2.2.identities dir = s.identities dir := by
  rw [migrate_turns hnodup]
  exact if_neg hmem

theorem keys_unwritten (h : ∀ dir ∈ reached cfg m s, ¬ WritesAt (keyEntry cfg m s) file dir) :
    (migrate cfg m false s).2.2.keys file = s.keys file := by
  rw [migrate_turns hnodup]
  exact writeAll_of_forall_not h

theorem keys_last {before after : List String} {content : Option String}
    (hsplit : reached cfg m s = before ++ dir :: after)
    (hentry : keyEntry cfg m s dir = some (file, content))
    (hlast : ∀ later ∈ after, ¬ WritesAt (keyEntry cfg m s) file later) :
    (migrate cfg m false s).2.2.keys file = content := by
  rw [migrate_turns hnodup]
  show writeAll (keyEntry cfg m s) (reached cfg m s) s.keys file = content
  rw [hsplit]
  exact writeAll_last hentry hlast

end

/-- A run that keeps all paired does not leave the key of one agent to another that is migrated. -/
theorem Paired.own_key (h : Works cfg holds m s) (hpaired : Paired cfg holds m s)
    (hmem : dir ∈ reached cfg m s) (hdue : Due cfg s dir name raw transport) (hgoes : Goes m dir)
    {other : String} (hother : other ∈ reached cfg m s) {n : ℕ}
    (hkey : (migrate cfg m false s).2.2.keys (cfg.keyFile name) =
      some (String.ofList ((m.keypair other).1.toList.take n))) : dir = other := by
  by_contra hne
  obtain ⟨text, key, pem, htext, hpublic, hpem, hholds⟩ := hpaired.migrated dir name
    ((mem_migrate h.nodup).mpr ⟨hmem, verdictOf_goes hdue hgoes⟩)
  rw [identities_migrate h.nodup hmem, identityLeft_goes hdue hgoes] at htext
  obtain rfl := Option.some.inj htext
  rw [publicKeyIn_dump (h.reads dir name raw transport hdue)] at hpublic
  obtain rfl := Option.some.inj hpublic
  obtain rfl := Option.some.inj (hkey.symm.trans hpem)
  exact h.foreign dir (mem_entries hmem) other (mem_entries hother) n hne hholds

/-- An agent that is reported keeps its key file. -/
theorem Paired.kept (h : Works cfg holds m s) (hpaired : Paired cfg holds m s)
    (hmem : dir ∈ reached cfg m s) (hfile : HasFile cfg s dir file) (hgoes : ¬ Goes m dir ∨
      ∀ name raw transport, ¬ Due cfg s dir name raw transport) :
    (migrate cfg m false s).2.2.keys file = s.keys file := by
  rcases hfile with ⟨name, raw, transport, hdue, rfl⟩ | ⟨hunreadable, rfl⟩
  · have hfails : ¬ Goes m dir := hgoes.resolve_right fun hno => hno _ _ _ hdue
    obtain ⟨error, herror⟩ := verdictOf_not_goes hdue hfails
    exact (hpaired.failed dir name error ((mem_migrate h.nodup).mpr ⟨hmem, herror⟩)).2
  · obtain ⟨error, herror⟩ := verdictOf_failed_iff.mpr (.inl ⟨hunreadable, rfl⟩)
    exact (hpaired.failed dir dir error ((mem_migrate h.nodup).mpr ⟨hmem, herror⟩)).2

theorem Paired.unharmed (h : Works cfg holds m s) (hpaired : Paired cfg holds m s) :
    Unharmed cfg m s := by
  refine ⟨fun dir hmem name raw transport hdue hkey n error hcut => ?_,
    fun before dir after hsplit file content hentry hlast => ?_⟩
  · have hgoes : ¬ Goes m dir := fun hgoes => by cases hcut.symm.trans hgoes.identity
    obtain ⟨error', herror⟩ := verdictOf_not_goes hdue hgoes
    have hsame := (hpaired.failed dir name error' ((mem_migrate h.nodup).mpr ⟨hmem, herror⟩)).1
    rw [identities_migrate h.nodup hmem, identityLeft_cut hdue hkey hcut] at hsame
    exact hsame.symm
  · have hmem : dir ∈ reached cfg m s := hsplit ▸ List.mem_append_right _ List.mem_cons_self
    have hfinal := keys_last h.nodup hsplit hentry hlast
    obtain ⟨name, raw, transport, n, hdue, rfl, hcontent⟩ := keyEntry_some hentry
    have hown : ∀ other ∈ reached cfg m s, ∀ name' raw' transport',
        Due cfg s other name' raw' transport' → cfg.keyFile name' = cfg.keyFile name →
          Goes m other → other = dir := by
      intro other hother name' raw' transport' hdue' hfile hgoes'
      refine hpaired.own_key h hother hdue' hgoes' hmem (n := n) ?_
      rw [hfile, hfinal, hcontent]
    by_cases hgoes : Goes m dir
    · refine .inl ⟨hgoes, fun other hother hne hfile => ?_⟩
      have hfails : ¬ Goes m other ∨ ∀ name raw transport, ¬ Due cfg s other name raw transport := by
        by_cases hgoes' : Goes m other
        · refine .inr fun name' raw' transport' hdue' => ?_
          rcases hfile with ⟨name'', raw'', transport'', hdue'', hfile⟩ | ⟨⟨error, hunreadable⟩, -⟩
          · exact hne (hown other hother _ _ _ hdue'' hfile hgoes')
          · cases hunreadable.symm.trans hdue'
        · exact .inl hgoes'
      have hkept := hpaired.kept h hother hfile hfails
      rw [keyEntry_done hdue hgoes.write] at hentry
      obtain ⟨-, hwhole⟩ := Prod.mk.inj (Option.some.inj hentry)
      exact h.new _ dir (mem_entries hmem) (hkept.symm.trans (hfinal.trans hwhole.symm))
    · have hkept := hpaired.kept h hmem (.inl ⟨name, raw, transport, hdue, rfl⟩) (.inl hgoes)
      refine .inr ⟨hkept.symm.trans hfinal, ?_⟩
      intro other hother name' raw' transport' hdue' hfile hgoes'
      exact hgoes (hown other hother name' raw' transport' hdue' hfile hgoes' ▸ hgoes')

/-- The key file of an agent that is migrated is its own alone. -/
theorem Unharmed.own_key (hnodup : cfg.entries.Nodup) (h : Unharmed cfg m s)
    (hmem : dir ∈ reached cfg m s) (hdue : Due cfg s dir name raw transport) (hgoes : Goes m dir) :
    (migrate cfg m false s).2.2.keys (cfg.keyFile name) = some (m.keypair dir).1 ∧
      ∀ other ∈ reached cfg m s, HasFile cfg s other (cfg.keyFile name) → other = dir := by
  have hentry := keyEntry_done hdue hgoes.write
  obtain ⟨before, last, after, hsplit, ⟨content, hlast⟩, hafter⟩ :=
    exists_last ⟨dir, hmem, some (m.keypair dir).1, hentry⟩
  rcases h.keys before last after hsplit _ content hlast hafter with ⟨-, honly⟩ | ⟨-, hnone⟩
  · have hself : ∀ other ∈ reached cfg m s, HasFile cfg s other (cfg.keyFile name) → other = last :=
      fun other hother hfile => by_contra fun hne => honly other hother hne hfile
    obtain rfl : dir = last := hself dir hmem (.inl ⟨name, raw, transport, hdue, rfl⟩)
    exact ⟨keys_last hnodup hsplit hentry hafter, hself⟩
  · exact absurd hgoes (hnone dir hmem name raw transport hdue rfl)

/-- The key file of an agent that is reported is as it was. -/
theorem Unharmed.kept (hnodup : cfg.entries.Nodup) (h : Unharmed cfg m s)
    (hmem : dir ∈ reached cfg m s) (hfile : HasFile cfg s dir file)
    (hgoes : ∀ name raw transport, Due cfg s dir name raw transport → ¬ Goes m dir) :
    (migrate cfg m false s).2.2.keys file = s.keys file := by
  by_cases hwritten : ∃ other ∈ reached cfg m s, WritesAt (keyEntry cfg m s) file other
  · obtain ⟨before, last, after, hsplit, ⟨content, hlast⟩, hafter⟩ := exists_last hwritten
    rcases h.keys before last after hsplit file content hlast hafter with
      ⟨hlastgoes, honly⟩ | ⟨hsame, -⟩
    · obtain rfl : dir = last := by_contra fun hne => honly dir hmem hne hfile
      obtain ⟨name, raw, transport, -, hdue, -⟩ := keyEntry_some hlast
      exact absurd hlastgoes (hgoes name raw transport hdue)
    · exact (keys_last hnodup hsplit hlast hafter).trans hsame.symm
  · exact keys_unwritten hnodup fun other hother hwrites => hwritten ⟨other, hother, hwrites⟩

/-- So is its identity. -/
theorem Unharmed.identityLeft (h : Unharmed cfg m s) (hmem : dir ∈ reached cfg m s)
    (hgoes : ∀ name raw transport, Due cfg s dir name raw transport → ¬ Goes m dir) :
    identityLeft cfg m s dir = s.identities dir :=
  identityLeft_stays hgoes fun name raw transport hdue hkey n error hcut =>
    h.identities dir hmem name raw transport hdue hkey n error hcut

/-! ## The next run -/

/-- An agent that is read the same way in the next run stops it the same way. -/
theorem mem_reached_of_next {m' : Meets} {t : State} (hnext : dir ∈ reached cfg m' t)
    (hbegins : cfg.rootIsDir = true ∧ m.mkdir = .ok ())
    (hsame : ∀ other, stops cfg s other = true → t.identities other = s.identities other) :
    dir ∈ reached cfg m s := by
  unfold reached at hnext ⊢
  rw [if_pos hbegins]
  split_ifs at hnext
  · have hstops : ∀ other, stops cfg s other = true → stops cfg t other = true := by
      intro other hother
      unfold stops at hother ⊢
      rw [hsame other (by unfold stops; exact hother)]
      exact hother
    generalize cfg.entries = dirs at hnext
    induction dirs with
    | nil => exact hnext
    | cons first dirs ih =>
      by_cases hfirst : stops cfg t first = true
      · rw [List.takeWhile_cons_of_neg (by simp [hfirst])] at hnext
        cases hnext
      · have hfirst' : ¬ stops cfg s first = true := mt (hstops first) hfirst
        rw [List.takeWhile_cons_of_pos (by simpa using hfirst)] at hnext
        rw [List.takeWhile_cons_of_pos (by simpa using hfirst')]
        rcases List.mem_cons.mp hnext with rfl | hnext
        · exact List.mem_cons_self
        · exact List.mem_cons_of_mem _ (ih hnext)
  · cases hnext

/-- **The next run** leaves an agent that has been migrated as it is. -/
theorem Unharmed.again (h : Works cfg holds m s) (hunharmed : Unharmed cfg m s) (m' : Meets)
    (hmem : dir ∈ reached cfg m s) (hdue : Due cfg s dir name raw transport) (hgoes : Goes m dir) :
    (migrate cfg m' false (migrate cfg m false s).2.2).2.2.identities dir =
        (migrate cfg m false s).2.2.identities dir ∧
      (migrate cfg m' false (migrate cfg m false s).2.2).2.2.keys (cfg.keyFile name) =
        (migrate cfg m false s).2.2.keys (cfg.keyFile name) := by
  have hskipped : ∀ {dir' name' raw' transport'}, dir' ∈ reached cfg m s →
      Due cfg s dir' name' raw' transport' → Goes m dir' →
        plan cfg dir' ((migrate cfg m false s).2.2.identities dir') = .ok .skipped := by
    intro dir' name' raw' transport' hmem' hdue' hgoes'
    rw [identities_migrate h.nodup hmem', identityLeft_goes hdue' hgoes']
    exact plan_dump dir' (h.reads dir' name' raw' transport' hdue')
      (h.public_ne dir' (mem_entries hmem'))
  have hstopped : ∀ other, stops cfg s other = true →
      (migrate cfg m false s).2.2.identities other = s.identities other := fun other hother =>
    identities_unreached h.nodup fun hreached =>
      Bool.false_ne_true ((not_stops_of_reached hreached).symm.trans hother)
  have hsame : ∀ other ∈ reached cfg m s, (∀ name raw transport, Due cfg s other name raw transport →
      ¬ Goes m other) → (migrate cfg m false s).2.2.identities other = s.identities other :=
    fun other hother hno => (identities_migrate h.nodup hother).trans
      (hunharmed.identityLeft hother hno)
  generalize (migrate cfg m false s).2.2 = t at hskipped hstopped hsame
  refine ⟨?_, keys_unwritten h.nodup fun other hother ⟨content, hwrites⟩ => ?_⟩
  · by_cases hnext : dir ∈ reached cfg m' t
    · rw [identities_migrate h.nodup hnext]
      unfold Migration.identityLeft
      rw [hskipped hmem hdue hgoes]
    · exact identities_unreached h.nodup hnext
  · -- whoever writes the file in the next run was due in this one, and is not migrated
    obtain ⟨name', raw', transport', -, hdue', hfile, -⟩ := keyEntry_some hwrites
    have hreached := mem_reached_of_next hother (reached_begins hmem) hstopped
    have hno : ∀ name raw transport, Due cfg s other name raw transport → ¬ Goes m other :=
      fun _ _ _ hdue'' hgoes'' => by cases (hskipped hreached hdue'' hgoes'').symm.trans hdue'
    unfold Due at hdue'
    rw [hsame other hreached hno] at hdue'
    obtain rfl := (hunharmed.own_key h.nodup hmem hdue hgoes).2 other hreached
      (.inl ⟨name', raw', transport', hdue', hfile⟩)
    exact hno name raw transport hdue hgoes

/-- **Where keys and identities stay paired**: where each identity that cannot be written is left as it
was, and the last write to each key file is that of the one agent with this file, which is migrated, or
leaves what was there and no agent with this file is migrated. -/
theorem migration_iff (h : Works cfg holds m s) : Paired cfg holds m s ↔ Unharmed cfg m s := by
  refine ⟨fun hpaired => hpaired.unharmed h, fun hunharmed => ⟨?_, ?_, ?_⟩⟩
  · intro dir name hverdict
    obtain ⟨hmem, hverdict⟩ := (mem_migrate h.nodup).mp hverdict
    obtain ⟨raw, transport, hdue, hgoes⟩ := verdictOf_migrated_iff.mp hverdict
    exact ⟨_, _, _, (identities_migrate h.nodup hmem).trans (identityLeft_goes hdue hgoes),
      publicKeyIn_dump (h.reads dir name raw transport hdue),
      (hunharmed.own_key h.nodup hmem hdue hgoes).1,
      h.own dir (mem_entries hmem)⟩
  · intro dir name error hverdict
    obtain ⟨hmem, hverdict⟩ := (mem_migrate h.nodup).mp hverdict
    rcases verdictOf_failed_iff.mp ⟨error, hverdict⟩ with
      ⟨hunreadable, rfl⟩ | ⟨raw, transport, hdue, hgoes⟩
    · have hno : ∀ name' raw transport, Due cfg s name name' raw transport → ¬ Goes m name := by
        intro name' raw transport hdue
        obtain ⟨error', hplan⟩ := hunreadable
        cases hplan.symm.trans hdue
      exact ⟨(identities_migrate h.nodup hmem).trans (hunharmed.identityLeft hmem hno),
        hunharmed.kept h.nodup hmem (.inr ⟨hunreadable, rfl⟩) hno⟩
    · exact ⟨(identities_migrate h.nodup hmem).trans
          (hunharmed.identityLeft hmem fun _ _ _ _ => hgoes),
        hunharmed.kept h.nodup hmem (.inl ⟨name, raw, transport, hdue, rfl⟩) fun _ _ _ _ => hgoes⟩
  · intro m' _ dir name hverdict
    obtain ⟨hmem, hverdict⟩ := (mem_migrate h.nodup).mp hverdict
    obtain ⟨raw, transport, hdue, hgoes⟩ := verdictOf_migrated_iff.mp hverdict
    exact hunharmed.again h m' hmem hdue hgoes

/-! ## Two agents of one name -/

/-- The text of an identity that names only its agent, before and after the migration. -/
def written (key : String) : String :=
  "name: vera\ntransports:\n  hermes_webhook:\n    auth:\n      public_key: " ++ key ++ "\n"

def vera : Fields := [("name", .str "vera")]

def yamlLoad (text : String) : Except LoadError Json :=
  if text = "name: vera\n" then .ok (.obj vera)
  else if text = written "K1" then .ok (withKey vera [] "K1")
  else if text = written "K2" then .ok (withKey vera [] "K2")
  else .error (.caught "not in this fleet")

def yamlDump (value : Json) : String :=
  match readIdentity value with
  | .ok (_, _, auth) =>
    match Json.get "public_key" auth with
    | .str key => written key
    | _ => ""
  | .error _ => ""

/-- The identities in both directories name `vera`. -/
def twins : Config where
  root := PosixPath.parse "/fleet/mesh/agents".toList
  entries := ["atlas", "vera"]
  keyDir := PosixPath.parse "/keys".toList
  load := yamlLoad
  dump := yamlDump
  str _ := ""

def twinFiles : State where
  identities dir := if dir = "atlas" ∨ dir = "vera" then some "name: vera\n" else none
  keys _ := none

/-- Nothing fails. -/
def smooth : Meets where
  keypair dir := if dir = "atlas" then ("P1", "K1") else ("P2", "K2")

def holdsKey (pem key : String) : Prop := pem = "P1" ∧ key = "K1" ∨ pem = "P2" ∧ key = "K2"

theorem twins_work : Works twins holdsKey smooth twinFiles where
  nodup := by decide
  reads dir name raw transport hdue := by
    unfold Due at hdue
    by_cases hdir : dir = "atlas" ∨ dir = "vera"
    · have hplan : plan twins dir (twinFiles.identities dir) = .ok (.due "vera" vera []) := by
        rcases hdir with rfl | rfl <;> rfl
      obtain ⟨-, rfl, rfl⟩ := Plan.due.inj (Except.ok.inj (hplan.symm.trans hdue))
      rcases hdir with rfl | rfl <;> rfl
    · have hplan : plan twins dir (twinFiles.identities dir) = .ok .ignored := by
        rw [show twinFiles.identities dir = none from if_neg hdir]
        rfl
      cases hplan.symm.trans hdue
  own := by
    unfold holdsKey
    decide
  foreign dir hdir other hother n hne hholds := by
    have hinitial {pem : String} (h : String.ofList ((smooth.keypair other).1.toList.take n) = pem) :
        pem.toList <+: (smooth.keypair other).1.toList := by
      rw [← h, String.toList_ofList]
      exact List.take_prefix n _
    simp only [twins, List.mem_cons, List.not_mem_nil, or_false] at hdir hother
    rcases hdir with rfl | rfl
    · rcases hother with rfl | rfl
      · exact hne rfl
      · rcases hholds with ⟨hpem, -⟩ | ⟨-, hkey⟩
        · exact absurd (hinitial hpem) (by decide)
        · exact absurd hkey (by decide)
    · rcases hother with rfl | rfl
      · rcases hholds with ⟨-, hkey⟩ | ⟨hpem, -⟩
        · exact absurd hkey (by decide)
        · exact absurd (hinitial hpem) (by decide)
      · exact hne rfl
  public_ne := by decide
  new _ _ _ := by
    show none ≠ _
    exact fun h => by cases h

theorem migration_iff_twins :
    Paired twins holdsKey smooth twinFiles ↔ Unharmed twins smooth twinFiles :=
  migration_iff twins_work

/-- Both agents are migrated to one key file, which holds the key of the second. -/
theorem twins_unpaired : ¬ Paired twins holdsKey smooth twinFiles := by
  intro h
  obtain ⟨text, key, pem, htext, hkey, hpem, hholds⟩ := h.migrated "atlas" "vera" (by decide +kernel)
  have htext' : (migrate twins smooth false twinFiles).2.2.identities "atlas" =
      some (written "K1") := by decide +kernel
  have hpem' : (migrate twins smooth false twinFiles).2.2.keys (twins.keyFile "vera") = some "P2" := by
    decide +kernel
  have hkey' : publicKeyIn twins (written "K1") = some "K1" := by decide +kernel
  obtain rfl := Option.some.inj (htext'.symm.trans htext)
  obtain rfl := Option.some.inj (hkey'.symm.trans hkey)
  obtain rfl := Option.some.inj (hpem'.symm.trans hpem)
  revert hholds
  unfold holdsKey
  decide

end HermesMesh.Migration
