import HermesMesh.EnvelopeRoundTrip
import HermesMesh.Lib.Runs
import HermesMesh.Vault

/-!
# Writes inside the vault

Every identity file has its place in the directory of an agent whose name `_validate_agent_name`
accepts. Registration, deregistration and the sync of one agent validate their name first, but what
the validator returns it need not accept again. The sync of all peers validates nothing: it hands the
name that the registry lists to `write_agent_identity`, which only lowers and strips it.
`identity_writes_inside_iff` says which names stay inside all the same; `peer_name_leaves_vault` is one
that does not.
-/

namespace HermesMesh.Vault

open Lib (Component PosixPath Run Free exec run_of_exec)

variable {cfg : Config} {m : Meets} {extra : Fields} {s t u : State}

/-! ## Inside -/

/-- `_validate_agent_name` returns this name for some input. -/
def Validated (cfg : Config) (name : String) : Prop :=
  ∃ raw, validateAgentName cfg.repr raw = .ok name

/-- `_validate_agent_name` accepts this name, as it is. -/
def Accepted (cfg : Config) (name : String) : Prop := validateAgentName cfg.repr name = .ok name

theorem Accepted.validated {name : String} (h : Accepted cfg name) : Validated cfg name := ⟨name, h⟩

/-- The file or the directory of an agent. -/
def Inside (cfg : Config) : Act → Prop
  | .writes path => ∃ name, Accepted cfg name ∧ path = cfg.identityFile name
  | .removes path => ∃ name, Accepted cfg name ∧ path = cfg.agentsRoot.join name.toList

/-- What `write_agent_identity` makes of a name. -/
def keyOf (cfg : Config) (name : String) : String := strip (cfg.lower name)

/-- As a path, the key is the bare name of an agent, or the absolute path of its directory. -/
def Harmless (cfg : Config) (key : String) : Prop :=
  ∃ name, Accepted cfg name ∧
    (PosixPath.parse key.toList = PosixPath.parse name.toList ∨
      (PosixPath.parse key.toList).root ≠ .relative ∧
        PosixPath.parse key.toList = cfg.agentsRoot.join name.toList)

/-- The directory can be made, and the file opened. -/
structure Opens (cfg : Config) (m : Meets) (key : String) : Prop where
  nonempty : key ≠ ""
  mkdir : m.mkdir (cfg.agentsRoot.join key.toList) = .ok ()
  openFile : m.openFile (cfg.identityFile key) = .ok ()

/-- A property of the characters of a name, checked in ASCII and at the four others. -/
theorem forall_nameChar {P : Char → Prop}
    (hascii : ∀ n < 128, isNameChar (Char.ofNat n) = true → P (Char.ofNat n))
    (hspecial : ∀ n ∈ [0x130, 0x131, 0x17F, 0x212A], P (Char.ofNat n)) {c : Char}
    (h : isNameChar c = true) : P c := by
  by_cases hc : c.toNat < 128
  · rw [← Char.ofNat_toNat c]
    exact hascii c.toNat hc (by rwa [Char.ofNat_toNat])
  · rw [← Char.ofNat_toNat c]
    apply hspecial c.toNat
    simpa using isNameChar_special h hc

/-- A character that may stand in a validated name: no slash and no space, and in lower case. -/
def stays (d : Char) : Bool :=
  d != '/' && !isSpace d && lowersAlone d && lowerName d == [d]

theorem lowerName_spec {c : Char} (h : isNameChar c = true) : ∀ d ∈ lowerName c, stays d = true :=
  List.all_eq_true.mp (forall_nameChar (P := fun c => (lowerName c).all stays = true)
    (by decide +kernel) (by decide +kernel) h)

/-- A name does not start with a dot. -/
theorem lowerName_start {c : Char} (h : isNameStart c = true) : (lowerName c).head? ≠ some '.' := by
  have hname : isNameChar c = true := by
    unfold isNameChar
    rw [h, Bool.true_or, Bool.true_or, Bool.true_or]
  have hhead : (isNameStart c && (lowerName c).head? == some '.') = false :=
    forall_nameChar (P := fun c => (isNameStart c && (lowerName c).head? == some '.') = false)
      (by decide +kernel) (by decide +kernel) hname
  rw [h, Bool.true_and] at hhead
  exact beq_eq_false_iff_ne.mp hhead

/-- Every character of a validated name. -/
theorem Validated.chars {name : String} (h : Validated cfg name) :
    ∀ d ∈ name.toList, d ≠ '/' ∧ isSpace d = false ∧ lowersAlone d = true ∧ lowerName d = [d] := by
  obtain ⟨raw, hraw⟩ := h
  obtain ⟨c, rest, -, -, hchars, -, hname⟩ := validateAgentName_ok hraw
  intro d hd
  rw [hname, List.mem_flatMap] at hd
  obtain ⟨e, he, hd⟩ := hd
  have hstays := lowerName_spec (hchars e he) d hd
  unfold stays at hstays
  simp only [Bool.and_eq_true, bne_iff_ne, Bool.not_eq_true', beq_iff_eq, and_assoc] at hstays
  exact hstays

/-- A validated name is in lower case. -/
theorem Validated.lower {name : String} (h : Validated cfg name) : cfg.lower name = name := by
  unfold Config.lower strLower
  rw [if_pos (List.all_eq_true.mpr fun d hd => (h.chars d hd).2.2.1),
    List.flatMap_congr fun d hd => (h.chars d hd).2.2.2, List.flatMap_singleton', String.ofList_toList]

/-- A validated name is one component of a path. -/
theorem Validated.component {name : String} (h : Validated cfg name) :
    ∃ c : Component, c.text = name.toList := by
  have hslash : '/' ∉ name.toList := fun hmem => (h.chars _ hmem).1 rfl
  obtain ⟨raw, hraw⟩ := h
  obtain ⟨c, rest, -, hstart, -, -, hname⟩ := validateAgentName_ok hraw
  have hhead : name.toList.head? = (lowerName c).head? := by
    rw [hname, List.flatMap_cons]
    cases hlow : lowerName c with
    | nil => exact absurd hlow (lowerName_ne_nil c)
    | cons d ds => rfl
  refine ⟨⟨name.toList, ?_, ?_, hslash⟩, rfl⟩
  · intro hnil
    rw [hnil] at hhead
    exact lowerName_ne_nil c (List.head?_eq_none_iff.mp hhead.symm)
  · intro hdot
    rw [hdot] at hhead
    exact lowerName_start hstart hhead.symm

/-- A validated name goes through `strip` as it is. -/
theorem Validated.strip {name : String} (h : Validated cfg name) : HermesMesh.strip name = name :=
  strip_eq fun c hc => (h.chars c hc).2.1

theorem identityFile_inj {a b : String} :
    cfg.identityFile a = cfg.identityFile b ↔
      cfg.agentsRoot.join a.toList = cfg.agentsRoot.join b.toList := by
  have hfile : Lib.IsComponent "identity.yaml".toList := by decide
  exact PosixPath.join_component_inj (c := ⟨_, hfile⟩)

/-- The file of a key is an agent's exactly where the key is harmless. -/
theorem inside_writes_iff {key : String} :
    Inside cfg (.writes (cfg.identityFile key)) ↔ Harmless cfg key := by
  refine exists_congr fun name => and_congr_right fun hname => ?_
  obtain ⟨c, hc⟩ := hname.validated.component
  rw [identityFile_inj, ← hc, PosixPath.parse_component]
  exact PosixPath.join_eq_join_iff

/-- So is its directory. -/
theorem inside_removes_iff {key : String} :
    Inside cfg (.removes (cfg.agentsRoot.join key.toList)) ↔ Harmless cfg key := by
  refine exists_congr fun name => and_congr_right fun hname => ?_
  obtain ⟨c, hc⟩ := hname.validated.component
  rw [← hc, PosixPath.parse_component]
  exact PosixPath.join_eq_join_iff

/-- A validated name is harmless exactly where the validator accepts it again. -/
theorem Validated.harmless_iff {name : String} (h : Validated cfg name) :
    Harmless cfg name ↔ Accepted cfg name := by
  constructor
  · rintro ⟨other, hother, hsame⟩
    obtain ⟨c, hc⟩ := h.component
    obtain ⟨d, hd⟩ := hother.validated.component
    rw [← hc, ← hd, PosixPath.parse_component, PosixPath.parse_component] at hsame
    rcases hsame with hsame | ⟨hroot, -⟩
    · obtain rfl : c = d := by simpa using hsame
      obtain rfl : name = other := String.toList_injective (hc.symm.trans hd)
      exact hother
    · exact absurd rfl hroot
  · exact fun hname => ⟨name, hname, .inl rfl⟩

/-! ## What a call adds to the log -/

/-- What is added to the log lies inside exactly where the condition holds. -/
def Adds (cfg : Config) (safe : Prop) (s t : State) : Prop :=
  (∀ act ∈ t.acts, Inside cfg act) ↔ (∀ act ∈ s.acts, Inside cfg act) ∧ safe

theorem Adds.of_acts (h : t.acts = s.acts) : Adds cfg True s t := by
  unfold Adds
  rw [h, and_true]

theorem Adds.trans {p q : Prop} (h₁ : Adds cfg p s t) (h₂ : Adds cfg q t u) :
    Adds cfg (p ∧ q) s u := by
  unfold Adds at *
  rw [h₂, h₁, and_assoc]

theorem Adds.congr {p q : Prop} (h : Adds cfg p s t) (hpq : p ↔ q) : Adds cfg q s t := by
  unfold Adds at *
  rw [h, hpq]

theorem Adds.after {p : Prop} (h₁ : t.acts = s.acts) (h₂ : Adds cfg p t u) : Adds cfg p s u :=
  ((Adds.of_acts h₁).trans h₂).congr (iff_of_eq (true_and p))

theorem Adds.cons {act : Act} (h : t.acts = act :: s.acts) : Adds cfg (Inside cfg act) s t := by
  unfold Adds
  rw [h, List.forall_mem_cons, and_comm]

/-- `write_agent_identity`: where the file opens, the key must be harmless. -/
theorem writeAgentIdentity_adds (cfg : Config) (m : Meets) (name : String) (identity : Json)
    (s : State) :
    Adds cfg (Opens cfg m (keyOf cfg name) → Harmless cfg (keyOf cfg name)) s
      (writeAgentIdentity cfg m name identity s).2 := by
  have hclosed : ¬ Opens cfg m (keyOf cfg name) → Adds cfg
      (Opens cfg m (keyOf cfg name) → Harmless cfg (keyOf cfg name)) s s := fun h =>
    (Adds.of_acts rfl).congr (iff_of_true trivial fun hopens => absurd hopens h)
  unfold writeAgentIdentity
  show Adds cfg _ s (if keyOf cfg name = "" then _ else _ : Except PyError PosixPath × State).2
  split_ifs with hempty
  · exact hclosed fun h => h.nonempty hempty
  · dsimp only
    cases hmkdir : m.mkdir (cfg.agentsRoot.join (strip (cfg.lower name)).toList) with
    | error e => exact hclosed fun h => by cases hmkdir.symm.trans h.mkdir
    | ok _ =>
      dsimp only
      cases hopen : m.openFile (cfg.identityFile (strip (cfg.lower name))) with
      | error e => exact hclosed fun h => by cases hopen.symm.trans h.openFile
      | ok _ =>
        have hopens : Opens cfg m (keyOf cfg name) := ⟨hempty, hmkdir, hopen⟩
        exact (Adds.cons rfl).congr
          (inside_writes_iff.trans (imp_iff_right hopens).symm)

theorem loadOrGenerateKeypair_acts (m : Meets) (name : String) (s : State) :
    (loadOrGenerateKeypair m name s).2.acts = s.acts := by
  unfold loadOrGenerateKeypair
  split <;> rfl

theorem getPublicKey_acts (m : Meets) (name : String) (s : State) :
    (getPublicKey m name s).2.acts = s.acts := by
  have h := loadOrGenerateKeypair_acts m name s
  unfold getPublicKey
  split
  · rename_i hkey
    rwa [hkey] at h
  · rename_i hkey
    rwa [hkey] at h

theorem chooseKey_acts (cfg : Config) (m : Meets) (name : String) (publicKey : Json) (s : State) :
    (chooseKey cfg m name publicKey s).2.acts = s.acts := by
  have h := getPublicKey_acts m name s
  unfold chooseKey
  split_ifs
  · rfl
  · rfl
  · rfl
  · split
    · rename_i hkey
      rwa [hkey] at h
    · rename_i hkey
      rwa [hkey] at h

theorem agentName_ok {v : Json} {name : String} (h : agentName cfg v = .ok name) :
    Validated cfg name := by
  cases v with
  | str raw => exact ⟨raw, h⟩
  | null | bool _ | num _ | arr _ | obj _ => cases h

/-! ## Registration -/

/-- A registration with this name comes to its write, and the file opens. -/
structure ComesToWrite (cfg : Config) (m : Meets) (item : Fields) (name : String) (url : Json)
    (overwrite dryRun : Bool) (s : State) : Prop where
  url : checkUrl m url = .ok (.ok ())
  key : ∃ publicKey t, chooseKey cfg m name ((item.lookup "public_key").getD (.str "")) s =
    (.ok publicKey, t) ∧ (overwrite = true ∨ (getRawAgentIdentity cfg m name t).truthy = false)
  real : dryRun = false
  opens : Opens cfg m (keyOf cfg name)

/-- The registration of this item validates this name, and comes to its write. -/
def Registers (cfg : Config) (m : Meets) (item : Fields) (overwrite dryRun : Bool) (s : State)
    (name : String) : Prop :=
  (nameOr m item).truthy = true ∧ agentName cfg (nameOr m item) = .ok name ∧
    ComesToWrite cfg m item name ((item.lookup "url").getD (.str "")) overwrite dryRun s

theorem registerNamed_adds (item : Fields) (name : String) (url : Json) (overwrite dryRun : Bool)
    (s : State) :
    Adds cfg (ComesToWrite cfg m item name url overwrite dryRun s → Harmless cfg (keyOf cfg name)) s
      (registerNamed cfg m item name url overwrite dryRun s).2 := by
  -- a registration that stops before its write adds nothing
  have hstops : ∀ t : State, t.acts = s.acts → ¬ ComesToWrite cfg m item name url overwrite dryRun s →
      Adds cfg (ComesToWrite cfg m item name url overwrite dryRun s → Harmless cfg (keyOf cfg name))
        s t := fun t ht hnot => (Adds.of_acts ht).congr (iff_of_true trivial fun h => absurd h hnot)
  unfold registerNamed
  split
  · rename_i e hurl
    exact hstops s rfl fun h => by cases hurl.symm.trans h.url
  · rename_i text hurl
    exact hstops s rfl fun h => by cases hurl.symm.trans h.url
  · rename_i hurl
    have hkey := chooseKey_acts cfg m name ((item.lookup "public_key").getD (.str "")) s
    split
    · rename_i text t hchoose
      rw [hchoose] at hkey
      refine hstops t hkey fun h => ?_
      obtain ⟨publicKey, u, hchosen, -⟩ := h.key
      cases hchoose.symm.trans hchosen
    · rename_i publicKey t hchoose
      rw [hchoose] at hkey
      split
      · rename_i hdry
        exact hstops t hkey fun h => by cases hdry.symm.trans h.real
      · rename_i hreal
        split
        · rename_i htaken
          refine hstops t hkey fun h => ?_
          obtain ⟨publicKey', u, hchosen, hfree⟩ := h.key
          obtain ⟨-, rfl⟩ := Prod.mk.inj (hchoose.symm.trans hchosen)
          rcases hfree with rfl | hfree
          · cases htaken
          · rw [hfree, Bool.and_false] at htaken
            cases htaken
        · rename_i hfree
          have hfree' : overwrite = true ∨ (getRawAgentIdentity cfg m name t).truthy = false := by
            cases overwrite with
            | true => exact .inl rfl
            | false => exact .inr (by simpa using hfree)
          dsimp only
          generalize identityOf name _ _ url publicKey = identity
          have hwrite := ((writeAgentIdentity_adds cfg m name identity t).after hkey).congr
            (q := ComesToWrite cfg m item name url overwrite dryRun s → Harmless cfg (keyOf cfg name))
            ⟨fun h hcomes => h hcomes.opens, fun h hopens => h
              ⟨hurl, ⟨publicKey, t, hchoose, hfree'⟩, by simpa using hreal, hopens⟩⟩
          generalize writeAgentIdentity cfg m name identity t = written at hwrite
          obtain ⟨_ | path, u⟩ := written
          · exact hwrite
          · exact hwrite

theorem registerOne_adds (item : Fields) (overwrite dryRun : Bool) (s : State) :
    Adds cfg (∀ name, Registers cfg m item overwrite dryRun s name → Harmless cfg (keyOf cfg name)) s
      (registerOne cfg m item overwrite dryRun s).2 := by
  have hstops : (∀ name, ¬ Registers cfg m item overwrite dryRun s name) →
      Adds cfg (∀ name, Registers cfg m item overwrite dryRun s name →
        Harmless cfg (keyOf cfg name)) s s := fun hnot =>
    (Adds.of_acts rfl).congr (iff_of_true trivial fun name h => absurd h (hnot name))
  unfold registerOne
  split_ifs with hgiven
  · exact hstops fun name h => by
      rw [h.1] at hgiven
      cases hgiven
  · split
    · rename_i text hname
      exact hstops fun name h => by cases hname.symm.trans h.2.1
    · rename_i e _ hname
      exact hstops fun name h => by cases hname.symm.trans h.2.1
    · rename_i name hname
      refine (registerNamed_adds item name _ overwrite dryRun s).congr
        ⟨fun h name' hreg => ?_, fun h hcomes => h name ⟨by simpa using hgiven, hname, hcomes⟩⟩
      obtain rfl : name = name' := Except.ok.inj (hname.symm.trans hreg.2.1)
      exact h hreg.2.2

/-- A bulk registration comes to this name, at the state that the items before it leave. -/
def BulkRegisters (cfg : Config) (m : Meets) (overwrite dryRun : Bool) (items : List Json) (s : State)
    (name : String) : Prop :=
  ∃ front item rest results u, items = front ++ .obj item :: rest ∧
    registerAll cfg m overwrite dryRun front s = (.ok results, u) ∧
      Registers cfg m item overwrite dryRun u name

theorem registerAll_ok_iff {overwrite dryRun : Bool} {first : Fields} {items : List Json}
    {results : List Fields} :
    registerAll cfg m overwrite dryRun (.obj first :: items) s = (.ok results, u) ↔
      ∃ result t others, registerOne cfg m first overwrite dryRun s = (.ok result, t) ∧
        registerAll cfg m overwrite dryRun items t = (.ok others, u) ∧
          results = result :: others := by
  rw [registerAll.eq_2]
  obtain ⟨e | result, t⟩ := registerOne cfg m first overwrite dryRun s
  · simp
  · dsimp only
    cases hall : registerAll cfg m overwrite dryRun items t with
    | mk others v =>
    constructor
    · intro h
      cases others with
      | error e => cases h
      | ok others =>
        cases h
        exact ⟨result, t, others, rfl, hall, rfl⟩
    · rintro ⟨result', t', others', hone, hall', rfl⟩
      cases hone
      cases hall.symm.trans hall'
      rfl

/-- The first item comes to the name, or a later one does after the first. -/
theorem bulkRegisters_cons {overwrite dryRun : Bool} {first : Fields} {items : List Json}
    {name : String} :
    BulkRegisters cfg m overwrite dryRun (.obj first :: items) s name ↔
      Registers cfg m first overwrite dryRun s name ∨
        ∃ result t, registerOne cfg m first overwrite dryRun s = (.ok result, t) ∧
          BulkRegisters cfg m overwrite dryRun items t name := by
  constructor
  · rintro ⟨front, item, rest, results, u, hitems, hfront, hreg⟩
    cases front with
    | nil =>
      cases hitems
      cases hfront
      exact .inl hreg
    | cons other front =>
      obtain ⟨rfl, htail⟩ := List.cons.inj (hitems.trans List.cons_append)
      obtain ⟨result, t, others, hresult, hothers, -⟩ := registerAll_ok_iff.mp hfront
      exact .inr ⟨result, t, hresult, front, item, rest, others, u, htail, hothers, hreg⟩
  · rintro (hreg | ⟨result, t, hresult, front, item, rest, results, u, rfl, hfront, hreg⟩)
    · exact ⟨[], first, items, [], s, rfl, rfl, hreg⟩
    · exact ⟨.obj first :: front, item, rest, result :: results, u, rfl,
        registerAll_ok_iff.mpr ⟨result, t, results, hresult, hfront, rfl⟩, hreg⟩

theorem not_bulkRegisters {overwrite dryRun : Bool} {items : List Json} {name : String}
    (h : ∀ first rest, items ≠ .obj first :: rest) :
    ¬ BulkRegisters cfg m overwrite dryRun items s name := by
  rintro ⟨front, item, rest, results, u, rfl, hfront, -⟩
  cases front with
  | nil => exact h item rest rfl
  | cons other front =>
    cases other with
    | obj first => exact h first _ rfl
    | null | bool _ | num _ | str _ | arr _ => cases hfront

theorem registerAll_adds (overwrite dryRun : Bool) (items : List Json) (s : State) :
    Adds cfg (∀ name, BulkRegisters cfg m overwrite dryRun items s name →
      Harmless cfg (keyOf cfg name)) s (registerAll cfg m overwrite dryRun items s).2 := by
  induction items generalizing s with
  | nil =>
    exact (Adds.of_acts rfl).congr (iff_of_true trivial fun name h =>
      absurd h (not_bulkRegisters nofun))
  | cons first items ih =>
    cases first with
    | null | bool _ | num _ | str _ | arr _ =>
      exact (Adds.of_acts rfl).congr (iff_of_true trivial fun name h =>
        absurd h (not_bulkRegisters nofun))
    | obj first =>
      have hone := @registerOne_adds cfg m first overwrite dryRun s
      simp only [bulkRegisters_cons]
      rw [registerAll.eq_2]
      generalize registerOne cfg m first overwrite dryRun s = registered at hone
      obtain ⟨e | result, t⟩ := registered
      · exact hone.congr (by simp)
      · have hrest := (hone.trans (ih t)).congr (q := ∀ name,
            (Registers cfg m first overwrite dryRun s name ∨
              ∃ result' t', ((.ok result, t) : Except PyError Fields × State) = (.ok result', t') ∧
                BulkRegisters cfg m overwrite dryRun items t' name) →
              Harmless cfg (keyOf cfg name)) <| by
          constructor
          · rintro ⟨hnow, hlater⟩ name (hreg | ⟨result', t', hsame, hreg⟩)
            · exact hnow name hreg
            · cases hsame
              exact hlater name hreg
          · exact fun h => ⟨fun name hreg => h name (.inl hreg),
              fun name hreg => h name (.inr ⟨result, t, rfl, hreg⟩)⟩
        dsimp only
        generalize registerAll cfg m overwrite dryRun items t = others at hrest
        obtain ⟨_ | results, u⟩ := others
        · exact hrest
        · exact hrest

/-! ## The sync -/

/-- The registry client comes up for this request. -/
structure Connects (m : Meets) (extra : Fields) (request : ℕ) : Prop where
  available : m.registryAvailable = true
  url : ((extra.lookup "registry_url").getD (.str "")).truthy = true
  pin : ∃ pin, (extra.lookup "registry_pin").getD (.str m.registryPin) = .str pin
  /-- The agent's own keypair is there. -/
  keypair : if (Json.get "private_key_path" extra).truthy then
      m.keyAt (Json.get "private_key_path" extra) = .ok ()
    else ∃ key, m.generate (m.agentName.getD "hermes-agent") = .ok key
  client : m.client request = .ok ()

theorem ownKeypair_spec (m : Meets) (extra : Fields) (s : State) :
    (ownKeypair m extra s).2.acts = s.acts ∧ ((ownKeypair m extra s).1 = .ok () ↔
      if (Json.get "private_key_path" extra).truthy then
        m.keyAt (Json.get "private_key_path" extra) = .ok ()
      else ∃ key, m.generate (m.agentName.getD "hermes-agent") = .ok key) := by
  unfold ownKeypair
  split_ifs with hpath
  · exact ⟨rfl, Iff.rfl⟩
  · unfold loadOrGenerateKeypair
    cases m.generate (m.agentName.getD "hermes-agent") with
    | error e => simp
    | ok key => simp

theorem registryClient_spec (m : Meets) (extra : Fields) (request : ℕ) (s : State) :
    (registryClient m extra request s).2.acts = s.acts ∧
      ((registryClient m extra request s).1 = .ok () ↔ Connects m extra request) := by
  unfold registryClient
  split_ifs with havailable hurl
  · refine ⟨rfl, iff_of_false nofun fun h => ?_⟩
    rw [h.available] at havailable
    cases havailable
  · refine ⟨rfl, iff_of_false nofun fun h => ?_⟩
    rw [h.url] at hurl
    cases hurl
  · split
    · rename_i pin hpin
      obtain ⟨hacts, hok⟩ := ownKeypair_spec m extra s
      generalize ownKeypair m extra s = own at hacts hok
      obtain ⟨_ | _, t⟩ := own
      · exact ⟨hacts, iff_of_false nofun fun h => by cases hok.mpr h.keypair⟩
      · refine ⟨hacts, fun h => ⟨by simpa using havailable, by simpa using hurl, ⟨pin, hpin⟩,
          hok.mp rfl, h⟩, Connects.client⟩
    · rename_i hpin
      exact ⟨rfl, iff_of_false nofun fun h => by
        obtain ⟨pin, h⟩ := h.pin
        exact hpin pin h⟩

/-- The registry is there, and knows the peer. -/
def Confirms (m : Meets) (extra : Fields) (request : ℕ) : Prop :=
  Connects m extra request ∧ ∃ peer, m.getPeer request = .ok (some peer)

theorem getPeer_spec (m : Meets) (extra : Fields) (request : ℕ) (s : State) :
    (getPeer m extra request s).2.acts = s.acts ∧
      ((∃ peer, (getPeer m extra request s).1 = .ok (some peer)) ↔ Confirms m extra request) := by
  obtain ⟨hacts, hok⟩ := registryClient_spec m extra request s
  unfold getPeer Confirms
  rw [← hok]
  generalize registryClient m extra request s = made at hacts
  obtain ⟨_ | _, t⟩ := made
  · exact ⟨hacts, by simp⟩
  · exact ⟨hacts, by simp⟩

/-- `sync_peer`: where the registry knows the peer and the file opens, the key must be harmless. -/
theorem syncPeer_adds (cfg : Config) (m : Meets) (extra : Fields) (request : ℕ) (name : String)
    (s : State) :
    Adds cfg (Confirms m extra request → Opens cfg m (keyOf cfg name) →
      Harmless cfg (keyOf cfg name)) s (syncPeer cfg m extra request name s).2 := by
  obtain ⟨hacts, hconfirms⟩ := getPeer_spec m extra request s
  unfold syncPeer
  rw [← hconfirms]
  generalize getPeer m extra request s = got at hacts
  obtain ⟨_ | _ | peer, t⟩ := got
  · exact (Adds.of_acts hacts).congr (by simp)
  · exact (Adds.of_acts hacts).congr (by simp)
  · dsimp only
    generalize identityOf name _ _ peer.url peer.publicKey = identity
    have hwrite := (writeAgentIdentity_adds cfg m name identity t).after hacts
    generalize writeAgentIdentity cfg m name identity t = written at hwrite
    have hmet : (Opens cfg m (keyOf cfg name) → Harmless cfg (keyOf cfg name)) ↔
        ((∃ peer', (Except.ok (some peer) : Except PyError (Option PeerInfo)) = .ok (some peer')) →
          Opens cfg m (keyOf cfg name) → Harmless cfg (keyOf cfg name)) :=
      (imp_iff_right ⟨peer, rfl⟩).symm
    obtain ⟨_ | path, u⟩ := written
    · exact hwrite.congr hmet
    · exact hwrite.congr hmet

theorem syncAll_adds (cfg : Config) (m : Meets) (extra : Fields) (request : ℕ) (names : List String)
    (s : State) :
    Adds cfg (∀ k name, names[k]? = some name → Confirms m extra (request + k) →
      Opens cfg m (keyOf cfg name) → Harmless cfg (keyOf cfg name)) s
        (syncAll cfg m extra request names s).2 := by
  induction names generalizing request s with
  | nil => exact (Adds.of_acts rfl).congr (by simp)
  | cons name names ih =>
    have hfirst := syncPeer_adds cfg m extra request name s
    unfold syncAll
    generalize syncPeer cfg m extra request name s = synced at hfirst
    obtain ⟨result, t⟩ := synced
    have hrest := hfirst.trans (ih (request + 1) t)
    dsimp only
    generalize syncAll cfg m extra (request + 1) names t = others at hrest
    obtain ⟨results, u⟩ := others
    have hsplit := hrest.congr (q := ∀ k name', (name :: names)[k]? = some name' →
        Confirms m extra (request + k) → Opens cfg m (keyOf cfg name') →
          Harmless cfg (keyOf cfg name')) <| by
      constructor
      · rintro ⟨hnow, hlater⟩ k name' hk
        cases k with
        | zero =>
          obtain rfl := Option.some.inj hk
          exact hnow
        | succ k =>
          have := hlater k name' hk
          rwa [Nat.add_right_comm, Nat.add_assoc] at this
      · refine fun h => ⟨h 0 name rfl, fun k name' hk => ?_⟩
        have := h (k + 1) name' hk
        rwa [← Nat.add_assoc, Nat.add_right_comm] at this
    cases result with
    | error e => exact hsplit
    | ok result => exact hsplit

/-! ## One call -/

def Call.merged (call : Call) : Fields := call.kwargs ++ call.args

/-- The call comes to a write or a removal, under this key. -/
inductive Call.Takes (cfg : Config) (s : State) (call : Call) : String → Prop
  | register {name : String} (htool : call.tool = .register)
      (hone : ∀ item items, Json.get "bulk" call.merged ≠ .arr (item :: items))
      (hregisters : Registers cfg call.meets call.merged (Json.get "overwrite" call.merged).truthy
        (Json.get "dry_run" call.merged).truthy s name) : Takes cfg s call (keyOf cfg name)
  | bulk {name : String} {items : List Json} (htool : call.tool = .register)
      (hbulk : Json.get "bulk" call.merged = .arr items)
      (hregisters : BulkRegisters cfg call.meets (Json.get "overwrite" call.merged).truthy
        (Json.get "dry_run" call.merged).truthy items s name) : Takes cfg s call (keyOf cfg name)
  | deregister {name : String} (htool : call.tool = .deregister)
      (hgiven : (nameOr call.meets call.merged).truthy = true)
      (hname : agentName cfg (nameOr call.meets call.merged) = .ok name)
      (hexists : call.meets.exists_ (cfg.agentsRoot.join name.toList) = true) : Takes cfg s call name
  /-- The sync of one agent. -/
  | sync {name : String} {extra : Fields} (htool : call.tool = .sync)
      (hgiven : (Json.get "name" call.merged).truthy = true)
      (hname : agentName cfg (Json.get "name" call.merged) = .ok name)
      (hextra : syncExtra call.meets call.merged = .ok extra)
      (hconfirms : Confirms call.meets extra 0) (hopens : Opens cfg call.meets (keyOf cfg name)) :
      Takes cfg s call (keyOf cfg name)
  /-- The sync of all peers: the registry lists the name. -/
  | syncAll {name : String} {extra : Fields} {names : List String} {k : ℕ} (htool : call.tool = .sync)
      (heveryone : (Json.get "name" call.merged).truthy = false)
      (hextra : syncExtra call.meets call.merged = .ok extra)
      (hconnects : Connects call.meets extra 0) (hlists : call.meets.listPeers = .ok names)
      (hlisted : names[k]? = some name) (hconfirms : Confirms call.meets extra (1 + k))
      (hopens : Opens cfg call.meets (keyOf cfg name)) : Takes cfg s call (keyOf cfg name)

/-- Every key under which the call writes or removes is harmless. -/
def Call.Harmless (cfg : Config) (s : State) (call : Call) : Prop :=
  ∀ key, call.Takes cfg s key → Vault.Harmless cfg key

theorem handleMeshRegister_adds {call : Call} (htool : call.tool = .register) (s : State) :
    Adds cfg (call.Harmless cfg s) s (handleMeshRegister cfg call.meets call.args call.kwargs s).2 := by
  have hother : ∀ tool, tool ≠ .register → call.tool ≠ tool := by
    rintro tool hne rfl
    exact hne htool
  unfold handleMeshRegister
  dsimp only
  split
  · rename_i item items hbulk
    have hall := (@registerAll_adds cfg call.meets
      (Json.get "overwrite" (call.kwargs ++ call.args)).truthy
      (Json.get "dry_run" (call.kwargs ++ call.args)).truthy (item :: items) s).congr
        (q := call.Harmless cfg s) <| by
      refine ⟨fun h key htakes => ?_, fun h name hreg => h _ (.bulk htool hbulk hreg)⟩
      cases htakes with
      | register _ hone => exact absurd hbulk (hone item items)
      | bulk _ hbulk' hreg =>
        cases hbulk.symm.trans hbulk'
        exact h _ hreg
      | deregister htool' => exact absurd htool' (hother _ (by decide))
      | sync htool' | syncAll htool' => exact absurd htool' (hother _ (by decide))
    split
    · rename_i hresults
      rwa [hresults] at hall
    · rename_i hresults
      rwa [hresults] at hall
  · rename_i hsingle
    refine (registerOne_adds (call.kwargs ++ call.args) _ _ s).congr
      ⟨fun h key htakes => ?_, fun h name hreg => h _ (.register htool hsingle hreg)⟩
    cases htakes with
    | register _ _ hreg => exact h _ hreg
    | @bulk name items _ hbulk hreg =>
      cases items with
      | nil => exact absurd hreg (not_bulkRegisters nofun)
      | cons item items => exact absurd hbulk (hsingle item items)
    | deregister htool' => exact absurd htool' (hother _ (by decide))
    | sync htool' | syncAll htool' => exact absurd htool' (hother _ (by decide))

theorem handleMeshDeregister_adds {call : Call} (htool : call.tool = .deregister) (s : State) :
    Adds cfg (call.Harmless cfg s) s
      (handleMeshDeregister cfg call.meets call.args call.kwargs s).2 := by
  -- a call that stops before the removal adds nothing
  have hstops : (∀ name, (nameOr call.meets call.merged).truthy = true →
        agentName cfg (nameOr call.meets call.merged) = .ok name →
          call.meets.exists_ (cfg.agentsRoot.join name.toList) = false) →
      Adds cfg (call.Harmless cfg s) s s := by
    refine fun hnone => (Adds.of_acts rfl).congr (iff_of_true trivial fun key htakes => ?_)
    cases htakes with
    | deregister _ hgiven hname hexists => cases (hnone _ hgiven hname).symm.trans hexists
    | register htool' | bulk htool' | sync htool' | syncAll htool' => cases htool.symm.trans htool'
  unfold handleMeshDeregister
  dsimp only
  split_ifs with hgiven
  · exact hstops fun name hgiven' => by
      rw [show (nameOr call.meets (call.kwargs ++ call.args)).truthy = true from hgiven'] at hgiven
      cases hgiven
  · split
    · rename_i text hname
      exact hstops fun name _ hname' => by cases hname.symm.trans hname'
    · rename_i e _ hname
      exact hstops fun name _ hname' => by cases hname.symm.trans hname'
    · rename_i name hname
      split_ifs with hexists
      · refine hstops fun name' _ hname' => ?_
        obtain rfl : name = name' := Except.ok.inj (hname.symm.trans hname')
        simpa using hexists
      · have hgiven' : (nameOr call.meets (call.kwargs ++ call.args)).truthy = true := by
          simpa using hgiven
        have hcond : Inside cfg (.removes (cfg.agentsRoot.join name.toList)) ↔
            call.Harmless cfg s := by
          rw [inside_removes_iff]
          refine ⟨fun h key htakes => ?_, fun h => h name
            (.deregister htool hgiven' hname (by simpa using hexists))⟩
          cases htakes with
          | deregister _ _ hname' _ =>
            obtain rfl := Except.ok.inj (hname.symm.trans hname')
            exact h
          | register htool' | bulk htool' | sync htool' | syncAll htool' =>
            cases htool.symm.trans htool'
        split
        · exact (Adds.cons rfl).congr hcond
        · exact (Adds.cons rfl).congr hcond

theorem syncPeers_adds {call : Call} (htool : call.tool = .sync)
    (hall : (Json.get "name" call.merged).truthy = false)
    (hextra : syncExtra call.meets call.merged = .ok extra) (s : State) :
    Adds cfg (call.Harmless cfg s) s (syncPeers cfg call.meets extra s).2 := by
  obtain ⟨hacts, hok⟩ := registryClient_spec call.meets extra 0 s
  -- what a sync of all peers can take
  have htakes : call.Harmless cfg s ↔ ∀ names k name, Connects call.meets extra 0 →
      call.meets.listPeers = .ok names → names[k]? = some name → Confirms call.meets extra (1 + k) →
        Opens cfg call.meets (keyOf cfg name) → Harmless cfg (keyOf cfg name) := by
    refine ⟨fun h names k name hconnects hlists hlisted hconfirms hopens => h _
      (.syncAll htool hall hextra hconnects hlists hlisted hconfirms hopens), fun h key htakes => ?_⟩
    cases htakes with
    | syncAll _ _ hextra' hconnects hlists hlisted hconfirms hopens =>
      obtain rfl := Except.ok.inj (hextra.symm.trans hextra')
      exact h _ _ _ hconnects hlists hlisted hconfirms hopens
    | sync _ hgiven => cases hall.symm.trans hgiven
    | register htool' | bulk htool' | deregister htool' => cases htool.symm.trans htool'
  rw [htakes]
  unfold syncPeers listPeers
  generalize registryClient call.meets extra 0 s = made at hacts hok
  obtain ⟨e | _, t⟩ := made
  · exact (Adds.of_acts hacts).congr (iff_of_true trivial fun _ _ _ hconnects => by
      cases hok.mpr hconnects)
  · have hconnects : Connects call.meets extra 0 := hok.mp rfl
    dsimp only
    cases hlist : call.meets.listPeers with
    | error e => exact (Adds.of_acts hacts).congr (iff_of_true trivial fun _ _ _ _ => nofun)
    | ok names =>
      refine ((syncAll_adds cfg call.meets extra 1 names t).after hacts).congr
        ⟨fun h names' k name _ hlists hlisted => ?_, fun h k name hlisted =>
          h names k name hconnects rfl hlisted⟩
      obtain rfl := Except.ok.inj hlists
      exact h k name hlisted

theorem handleMeshSync_adds {call : Call} (htool : call.tool = .sync) (s : State) :
    Adds cfg (call.Harmless cfg s) s (handleMeshSync cfg call.meets call.args call.kwargs s).2 := by
  have hsame : (∀ key, ¬ call.Takes cfg s key) → Adds cfg (call.Harmless cfg s) s s := fun h =>
    (Adds.of_acts rfl).congr (iff_of_true trivial fun key htakes => absurd htakes (h key))
  unfold handleMeshSync
  dsimp only
  cases hextra : syncExtra call.meets (call.kwargs ++ call.args) with
  | error e =>
    refine hsame fun key htakes => ?_
    cases htakes with
    | sync _ _ _ hextra' | syncAll _ _ hextra' => cases hextra.symm.trans hextra'
    | register htool' | bulk htool' | deregister htool' => cases htool.symm.trans htool'
  | ok extra =>
    dsimp only
    cases hgiven : (Json.get "name" (call.kwargs ++ call.args)).truthy with
    | false => exact syncPeers_adds htool hgiven hextra s
    | true =>
      -- what a sync of one agent can take
      have hone : ∀ key, call.Takes cfg s key → ∃ name, key = keyOf cfg name ∧
          agentName cfg (Json.get "name" (call.kwargs ++ call.args)) = .ok name ∧
            Confirms call.meets extra 0 ∧ Opens cfg call.meets (keyOf cfg name) := by
        intro key htakes
        cases htakes with
        | sync _ _ hname hextra' hconfirms hopens =>
          obtain rfl := Except.ok.inj (hextra.symm.trans hextra')
          exact ⟨_, rfl, hname, hconfirms, hopens⟩
        | syncAll _ heveryone => cases hgiven.symm.trans heveryone
        | register htool' | bulk htool' | deregister htool' => cases htool.symm.trans htool'
      rw [if_neg (by decide)]
      split
      · rename_i text hname
        refine hsame fun key htakes => ?_
        obtain ⟨name, -, hname', -⟩ := hone key htakes
        cases hname.symm.trans hname'
      · rename_i e _ hname
        refine hsame fun key htakes => ?_
        obtain ⟨name, -, hname', -⟩ := hone key htakes
        cases hname.symm.trans hname'
      · rename_i name hname
        have hpeer := (syncPeer_adds cfg call.meets extra 0 name s).congr (q := call.Harmless cfg s) <| by
          refine ⟨fun h key htakes => ?_, fun h hconfirms hopens => h _
            (.sync htool hgiven hname hextra hconfirms hopens)⟩
          obtain ⟨name', rfl, hname', hconfirms, hopens⟩ := hone key htakes
          obtain rfl := Except.ok.inj (hname.symm.trans hname')
          exact h hconfirms hopens
        generalize syncPeer cfg call.meets extra 0 name s = synced at hpeer
        obtain ⟨_ | answer, t⟩ := synced
        · exact hpeer
        · exact hpeer

/-! ## Every sequence of calls -/

/-- **One call.** It stays inside exactly where every key that it takes is harmless. -/
theorem step_adds {call : Call} (h : step cfg s call = some t) : Adds cfg (call.Harmless cfg s) s t := by
  obtain rfl := Option.some.inj h
  unfold Call.run
  split
  · rename_i htool
    exact handleMeshRegister_adds htool s
  · rename_i htool
    exact handleMeshDeregister_adds htool s
  · rename_i htool
    exact handleMeshSync_adds htool s

theorem run_adds {calls : List Call} (h : Run (step cfg) Free s calls t) :
    Adds cfg (Run (step cfg) (fun s call => call.Harmless cfg s) s calls t) s t := by
  induction h with
  | nil s => exact (Adds.of_acts rfl).congr (iff_of_true trivial (.nil s))
  | cons _ hstep _ ih =>
    refine ((step_adds hstep).trans ih).congr ⟨fun ⟨hsafe, hrest⟩ => .cons hsafe hstep hrest, ?_⟩
    intro hrun
    cases hrun with
    | cons hsafe hstep' hrest =>
      obtain rfl := Option.some.inj (hstep.symm.trans hstep')
      exact ⟨hsafe, hrest⟩

/-- **Writes stay inside the vault.** After any sequence of calls of the three tools every file that
was opened for writing and every directory that was removed belongs to an agent with a name that the
validator accepts, exactly where each key under which a call comes to a write or a removal is harmless:
as a path it is such a name, or the absolute path of such an agent's directory. -/
theorem identity_writes_inside_iff {calls : List Call} (h0 : s.acts = [])
    (h : Run (step cfg) Free s calls t) :
    (∀ act ∈ t.acts, Inside cfg act) ↔
      Run (step cfg) (fun s call => call.Harmless cfg s) s calls t := by
  have hadds := run_adds h
  unfold Adds at hadds
  rw [hadds, h0]
  exact and_iff_right nofun

/-! ## A registry that lists a path -/

/-- A vault under `/fleet`. -/
def fleet : Config := { fleetRoot := PosixPath.parse "/fleet".toList }

/-- Every host has one public address. -/
def publicNet : String → Except String (List Ip) := fun _ => .ok [{ text := "203.0.113.1" }]

def registersAs (name : String) : Call where
  tool := .register
  args := [("name", .str name), ("url", .str "https://vera.example/hook")]
  meets := { resolve := publicNet }

def registersVera : Call := registersAs " Vera"

/-- A sync of all peers with a registry that lists this name. -/
def syncs (name : String) : Call where
  tool := .sync
  args := [("registry_url", .str "https://registry.example")]
  meets :=
    { resolve := publicNet
      listPeers := .ok [name]
      getPeer := fun _ => .ok (some {}) }

def deregistersVera : Call where
  tool := .deregister
  args := [("name", .str "VERA")]
  meets := { resolve := publicNet }

theorem identity_writes_inside_iff_vera :
    ∃ t, Run (step fleet) Free {} [registersVera, syncs "Zero", deregistersVera] t ∧
      t.acts = [.removes (fleet.agentsRoot.join "vera".toList), .writes (fleet.identityFile "zero"),
        .writes (fleet.identityFile "vera")] ∧
      ((∀ act ∈ t.acts, Inside fleet act) ↔
        Run (step fleet) (fun s call => call.Harmless fleet s) {}
          [registersVera, syncs "Zero", deregistersVera] t) := by
  obtain ⟨t, ht, hacts⟩ : ∃ t, exec (step fleet) {} [registersVera, syncs "Zero", deregistersVera] =
      some t ∧ t.acts = [.removes (fleet.agentsRoot.join "vera".toList),
        .writes (fleet.identityFile "zero"), .writes (fleet.identityFile "vera")] :=
    ⟨_, rfl, by decide +kernel⟩
  have hrun := run_of_exec ht
  exact ⟨t, hrun, hacts, identity_writes_inside_iff rfl hrun⟩

/-- The registry lists `../../evil`, and the file is written beside the vault. -/
theorem peer_name_leaves_vault :
    ∃ t, Run (step fleet) Free {} [syncs "../../evil"] t ∧ ∃ act ∈ t.acts, ¬ Inside fleet act := by
  obtain ⟨t, ht, hacts⟩ : ∃ t, exec (step fleet) {} [syncs "../../evil"] = some t ∧
      t.acts = [.writes (fleet.identityFile "../../evil")] := ⟨_, rfl, by decide +kernel⟩
  refine ⟨t, run_of_exec ht, _, hacts ▸ List.mem_singleton_self _, fun hinside => ?_⟩
  obtain ⟨name, hname, hparse | ⟨hroot, -⟩⟩ := inside_writes_iff.mp hinside
  · obtain ⟨c, hc⟩ := hname.validated.component
    have hlength : (PosixPath.parse "../../evil".toList).parts.length = 1 := by
      rw [hparse, ← hc, PosixPath.parse_component]
      rfl
    exact absurd hlength (by decide)
  · exact hroot (by decide)

/-- A registration with a dotted capital I writes under a name that the validator refuses. -/
theorem dotted_name_written :
    ∃ t, Run (step fleet) Free {} [registersAs "\u0130ris"] t ∧ ∃ act ∈ t.acts, ¬ Inside fleet act := by
  obtain ⟨t, ht, hacts⟩ : ∃ t, exec (step fleet) {} [registersAs "\u0130ris"] = some t ∧
      t.acts = [.writes (fleet.identityFile "i\u0307ris")] := ⟨_, rfl, by decide +kernel⟩
  refine ⟨t, run_of_exec ht, _, hacts ▸ List.mem_singleton_self _, fun hinside => ?_⟩
  have hvalidated : Validated fleet "i\u0307ris" := ⟨"\u0130ris", by decide +kernel⟩
  have hagain : validateAgentName fleet.repr "i\u0307ris" ≠ .ok "i\u0307ris" := by decide +kernel
  exact hagain (hvalidated.harmless_iff.mp (inside_writes_iff.mp hinside))

end HermesMesh.Vault
