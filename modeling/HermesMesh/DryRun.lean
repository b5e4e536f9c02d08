import HermesMesh.VaultWrites

/-!
# The dry run of a registration

With `dry_run` the answer comes after the key has been chosen and before the check for an identity that
is already there. So a dry run generates the keypair of a new agent, and it says yes to what the real
call refuses. `dry_run_iff` says for which requests it changes nothing and foretells the real call: the
items are taken in order, and each one that names a key needs a free place or `overwrite`, each one
without a key a place that is taken.
-/

namespace HermesMesh.Vault

open Lib (Component PosixPath)

/-! ## The two runs -/

/-- The items of a request. -/
def requested (merged : Fields) : List Json :=
  match Json.get "bulk" merged with
  | .arr (item :: items) => item :: items
  | _ => [.obj merged]

def itemFields : Json → Fields
  | .obj fields => fields
  | _ => []

/-- Which items are answered with a yes to `key`; a call that raises answers nothing. -/
def answers (key : String) : Except PyError Fields → List Bool
  | .error _ => []
  | .ok answer =>
    match Json.get "results" answer with
    | .arr results => results.map fun result => (Json.get key (itemFields result)).truthy
    | _ => [(Json.get key answer).truthy]

/-- Every write succeeds, and every generation of a keypair. -/
def Meets.succeeding (m : Meets) (fresh : String → String) : Meets :=
  { m with
    mkdir := fun _ => .ok ()
    openFile := fun _ => .ok ()
    dump := fun identity => (identity, .ok ())
    generate := fun name => .ok (fresh name) }

/-- The request with `dry_run`. -/
def dryRun (cfg : Config) (m : Meets) (args kwargs : Fields) (s : State) :
    Except PyError Fields × State :=
  handleMeshRegister cfg m args (("dry_run", .bool true) :: kwargs) s

/-- The same request without it, where all goes well. -/
def realRun (cfg : Config) (m : Meets) (fresh : String → String) (args kwargs : Fields) (s : State) :
    Except PyError Fields × State :=
  handleMeshRegister cfg (m.succeeding fresh) args (("dry_run", .bool false) :: kwargs) s

/-- **A faithful dry run** changes nothing, and promises the registrations that the real run makes. -/
structure Faithful (cfg : Config) (m : Meets) (fresh : String → String) (args kwargs : Fields)
    (s : State) : Prop where
  frame : (dryRun cfg m args kwargs s).2 = s
  predicts : answers "would_register" (dryRun cfg m args kwargs s).1 =
    answers "registered" (realRun cfg m fresh args kwargs s).1

/-! ## The items -/

/-- The checks before the key, which read no state: the item raises, is refused, or passes under a
name. -/
def screened (cfg : Config) (m : Meets) (item : Fields) : Except PyError (Except String String) :=
  if !(nameOr m item).truthy then .ok (.error "'name' is required (or set MESH_AGENT_NAME)")
  else
    match agentName cfg (nameOr m item) with
    | .error (.valueError text) => .ok (.error text)
    | .error e => .error e
    | .ok name => (checkUrl m ((item.lookup "url").getD (.str ""))).map (·.map fun () => name)

def screen (cfg : Config) (m : Meets) : Json → Except PyError (Except String String)
  | .obj item => screened cfg m item
  | _ => .error (.other "not a mapping")

def Raises (cfg : Config) (m : Meets) (item : Json) : Prop := ∃ e, screen cfg m item = .error e

def Passes (cfg : Config) (m : Meets) (item : Json) (name : String) : Prop :=
  screen cfg m item = .ok (.ok name)

/-- The item has a key, or there is a keypair that can be read. -/
def Keyed (m : Meets) (s : State) (item : Json) (name : String) : Prop :=
  (((itemFields item).lookup "public_key").getD (.str "")).truthy = true ∨
    existingPublicKey m name s ≠ ""

/-- There is an identity under the name. -/
def Held (cfg : Config) (m : Meets) (s : State) (name : String) : Prop :=
  (getRawAgentIdentity cfg m name s).truthy = true

/-- There is one, or one of the earlier items that have a key has made one. -/
def Taken (cfg : Config) (m : Meets) (s : State) (before : List Json) (name : String) : Prop :=
  Held cfg m s name ∨ ∃ earlier ∈ before, Passes cfg m earlier name ∧ Keyed m s earlier name

/-- The item makes the dry run generate a keypair. -/
def Mints (cfg : Config) (m : Meets) (s : State) (item : Json) : Prop :=
  ∃ name key, Passes cfg m item name ∧ ¬ Keyed m s item name ∧ ¬ Held cfg m s name ∧
    m.generate name = .ok key

/-- After these items, the dry run foretells what becomes of this one. -/
def Foreseen (cfg : Config) (m : Meets) (s : State) (overwrite : Bool) (before : List Json)
    (item : Json) : Prop :=
  ∀ name, Passes cfg m item name →
    (Keyed m s item name → overwrite = true ∨ ¬ Taken cfg m s before name) ∧
      (¬ Keyed m s item name → Taken cfg m s before name)

/-- The condition: no item that is reached makes the dry run generate a keypair, and if none raises,
what becomes of each is foreseen. -/
structure Predictable (cfg : Config) (m : Meets) (overwrite : Bool) (items : List Json) (s : State) :
    Prop where
  mintless : ∀ before item after, items = before ++ item :: after →
    (∀ earlier ∈ before, ¬ Raises cfg m earlier) → ¬ Mints cfg m s item
  foreseen : (∀ item ∈ items, ¬ Raises cfg m item) → ∀ before item after,
    items = before ++ item :: after → Foreseen cfg m s overwrite before item

/-- What is relied on of the loader: a load reads its own file, and a mapping in it is loaded as it
is. -/
structure Loads (m : Meets) : Prop where
  own : ∀ files files' path, files path = files' path → m.load files path = m.load files' path
  stored : ∀ files path fields, files path = some (.obj fields) →
    m.load files path = .obj fields

variable {cfg : Config} {m : Meets} {fresh : String → String} {s t : State} {item : Json}
  {name : String} {overwrite dry : Bool} {before items : List Json}

/-! ## One item -/

/-- `_register_one` behind the checks. -/
def registerAs (cfg : Config) (m : Meets) (item : Json) (name : String) (overwrite dryRun : Bool)
    (s : State) : Except PyError Fields × State :=
  match chooseKey cfg m name (((itemFields item).lookup "public_key").getD (.str "")) s with
  | (.error text, s) => (.ok (refused text), s)
  | (.ok publicKey, s) =>
    if dryRun then
      (.ok [("registered", .bool false), ("dry_run", .bool true), ("would_register", .bool true),
        ("name", .str name)], s)
    else if !overwrite && (getRawAgentIdentity cfg m name s).truthy then
      (.ok (refused ("Agent '" ++ name ++ "' already exists; set overwrite=True to replace")), s)
    else
      let item := itemFields item
      let role := if (Json.get "role" item).truthy then Json.get "role" item else .str "agent"
      let description := (item.lookup "description").getD (.str "")
      match writeAgentIdentity cfg m name (identityOf name description role
        ((item.lookup "url").getD (.str "")) publicKey) s with
      | (.error e, s) => (.ok (refused ("Failed to write identity: " ++ e.text)), s)
      | (.ok path, s) =>
        (.ok [("registered", .bool true), ("name", .str name), ("path", .str path.text)], s)

/-- One item of a bulk registration. -/
def registerItem (cfg : Config) (m : Meets) (item : Json) (overwrite dryRun : Bool) (s : State) :
    Except PyError Fields × State :=
  match item with
  | .obj item => registerOne cfg m item overwrite dryRun s
  | _ => (.error (.other "not a mapping"), s)

theorem registerItem_screen (cfg : Config) (m : Meets) (item : Json) (overwrite dry : Bool)
    (s : State) : registerItem cfg m item overwrite dry s =
      match screen cfg m item with
      | .error e => (.error e, s)
      | .ok (.error text) => (.ok (refused text), s)
      | .ok (.ok name) => registerAs cfg m item name overwrite dry s := by
  cases item with
  | null | bool _ | num _ | str _ | arr _ => rfl
  | obj item =>
    show registerOne cfg m item overwrite dry s = match screened cfg m item with
      | .error e => (.error e, s)
      | .ok (.error text) => (.ok (refused text), s)
      | .ok (.ok name) => registerAs cfg m (.obj item) name overwrite dry s
    unfold registerOne screened
    split_ifs
    · rfl
    · cases agentName cfg (nameOr m item) with
      | error e => cases e <;> rfl
      | ok name =>
        unfold registerNamed
        dsimp only
        rcases checkUrl m ((item.lookup "url").getD (.str "")) with e | text | _
        · rfl
        · rfl
        · show _ = registerAs cfg m (.obj item) name overwrite dry s
          generalize hreal : registerAs cfg m (.obj item) name overwrite dry s = real
          unfold registerAs itemFields at hreal
          dsimp only at hreal
          subst hreal
          rcases chooseKey cfg m name ((item.lookup "public_key").getD (.str "")) s with ⟨text | key, t⟩
          · rfl
          · refine if_congr Iff.rfl rfl (if_congr Iff.rfl rfl ?_)
            generalize writeAgentIdentity cfg m name _ t = written
            rcases written with ⟨e | path, u⟩ <;> rfl

theorem registerAll_cons (cfg : Config) (m : Meets) (item : Json) (items : List Json)
    (overwrite dry : Bool) (s : State) : registerAll cfg m overwrite dry (item :: items) s =
      match registerItem cfg m item overwrite dry s with
      | (.error e, s) => (.error e, s)
      | (.ok result, s) =>
        match registerAll cfg m overwrite dry items s with
        | (.error e, s) => (.error e, s)
        | (.ok results, s) => (.ok (result :: results), s) := by
  cases item with
  | null | bool _ | num _ | str _ | arr _ => rfl
  | obj item => rfl

theorem registerAll_error {e : PyError}
    (hitem : registerItem cfg m item overwrite dry s = (.error e, t)) :
    registerAll cfg m overwrite dry (item :: items) s = (.error e, t) := by
  rw [registerAll_cons, hitem]

theorem registerAll_ok {result : Fields}
    (hitem : registerItem cfg m item overwrite dry s = (.ok result, t)) :
    registerAll cfg m overwrite dry (item :: items) s =
      ((registerAll cfg m overwrite dry items t).1.map (result :: ·),
        (registerAll cfg m overwrite dry items t).2) := by
  rw [registerAll_cons, hitem]
  dsimp only
  generalize registerAll cfg m overwrite dry items t = others
  obtain ⟨_ | results, u⟩ := others
  · rfl
  · rfl

theorem Passes.validated (h : Passes cfg m item name) : Validated cfg name := by
  cases item with
  | null | bool _ | num _ | str _ | arr _ => cases h
  | obj item =>
    change screened cfg m item = _ at h
    unfold screened at h
    split_ifs at h
    · cases h
    · split at h
      · cases h
      · cases h
      · rename_i name' hname
        rcases hurl : checkUrl m ((item.lookup "url").getD (.str "")) with e | text | _
        · rw [hurl] at h
          cases h
        · rw [hurl] at h
          cases h
        · rw [hurl] at h
          obtain rfl := Except.ok.inj (Except.ok.inj h)
          exact agentName_ok hname

theorem Passes.unique {other : String} (h : Passes cfg m item name) (h' : Passes cfg m item other) :
    name = other := Except.ok.inj (Except.ok.inj (h.symm.trans h'))

theorem Passes.exists_iff (h : Passes cfg m item name) {P : String → Prop} :
    (∃ other, Passes cfg m item other ∧ P other) ↔ P name :=
  ⟨fun ⟨_, hother, hP⟩ => h.unique hother ▸ hP, fun hP => ⟨name, h, hP⟩⟩

theorem Passes.forall_iff (h : Passes cfg m item name) {P : String → Prop} :
    (∀ other, Passes cfg m item other → P other) ↔ P name :=
  ⟨fun hall => hall name h, fun hP _ hother => h.unique hother ▸ hP⟩

theorem Passes.not_raises (h : Passes cfg m item name) : ¬ Raises cfg m item := by
  rintro ⟨e, he⟩
  cases he.symm.trans h

/-- An item that does not raise is refused or passes. -/
theorem refused_or_passes (h : ¬ Raises cfg m item) :
    (∃ text, screen cfg m item = .ok (.error text)) ∨ ∃ name, Passes cfg m item name := by
  unfold Passes
  rcases hscreen : screen cfg m item with e | text | name
  · exact absurd ⟨e, hscreen⟩ h
  · exact .inl ⟨text, rfl⟩
  · exact .inr ⟨name, rfl⟩

theorem checkUrl_succeeding (m : Meets) (fresh : String → String) (url : Json) :
    checkUrl (m.succeeding fresh) url = checkUrl m url := by
  unfold checkUrl
  dsimp only [Meets.succeeding]

/-- The checks are the same where all goes well. -/
theorem screen_succeeding (cfg : Config) (m : Meets) (fresh : String → String) (item : Json) :
    screen cfg (m.succeeding fresh) item = screen cfg m item := by
  cases item with
  | null | bool _ | num _ | str _ | arr _ => rfl
  | obj item =>
    have hname : nameOr (m.succeeding fresh) item = nameOr m item := rfl
    unfold screen screened
    dsimp only
    rw [hname, checkUrl_succeeding]

theorem raises_succeeding (cfg : Config) (m : Meets) (fresh : String → String) (item : Json) :
    Raises cfg (m.succeeding fresh) item ↔ Raises cfg m item := by
  unfold Raises
  rw [screen_succeeding]

/-! ## The key -/

/-- The state after a generation. -/
def State.minted (s : State) (name key : String) : State :=
  { s with keys := fun name' => if name' = name then some key else s.keys name' }

theorem chooseKey_keyed (cfg : Config) (h : Keyed m s item name) : ∃ key,
    chooseKey cfg m name (((itemFields item).lookup "public_key").getD (.str "")) s =
      (.ok key, s) := by
  unfold chooseKey
  split_ifs with hgiven hexisting
  · exact ⟨_, rfl⟩
  · exact ⟨_, rfl⟩
  · exact absurd h (not_or.mpr ⟨hgiven, hexisting⟩)
  · exact absurd h (not_or.mpr ⟨hgiven, hexisting⟩)

theorem chooseKey_trap (h : ¬ Keyed m s item name) (hheld : Held cfg m s name) : ∃ text,
    chooseKey cfg m name (((itemFields item).lookup "public_key").getD (.str "")) s =
      (.error text, s) := by
  obtain ⟨hgiven, hexisting⟩ := not_or.mp h
  unfold Held at hheld
  unfold chooseKey
  rw [if_neg hgiven, if_neg hexisting, if_pos hheld]
  exact ⟨_, rfl⟩

/-- Without a key, and without an identity, one is generated. -/
theorem chooseKey_generates (h : ¬ Keyed m s item name) (hheld : ¬ Held cfg m s name) :
    chooseKey cfg m name (((itemFields item).lookup "public_key").getD (.str "")) s =
      match m.generate name with
      | .ok key => (.ok (.str key), s.minted name key)
      | .error e =>
        (.error ("could not load or generate Ed25519 key for '" ++ name ++ "': " ++ e.text), s) := by
  obtain ⟨hgiven, hexisting⟩ := not_or.mp h
  unfold Held at hheld
  unfold chooseKey
  rw [if_neg hgiven, if_neg hexisting, if_neg hheld]
  unfold getPublicKey loadOrGenerateKeypair
  cases m.generate name with
  | error e => rfl
  | ok key => rfl

theorem chooseKey_fresh (h : ¬ Keyed m s item name) (hheld : ¬ Held cfg m s name) {key : String}
    (hkey : m.generate name = .ok key) :
    chooseKey cfg m name (((itemFields item).lookup "public_key").getD (.str "")) s =
      (.ok (.str key), s.minted name key) := by
  rw [chooseKey_generates h hheld, hkey]

theorem chooseKey_failed (h : ¬ Keyed m s item name) (hheld : ¬ Held cfg m s name) {e : PyError}
    (hkey : m.generate name = .error e) : ∃ text,
      chooseKey cfg m name (((itemFields item).lookup "public_key").getD (.str "")) s =
        (.error text, s) := by
  rw [chooseKey_generates h hheld, hkey]
  exact ⟨_, rfl⟩

/-! ## An item in the dry run -/

/-- What the dry run says yes with. -/
def promised (name : String) : Fields :=
  [("registered", .bool false), ("dry_run", .bool true), ("would_register", .bool true),
    ("name", .str name)]

/-- An item that generates nothing leaves all as it is, and is promised where it has a key. -/
theorem registerItem_calm (overwrite : Bool) (hraises : ¬ Raises cfg m item)
    (hmints : ¬ Mints cfg m s item) :
    ∃ result, registerItem cfg m item overwrite true s = (.ok result, s) ∧
      ((Json.get "would_register" result).truthy = true ↔
        ∃ name, Passes cfg m item name ∧ Keyed m s item name) := by
  rw [registerItem_screen]
  rcases refused_or_passes hraises with ⟨text, hscreen⟩ | ⟨name, hpasses⟩
  · rw [hscreen]
    refine ⟨_, rfl, iff_of_false Bool.false_ne_true ?_⟩
    rintro ⟨name, hpasses, -⟩
    cases hscreen.symm.trans hpasses
  · rw [show screen cfg m item = _ from hpasses, hpasses.exists_iff]
    dsimp only
    unfold registerAs
    by_cases hkeyed : Keyed m s item name
    · obtain ⟨key, hchoose⟩ := chooseKey_keyed cfg hkeyed
      rw [hchoose]
      exact ⟨promised name, rfl, iff_of_true rfl hkeyed⟩
    · obtain ⟨text, hchoose⟩ : ∃ text, chooseKey cfg m name
          (((itemFields item).lookup "public_key").getD (.str "")) s = (.error text, s) := by
        by_cases hheld : Held cfg m s name
        · exact chooseKey_trap hkeyed hheld
        · cases hkey : m.generate name with
          | error e => exact chooseKey_failed hkeyed hheld hkey
          | ok key => exact absurd ⟨name, key, hpasses, hkeyed, hheld, hkey⟩ hmints
      rw [hchoose]
      exact ⟨_, rfl, iff_of_false Bool.false_ne_true hkeyed⟩

theorem registerItem_mints (overwrite : Bool) (h : Mints cfg m s item) :
    ∃ name key, m.generate name = .ok key ∧ existingPublicKey m name s = "" ∧
      registerItem cfg m item overwrite true s = (.ok (promised name), s.minted name key) := by
  obtain ⟨name, key, hpasses, hkeyed, hheld, hkey⟩ := h
  refine ⟨name, key, hkey, not_not.mp (not_or.mp hkeyed).2, ?_⟩
  rw [registerItem_screen, show screen cfg m item = _ from hpasses]
  dsimp only
  unfold registerAs
  rw [chooseKey_fresh hkeyed hheld hkey]
  rfl

/-! ## The frame -/

/-- What holds of the items that are reached, one after another. -/
theorem forall_reached_cons (item : Json) (items : List Json) {P : List Json → Json → Prop}
    {Q : Json → Prop} :
    (∀ before i after, item :: items = before ++ i :: after → (∀ earlier ∈ before, Q earlier) →
      P before i) ↔
      P [] item ∧ (Q item → ∀ before i after, items = before ++ i :: after →
        (∀ earlier ∈ before, Q earlier) → P (item :: before) i) := by
  constructor
  · intro h
    refine ⟨h [] item items rfl (List.forall_mem_nil _), fun hitem before i after hsplit hbefore => ?_⟩
    exact h (item :: before) i after (congrArg (item :: ·) hsplit)
      (List.forall_mem_cons.mpr ⟨hitem, hbefore⟩)
  · rintro ⟨hfirst, hrest⟩ before i after hsplit hbefore
    cases before with
    | nil =>
      obtain ⟨rfl, -⟩ := List.cons.inj hsplit
      exact hfirst
    | cons first before =>
      obtain ⟨rfl, htail⟩ := List.cons.inj hsplit
      obtain ⟨hitem, hbefore⟩ := List.forall_mem_cons.mp hbefore
      exact hrest hitem before i after htail hbefore

theorem registerItem_raises (overwrite dry : Bool) (s : State) (h : Raises cfg m item) : ∃ e,
    registerItem cfg m item overwrite dry s = (.error e, s) := by
  obtain ⟨e, he⟩ := h
  rw [registerItem_screen, he]
  exact ⟨e, rfl⟩

/-- A keypair that the dry run has generated stays. -/
theorem registerAll_stays (cfg : Config) (overwrite : Bool) {key : String}
    (hkey : m.generate name = .ok key) (hs : s.keys name = some key) (items : List Json) :
    (registerAll cfg m overwrite true items s).2.keys name = some key := by
  induction items generalizing s with
  | nil => exact hs
  | cons item items ih =>
    by_cases hraises : Raises cfg m item
    · obtain ⟨e, he⟩ := registerItem_raises overwrite true s hraises
      rw [registerAll_error he]
      exact hs
    · have hstep : ∃ result t, registerItem cfg m item overwrite true s = (.ok result, t) ∧
          t.keys name = some key := by
        by_cases hmints : Mints cfg m s item
        · obtain ⟨name', key', hkey', -, hitem⟩ := registerItem_mints overwrite hmints
          refine ⟨_, _, hitem, ?_⟩
          show (if name = name' then some key' else s.keys name) = some key
          split_ifs with hname
          · subst hname
            exact congrArg some (Except.ok.inj (hkey'.symm.trans hkey))
          · exact hs
        · obtain ⟨result, hitem, -⟩ := registerItem_calm overwrite hraises hmints
          exact ⟨result, s, hitem, hs⟩
      obtain ⟨result, t, hitem, ht⟩ := hstep
      rw [registerAll_ok hitem]
      exact ih ht

/-- **The frame.** The dry run leaves all as it is exactly where no item that is reached makes it
generate a keypair. -/
theorem registerAll_frame_iff (cfg : Config) (overwrite : Bool)
    (hfresh : ∀ name key, existingPublicKey m name s = "" → m.generate name = .ok key →
      s.keys name ≠ some key) (items : List Json) :
    (registerAll cfg m overwrite true items s).2 = s ↔
      ∀ before item after, items = before ++ item :: after →
        (∀ earlier ∈ before, ¬ Raises cfg m earlier) → ¬ Mints cfg m s item := by
  induction items with
  | nil => exact iff_of_true rfl fun before item after h => by simp at h
  | cons item items ih =>
    rw [forall_reached_cons item items (P := fun _ i => ¬ Mints cfg m s i)
      (Q := fun i => ¬ Raises cfg m i)]
    by_cases hraises : Raises cfg m item
    · obtain ⟨e, he⟩ := registerItem_raises overwrite true s hraises
      rw [registerAll_error he]
      refine iff_of_true rfl ⟨?_, fun h => absurd hraises h⟩
      rintro ⟨name, -, hpasses, -⟩
      exact hpasses.not_raises hraises
    · by_cases hmints : Mints cfg m s item
      · obtain ⟨name, key, hkey, hexisting, hitem⟩ := registerItem_mints overwrite hmints
        refine iff_of_false (fun hsame => ?_) fun h => h.1 hmints
        have hstays := registerAll_stays cfg overwrite (s := s.minted name key) hkey
          (if_pos rfl) items
        rw [registerAll_ok hitem] at hsame
        exact hfresh name key hexisting hkey (hsame ▸ hstays)
      · obtain ⟨result, hitem, -⟩ := registerItem_calm overwrite hraises hmints
        rw [registerAll_ok hitem, and_iff_right hmints, imp_iff_right hraises, ← ih]

/-! ## An item in the real run -/

theorem validated_inj {a b : String} (ha : Validated cfg a) (hb : Validated cfg b)
    (h : cfg.identityFile a = cfg.identityFile b) : a = b := by
  obtain ⟨c, hc⟩ := ha.component
  obtain ⟨d, hd⟩ := hb.component
  have hjoin := identityFile_inj.mp h
  rw [← hc, ← hd, PosixPath.join_component, PosixPath.join_component, PosixPath.mk.injEq,
    List.append_cancel_left_eq] at hjoin
  have hcd : c = d := (List.cons.inj hjoin.2).1
  exact String.toList_inj.mp (hc.symm.trans (hcd ▸ hd))

/-- The identity of `name` is written, and nothing else changes. -/
structure Writes (cfg : Config) (m : Meets) (name : String) (s t : State) : Prop where
  keys : t.keys = s.keys
  own : Held cfg m t name
  others : ∀ other, Validated cfg other → other ≠ name → (Held cfg m t other ↔ Held cfg m s other)

theorem write_succeeding (fresh : String → String) (hload : Loads m) (hname : Validated cfg name)
    (field : String × Json) (fields : Fields) (s : State) :
    ∃ t, writeAgentIdentity cfg (m.succeeding fresh) name (.obj (field :: fields)) s =
        (.ok (cfg.identityFile name), t) ∧ Writes cfg m name s t := by
  have hkey : strip (cfg.lower name) = name := by rw [hname.lower, hname.strip]
  have hne : name ≠ "" := by
    obtain ⟨c, hc⟩ := hname.component
    rintro rfl
    exact c.ok.1 hc
  unfold writeAgentIdentity
  rw [hkey]
  dsimp only [Meets.succeeding]
  rw [if_neg hne]
  refine ⟨_, rfl, rfl, ?_, fun other hother hdiffers => ?_⟩
  · unfold Held getRawAgentIdentity
    rw [if_neg hne, hload.stored _ _ (field :: fields) (if_pos rfl)]
    rfl
  · have hfile : cfg.identityFile other ≠ cfg.identityFile name := fun h =>
      hdiffers (validated_inj hother hname h)
    unfold Held getRawAgentIdentity
    rw [hload.own _ s.files _ (if_neg hfile)]

/-- With a key and a free place, or `overwrite`, the identity is written. -/
theorem registerAs_free (overwrite : Bool) (hload : Loads m) (hname : Validated cfg name)
    {key : Json} (hchoose : chooseKey cfg (m.succeeding fresh) name
      (((itemFields item).lookup "public_key").getD (.str "")) s = (.ok key, t))
    (hfree : overwrite = true ∨ ¬ Held cfg m t name) :
    ∃ result u, registerAs cfg (m.succeeding fresh) item name overwrite false s = (.ok result, u) ∧
      (Json.get "registered" result).truthy = true ∧ Writes cfg m name t u := by
  have hcheck : ¬ (!overwrite &&
      (getRawAgentIdentity cfg (m.succeeding fresh) name t).truthy) = true := by
    rw [Bool.and_eq_true, Bool.not_eq_true']
    rintro ⟨hoff, hheld⟩
    rcases hfree with hon | hfree
    · exact Bool.false_ne_true (hoff.symm.trans hon)
    · exact hfree hheld
  unfold registerAs identityOf
  rw [hchoose]
  dsimp only
  rw [if_neg Bool.false_ne_true, if_neg hcheck]
  obtain ⟨u, hwrite, hu⟩ := write_succeeding fresh hload hname ("id", .str name) _ t
  rw [hwrite]
  exact ⟨_, u, rfl, rfl, hu⟩

/-- With a key, but an identity under the name, the item is refused. -/
theorem registerAs_taken {key : Json} (hchoose : chooseKey cfg (m.succeeding fresh) name
      (((itemFields item).lookup "public_key").getD (.str "")) s = (.ok key, t))
    (htaken : ¬ (overwrite = true ∨ ¬ Held cfg m t name)) : ∃ text,
    registerAs cfg (m.succeeding fresh) item name overwrite false s = (.ok (refused text), t) := by
  obtain ⟨hoff, hheld⟩ := not_or.mp htaken
  have hcheck : (!overwrite &&
      (getRawAgentIdentity cfg (m.succeeding fresh) name t).truthy) = true := by
    rw [Bool.and_eq_true, Bool.not_eq_true']
    exact ⟨Bool.eq_false_iff.mpr hoff, not_not.mp hheld⟩
  unfold registerAs
  rw [hchoose]
  dsimp only
  rw [if_neg Bool.false_ne_true, if_pos hcheck]
  exact ⟨_, rfl⟩

/-- Where an item that passes is written in the real run. -/
def Goes (cfg : Config) (m : Meets) (overwrite : Bool) (s : State) (item : Json) (name : String) :
    Prop :=
  (Keyed m s item name → overwrite = true ∨ ¬ Held cfg m s name) ∧
    (¬ Keyed m s item name → ¬ Held cfg m s name)

theorem goes_keyed (h : Keyed m s item name) :
    Goes cfg m overwrite s item name ↔ overwrite = true ∨ ¬ Held cfg m s name :=
  ⟨fun hgoes => hgoes.1 h, fun hfree => ⟨fun _ => hfree, absurd h⟩⟩

theorem goes_unkeyed (h : ¬ Keyed m s item name) :
    Goes cfg m overwrite s item name ↔ ¬ Held cfg m s name :=
  ⟨fun hgoes => hgoes.2 h, fun hfree => ⟨(absurd · h), fun _ => hfree⟩⟩

/-- An item that passes, in the real run. One that has a key is written, or all stays as it is; one that
has none and is not registered leaves all as it is. -/
theorem registerAs_real (fresh : String → String) (hload : Loads m) (hname : Validated cfg name)
    (item : Json) (overwrite : Bool) (s : State) :
    ∃ result t, registerAs cfg (m.succeeding fresh) item name overwrite false s = (.ok result, t) ∧
      ((Json.get "registered" result).truthy = true ↔ Goes cfg m overwrite s item name) ∧
      (Goes cfg m overwrite s item name → Keyed m s item name → Writes cfg m name s t) ∧
      (¬ Goes cfg m overwrite s item name → t = s) := by
  by_cases hkeyed : Keyed m s item name
  · rw [goes_keyed hkeyed]
    obtain ⟨key, hchoose⟩ := chooseKey_keyed cfg (m := m.succeeding fresh) hkeyed
    by_cases hfree : overwrite = true ∨ ¬ Held cfg m s name
    · obtain ⟨result, t, hregister, hyes, hwrites⟩ :=
        registerAs_free overwrite hload hname hchoose hfree
      exact ⟨result, t, hregister, iff_of_true hyes hfree, fun _ _ => hwrites, absurd hfree⟩
    · obtain ⟨text, hregister⟩ := registerAs_taken hchoose hfree
      exact ⟨_, s, hregister, iff_of_false Bool.false_ne_true hfree, fun h => absurd h hfree,
        fun _ => rfl⟩
  · rw [goes_unkeyed hkeyed]
    by_cases hheld : Held cfg m s name
    · obtain ⟨text, hchoose⟩ := chooseKey_trap (m := m.succeeding fresh) hkeyed hheld
      refine ⟨refused text, s, ?_, iff_of_false Bool.false_ne_true (not_not.mpr hheld),
        fun h => absurd hheld h, fun _ => rfl⟩
      unfold registerAs
      rw [hchoose]
    · have hchoose := chooseKey_fresh (m := m.succeeding fresh) hkeyed hheld
        (show (m.succeeding fresh).generate name = .ok (fresh name) from rfl)
      obtain ⟨result, t, hregister, hyes, -⟩ :=
        registerAs_free overwrite hload hname hchoose (.inr hheld)
      exact ⟨result, t, hregister, iff_of_true hyes hheld, fun _ h => absurd h hkeyed, absurd hheld⟩

/-! ## What the dry run foretells -/

/-- The real run after items that were foreseen: no keypair is new, and the identities are those there
were and those of the items with a key. -/
structure Follows (cfg : Config) (m : Meets) (s : State) (before : List Json) (t : State) : Prop where
  keys : t.keys = s.keys
  held : ∀ name, Validated cfg name → (Held cfg m t name ↔ Taken cfg m s before name)

theorem Follows.nil : Follows cfg m s [] s where
  keys := rfl
  held name _ := by
    unfold Taken
    simp only [List.not_mem_nil, false_and, exists_false, or_false]

theorem Follows.keyed (h : Follows cfg m s before t) : Keyed m t item name ↔ Keyed m s item name := by
  unfold Keyed existingPublicKey
  rw [h.keys]

/-- An item is foreseen exactly where the two runs say the same of it. -/
theorem Follows.foreseen_iff (h : Follows cfg m s before t) (hpasses : Passes cfg m item name) :
    Foreseen cfg m s overwrite before item ↔
      (Keyed m s item name ↔ Goes cfg m overwrite t item name) := by
  unfold Foreseen
  rw [hpasses.forall_iff]
  by_cases hkeyed : Keyed m s item name
  · rw [goes_keyed (h.keyed.mpr hkeyed), h.held name hpasses.validated]
    simp only [hkeyed, true_imp_iff, not_true_eq_false, false_imp_iff, and_true, true_iff]
  · rw [goes_unkeyed (mt h.keyed.mp hkeyed), h.held name hpasses.validated]
    simp only [hkeyed, not_false_eq_true, true_imp_iff, false_imp_iff, true_and, false_iff, not_not]

/-- The real run goes on as foreseen. -/
theorem Follows.step (h : Follows cfg m s before t) {u : State}
    (hpasses : Passes cfg m item name) (hsame : Keyed m s item name ↔ Goes cfg m overwrite t item name)
    (hwrites : Goes cfg m overwrite t item name → Keyed m t item name → Writes cfg m name t u)
    (hstays : ¬ Goes cfg m overwrite t item name → u = t) : Follows cfg m s (before ++ [item]) u := by
  have htaken : ∀ other, Taken cfg m s (before ++ [item]) other ↔
      Taken cfg m s before other ∨ Passes cfg m item other ∧ Keyed m s item other := by
    intro other
    unfold Taken
    simp only [List.mem_append, List.mem_singleton, or_and_right, exists_or, exists_eq_left, or_assoc]
  by_cases hkeyed : Keyed m s item name
  · have hu := hwrites (hsame.mp hkeyed) (h.keyed.mpr hkeyed)
    refine ⟨hu.keys.trans h.keys, fun other hother => ?_⟩
    rw [htaken]
    by_cases hname : other = name
    · subst hname
      exact iff_of_true hu.own (.inr ⟨hpasses, hkeyed⟩)
    · rw [hu.others other hother hname, h.held other hother]
      exact (or_iff_left fun ⟨hitem, _⟩ => hname (hitem.unique hpasses)).symm
  · obtain rfl := hstays (mt hsame.mpr hkeyed)
    refine ⟨h.keys, fun other hother => ?_⟩
    rw [htaken, h.held other hother]
    exact (or_iff_left fun ⟨hitem, hkey⟩ => hkeyed (hitem.unique hpasses ▸ hkey)).symm

/-- The answers of a bulk registration, item by item. -/
def yesses (key : String) : Except PyError (List Fields) → List Bool
  | .error _ => []
  | .ok results => results.map fun result => (Json.get key result).truthy

/-- An item that does not raise is answered, with one result. -/
theorem registerItem_ok (overwrite dry : Bool) (h : ¬ Raises cfg m item) (s : State) :
    ∃ result t, registerItem cfg m item overwrite dry s = (.ok result, t) ∧
      Json.get "results" result = .null := by
  rw [registerItem_screen]
  rcases refused_or_passes h with ⟨text, hscreen⟩ | ⟨name, hpasses⟩
  · rw [hscreen]
    exact ⟨_, _, rfl, rfl⟩
  · rw [show screen cfg m item = _ from hpasses]
    dsimp only
    unfold registerAs
    generalize chooseKey cfg m name _ s = chosen
    obtain ⟨_ | key, t⟩ := chosen
    · exact ⟨_, _, rfl, rfl⟩
    · dsimp only
      split
      · exact ⟨_, _, rfl, rfl⟩
      · split
        · exact ⟨_, _, rfl, rfl⟩
        · generalize writeAgentIdentity cfg m name _ t = written
          obtain ⟨_ | path, u⟩ := written
          · exact ⟨_, _, rfl, rfl⟩
          · exact ⟨_, _, rfl, rfl⟩

/-- A call with an item that raises raises, and another one answers every item. -/
theorem registerAll_raises (overwrite dry : Bool) (h : ∃ item ∈ items, Raises cfg m item) (s : State) :
    ∃ e, (registerAll cfg m overwrite dry items s).1 = .error e := by
  induction items generalizing s with
  | nil =>
    obtain ⟨item, hmem, -⟩ := h
    cases hmem
  | cons item items ih =>
    by_cases hraises : Raises cfg m item
    · obtain ⟨e, he⟩ := registerItem_raises overwrite dry s hraises
      rw [registerAll_error he]
      exact ⟨e, rfl⟩
    · obtain ⟨result, t, hitem, -⟩ := registerItem_ok overwrite dry hraises s
      obtain ⟨later, hmem, hlater⟩ := h
      have hmem' : later ∈ items := (List.mem_cons.mp hmem).resolve_left fun heq =>
        hraises (heq ▸ hlater)
      obtain ⟨e, he⟩ := ih ⟨later, hmem', hlater⟩ t
      rw [registerAll_ok hitem, he]
      exact ⟨e, rfl⟩

theorem yesses_cons {key : String} {result : Fields} (h : ∀ i ∈ items, ¬ Raises cfg m i)
    (hitem : registerItem cfg m item overwrite dry s = (.ok result, t)) :
    yesses key (registerAll cfg m overwrite dry (item :: items) s).1 =
      (Json.get key result).truthy :: yesses key (registerAll cfg m overwrite dry items t).1 := by
  have hok : ∃ results, (registerAll cfg m overwrite dry items t).1 = .ok results := by
    clear hitem
    induction items generalizing t with
    | nil => exact ⟨[], rfl⟩
    | cons item items ih =>
      obtain ⟨hfirst, hrest⟩ := List.forall_mem_cons.mp h
      obtain ⟨result, u, hitem, -⟩ := registerItem_ok overwrite dry hfirst t
      obtain ⟨results, hresults⟩ := ih hrest (t := u)
      rw [registerAll_ok hitem, hresults]
      exact ⟨_, rfl⟩
  obtain ⟨results, hresults⟩ := hok
  rw [registerAll_ok hitem, hresults]
  rfl

/-- One item in the two runs: they say the same of it exactly where it is foreseen, and go on. -/
theorem registerItem_foretells (fresh : String → String) (overwrite : Bool) (hload : Loads m)
    (hraises : ¬ Raises cfg m item) (hmints : ¬ Mints cfg m s item)
    (hfollows : Follows cfg m s before t) :
    ∃ promise result u, registerItem cfg m item overwrite true s = (.ok promise, s) ∧
      registerItem cfg (m.succeeding fresh) item overwrite false t = (.ok result, u) ∧
      (Foreseen cfg m s overwrite before item ↔
        (Json.get "would_register" promise).truthy = (Json.get "registered" result).truthy) ∧
      (Foreseen cfg m s overwrite before item → Follows cfg m s (before ++ [item]) u) := by
  obtain ⟨promise, hdry, hpromise⟩ := registerItem_calm overwrite hraises hmints
  rcases refused_or_passes hraises with ⟨text, hrefused⟩ | ⟨name, hpasses⟩
  · have hno : ∀ name, ¬ Passes cfg m item name := fun name h => by cases hrefused.symm.trans h
    have hforeseen : Foreseen cfg m s overwrite before item := fun name h => absurd h (hno name)
    have hnot : (Json.get "would_register" promise).truthy = false :=
      Bool.eq_false_iff.mpr fun h => (hpromise.mp h).elim fun name h => hno name h.1
    refine ⟨promise, refused text, t, hdry, ?_, iff_of_true hforeseen hnot, fun _ => ?_⟩
    · rw [registerItem_screen, screen_succeeding, hrefused]
    · refine ⟨hfollows.keys, fun other hother => ?_⟩
      rw [hfollows.held other hother]
      unfold Taken
      simp only [List.mem_append, List.mem_singleton, or_and_right, exists_or, exists_eq_left, hno,
        false_and, or_false]
  · obtain ⟨result, u, hreal, hresult, hwrites, hstays⟩ := registerAs_real fresh hload
      hpasses.validated item overwrite t
    have hkeyed : (Json.get "would_register" promise).truthy = true ↔ Keyed m s item name :=
      hpromise.trans hpasses.exists_iff
    refine ⟨promise, result, u, hdry, ?_, ?_, fun hforeseen => ?_⟩
    · rw [registerItem_screen, screen_succeeding, show screen cfg m item = _ from hpasses]
      exact hreal
    · rw [hfollows.foreseen_iff hpasses, Bool.eq_iff_iff, hkeyed, hresult]
    · exact hfollows.step hpasses ((hfollows.foreseen_iff hpasses).mp hforeseen) hwrites hstays

/-- **What the dry run foretells.** Where no item raises or makes it generate a keypair, its promises
are kept exactly where every item is foreseen. -/
theorem registerAll_foretells (hload : Loads m)
    (hraises : ∀ item ∈ items, ¬ Raises cfg m item) (hmints : ∀ item ∈ items, ¬ Mints cfg m s item)
    (hfollows : Follows cfg m s before t) :
    yesses "would_register" (registerAll cfg m overwrite true items s).1 =
        yesses "registered" (registerAll cfg (m.succeeding fresh) overwrite false items t).1 ↔
      ∀ between item after, items = between ++ item :: after →
        Foreseen cfg m s overwrite (before ++ between) item := by
  induction items generalizing before t with
  | nil => exact iff_of_true rfl fun between item after h => by simp at h
  | cons item items ih =>
    obtain ⟨hfirst, hrest⟩ := List.forall_mem_cons.mp hraises
    obtain ⟨hcalm, hrestcalm⟩ := List.forall_mem_cons.mp hmints
    obtain ⟨promise, result, u, hdry, hreal, hforeseen, hnext⟩ :=
      registerItem_foretells fresh overwrite hload hfirst hcalm hfollows
    have hrest' : ∀ i ∈ items, ¬ Raises cfg (m.succeeding fresh) i := fun i hi =>
      mt (raises_succeeding cfg m fresh i).mp (hrest i hi)
    have hsplit := forall_reached_cons item items
      (P := fun between i => Foreseen cfg m s overwrite (before ++ between) i) (Q := fun _ => True)
    simp only [implies_true, forall_const] at hsplit
    rw [yesses_cons hrest hdry, yesses_cons hrest' hreal, List.cons.injEq, ← hforeseen, hsplit,
      List.append_nil]
    refine and_congr_right fun h => ?_
    rw [ih hrest hrestcalm (hnext h)]
    simp only [List.append_assoc, List.singleton_append]

/-! ## The whole request -/

theorem lookup_dryRun (key : String) (h : (key == "dry_run") = false) (value : Json) (fields : Fields) :
    (("dry_run", value) :: fields : Fields).lookup key = fields.lookup key := by
  rw [List.lookup_cons, h]

/-- An item is read without the option. -/
theorem registerOne_dryRun (fields : Fields) (value : Json) :
    registerOne cfg m (("dry_run", value) :: fields) overwrite dry s =
      registerOne cfg m fields overwrite dry s := by
  have hlookup := fun key h => lookup_dryRun key h value fields
  unfold registerOne registerNamed nameOr Json.get
  rw [hlookup "name" (by decide), hlookup "url" (by decide), hlookup "public_key" (by decide),
    hlookup "role" (by decide), hlookup "description" (by decide)]

/-- A request for one agent is a row of one item. -/
theorem registerOne_items (cfg : Config) (m : Meets) (key : String) (fields : Fields)
    (overwrite dry : Bool) (s : State) :
    answers key (registerOne cfg m fields overwrite dry s).1 =
        yesses key (registerAll cfg m overwrite dry [.obj fields] s).1 ∧
      (registerOne cfg m fields overwrite dry s).2 =
        (registerAll cfg m overwrite dry [.obj fields] s).2 := by
  rw [registerAll_cons]
  show answers key (registerItem cfg m (.obj fields) overwrite dry s).1 = _ ∧
    (registerItem cfg m (.obj fields) overwrite dry s).2 = _
  by_cases hraises : Raises cfg m (.obj fields)
  · obtain ⟨e, he⟩ := registerItem_raises overwrite dry s hraises
    rw [he]
    exact ⟨rfl, rfl⟩
  · obtain ⟨result, t, hitem, hresults⟩ :=
      registerItem_ok overwrite dry hraises s
    rw [hitem]
    refine ⟨?_, rfl⟩
    unfold answers
    dsimp only
    rw [hresults]
    rfl

/-- A request is its items in order. -/
theorem handleMeshRegister_items (cfg : Config) (m : Meets) (key : String) (args kwargs : Fields)
    (dry : Bool) (s : State) :
    answers key (handleMeshRegister cfg m args (("dry_run", .bool dry) :: kwargs) s).1 =
        yesses key (registerAll cfg m (Json.get "overwrite" (kwargs ++ args)).truthy dry
          (requested (kwargs ++ args)) s).1 ∧
      (handleMeshRegister cfg m args (("dry_run", .bool dry) :: kwargs) s).2 =
        (registerAll cfg m (Json.get "overwrite" (kwargs ++ args)).truthy dry
          (requested (kwargs ++ args)) s).2 := by
  have hlookup := fun key h => lookup_dryRun key h (.bool dry) (kwargs ++ args)
  have hbulk : Json.get "bulk" (("dry_run", .bool dry) :: (kwargs ++ args)) =
      Json.get "bulk" (kwargs ++ args) := congrArg (·.getD .null) (hlookup "bulk" (by decide))
  have hoverwrite : Json.get "overwrite" (("dry_run", .bool dry) :: (kwargs ++ args)) =
      Json.get "overwrite" (kwargs ++ args) := congrArg (·.getD .null) (hlookup "overwrite" (by decide))
  have hdry : (Json.get "dry_run" (("dry_run", .bool dry) :: (kwargs ++ args))).truthy = dry := rfl
  unfold handleMeshRegister requested
  rw [List.cons_append]
  dsimp only
  rw [hbulk, hoverwrite, hdry, registerOne_dryRun]
  generalize (Json.get "overwrite" (kwargs ++ args)).truthy = overwrite
  have hone := registerOne_items cfg m key (kwargs ++ args) overwrite dry s
  cases Json.get "bulk" (kwargs ++ args) with
  | null | bool _ | num _ | str _ | obj _ => exact hone
  | arr items =>
    cases items with
    | nil => exact hone
    | cons first rest =>
      dsimp only
      generalize registerAll cfg m overwrite dry (first :: rest) s = all
      obtain ⟨_ | results, t⟩ := all
      · exact ⟨rfl, rfl⟩
      · refine ⟨?_, rfl⟩
        show (results.map Json.obj).map _ = _
        rw [List.map_map]
        rfl

/-- **Where the dry run is faithful**: no item that is reached makes it generate a keypair, and where
none raises, each item with a key has a free place or `overwrite`, and each without one finds its place
taken. The hypotheses are what the loader does, and that a keypair that is generated is not the one
that is there. -/
theorem dry_run_iff (hload : Loads m)
    (hfresh : ∀ name key, existingPublicKey m name s = "" → m.generate name = .ok key →
      s.keys name ≠ some key) (fresh : String → String) (args kwargs : Fields) :
    Faithful cfg m fresh args kwargs s ↔
      Predictable cfg m (Json.get "overwrite" (kwargs ++ args)).truthy
        (requested (kwargs ++ args)) s := by
  have hframe := registerAll_frame_iff cfg (Json.get "overwrite" (kwargs ++ args)).truthy hfresh
    (requested (kwargs ++ args))
  rw [← (handleMeshRegister_items cfg m "" args kwargs true s).2] at hframe
  have hdry := (handleMeshRegister_items cfg m "would_register" args kwargs true s).1
  have hreal := (handleMeshRegister_items cfg (m.succeeding fresh) "registered" args kwargs false s).1
  generalize (Json.get "overwrite" (kwargs ++ args)).truthy = overwrite at hframe hdry hreal ⊢
  generalize requested (kwargs ++ args) = items at hframe hdry hreal ⊢
  -- a call that raises answers nothing, with `dry_run` or without
  have hpredicts (hmintless : ∀ before item after, items = before ++ item :: after →
      (∀ earlier ∈ before, ¬ Raises cfg m earlier) → ¬ Mints cfg m s item) :
      answers "would_register" (dryRun cfg m args kwargs s).1 =
          answers "registered" (realRun cfg m fresh args kwargs s).1 ↔
        ((∀ item ∈ items, ¬ Raises cfg m item) → ∀ before item after,
          items = before ++ item :: after → Foreseen cfg m s overwrite before item) := by
    unfold dryRun realRun
    rw [hdry, hreal]
    by_cases hnone : ∀ item ∈ items, ¬ Raises cfg m item
    · rw [imp_iff_right hnone]
      have hmints : ∀ item ∈ items, ¬ Mints cfg m s item := fun item hitem => by
        obtain ⟨before, after, hsplit⟩ := List.append_of_mem hitem
        exact hmintless before item after hsplit fun earlier hearlier =>
          hnone earlier (hsplit ▸ List.mem_append_left _ hearlier)
      exact registerAll_foretells hload hnone hmints Follows.nil
    · refine iff_of_true ?_ fun h => absurd h hnone
      push Not at hnone
      obtain ⟨item, hitem, hraise⟩ := hnone
      obtain ⟨e, he⟩ := registerAll_raises overwrite true
        ⟨item, hitem, hraise⟩ s
      obtain ⟨e', he'⟩ := registerAll_raises overwrite false
        ⟨item, hitem, (raises_succeeding cfg m fresh item).mpr hraise⟩ s
      rw [he, he']
      rfl
  constructor
  · rintro ⟨hsame, hanswers⟩
    have hmintless := hframe.mp hsame
    exact ⟨hmintless, (hpredicts hmintless).mp hanswers⟩
  · rintro ⟨hmintless, hforeseen⟩
    exact ⟨hframe.mpr hmintless, (hpredicts hmintless).mpr hforeseen⟩

/-! ## A new agent -/

theorem loads_plain : Loads ({ resolve := publicNet } : Meets) where
  own _ _ _ h := congrArg (·.getD .null) h
  stored _ _ _ h := congrArg (·.getD .null) h

/-- A registration with a key. -/
theorem dry_run_iff_vera :
    Faithful fleet { resolve := publicNet } (fun name => "new key of " ++ name)
        [("name", .str "vera"), ("url", .str "https://vera.example/hook"), ("public_key", .str "pem")]
        [] {} ↔
      Predictable fleet { resolve := publicNet } false
        [.obj [("name", .str "vera"), ("url", .str "https://vera.example/hook"),
          ("public_key", .str "pem")]] {} :=
  dry_run_iff loads_plain (fun _ _ _ _ => Option.some_ne_none _ |>.symm) _ _ _

/-- Without a key the dry run generates the keypair of the new agent. -/
theorem dry_run_mints :
    ¬ Faithful fleet { resolve := publicNet } (fun name => "new key of " ++ name)
      [("name", .str "vera"), ("url", .str "https://vera.example/hook")] [] {} := by
  intro h
  have hkeys := congrArg (fun s => s.keys "vera") h.frame
  revert hkeys
  decide +kernel

end HermesMesh.Vault
