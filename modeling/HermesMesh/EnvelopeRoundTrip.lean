import HermesMesh.FailedSends
import HermesMesh.IntakeSafety
import HermesMesh.SendTokens
import HermesMesh.WireRequest

/-!
# From the sender's arguments to the recipient's fields

A call of `handle_mesh_send` builds the header by concatenation, wraps it with the message into the
body and signs it; the adapter at the other end takes all that apart again. `envelope_roundtrip` says
that it gets back what was put in. The names are the one place where reading is not the inverse of
writing: the adapter validates them a second time, which leaves a name alone that is in ASCII.
-/

namespace HermesMesh

variable {env : Env} {mail : Mail} {args kwargs : List (String × Json)} {w w₀ : World}
  {session fromSession : Option String} {kit : Intake.Kit} {publicKey : String → String}

/-! ## A validated name is valid -/

def Ascii (s : String) : Prop := ∀ c ∈ s.toList, c.toNat < 128

theorem ascii_of_all {s : String} (h : s.toList.all (·.toNat < 128) = true) : Ascii s :=
  fun c hc => of_decide_eq_true (List.all_eq_true.mp h c hc)

/-- A lowered character of a name. -/
def isLowered (c : Char) : Bool :=
  isNameChar c && !isSpace c && decide (lowerName c = [c])

theorem lowerChar_ascii : ∀ n < 128, isNameChar (Char.ofNat n) = true →
    lowerName (Char.ofNat n) = [lowerChar (Char.ofNat n)] ∧
      isLowered (lowerChar (Char.ofNat n)) = true ∧
      (isNameStart (Char.ofNat n) = true → isNameStart (lowerChar (Char.ofNat n)) = true) ∧
      (lowerChar (Char.ofNat n) = '.' → Char.ofNat n = '.') := by
  decide +kernel

theorem isAlphanum_ascii {c : Char} (h : c.isAlphanum = true) : c.toNat < 128 := by
  change (decide ('A'.val ≤ c.val ∧ c.val ≤ 'Z'.val) ||
    (decide ('a'.val ≤ c.val) && decide (c.val ≤ 'z'.val)) ||
    (decide ('0'.val ≤ c.val) && decide (c.val ≤ '9'.val))) = true at h
  simp only [Bool.or_eq_true, Bool.and_eq_true, decide_eq_true_eq, UInt32.le_iff_toNat_le] at h
  change c.val.toNat < 128
  rcases h with (h | h) | h
  · exact h.2.trans_lt (by decide)
  · exact h.2.trans_lt (by decide)
  · exact h.2.trans_lt (by decide)

/-- A character of a name outside of ASCII. -/
theorem isNameChar_special {c : Char} (h : isNameChar c = true) (hc : ¬ c.toNat < 128) :
    c.toNat = 0x130 ∨ c.toNat = 0x131 ∨ c.toNat = 0x17F ∨ c.toNat = 0x212A := by
  unfold isNameChar isNameStart at h
  simp only [Bool.or_eq_true, decide_eq_true_eq] at h
  rcases h with ((((((hal | h) | h) | h) | h) | rfl) | rfl) | rfl
  · exact absurd (isAlphanum_ascii hal) hc
  · exact .inl h
  · exact .inr (.inl h)
  · exact .inr (.inr (.inl h))
  · exact .inr (.inr (.inr h))
  · exact absurd (by decide) hc
  · exact absurd (by decide) hc
  · exact absurd (by decide) hc

/-- One character: if it is lowered into ASCII, it becomes a character of a name that stays as it
is. -/
theorem lowerName_ascii {c : Char} (h : isNameChar c = true)
    (hascii : ∀ d ∈ lowerName c, d.toNat < 128) :
    lowerName c = [lowerChar c] ∧ isLowered (lowerChar c) = true ∧
      (isNameStart c = true → isNameStart (lowerChar c) = true) ∧ (lowerChar c = '.' → c = '.') := by
  by_cases hc : c.toNat < 128
  · have hof := lowerChar_ascii c.toNat hc
    rw [Char.ofNat_toNat] at hof
    exact hof h
  · rcases isNameChar_special h hc with hn | hn | hn | hn
    all_goals
      obtain rfl : c = Char.ofNat _ := (Char.ofNat_toNat c).symm.trans (congrArg Char.ofNat hn)
    · exact absurd (hascii (Char.ofNat 0x307) (by decide)) (by decide)
    · exact absurd (hascii (Char.ofNat 0x131) (by decide)) (by decide)
    · exact absurd (hascii (Char.ofNat 0x17F) (by decide)) (by decide)
    · decide

/-- What validation found out about a name. -/
theorem validateAgentName_ok {repr : String → String} {raw name : String}
    (h : validateAgentName repr raw = .ok name) :
    ∃ c rest, (strip raw).toList = c :: rest ∧ isNameStart c = true ∧
      (∀ d ∈ c :: rest, isNameChar d = true) ∧ hasText ".." (strip raw) = false ∧
      name.toList = (c :: rest).flatMap lowerName := by
  unfold validateAgentName at h
  dsimp only at h
  split_ifs at h with hempty hdots
  split at h
  · rename_i c rest hlist
    split_ifs at h with hname
    obtain rfl := Except.ok.inj h
    rw [Bool.and_eq_true, List.all_eq_true] at hname
    refine ⟨c, rest, hlist, hname.1, List.forall_mem_cons.mpr ⟨?_, hname.2⟩, by simpa using hdots, ?_⟩
    · unfold isNameChar
      rw [hname.1, Bool.true_or, Bool.true_or, Bool.true_or]
    · rw [String.toList_ofList, hlist]
  · cases h

theorem strip_eq {s : String} (h : ∀ c ∈ s.toList, isSpace c = false) : strip s = s := by
  have hdrop : ∀ l : List Char, (∀ c ∈ l, isSpace c = false) → l.dropWhile isSpace = l := by
    intro l hl
    cases l with
    | nil => rfl
    | cons c l =>
      rw [List.dropWhile_cons_of_neg]
      simp [hl c List.mem_cons_self]
  unfold strip
  rw [hdrop _ h, hdrop _ fun c hc => h c (List.mem_reverse.mp hc), List.reverse_reverse,
    String.ofList_toList]

/-- Two dots after each other come from two dots. -/
theorem dots_of_map {f : Char → Char} {l : List Char} (hf : ∀ d ∈ l, f d = '.' → d = '.')
    (h : "..".toList <:+: l.map f) : "..".toList <:+: l := by
  obtain ⟨before, after, happ⟩ := h
  obtain ⟨front, last, rfl, hfront, -⟩ := List.map_eq_append_iff.mp happ.symm
  obtain ⟨start, dots, rfl, -, hdots⟩ := List.map_eq_append_iff.mp hfront
  have hall : ∀ d ∈ dots, d = '.' := by
    intro d hd
    have hmem : f d ∈ "..".toList := hdots ▸ List.mem_map_of_mem hd
    exact hf d (by simp [hd]) (by simpa using hmem)
  have hlength : dots.length = 2 := by
    rw [← List.length_map f, hdots]
    rfl
  refine ⟨start, last, ?_⟩
  rw [List.eq_replicate_of_mem hall, hlength]
  rfl

/-- **A name in ASCII that has been validated is valid, and stays as it is.** -/
theorem validateAgentName_again {repr repr' : String → String} {raw name : String}
    (h : validateAgentName repr raw = .ok name) (hascii : Ascii name) :
    validateAgentName repr' name = .ok name := by
  obtain ⟨c, rest, hlist, hstart, hchars, hdots, hname⟩ := validateAgentName_ok h
  have hlow : ∀ d ∈ c :: rest, lowerName d = [lowerChar d] ∧ isLowered (lowerChar d) = true ∧
      (isNameStart d = true → isNameStart (lowerChar d) = true) ∧ (lowerChar d = '.' → d = '.') := by
    intro d hd
    refine lowerName_ascii (hchars d hd) fun e he => hascii e ?_
    rw [hname]
    exact List.mem_flatMap.mpr ⟨d, hd, he⟩
  have hmap : name.toList = (c :: rest).map lowerChar := by
    rw [hname, List.flatMap_congr fun d hd => (hlow d hd).1, ← List.flatMap_pure_eq_map]
    rfl
  have hlowered : ∀ d ∈ name.toList,
      isNameChar d = true ∧ isSpace d = false ∧ lowerName d = [d] := by
    intro d hd
    rw [hmap] at hd
    obtain ⟨d', hd', rfl⟩ := List.mem_map.mp hd
    have h := (hlow d' hd').2.1
    simp only [isLowered, Bool.and_eq_true, Bool.not_eq_true', decide_eq_true_eq] at h
    exact ⟨h.1.1, h.1.2, h.2⟩
  have hstrip : strip name = name := strip_eq fun d hd => (hlowered d hd).2.1
  have hnodots : hasText ".." name = false := by
    unfold hasText at hdots ⊢
    rw [decide_eq_false_iff_not] at hdots ⊢
    rw [hlist] at hdots
    rw [hmap]
    exact fun hinfix => hdots (dots_of_map (fun d hd => (hlow d hd).2.2.2) hinfix)
  have hempty : name ≠ "" := (fits_agentName h).1
  have hhead : name.toList = lowerChar c :: rest.map lowerChar := hmap
  unfold validateAgentName
  dsimp only
  rw [hstrip, if_neg hempty, hnodots, if_neg Bool.false_ne_true, hhead]
  dsimp only
  have hall : (rest.map lowerChar).all isNameChar = true := by
    rw [List.all_eq_true]
    intro d hd
    exact (hlowered d (by rw [hhead]; exact List.mem_cons_of_mem _ hd)).1
  rw [(hlow c List.mem_cons_self).2.2.1 hstart, hall, Bool.and_self, if_pos rfl, ← hhead,
    List.flatMap_congr fun d hd => (hlowered d hd).2.2, List.flatMap_singleton',
    String.ofList_toList]

/-! ## The verification as one function -/

/-- `_verify_ed25519`, both of its verifications at once. -/
def Intake.verifyEd25519 (kit : Intake.Kit) (publicKey : String → String)
    (request : Intake.Request) (sender : Json) : Option String :=
  match Intake.openVerification kit publicKey sender with
  | none => none
  | some (name, key) =>
    match kit.verify key request.signedBody request.signature with
    | .error _ => none
    | .ok true => some name
    | .ok false =>
      match kit.verify key request.body request.signature with
      | .ok true => some name
      | _ => none

/-! ## The round trip -/

theorem dropWhile_dropWhile (p : Char → Bool) (l : List Char) :
    (l.dropWhile p).dropWhile p = l.dropWhile p := by
  induction l with
  | nil => rfl
  | cons c l ih =>
    rw [List.dropWhile_cons]
    split_ifs with hc
    · exact ih
    · rw [List.dropWhile_cons_of_neg hc]

theorem optToken_ok {valid : TokenRule} {token : Option String}
    (h : ∀ value ∈ token, valid value = true) : optToken valid token = .ok token := by
  cases token with
  | none => rfl
  | some token =>
    unfold optToken
    dsimp only
    rw [validateEnvelopeToken_ok (h token rfl)]
    rfl

/-- What the validator is taken to accept, as far as it matters: no bracket is among letters, digits
and `_.:-`. -/
def Bracketless (valid : TokenRule) (token : String) : Prop :=
  valid token = true ∧ ']' ∉ token.toList

/-- The envelope of a validated call is read back field by field. -/
theorem parseEnvelope_padded (repr : String → String)
    (hmade : mail.Made (Bracketless env.valid) env.repr) (hagent : Ascii mail.agent)
    (hself : Ascii mail.self)
    (hsessions : Carries (Bracketless env.valid) session ∧ Carries (Bracketless env.valid) fromSession) :
    parseEnvelope env.valid repr (mail.padded session fromSession) =
      some { mail.header session fromSession with
        bodyText := String.ofList (mail.message.toList.dropWhile isSpace) } := by
  have hheader : (mail.header session fromSession).Wellformed :=
    hmade.header (fun token h hne => ⟨hne, h.2⟩) hsessions
  have hvalid : ∀ {token}, Carries (Bracketless env.valid) token →
      ∀ value ∈ token, env.valid value = true := fun h value hvalue => (h value hvalue).1.1
  obtain ⟨_, hself'⟩ := hmade.self
  obtain ⟨_, hagent'⟩ := hmade.agent
  unfold parseEnvelope Mail.padded
  rw [matchEnvelope_header hheader]
  simp only [Mail.header, Option.bind_eq_bind, Option.bind_some, Option.getD_some, readAction_text,
    readReply_text, validateAgentName_again hself' hself, validateAgentName_again hagent' hagent,
    optToken_ok (hvalid hsessions.1), optToken_ok (hvalid hsessions.2), optToken_ok (hvalid hmade.ref),
    validateEnvelopeToken_ok (hvalid hmade.taskId _ rfl), Except.toOption, dropWhile_dropWhile]
  rfl

/-- A signature that is good in one of the two framings verifies, where the first does not raise. -/
theorem verifyEd25519_good {r : Intake.Request} {sender : Json} {name key : String}
    (hopen : Intake.openVerification kit publicKey sender = some (name, key))
    (hgood : kit.verify key r.signedBody r.signature = .ok true ∨
      kit.verify key r.body r.signature = .ok true)
    (hnever : ∀ e, kit.verify key r.signedBody r.signature ≠ .error e) :
    Intake.verifyEd25519 kit publicKey r sender = some name := by
  unfold Intake.verifyEd25519
  rw [hopen]
  dsimp only
  rcases hgood with hgood | hgood
  · rw [hgood]
  · cases hfirst : kit.verify key r.signedBody r.signature with
    | error e => exact absurd hfirst (hnever e)
    | ok good => cases good <;> simp [hgood]

/-- **Round trip.** A validated call, composed and signed with or without the timestamp, passes the
verification of an adapter that has the sender's key, and is read there as it was written. -/
theorem envelope_roundtrip {cfg : Intake.Config} {pen : Pen} {key timestamp url : String} {post : Post}
    (hprep : prepare env args kwargs w = (.ok mail, w₀))
    (hsessions : sessions env mail = .ok (session, fromSession))
    (hagent : Ascii mail.agent) (hself : Ascii mail.self)
    (hvalid : kit.valid = env.valid) (htokens : env.Tokens (Bracketless env.valid))
    (hjson : kit.loads (pen.dumps
      [("from", .str mail.self), ("text", .str (mail.padded session fromSession))]) =
        .ok (.obj [("from", .str mail.self), ("text", .str (mail.padded session fromSession))]))
    (hverify : ∀ data signature, pen.sign key data = .ok signature →
      kit.verify (publicKey mail.self) data signature = .ok true)
    (hnever : ∀ data signature e, kit.verify (publicKey mail.self) data signature ≠ .error e)
    (hkey : publicKey mail.self ≠ "") (hname : cfg.agentName = mail.agent) (htime : timestamp ≠ "")
    (hpost : compose pen key timestamp (env.wire mail (mail.padded session fromSession) url) =
      .ok post) :
    ∃ fields parsed, kit.loads post.received.body = .ok (.obj fields) ∧
      Intake.verifyEd25519 kit publicKey post.received (Json.get "from" fields) = some mail.self ∧
      parseEnvelope kit.valid kit.repr (Intake.requestText kit post.received) = some parsed ∧
      parsed.sender = mail.self ∧ parsed.recipient = cfg.agentName ∧
      parsed.toHeader = mail.header session fromSession ∧
      parsed.bodyText = String.ofList (mail.message.toList.dropWhile isSpace) := by
  have hmade := htokens.prepare hprep
  obtain ⟨_, hself'⟩ := hmade.self
  have hne : mail.self ≠ "" := (fits_agentName hself').1
  obtain ⟨signature, hsign, hreceived⟩ := compose_received false rfl hpost
  generalize hwire : env.wire mail (mail.padded session fromSession) url = wire at hsign hreceived
  have hpayload : wire.payload =
      [("from", .str mail.self), ("text", .str (mail.padded session fromSession))] := by
    rw [← hwire]
    unfold Wire.payload Wire.from_ Env.wire
    rw [if_neg hne]
  have hloads : kit.loads post.received.body = .ok (.obj
      [("from", .str mail.self), ("text", .str (mail.padded session fromSession))]) := by
    rw [hreceived, hpayload]
    exact hjson
  have hopen : Intake.openVerification kit publicKey (.str mail.self) =
      some (mail.self, publicKey mail.self) := by
    unfold Intake.openVerification
    dsimp only
    rw [validateAgentName_again hself' hself]
    exact if_neg hkey
  have hparsed := parseEnvelope_padded kit.repr hmade hagent hself (htokens.sessions hsessions)
  let parsed : Parsed := { mail.header session fromSession with
    bodyText := String.ofList (mail.message.toList.dropWhile isSpace) }
  refine ⟨_, parsed, hloads, ?_, ?_, rfl, hname.symm, rfl, rfl⟩
  · have hgood := hverify _ _ hsign
    have hbytes : post.received.signedBody = timestamp ++ "\n" ++ pen.dumps wire.payload := by
      rw [hreceived]
      exact if_neg htime
    have hbody : post.received.body = pen.dumps wire.payload := by rw [hreceived]
    have hsignature : post.received.signature = signature := by rw [hreceived]
    have hfrom : Json.get "from" [("from", .str mail.self),
        ("text", .str (mail.padded session fromSession))] = .str mail.self := rfl
    rw [hfrom]
    refine verifyEd25519_good hopen ?_ fun e => hnever _ _ e
    rw [hbytes, hbody, hsignature]
    unfold Wire.signedBody at hgood
    split_ifs at hgood
    · exact .inl hgood
    · exact .inr hgood
  · unfold Intake.requestText
    rw [hloads, hvalid]
    exact hparsed

/-- Good news with a look-alike in front, under an id of its own. -/
def lookAlike : List (String × Json) :=
  [("message", .str "  [ref:m7] up"), ("agent", .str "vera"), ("action", .str "info"),
    ("reply", .str "no"), ("task_id", .str "t1")]

def lookAlikeText : String :=
  "[mesh][v:1][from:zero][to:vera][id:t1][action:info][reply:no]   [ref:m7] up"

def lookAlikeBody : String :=
  "\x7b\"from\": \"zero\", \"text\": \"" ++ lookAlikeText ++ "\"\x7d"

/-- Writes fields that need no escape, and signs with the key itself. -/
def plainPen : Pen where
  dumps fields := "\x7b" ++ ", ".intercalate (fields.map fun (name, value) =>
    "\"" ++ name ++ "\": \"" ++ (match value with | .str s => s | _ => "") ++ "\"") ++ "\x7d"
  sign key data := .ok (key ++ ":" ++ data)

/-- Reads the one body, and knows the signatures of `plainPen`. -/
def lookAlikeKit : Intake.Kit where
  valid := nameToken
  loads text :=
    if text = lookAlikeBody then .ok (.obj [("from", .str "zero"), ("text", .str lookAlikeText)])
    else .error (.valueError text)
  float _ := none
  verify key data signature := .ok (signature = key ++ ":" ++ data)

theorem lookAlike_loads : lookAlikeKit.loads lookAlikeBody =
    .ok (.obj [("from", .str "zero"), ("text", .str lookAlikeText)]) := by
  unfold lookAlikeKit
  dsimp only
  rw [if_pos rfl]

theorem bracketless_of_nameToken {token : String} (h : nameToken token = true) :
    Bracketless nameToken token := by
  refine ⟨h, fun hmem => ?_⟩
  rw [nameToken, TokenRule.of_apply, Bool.and_eq_true, List.all_eq_true] at h
  exact absurd (h.2 _ hmem) (by decide)

theorem zeroDown_tokens : zeroDown.Tokens (Bracketless zeroDown.valid) where
  valid _ h := bracketless_of_nameToken h
  coerce _ _ h := by cases h
  uuid := bracketless_of_nameToken (by decide +kernel)
  uuid_ne := by decide

theorem envelope_roundtrip_lookAlike :
    ∃ mail w₀ fields parsed, ∃ post : Post,
      prepare zeroDown lookAlike [] emptyWorld = (.ok mail, w₀) ∧
      lookAlikeKit.loads post.received.body = .ok (.obj fields) ∧
      Intake.verifyEd25519 lookAlikeKit (fun _ => "key") post.received (Json.get "from" fields) =
        some mail.self ∧
      parseEnvelope lookAlikeKit.valid lookAlikeKit.repr
        (Intake.requestText lookAlikeKit post.received) = some parsed ∧
      parsed.sender = mail.self ∧ parsed.recipient = "vera" ∧
      parsed.toHeader = mail.header none none ∧
      parsed.bodyText = String.ofList (mail.message.toList.dropWhile isSpace) := by
  have hread : (prepare zeroDown lookAlike [] emptyWorld).1.toOption.map (fun mail =>
      (mail.self, mail.agent, mail.padded none none)) = some ("zero", "vera", lookAlikeText) := by
    decide +kernel
  have hsessions : (prepare zeroDown lookAlike [] emptyWorld).1.toOption.map (fun mail =>
      (sessions zeroDown mail).toOption) = some (some (none, none)) := by
    decide +kernel
  generalize hprep : prepare zeroDown lookAlike [] emptyWorld = p at hread hsessions
  obtain ⟨stop | mail, w₀⟩ := p
  · cases hread
  · obtain ⟨hself, hmail⟩ := Prod.mk.inj (Option.some.inj hread)
    obtain ⟨hagent, htext⟩ := Prod.mk.inj hmail
    have hsessions : sessions zeroDown mail = .ok (none, none) := by
      have hsessions : (sessions zeroDown mail).toOption = some (none, none) :=
        Option.some.inj hsessions
      generalize sessions zeroDown mail = out at hsessions
      cases out with
      | error stop => cases hsessions
      | ok out => exact congrArg _ (Option.some.inj hsessions)
    have hdumps : plainPen.dumps [("from", .str "zero"), ("text", .str lookAlikeText)] =
        lookAlikeBody := by
      decide +kernel
    obtain ⟨post, hpost⟩ : ∃ post, compose plainPen "key" "1000"
        (zeroDown.wire mail (mail.padded none none) "http://peer") = .ok post := ⟨_, rfl⟩
    obtain ⟨fields, parsed, h⟩ : ∃ fields parsed,
        lookAlikeKit.loads post.received.body = .ok (.obj fields) ∧
        Intake.verifyEd25519 lookAlikeKit (fun _ => "key") post.received (Json.get "from" fields) =
          some mail.self ∧
        parseEnvelope lookAlikeKit.valid lookAlikeKit.repr
          (Intake.requestText lookAlikeKit post.received) = some parsed ∧
        parsed.sender = mail.self ∧
        parsed.recipient = ({ agentName := "vera" } : Intake.Config).agentName ∧
        parsed.toHeader = mail.header none none ∧
        parsed.bodyText = String.ofList (mail.message.toList.dropWhile isSpace) := by
      have hjson : lookAlikeKit.loads (plainPen.dumps
          [("from", .str mail.self), ("text", .str (mail.padded none none))]) =
            .ok (.obj [("from", .str mail.self), ("text", .str (mail.padded none none))]) := by
        rw [hself, htext, hdumps]
        exact lookAlike_loads
      have hverify : ∀ data signature, plainPen.sign "key" data = .ok signature →
          lookAlikeKit.verify "key" data signature = .ok true := by
        intro data signature hsign
        obtain rfl := Except.ok.inj hsign
        exact congrArg Except.ok (decide_eq_true rfl)
      exact envelope_roundtrip hprep hsessions (ascii_of_all (by rw [hagent]; decide))
        (ascii_of_all (by rw [hself]; decide)) rfl zeroDown_tokens hjson hverify nofun (by decide)
        hagent.symm (by decide) hpost
    exact ⟨mail, w₀, fields, parsed, post, rfl, h⟩

end HermesMesh
