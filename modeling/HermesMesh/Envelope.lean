import HermesMesh.Common
import HermesMesh.Text

/-!
# The envelope

The bracket header that `handle_mesh_send` puts before a message, the pattern with which the adapter
reads it back, and the text the adapter shows the recipient. The header is a row of bracketed fields,
and reading takes them off one by one, so the header of a message reads back as it was written
(`matchEnvelope_header`).
-/

namespace HermesMesh

/-! ## Agent names -/

/-- `[a-z0-9]` under `re.IGNORECASE`: four characters outside ASCII match it too. -/
def isNameStart (c : Char) : Bool :=
  c.isAlphanum || c.toNat = 0x130 || c.toNat = 0x131 || c.toNat = 0x17F || c.toNat = 0x212A

/-- `[a-z0-9_.-]`. -/
def isNameChar (c : Char) : Bool := isNameStart c || c = '_' || c = '.' || c = '-'

/-- `str.lower` on a character that may stand in a name. -/
def lowerName (c : Char) : List Char :=
  if c.toNat = 0x130 then ['i', Char.ofNat 0x307] else [lowerChar c]

/-- ASCII, the four other letters of the pattern, and the combining dot that one of them leaves. -/
def lowersAlone (c : Char) : Bool := c.toNat < 128 || isNameChar c || c.toNat = 0x307

/-- `str.lower`; `other` is what it does to text with other characters. -/
def strLower (other : String → String) (s : String) : String :=
  if s.toList.all lowersAlone then String.ofList (s.toList.flatMap lowerName) else other s

/-- `_validate_agent_name`; `repr` is Python's. -/
def validateAgentName (repr : String → String) (name : String) : Except PyError String :=
  let name := strip name
  if name = "" then .error (.valueError "Agent name must not be empty")
  else if hasText ".." name then
    .error (.valueError ("Agent name contains '..': " ++ repr name))
  else
    match name.toList with
    | c :: rest =>
      if isNameStart c && rest.all isNameChar then
        .ok (String.ofList (name.toList.flatMap lowerName))
      else
        .error (.valueError ("Invalid agent name: " ++ repr name ++
          ". Allowed: a-z, 0-9, underscore, dot, hyphen, starting with alphanumeric."))
    | [] => .error (.valueError "Agent name must not be empty")

/-! ## Fields -/

inductive Action where
  | do_
  | info
  deriving DecidableEq, Repr

inductive Reply where
  | yes
  | no
  | end_
  deriving DecidableEq, Repr

def Action.text : Action → String
  | do_ => "do"
  | info => "info"

def Reply.text : Reply → String
  | yes => "yes"
  | no => "no"
  | end_ => "end"

/-- `action not in {"do", "info"}`. -/
def readAction : String → Option Action
  | "do" => some .do_
  | "info" => some .info
  | _ => none

/-- `reply not in {"yes", "no", "end"}`. -/
def readReply : String → Option Reply
  | "yes" => some .yes
  | "no" => some .no
  | "end" => some .end_
  | _ => none

/-- One field of the header. -/
def tag (key value : String) : String := "[" ++ key ++ ":" ++ value ++ "]"

/-- A field that is left out without a value. -/
def optTag (key : String) : Option String → String
  | some value => tag key value
  | none => ""

/-- What the header says. -/
structure Header where
  sender : String
  recipient : String
  msgId : String
  session : Option String
  fromSession : Option String
  action : Action
  reply : Reply
  ref : Option String
  deriving DecidableEq, Repr

/-- The header before a message. -/
def Header.text (h : Header) : String :=
  "[mesh]" ++ tag "v" "1" ++ tag "from" h.sender ++ tag "to" h.recipient ++
    tag "id" h.msgId ++ optTag "session" h.session ++ optTag "from_session" h.fromSession ++
    tag "action" h.action.text ++ tag "reply" h.reply.text ++ optTag "ref" h.ref

/-! ## Reading -/

/-- `\[key:([^\]]+)\]` at the head of the text: the value, and the text after it. -/
def bracket (key : String) (text : List Char) : Option (String × List Char) := do
  let rest ← text.dropPrefix? ("[" ++ key ++ ":").toList
  match rest.takeWhile (· ≠ ']'), rest.dropWhile (· ≠ ']') with
  | c :: value, _ :: rest => some (String.ofList (c :: value), rest)
  | _, _ => none

/-- `(?:\[key:([^\]]+)\])?`. No other field begins the same way, so nothing is ever tried again
without it. -/
def optBracket (key : String) (text : List Char) : Option String × List Char :=
  match bracket key text with
  | some (value, rest) => (some value, rest)
  | none => (none, text)

/-- The groups of `_envelope_regex`, and the text after the match. -/
structure Groups where
  sender : String
  recipient : String
  msgId : String
  session : Option String
  fromSession : Option String
  action : Option String
  reply : Option String
  ref : Option String
  rest : List Char
  deriving DecidableEq, Repr

/-- `_envelope_regex().match`. -/
def matchEnvelope (text : String) : Option Groups := do
  let text ← (text.toList.dropWhile isSpace).dropPrefix? "[mesh]".toList
  let (_, text) := optBracket "v" text
  let (sender, text) ← bracket "from" text
  let (recipient, text) ← bracket "to" text
  let (msgId, text) ← bracket "id" text
  let (session, text) := optBracket "session" text
  let (fromSession, text) := optBracket "from_session" text
  let (action, text) := optBracket "action" text
  let (reply, text) := optBracket "reply" text
  let (ref, text) := optBracket "ref" text
  return ⟨sender, recipient, msgId, session, fromSession, action, reply, ref,
    text.dropWhile isSpace⟩

/-- What `_parse_envelope` returns. -/
structure Parsed extends Header where
  bodyText : String
  deriving DecidableEq, Repr

/-- A token that may be left out. -/
def optToken (valid : TokenRule) : Option String → Except PyError (Option String)
  | some token => (validateEnvelopeToken valid token).map some
  | none => .ok none

/-- `_parse_envelope`; `none` is the answer 400. -/
def parseEnvelope (valid : TokenRule) (repr : String → String) (text : String) : Option Parsed := do
  let groups ← matchEnvelope text
  let sender ← (validateAgentName repr groups.sender).toOption
  let recipient ← (validateAgentName repr groups.recipient).toOption
  let session ← (optToken valid groups.session).toOption
  let fromSession ← (optToken valid groups.fromSession).toOption
  let action ← readAction (groups.action.getD "info")
  let reply ← readReply (groups.reply.getD "no")
  let msgId ← (validateEnvelopeToken valid groups.msgId).toOption
  let ref ← (optToken valid groups.ref).toOption
  return { sender, recipient, msgId, session, fromSession, action, reply, ref,
           bodyText := String.ofList (groups.rest.dropWhile isSpace) }

/-! ## What the recipient sees -/

/-- The id that the call to action names as `thread=`. -/
def threadAddress (reply : Reply) (msgIds : List String) : Option String :=
  match reply, msgIds with
  | .end_, _ => none
  | _, [msgId] => if msgId = "" then none else some msgId
  | _, _ => none

/-- The call to action of `_format_display_text`. -/
def callToAction (sender : String) (action : Action) (reply : Reply) (msgIds : List String) :
    String :=
  match reply with
  | .end_ => " (thread closed by sender — no reply owed; new message = new thread)"
  | _ =>
    " [Reply via mesh to " ++ sender ++ " — action: " ++ action.text ++ ", reply: " ++
      reply.text ++ "]" ++
      (match threadAddress reply msgIds with
        | some msgId => " · thread=" ++ msgId
        | none => "")

/-- `_format_display_text`. -/
def formatDisplayText (sender bodyText : String) (action : Action) (reply : Reply)
    (msgIds : List String) (ref : Option String) : String :=
  let threadTags := String.join ((msgIds.filter (· ≠ "")).map fun i => " [thread:" ++ i ++ "]")
  let replyToTag := match ref with
    | some ref => " [re:" ++ ref ++ "]"
    | none => ""
  "⬡ [Mesh from:" ++ sender ++ "]" ++ threadTags ++ replyToTag ++ " " ++ bodyText ++
    callToAction sender action reply msgIds

theorem threadAddress_eq {reply : Reply} {msgId thread : String}
    (h : threadAddress reply [msgId] = some thread) : reply ≠ .end_ ∧ thread = msgId := by
  unfold threadAddress at h
  split at h
  · cases h
  · rename_i hne heq
    split_ifs at h
    obtain rfl := Option.some.inj h
    obtain rfl := (List.cons.inj heq).1
    exact ⟨hne, rfl⟩
  · cases h

/-- The display of a single message ends with the id that it names. -/
theorem formatDisplayText_thread {reply : Reply} {msgId thread : String}
    (h : threadAddress reply [msgId] = some thread) (sender bodyText : String) (action : Action)
    (ref : Option String) :
    ∃ front, formatDisplayText sender bodyText action reply [msgId] ref =
      front ++ " · thread=" ++ thread := by
  have hcall : callToAction sender action reply [msgId] =
      " [Reply via mesh to " ++ sender ++ " — action: " ++ action.text ++ ", reply: " ++
        reply.text ++ "]" ++ (" · thread=" ++ thread) := by
    unfold callToAction
    rw [h]
    cases reply with
    | end_ => exact absurd rfl (threadAddress_eq h).1
    | yes => rfl
    | no => rfl
  unfold formatDisplayText
  rw [hcall]
  simp only [← String.append_assoc]
  exact ⟨_, rfl⟩

/-! ## The header reads back -/

/-- A value that a field can carry. -/
def Fits (value : String) : Prop := value ≠ "" ∧ ']' ∉ value.toList

instance : DecidablePred Fits := fun _ => inferInstanceAs (Decidable (_ ∧ _))

/-- Every value of the header can be carried. -/
structure Header.Wellformed (h : Header) : Prop where
  sender : Fits h.sender
  recipient : Fits h.recipient
  msgId : Fits h.msgId
  session : ∀ value ∈ h.session, Fits value
  fromSession : ∀ value ∈ h.fromSession, Fits value
  ref : ∀ value ∈ h.ref, Fits value

variable {key key' value : String} {rest : List Char}

theorem tag_toList (key value : String) :
    (tag key value).toList = ("[" ++ key ++ ":").toList ++ (value.toList ++ [']']) := by
  simp [tag]

/-- A field is read back. -/
theorem bracket_tag (key : String) (hvalue : Fits value) (rest : List Char) :
    bracket key ((tag key value).toList ++ rest) = some (value, rest) := by
  have hstop : ∀ c ∈ value.toList, decide (c ≠ ']') = true := by
    intro c hc
    rw [decide_eq_true_iff]
    rintro rfl
    exact hvalue.2 hc
  have hdrop : List.dropPrefix? ((tag key value).toList ++ rest) ("[" ++ key ++ ":").toList =
      some (value.toList ++ ']' :: rest) := by
    rw [tag_toList, List.append_assoc, List.dropPrefix?_append_of_beq _ (beq_self_eq_true _)]
    simp
  have htake : (value.toList ++ ']' :: rest).takeWhile (· ≠ ']') = value.toList := by
    rw [List.takeWhile_append_of_pos hstop]
    simp
  have hafter : (value.toList ++ ']' :: rest).dropWhile (· ≠ ']') = ']' :: rest := by
    rw [List.dropWhile_append_of_pos hstop]
    simp
  unfold bracket
  simp only [hdrop, Option.bind_eq_bind, Option.bind_some, htake, hafter]
  cases hl : value.toList with
  | nil => exact absurd (String.toList_eq_nil_iff.mp hl) hvalue.1
  | cons c l =>
    show some (String.ofList (c :: l), rest) = _
    rw [← hl, String.ofList_toList]

/-- A field under another key is not read. -/
theorem bracket_tag_of_ne (hkey : ':' ∉ key.toList) (hkey' : ':' ∉ key'.toList) (hne : key ≠ key')
    (value : String) (rest : List Char) :
    bracket key ((tag key' value).toList ++ rest) = none := by
  have hdrop : List.dropPrefix? ((tag key' value).toList ++ rest) ("[" ++ key ++ ":").toList =
      none := by
    by_contra hsome
    obtain ⟨after, heq⟩ := Option.ne_none_iff_exists'.mp hsome
    obtain ⟨front, happ, hfront⟩ := List.dropPrefix?_eq_some_iff.mp heq
    rw [beq_iff_eq] at hfront
    rw [hfront, tag_toList] at happ
    replace happ : key'.toList ++ ':' :: (value.toList ++ ']' :: rest) =
        key.toList ++ ':' :: after := by
      simpa using happ
    -- up to the first colon both sides are the key
    have hto := congrArg (List.takeWhile (· ≠ ':')) happ
    rw [List.takeWhile_append_of_pos, List.takeWhile_append_of_pos] at hto
    · exact hne (String.toList_injective (by simpa using hto.symm))
    all_goals
      intro c hc
      rw [decide_eq_true_iff]
      rintro rfl
      contradiction
  unfold bracket
  rw [hdrop]
  rfl

theorem bracket_optTag_of_ne (hkey : ':' ∉ key.toList) (hkey' : ':' ∉ key'.toList)
    (hne : key ≠ key') (value : Option String) (hrest : bracket key rest = none) :
    bracket key ((optTag key' value).toList ++ rest) = none := by
  cases value with
  | none => exact hrest
  | some value => exact bracket_tag_of_ne hkey hkey' hne value rest

theorem optBracket_tag (key : String) (hvalue : Fits value) (rest : List Char) :
    optBracket key ((tag key value).toList ++ rest) = (some value, rest) := by
  unfold optBracket
  rw [bracket_tag key hvalue]

/-- An optional field is read back where the text after it does not read as one. -/
theorem optBracket_optTag (key : String) {value : Option String}
    (hvalue : ∀ v ∈ value, Fits v) (hrest : bracket key rest = none) :
    optBracket key ((optTag key value).toList ++ rest) = (value, rest) := by
  cases value with
  | none =>
    show optBracket key rest = _
    unfold optBracket
    rw [hrest]
  | some value => exact optBracket_tag key (hvalue value rfl) rest

theorem fits_action (action : Action) : Fits action.text := by
  cases action <;> decide

theorem fits_reply (reply : Reply) : Fits reply.text := by
  cases reply <;> decide

theorem toLower_bracket {c : Char} (h : c.toLower = ']') : c = ']' := by
  unfold Char.toLower at h
  split at h
  · rename_i hc
    have hval : c.val + ('a'.val - 'A'.val) = ']'.val := congrArg Char.val h
    have hlo : 65 ≤ c.val.toNat := hc.1
    have hhi : c.val.toNat ≤ 90 := hc.2
    have hsum := congrArg UInt32.toNat hval
    rw [UInt32.toNat_add, show ('a'.val - 'A'.val).toNat = 32 from rfl,
      show ']'.val.toNat = 93 from rfl] at hsum
    omega
  · exact h

theorem bracket_not_mem_lowerName {c : Char} (h : isNameChar c = true) : ']' ∉ lowerName c := by
  unfold lowerName lowerChar
  split_ifs
  · decide
  · decide
  · intro hmem
    rw [toLower_bracket (List.mem_singleton.mp hmem).symm] at h
    exact absurd h (by decide)

theorem lowerName_ne_nil (c : Char) : lowerName c ≠ [] := by
  unfold lowerName
  split_ifs <;> nofun

/-- A validated name can stand in the header. -/
theorem fits_agentName {repr : String → String} {name out : String}
    (h : validateAgentName repr name = .ok out) : Fits out := by
  unfold validateAgentName at h
  dsimp only at h
  split at h
  · cases h
  · split at h
    · cases h
    · split at h
      · rename_i c rest hlist
        split at h
        · rename_i hname
          obtain rfl := Except.ok.inj h
          rw [Bool.and_eq_true, List.all_eq_true] at hname
          have hall : ∀ d ∈ c :: rest, isNameChar d = true := by
            refine List.forall_mem_cons.mpr ⟨?_, hname.2⟩
            unfold isNameChar
            rw [hname.1, Bool.true_or, Bool.true_or, Bool.true_or]
          rw [hlist]
          refine ⟨fun hnil => ?_, fun hmem => ?_⟩
          · have hflat := String.toList_eq_nil_iff.mpr hnil
            rw [String.toList_ofList, List.flatMap_cons] at hflat
            exact lowerName_ne_nil c (List.append_eq_nil_iff.mp hflat).1
          · rw [String.toList_ofList, List.mem_flatMap] at hmem
            obtain ⟨d, hd, hd'⟩ := hmem
            exact bracket_not_mem_lowerName (hall d hd) hd'
        · cases h
      · cases h

/-- **The header reads back** as it was written, whatever the message after it. -/
theorem matchEnvelope_header {h : Header} (hh : h.Wellformed) (message : String) :
    matchEnvelope (h.text ++ " " ++ message) =
      some ⟨h.sender, h.recipient, h.msgId, h.session, h.fromSession, some h.action.text,
        some h.reply.text, h.ref, message.toList.dropWhile isSpace⟩ := by
  have hmessage : bracket "ref" (' ' :: message.toList) = none := by
    rfl
  have hsplit : (h.text ++ " " ++ message).toList =
      "[mesh]".toList ++ ((tag "v" "1").toList ++ ((tag "from" h.sender).toList ++
        ((tag "to" h.recipient).toList ++ ((tag "id" h.msgId).toList ++
          ((optTag "session" h.session).toList ++
            ((optTag "from_session" h.fromSession).toList ++
              ((tag "action" h.action.text).toList ++ ((tag "reply" h.reply.text).toList ++
                ((optTag "ref" h.ref).toList ++ ' ' :: message.toList))))))))) := by
    unfold Header.text
    simp only [String.toList_append, List.append_assoc]
    rfl
  have hstart : ∀ text : List Char,
      (("[mesh]".toList ++ text).dropWhile isSpace).dropPrefix? "[mesh]".toList = some text := by
    intro text
    show List.dropPrefix? ("[mesh]".toList ++ text) _ = _
    exact List.dropPrefix?_append_of_beq text (beq_self_eq_true _)
  unfold matchEnvelope
  rw [hsplit, hstart]
  simp only [Option.bind_eq_bind, Option.bind_some]
  rw [optBracket_tag "v" (by decide), bracket_tag "from" hh.sender]
  simp only [Option.bind_some]
  rw [bracket_tag "to" hh.recipient]
  simp only [Option.bind_some]
  rw [bracket_tag "id" hh.msgId]
  simp only [Option.bind_some]
  rw [optBracket_optTag "session" hh.session
      (bracket_optTag_of_ne (by decide) (by decide) (by decide) _
        (bracket_tag_of_ne (by decide) (by decide) (by decide) _ _)),
    optBracket_optTag "from_session" hh.fromSession
      (bracket_tag_of_ne (by decide) (by decide) (by decide) _ _),
    optBracket_tag "action" (fits_action _), optBracket_tag "reply" (fits_reply _),
    optBracket_optTag "ref" hh.ref hmessage]
  rfl

/-- A token that passes comes out as it went in. -/
theorem token_eq {valid : TokenRule} {token out : String}
    (h : (validateEnvelopeToken valid token).toOption = some out) : out = token := by
  simp only [validateEnvelopeToken_eq] at h
  split_ifs at h
  · exact (Option.some.inj h).symm
  · cases h

theorem optToken_eq {valid : TokenRule} {token out : Option String}
    (h : (optToken valid token).toOption = some out) : out = token := by
  cases token with
  | none => exact (Option.some.inj h).symm
  | some token =>
    unfold optToken at h
    simp only [validateEnvelopeToken_eq] at h
    split_ifs at h
    · exact (Option.some.inj h).symm
    · cases h

theorem readAction_text (action : Action) : readAction action.text = some action := by
  cases action <;> rfl

theorem readReply_text (reply : Reply) : readReply reply.text = some reply := by
  cases reply <;> rfl

/-- **The envelope reads back.** Where the adapter takes the envelope, it reads the fields as they
were written; only the two names go through the name check once more. -/
theorem parseEnvelope_header {h : Header} (hh : h.Wellformed) {valid : TokenRule}
    {repr : String → String} {message : String} {parsed : Parsed}
    (hparse : parseEnvelope valid repr (h.text ++ " " ++ message) = some parsed) :
    parsed.msgId = h.msgId ∧ parsed.session = h.session ∧ parsed.fromSession = h.fromSession ∧
      parsed.action = h.action ∧ parsed.reply = h.reply ∧ parsed.ref = h.ref := by
  unfold parseEnvelope at hparse
  rw [matchEnvelope_header hh, Option.bind_eq_bind, Option.bind_some] at hparse
  obtain ⟨sender, -, hparse⟩ := Option.bind_eq_some_iff.mp hparse
  obtain ⟨recipient, -, hparse⟩ := Option.bind_eq_some_iff.mp hparse
  obtain ⟨session, hsession, hparse⟩ := Option.bind_eq_some_iff.mp hparse
  obtain ⟨fromSession, hfrom, hparse⟩ := Option.bind_eq_some_iff.mp hparse
  obtain ⟨action, haction, hparse⟩ := Option.bind_eq_some_iff.mp hparse
  obtain ⟨reply, hreply, hparse⟩ := Option.bind_eq_some_iff.mp hparse
  obtain ⟨msgId, hmsgId, hparse⟩ := Option.bind_eq_some_iff.mp hparse
  obtain ⟨ref, href, hparse⟩ := Option.bind_eq_some_iff.mp hparse
  obtain rfl := Option.some.inj hparse
  rw [Option.getD_some, readAction_text] at haction
  rw [Option.getD_some, readReply_text] at hreply
  exact ⟨token_eq hmsgId, optToken_eq hsession, optToken_eq hfrom, (Option.some.inj haction).symm,
    (Option.some.inj hreply).symm, optToken_eq href⟩

end HermesMesh
