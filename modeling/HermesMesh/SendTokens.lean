import HermesMesh.SendLeases

/-!
# What a validated call carries

The tokens of a call pass `validate_envelope_token` one by one, its two names `_validate_agent_name`.
Whatever the validator makes sure of holds of every token that the message then carries, and none of
them is empty.
-/

namespace HermesMesh

variable {P : String → Prop} {env : Env} {mail : Mail} {draft : Draft}
  {args kwargs : List (String × Json)} {w w₀ : World}

/-- `P` holds of all that the validator lets through, and of a fresh uuid. -/
structure Env.Tokens (P : String → Prop) (env : Env) : Prop where
  valid : ∀ token, env.valid token = true → P token
  coerce : ∀ v token, env.coerce v = .ok token → P token
  uuid : P env.uuid
  uuid_ne : env.uuid ≠ ""

/-- A token that may be left out. -/
def Carries (P : String → Prop) (token : Option String) : Prop :=
  ∀ value ∈ token, P value ∧ value ≠ ""

theorem Env.Tokens.token (h : env.Tokens P) {v : Json} {token : String}
    (htoken : env.token v = .ok token) : P token := by
  unfold Env.token at htoken
  split at htoken
  · rw [validateEnvelopeToken_eq] at htoken
    split_ifs at htoken with hvalid
    obtain rfl := Except.ok.inj htoken
    exact h.valid _ hvalid
  · exact h.coerce _ _ htoken

theorem carries_orNone {token : String} (h : P token) : Carries P (orNone token) := by
  intro value hvalue
  unfold orNone at hvalue
  split_ifs at hvalue with hempty
  · cases hvalue
  · obtain rfl := Option.some.inj hvalue
    exact ⟨h, hempty⟩

theorem Env.Tokens.optToken (h : env.Tokens P) {name : String} {v : Json} {out : Option String}
    (hout : env.optToken name v = .ok out) : Carries P out := by
  unfold Env.optToken at hout
  split_ifs at hout
  · split at hout
    · rename_i token htoken
      obtain rfl := Except.ok.inj hout
      exact carries_orNone (h.token htoken)
    · cases hout
    · cases hout
  · obtain rfl := Except.ok.inj hout
    nofun

theorem Env.Tokens.ref (h : env.Tokens P) {v : Json} {out : Option String}
    (hout : readRef env v = .ok out) : Carries P out := by
  unfold readRef at hout
  split_ifs at hout
  · split at hout
    · rename_i token htoken
      obtain rfl := Except.ok.inj hout
      exact carries_orNone (h.token htoken)
    · obtain rfl := Except.ok.inj hout
      nofun
    · cases hout
  · obtain rfl := Except.ok.inj hout
    nofun

theorem readAgent_ok {v : Json} {name : String} (h : readAgent env v = .ok name) :
    ∃ raw, validateAgentName env.repr raw = .ok name := by
  unfold readAgent at h
  split at h
  · rename_i name' hname
    obtain rfl := Except.ok.inj h
    unfold Env.agentName at hname
    split at hname
    · exact ⟨_, hname⟩
    · cases hname
  · cases h
  · cases h

/-- The arguments that are read and used as they are. -/
theorem readArgs_ok (hread : readArgs env args kwargs = .ok draft) :
    (∃ raw, validateAgentName env.repr raw = .ok draft.agent) ∧
      ∃ v, readRef env v = .ok draft.ref := by
  unfold readArgs at hread
  obtain ⟨-, -, hread⟩ := bind_ok hread
  obtain ⟨agent, hagent, hread⟩ := bind_ok hread
  obtain ⟨action, -, hread⟩ := bind_ok hread
  obtain ⟨reply, -, hread⟩ := bind_ok hread
  obtain ⟨ref, href, hread⟩ := bind_ok hread
  obtain ⟨thread, -, hread⟩ := bind_ok hread
  obtain rfl := Except.ok.inj hread
  exact ⟨readAgent_ok hagent, _, href⟩

theorem address_ok (haddress : address env draft = .ok mail) :
    mail.toDraft = draft ∧ ∃ taskId, env.optToken "task_id" draft.givenId = .ok taskId ∧
      mail.taskId = taskId.getD env.uuid := by
  have hself := address_self haddress
  generalize mail.self = self at hself
  unfold address at haddress
  obtain ⟨taskId, htask, haddress⟩ := bind_ok haddress
  rw [hself] at haddress
  obtain rfl := Except.ok.inj haddress
  exact ⟨rfl, taskId, htask, rfl⟩

/-- A prepared message has been read and addressed. -/
theorem prepare_ok (hprep : prepare env args kwargs w = (.ok mail, w₀)) :
    ∃ draft, readArgs env args kwargs = .ok draft ∧ address env draft = .ok mail := by
  unfold prepare at hprep
  cases hread : readArgs env args kwargs with
  | error stop => rw [hread] at hprep; cases hprep
  | ok draft =>
    rw [hread] at hprep
    dsimp only at hprep
    split_ifs at hprep
    · cases hprep
    · exact ⟨draft, rfl, (Prod.mk.inj hprep).1⟩

theorem prepare_agent (hprep : prepare env args kwargs w = (.ok mail, w₀)) :
    ∃ raw, validateAgentName env.repr raw = .ok mail.agent := by
  obtain ⟨draft, hread, haddress⟩ := prepare_ok hprep
  rw [(address_ok haddress).1]
  exact (readArgs_ok hread).1

theorem Env.Tokens.taskId (h : env.Tokens P) (haddress : address env draft = .ok mail) :
    Carries P (some mail.taskId) := by
  obtain ⟨-, taskId, htask, heq⟩ := address_ok haddress
  rw [heq]
  cases taskId with
  | none =>
    intro value hvalue
    obtain rfl := Option.some.inj hvalue
    exact ⟨h.uuid, h.uuid_ne⟩
  | some taskId => exact h.optToken htask

/-- A message that is ready for the gate: its names are validated, and so are its tokens. -/
structure Mail.Made (P : String → Prop) (repr : String → String) (mail : Mail) : Prop where
  self : ∃ raw, validateAgentName repr raw = .ok mail.self
  agent : ∃ raw, validateAgentName repr raw = .ok mail.agent
  taskId : Carries P (some mail.taskId)
  ref : Carries P mail.ref

theorem Env.Tokens.prepare (h : env.Tokens P) (hprep : prepare env args kwargs w = (.ok mail, w₀)) :
    mail.Made P env.repr := by
  obtain ⟨draft, hread, haddress⟩ := prepare_ok hprep
  obtain ⟨v, href⟩ := (readArgs_ok hread).2
  refine ⟨⟨_, prepare_self hprep⟩, prepare_agent hprep, h.taskId haddress, ?_⟩
  rw [(address_ok haddress).1]
  exact h.ref href

theorem Env.Tokens.sessions (h : env.Tokens P) {session fromSession : Option String}
    (hsessions : sessions env mail = .ok (session, fromSession)) :
    Carries P session ∧ Carries P fromSession := by
  unfold HermesMesh.sessions at hsessions
  obtain ⟨session', hsession, hsessions⟩ := bind_ok hsessions
  obtain ⟨fromSession', hfrom, hsessions⟩ := bind_ok hsessions
  obtain ⟨rfl, rfl⟩ := Prod.mk.inj (Except.ok.inj hsessions)
  exact ⟨h.optToken hsession, h.optToken hfrom⟩

/-- The header that a call writes is wellformed. -/
theorem Mail.Made.header (hfits : ∀ token, P token → token ≠ "" → Fits token)
    {repr : String → String} (hmade : mail.Made P repr) {session fromSession : Option String}
    (hsessions : Carries P session ∧ Carries P fromSession) :
    (mail.header session fromSession).Wellformed := by
  have hcarries : ∀ {token}, Carries P token → ∀ value ∈ token, Fits value :=
    fun h value hvalue => hfits value (h value hvalue).1 (h value hvalue).2
  obtain ⟨_, hself⟩ := hmade.self
  obtain ⟨_, hagent⟩ := hmade.agent
  exact ⟨fits_agentName hself, fits_agentName hagent, hcarries hmade.taskId _ rfl,
    hcarries hsessions.1, hcarries hsessions.2, hcarries hmade.ref⟩

end HermesMesh
