import HermesMesh.EndToEnd
import HermesMesh.QueuedItems

/-!
# What the outbox delivers later

A send whose delivery fails may leave its message to the outbox, and a later attempt may deliver it, from
another process and to another URL. The recipient cannot tell it from a message that came at once: the
attempt sends the text of the first one (`Redelivers.text`), and a message of which an earlier attempt has
arrived, with the answer lost on its way, is not taken in again. So what was said of a delivery at once
holds of a late one too (`late_is_shown`).
-/

namespace HermesMesh

variable {env env' : Env} {args kwargs extra fields : List (String × Json)} {w w₀ v : World} {mail : Mail}
  {session fromSession : Option String} {item : Outbox.Item} {wire : Wire} {p : Posting} {d : Delivery}

/-- The call reports that its message is queued, and leaves this item. -/
structure Defers (env : Env) (args kwargs : List (String × Json)) (w : World) (mail : Mail)
    (session fromSession : Option String) (item : Outbox.Item) : Prop where
  prepared : ∃ w₀, prepare env args kwargs w = (.ok mail, w₀)
  sessions : sessions env mail = .ok (session, fromSession)
  queued : ∃ resp w', handleMeshSend env args kwargs w = (.ok resp, w') ∧
    resp.state = some "queued" ∧ w'.outbox.head? = some item

theorem Defers.item_eq (h : Defers env args kwargs w mail session fromSession item) :
    item = env.queuedItem mail (mail.padded session fromSession) := by
  obtain ⟨w₀, hprep⟩ := h.prepared
  obtain ⟨resp, w', hsend, hstate, hitem⟩ := h.queued
  obtain ⟨mail', w₁, held, w₂, hprep', -, hforward⟩ := handleMeshSend_queued hsend hstate
  rw [hprep] at hprep'
  obtain rfl := Except.ok.inj (Prod.mk.inj hprep').1
  obtain ⟨session', fromSession', url, hsessions, -, -, -, hhead⟩ := forward_queuedItem hforward hstate
  rw [h.sessions] at hsessions
  obtain ⟨rfl, rfl⟩ := Prod.mk.inj (Except.ok.inj hsessions)
  exact Option.some.inj (hitem.symm.trans hhead)

/-- An attempt at an item comes to this call of `_deliver_webhook`, and is done with the item. -/
structure Redelivers (env : Env) (extra fields : List (String × Json)) (v : World) (wire : Wire)
    (d : Delivery) : Prop where
  posts : ∃ p v₁, beginAttempt env extra fields v = (.posting p, v₁) ∧ p.wire = some wire ∧
    p.deliver env = .ok d
  done : (attemptItem env extra fields v).1 = .ok true

/-- It is done with it because the call delivered it. -/
theorem Redelivers.delivers (h : Redelivers env extra fields v wire d) : d.deliveryId ≠ .null := by
  obtain ⟨p, v₁, hbegin, -, hdeliver⟩ := h.posts
  have hdone := h.done
  unfold attemptItem at hdone
  rw [hbegin] at hdone
  unfold settleAttempt at hdone
  dsimp only at hdone
  rw [hdeliver] at hdone
  dsimp only at hdone
  split_ifs at hdone with hid
  · exact Json.isSome_iff.mp hid
  · cases hdone

/-- The call. -/
theorem Redelivers.call (h : Redelivers env extra fields v wire d) : ∃ allowLoopback url,
    deliverWebhook env.exceptionToReason env.budget env.net allowLoopback url env.signature = .ok d := by
  obtain ⟨p, v₁, -, -, hdeliver⟩ := h.posts
  obtain ⟨_, -, hdeliver⟩ := bind_ok hdeliver
  obtain ⟨_, -, hdeliver⟩ := bind_ok hdeliver
  obtain ⟨allowLoopback, -, hcall⟩ := bind_ok hdeliver
  exact ⟨allowLoopback, p.url, hcall⟩

/-- The two texts of the call are those of the item. -/
theorem resolveItem_texts (h : resolveItem env extra fields = .ok (some p)) :
    itemField "from" fields = .ok p.sender ∧ itemEnvelope fields = .ok p.envelope := by
  obtain ⟨from_, hfrom, h⟩ := bind_ok h
  obtain ⟨to_, -, h⟩ := bind_ok h
  obtain ⟨envelope, henvelope, h⟩ := bind_ok h
  obtain ⟨target, -, h⟩ := bind_ok h
  have hpost : postingOf env extra fields from_ envelope target = some p := Except.ok.inj h
  unfold postingOf at hpost
  split at hpost
  · obtain rfl := Option.some.inj hpost
    exact ⟨hfrom, henvelope⟩
  · cases hpost

/-- The attempt sends the text of the first one, for the same sender, whatever has become of the
identities in the meantime. -/
theorem Redelivers.text {padded : String} {attempt : ℕ} {nextRetry : Time}
    (h : Redelivers env' extra ((env.queuedItem mail padded).later attempt nextRetry).fields v wire d) :
    wire.text = padded ∧ wire.sender = mail.self ∧ wire.headers = [] := by
  obtain ⟨p, v₁, hbegin, hwire, -⟩ := h.posts
  obtain ⟨hfrom, henvelope⟩ := resolveItem_texts (beginAttempt_posting hbegin)
  have hsender : p.sender = .str mail.self := (Except.ok.inj hfrom).symm
  have hpadded : p.envelope = .str padded := by
    replace henvelope : (if (Json.str padded).truthy then .ok (.str padded) else .ok (.str padded) :
      Except PyError Json) = .ok p.envelope := henvelope
    rw [ite_self] at henvelope
    exact (Except.ok.inj henvelope).symm
  unfold Posting.wire at hwire
  rw [hsender, hpadded] at hwire
  obtain rfl := Option.some.inj hwire
  exact ⟨rfl, rfl, rfl⟩

end HermesMesh

namespace HermesMesh.Turns

open Lib Intake
open Routing (Attributed)
open Verdicts (Adapter.under)

variable {cfg : Config} {kit : Kit} {g g' : Gateway} {es : List Event} {env env' : Env}
  {args kwargs extra : List (String × Json)} {w v : World} {mail : Mail}
  {session fromSession : Option String} {item : Outbox.Item} {wire : Wire} {d : Delivery} {pen : Pen}
  {key timestamp : String} {post : Post}

/-- **What is delivered late is shown.** Let a `mesh_send` report that its message is queued, and a later
attempt at the item deliver it, whatever the attempts before it met; and let every answer that this one
got be one that the gateway of the recipient gave to its request. Under the conditions of
`delivered_is_shown` the gateway has then, at rest, given the message one turn, in which the agent is shown
the message as it was written. -/
theorem late_is_shown (hsent : Defers env args kwargs w mail session fromSession item)
    (hlegible : Legible env pen kit mail (mail.padded session fromSession)) {attempt : ℕ}
    {nextRetry : Time}
    (hlate : Redelivers env' extra (item.later attempt nextRetry).fields v wire d)
    (hpost : compose pen key timestamp wire = .ok post) (hopen : Opened g) (h0 : Start g.adapter)
    (hrun : Run (step cfg kit) (Guarded (Roomy cfg kit)) g es g')
    (hanswers : AnsweredBy cfg kit g es g' post.received d)
    (hown : ∀ conn r publicKey now, .request (.arrive conn r publicKey now) ∈ es →
      Verdicts.Carries kit (requestText kit r) mail.taskId →
        requestText kit r = mail.padded session fromSession)
    (hwindow : ∀ a ∈ Adapter.under g'.adapter mail.taskId, ∀ b ∈ Adapter.under g'.adapter mail.taskId,
      b.sweptAt - a.seenAt ≤ cfg.replayWindowTtl)
    (hloop : ∀ e ∈ es, e.cancelsLoop = false) (hrest : Processor.AtRest g'.processor) :
    ∃ event outcome,
      g'.processor.served.filter (fun x => x.1.messageId = mail.taskId) = [(event, outcome)] ∧
      event.text = formatDisplayText mail.self (String.ofList (mail.message.toList.dropWhile isSpace))
        mail.action mail.reply [mail.taskId] mail.ref ∧
      Attributed mail.self event.source := by
  obtain ⟨w₀, hprep⟩ := hsent.prepared
  rw [hsent.item_eq] at hlate
  obtain ⟨hsame, hsender, hheaders⟩ := hlate.text
  obtain ⟨htext, hparse, hne⟩ := hlegible.reads hprep hsent.sessions hsame hsender hheaders hpost
  obtain ⟨allowLoopback, url, hcall⟩ := hlate.call
  obtain ⟨msgId, ⟨parsed, hparsed, rfl⟩, htaken⟩ :=
    taken_in h0 hopen.inTurn.coupled hcall hlate.delivers hanswers
  rw [htext, hparse] at hparsed
  obtain rfl := Option.some.inj hparsed
  obtain ⟨a, event, outcome, hturns, hbecame⟩ :=
    shown_once hparse htaken hopen h0 hrun hown hwindow hloop hrest
  exact ⟨event, outcome, hturns, shows_mail hne hbecame⟩

/-- The wire of an attempt, and whether it is done with its item. -/
def attempted (env : Env) (extra fields : List (String × Json)) (v : World) :
    Option Wire × Option Bool :=
  (match (beginAttempt env extra fields v).1 with
    | .posting p => p.wire
    | _ => none,
    (attemptItem env extra fields v).1.toOption)

theorem redelivers_of_attempted {fields : List (String × Json)}
    (h : attempted env extra fields v = (some wire, some true)) :
    ∃ d, Redelivers env extra fields v wire d := by
  obtain ⟨hwire, hdone⟩ := Prod.mk.inj h
  replace hdone : (attemptItem env extra fields v).1 = .ok true := ok_of_toOption hdone
  cases hbegin : beginAttempt env extra fields v with
  | mk begun v₁ =>
    rw [hbegin] at hwire
    cases begun with
    | posting p =>
      cases hdeliver : p.deliver env with
      | ok d => exact ⟨d, ⟨p, v₁, hbegin, hwire, hdeliver⟩, hdone⟩
      | error e =>
        unfold attemptItem settleAttempt at hdone
        rw [hbegin] at hdone
        dsimp only at hdone
        rw [hdeliver] at hdone
        cases hdone
    | _ => cases hwire

theorem Written.defers {text : String} (h : Written env args kit text mail)
    (hqueued : ((handleMeshSend env args [] emptyWorld).1.toOption.map Response.state,
      (handleMeshSend env args [] emptyWorld).2.outbox.head?) = (some (some "queued"), some item)) :
    Defers env args [] emptyWorld mail none none item := by
  obtain ⟨hstate, hitem⟩ := Prod.mk.inj hqueued
  obtain ⟨resp, hresp, hstate⟩ := Option.map_eq_some_iff.mp hstate
  exact ⟨h.prepared, h.sessions, resp, _, Prod.ext (ok_of_toOption hresp) rfl, hstate, hitem⟩

def newsItem : Outbox.Item :=
  Outbox.newItem 0 0 0 "zero" "vera" lookAlikeText lookAlikeText 0 none false none

def newsWire : Wire := { url := "http://peer", text := lookAlikeText, sender := "zero" }

/-- The news is queued while vera is down, and delivered once she is back. -/
theorem late_is_shown_news : ∃ mail item g' event outcome,
    Defers zeroQueues lookAlike [] emptyWorld mail none none item ∧
    Run (step vera newsKit) Free ⟨freshAdapter, {}⟩ (newsArrives :: newsResumes :: newsTurn) g' ∧
    g'.processor.served.filter (fun x => x.1.messageId = "t1") = [(event, outcome)] ∧
    event.text = formatDisplayText "zero" "[ref:m7] up" .info .no ["t1"] none ∧
    Attributed "zero" event.source := by
  obtain ⟨mail, hnews⟩ : ∃ mail, News zeroQueues mail := exists_news rfl
    ⟨zeroDown_tokens.valid, zeroDown_tokens.coerce, zeroDown_tokens.uuid, zeroDown_tokens.uuid_ne⟩
    (by decide +kernel)
  have hqueued : ((handleMeshSend zeroQueues lookAlike [] emptyWorld).1.toOption.map Response.state,
      (handleMeshSend zeroQueues lookAlike [] emptyWorld).2.outbox.head?) =
        (some (some "queued"), some newsItem) := by
    decide +kernel
  have hlate : attempted zeroSends [] (newsItem.later 1 5).fields emptyWorld =
      (some newsWire, some true) := by
    decide +kernel
  have hsent := hnews.toWritten.defers hqueued
  obtain ⟨d, hlate⟩ := redelivers_of_attempted hlate
  obtain ⟨post, hpost⟩ : ∃ post, compose plainPen "key" "1000" newsWire = .ok post := ⟨_, rfl⟩
  have hreceived : post.received = news := received_written news_dumps rfl rfl rfl rfl hpost
  obtain ⟨g', u, v, hrun, hbefore, hstep, hafter, hof, hanswer, hrest, hwindow⟩ := news_run
  obtain ⟨event, outcome, hturns, hshown, hattributed⟩ :=
    late_is_shown hsent hnews.legible hlate hpost ⟨rfl, rfl, rfl⟩ freshAdapter_start hrun
      (fun o ho _ => by
        obtain ⟨allowLoopback, url, hcall⟩ := hlate.call
        obtain ⟨index, ip, rfl⟩ := Verdicts.mem_dials hcall ho
        rw [hreceived]
        exact ⟨[newsArrives], _, newsTurn, 0, u, v, _, rfl, hbefore, hstep, hafter, hof, hanswer, rfl⟩)
      (fun conn r publicKey now harrives _ => by
        obtain ⟨w₀, hprep⟩ := hnews.prepared
        rw [only_news harrives, ← hreceived]
        exact (hnews.legible.reads hprep hnews.sessions hnews.padded.symm hnews.self.symm rfl hpost).1)
      (by rw [hnews.taskId]; exact hwindow) (by decide) hrest
  obtain ⟨haction, hreply, href⟩ := hnews.choices
  refine ⟨mail, newsItem, g', event, outcome, hsent, hrun.mono fun _ _ _ => trivial, ?_, ?_, ?_⟩
  · rw [← hnews.taskId, hturns]
  · rw [hshown, hnews.self, hnews.message, haction, hreply, hnews.taskId, href]
  · rw [← hnews.self]
    exact hattributed

end HermesMesh.Turns
