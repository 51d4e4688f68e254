import DeribitClientServer.Library.Relational
import DeribitClientServer.Server.LoopSafety
import DeribitClientServer.Server.OrderGate

/-! What the clients can see of the authentication. Two runs that differ in the
bodies of auth responses send the same frames, as long as no order is answered
with the exception such a body raises. -/
namespace DeribitClientServer.Server
open Library Library.JsonText Library.Utf8

section Runs
variable (env : Externals) (supported : List String)

/-- Auth responses of one status: the same, or both with a token that is not
empty, or both malformed or without a string for a token. -/
inductive SameAuth : Outcome → Outcome → Prop where
  | same (res : Outcome) : SameAuth res res
  | granted {status : Nat} {body body' : Bytes} {token token' : String} (hne : token ≠ "") (hne' : token' ≠ "")
      (h : responseToken env body = .ok token) (h' : responseToken env body' = .ok token') :
      SameAuth (some ⟨status, body⟩) (some ⟨status, body'⟩)
  | failed {status : Nat} {body body' : Bytes} {e e' : Exn} (h : responseToken env body = .error e)
      (h' : responseToken env body' = .error e') : SameAuth (some ⟨status, body⟩) (some ⟨status, body'⟩)

/-- Worlds that differ in the bodies of auth responses and in the token cached from them. -/
structure Alike (w w' : World) : Prop where
  auth : ∀ n, SameAuth env (w.auth.get n) (w'.auth.get n)
  api : w.api = w'.api
  steady : w.steady = w'.steady
  system : w.system = w'.system
  sender : w.sender = w'.sender
  members : w.members = w'.members
  noneConnected : w.noneConnected = w'.noneConnected
  accessToken : w.accessToken = "" ↔ w'.accessToken = ""
  tokenExpiry : w.tokenExpiry = w'.tokenExpiry
  pathBuffer : w.pathBuffer = w'.pathBuffer
  updateTemplate : w.updateTemplate = w'.updateTemplate
  lastUpdate : w.lastUpdate = w'.lastUpdate

/-- The server with the frames it has sent. An exception that leaves the
handling of a message or a turn ends the process. -/
structure Serving where
  world : World
  alive : Bool
  sent : List Frame

inductive ServerAct where
  | message (msg : Message)
  | turn (l : Loop)

def ServerAct.program : ServerAct → Program Unit
  | .message msg => processMessage env msg
  | .turn l => l.turn env supported

def Serving.after (s : Serving) (a : ServerAct) : Serving :=
  if s.alive then
    let r := a.program env supported s.world
    ⟨r.state, r.result.isOk, s.sent ++ frames r.trace⟩
  else s

/-- Two runs of the server on the same messages and turns. -/
def pairedRuns : Transition (Serving × Serving) ServerAct where
  initial p := ∃ w w', Alike env w w' ∧ p = (⟨w, true, []⟩, ⟨w', true, []⟩)
  step p a p' := p' = (p.1.after env supported a, p.2.after env supported a)

/-- Where the operation is submitted without a fresh token, failed
authentications raise exceptions with the same text. -/
def SameFailure (w w' : World) (payload : Bytes) (op : Operation) : Prop :=
  ∀ path body outcome, op.intake env payload = .submitted path body outcome → ¬ TokenFresh w →
    ∀ e e', grantedToken env w = .error e → grantedToken env w' = .error e' → e = e'

def Discreet (p : Serving × Serving) : ServerAct → Prop
  | .turn _ => True
  | .message msg => ∀ op, kindOf env msg.payload = .order op → SameFailure env p.1.world p.2.world msg.payload op

end Runs

section Tokens
variable {env : Externals} {w w' : World}

theorem Alike.tokenFresh_iff (h : Alike env w w') : TokenFresh w ↔ TokenFresh w' := by
  rw [TokenFresh, TokenFresh, ne_eq, ne_eq, h.accessToken, h.steady, h.tokenExpiry]

private theorem Alike.staleSteady (h : Alike env w w') : staleSteady w = staleSteady w' := by
  unfold Server.staleSteady
  by_cases he : w.accessToken = ""
  · rw [if_pos he, if_pos (h.accessToken.mp he), h.steady]
  · rw [if_neg he, if_neg (fun he' => he (h.accessToken.mpr he')), h.steady]

private theorem Alike.auth_tail (h : Alike env w w') (n : Nat) :
    SameAuth env (w.auth.tail.get n) (w'.auth.tail.get n) := h.auth (n + 1)

/-- Corresponding auth responses are both refused, or both grant a token, empty in both or in neither. -/
theorem Alike.granted (h : Alike env w w') :
    (∃ e e', grantedToken env w = .error e ∧ grantedToken env w' = .error e') ∨
      ∃ token token', grantedToken env w = .ok token ∧ grantedToken env w' = .ok token' ∧ (token = "" ↔ token' = "") := by
  have hs : SameAuth env w.auth.head w'.auth.head := h.auth 0
  unfold grantedToken
  generalize w.auth.head = res at hs
  generalize w'.auth.head = res' at hs
  cases hs with
  | same =>
    cases okBody res with
    | none => exact .inl ⟨_, _, rfl, rfl⟩
    | some body =>
      cases ht : responseToken env body with
      | error e => exact .inl ⟨e, e, ht, ht⟩
      | ok token => exact .inr ⟨token, token, ht, ht, Iff.rfl⟩
  | @granted status body body' token token' hne hne' ht ht' =>
    by_cases hstatus : status = 200
    · simp only [okBody, Option.bind_some, if_pos hstatus]
      exact .inr ⟨token, token', ht, ht', iff_of_false hne hne'⟩
    · simp only [okBody, Option.bind_some, if_neg hstatus]
      exact .inl ⟨_, _, rfl, rfl⟩
  | @failed status body body' e e' ht ht' =>
    by_cases hstatus : status = 200
    · simp only [okBody, Option.bind_some, if_pos hstatus]
      exact .inl ⟨e, e', ht, ht'⟩
    · simp only [okBody, Option.bind_some, if_neg hstatus]
      exact .inl ⟨_, _, rfl, rfl⟩

/-- A call for a token leaves the worlds alike. -/
theorem Alike.tokenWorld (h : Alike env w w') : Alike env (tokenWorld env w) (tokenWorld env w') := by
  unfold Server.tokenWorld
  by_cases hf : TokenFresh w
  · rw [if_pos hf, if_pos (h.tokenFresh_iff.mp hf)]
    exact { h with steady := congrArg Stream'.tail h.steady }
  · rw [if_neg hf, if_neg (fun hf' => hf (h.tokenFresh_iff.mpr hf'))]
    rcases h.granted with ⟨e, e', he, he'⟩ | ⟨token, token', ht, ht', hempty⟩
    · rw [he, he']
      exact { h with auth := h.auth_tail, steady := h.staleSteady }
    · rw [ht, ht', h.staleSteady]
      exact { h with auth := h.auth_tail, steady := rfl, accessToken := hempty, tokenExpiry := rfl }

/-- A token is had in both worlds or in neither. -/
theorem Alike.tokenResult (h : Alike env w w') :
    (∃ e e', tokenResult env w = .error e ∧ tokenResult env w' = .error e' ∧ ¬ TokenFresh w ∧
      grantedToken env w = .error e ∧ grantedToken env w' = .error e') ∨
    ∃ token token', tokenResult env w = .ok token ∧ tokenResult env w' = .ok token' := by
  unfold Server.tokenResult
  by_cases hf : TokenFresh w
  · rw [if_pos hf, if_pos (h.tokenFresh_iff.mp hf)]
    exact .inr ⟨_, _, rfl, rfl⟩
  · rw [if_neg hf, if_neg (fun hf' => hf (h.tokenFresh_iff.mpr hf'))]
    rcases h.granted with ⟨e, e', he, he'⟩ | ⟨token, token', ht, ht', _⟩
    · exact .inl ⟨e, e', he, he', hf, he, he'⟩
    · exact .inr ⟨token, token', ht, ht'⟩

end Tokens

section Programs
variable {env : Externals}

/-- The program does the same for the clients in worlds that are alike. -/
def Blind {α β : Type} (env : Externals) (V : α → β → Prop) (m : Program α) (m' : Program β) : Prop :=
  Exec.Relates (Alike env) Event.frame? V m m'

private theorem getAccessToken_blind : Blind env (fun _ _ => True) (getAccessToken env) (getAccessToken env) := by
  intro w w' h
  have ht : frames (tokenTrace env w) = frames (tokenTrace env w') := by rw [frames_tokenTrace, frames_tokenTrace]
  rw [getAccessToken_run, getAccessToken_run]
  rcases h.tokenResult with ⟨e, e', he, he', _⟩ | ⟨token, token', hr, hr'⟩
  · rw [he, he']
    exact .raised h.tokenWorld ht
  · rw [hr, hr']
    exact .returned trivial h.tokenWorld ht

/-- The bearer of a request does not change its outcome. -/
private theorem apiCall_blind (r r' : Request) : Blind env (fun a b => a = b) (apiCall r) (apiCall r') := by
  intro w w' h
  exact .returned (congrArg Stream'.head h.api) { h with api := congrArg Stream'.tail h.api } rfl

private theorem steadyNow_blind : Blind env (fun a b => a = b) steadyNow steadyNow := by
  intro w w' h
  exact .returned (congrArg Stream'.head h.steady) { h with steady := congrArg Stream'.tail h.steady } rfl

private theorem systemNow_blind : Blind env (fun a b => a = b) systemNow systemNow := by
  intro w w' h
  exact .returned (congrArg Stream'.head h.system) { h with system := congrArg Stream'.tail h.system } rfl

private theorem connectionsEmpty_blind : Blind env (fun a b => a = b) connectionsEmpty connectionsEmpty := by
  intro w w' h
  exact .returned (congrArg Stream'.head h.noneConnected)
    { h with noneConnected := congrArg Stream'.tail h.noneConnected } rfl

private theorem sendTo_blind (via : Via) (hdl : Hdl) (state : SessionState) (payload : Bytes) (op : Opcode) :
    Blind env (fun _ _ => True) (sendTo via hdl state payload op) (sendTo via hdl state payload op) := by
  intro w w' h
  rw [sendTo_run, sendTo_run]
  cases sendResult state payload op with
  | ok u => exact .returned trivial h rfl
  | error e => exact .raised h rfl

private theorem reply_blind (hdl : Hdl) (payload : Bytes) (op : Opcode) :
    Blind env (fun _ _ => True) (reply hdl payload op) (reply hdl payload op) := by
  have hsender : Blind env (fun a b => a = b) senderState senderState := by
    intro w w' h
    exact .returned (congrArg Stream'.head h.sender) { h with sender := congrArg Stream'.tail h.sender } rfl
  apply Exec.Relates.bind hsender
  rintro state _ rfl
  exact sendTo_blind .reply hdl state payload op

private theorem broadcast_blind (message : Bytes) :
    Blind env (fun _ _ => True) (broadcast message) (broadcast message) := by
  have hconnections : Blind env (fun a b => a = b) connections connections := by
    intro w w' h
    exact .returned (congrArg Stream'.head h.members) { h with members := congrArg Stream'.tail h.members } rfl
  apply Exec.Relates.bind hconnections
  rintro members _ rfl
  exact Exec.Relates.forM members (fun member => sendTo_blind .broadcast member.1 member.2 message .text)

private theorem castOpenOrders_blind (openOrders : Bytes) :
    Blind env (fun _ _ => True) (castOpenOrders env openOrders) (castOpenOrders env openOrders) := by
  apply Exec.Relates.bind (Exec.Relates.ofExcept (parseJson env openOrders))
  rintro data _ rfl
  exact broadcast_blind (env.dump (openOrdersUpdate data))

/-- The fetch and the cast of the open orders, from the update thread or after an order. -/
private theorem refresh_blind :
    Blind env (fun _ _ => True) (broadcastOpenOrdersUpdate env) (broadcastOpenOrdersUpdate env) := by
  have hfetch : Blind env (fun a b => a = b) (getOpenOrders env) (getOpenOrders env) := by
    refine Exec.Relates.bind getAccessToken_blind (fun token token' _ => ?_)
    apply Exec.Relates.bind (apiCall_blind _ _)
    rintro res _ rfl
    exact Exec.Relates.pure rfl
  apply Exec.Relates.bind hfetch
  rintro openOrders _ rfl
  exact castOpenOrders_blind openOrders

end Programs

section Turns
variable {env : Externals}

private theorem orderbookStep_blind (timestamp : Nat) (instrument : String) :
    Blind env (fun _ _ => True) (orderbookStep env timestamp instrument) (orderbookStep env timestamp instrument) := by
  have hwrite (data : Json) : ∀ w w', Alike env w w' →
      Alike env (writeTemplate instrument timestamp data w) (writeTemplate instrument timestamp data w') :=
    fun w w' h => { h with updateTemplate := congrArg (fillTemplate instrument timestamp data) h.updateTemplate }
  refine Exec.Relates.tryCatch (Exec.Relates.bind (Exec.Relates.modify ?_) ?_) (fun _ _ => Exec.Relates.pure trivial)
  · exact fun w w' h => { h with pathBuffer := rfl }
  intro _ _ _
  refine Exec.Relates.bind Exec.Relates.get (fun w w' hw => ?_)
  apply Exec.Relates.bind (apiCall_blind _ _)
  rintro res _ rfl
  cases okBody res with
  | none => exact Exec.Relates.pure trivial
  | some body =>
    by_cases hb : body.head? ≠ some '\x7b'.toUInt8
    · simp only [if_pos hb]
      exact Exec.Relates.pure trivial
    · simp only [if_neg hb]
      apply Exec.Relates.bind (Exec.Relates.ofExcept (parseJson env body))
      rintro orderbook _ rfl
      cases !orderbook.contains "error" && orderbook.contains "result" with
      | false => exact Exec.Relates.pure trivial
      | true =>
        refine Exec.Relates.bind (Exec.Relates.modify (hwrite (member orderbook "result"))) (fun _ _ _ => ?_)
        refine Exec.Relates.bind Exec.Relates.get (fun w w' hw => ?_)
        rw [hw.updateTemplate]
        exact broadcast_blind (env.dump w'.updateTemplate)

private theorem orderbookTurn_blind (supported : List String) :
    Blind env (fun _ _ => True) (orderbookTurn env supported) (orderbookTurn env supported) := by
  have hupdate (now : Nat) : Blind env (fun _ _ => True)
      (Exec.modify (fun w => { w with lastUpdate := now })) (Exec.modify (fun w => { w with lastUpdate := now })) :=
    Exec.Relates.modify (fun w w' h => { h with lastUpdate := rfl })
  refine Exec.Relates.tryCatch (Exec.Relates.bind steadyNow_blind ?_) (fun _ _ => Exec.Relates.pure trivial)
  rintro now _ rfl
  refine Exec.Relates.bind Exec.Relates.get (fun w w' hw => ?_)
  rw [hw.lastUpdate]
  split_ifs with hsoon
  · exact Exec.Relates.pure trivial
  apply Exec.Relates.bind connectionsEmpty_blind
  rintro empty _ rfl
  cases empty with
  | true => exact hupdate now
  | false =>
    apply Exec.Relates.bind systemNow_blind
    rintro timestamp _ rfl
    exact Exec.Relates.bind (Exec.Relates.forM supported (orderbookStep_blind timestamp)) (fun _ _ _ => hupdate now)

private theorem positionsTurn_blind : Blind env (fun _ _ => True) (positionsTurn env) (positionsTurn env) := by
  refine Exec.Relates.bind getAccessToken_blind (fun token token' _ => ?_)
  refine Exec.Relates.forM positionPairs (fun pair => ?_)
  apply Exec.Relates.bind (apiCall_blind _ _)
  rintro res _ rfl
  cases okBody res with
  | none => exact Exec.Relates.pure trivial
  | some body =>
    apply Exec.Relates.bind (Exec.Relates.ofExcept (parseJson env body))
    rintro response _ rfl
    cases response.contains "result" with
    | false => exact Exec.Relates.pure trivial
    | true => exact broadcast_blind _

theorem turn_blind (supported : List String) (l : Loop) :
    Blind env (fun _ _ => True) (l.turn env supported) (l.turn env supported) := by
  cases l with
  | orderbook => exact orderbookTurn_blind supported
  | positions => exact positionsTurn_blind
  | openOrders => exact refresh_blind

end Turns

section Messages
variable {env : Externals} {w w' : World} {op : Operation} {payload : Bytes}

private theorem Alike.operationWorld (h : Alike env w w') (op : Operation) :
    Alike env (op.world env payload w) (op.world env payload w') := by
  unfold Operation.world
  cases op.intake env payload with
  | answered r => exact h
  | submitted path body outcome =>
    have htoken := h.tokenWorld
    unfold Intake.world submitWorld
    rcases h.tokenResult with ⟨e, e', he, he', _⟩ | ⟨token, token', ht, ht'⟩
    · rw [he, he']
      exact htoken
    · rw [ht, ht']
      exact { htoken with api := congrArg Stream'.tail h.api }

/-- The reply to an operation does not depend on the token, only on the exception of a failure. -/
theorem Alike.operationResult (h : Alike env w w') (hf : SameFailure env w w' payload op) :
    op.result env payload w = op.result env payload w' := by
  unfold Operation.result
  cases hi : op.intake env payload with
  | answered r => rfl
  | submitted path body outcome =>
    have hsubmit : submitResult env w outcome = submitResult env w' outcome := by
      unfold submitResult
      rcases h.tokenResult with ⟨e, e', he, he', hstale, hg, hg'⟩ | ⟨token, token', ht, ht'⟩
      · rw [he, he', hf path body outcome hi hstale e e' hg hg']
        rfl
      · rw [ht, ht', h.api]
        rfl
    simp only [Intake.result, hsubmit]

/-- An operation is answered alike, and the refresh after it shows no token. -/
private theorem order_agree (msg : Message) (h : Alike env w w') (hf : SameFailure env w w' msg.payload op) :
    (serve env msg (.order op) w).Agree (Alike env) Event.frame? (fun _ _ => True) (serve env msg (.order op) w') := by
  have hhandler : (op.handler env msg.payload w).Agree (Alike env) Event.frame? (fun a b => a = b)
      (op.handler env msg.payload w') := by
    have ht : frames (op.trace env msg.payload w) = frames (op.trace env msg.payload w') := by
      rw [frames_operation, frames_operation]
    rw [Operation.handler_run, Operation.handler_run, h.operationResult hf]
    cases op.result env msg.payload w' with
    | ok p => exact .returned rfl (h.operationWorld op) ht
    | error e => exact .raised (h.operationWorld op) ht
  apply hhandler.andThen
  rintro p _ rfl
  exact Exec.Relates.bind (reply_blind msg.hdl p msg.opcode) (fun _ _ _ => refresh_blind)

private theorem instruments_blind (msg : Message) (j : Json) :
    Blind env (fun _ _ => True) (serve env msg (.instruments j)) (serve env msg (.instruments j)) := by
  apply Exec.Relates.bind (Exec.Relates.ofExcept (instrumentsQuery env j))
  rintro query _ rfl
  have hfetch : Blind env (fun a b => a = b) (fetchInstruments env query.1 query.2)
      (fetchInstruments env query.1 query.2) := by
    apply Exec.Relates.bind (apiCall_blind _ _)
    rintro res _ rfl
    exact Exec.Relates.ofExcept (instrumentsReply env res)
  apply Exec.Relates.bind hfetch
  rintro response _ rfl
  exact reply_blind msg.hdl response msg.opcode

/-- A message is handled alike when its order, if it is one, meets no failures that differ. -/
theorem processMessage_agree (msg : Message) (h : Alike env w w')
    (hf : ∀ op, kindOf env msg.payload = .order op → SameFailure env w w' msg.payload op) :
    (processMessage env msg w).Agree (Alike env) Event.frame? (fun _ _ => True) (processMessage env msg w') := by
  rw [processMessage_eq, processMessage_eq]
  refine Ran.Agree.orElse ?_ (fun _ _ => reply_blind msg.hdl _ msg.opcode)
  cases hk : kindOf env msg.payload with
  | malformed => exact Exec.Relates.throw _ _ w w' h
  | echo => exact reply_blind msg.hdl msg.payload msg.opcode w w' h
  | instruments j => exact instruments_blind msg j w w' h
  | order op => exact order_agree msg h (hf op hk)
  | unhandled => exact Exec.Relates.pure trivial w w' h

end Messages

section Quotes
variable {env : Externals} {w : World}

/-- An order that fails to authenticate is answered with the text of the exception. -/
theorem failed_auth_quoted {msg : Message} (hk : kindOf env msg.payload = .order .place) {path : String} {body : Json}
    {outcome : Outcome → Except Exn Bytes} (hi : orderIntake env msg.payload = .submitted path body outcome)
    (hstale : ¬ TokenFresh w) {e : Exn} (hg : grantedToken env w = .error e) :
    ∃ f rest, frames (processMessage env msg w).trace = f :: rest ∧
      f.payload = orderError (encode "Error processing order: " ++ e.what) := by
  have hr : Operation.place.result env msg.payload w =
      .ok (orderError (encode "Error processing order: " ++ e.what)) := by
    rw [Operation.result, Operation.intake, hi, Intake.result, submitResult, tokenResult, if_neg hstale, hg]
    rfl
  obtain ⟨f, rest, hfs, _, _, hp⟩ := first_frame env msg w hk
  refine ⟨f, rest, hfs, ?_⟩
  rcases hp with ⟨p, hp, hf⟩ | ⟨⟨e, he⟩, _⟩
  · rw [hr, Except.ok.injEq] at hp
    rw [hf, hp]
  · rw [hr] at he
    cases he

end Quotes

section Secrecy
variable {env : Externals} {supported : List String}

/-- The two runs live or have ended together, in worlds that are alike, with the same frames sent. -/
structure Indistinguishable (env : Externals) (p : Serving × Serving) : Prop where
  world : Alike env p.1.world p.2.world
  alive : p.1.alive = p.2.alive
  sent : p.1.sent = p.2.sent

theorem indistinguishable_step {p p' : Serving × Serving} {a : ServerAct} (hi : Indistinguishable env p)
    (hg : Discreet env p a) (hs : (pairedRuns env supported).step p a p') : Indistinguishable env p' := by
  obtain rfl := hs
  unfold Serving.after
  rw [← hi.alive]
  cases p.1.alive with
  | false => exact hi
  | true =>
    have hagree : (a.program env supported p.1.world).Agree (Alike env) Event.frame? (fun _ _ => True)
        (a.program env supported p.2.world) := by
      cases a with
      | message msg => exact processMessage_agree msg hi.world hg
      | turn l => exact turn_blind supported l _ _ hi.world
    exact ⟨hagree.state, hagree.isOk, congrArg₂ List.append hi.sent hagree.trace⟩

/-- Two runs on the same messages, turns and surroundings, up to the bodies of
auth responses of one kind, send the same frames while no order is answered with
the text of an exception that such bodies raise differently. -/
theorem sent_independent_of_auth {as : List ServerAct} {p : Serving × Serving}
    (r : (pairedRuns env supported).Run (Discreet env) as p) : p.1.sent = p.2.sent := by
  refine (r.invariant (Indistinguishable env) ?_ (fun s a s' hi hg hs => indistinguishable_step hi hg hs)).sent
  rintro p ⟨w, w', h, rfl⟩
  exact ⟨h, rfl, rfl⟩

end Secrecy

section Granted

/-- The auth calls are answered with this body. -/
def authAnswering (body : Bytes) : World := { idleWorld with auth := .const (some ⟨200, body⟩) }

private theorem authAnswering_alike {env : Externals} {body body' : Bytes}
    (h : SameAuth env (some ⟨200, body⟩) (some ⟨200, body'⟩)) : Alike env (authAnswering body) (authAnswering body') :=
  ⟨fun _ => h, rfl, rfl, rfl, rfl, rfl, rfl, Iff.rfl, rfl, rfl, rfl, rfl⟩

private theorem authAnswering_stale (body : Bytes) : ¬ TokenFresh (authAnswering body) := by
  simp [TokenFresh, authAnswering, idleWorld]

private theorem grantedToken_authAnswering (env : Externals) (body : Bytes) :
    grantedToken env (authAnswering body) = responseToken env body := rfl

private theorem grants_sameFailure (token token' : String) (payload : Bytes) (op : Operation) :
    SameFailure grammarExternals (authAnswering (grantText token)) (authAnswering (grantText token')) payload op := by
  intro path body outcome _ _ e e' he
  rw [grantedToken_authAnswering, responseToken_grantText] at he
  cases he

private theorem grants_alike {token token' : String} (hne : token ≠ "") (hne' : token' ≠ "") :
    Alike grammarExternals (authAnswering (grantText token)) (authAnswering (grantText token')) :=
  authAnswering_alike (.granted hne hne' (responseToken_grantText token) (responseToken_grantText token'))

/-- One message in worlds that are alike. -/
private theorem paired_message {env : Externals} {guard : Serving × Serving → ServerAct → Prop} {w w' : World}
    (h : Alike env w w') {msg : Message} (hg : guard (⟨w, true, []⟩, ⟨w', true, []⟩) (.message msg)) :
    (pairedRuns env []).Run guard [.message msg] (Serving.after env [] ⟨w, true, []⟩ (.message msg),
      Serving.after env [] ⟨w', true, []⟩ (.message msg)) :=
  have hstart : (pairedRuns env []).initial (⟨w, true, []⟩, ⟨w', true, []⟩) := ⟨w, w', h, rfl⟩
  (Transition.Run.start hstart).next (.message msg) hg rfl

/-- An order sent with one token or another. -/
theorem sent_under_tokens :
    (Serving.after grammarExternals [] ⟨authAnswering (grantText "first"), true, []⟩
      (.message ⟨1, printText sellOrder, .text⟩)).sent =
    (Serving.after grammarExternals [] ⟨authAnswering (grantText "second"), true, []⟩
      (.message ⟨1, printText sellOrder, .text⟩)).sent := by
  have halike := @grants_alike "first" "second" (by decide) (by decide)
  have r := @paired_message grammarExternals (Discreet grammarExternals) _ _ halike ⟨1, printText sellOrder, .text⟩
    (fun op _ => grants_sameFailure _ _ _ op)
  have hsent := sent_independent_of_auth r
  exact hsent

end Granted

section Refused

/-- What a parse raises over a word that is no JSON. -/
def parseErrorText (body : Bytes) : Bytes :=
  encode ("[json.exception.parse_error.101] parse error at line 1, column 1: " ++
    "syntax error while parsing value - invalid literal; last read: '") ++ body ++ encode "'"

/-- The grammar, with exceptions that quote what was read. -/
def quotingExternals : Externals where
  parse b := match readText b with
    | some j => .ok j.canon
    | none => .error (parseErrorText b)
  dump := grammarExternals.dump
  conversionError := grammarExternals.conversionError
  indexError := grammarExternals.indexError
  utf8Error := grammarExternals.utf8Error
  spelling := some
  requiredFields := grammarExternals.requiredFields
  dump_reads := grammarExternals.dump_reads
  parse_dump j := by
    have hr : readText (grammarExternals.dump j) = some (j.stored some).canon := grammarExternals.dump_reads j
    simp only [hr, Json.canon_canon]
  parse_stored _ j _ := Json.stored_some j
  parse_printed j v h := by
    rw [Json.respell_some, Option.some_inj] at h
    subst h
    rw [readText_printText]
  requiredFields_perm := grammarExternals.requiredFields_perm

private theorem responseToken_refused {body : Bytes} (h : readText body = none) :
    responseToken quotingExternals body = .error ⟨parseErrorText body⟩ := by
  have hp : parseJson quotingExternals body = .error ⟨parseErrorText body⟩ := by
    simp [parseJson, quotingExternals, h, Except.mapError]
  unfold responseToken
  rw [hp]
  rfl

private theorem parse_sale : parseJson quotingExternals (printText sellOrder) = .ok sellOrder.canon :=
  parseJson_printed quotingExternals (Json.respell_some sellOrder)

private theorem kindOf_sale : kindOf quotingExternals (printText sellOrder) = .order .place := by
  rw [kindOf, parse_sale]
  rfl

private theorem checkOrder_quoting (order : Json) :
    checkOrder quotingExternals order = checkOrder grammarExternals order := by
  simp only [checkOrder, quotingExternals]

private theorem submitted_sale : ∃ msg : Message, kindOf quotingExternals msg.payload = .order .place ∧
    ∃ orderData, orderIntake quotingExternals msg.payload =
      .submitted "/api/v2/private/buy" (orderRequest orderData) (orderOutcome quotingExternals) := by
  obtain ⟨orderData, hc, _⟩ := checkOrder_sellOrder
  refine ⟨⟨1, printText sellOrder, .text⟩, kindOf_sale, orderData, ?_⟩
  exact orderIntake_checked parse_sale ((checkOrder_quoting _).trans hc)

/-- The reply to an order quotes the auth response that failed to parse. -/
theorem refused_auth_quoted : ¬ ∀ (env : Externals) (supported : List String) (as : List ServerAct)
    (p : Serving × Serving), (pairedRuns env supported).Run Transition.anyStep as p → p.1.sent = p.2.sent := by
  intro h
  have hx : readText (encode "x") = none := by
    rw [readText_encode]
    rfl
  have hy : readText (encode "y") = none := by
    rw [readText_encode]
    rfl
  have halike : Alike quotingExternals (authAnswering (encode "x")) (authAnswering (encode "y")) :=
    authAnswering_alike (.failed (responseToken_refused hx) (responseToken_refused hy))
  obtain ⟨msg, hk, orderData, hi⟩ := submitted_sale
  have hsent := h _ _ _ _ (@paired_message quotingExternals _ _ _ halike msg trivial)
  have hquoted {body : Bytes} (hb : readText body = none) :=
    failed_auth_quoted hk hi (authAnswering_stale body) (responseToken_refused hb)
  obtain ⟨f, rest, hf, hfp⟩ := hquoted hx
  obtain ⟨g, rest', hg, hgp⟩ := hquoted hy
  simp only [Serving.after, ServerAct.program, if_true, List.nil_append, hf, hg] at hsent
  have hp : f.payload = g.payload := congrArg Frame.payload (List.cons.inj hsent).1
  rw [hfp, hgp, orderError, orderError] at hp
  simp only [parseErrorText, ← encode_append] at hp
  have hd := congrArg decode hp
  simp [decode_encode] at hd

end Refused
end DeribitClientServer.Server
