import DeribitClientServer.Server.Orders

/-! What the order handlers do from any state. Each either answers a payload at
once or submits one request, and makes a reply of any exception. -/
namespace DeribitClientServer.Server
open Library Library.JsonText Library.Utf8

section Submission
variable (env : Externals) (w : World) (path : String) (body : Json) (outcome : Outcome → Except Exn Bytes)

def submitResult : Except Exn Bytes := (tokenResult env w).bind (fun _ => outcome w.api.head)

def submitWorld : World :=
  match tokenResult env w with
  | .ok _ => { tokenWorld env w with api := w.api.tail }
  | .error _ => tokenWorld env w

def submitTrace : List Event :=
  match tokenResult env w with
  | .ok token => tokenTrace env w ++ [.api ⟨.post, path, some token, env.dump body⟩]
  | .error _ => tokenTrace env w

theorem submit_run :
    submit env path body outcome w = ⟨submitResult env w outcome, submitWorld env w, submitTrace env w path body⟩ := by
  unfold submit submitResult submitWorld submitTrace
  rw [Exec.run_bind, getAccessToken_run]
  cases tokenResult env w with
  | error e => rfl
  | ok token =>
    simp [(tokenFrame env w).api, Except.bind]

theorem submitFrame : (submitWorld env w).sender = w.sender ∧ (submitWorld env w).members = w.members := by
  unfold submitWorld
  cases tokenResult env w <;> exact ⟨(tokenFrame env w).sender, (tokenFrame env w).members⟩

theorem apiRequests_tokenTrace : apiRequests (tokenTrace env w) = [] := by
  unfold tokenTrace
  split <;> rfl

theorem apiRequests_submitTrace :
    apiRequests (submitTrace env w path body) =
      match tokenResult env w with
      | .ok token => [⟨.post, path, some token, env.dump body⟩]
      | .error _ => [] := by
  unfold submitTrace
  cases tokenResult env w with
  | error e => exact apiRequests_tokenTrace env w
  | ok token =>
    have ht := apiRequests_tokenTrace env w
    unfold apiRequests at ht ⊢
    rw [List.filterMap_append, ht]
    rfl

end Submission

/-- How a handler meets a payload: with an answer, or with a request to submit. -/
inductive Intake where
  | answered (r : Except Exn Bytes)
  | submitted (path : String) (body : Json) (outcome : Outcome → Except Exn Bytes)

namespace Intake
variable (env : Externals) (w : World)

def program : Intake → Program Bytes
  | .answered r => Exec.ofExcept r
  | .submitted path body outcome => submit env path body outcome

def result : Intake → Except Exn Bytes
  | .answered r => r
  | .submitted _ _ outcome => submitResult env w outcome

def world : Intake → World
  | .answered _ => w
  | .submitted _ _ _ => submitWorld env w

def trace : Intake → List Event
  | .answered _ => []
  | .submitted path body _ => submitTrace env w path body

theorem program_run (i : Intake) : i.program env w = ⟨i.result env w, i.world env w, i.trace env w⟩ := by
  cases i with
  | answered r => rfl
  | submitted path body outcome => exact submit_run env w path body outcome

theorem frame (i : Intake) : (i.world env w).sender = w.sender ∧ (i.world env w).members = w.members := by
  cases i with
  | answered r => exact ⟨rfl, rfl⟩
  | submitted path body outcome => exact submitFrame env w

end Intake

section Intakes
variable (env : Externals) (payload : Bytes)

def orderIntake : Intake :=
  match parseJson env payload with
  | .error e => .answered (.error e)
  | .ok order =>
      match checkOrder env order with
      | .error text => .answered (.ok (orderError (encode text)))
      | .ok orderData => .submitted "/api/v2/private/buy" (orderRequest orderData) (orderOutcome env)

def modifyIntake : Intake :=
  match parseJson env payload with
  | .error e => .answered (.error e)
  | .ok request =>
      match checkModify request with
      | .error text => .answered (dumpError env "modify_response" (encode text))
      | .ok orderData => .submitted "/api/v2/private/edit" (modifyRequest orderData) (editOutcome env "modify_response")

def cancelIntake : Intake :=
  match parseJson env payload with
  | .error e => .answered (.error e)
  | .ok request =>
      match checkCancel request with
      | .error text => .answered (dumpError env "cancel_response" (encode text))
      | .ok field =>
          match getString env field with
          | .error e => .answered (.error e)
          | .ok orderId => .submitted "/api/v2/private/cancel" (cancelRequest orderId) (editOutcome env "cancel_response")

end Intakes

inductive Operation where
  | place | modify | cancel
  deriving DecidableEq, Repr

theorem orderIntake_checked {env : Externals} {payload : Bytes} {order orderData : Json}
    (hp : parseJson env payload = .ok order) (hc : checkOrder env order = .ok orderData) :
    orderIntake env payload = .submitted "/api/v2/private/buy" (orderRequest orderData) (orderOutcome env) := by
  simp only [orderIntake, hp, hc]

namespace Operation
variable (env : Externals) (payload : Bytes) (w : World)

def type : Operation → String
  | .place => "place_order"
  | .modify => "modify_order"
  | .cancel => "cancel_order"

def handler : Operation → Program Bytes
  | .place => processOrder env payload
  | .modify => processModifyOrder env payload
  | .cancel => processCancelOrder env payload

def intake : Operation → Intake
  | .place => orderIntake env payload
  | .modify => modifyIntake env payload
  | .cancel => cancelIntake env payload

/-- What the handler's catch makes of an exception. -/
def recover (e : Exn) : Operation → Except Exn Bytes
  | .place => .ok (orderError (encode "Error processing order: " ++ e.what))
  | .modify => dumpError env "modify_response" (encode "Error processing modify order: " ++ e.what)
  | .cancel => dumpError env "cancel_response" (encode "Error processing cancel order: " ++ e.what)

def result (op : Operation) : Except Exn Bytes :=
  match (op.intake env payload).result env w with
  | .ok r => .ok r
  | .error e => op.recover env e

def world (op : Operation) : World := (op.intake env payload).world env w

def trace (op : Operation) : List Event := (op.intake env payload).trace env w

private theorem handler_eq (op : Operation) :
    op.handler env payload =
      tryCatch ((op.intake env payload).program env) (fun e => Exec.ofExcept (op.recover env e)) := by
  cases op with
  | place =>
    simp only [handler, processOrder, intake, orderIntake, recover]
    cases hp : parseJson env payload with
    | error e => rfl
    | ok order => cases hc : checkOrder env order <;> funext w <;> simp [Intake.program, hc]
  | modify =>
    simp only [handler, processModifyOrder, intake, modifyIntake, recover]
    cases hp : parseJson env payload with
    | error e => rfl
    | ok request => cases hc : checkModify request <;> funext w <;> simp [Intake.program, hc]
  | cancel =>
    simp only [handler, processCancelOrder, intake, cancelIntake, recover]
    cases hp : parseJson env payload with
    | error e => rfl
    | ok request =>
      cases hc : checkCancel request with
      | error text => funext w; simp [Intake.program, hc]
      | ok field => cases hg : getString env field <;> funext w <;> simp [Intake.program, hc, hg]

/-- The run of a handler: the intake's, with the catch applied to its result. -/
theorem handler_run (op : Operation) :
    op.handler env payload w = ⟨op.result env payload w, op.world env payload w, op.trace env payload w⟩ := by
  rw [handler_eq, Exec.run_tryCatch, Intake.program_run]
  unfold result world trace
  cases (op.intake env payload).result env w with
  | ok r => rfl
  | error e => simp

theorem frame (op : Operation) :
    (op.world env payload w).sender = w.sender ∧ (op.world env payload w).members = w.members :=
  Intake.frame env w (op.intake env payload)

end Operation

section Requests
variable {env : Externals} {payload : Bytes} {w : World}

/-- A request seen on a handler's run is the one its intake submits. -/
theorem mem_apiRequests_handler (op : Operation) {r : Request}
    (h : r ∈ apiRequests (op.handler env payload w).trace) :
    ∃ path body outcome token, op.intake env payload = .submitted path body outcome ∧
      tokenResult env w = .ok token ∧ r = ⟨.post, path, some token, env.dump body⟩ := by
  rw [Operation.handler_run] at h
  unfold Operation.trace at h
  cases hi : op.intake env payload with
  | answered x => rw [hi] at h; cases h
  | submitted path body outcome =>
    rw [hi] at h
    simp only [Intake.trace, apiRequests_submitTrace] at h
    cases ht : tokenResult env w with
    | error e => rw [ht] at h; cases h
    | ok token =>
      rw [ht] at h
      exact ⟨path, body, outcome, token, rfl, rfl, List.mem_singleton.mp h⟩

/-- A submitted request is seen once a token is had. -/
theorem apiRequests_handler (op : Operation) {path : String} {body : Json} {outcome : Outcome → Except Exn Bytes}
    {token : String} (hi : op.intake env payload = .submitted path body outcome)
    (ht : tokenResult env w = .ok token) :
    apiRequests (op.handler env payload w).trace = [⟨.post, path, some token, env.dump body⟩] := by
  rw [Operation.handler_run]
  simp only [Operation.trace, hi, Intake.trace, apiRequests_submitTrace, ht]

end Requests

section Sale

def sellOrder : Json :=
  .obj [("type", .str "place_order"), ("data", .obj [("instrument_name", .str "BTC-PERPETUAL"),
    ("amount", numberOf 10), ("type", .str "market"), ("direction", .str "sell")])]

/-- Nothing answers, but a token is cached and has not expired. -/
def tokenCached : World := { idleWorld with accessToken := "token", tokenExpiry := 1 }

theorem parse_sellOrder : parseJson grammarExternals (printText sellOrder) = .ok sellOrder.canon := by
  unfold parseJson
  rw [grammarExternals.parse_printed _ _ (Json.respell_some sellOrder)]
  rfl

theorem checkOrder_sellOrder : ∃ orderData, checkOrder grammarExternals sellOrder.canon = .ok orderData ∧
    member orderData "direction" = .str "sell" :=
  ⟨member sellOrder.canon "data", rfl, rfl⟩

theorem tokenCached_fresh : TokenFresh tokenCached := ⟨by decide, Nat.zero_lt_one⟩

theorem tokenCached_result : tokenResult grammarExternals tokenCached = .ok "token" := by
  rw [tokenResult, if_pos tokenCached_fresh]
  rfl

end Sale
end DeribitClientServer.Server
