import DeribitClientServer.Server.Token

/-! The three order handlers. Placing an order glues its error replies from
text; modifying and cancelling dump theirs. -/
namespace DeribitClientServer.Server
open Library Library.Utf8

/-- The common tail of the handlers: a token, the authorised POST, the reply. -/
def submit (env : Externals) (path : String) (body : Json) (outcome : Outcome → Except Exn Bytes) :
    Program Bytes := do
  let accessToken ← getAccessToken env
  let res ← apiCall ⟨.post, path, some accessToken, env.dump body⟩
  Exec.ofExcept (outcome res)

section PlaceOrder

/-- A raw literal of process_order with text set between its quotes. -/
def orderError (text : Bytes) : Bytes :=
  encode "\x7b\"type\": \"order_response\", \"error\": \"" ++ text ++ encode "\"\x7d"

def isLimit (orderData : Json) : Bool := (member orderData "type").isStr "limit"

def orderMethod (orderData : Json) : String :=
  if (member orderData "direction").isStr "buy" then "private/buy" else "private/sell"

def orderParams (orderData : Json) : Json :=
  .obj [("instrument_name", member orderData "instrument_name"), ("amount", member orderData "amount"),
    ("type", member orderData "type"), ("label", .str "ui_order")]

def orderRequest (orderData : Json) : Json :=
  .obj [("jsonrpc", .str "2.0"), ("id", numberOf 5275), ("method", .str (orderMethod orderData)),
    ("params", if isLimit orderData then (orderParams orderData).set "price" (member orderData "price")
      else orderParams orderData)]

/-- What is sent back for the outcome of the order's POST. -/
def orderOutcome (env : Externals) (res : Outcome) : Except Exn Bytes :=
  match res with
  | some r =>
      if r.status = 200 then (typed env "order_response" r.body).map env.dump
      else pure (orderError (encode "Failed to process order: " ++ r.body))
  | none => pure (orderError (encode "No response from Deribit API"))

/-- The checks before submission: the error text, or the order data. -/
def checkOrder (env : Externals) (order : Json) : Except String Json :=
  if !order.contains "data" then .error "Invalid order format: 'data' field missing"
  else
    let orderData := member order "data"
    match env.requiredFields.find? (fun field => !orderData.contains field) with
    | some field => .error ("Missing required field: " ++ field)
    | none =>
        if isLimit orderData && !orderData.contains "price" then .error "Price is required for limit orders"
        else .ok orderData

def processOrder (env : Externals) (payload : Bytes) : Program Bytes :=
  tryCatch (do
    let order ← Exec.ofExcept (parseJson env payload)
    match checkOrder env order with
    | .error text => pure (orderError (encode text))
    | .ok orderData => submit env "/api/v2/private/buy" (orderRequest orderData) (orderOutcome env))
    (fun e => pure (orderError (encode "Error processing order: " ++ e.what)))

end PlaceOrder

section ModifyAndCancel

/-- The reply both handlers make of their POST's outcome, under their own type. -/
def editOutcome (env : Externals) (type : String) (res : Outcome) : Except Exn Bytes :=
  match okBody res with
  | some body => (typed env type body).map env.dump
  | none => pure (env.dump (.obj [("type", .str type), ("error", .str (httpError res))]))

def copyMember (orderData : Json) (k : String) (params : Json) : Json :=
  if orderData.contains k then params.set k (member orderData k) else params

def modifyParams (orderData : Json) : Json :=
  copyMember orderData "reduce_only" (copyMember orderData "post_only" (copyMember orderData "price"
    (.obj [("order_id", member orderData "order_id"), ("amount", member orderData "amount")])))

def modifyRequest (orderData : Json) : Json :=
  .obj [("jsonrpc", .str "2.0"), ("id", numberOf 123), ("method", .str "private/edit"),
    ("params", modifyParams orderData)]

def checkModify (request : Json) : Except String Json :=
  if !request.contains "data" then .error "Invalid request format: 'data' field missing"
  else
    let orderData := member request "data"
    match ["order_id", "amount"].find? (fun field => !orderData.contains field) with
    | some field => .error ("Missing required field: " ++ field)
    | none => .ok orderData

def processModifyOrder (env : Externals) (payload : Bytes) : Program Bytes :=
  tryCatch (do
    let request ← Exec.ofExcept (parseJson env payload)
    match checkModify request with
    | .error text => Exec.ofExcept (dumpError env "modify_response" (encode text))
    | .ok orderData => submit env "/api/v2/private/edit" (modifyRequest orderData) (editOutcome env "modify_response"))
    (fun e => Exec.ofExcept
      (dumpError env "modify_response" (encode "Error processing modify order: " ++ e.what)))

def cancelRequest (orderId : String) : Json :=
  .obj [("jsonrpc", .str "2.0"), ("id", numberOf 123), ("method", .str "private/cancel"),
    ("params", .obj [("order_id", .str orderId)])]

def checkCancel (request : Json) : Except String Json :=
  if !request.contains "data" || !(member request "data").contains "order_id" then
    .error "Invalid request format: 'order_id' field missing"
  else .ok (member (member request "data") "order_id")

def processCancelOrder (env : Externals) (payload : Bytes) : Program Bytes :=
  tryCatch (do
    let request ← Exec.ofExcept (parseJson env payload)
    match checkCancel request with
    | .error text => Exec.ofExcept (dumpError env "cancel_response" (encode text))
    | .ok field => do
        let orderId ← Exec.ofExcept (getString env field)
        submit env "/api/v2/private/cancel" (cancelRequest orderId) (editOutcome env "cancel_response"))
    (fun e => Exec.ofExcept
      (dumpError env "cancel_response" (encode "Error processing cancel order: " ++ e.what)))

end ModifyAndCancel

end DeribitClientServer.Server
