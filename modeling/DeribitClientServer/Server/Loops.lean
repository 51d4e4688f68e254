import DeribitClientServer.Server.Updates

/-! One turn of each update thread. Only the order book's turn has a handler. -/
namespace DeribitClientServer.Server
open Library Library.Utf8

section Orderbook

/-- 25 ms in nanoseconds. -/
def updateInterval : Nat := 25000 * 1000

def initialTemplate : Json :=
  .obj [("type", .str "orderbook_update"), ("instrument", .str ""), ("timestamp", numberOf 0), ("data", .null)]

def orderbookPath (instrument : String) : String :=
  "/api/v2/public/get_order_book?instrument_name=" ++ instrument ++ "&depth=20"

def fillTemplate (instrument : String) (timestamp : Nat) (data template : Json) : Json :=
  ((template.set "instrument" (.str instrument)).set "timestamp" (numberOf timestamp)).set "data" data

def writeTemplate (instrument : String) (timestamp : Nat) (data : Json) (w : World) : World :=
  { w with updateTemplate := fillTemplate instrument timestamp data w.updateTemplate }

/-- The body of the loop over the supported instruments, with its own handler. -/
def orderbookStep (env : Externals) (timestamp : Nat) (instrument : String) : Program Unit :=
  tryCatch (do
    Exec.modify (fun w => { w with pathBuffer := orderbookPath instrument })
    let w ← Exec.get
    let res ← apiCall ⟨.get, cStr w.pathBuffer, none, []⟩
    match okBody res with
    | none => pure ()
    | some body =>
        if body.head? ≠ some '\x7b'.toUInt8 then pure ()
        else do
          let orderbook ← Exec.ofExcept (parseJson env body)
          if !orderbook.contains "error" && orderbook.contains "result" then do
            Exec.modify (writeTemplate instrument timestamp (member orderbook "result"))
            let w ← Exec.get
            broadcast (env.dump w.updateTemplate)
          else pure ())
    (fun _ => pure ())

def orderbookTurn (env : Externals) (supported : List String) : Program Unit :=
  tryCatch (do
    let now ← steadyNow
    let w ← Exec.get
    if now - w.lastUpdate < updateInterval then pure ()
    else do
      let empty ← connectionsEmpty
      if empty then Exec.modify (fun w => { w with lastUpdate := now })
      else do
        let timestamp ← systemNow
        supported.forM (orderbookStep env timestamp)
        Exec.modify (fun w => { w with lastUpdate := now }))
    (fun _ => pure ())

end Orderbook

section Positions

def positionsRequest (currency kind : String) : Json :=
  .obj [("jsonrpc", .str "2.0"), ("id", numberOf 2236), ("method", .str "private/get_positions"),
    ("params", .obj [("currency", .str currency), ("kind", .str kind)])]

def positionsUpdate (currency kind : String) (data : Json) : Json :=
  .obj [("type", .str "positions_update"), ("currency", .str currency), ("kind", .str kind), ("data", data)]

def positionsStep (env : Externals) (accessToken : String) (pair : String × String) : Program Unit := do
  let res ← apiCall ⟨.post, "/api/v2/private/get_positions", some accessToken,
    env.dump (positionsRequest pair.1 pair.2)⟩
  match okBody res with
  | none => pure ()
  | some body => do
      let response ← Exec.ofExcept (parseJson env body)
      if response.contains "result" then
        broadcast (env.dump (positionsUpdate pair.1 pair.2 (member response "result")))
      else pure ()

/-- The nested loops over currencies and kinds, flattened in their order. -/
def positionPairs : List (String × String) := ["BTC", "ETH"] ×ˢ ["future", "option"]

def positionsTurn (env : Externals) : Program Unit := do
  let accessToken ← getAccessToken env
  positionPairs.forM (positionsStep env accessToken)

end Positions

/-- The loop repeats inline what broadcast_open_orders_update does. -/
def openOrdersTurn (env : Externals) : Program Unit := do
  let openOrders ← getOpenOrders env
  castOpenOrders env openOrders

end DeribitClientServer.Server
