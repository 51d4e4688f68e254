import DeribitClientServer.Server.Orders
import DeribitClientServer.Server.Updates

/-! One client message from parse to replies, under one catch. -/
namespace DeribitClientServer.Server
open Library Library.Utf8

structure Message where
  hdl : Hdl
  payload : Bytes
  opcode : Opcode

/-- A member read with operator[] and converted to a string. -/
def stringMember (env : Externals) (j : Json) (k : String) : Except Exn String := do
  let v ← index env j k
  getString env v

/-- A member is read as a string exactly when it is one. -/
theorem stringMember_ok_iff {env : Externals} {j : Json} {k s : String} :
    stringMember env j k = .ok s ↔ j.get? k = some (.str s) := by
  cases j with
  | obj ms =>
    simp only [stringMember, index]
    cases hg : (Json.obj ms).get? k with
    | none => exact iff_of_false (by rintro ⟨⟩) (by simp)
    | some v =>
      cases v with
      | str s' =>
        rw [Option.some_inj, Json.str.injEq]
        exact ⟨fun h => Except.ok.inj h, fun h => h ▸ rfl⟩
      | null | bool _ | num _ | arr _ | obj _ => exact iff_of_false (by rintro ⟨⟩) (by simp)
  | null | bool _ | num _ | str _ | arr _ => exact iff_of_false (by rintro ⟨⟩) (by simp [Json.get?])

/-- An order operation replies, then fetches and broadcasts the open orders. -/
def replyAndUpdate (env : Externals) (msg : Message) (handler : Program Bytes) : Program Unit := do
  let response ← handler
  reply msg.hdl response msg.opcode
  broadcastOpenOrdersUpdate env

def dispatch (env : Externals) (msg : Message) (j : Json) (type : String) : Program Unit := do
  if type = "echo" then
    reply msg.hdl msg.payload msg.opcode
  else if type = "get_instruments" then do
    let currency ← Exec.ofExcept (stringMember env j "currency")
    let kind ← Exec.ofExcept (stringMember env j "kind")
    let instrumentsResponse ← fetchInstruments env currency kind
    reply msg.hdl instrumentsResponse msg.opcode
  else if type = "modify_order" then
    replyAndUpdate env msg (processModifyOrder env msg.payload)
  else if type = "cancel_order" then
    replyAndUpdate env msg (processCancelOrder env msg.payload)
  else pure ()
  if type = "place_order" then
    replyAndUpdate env msg (processOrder env msg.payload)
  else pure ()

def internalError (msg : Message) : Program Unit := reply msg.hdl (encode "Internal server error") msg.opcode

def processMessage (env : Externals) (msg : Message) : Program Unit :=
  tryCatch (do
    let j ← Exec.ofExcept (parseJson env msg.payload)
    let type ← Exec.ofExcept (stringMember env j "type")
    dispatch env msg j type)
    (fun _ => internalError msg)

end DeribitClientServer.Server
