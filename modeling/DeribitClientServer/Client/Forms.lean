import DeribitClientServer.Client.Script

/-! The forms that place and modify orders. Each listens to the one socket and
takes any reply of its type for its own. -/
namespace DeribitClientServer.Client
open Library Library.JsonText Library.Utf8

section OrderForm

structure OrderForm where
  amount : String
  price : String
  orderType : String
  direction : String
  isSubmitting : Bool
  message : Option Notice

def OrderForm.initial : OrderForm := ⟨"", "", "market", "buy", false, none⟩

/-- The effect on a change of instrument; a submission under way is kept. -/
def OrderForm.instrumentEffect (f : OrderForm) : OrderForm :=
  { f with amount := "", price := "", orderType := "market", direction := "buy", message := none }

def OrderForm.order (sc : Script) (f : OrderForm) (instrument : String) : Json :=
  object [("type", some (.str "place_order")), ("data", some (object [("instrument_name", some (.str instrument)),
    ("amount", some (number sc f.amount)), ("type", some (.str f.orderType)), ("direction", some (.str f.direction)),
    ("price", if f.orderType = "limit" then some (number sc f.price) else none)]))]

def OrderForm.handleSubmit (sc : Script) (wsOpen : Bool) (instrument : String) : Handler OrderForm Unit := do
  if wsOpen then do
    Exec.modify (fun f => { f with isSubmitting := true })
    Exec.modify (fun f => { f with message := none })
    let f ← Exec.get
    Exec.emit (printText (f.order sc instrument))
  else Exec.modify (fun f => { f with message := some ⟨.error, "WebSocket is not connected"⟩ })

def OrderForm.showResponse (sc : Script) (data : Value) : Handler OrderForm Unit := do
  Exec.modify (fun f => { f with isSubmitting := false })
  let error ← Exec.ofExcept (prop data "error")
  if truthy sc error then do
    let text ← Exec.ofExcept (template sc error)
    Exec.modify (fun f => { f with message := some ⟨.error, "Failed to place order: " ++ text⟩ })
  else do
    let result ← Exec.ofExcept (prop data "result")
    let orderId := prop? (prop? result "order") "order_id"
    let text ← Exec.ofExcept (template sc (if truthy sc orderId then orderId else some (.str "N/A")))
    Exec.modify (fun f =>
      { f with message := some ⟨.success, "Order placed successfully. Order ID: " ++ text⟩ })
    Exec.modify (fun f => { f with amount := "" })
    Exec.modify (fun f => { f with price := "" })

def OrderForm.handleMessage (sc : Script) (event : Bytes) : Handler OrderForm Unit :=
  onType "order_response" event (OrderForm.showResponse sc)

theorem OrderForm.handleSubmit_run (sc : Script) (instrument : String) (f : OrderForm) :
    OrderForm.handleSubmit sc true instrument f =
      ⟨.ok (), { f with isSubmitting := true, message := none }, [printText (f.order sc instrument)]⟩ := rfl

section Reply
variable {sc : Script} {event : Bytes}

private theorem showResponse_keeps (data : Value) :
    Exec.Keeps (fun f : OrderForm => f.isSubmitting = false) (fun _ => True) (fun _ => True)
      (OrderForm.showResponse sc data) := by
  refine .bind (.modify (fun f _ => rfl)) (fun _ _ => .bind (.ofExcept (fun _ _ => trivial)) (fun error _ => ?_))
  split
  · exact .bind (.ofExcept (fun _ _ => trivial)) (fun text _ => .modify (fun f hf => hf))
  · refine .bind (.ofExcept (fun _ _ => trivial)) (fun result _ => ?_)
    refine .bind (.ofExcept (fun _ _ => trivial)) (fun text _ => ?_)
    exact .bind (.modify (fun f hf => hf)) (fun _ _ => .bind (.modify (fun f hf => hf)) (fun _ _ => .modify (fun f hf => hf)))

private theorem showResponse_submitting (data : Value) (f : OrderForm) :
    OrderForm.showResponse sc data f = OrderForm.showResponse sc data { f with isSubmitting := false } := rfl

/-- Any reply to an order ends the submission, even if showing it throws. -/
theorem OrderForm.handleMessage_taken (h : strictEq (typeOf event) "order_response" = true) (f : OrderForm) :
    (OrderForm.handleMessage sc event f).state.isSubmitting = false := by
  have ht : ∃ j, readText event = some j ∧
      OrderForm.handleMessage sc event f = OrderForm.showResponse sc (some j) f := onType_taken h f
  obtain ⟨j, _, hr⟩ := ht
  rw [hr, showResponse_submitting]
  exact (showResponse_keeps (some j) { f with isSubmitting := false } rfl).1

theorem OrderForm.handleMessage_ignored (h : strictEq (typeOf event) "order_response" = false) (f : OrderForm) :
    (OrderForm.handleMessage sc event f).state = f :=
  (onType_ignored h f).1

end Reply

end OrderForm

section ModifyOrderForm

structure ModifyOrderForm where
  orderId : Value
  amount : String
  price : String
  isSubmitting : Bool
  message : Option Notice

/-- The state of a freshly mounted form; an amount without text cannot be mounted. -/
def ModifyOrderForm.mount (sc : Script) (orderId currentAmount currentPrice : Value) : Except Thrown ModifyOrderForm := do
  let amount ← if nullish currentAmount then .error .typeError else template sc currentAmount
  let price ← if truthy sc currentPrice then template sc currentPrice else .ok ""
  pure ⟨orderId, amount, price, false, none⟩

def ModifyOrderForm.request (sc : Script) (f : ModifyOrderForm) : Json :=
  object [("type", some (.str "modify_order")), ("data", some (object [("order_id", f.orderId),
    ("amount", some (number sc f.amount)), ("price", if f.price = "" then none else some (number sc f.price))]))]

def ModifyOrderForm.handleSubmit (sc : Script) : Handler ModifyOrderForm Unit := do
  Exec.modify (fun f => { f with isSubmitting := true })
  Exec.modify (fun f => { f with message := none })
  let f ← Exec.get
  Exec.emit (printText (f.request sc))

def ModifyOrderForm.showResponse (sc : Script) (data : Value) : Handler ModifyOrderForm Unit := do
  Exec.modify (fun f => { f with isSubmitting := false })
  let error ← Exec.ofExcept (prop data "error")
  if truthy sc error then do
    let text ← Exec.ofExcept (template sc error)
    Exec.modify (fun f => { f with message := some ⟨.error, "Failed to modify order: " ++ text⟩ })
  else
    Exec.modify (fun f => { f with message := some ⟨.success, "Order modified successfully"⟩ })

def ModifyOrderForm.handleMessage (sc : Script) (event : Bytes) : Handler ModifyOrderForm Unit :=
  onType "modify_response" event (ModifyOrderForm.showResponse sc)

theorem ModifyOrderForm.handleSubmit_run (sc : Script) (f : ModifyOrderForm) :
    ModifyOrderForm.handleSubmit sc f =
      ⟨.ok (), { f with isSubmitting := true, message := none }, [printText (f.request sc)]⟩ := rfl

section Reply
variable {sc : Script} {event : Bytes}

private theorem showResponse_orderId (orderId data : Value) :
    Exec.Keeps (fun f : ModifyOrderForm => f.orderId = orderId) (fun _ => True) (fun _ => True)
      (ModifyOrderForm.showResponse sc data) := by
  refine .bind (.modify (fun f hf => hf)) (fun _ _ => .bind (.ofExcept (fun _ _ => trivial)) (fun error _ => ?_))
  split
  · exact .bind (.ofExcept (fun _ _ => trivial)) (fun text _ => .modify (fun f hf => hf))
  · exact .modify (fun f hf => hf)

theorem ModifyOrderForm.handleMessage_ignored (h : strictEq (typeOf event) "modify_response" = false)
    (f : ModifyOrderForm) : (ModifyOrderForm.handleMessage sc event f).state = f :=
  (onType_ignored h f).1

theorem ModifyOrderForm.handleMessage_orderId (event : Bytes) (f : ModifyOrderForm) :
    (ModifyOrderForm.handleMessage sc event f).state.orderId = f.orderId := by
  cases h : strictEq (typeOf event) "modify_response" with
  | false => rw [ModifyOrderForm.handleMessage_ignored h]
  | true =>
    have ht : ∃ j, readText event = some j ∧
        ModifyOrderForm.handleMessage sc event f = ModifyOrderForm.showResponse sc (some j) f := onType_taken h f
    obtain ⟨j, _, hr⟩ := ht
    rw [hr]
    exact (showResponse_orderId f.orderId (some j) f rfl).1

/-- A response without an error is shown as a success, whosever it is. -/
theorem ModifyOrderForm.handleMessage_success {ms : List (String × Json)}
    (h : strictEq (typeOf event) "modify_response" = true) (hj : readText event = some (.obj ms))
    (he : (Json.obj ms).get? "error" = none) (f : ModifyOrderForm) :
    (ModifyOrderForm.handleMessage sc event f).state =
      { f with isSubmitting := false, message := some ⟨.success, "Order modified successfully"⟩ } := by
  rw [ModifyOrderForm.handleMessage, onType_read h hj, ModifyOrderForm.showResponse]
  simp [prop, he, truthy]

end Reply

end ModifyOrderForm
end DeribitClientServer.Client
