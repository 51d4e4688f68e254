import DeribitClientServer.Client.Forms
import DeribitClientServer.Client.Lists

/-! What the components that wait for an outcome show of a response. Each looks at
the error first, and takes a response without one for a success. -/
namespace DeribitClientServer.Client
open Library Library.JsonText Library.Utf8

section Notices
variable (sc : Script)

/-- A truthy error is shown behind its text, and otherwise a success; a value
without a text shows nothing. -/
def responseNotice (failed : String) (succeeded : Except Thrown String) (data : Json) : Except Thrown Notice :=
  if truthy sc (data.get? "error") then
    (template sc (data.get? "error")).map (fun text => ⟨.error, failed ++ text⟩)
  else succeeded.map (fun text => ⟨.success, text⟩)

/-- The id that is shown for an order. -/
def shownOrderId (data : Json) : Value :=
  let orderId := prop? (prop? (data.get? "result") "order") "order_id"
  if truthy sc orderId then orderId else some (.str "N/A")

def OrderForm.notice (data : Json) : Except Thrown Notice :=
  responseNotice sc "Failed to place order: "
    ((template sc (shownOrderId sc data)).map (fun text => "Order placed successfully. Order ID: " ++ text)) data

def ModifyOrderForm.notice (data : Json) : Except Thrown Notice :=
  responseNotice sc "Failed to modify order: " (.ok "Order modified successfully") data

def OpenOrdersList.notice (data : Json) : Except Thrown Notice :=
  responseNotice sc "Failed to cancel order: " (.ok "Order cancelled successfully") data

/-- An error that is truthy and has a text. -/
def ShowsError (error : Value) : Prop := truthy sc error = true ∧ ∃ text, template sc error = .ok text

end Notices

section Messages
variable {sc : Script} {event : Bytes} {data : Json}

theorem responseNotice_error_iff {failed : String} {succeeded : Except Thrown String} :
    (∃ text, responseNotice sc failed succeeded data = .ok ⟨.error, text⟩) ↔ ShowsError sc (data.get? "error") := by
  unfold responseNotice ShowsError
  cases truthy sc (data.get? "error") with
  | true => cases template sc (data.get? "error") <;> simp [Except.map]
  | false => cases succeeded <;> simp [Except.map]

theorem responseNotice_success_iff {failed : String} {succeeded : Except Thrown String} :
    (∃ text, responseNotice sc failed succeeded data = .ok ⟨.success, text⟩) ↔
      truthy sc (data.get? "error") = false ∧ ∃ text, succeeded = .ok text := by
  unfold responseNotice
  cases truthy sc (data.get? "error") with
  | true => cases template sc (data.get? "error") <;> simp [Except.map]
  | false => cases succeeded <;> simp [Except.map]

private theorem ne_null_of_type {t : String} (h : data.get? "type" = some (.str t)) : data ≠ .null := by
  rintro rfl
  cases h

private theorem strictEq_of_type {t : String} (hj : readText event = some data)
    (ht : data.get? "type" = some (.str t)) : strictEq (typeOf event) t = true := by
  rw [strictEq_iff, typeOf, hj]
  exact ht

/-- A response read by the form leaves its notice, or the message of before. -/
theorem OrderForm.handleMessage_message (hj : readText event = some data)
    (ht : data.get? "type" = some (.str "order_response")) (f : OrderForm) :
    (OrderForm.handleMessage sc event f).state.message = (OrderForm.notice sc data).toOption.or f.message := by
  have hn := ne_null_of_type ht
  rw [OrderForm.handleMessage, onType_read (strictEq_of_type hj ht) hj]
  unfold OrderForm.showResponse OrderForm.notice responseNotice shownOrderId
  simp only [prop_ok hn, Exec.ofExcept_ok, Exec.run_bind, Exec.run_modify, Ran.andThen_ok, Exec.run_pure]
  cases truthy sc (data.get? "error") with
  | true => cases template sc (data.get? "error") <;> rfl
  | false =>
    simp only [Bool.false_eq_true, if_false, Exec.run_bind, Exec.run_pure, Ran.andThen_ok]
    generalize (if truthy sc _ then _ else _ : Value) = orderId
    cases template sc orderId <;> rfl

theorem ModifyOrderForm.handleMessage_message (hj : readText event = some data)
    (ht : data.get? "type" = some (.str "modify_response")) (f : ModifyOrderForm) :
    (ModifyOrderForm.handleMessage sc event f).state.message =
      (ModifyOrderForm.notice sc data).toOption.or f.message := by
  have hn := ne_null_of_type ht
  rw [ModifyOrderForm.handleMessage, onType_read (strictEq_of_type hj ht) hj]
  unfold ModifyOrderForm.showResponse ModifyOrderForm.notice responseNotice
  simp only [prop_ok hn, Exec.ofExcept_ok, Exec.run_bind, Exec.run_modify, Ran.andThen_ok, Exec.run_pure]
  cases truthy sc (data.get? "error") with
  | true => cases template sc (data.get? "error") <;> rfl
  | false => rfl

theorem OpenOrdersList.handleMessage_message (hj : readText event = some data)
    (ht : data.get? "type" = some (.str "cancel_response")) (o : OpenOrdersList) :
    (OpenOrdersList.handleMessage sc event o).state.message = (OpenOrdersList.notice sc data).toOption.or o.message := by
  have hn := ne_null_of_type ht
  have htype : typeOf event = some (.str "cancel_response") := by
    rw [typeOf, hj]
    exact ht
  unfold OpenOrdersList.handleMessage
  rcases onMessage_cases event _ o with ⟨hnone, _⟩ | ⟨j, hj', hrun⟩
  · rw [htype] at hnone
    cases hnone
  · rw [hj, Option.some_inj] at hj'
    subst hj'
    rw [hrun, htype]
    have hother : strictEq (some (.str "cancel_response")) "open_orders_update" = false := by decide
    have hcancel : strictEq (some (.str "cancel_response")) "cancel_response" = true := by decide
    simp only [hother, hcancel, Bool.false_eq_true, if_false, if_true]
    unfold OpenOrdersList.showCancellation OpenOrdersList.notice responseNotice
    simp only [prop_ok hn, Exec.ofExcept_ok, Exec.run_bind, Ran.andThen_ok, Exec.run_pure]
    cases truthy sc (data.get? "error") with
    | true => cases template sc (data.get? "error") <;> rfl
    | false => rfl

/-- A frame that is no response to a cancellation leaves the message of before. -/
theorem OpenOrdersList.handleMessage_quiet (h : strictEq (typeOf event) "cancel_response" = false)
    (o : OpenOrdersList) : (OpenOrdersList.handleMessage sc event o).state.message = o.message := by
  unfold OpenOrdersList.handleMessage
  rcases onMessage_cases event _ o with ⟨_, e, hrun⟩ | ⟨j, _, hrun⟩
  · rw [hrun]
  · rw [hrun, h]
    split
    · unfold OpenOrdersList.showUpdate
      cases hu : prop (some j) "data" with
      | error e => rfl
      | ok update =>
        simp only [Exec.ofExcept_ok, Exec.run_bind, Exec.run_pure, Ran.andThen_ok]
        cases prop update "result" <;> rfl
    · rfl

end Messages
end DeribitClientServer.Client
