import DeribitClientServer.Server.LoopSafety
import DeribitClientServer.Server.Replies

/-! The frames of the update threads. Each is a dumped object whose type names
its thread; the order book's depends on the template its thread keeps. -/
namespace DeribitClientServer.Server
open Library Library.Utf8

def Loop.updateType : Loop → String
  | .orderbook => "orderbook_update"
  | .positions => "positions_update"
  | .openOrders => "open_orders_update"

/-- The template is an order book update, whatever its other members hold. -/
def TemplateTyped (w : World) : Prop := w.updateTemplate.get? "type" = some (.str "orderbook_update")

/-- The effect is no frame, or one dumped with this type. -/
def SendsTyped (env : Externals) (t : String) (e : Event) : Prop :=
  ∀ f, e.frame? = some f → f.via = .broadcast ∧ DumpedAs env f.payload t

/-- From a typed template the program keeps it typed and sends nothing else. -/
abbrev SendsOnly {α : Type} (env : Externals) (t : String) (m : Program α) : Prop :=
  Exec.Keeps TemplateTyped (SendsTyped env t) (fun _ => True) m

/-- The same with any condition on the template. -/
abbrev SendsWith {α : Type} (I : Json → Prop) (env : Externals) (t : String) (m : Program α) : Prop :=
  Exec.Keeps (fun w => I w.updateTemplate) (SendsTyped env t) (fun _ => True) m

private abbrev Typed (template : Json) : Prop := template.get? "type" = some (.str "orderbook_update")

section Turns
variable {env : Externals} {t : String} {I : Json → Prop}

private theorem sends_apiCall (r : Request) : SendsWith I env t (apiCall r) :=
  fun _ hw => ⟨hw, by simp [SendsTyped, Event.frame?], fun _ _ => trivial⟩

private theorem sends_steadyNow : SendsWith I env t steadyNow := fun _ hw => ⟨hw, by simp, fun _ _ => trivial⟩

private theorem sends_systemNow : SendsWith I env t systemNow :=
  fun _ hw => ⟨hw, by simp [systemNow], fun _ _ => trivial⟩

private theorem sends_connectionsEmpty : SendsWith I env t connectionsEmpty :=
  fun _ hw => ⟨hw, by simp [connectionsEmpty], fun _ _ => trivial⟩

private theorem sends_getAccessToken : SendsWith I env t (getAccessToken env) := by
  intro w hw
  rw [getAccessToken_run]
  have hkept : I (tokenWorld env w).updateTemplate := by
    rw [(tokenFrame env w).updateTemplate]
    exact hw
  refine ⟨hkept, fun e he => ?_, fun _ _ => trivial⟩
  unfold tokenTrace at he
  split at he
  · cases he
  · rw [List.mem_singleton.mp he]
    simp [SendsTyped, Event.frame?]

private theorem sends_broadcast {j : Json} (hj : j.get? "type" = some (.str t)) :
    SendsWith I env t (broadcast (env.dump j)) := by
  intro w hw
  obtain ⟨x, hx, _⟩ := broadcast_run w (decode_dump_ne env j)
  rw [hx]
  refine ⟨hw, fun e he f hf => ?_, fun _ _ => trivial⟩
  obtain ⟨hv, hp⟩ := of_mem_sends (List.mem_filterMap.mpr ⟨e, he, hf⟩)
  exact ⟨hv, j, hp, hj⟩

private theorem sends_parse (text : Bytes) : SendsWith I env t (Exec.ofExcept (parseJson env text) : Program Json) :=
  Exec.Keeps.ofExcept (fun _ _ => trivial)

private theorem template_fill {w : World} (hw : TemplateTyped w) (instrument : String) (timestamp : Nat) (data : Json) :
    TemplateTyped (writeTemplate instrument timestamp data w) := by
  unfold TemplateTyped writeTemplate fillTemplate at *
  rw [Json.get?_set_ne (by decide), Json.get?_set_ne (by decide), Json.get?_set_ne (by decide)]
  exact hw

private theorem sends_orderbookStep (timestamp : Nat) (instrument : String) :
    SendsWith Typed env "orderbook_update" (orderbookStep env timestamp instrument) := by
  refine .tryCatch ?_ (fun _ => .pure trivial)
  refine .bind (.modify (fun w hw => hw)) (fun _ _ => .bind .get (fun w _ => .bind (sends_apiCall _) (fun res _ => ?_)))
  split
  · exact .pure trivial
  · split
    · exact .pure trivial
    · refine .bind (sends_parse _) (fun orderbook _ => ?_)
      split
      · exact .bind (.modify (fun w hw => template_fill hw _ _ _))
          (fun _ _ => .bind .get (fun w hw => sends_broadcast hw))
      · exact .pure trivial

private theorem sends_orderbookTurn (supported : List String) :
    SendsWith Typed env "orderbook_update" (orderbookTurn env supported) := by
  refine .tryCatch ?_ (fun _ => .pure trivial)
  refine .bind sends_steadyNow (fun now _ => .bind .get (fun w _ => ?_))
  split
  · exact .pure trivial
  · refine .bind sends_connectionsEmpty (fun empty _ => ?_)
    split
    · exact .modify (fun w hw => hw)
    · exact .bind sends_systemNow (fun timestamp _ =>
        .bind (.forM (fun instrument _ => sends_orderbookStep timestamp instrument))
          (fun _ _ => .modify (fun w hw => hw)))

private theorem sends_positionsTurn : SendsWith I env "positions_update" (positionsTurn env) := by
  refine .bind sends_getAccessToken (fun accessToken _ => .forM (fun pair _ => ?_))
  refine .bind (sends_apiCall _) (fun res _ => ?_)
  split
  · exact .pure trivial
  · refine .bind (sends_parse _) (fun response _ => ?_)
    split
    · exact sends_broadcast (by simp [positionsUpdate, Json.get?])
    · exact .pure trivial

theorem get?_openOrdersUpdate (data : Json) :
    (openOrdersUpdate data).get? "type" = some (.str "open_orders_update") := by
  simp [openOrdersUpdate, Json.get?]

/-- An update of open orders carries its data as they are stored. -/
theorem get?_openOrdersUpdate_data (env : Externals) (data : Json) :
    ((openOrdersUpdate data).stored env.spelling).canon.get? "data" = some (data.stored env.spelling).canon := by
  rw [Json.get?_canon, Json.get?_stored]
  rfl

private theorem sends_getOpenOrders : SendsWith I env t (getOpenOrders env) :=
  .bind sends_getAccessToken (fun _ _ => .bind (sends_apiCall _) (fun _ _ => .pure trivial))

private theorem sends_openOrdersTurn : SendsWith I env "open_orders_update" (openOrdersTurn env) :=
  .bind sends_getOpenOrders (fun openOrders _ =>
    .bind (sends_parse openOrders) (fun data _ => sends_broadcast (get?_openOrdersUpdate data)))

theorem sendsOnly_turn (supported : List String) (l : Loop) : SendsOnly env l.updateType (l.turn env supported) := by
  have h : SendsWith Typed env l.updateType (l.turn env supported) := by
    cases l with
    | orderbook => exact sends_orderbookTurn supported
    | positions => exact sends_positionsTurn
    | openOrders => exact sends_openOrdersTurn
  exact h

/-- Only the order book's turn writes the template. -/
theorem turn_template (supported : List String) {l : Loop} (hl : l ≠ .orderbook) (w : World) :
    (l.turn env supported w).state.updateTemplate = w.updateTemplate := by
  cases l with
  | orderbook => exact absurd rfl hl
  | positions =>
    have h : SendsWith (fun template => template = w.updateTemplate) env _ _ := sends_positionsTurn
    exact (h w rfl).1
  | openOrders =>
    have h : SendsWith (fun template => template = w.updateTemplate) env _ _ := sends_openOrdersTurn
    exact (h w rfl).1

/-- Every frame of a turn is broadcast, with the type of its thread. -/
theorem turn_frames {supported : List String} {l : Loop} {w : World} (hw : TemplateTyped w) {f : Frame}
    (h : f ∈ frames (l.turn env supported w).trace) : f.via = .broadcast ∧ DumpedAs env f.payload l.updateType := by
  obtain ⟨e, he, hf⟩ := List.mem_filterMap.mp h
  exact (sendsOnly_turn supported l w hw).2.1 e he f hf

/-- The template stays typed in every run of the update threads. -/
theorem template_typed {supported : List String} {guard : Threads → Act → Prop} {as : List Act} {s : Threads}
    (r : (updateLoops env supported).Run guard as s) : TemplateTyped s.world := by
  refine r.invariant (fun s => TemplateTyped s.world) (fun s h => ?_) (fun s a s' hs _ h => ?_)
  · unfold TemplateTyped
    rw [h.2.2]
    simp [initialTemplate, Json.get?]
  · cases a with
    | turn l =>
      obtain ⟨_, _, rfl⟩ := h
      exact (sendsOnly_turn supported l s.world hs).1
    | outside w =>
      obtain ⟨_, hf, rfl⟩ := h
      unfold TemplateTyped at hs ⊢
      rw [hf.updateTemplate]
      exact hs
    | finish =>
      obtain rfl := h
      exact hs

end Turns
end DeribitClientServer.Server
