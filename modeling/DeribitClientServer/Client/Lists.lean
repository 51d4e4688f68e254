import DeribitClientServer.Client.Script

/-! The components that keep lists from frames and show them: the instruments of
the trading panel and the open orders. What is shown may fail to render. -/
namespace DeribitClientServer.Client
open Library Library.JsonText Library.Utf8

section Rendering
variable (sc : Script)

mutual
/-- The text shown for a child of an element. -/
def childText : Json → Except Thrown String
  | .null | .bool _ => .ok ""
  | .num n => .ok (sc.numeral n)
  | .str s => .ok s
  | .arr xs => childTexts xs
  | .obj _ => .error .notRenderable

def childTexts : List Json → Except Thrown String
  | [] => .ok ""
  | x :: xs => do
      let text ← childText x
      let rest ← childTexts xs
      pure (text ++ rest)
end

def child : Value → Except Thrown String
  | none => .ok ""
  | some j => childText sc j

/-- Calling map on a value that may not be an array. -/
def mapItems {α : Type} (v : Value) (f : Value → Except Thrown α) : Except Thrown (List α) :=
  match v with
  | some (.arr xs) => xs.mapM (fun x => f (some x))
  | _ => .error .typeError

/-- v.length > 0 -/
def hasItems : Value → Except Thrown Bool
  | none | some .null => .error .typeError
  | some (.arr xs) => .ok (!xs.isEmpty)
  | some (.str s) => .ok (s ≠ "")
  | some (.obj ms) => .ok (((Json.obj ms).get? "length").any sc.positive)
  | some (.bool _) | some (.num _) => .ok false

/-- v.length === 0 -/
def isEmpty : Value → Except Thrown Bool
  | none | some .null => .error .typeError
  | some (.arr xs) => .ok xs.isEmpty
  | some (.str s) => .ok (s = "")
  | some (.obj ms) =>
      match (Json.obj ms).get? "length" with
      | some (.num n) => .ok (sc.zero n)
      | _ => .ok false
  | some (.bool _) | some (.num _) => .ok false

/-- v[0] -/
def firstItem : Value → Value
  | some (.arr xs) => xs.head?
  | some (.str s) => s.toList.head?.map (fun c => .str (String.singleton c))
  | some (.obj ms) => (Json.obj ms).get? "0"
  | _ => none

/-- v?.toUpperCase() -/
def upperCase : Value → Except Thrown Value
  | none | some .null => .ok none
  | some (.str s) => .ok (some (.str (sc.upper s)))
  | _ => .error .typeError

end Rendering

section TradingPanel
variable (sc : Script)

structure TradingPanel where
  isConnected : Bool
  instruments : Value
  selectedInstrument : Value

def TradingPanel.initial : TradingPanel := ⟨false, some (.arr []), some (.str "")⟩

def TradingPanel.showInstruments (data : Value) : Handler TradingPanel Unit := do
  let result ← Exec.ofExcept (prop data "result")
  Exec.modify (fun p => { p with instruments := result })
  let nonempty ← Exec.ofExcept (hasItems sc result)
  if nonempty then do
    let name ← Exec.ofExcept (prop (firstItem result) "instrument_name")
    Exec.modify (fun p => { p with selectedInstrument := name })
  else pure ()

def TradingPanel.onmessage (event : Bytes) : Handler TradingPanel Unit :=
  onType "instruments" event (TradingPanel.showInstruments sc)

def optionLabel (instrument kind : Value) : Except Thrown String :=
  if strictEq kind "option" then do
    let optionType ← upperCase sc (prop? instrument "option_type")
    let optionText ← template sc optionType
    let strike ← template sc (prop? instrument "strike")
    pure (" (" ++ optionText ++ " " ++ strike ++ ")")
  else pure ""

def expiryLabel (instrument kind : Value) : Except Thrown String :=
  if strictEq kind "spot" then pure ""
  else do
    let date ← sc.date (prop? instrument "expiration_timestamp")
    pure (" (Expires: " ++ date ++ ")")

def instrumentItem (instrument : Value) : Except Thrown String := do
  let name ← prop instrument "instrument_name"
  let shown ← child sc name
  let kind ← prop instrument "kind"
  let option ← optionLabel sc instrument kind
  let expiry ← expiryLabel sc instrument kind
  pure (shown ++ option ++ expiry)

def TradingPanel.render (p : TradingPanel) : Except Thrown (List String) :=
  if p.isConnected then do
    let items ← mapItems p.instruments (instrumentItem sc)
    let selected ← child sc p.selectedInstrument
    pure (items ++ ["Order Book - " ++ selected])
  else pure ["Connecting to server..."]

end TradingPanel

section OpenOrders
variable (sc : Script)

structure OpenOrdersList where
  openOrders : Value
  message : Option Notice

def OpenOrdersList.initial : OpenOrdersList := ⟨some (.arr []), none⟩

def OpenOrdersList.showUpdate (data : Value) : Handler OpenOrdersList Unit := do
  let update ← Exec.ofExcept (prop data "data")
  let result ← Exec.ofExcept (prop update "result")
  Exec.modify (fun o => { o with openOrders := result })

def OpenOrdersList.showCancellation (data : Value) : Handler OpenOrdersList Unit := do
  let error ← Exec.ofExcept (prop data "error")
  if truthy sc error then do
    let text ← Exec.ofExcept (template sc error)
    Exec.modify (fun o => { o with message := some ⟨.error, "Failed to cancel order: " ++ text⟩ })
  else Exec.modify (fun o => { o with message := some ⟨.success, "Order cancelled successfully"⟩ })

def OpenOrdersList.handleMessage (event : Bytes) : Handler OpenOrdersList Unit :=
  onMessage event (fun type data =>
    if strictEq type "open_orders_update" then OpenOrdersList.showUpdate data
    else if strictEq type "cancel_response" then OpenOrdersList.showCancellation sc data
    else pure ())

/-- What the effect sends when it registers the handler. -/
def OpenOrdersList.listingRequest : Json := object [("type", some (.str "get_open_orders"))]

def OpenOrdersList.cancellation (orderId : Value) : Json :=
  object [("type", some (.str "cancel_order")), ("data", some (object [("order_id", orderId)]))]

def OpenOrdersList.handleCancelClick (orderId : Value) : Handler OpenOrdersList Unit :=
  Exec.emit (printText (OpenOrdersList.cancellation orderId))

/-- The members of an order that its row shows. -/
def orderColumns : List String := ["instrument_name", "amount", "price", "direction", "order_type"]

def orderRow (order : Value) : Except Thrown (List String) :=
  orderColumns.mapM (fun k => do
    let v ← prop order k
    child sc v)

def OpenOrdersList.render (o : OpenOrdersList) : Except Thrown (List (List String)) := do
  let empty ← isEmpty sc o.openOrders
  if empty then pure [["No open orders"]] else mapItems o.openOrders (orderRow sc)

end OpenOrders

section Shown
variable {sc : Script}

/-- An entry whose shown members are plain, with an option type that is a string
if it has one. -/
structure InstrumentEntry (e : Json) : Prop where
  present : e ≠ .null
  name : plain (e.get? "instrument_name") = true
  optionType : nullish (e.get? "option_type") = true ∨ ∃ s, e.get? "option_type" = some (.str s)
  strike : plain (e.get? "strike") = true
  expiration : plain (e.get? "expiration_timestamp") = true

structure OrderEntry (e : Json) : Prop where
  present : e ≠ .null
  columns : ∀ k ∈ orderColumns, plain (e.get? k) = true

private theorem plain_map_canon (v : Value) : plain (v.map Json.canon) = plain v := by
  match v with
  | none | some .null | some (.bool _) | some (.num _) | some (.str _) | some (.arr _) | some (.obj _) =>
    simp [plain, Json.canon]

private theorem nullish_map_canon (v : Value) : nullish (v.map Json.canon) = nullish v := by
  match v with
  | none | some .null | some (.bool _) | some (.num _) | some (.str _) | some (.arr _) | some (.obj _) =>
    simp [nullish, Json.canon]

private theorem canon_ne_null {e : Json} (h : e ≠ .null) : e.canon ≠ .null := by
  cases e with
  | null => exact absurd rfl h
  | bool _ | num _ | str _ | arr _ | obj _ => simp [Json.canon]

/-- Entries stay entries when they are dumped and read. -/
theorem InstrumentEntry.canon {e : Json} (h : InstrumentEntry e) : InstrumentEntry e.canon := by
  refine ⟨canon_ne_null h.present, ?_, ?_, ?_, ?_⟩
  · rw [Json.get?_canon, plain_map_canon, h.name]
  · rw [Json.get?_canon, nullish_map_canon]
    rcases h.optionType with ho | ⟨s, hs⟩
    · exact .inl ho
    · exact .inr ⟨s, by rw [hs, Option.map_some, Json.canon_str]⟩
  · rw [Json.get?_canon, plain_map_canon, h.strike]
  · rw [Json.get?_canon, plain_map_canon, h.expiration]

theorem OrderEntry.canon {e : Json} (h : OrderEntry e) : OrderEntry e.canon := by
  refine ⟨canon_ne_null h.present, fun k hk => ?_⟩
  rw [Json.get?_canon, plain_map_canon, h.columns k hk]

private theorem child_plain {v : Value} (h : plain v = true) : ∃ s, child sc v = .ok s := by
  match v with
  | none | some .null | some (.bool _) | some (.num _) | some (.str _) => exact ⟨_, rfl⟩
  | some (.arr _) | some (.obj _) => cases h

private theorem bind_ok {α β : Type} {x : Except Thrown α} {f : α → Except Thrown β} {a : α} (hx : x = .ok a)
    (hf : ∃ b, f a = .ok b) : ∃ b, (x >>= f) = .ok b := by
  subst hx
  exact hf

private theorem mapM_ok {α β : Type} {xs : List α} {f : α → Except Thrown β} (h : ∀ x ∈ xs, ∃ y, f x = .ok y) :
    ∃ ys, xs.mapM f = .ok ys := by
  induction xs with
  | nil => exact ⟨[], rfl⟩
  | cons x xs ih =>
    obtain ⟨y, hy⟩ := h x List.mem_cons_self
    obtain ⟨ys, hys⟩ := ih (fun x' hx' => h x' (List.mem_cons_of_mem x hx'))
    rw [List.mapM_cons]
    exact bind_ok hy (bind_ok hys ⟨_, rfl⟩)

private theorem upperCase_ok {v : Value} (h : nullish v = true ∨ ∃ s, v = some (.str s)) :
    ∃ u, upperCase sc v = .ok u ∧ plain u = true := by
  rcases h with h | ⟨s, rfl⟩
  · match v with
    | none | some .null => exact ⟨none, rfl, rfl⟩
    | some (.bool _) | some (.num _) | some (.str _) | some (.arr _) | some (.obj _) => cases h
  · exact ⟨_, rfl, rfl⟩

private theorem optionLabel_ok {e : Json} (h : InstrumentEntry e) (kind : Value) :
    ∃ s, optionLabel sc (some e) kind = .ok s := by
  obtain ⟨optionType, hu, hp⟩ := @upperCase_ok sc _ h.optionType
  obtain ⟨optionText, ho⟩ := template_plain sc hp
  obtain ⟨strike, hk⟩ := template_plain sc h.strike
  unfold optionLabel
  split
  · exact bind_ok hu (bind_ok ho (bind_ok hk ⟨_, rfl⟩))
  · exact ⟨_, rfl⟩

private theorem expiryLabel_ok {e : Json} (h : InstrumentEntry e) (kind : Value) :
    ∃ s, expiryLabel sc (some e) kind = .ok s := by
  obtain ⟨date, hd⟩ := sc.date_plain _ h.expiration
  unfold expiryLabel
  split
  · exact ⟨_, rfl⟩
  · exact bind_ok hd ⟨_, rfl⟩

theorem instrumentItem_ok {e : Json} (h : InstrumentEntry e) : ∃ s, instrumentItem sc (some e) = .ok s := by
  obtain ⟨shown, hs⟩ := @child_plain sc _ h.name
  obtain ⟨option, ho⟩ := @optionLabel_ok sc e h (e.get? "kind")
  obtain ⟨expiry, hx⟩ := @expiryLabel_ok sc e h (e.get? "kind")
  exact bind_ok (prop_ok h.present _) (bind_ok hs (bind_ok (prop_ok h.present _) (bind_ok ho (bind_ok hx ⟨_, rfl⟩))))

theorem orderRow_ok {e : Json} (h : OrderEntry e) : ∃ row, orderRow sc (some e) = .ok row := by
  apply mapM_ok
  intro k hk
  exact bind_ok (prop_ok h.present k) (child_plain (h.columns k hk))

/-- An array whose entries are all of a kind. -/
def ArrayOf (Entry : Json → Prop) (v : Value) : Prop := ∃ xs, v = some (.arr xs) ∧ ∀ x ∈ xs, Entry x

private theorem mapItems_ok {α : Type} {Entry : Json → Prop} {v : Value} {f : Value → Except Thrown α}
    (hv : ArrayOf Entry v) (hf : ∀ e, Entry e → ∃ y, f (some e) = .ok y) : ∃ ys, mapItems v f = .ok ys := by
  obtain ⟨xs, rfl, hxs⟩ := hv
  exact mapM_ok (fun x hx => hf x (hxs x hx))

theorem TradingPanel.render_ok {p : TradingPanel} (hi : ArrayOf InstrumentEntry p.instruments)
    (hs : plain p.selectedInstrument = true) : ∃ texts, p.render sc = .ok texts := by
  obtain ⟨items, hitems⟩ := mapItems_ok hi (fun e he => @instrumentItem_ok sc e he)
  obtain ⟨selected, hsel⟩ := @child_plain sc _ hs
  unfold TradingPanel.render
  split
  · exact bind_ok hitems (bind_ok hsel ⟨_, rfl⟩)
  · exact ⟨_, rfl⟩

theorem OpenOrdersList.render_ok {o : OpenOrdersList} (ho : ArrayOf OrderEntry o.openOrders) :
    ∃ rows, o.render sc = .ok rows := by
  obtain ⟨rows, hrows⟩ := mapItems_ok ho (fun e he => @orderRow_ok sc e he)
  obtain ⟨xs, hxs, _⟩ := ho
  have hempty : isEmpty sc o.openOrders = .ok xs.isEmpty := by
    rw [hxs]
    rfl
  apply bind_ok hempty
  split
  · exact ⟨_, rfl⟩
  · exact ⟨rows, hrows⟩

end Shown

section Handlers
variable {sc : Script} {event : Bytes} {j : Json} {xs : List Json}

theorem TradingPanel.onmessage_ignored (h : strictEq (typeOf event) "instruments" = false) (p : TradingPanel) :
    (TradingPanel.onmessage sc event p).state = p :=
  (onType_ignored h p).1

private theorem showInstruments_listing (hr : j.get? "result" = some (.arr xs)) (hx : ∀ x ∈ xs, InstrumentEntry x)
    (p : TradingPanel) : ∃ selected, TradingPanel.showInstruments sc (some j) p =
        ⟨.ok (), ⟨p.isConnected, some (.arr xs), selected⟩, []⟩ ∧
      (selected = p.selectedInstrument ∨ plain selected = true) := by
  unfold TradingPanel.showInstruments
  rw [prop_of_get? hr]
  cases xs with
  | nil => exact ⟨p.selectedInstrument, rfl, .inl rfl⟩
  | cons x xs =>
    have he := hx x List.mem_cons_self
    have hname : prop (firstItem (some (.arr (x :: xs)))) "instrument_name" = .ok (x.get? "instrument_name") :=
      prop_ok he.present _
    refine ⟨x.get? "instrument_name", ?_, .inr he.name⟩
    simp [hasItems, hname]

theorem TradingPanel.onmessage_passed (ht : typeOf event ≠ none) (h : strictEq (typeOf event) "instruments" = false)
    (p : TradingPanel) : TradingPanel.onmessage sc event p = ⟨.ok (), p, []⟩ :=
  onType_passed ht h p

/-- A listing is taken whole, and its first instrument is selected. -/
theorem TradingPanel.onmessage_listing (h : strictEq (typeOf event) "instruments" = true) (hj : readText event = some j)
    (hr : j.get? "result" = some (.arr xs)) (hx : ∀ x ∈ xs, InstrumentEntry x) (p : TradingPanel) :
    ∃ selected, TradingPanel.onmessage sc event p = ⟨.ok (), ⟨p.isConnected, some (.arr xs), selected⟩, []⟩ ∧
      (selected = p.selectedInstrument ∨ plain selected = true) := by
  rw [TradingPanel.onmessage, onType_read h hj]
  exact showInstruments_listing hr hx p

private theorem showCancellation_keeps (v data : Value) :
    Exec.Keeps (fun o : OpenOrdersList => o.openOrders = v) (fun _ => True) (fun _ => True)
      (OpenOrdersList.showCancellation sc data) := by
  refine .bind (.ofExcept (fun _ _ => trivial)) (fun error _ => ?_)
  split
  · exact .bind (.ofExcept (fun _ _ => trivial)) (fun text _ => .modify (fun o ho => ho))
  · exact .modify (fun o ho => ho)

/-- Without a result the instruments become undefined, and the handler throws. -/
theorem TradingPanel.onmessage_missing {ms : List (String × Json)} (h : strictEq (typeOf event) "instruments" = true)
    (hj : readText event = some (.obj ms)) (hr : (Json.obj ms).get? "result" = none) (p : TradingPanel) :
    TradingPanel.onmessage sc event p = ⟨.error .typeError, { p with instruments := none }, []⟩ := by
  rw [TradingPanel.onmessage, onType_read h hj, TradingPanel.showInstruments, prop, hr]
  · rfl
  · simp

/-- A frame of another type may change the message shown, never the orders. -/
theorem OpenOrdersList.handleMessage_other (h : strictEq (typeOf event) "open_orders_update" = false)
    (o : OpenOrdersList) : (OpenOrdersList.handleMessage sc event o).state.openOrders = o.openOrders := by
  unfold OpenOrdersList.handleMessage
  rcases onMessage_cases event _ o with ⟨_, e, hrun⟩ | ⟨j, _, hrun⟩
  · rw [hrun]
  · rw [hrun, h, if_neg Bool.false_ne_true]
    split
    · exact (showCancellation_keeps o.openOrders (some j) o rfl).1
    · rfl

theorem OpenOrdersList.handleMessage_passed (ht : typeOf event ≠ none)
    (hu : strictEq (typeOf event) "open_orders_update" = false) (hc : strictEq (typeOf event) "cancel_response" = false)
    (o : OpenOrdersList) : OpenOrdersList.handleMessage sc event o = ⟨.ok (), o, []⟩ := by
  unfold OpenOrdersList.handleMessage
  rcases onMessage_cases event _ o with ⟨hn, _⟩ | ⟨j, _, hrun⟩
  · exact absurd hn ht
  · rw [hrun, hu, hc]
    rfl

/-- An update with a listing replaces the orders. -/
theorem OpenOrdersList.handleMessage_listing {data : Json} (h : strictEq (typeOf event) "open_orders_update" = true)
    (hj : readText event = some j) (hd : j.get? "data" = some data) (hr : data.get? "result" = some (.arr xs))
    (o : OpenOrdersList) : OpenOrdersList.handleMessage sc event o = ⟨.ok (), ⟨some (.arr xs), o.message⟩, []⟩ := by
  unfold OpenOrdersList.handleMessage
  rcases onMessage_cases event _ o with ⟨ht, _⟩ | ⟨j', hj', hrun⟩
  · rw [ht] at h
    cases h
  · rw [hj, Option.some_inj] at hj'
    subst hj'
    rw [hrun, if_pos h, OpenOrdersList.showUpdate]
    simp [prop_of_get? hd, prop_of_get? hr]

/-- An update takes over its result, or throws and leaves the orders as they are. -/
theorem OpenOrdersList.handleMessage_update {data : Json} (h : strictEq (typeOf event) "open_orders_update" = true)
    (hj : readText event = some j) (hd : j.get? "data" = some data) (o : OpenOrdersList) :
    (OpenOrdersList.handleMessage sc event o).state.openOrders = o.openOrders ∨
      (OpenOrdersList.handleMessage sc event o).state.openOrders = data.get? "result" := by
  unfold OpenOrdersList.handleMessage
  rcases onMessage_cases event _ o with ⟨_, e, hrun⟩ | ⟨j', hj', hrun⟩
  · exact .inl (by rw [hrun])
  · rw [hj, Option.some_inj] at hj'
    subst hj'
    rw [hrun, if_pos h, OpenOrdersList.showUpdate, prop_of_get? hd]
    by_cases hn : data = .null
    · exact .inl (by rw [hn]; rfl)
    · exact .inr (by simp [prop_ok hn])

/-- The handler of the open orders sends nothing. -/
theorem OpenOrdersList.handleMessage_silent (o : OpenOrdersList) : (OpenOrdersList.handleMessage sc event o).trace = [] := by
  unfold OpenOrdersList.handleMessage
  rcases onMessage_cases event _ o with ⟨_, e, hrun⟩ | ⟨j', _, hrun⟩
  · rw [hrun]
  · rw [hrun]
    split
    · unfold OpenOrdersList.showUpdate
      cases prop (some j') "data" with
      | error e => rfl
      | ok update => cases hr : prop update "result" <;> simp [hr]
    · split
      · unfold OpenOrdersList.showCancellation
        cases prop (some j') "error" with
        | error e => rfl
        | ok error =>
          by_cases ht : truthy sc error = true
          · cases hx : template sc error <;> simp [ht, hx]
          · simp [ht]
      · rfl

end Handlers
end DeribitClientServer.Client
