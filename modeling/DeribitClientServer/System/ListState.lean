import DeribitClientServer.Client.Lists
import DeribitClientServer.System.FrameTypes

/-! The lists of the client under the frames of the server. What an upstream
answer holds reaches the components unchecked, and so does its absence. -/
namespace DeribitClientServer.System
open Library Library.JsonText Library.Utf8 Server Client

/-- Where a frame comes from: a message being handled, or a turn of a thread. -/
inductive Source where
  | message (msg : Message) (w : World)
  | turn (l : Loop) (s : Threads)

def Source.world : Source → World
  | .message _ w => w
  | .turn _ s => s.world

def Source.Emits (env : Externals) (supported : List String) (p : Bytes) : Source → Prop
  | .message msg w => p ∈ payloads (processMessage env msg w).trace
  | .turn l s => (∃ as, (updateLoops env supported).Run Transition.anyStep as s) ∧
      p ∈ payloads (l.turn env supported s.world).trace

/-- An answer with status 200 is an object with a result that is an array. -/
def AnswersArrays (env : Externals) (w : World) : Prop :=
  ∀ n body, okBody (w.api.get n) = some body →
    ∃ data xs, parseJson env body = .ok data ∧ data.get? "result" = some (.arr xs)

/-- The call was answered with status 200 and an array of these entries. -/
def Listing (env : Externals) (Entry : Json → Prop) (res : Outcome) : Prop :=
  ∃ body data, okBody res = some body ∧ parseJson env body = .ok data ∧ ArrayOf Entry (data.get? "result")

structure Lists where
  panel : TradingPanel
  orders : Option OpenOrdersList
  threw : Bool

inductive ListAct where
  | opened
  | closed
  | select (instrument : String)
  | frame (src : Source) (payload : Bytes)

section Steps
variable (env : Externals) (sc : Script) (supported : List String)

def raises {σ : Type} (r : Ran σ Bytes Thrown Unit) : Bool := !r.result.isOk

@[simp] theorem raises_ok {σ : Type} (s : σ) (t : List Bytes) :
    raises (⟨.ok (), s, t⟩ : Ran σ Bytes Thrown Unit) = false := rfl

def isListFrame (p : Bytes) : Bool := strictEq (typeOf p) "instruments" || strictEq (typeOf p) "open_orders_update"

/-- Both components get the frame; what matters is whether a list frame made one throw. -/
def Lists.take (s : Lists) (p : Bytes) : Lists :=
  let panel := TradingPanel.onmessage sc p s.panel
  let orders := s.orders.map (fun o => OpenOrdersList.handleMessage sc p o)
  ⟨panel.state, orders.map Ran.state, s.threw || (isListFrame p && (raises panel || orders.any raises))⟩

/-- The open orders are mounted while the panel is connected. -/
def lists : Transition Lists ListAct where
  initial s := s = ⟨TradingPanel.initial, none, false⟩
  step s a s' :=
    match a with
    | .opened => s' = { s with panel := { s.panel with isConnected := true }, orders := some (s.orders.getD .initial) }
    | .closed => s' = { s with panel := { s.panel with isConnected := false }, orders := none }
    | .select instrument => s' = { s with panel := { s.panel with selectedInstrument := some (.str instrument) } }
    | .frame src p => AnswersArrays env src.world ∧ src.Emits env supported p ∧ s' = s.take sc p

/-- The calls behind list frames bring listings of entries that can be shown, and
no text glued into an order's reply makes a list frame of it. -/
def Source.Listed : Source → Prop
  | .message msg w =>
      (∀ j, kindOf env msg.payload = .instruments j → Listing env InstrumentEntry w.api.head) ∧
      (∀ op, kindOf env msg.payload = .order op → TokenAvailable env (op.world env msg.payload w) →
        Listing env OrderEntry (op.world env msg.payload w).api.head) ∧
      (kindOf env msg.payload = .order .place → ∀ text, gluedText env msg.payload w = some text →
        ¬ Splices text "instruments" ∧ ¬ Splices text "open_orders_update")
  | .turn l s => l = .openOrders → TokenAvailable env s.world → Listing env OrderEntry s.world.api.head

def FramesListed (_ : Lists) : ListAct → Prop
  | .frame src _ => src.Listed env
  | .opened | .closed | .select _ => True

end Steps

/-- No list frame made a handler throw, the lists are arrays, and both components
render. -/
structure ListsSound (sc : Script) (s : Lists) : Prop where
  quiet : s.threw = false
  instruments : ArrayOf (fun _ => True) s.panel.instruments
  openOrders : ∀ o, s.orders = some o → ArrayOf (fun _ => True) o.openOrders
  panelRenders : ∃ texts, s.panel.render sc = .ok texts
  ordersRender : ∀ o, s.orders = some o → ∃ rows, o.render sc = .ok rows

/-- A frame as far as the lists go: of another type, or with a listing. -/
inductive ListFrame (env : Externals) : Bytes → Prop where
  | foreign {p : Bytes} (hi : strictEq (typeOf p) "instruments" = false)
      (ho : strictEq (typeOf p) "open_orders_update" = false) : ListFrame env p
  | instruments {j : Json} (ht : j.get? "type" = some (.str "instruments"))
      (hs : ∀ v, j.get? "result" = some v → v.stored env.spelling = v)
      (hr : ArrayOf InstrumentEntry (j.get? "result")) : ListFrame env (env.dump j)
  | orders {data : Json} (hs : data.stored env.spelling = data) (hr : ArrayOf OrderEntry (data.get? "result")) :
      ListFrame env (env.dump (openOrdersUpdate data))

section Frames
variable {env : Externals} {supported : List String} {p : Bytes}

private theorem foreign_of_hasType {t : String} (h : HasType p t) (hi : t ≠ "instruments")
    (ho : t ≠ "open_orders_update") : ListFrame env p :=
  .foreign (strictEq_of_hasType h hi) (strictEq_of_hasType h ho)

private theorem get?_assign_ne {j j' : Json} {k k' : String} {v : Json} (h : assign env j k v = .ok j') (hk : k ≠ k')
    (hj : j ≠ .null) : j'.get? k' = j.get? k' := by
  cases j with
  | obj ms =>
    cases h
    exact Json.get?_set_ne hk (.obj ms) v
  | null => exact absurd rfl hj
  | bool _ | num _ | str _ | arr _ => cases h

private theorem instruments_frame {res : Outcome} (hl : Listing env InstrumentEntry res)
    (h : instrumentsReply env res = .ok p) : ListFrame env p := by
  obtain ⟨body, data, hb, hd, xs, hxs, hx⟩ := hl
  have hn : data ≠ .null := by
    rintro rfl
    cases hxs
  have hr : (typed env "instruments" body).map env.dump = .ok p := by
    rw [instrumentsReply, hb] at h
    exact h
  cases ht : typed env "instruments" body with
  | error e =>
    rw [ht] at hr
    cases hr
  | ok j =>
    rw [ht] at hr
    cases hr
    have hkept : j.get? "result" = data.get? "result" := by
      rw [typed, hd] at ht
      exact get?_assign_ne ht (by decide) hn
    refine .instruments (get?_typed env ht) (fun v hv => ?_) ⟨xs, hkept.trans hxs, hx⟩
    exact Json.stored_of_get? (stored_of_parsed env hd) (hkept.symm.trans hv)

private theorem orders_frame {data : Json} {res : Outcome} (hl : Listing env OrderEntry res)
    (hd : parseJson env (openOrdersText env res) = .ok data) : ListFrame env (env.dump (openOrdersUpdate data)) := by
  obtain ⟨body, data', hb, hd', hr⟩ := hl
  rw [openOrdersText, hb] at hd
  have hst := stored_of_parsed env hd
  simp only [hd', Except.ok.injEq] at hd
  exact .orders hst (hd ▸ hr)

private theorem message_frame (ha : ReadersAgree env) {msg : Message} {w : World}
    (hl : (Source.message msg w).Listed env) (hp : p ∈ payloads (processMessage env msg w).trace) : ListFrame env p := by
  obtain ⟨hinst, hord, hglue⟩ := hl
  obtain ⟨f, hf, rfl⟩ := List.mem_map.mp hp
  cases frame_origin hf with
  | failed state => exact .foreign (strictEq_error _) (strictEq_error _)
  | echoed state hk => exact .foreign (strictEq_echo ha hk (by decide)) (strictEq_echo ha hk (by decide))
  | @instruments j q state hk h => exact instruments_frame (hinst j hk) h
  | @operation op q state hk h =>
    cases op with
    | place =>
      have hs := hglue hk
      exact .foreign (strictEq_place h (fun text ht => (hs text ht).1) (by decide))
        (strictEq_place h (fun text ht => (hs text ht).2) (by decide))
    | modify | cancel => exact .foreign (strictEq_edit (by decide) h (by decide)) (strictEq_edit (by decide) h (by decide))
  | @updated op data f hk hd _ hpay =>
    rw [hpay]
    exact orders_frame (hord op hk hd.1) hd.2

private theorem turn_frame {l : Loop} {s : Threads} {as : List Act}
    (r : (updateLoops env supported).Run Transition.anyStep as s) (hl : (Source.turn l s).Listed env)
    (hp : p ∈ payloads (l.turn env supported s.world).trace) : ListFrame env p := by
  obtain ⟨f, hf, rfl⟩ := List.mem_map.mp hp
  cases l with
  | orderbook => exact foreign_of_hasType (turn_frames (template_typed r) hf).2.hasType (by decide) (by decide)
  | positions => exact foreign_of_hasType (turn_frames (template_typed r) hf).2.hasType (by decide) (by decide)
  | openOrders =>
    rcases (refresh_run env s.world).2.2 with hu | ⟨data, hd, hu⟩
    · have hf' : f ∈ frames (broadcastOpenOrdersUpdate env s.world).trace := hf
      rw [hu] at hf'
      cases hf'
    · have hf' : f ∈ frames (broadcastOpenOrdersUpdate env s.world).trace := hf
      rw [hu] at hf'
      rw [(of_mem_sends hf').2]
      exact orders_frame (hl rfl hd.1) hd.2

theorem source_frame (ha : ReadersAgree env) {src : Source} (hl : src.Listed env) (hp : src.Emits env supported p) :
    ListFrame env p := by
  cases src with
  | message msg w => exact message_frame ha hl hp
  | turn l s =>
    obtain ⟨⟨as, r⟩, hp⟩ := hp
    exact turn_frame r hl hp

end Frames

/-- The lists are arrays of entries that can be shown. -/
structure ListsInv (s : Lists) : Prop where
  quiet : s.threw = false
  instruments : ArrayOf InstrumentEntry s.panel.instruments
  selected : plain s.panel.selectedInstrument = true
  openOrders : ∀ o, s.orders = some o → ArrayOf OrderEntry o.openOrders

section Invariant
variable {env : Externals} {sc : Script} {supported : List String} {s : Lists} {p : Bytes}

private theorem arrayOf_canon {Entry : Json → Prop} {j : Json} {k : String} (h : ArrayOf Entry (j.get? k))
    (he : ∀ e, Entry e → Entry e.canon) : ArrayOf Entry (j.canon.get? k) := by
  obtain ⟨xs, hxs, hx⟩ := h
  refine ⟨xs.map Json.canon, by rw [Json.get?_canon, hxs, Option.map_some, Json.canon_arr], ?_⟩
  rw [List.forall_mem_map]
  exact fun e hm => he e (hx e hm)

/-- A frame of another type changes neither list. -/
private theorem listsInv_foreign (hs : ListsInv s) (hi : strictEq (typeOf p) "instruments" = false)
    (ho : strictEq (typeOf p) "open_orders_update" = false) : ListsInv (s.take sc p) := by
  have hpanel : (s.take sc p).panel = s.panel := TradingPanel.onmessage_ignored hi s.panel
  refine ⟨?_, ?_, ?_, fun o h => ?_⟩
  · simp [Lists.take, isListFrame, hi, ho, hs.quiet]
  · rw [hpanel]
    exact hs.instruments
  · rw [hpanel]
    exact hs.selected
  · simp only [Lists.take, Option.map_eq_some_iff] at h
    obtain ⟨r, ⟨o', ho', rfl⟩, rfl⟩ := h
    rw [OpenOrdersList.handleMessage_other ho]
    exact hs.openOrders o' ho'

private theorem listsInv_instruments (hs : ListsInv s) {j : Json} (ht : j.get? "type" = some (.str "instruments"))
    (hst : ∀ v, j.get? "result" = some v → v.stored env.spelling = v)
    (hr : ArrayOf InstrumentEntry (j.get? "result")) : ListsInv (s.take sc (env.dump j)) := by
  have hty : HasType (env.dump j) "instruments" := hasType_dump ht
  obtain ⟨xs, hxs, hx⟩ := arrayOf_canon hr (fun _ he => InstrumentEntry.canon he)
  obtain ⟨selected, hpanel, hsel⟩ := @TradingPanel.onmessage_listing sc _ _ _ ((strictEq_typeOf _ _).mpr hty)
    (env.dump_reads j) ((get?_dumped_kept env hst).trans hxs) hx s.panel
  have horders (o : OpenOrdersList) : OpenOrdersList.handleMessage sc (env.dump j) o = ⟨.ok (), o, []⟩ :=
    OpenOrdersList.handleMessage_passed (typeOf_of_hasType hty) (strictEq_of_hasType hty (by decide))
      (strictEq_of_hasType hty (by decide)) o
  unfold Lists.take
  simp only [hpanel]
  refine ⟨?_, ⟨xs, rfl, hx⟩, ?_, fun o h => ?_⟩
  · cases ho : s.orders <;> simp [hs.quiet, horders]
  · rcases hsel with rfl | hsel
    · exact hs.selected
    · exact hsel
  · simp only [Option.map_eq_some_iff, horders] at h
    obtain ⟨r, ⟨o', ho', rfl⟩, rfl⟩ := h
    exact hs.openOrders o' ho'

private theorem listsInv_orders (hs : ListsInv s) {data : Json} (hst : data.stored env.spelling = data)
    (hr : ArrayOf OrderEntry (data.get? "result")) : ListsInv (s.take sc (env.dump (openOrdersUpdate data))) := by
  have hty : HasType (env.dump (openOrdersUpdate data)) "open_orders_update" := hasType_dump (get?_openOrdersUpdate data)
  obtain ⟨xs, hxs, hx⟩ := arrayOf_canon hr (fun _ he => OrderEntry.canon he)
  have hdata := get?_openOrdersUpdate_data env data
  rw [hst] at hdata
  have hpanel := @TradingPanel.onmessage_passed sc _ (typeOf_of_hasType hty) (strictEq_of_hasType hty (by decide)) s.panel
  have horders (o : OpenOrdersList) := @OpenOrdersList.handleMessage_listing sc _ _ _ _
    ((strictEq_typeOf _ _).mpr hty) (env.dump_reads _) hdata hxs o
  unfold Lists.take
  simp only [hpanel]
  refine ⟨?_, hs.instruments, hs.selected, fun o h => ?_⟩
  · cases ho : s.orders <;> simp [hs.quiet, horders]
  · simp only [Option.map_eq_some_iff, horders] at h
    obtain ⟨r, ⟨o', ho', rfl⟩, rfl⟩ := h
    exact ⟨xs, rfl, hx⟩

theorem listsInv_step (ha : ReadersAgree env) {a : ListAct} {s' : Lists} (hs : ListsInv s) (hg : FramesListed env s a)
    (h : (lists env sc supported).step s a s') : ListsInv s' := by
  cases a with
  | opened =>
    obtain rfl := h
    refine ⟨hs.quiet, hs.instruments, hs.selected, fun o ho => ?_⟩
    cases hm : s.orders with
    | some o' =>
      simp only [hm, Option.getD_some, Option.some_inj] at ho
      exact ho ▸ hs.openOrders o' hm
    | none =>
      simp only [hm, Option.getD_none, Option.some_inj] at ho
      exact ⟨[], by rw [← ho]; rfl, by simp⟩
  | closed =>
    obtain rfl := h
    exact ⟨hs.quiet, hs.instruments, hs.selected, fun o ho => nomatch ho⟩
  | select instrument =>
    obtain rfl := h
    exact ⟨hs.quiet, hs.instruments, rfl, hs.openOrders⟩
  | frame src p =>
    obtain ⟨_, hp, rfl⟩ := h
    cases source_frame ha hg hp with
    | foreign hi ho => exact listsInv_foreign hs hi ho
    | instruments ht hst hr => exact listsInv_instruments hs ht hst hr
    | orders hst hr => exact listsInv_orders hs hst hr

private theorem arrayOf_any {Entry : Json → Prop} {v : Value} (h : ArrayOf Entry v) : ArrayOf (fun _ => True) v := by
  obtain ⟨xs, hxs, _⟩ := h
  exact ⟨xs, hxs, fun _ _ => trivial⟩

/-- As long as the calls behind list frames bring listings that can be shown, the
lists of the client stay arrays and render. -/
theorem lists_sound (ha : ReadersAgree env) {as : List ListAct}
    (r : (lists env sc supported).Run (FramesListed env) as s) : ListsSound sc s := by
  have hs : ListsInv s := by
    refine r.invariant ListsInv (fun s h => ?_) (fun s a s' hs hg h => listsInv_step ha hs hg h)
    obtain rfl := h
    exact ⟨rfl, ⟨[], rfl, by simp⟩, rfl, fun o ho => nomatch ho⟩
  exact ⟨hs.quiet, arrayOf_any hs.instruments, fun o ho => arrayOf_any (hs.openOrders o ho),
    TradingPanel.render_ok hs.instruments hs.selected, fun o ho => OpenOrdersList.render_ok (hs.openOrders o ho)⟩

end Invariant

section Futures

def futuresRequest : Json := .obj [("type", .str "get_instruments"), ("currency", .str "BTC"), ("kind", .str "future")]

private theorem parse_futuresRequest :
    parseJson grammarExternals (printText futuresRequest) = .ok futuresRequest.canon :=
  parseJson_printed _ (Json.respell_some _)

private theorem kindOf_futuresRequest :
    kindOf grammarExternals (printText futuresRequest) = .instruments futuresRequest.canon := by
  rw [kindOf, parse_futuresRequest]
  rfl

/-- The request is answered by what its call brings. -/
private theorem futures_emitted {w : World} {p : Bytes} (h : instrumentsReply grammarExternals w.api.head = .ok p) :
    (Source.message ⟨1, printText futuresRequest, .text⟩ w).Emits grammarExternals [] p := by
  apply answer_mem_payloads
  rw [kindOf_futuresRequest]
  have hq : instrumentsQuery grammarExternals futuresRequest.canon = .ok ("BTC", "future") := rfl
  rw [answer, hq]
  exact h

/-- The panel once it is connected. -/
def connected : Lists := ⟨⟨true, some (.arr []), some (.str "")⟩, some .initial, false⟩

private theorem connected_run (guard : Lists → ListAct → Prop) (hg : ∀ s, guard s .opened) :
    (lists grammarExternals plainScript []).Run guard [.opened] connected := by
  have r0 : (lists grammarExternals plainScript []).Run guard [] ⟨TradingPanel.initial, none, false⟩ := .start rfl
  exact r0.next .opened (hg _) rfl

def futures : Json :=
  .obj [("result", .arr [.obj [("instrument_name", .str "BTC-PERPETUAL"), ("kind", .str "future"),
    ("expiration_timestamp", numberOf 1)]])]

/-- The calls bring one future. -/
def trading : World := { idleWorld with api := .const (some ⟨200, printText futures⟩) }

def futuresReply : Json := futures.canon.set "type" (.str "instruments")

theorem parse_futures : parseJson grammarExternals (printText futures) = .ok futures.canon :=
  parseJson_printed _ (Json.respell_some _)

theorem entries_futures : ArrayOf InstrumentEntry (futures.canon.get? "result") := by
  refine arrayOf_canon ⟨_, rfl, ?_⟩ (fun _ he => InstrumentEntry.canon he)
  intro e he
  obtain rfl := List.mem_singleton.mp he
  exact ⟨by simp, rfl, .inl rfl, rfl, rfl⟩

theorem reply_futures :
    instrumentsReply grammarExternals trading.api.head = .ok (grammarExternals.dump futuresReply) := by
  have ht : typed grammarExternals "instruments" (printText futures) = .ok futuresReply := by
    rw [typed, parse_futures]
    rfl
  have hb : okBody trading.api.head = some (printText futures) := rfl
  rw [instrumentsReply, hb]
  simp only [ht]
  rfl

/-- The future reaches the panel, and everything renders. -/
theorem futures_shown : ListsSound plainScript (connected.take plainScript (grammarExternals.dump futuresReply)) := by
  have r := connected_run (FramesListed grammarExternals) (fun _ => trivial)
  refine lists_sound readersAgree_grammar (r.next (.frame (.message ⟨1, printText futuresRequest, .text⟩ trading) _) ?_
    ⟨?_, futures_emitted reply_futures, rfl⟩)
  · refine ⟨fun j _ => ⟨_, _, rfl, parse_futures, entries_futures⟩, fun op hk => ?_, fun hk => ?_⟩
    · simp [kindOf_futuresRequest] at hk
    · simp [kindOf_futuresRequest] at hk
  · rintro n body ⟨⟩
    obtain ⟨xs, hxs, _⟩ := entries_futures
    exact ⟨_, xs, parse_futures, hxs⟩

def failedFetch : Json := .obj [("type", .str "instruments"), ("error", .str "Failed to fetch instruments")]

/-- A failed call makes an instruments frame without a result; the panel then
holds no array. -/
theorem failed_fetch_breaks_lists : ¬ ∀ (env : Externals) (sc : Script) (supported : List String), ReadersAgree env →
    ∀ as s, (lists env sc supported).Run Transition.anyStep as s → ListsSound sc s := by
  intro h
  have hr : instrumentsReply grammarExternals idleWorld.api.head = .ok (grammarExternals.dump failedFetch) := rfl
  have r := connected_run Transition.anyStep (fun _ => trivial)
  have hs := h grammarExternals plainScript [] readersAgree_grammar _ _
    (r.next (.frame (.message ⟨1, printText futuresRequest, .text⟩ idleWorld) _) trivial
      ⟨fun n body hb => (nomatch hb), futures_emitted hr, rfl⟩)
  have ht : HasType (grammarExternals.dump failedFetch) "instruments" := hasType_dump (by simp [failedFetch, Json.get?])
  have hmiss : failedFetch.canon.get? "result" = none := by
    rw [Json.get?_canon]
    simp [failedFetch, Json.get?]
  have hpanel := @TradingPanel.onmessage_missing plainScript _ _ ((strictEq_typeOf _ _).mpr ht)
    (grammarExternals.dump_reads failedFetch) hmiss connected.panel
  obtain ⟨xs, hxs, _⟩ := hs.instruments
  simp only [Lists.take, hpanel] at hxs
  cases hxs

end Futures
end DeribitClientServer.System
