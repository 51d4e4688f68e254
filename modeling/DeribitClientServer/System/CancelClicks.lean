import DeribitClientServer.Server.Books
import DeribitClientServer.Server.OrderGate
import DeribitClientServer.Server.QuickCheck
import DeribitClientServer.System.ListState

/-! A cancellation from the row of an order to the exchange. The order it names is one
that the exchange has listed. -/
namespace DeribitClientServer.System
open Library Library.JsonText Library.Utf8 Server Client

/-- The answer to the refresh of this source lists these orders, as a client reads them. -/
def Source.Lists (env : Externals) (orders : List Json) : Source → Prop
  | .message msg w => ∃ op data, kindOf env msg.payload = .order op ∧
      Fetched env (op.world env msg.payload w) data ∧ data.canon.get? "result" = some (.arr orders)
  | .turn l s => l = .openOrders ∧ ∃ data, Fetched env s.world data ∧ data.canon.get? "result" = some (.arr orders)

/-- The source broadcasts this payload. -/
def Source.Casts (env : Externals) (supported : List String) (p : Bytes) : Source → Prop
  | .message msg w => ∃ f ∈ frames (processMessage env msg w).trace, f.via = .broadcast ∧ f.payload = p
  | .turn l s => (∃ as, (updateLoops env supported).Run Transition.anyStep as s) ∧
      ∃ f ∈ frames (l.turn env supported s.world).trace, f.payload = p

/-- The open orders, the sources of the frames heard, and what was sent. -/
structure OrdersPage where
  list : OpenOrdersList
  heard : List Source
  sent : List Bytes

inductive PageAct where
  | effects
  | frame (src : Source) (event : Bytes)
  | cancel (i : Nat)

def OrdersPage.ran (s : OrdersPage) (r : Ran OpenOrdersList Bytes Thrown Unit) : OrdersPage :=
  { s with list := r.state, sent := s.sent ++ r.trace }

/-- A click is on the row of one of the orders held. -/
def ordersPage (sc : Script) : Transition OrdersPage PageAct where
  initial s := s = ⟨.initial, [], []⟩
  step s a s' :=
    match a with
    | .effects => s' = { s with sent := s.sent ++ [printText OpenOrdersList.listingRequest] }
    | .frame src event => s' = { s.ran (OpenOrdersList.handleMessage sc event s.list) with heard := src :: s.heard }
    | .cancel i => ∃ orders order, s.list.openOrders = some (.arr orders) ∧ orders[i]? = some order ∧
        s' = s.ran (OpenOrdersList.handleCancelClick (order.get? "order_id") s.list)

/-- Updates of the open orders are broadcast by their sources. -/
def ListingsBroadcast (env : Externals) (supported : List String) (_ : OrdersPage) : PageAct → Prop
  | .frame src event => strictEq (typeOf event) "open_orders_update" = true → src.Casts env supported event
  | .effects | .cancel _ => True

/-- What the page can have sent: its request for the orders, or a cancellation of an
order listed by a source it heard. -/
inductive PageSent (env : Externals) (heard : List Source) : Bytes → Prop where
  | listing : PageSent env heard (printText OpenOrdersList.listingRequest)
  | cancellation {src : Source} {orders : List Json} {order : Json} (hs : src ∈ heard) (hl : src.Lists env orders)
      (ho : order ∈ orders) : PageSent env heard (printText (OpenOrdersList.cancellation (order.get? "order_id")))

/-- The orders held were listed by a source heard, and so were those cancelled. -/
structure PageSound (env : Externals) (s : OrdersPage) : Prop where
  held : ∀ orders, s.list.openOrders = some (.arr orders) → orders = [] ∨ ∃ src ∈ s.heard, src.Lists env orders
  sent : ∀ m ∈ s.sent, PageSent env s.heard m

section Sources
variable {env : Externals} {supported : List String} {src : Source} {event : Bytes}

private theorem update_of_message {msg : Message} {w : World} (h : (Source.message msg w).Casts env supported event) :
    ∃ op data, kindOf env msg.payload = .order op ∧ Fetched env (op.world env msg.payload w) data ∧
      event = env.dump (openOrdersUpdate data) := by
  obtain ⟨f, hf, hv, rfl⟩ := h
  cases frame_origin hf with
  | failed state | echoed state _ | instruments state _ _ | operation state _ _ => cases hv
  | @updated op data _ hk hd _ hp => exact ⟨op, data, hk, hd, hp⟩

private theorem update_of_turn {l : Loop} {s : Threads} (ht : HasType event "open_orders_update")
    (h : (Source.turn l s).Casts env supported event) :
    l = .openOrders ∧ ∃ data, Fetched env s.world data ∧ event = env.dump (openOrdersUpdate data) := by
  obtain ⟨⟨as, r⟩, f, hf, rfl⟩ := h
  have hl : l.updateType = "open_orders_update" := updateType_of_frame r hf ht
  cases l with
  | orderbook | positions => exact absurd hl (by decide)
  | openOrders =>
    refine ⟨rfl, ?_⟩
    rw [show frames (Loop.openOrders.turn env supported s.world).trace =
      frames (broadcastOpenOrdersUpdate env s.world).trace from rfl] at hf
    rcases (refresh_run env s.world).2.2 with hu | ⟨data, hd, hu⟩
    · rw [hu] at hf
      cases hf
    · rw [hu] at hf
      exact ⟨data, hd, (of_mem_sends hf).2⟩

/-- An update that is broadcast carries what its source fetched. -/
theorem listed_of_update (ht : strictEq (typeOf event) "open_orders_update" = true) (h : src.Casts env supported event) :
    ∃ data, event = env.dump (openOrdersUpdate data) ∧ data.stored env.spelling = data ∧
      ∀ orders, data.canon.get? "result" = some (.arr orders) → src.Lists env orders := by
  cases src with
  | message msg w =>
    obtain ⟨op, data, hk, hd, he⟩ := update_of_message h
    exact ⟨data, he, stored_of_parsed env hd.2, fun orders ho => ⟨op, data, hk, hd, ho⟩⟩
  | turn l s =>
    obtain ⟨hl, data, hd, he⟩ := update_of_turn ((strictEq_typeOf _ _).mp ht) h
    exact ⟨data, he, stored_of_parsed env hd.2, fun orders ho => ⟨hl, data, hd, ho⟩⟩

theorem PageSent.more {heard : List Source} {m : Bytes} (h : PageSent env heard m) : PageSent env (src :: heard) m := by
  cases h with
  | listing => exact .listing
  | cancellation hs hl ho => exact .cancellation (List.mem_cons_of_mem _ hs) hl ho

end Sources

section Runs
variable {env : Externals} {supported : List String} {sc : Script} {s s' : OrdersPage} {a : PageAct} {as : List PageAct}

private theorem pageSound_frame {src : Source} {event : Bytes} (hs : PageSound env s)
    (hg : ListingsBroadcast env supported s (.frame src event)) :
    PageSound env { s.ran (OpenOrdersList.handleMessage sc event s.list) with heard := src :: s.heard } := by
  constructor
  · intro orders ho
    have hold (h : (OpenOrdersList.handleMessage sc event s.list).state.openOrders = s.list.openOrders) :
        orders = [] ∨ ∃ src' ∈ src :: s.heard, src'.Lists env orders := by
      rcases hs.held orders (h ▸ ho) with hnil | ⟨src', hsrc, hl⟩
      · exact .inl hnil
      · exact .inr ⟨src', List.mem_cons_of_mem _ hsrc, hl⟩
    by_cases ht : strictEq (typeOf event) "open_orders_update" = true
    · obtain ⟨data, rfl, hst, hlist⟩ := listed_of_update ht (hg ht)
      have hdata := get?_openOrdersUpdate_data env data
      rw [hst] at hdata
      rcases OpenOrdersList.handleMessage_update ht (env.dump_reads _) hdata s.list with h | h
      · exact hold h
      · exact .inr ⟨src, List.mem_cons_self, hlist orders (h.symm.trans ho)⟩
    · exact hold (OpenOrdersList.handleMessage_other (Bool.not_eq_true _ ▸ ht) s.list)
  · intro m hm
    rw [OrdersPage.ran, OpenOrdersList.handleMessage_silent, List.append_nil] at hm
    exact (hs.sent m hm).more

theorem pageSound_step (hs : PageSound env s) (hg : ListingsBroadcast env supported s a)
    (h : (ordersPage sc).step s a s') : PageSound env s' := by
  cases a with
  | effects =>
    obtain rfl := h
    refine ⟨hs.held, fun m hm => ?_⟩
    rcases List.mem_append.mp hm with hm | hm
    · exact hs.sent m hm
    · rw [List.mem_singleton.mp hm]
      exact .listing
  | frame src event =>
    obtain rfl := h
    exact pageSound_frame hs hg
  | cancel i =>
    obtain ⟨orders, order, ho, hi, rfl⟩ := h
    refine ⟨hs.held, fun m hm => ?_⟩
    rcases List.mem_append.mp hm with hm | hm
    · exact hs.sent m hm
    · have hmem : order ∈ orders := List.mem_of_getElem? hi
      rcases hs.held orders ho with rfl | ⟨src, hsrc, hl⟩
      · cases hmem
      · have hm' : m = printText (OpenOrdersList.cancellation (order.get? "order_id")) := List.mem_singleton.mp hm
        exact hm' ▸ .cancellation hsrc hl hmem

theorem pageSound (r : (ordersPage sc).Run (ListingsBroadcast env supported) as s) : PageSound env s := by
  refine r.invariant (PageSound env) (fun s h => ?_) fun s a s' hs hg h => pageSound_step hs hg h
  obtain rfl := h
  refine ⟨fun orders ho => .inl ?_, fun m hm => ?_⟩
  · exact (Json.arr.inj (Option.some.inj ho)).symm
  · cases hm

end Runs

section Server
variable {env : Externals} {w : World} {hdl : Hdl}

/-- What the server posts to the order endpoints for a cancellation: one request that names
the order, if that is a string and a token is had. -/
inductive CancelPosts (env : Externals) (w : World) (orderId : Value) : List Request → Prop where
  | one {id : String} (r : Request) (hid : orderId = some (.str id)) (ht : TokenAvailable env w)
      (hpath : r.path = "/api/v2/private/cancel")
      (hp : HasParams r (fun k => if k = "order_id" then some (.str id) else none)) : CancelPosts env w orderId [r]
  | none (h : (∀ id, orderId ≠ some (.str id)) ∨ ¬ TokenAvailable env w) : CancelPosts env w orderId []

/-- What the server posts to the order endpoints for a message of the page. -/
inductive ServedClick (env : Externals) (heard : List Source) (w : World) : Bytes → List Request → Prop where
  | listing {posts : List Request} (h : posts = []) : ServedClick env heard w (printText OpenOrdersList.listingRequest) posts
  | cancellation {src : Source} {orders : List Json} {order : Json} {posts : List Request} (hs : src ∈ heard)
      (hl : src.Lists env orders) (ho : order ∈ orders) (hp : CancelPosts env w (order.get? "order_id") posts) :
      ServedClick env heard w (printText (OpenOrdersList.cancellation (order.get? "order_id"))) posts

private theorem respell_str_iff {f : Numeral → Option Numeral} {v : Value} {id : String} :
    (v.bind (Json.respell f)).map Json.canon = some (.str id) ↔ v = some (.str id) := by
  constructor
  · intro h
    obtain ⟨u, hu, hcanon⟩ := Option.map_eq_some_iff.mp h
    obtain ⟨j, rfl, hj⟩ := Option.bind_eq_some_iff.mp hu
    cases j with
    | str s =>
      obtain rfl := Option.some.inj hj
      rw [← hcanon, Json.canon_str]
    | null | bool b =>
      obtain rfl := Option.some.inj hj
      simp [Json.canon] at hcanon
    | num n =>
      obtain ⟨m, _, rfl⟩ := Option.map_eq_some_iff.mp hj
      simp [Json.canon] at hcanon
    | arr xs =>
      obtain ⟨ys, _, rfl⟩ := Option.map_eq_some_iff.mp hj
      simp [Json.canon] at hcanon
    | obj ms =>
      obtain ⟨ns, _, rfl⟩ := Option.map_eq_some_iff.mp hj
      simp [Json.canon] at hcanon
  · rintro rfl
    simp [Json.respell]

/-- What a printed message is parsed as, if it is parsed. -/
theorem printed_parse (hg : ParsesGrammar env) {j v : Json} (h : parseJson env (printText v) = .ok j) :
    ∃ u, v.respell env.spelling = some u ∧ j = u.canon := by
  obtain ⟨v', u, hv, hu, hj⟩ := hg _ _ ((parseJson_ok_iff env).mp h)
  rw [significant_text (readText_printText v), readText_printText, Option.some_inj] at hv
  exact ⟨u, hv ▸ hu, hj⟩

private theorem orderId_read {v : Value} {u : Json}
    (hu : (OpenOrdersList.cancellation v).respell env.spelling = some u) :
    (u.canon.get? "data").bind (fun d => d.get? "order_id") = (v.bind (Json.respell env.spelling)).map Json.canon := by
  have hdata : (OpenOrdersList.cancellation v).get? "data" = some (object [("order_id", v)]) := rfl
  have hid : (object [("order_id", v)]).get? "order_id" = v := by
    cases v <;> rfl
  rw [Json.get?_canon, Json.get?_respell hu, hdata, Option.bind_some]
  cases hd : (object [("order_id", v)]).respell env.spelling with
  | none =>
    have hnone : v.bind (Json.respell env.spelling) = none := by
      cases v with
      | none => rfl
      | some j =>
        rw [Option.bind_some]
        cases hj : j.respell env.spelling with
        | none => rfl
        | some j' => simp [object, Json.respell, Json.respellMembers, hj] at hd
    rw [hnone]
    rfl
  | some d => rw [Option.map_some, Option.bind_some, Json.get?_canon, Json.get?_respell hd, hid]

private theorem kind_cancellation {v : Value} {u : Json}
    (hu : (OpenOrdersList.cancellation v).respell env.spelling = some u) :
    u.canon.get? "type" = some (.str "cancel_order") := by
  refine Json.get?_canon_str_iff.mpr ?_
  rw [Json.get?_respell hu]
  rfl

private theorem cancelPosts_of_read {payload : Bytes} {orderId : Value} (hk : kindOf env payload = .order .cancel)
    (hread : (messageData env payload).bind (fun d => d.get? "order_id") =
      (orderId.bind (Json.respell env.spelling)).map Json.canon) :
    CancelPosts env w orderId (orderPosts (processMessage env ⟨hdl, payload, .text⟩ w).trace) := by
  have hposts := orderPosts_order env ⟨hdl, payload, .text⟩ w hk
  rcases orderPosts_operation env ⟨hdl, payload, .text⟩ w .cancel with
    ⟨hgate, hnone⟩ | ⟨data, hpass, ⟨hn, hnone⟩ | ⟨htoken, r, hr, hpath, hparams⟩⟩
  · rw [hposts, hnone]
    refine .none (.inl fun id hid => ?_)
    rw [respell_str_iff.mpr hid] at hread
    obtain ⟨data, hd, hdid⟩ := Option.bind_eq_some_iff.mp hread
    exact hgate data ⟨hd, id, hdid⟩
  · rw [hposts, hnone]
    exact .none (.inr hn)
  · obtain ⟨hd, id, hid⟩ := hpass
    rw [hposts, hr]
    rw [hd, Option.bind_some, hid] at hread
    refine .one r (respell_str_iff.mp hread.symm) htoken hpath ?_
    have hsame : (fun k => sentParam data k .cancel) = fun k => if k = "order_id" then some (.str id) else none := by
      funext k
      rw [sentParam]
      split_ifs with hk'
      · rw [hk', hid]
      · rfl
    exact hsame ▸ hparams

/-- A payload that is read as a cancellation, where it is read at all. -/
private theorem cancelPosts_of_text {payload : Bytes} {orderId : Value}
    (hread : ∀ j, parseJson env payload = .ok j →
      ∃ u, (OpenOrdersList.cancellation orderId).respell env.spelling = some u ∧ j = u.canon)
    (hkind : ∀ id, orderId = some (.str id) → kindOf env payload = .order .cancel) :
    CancelPosts env w orderId (orderPosts (processMessage env ⟨hdl, payload, .text⟩ w).trace) := by
  by_cases hk : ∃ op, kindOf env payload = .order op
  · obtain ⟨op, hk⟩ := hk
    obtain ⟨j, hj, ht⟩ := kindOf_order_iff.mp hk
    obtain ⟨u, hu, rfl⟩ := hread j hj
    have hop : op = .cancel := by
      rw [kind_cancellation hu] at ht
      cases op with
      | cancel => rfl
      | place | modify => exact absurd (Json.str.inj (Option.some.inj ht)) (by decide)
    have hmessage : messageData env payload = u.canon.get? "data" := by
      simp only [messageData, hj]
    refine cancelPosts_of_read (hop ▸ hk) ?_
    rw [hmessage]
    exact orderId_read hu
  · have hother : ∀ op, kindOf env payload ≠ .order op := fun op h => hk ⟨op, h⟩
    rw [orderPosts_other env ⟨hdl, payload, .text⟩ w hother]
    exact .none (.inl fun id hid => hother .cancel (hkind id hid))

private theorem cancellation_respell (id : String) :
    (OpenOrdersList.cancellation (some (.str id))).respell env.spelling =
      some (OpenOrdersList.cancellation (some (.str id))) := by
  simp [OpenOrdersList.cancellation, object, Json.respell, Json.respellMembers]

theorem cancellation_posts (hg : ParsesGrammar env) (orderId : Value) :
    CancelPosts env w orderId
      (orderPosts (processMessage env ⟨hdl, printText (OpenOrdersList.cancellation orderId), .text⟩ w).trace) :=
  cancelPosts_of_text (fun _ hj => printed_parse hg hj) fun id hid => by
    subst hid
    exact kindOf_printed (cancellation_respell id) rfl

/-- A payload read as a request for the orders, where it is read at all. -/
private theorem posts_of_listing {payload : Bytes}
    (hread : ∀ j, parseJson env payload = .ok j →
      ∃ u, OpenOrdersList.listingRequest.respell env.spelling = some u ∧ j = u.canon) :
    orderPosts (processMessage env ⟨hdl, payload, .text⟩ w).trace = [] := by
  refine orderPosts_other env ⟨hdl, payload, .text⟩ w fun op hk => ?_
  obtain ⟨j, hj, ht⟩ := kindOf_order_iff.mp hk
  obtain ⟨u, hu, rfl⟩ := hread j hj
  rw [Json.get?_canon_str_iff, Json.get?_respell hu] at ht
  have hop : op.type = "get_open_orders" := (Json.str.inj (Option.some.inj ht)).symm
  cases op <;> exact absurd hop (by decide)

/-- Whatever the page sends is its request for the orders, at which the server posts
nothing to the order endpoints, or a cancellation of an order that a refresh had listed. -/
theorem clicks_cancel_listed (hg : ParsesGrammar env) {supported : List String} {sc : Script} {s : OrdersPage}
    {as : List PageAct} (r : (ordersPage sc).Run (ListingsBroadcast env supported) as s) {m : Bytes} (hm : m ∈ s.sent)
    (hdl : Hdl) (w : World) :
    ServedClick env s.heard w m (orderPosts (processMessage env ⟨hdl, m, .text⟩ w).trace) := by
  cases (pageSound r).sent m hm with
  | listing => exact .listing (posts_of_listing fun _ hj => printed_parse hg hj)
  | cancellation hs hl ho => exact .cancellation hs hl ho (cancellation_posts hg _)

end Server

section OneOrder
variable {env : Externals} {listing : Bytes} {data : Json}

private theorem casts_listing (hp : parseJson env listing = .ok data) :
    (Source.turn .openOrders (answeredThreads listing)).Casts env [] (env.dump (openOrdersUpdate data)) := by
  have hf := frames_refresh env (answeredThreads listing).world ⟨.inl tokenCached_fresh, hp⟩
  refine ⟨⟨[], .start ⟨rfl, rfl, rfl⟩⟩, ⟨.broadcast, 1, env.dump (openOrdersUpdate data), true⟩, ?_, rfl⟩
  rw [show frames (Loop.openOrders.turn env [] (answeredThreads listing).world).trace =
    frames (broadcastOpenOrdersUpdate env (answeredThreads listing).world).trace from rfl, hf]
  exact mem_sends_opened env _

def clickRun (env : Externals) (listing : Bytes) (data : Json) : List PageAct :=
  [.effects, .frame (.turn .openOrders (answeredThreads listing)) (env.dump (openOrdersUpdate data)), .cancel 0]

/-- The orders are asked for, listed, and the first one is clicked. -/
private theorem click_run {sc : Script} {order : Json} {orders : List Json} (hp : parseJson env listing = .ok data)
    (hr : data.canon.get? "result" = some (.arr (order :: orders))) :
    ∃ s, (ordersPage sc).Run (ListingsBroadcast env []) (clickRun env listing data) s ∧
      printText (OpenOrdersList.cancellation (order.get? "order_id")) ∈ s.sent := by
  have ht : strictEq (typeOf (env.dump (openOrdersUpdate data))) "open_orders_update" = true :=
    (strictEq_typeOf _ _).mpr (hasType_dump (get?_openOrdersUpdate data))
  have hdata := get?_openOrdersUpdate_data env data
  rw [stored_of_parsed env hp] at hdata
  have hrun := @OpenOrdersList.handleMessage_listing sc _ _ _ _ ht (env.dump_reads _) hdata hr .initial
  have r0 : (ordersPage sc).Run (ListingsBroadcast env []) [] ⟨.initial, [], []⟩ := .start rfl
  refine ⟨_, ((r0.next .effects trivial rfl).next (.frame _ _) (fun _ => casts_listing hp) rfl).next (.cancel 0) trivial
    ⟨order :: orders, order, ?_, rfl, rfl⟩, ?_⟩
  · simp only [OrdersPage.ran, hrun]
  · exact List.mem_append_right _ (List.mem_singleton_self _)

def oneListed : Json := .obj [("result", .arr [.obj [("order_id", .str "order")]])]

private theorem result_oneListed : oneListed.canon.canon.get? "result" = some (.arr [.obj [("order_id", .str "order")]]) := by
  rw [Json.canon_canon, Json.get?_canon]
  simp [oneListed, Json.get?, Json.canon_single]

/-- The first order is cancelled for whoever it is clicked by. -/
theorem click_cancels_listed : ∃ as s m, (ordersPage plainScript).Run (ListingsBroadcast grammarExternals []) as s ∧
    m = printText (OpenOrdersList.cancellation (some (.str "order"))) ∧
    ServedClick grammarExternals s.heard tokenCached m
      (orderPosts (processMessage grammarExternals ⟨1, m, .text⟩ tokenCached).trace) := by
  have hp : parseJson grammarExternals (printText oneListed) = .ok oneListed.canon :=
    parseJson_printed grammarExternals (Json.respell_some oneListed)
  obtain ⟨s, r, hm⟩ := @click_run grammarExternals (printText oneListed) oneListed.canon plainScript _ _ hp result_oneListed
  exact ⟨_, s, _, r, rfl, clicks_cancel_listed parsesGrammar_grammar r hm 1 tokenCached⟩

end OneOrder
end DeribitClientServer.System
