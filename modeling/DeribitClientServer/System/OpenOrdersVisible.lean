import DeribitClientServer.Library.Transition
import DeribitClientServer.Server.OrderTraces
import DeribitClientServer.System.OrderOutcomes

/-! The open orders that clients are shown, against an exchange that answers the
server's requests. Orders go in for any instrument and are reported in one
currency. -/
namespace DeribitClientServer.System
open Library Library.JsonText Library.Utf8 Server

/-- An open order, with whether it was placed through the server. -/
structure OpenOrder where
  id : String
  currency : String
  placed : Bool
  deriving DecidableEq

structure Exchange where
  orders : List OpenOrder
  distinct : (orders.map OpenOrder.id).Nodup

def Exchange.inCurrency (x : Exchange) (c : String) : List OpenOrder := x.orders.filter (fun o => o.currency = c)

/-- The orders placed through the server that are still open. -/
def Exchange.due (x : Exchange) : List OpenOrder := x.orders.filter OpenOrder.placed

/-- Between requests an order may be filled or end, and others come and go. -/
def Evolves (x y : Exchange) : Prop := ∀ o ∈ y.orders, o.placed = true → o ∈ x.orders

/-- The data lists exactly these orders. -/
def ListsExactly (data : Json) (orders : List OpenOrder) : Prop :=
  ∃ items, data.get? "result" = some (.arr items) ∧
    (∀ item ∈ items, ∃ o ∈ orders, item.get? "order_id" = some (.str o.id)) ∧
    ∀ o ∈ orders, ∃ item ∈ items, item.get? "order_id" = some (.str o.id)

/-- A payload of open orders that shows an order of this id. -/
def ShowsOrder (p : Bytes) (id : String) : Prop :=
  ∃ j data items, readText p = some j ∧ j.get? "data" = some data ∧ data.get? "result" = some (.arr items) ∧
    ∃ item ∈ items, item.get? "order_id" = some (.str id)

section Exchanges
variable (env : Externals) (currencyOf : String → String)

/-- The order was accepted under this id. -/
def Acknowledges (res : Outcome) (id : String) : Prop :=
  Accepted env res ∧ ∃ body data order, okBody res = some body ∧ parseJson env body = .ok data ∧
    (data.get? "result").bind (fun result => result.get? "order") = some order ∧ order.get? "order_id" = some (.str id)

/-- What the exchange makes of a request that it answers: an order operation
succeeds, and the open orders are listed in the currency asked for. -/
inductive Answers (x : Exchange) (r : Request) (res : Outcome) : Exchange → Prop where
  | placed {id instrument : String} {y : Exchange} (hp : r.path ∈ ["/api/v2/private/buy", "/api/v2/private/sell"])
      (hr : r.Carries "instrument_name" (.str instrument)) (ha : Acknowledges env res id)
      (hy : y.orders = ⟨id, currencyOf instrument, true⟩ :: x.orders) : Answers x r res y
  | modified {id : String} (hp : r.path = "/api/v2/private/edit") (hr : r.Carries "order_id" (.str id))
      (ha : Acknowledges env res id) (hx : ∃ o ∈ x.orders, o.id = id) : Answers x r res x
  | cancelled {id : String} {y : Exchange} (hp : r.path = "/api/v2/private/cancel")
      (hr : r.Carries "order_id" (.str id)) (ha : Accepted env res) (hx : ∃ o ∈ x.orders, o.id = id)
      (hy : y.orders = x.orders.filter (fun o => o.id ≠ id)) : Answers x r res y
  | listed {c : String} {body : Bytes} {data : Json} (hp : r.path = "/api/v2/private/get_open_orders_by_currency")
      (hr : r.Carries "currency" (.str c)) (hb : okBody res = some body) (hd : parseJson env body = .ok data)
      (hl : ListsExactly data (x.inCurrency c)) : Answers x r res x
  | unlisted (hp : r.path = "/api/v2/private/get_open_orders_by_currency") (hb : okBody res = none) : Answers x r res x

/-- The requests of a trace answered in their order; the last state is that of the last answer. -/
inductive Served : Exchange → List Request → Stream' Outcome → Exchange → Prop where
  | done (x : Exchange) (api : Stream' Outcome) : Served x [] api x
  | next {x x' y z : Exchange} {r : Request} {rs : List Request} {api : Stream' Outcome} (he : Evolves x x')
      (ha : Answers env currencyOf x' r api.head y) (hs : Served y rs api.tail z) : Served x (r :: rs) api z

end Exchanges

/-- A broadcast of open orders, with the orders due at its fetch. -/
structure Report where
  payload : Bytes
  due : List OpenOrder

structure Venue where
  exchange : Exchange
  reports : List Report

inductive VenueAct where
  | order (msg : Message) (w : World)
  | poll (w : World)

/-- The broadcasts of a trace are reports when the fetch before them succeeded. -/
def Venue.reported (s : Venue) (x : Exchange) (t : List Event) (fetch : Outcome) : Venue :=
  ⟨x, s.reports ++ if (okBody fetch).isSome then (casts t).map (fun p => ⟨p, x.due⟩) else []⟩

section Venues
variable (env : Externals) (currencyOf : String → String)

/-- Order operations that reach the exchange and succeed, and the polls of the update thread. -/
def venue : Transition Venue VenueAct where
  initial s := s.exchange.due = [] ∧ s.reports = []
  step s a s' :=
    match a with
    | .order msg w => orderPosts (processMessage env msg w).trace ≠ [] ∧ ∃ x,
        Served env currencyOf s.exchange (apiRequests (processMessage env msg w).trace) w.api x ∧
        s' = s.reported x (processMessage env msg w).trace w.api.tail.head
    | .poll w => ∃ x, Served env currencyOf s.exchange (apiRequests (openOrdersTurn env w).trace) w.api x ∧
        s' = s.reported x (openOrdersTurn env w).trace w.api.head

/-- Every report shows all orders that were due. -/
def OrdersVisible (s : Venue) : Prop := ∀ r ∈ s.reports, ∀ o ∈ r.due, ShowsOrder r.payload o.id

/-- An order that is placed is for an instrument of the one currency that is reported. -/
def PlacedInBtc (_ : Venue) : VenueAct → Prop
  | .order msg _ => ∀ data instrument, Submits env msg .place data →
      data.get? "instrument_name" = some (.str instrument) → currencyOf instrument = "BTC"
  | .poll _ => True

/-- Orders placed through the server are of the reported currency. -/
def OnlyBtc (x : Exchange) : Prop := ∀ o ∈ x.orders, o.placed = true → o.currency = "BTC"

/-- The request places no order, or one in the reported currency. -/
def PlacesBtc (r : Request) : Prop :=
  r.path ∈ ["/api/v2/private/buy", "/api/v2/private/sell"] →
    ∀ instrument, r.Carries "instrument_name" (.str instrument) → currencyOf instrument = "BTC"

end Venues

section Service
variable {env : Externals} {currencyOf : String → String} {x y : Exchange} {r : Request} {res : Outcome}

private theorem onlyBtc_answers (h : Answers env currencyOf x r res y) (hr : PlacesBtc currencyOf r) (hx : OnlyBtc x) :
    OnlyBtc y := by
  cases h with
  | placed hp hc _ hy =>
    intro o ho hplaced
    rw [hy] at ho
    rcases List.mem_cons.mp ho with rfl | ho
    · exact hr hp _ hc
    · exact hx o ho hplaced
  | cancelled _ _ _ _ hy =>
    intro o ho
    rw [hy] at ho
    exact hx o (List.mem_of_mem_filter ho)
  | modified _ _ _ _ | listed _ _ _ _ _ | unlisted _ _ => exact hx

private theorem onlyBtc_served {rs : List Request} {api : Stream' Outcome} (h : Served env currencyOf x rs api y)
    (hr : ∀ r ∈ rs, PlacesBtc currencyOf r) (hx : OnlyBtc x) : OnlyBtc y := by
  induction h with
  | done => exact hx
  | next he ha _ ih =>
    have hx' : OnlyBtc _ := fun o ho hplaced => hx o (he o ho hplaced) hplaced
    exact ih (fun r hr' => hr r (List.mem_cons_of_mem _ hr')) (onlyBtc_answers ha (hr _ List.mem_cons_self) hx')

/-- A fetch that succeeds lists the open orders of one currency. -/
theorem lists_fetched {accessToken : String} {data : Json}
    (h : Answers env currencyOf x (openOrdersPost env accessToken) res y) (hb : okBody res ≠ none)
    (hd : parseJson env (openOrdersText env res) = .ok data) : ListsExactly data (y.inCurrency "BTC") := by
  cases h with
  | placed hp _ _ _ => simp [openOrdersPost] at hp
  | modified hp _ _ _ | cancelled hp _ _ _ _ => simp [openOrdersPost] at hp
  | unlisted _ hn => exact absurd hn hb
  | listed _ hr hbody hd' hl =>
    rw [openOrdersPost_carries_iff] at hr
    rw [openOrdersText, hbody] at hd
    simp only [hd', Except.ok.injEq] at hd
    subst hr hd
    exact hl

/-- What a broadcast of open orders shows is what its data lists. -/
private theorem showsOrder_update_iff {data : Json} {items : List Json} (hitems : data.get? "result" = some (.arr items))
    (id : String) : ShowsOrder (env.dump (openOrdersUpdate data)) id ↔
      ∃ item ∈ items, item.get? "order_id" = some (.str id) := by
  have hdata := get?_openOrdersUpdate_data env data
  have hresult : (data.stored env.spelling).canon.get? "result" =
      some (.arr (items.map fun item => (item.stored env.spelling).canon)) := by
    rw [Json.get?_canon, Json.get?_stored, hitems, Option.map_some, Option.map_some, Json.stored_arr, Json.canon_arr,
      List.map_map]
    rfl
  constructor
  · rintro ⟨j, data', items', hj, hd, hr, item, hitem, hid⟩
    rw [env.dump_reads, Option.some_inj] at hj
    rw [← hj, hdata, Option.some_inj] at hd
    rw [← hd, hresult, Option.some_inj, Json.arr.injEq] at hr
    rw [← hr] at hitem
    obtain ⟨item', hitem', rfl⟩ := List.mem_map.mp hitem
    exact ⟨item', hitem', (get?_dumped_str_iff env).mp hid⟩
  · rintro ⟨item, hitem, hid⟩
    exact ⟨_, _, _, env.dump_reads _, hdata, hresult, _, List.mem_map_of_mem hitem, (get?_dumped_str_iff env).mpr hid⟩

/-- A broadcast that lists one currency shows an open order exactly when it is of that currency. -/
theorem showsOrder_iff {data : Json} {c : String} (h : ListsExactly data (y.inCurrency c)) {o : OpenOrder}
    (ho : o ∈ y.orders) : ShowsOrder (env.dump (openOrdersUpdate data)) o.id ↔ o.currency = c := by
  obtain ⟨items, hitems, honly, hall⟩ := h
  rw [showsOrder_update_iff hitems]
  constructor
  · rintro ⟨item, hitem, hid⟩
    obtain ⟨o', ho', hid'⟩ := honly item hitem
    obtain ⟨hopen, hc⟩ := List.mem_filter.mp ho'
    rw [hid, Option.some_inj, Json.str.injEq] at hid'
    rw [List.inj_on_of_nodup_map y.distinct ho hopen hid']
    simpa using hc
  · exact fun hc => hall o (List.mem_filter.mpr ⟨ho, by simpa using hc⟩)

end Service

section Requests
variable {env : Externals} {currencyOf : String → String} {msg : Message} {w : World} {op : Operation}

private theorem placesBtc_openOrdersPost (accessToken : String) :
    PlacesBtc currencyOf (openOrdersPost env accessToken) := by
  intro hp
  simp [openOrdersPost] at hp

private theorem placesBtc_refresh {r : Request} (h : r ∈ apiRequests (broadcastOpenOrdersUpdate env w).trace) :
    PlacesBtc currencyOf r := by
  rw [apiRequests_refresh] at h
  obtain ⟨token, _, rfl⟩ := List.mem_map.mp h
  exact placesBtc_openOrdersPost token

/-- The one request of a handler places what the message names. -/
private theorem placesBtc_operation (hk : kindOf env msg.payload = .order op)
    (hb : ∀ data instrument, Submits env msg .place data →
      data.get? "instrument_name" = some (.str instrument) → currencyOf instrument = "BTC")
    {r : Request} (h : r ∈ apiRequests (op.trace env msg.payload w)) : PlacesBtc currencyOf r := by
  have hm := @intake_met env msg.payload op
  unfold Operation.trace at h
  generalize op.intake env msg.payload = i at hm h
  cases hm with
  | answered _ _ => cases h
  | @submitted data body outcome hpass hparams =>
    rw [Intake.trace, apiRequests_submitTrace] at h
    cases ht : tokenResult env w with
    | error e =>
      rw [ht] at h
      cases h
    | ok token =>
      rw [ht] at h
      obtain rfl := List.mem_singleton.mp h
      intro hp instrument hc
      cases op with
      | place =>
        rw [(hparams (some token)).carries_iff, sentParam, if_pos (by simp)] at hc
        rw [← Json.get?_canon, Json.get?_canon_str_iff] at hc
        exact hb data instrument ((submits_iff hk).mpr hpass) hc
      | modify | cancel => simp [Operation.endpoint] at hp

theorem placesBtc_order (hk : kindOf env msg.payload = .order op)
    (hb : ∀ data instrument, Submits env msg .place data →
      data.get? "instrument_name" = some (.str instrument) → currencyOf instrument = "BTC") :
    ∀ r ∈ apiRequests (processMessage env msg w).trace, PlacesBtc currencyOf r := by
  intro r hr
  unfold apiRequests at hr
  rcases @filterMap_order env msg w op _ Event.apiRequest? (fun _ _ _ => rfl) hk with ⟨_, ht⟩ | ⟨_, ht⟩
  · rw [ht] at hr
    exact placesBtc_operation hk hb hr
  · rw [ht, List.mem_append] at hr
    rcases hr with hr | hr
    · exact placesBtc_operation hk hb hr
    · exact placesBtc_refresh hr

end Requests

section Reports
variable {env : Externals} {currencyOf : String → String} {msg : Message} {w : World} {op : Operation}
  {x y : Exchange} {p : Bytes}

/-- A broadcast payload lists the open orders of one currency as they were at its fetch. -/
def Current (env : Externals) (y : Exchange) (p : Bytes) : Prop :=
  ∃ data, p = env.dump (openOrdersUpdate data) ∧ ListsExactly data (y.inCurrency "BTC")

/-- The refresh's own request is the first to be answered. -/
private theorem current_refresh
    (hs : Served env currencyOf x (apiRequests (broadcastOpenOrdersUpdate env w).trace) w.api y)
    (hb : okBody w.api.head ≠ none) (hp : p ∈ casts (broadcastOpenOrdersUpdate env w).trace) : Current env y p := by
  obtain ⟨data, ⟨hok, hd⟩, rfl⟩ := casts_refresh env w hp
  obtain ⟨token, ht⟩ := (tokenAvailable_iff env w).mp hok
  rw [apiRequests_refresh, ht] at hs
  cases hs with
  | next _ ha hs =>
    cases hs
    exact ⟨data, rfl, lists_fetched ha hb hd⟩

private theorem casts_operation : casts (op.trace env msg.payload w) = [] := by
  rw [List.eq_nil_iff_forall_not_mem]
  intro p hp
  obtain ⟨f, hf, _⟩ := mem_casts hp
  rw [frames_operation] at hf
  cases hf

/-- An operation that reaches the exchange has made one request, and used one outcome. -/
private theorem posted_operation (h : orderPosts (op.trace env msg.payload w) ≠ []) :
    (∃ r, apiRequests (op.trace env msg.payload w) = [r]) ∧ (op.world env msg.payload w).api = w.api.tail := by
  unfold Operation.trace at h ⊢
  unfold Operation.world
  cases hi : op.intake env msg.payload with
  | answered r =>
    rw [hi] at h
    exact absurd rfl h
  | submitted path body outcome =>
    rw [hi, Intake.trace, orderPosts, apiRequests_submitTrace] at h
    rw [Intake.trace, apiRequests_submitTrace, Intake.world, submitWorld]
    cases ht : tokenResult env w with
    | error e =>
      rw [ht] at h
      exact absurd rfl h
    | ok token => exact ⟨⟨_, rfl⟩, rfl⟩

private theorem current_order (hk : kindOf env msg.payload = .order op)
    (hposts : orderPosts (processMessage env msg w).trace ≠ [])
    (hs : Served env currencyOf x (apiRequests (processMessage env msg w).trace) w.api y)
    (hb : okBody w.api.tail.head ≠ none) (hp : p ∈ casts (processMessage env msg w).trace) : Current env y p := by
  rw [orderPosts_order env msg w hk] at hposts
  obtain ⟨⟨r, hr⟩, hapi⟩ := posted_operation hposts
  have hcast := @filterMap_order env msg w op _ Event.cast? (fun _ _ _ => rfl) hk
  have hreq := @filterMap_order env msg w op _ Event.apiRequest? (fun _ _ _ => rfl) hk
  change _ ∧ casts _ = casts _ ∨ _ ∧ casts _ = casts _ ++ casts _ at hcast
  change _ ∧ apiRequests _ = apiRequests _ ∨ _ ∧ apiRequests _ = apiRequests _ ++ apiRequests _ at hreq
  rw [casts_operation, List.nil_append] at hcast
  rcases hcast with ⟨_, hc⟩ | ⟨hreplied, hc⟩
  · rw [hc] at hp
    cases hp
  · rw [hc] at hp
    have hw : (repliedWorld env msg w op).api = w.api.tail := hapi
    rcases hreq with ⟨hn, _⟩ | ⟨_, hq⟩
    · exact absurd hreplied hn
    · rw [hq, hr, List.singleton_append] at hs
      cases hs with
      | next _ _ hs =>
        rw [← hw] at hs hb
        exact current_refresh hs hb hp

end Reports

section Runs
variable {env : Externals} {currencyOf : String → String}

private theorem visible_reported {s : Venue} {x : Exchange} {t : List Event} {fetch : Outcome} (hs : OrdersVisible s)
    (hx : OnlyBtc x) (ht : okBody fetch ≠ none → ∀ p ∈ casts t, Current env x p) :
    OrdersVisible (s.reported x t fetch) := by
  intro r hr o ho
  rcases List.mem_append.mp hr with hr | hr
  · exact hs r hr o ho
  · split_ifs at hr with hf
    · obtain ⟨p, hp, rfl⟩ := List.mem_map.mp hr
      obtain ⟨data, rfl, hlists⟩ := ht (Option.isSome_iff_ne_none.mp hf) p hp
      obtain ⟨hopen, hplaced⟩ := List.mem_filter.mp ho
      exact (showsOrder_iff hlists hopen).mpr (hx o hopen hplaced)
    · cases hr

/-- One step keeps the placed orders in the reported currency, and its reports are complete. -/
theorem visible_step {s s' : Venue} {a : VenueAct} (hi : OnlyBtc s.exchange ∧ OrdersVisible s)
    (hg : PlacedInBtc env currencyOf s a) (h : (venue env currencyOf).step s a s') :
    OnlyBtc s'.exchange ∧ OrdersVisible s' := by
  obtain ⟨hbtc, hvisible⟩ := hi
  cases a with
  | order msg w =>
    obtain ⟨hposts, x, hserved, rfl⟩ := h
    obtain ⟨op, hk⟩ : ∃ op, kindOf env msg.payload = .order op := by
      by_contra hn
      exact hposts (orderPosts_other env msg w (fun op hk => hn ⟨op, hk⟩))
    have hx : OnlyBtc x := onlyBtc_served hserved (placesBtc_order hk hg) hbtc
    exact ⟨hx, visible_reported hvisible hx (fun hb p hp => current_order hk hposts hserved hb hp)⟩
  | poll w =>
    obtain ⟨x, hserved, rfl⟩ := h
    have hx : OnlyBtc x := onlyBtc_served hserved (fun r hr => placesBtc_refresh hr) hbtc
    exact ⟨hx, visible_reported hvisible hx (fun hb p hp => current_refresh hserved hb hp)⟩

/-- While orders are placed only for instruments of the one currency that the
server asks for, every report of open orders shows each order placed through
the server that was open at its fetch. -/
theorem orders_visible {as : List VenueAct} {s : Venue}
    (r : (venue env currencyOf).Run (PlacedInBtc env currencyOf) as s) : OrdersVisible s := by
  refine (r.invariant (fun s => OnlyBtc s.exchange ∧ OrdersVisible s) ?_ (fun s a s' => visible_step)).2
  rintro s ⟨hdue, hreports⟩
  refine ⟨fun o ho hplaced => ?_, fun r hr => ?_⟩
  · have hmem : o ∈ s.exchange.due := List.mem_filter.mpr ⟨ho, hplaced⟩
    rw [hdue] at hmem
    cases hmem
  · rw [hreports] at hr
    cases hr

end Runs

section Dealing
variable {env : Externals} {msg : Message} {body : Json} {ack listing : Bytes}

/-- A cached token, an order that is answered and then a listing, and one open connection. -/
def dealing (ack listing : Bytes) : World :=
  { tokenCached with api := .cons (some ⟨200, ack⟩) (.const (some ⟨200, listing⟩)), members := .const [(1, .opened)] }

theorem dealing_result (env : Externals) (ack listing : Bytes) : tokenResult env (dealing ack listing) = .ok "token" := by
  rw [tokenResult, if_pos (show TokenFresh (dealing ack listing) from tokenCached_fresh)]
  rfl

/-- The world of the refresh after an order. -/
def dealt (listing : Bytes) : World :=
  { tokenCached with api := .const (some ⟨200, listing⟩), members := .const [(1, .opened)] }

private theorem dealt_result (env : Externals) (listing : Bytes) : tokenResult env (dealt listing) = .ok "token" := by
  rw [tokenResult, if_pos (show TokenFresh (dealt listing) from tokenCached_fresh)]
  rfl

private theorem repliedWorld_dealing
    (hi : orderIntake env msg.payload = .submitted "/api/v2/private/buy" body (orderOutcome env)) :
    repliedWorld env msg (dealing ack listing) .place = dealt listing := by
  have hw : tokenWorld env (dealing ack listing) = dealing ack listing := by
    rw [tokenWorld, if_pos (show TokenFresh (dealing ack listing) from tokenCached_fresh)]
    rfl
  rw [repliedWorld, Operation.world, Operation.intake, hi, Intake.world, submitWorld, dealing_result, hw]
  rfl

/-- The reply to an accepted order. -/
private theorem replied_dealing
    (hi : orderIntake env msg.payload = .submitted "/api/v2/private/buy" body (orderOutcome env))
    {ms : List (String × Json)} (ha : parseJson env ack = .ok (.obj ms)) :
    Replied env msg (dealing ack listing) .place := by
  have hpost : submitResult env (dealing ack listing) (orderOutcome env) =
      .ok (env.dump ((Json.obj ms).set "type" (.str "order_response"))) := by
    have ht : typed env "order_response" ack = .ok ((Json.obj ms).set "type" (.str "order_response")) := by
      rw [typed, ha]
      rfl
    rw [submitResult, dealing_result]
    change orderOutcome env (some ⟨200, ack⟩) = _
    rw [orderOutcome, if_pos rfl, ht]
    rfl
  refine ⟨env.dump ((Json.obj ms).set "type" (.str "order_response")), ?_, ?_⟩
  · rw [Operation.result, Operation.intake, hi, Intake.result, hpost]
  · exact (queues_iff _ _ _).mpr ⟨rfl, fun _ => decode_dump_ne env _⟩

/-- An accepted order makes two requests and broadcasts the listing. -/
private theorem order_dealing (hk : kindOf env msg.payload = .order .place)
    (hi : orderIntake env msg.payload = .submitted "/api/v2/private/buy" body (orderOutcome env))
    {ms : List (String × Json)} (ha : parseJson env ack = .ok (.obj ms)) {data : Json} (hd : parseJson env listing = .ok data) :
    apiRequests (processMessage env msg (dealing ack listing)).trace =
        [⟨.post, "/api/v2/private/buy", some "token", env.dump body⟩, openOrdersPost env "token"] ∧
      casts (processMessage env msg (dealing ack listing)).trace = [env.dump (openOrdersUpdate data)] := by
  have hreplied := @replied_dealing env msg body ack listing hi ms ha
  have hfetched : Fetched env (dealt listing) data := ⟨(tokenAvailable_iff env _).mpr ⟨_, dealt_result env listing⟩, hd⟩
  constructor
  · have hpost : apiRequests (Operation.place.trace env msg.payload (dealing ack listing)) =
        [⟨.post, "/api/v2/private/buy", some "token", env.dump body⟩] := by
      rw [Operation.trace, Operation.intake, hi, Intake.trace, apiRequests_submitTrace, dealing_result]
    rcases @filterMap_order env msg (dealing ack listing) .place _ Event.apiRequest? (fun _ _ _ => rfl) hk with
      ⟨hn, _⟩ | ⟨_, ht⟩
    · exact absurd hreplied hn
    · rw [repliedWorld_dealing hi] at ht
      exact ht.trans (congrArg₂ List.append hpost (by rw [← apiRequests, apiRequests_refresh, dealt_result]; rfl))
  · rcases @filterMap_order env msg (dealing ack listing) .place _ Event.cast? (fun _ _ _ => rfl) hk with
      ⟨hn, _⟩ | ⟨_, ht⟩
    · exact absurd hreplied hn
    · rw [repliedWorld_dealing hi] at ht
      have hcast : casts (broadcastOpenOrdersUpdate env (dealt listing)).trace = [env.dump (openOrdersUpdate data)] := by
        rw [casts_fetched env _ hfetched]
        change casts (sends _ [(1, .opened)]) = _
        rw [sends]
        split <;> rfl
      exact ht.trans (congrArg₂ List.append casts_operation hcast)

end Dealing

section Placing

/-- The part of an instrument's name before its first dash. -/
def namedCurrency (instrument : String) : String := String.ofList (instrument.toList.takeWhile (fun c => c ≠ '-'))

def limitFields (instrument : String) : Json :=
  .obj [("instrument_name", .str instrument), ("amount", numberOf 10), ("type", .str "limit"), ("price", numberOf 1000),
    ("direction", .str "buy")]

def limitOrder (instrument : String) : Json := .obj [("type", .str "place_order"), ("data", limitFields instrument)]

def ackText (id : String) : Bytes := printText (.obj [("result", .obj [("order", .obj [("order_id", .str id)])])])

def oneOrder (id currency : String) : Exchange := ⟨[⟨id, currency, true⟩], List.nodup_singleton id⟩

def emptyVenue : Venue := ⟨⟨[], List.nodup_nil⟩, []⟩

variable {instrument : String}

private theorem get?_limitOrder : (limitOrder instrument).canon.get? "type" = some (.str "place_order") ∧
    (limitOrder instrument).canon.get? "data" = some (limitFields instrument).canon := by
  simp [limitOrder, Json.get?_canon, Json.get?_obj]

private theorem get?_limitFields : (limitFields instrument).canon.get? "instrument_name" = some (.str instrument) := by
  simp [limitFields, Json.get?_canon, Json.get?_obj]

private theorem admitted_limitFields : Admitted (limitFields instrument).canon .place := by
  simp [Admitted, Json.contains, limitFields, Json.get?_canon, Json.get?_obj]

private theorem parse_limitOrder :
    parseJson grammarExternals (printText (limitOrder instrument)) = .ok (limitOrder instrument).canon :=
  parseJson_printed grammarExternals (Json.respell_some _)

private theorem kindOf_limitOrder : kindOf grammarExternals (printText (limitOrder instrument)) = .order .place :=
  kindOf_order_iff.mpr ⟨_, parse_limitOrder, get?_limitOrder.1⟩

private theorem passesGate_limitOrder {data : Json} :
    PassesGate grammarExternals (printText (limitOrder instrument)) .place data ↔
      data = (limitFields instrument).canon := by
  unfold PassesGate messageData
  simp only [parse_limitOrder, get?_limitOrder.2, Option.some_inj]
  constructor
  · exact fun h => h.1.symm
  · rintro rfl
    exact ⟨rfl, admitted_limitFields⟩

private theorem exists_message (p : Bytes) : ∃ msg : Message, msg.payload = p := ⟨⟨1, p, .text⟩, rfl⟩

/-- A message that places an order for the instrument, and for no other. -/
private theorem placing (instrument : String) : ∃ msg body, kindOf grammarExternals msg.payload = .order .place ∧
    orderIntake grammarExternals msg.payload = .submitted "/api/v2/private/buy" body (orderOutcome grammarExternals) ∧
    (∀ token, Request.Carries ⟨.post, "/api/v2/private/buy", token, grammarExternals.dump body⟩ "instrument_name"
      (.str instrument)) ∧
    ∀ data, Submits grammarExternals msg .place data → data.get? "instrument_name" = some (.str instrument) := by
  obtain ⟨msg, hmsg⟩ := exists_message (printText (limitOrder instrument))
  have hc : checkOrder grammarExternals (limitOrder instrument).canon = .ok (limitFields instrument).canon :=
    checkOrder_ok_iff.mpr ⟨get?_limitOrder.2, admitted_limitFields⟩
  have hk : kindOf grammarExternals msg.payload = .order .place := by rw [hmsg, kindOf_limitOrder]
  have hi := orderIntake_checked parse_limitOrder hc
  rw [← hmsg] at hi
  refine ⟨msg, _, hk, hi, fun token => ?_, fun data h => ?_⟩
  · have hm := @intake_met grammarExternals msg.payload .place
    rw [Operation.intake, hi] at hm
    cases hm with
    | submitted hpass hparams =>
      rw [hmsg] at hpass
      rw [passesGate_limitOrder.mp hpass] at hparams
      apply ((hparams token).carries_iff _ _).mpr
      rw [sentParam, if_pos (by simp), get?_limitFields, Option.map_some, Json.canon_str]
  · have hpass := (submits_iff hk).mp h
    rw [hmsg] at hpass
    rw [passesGate_limitOrder.mp hpass, get?_limitFields]

private theorem parse_ackText (id : String) : parseJson grammarExternals (ackText id) =
    .ok (.obj [("result", .obj [("order", .obj [("order_id", .str id)])])]) := by
  have hc : Json.canon (.obj [("result", .obj [("order", .obj [("order_id", .str id)])])]) =
      .obj [("result", .obj [("order", .obj [("order_id", .str id)])])] := by
    rw [Json.canon_single, Json.canon_single, Json.canon_single, Json.canon_str]
  rw [ackText, parseJson_printed grammarExternals (Json.respell_some _), hc]

private theorem acknowledges_ackText (id : String) : Acknowledges grammarExternals (some ⟨200, ackText id⟩) id := by
  have hp := parse_ackText id
  generalize ackText id = ack at hp
  exact ⟨⟨ack, _, rfl, hp, by simp [Json.contains, Json.get?_obj], by simp [Json.contains, Json.get?_obj]⟩,
    ack, _, _, rfl, hp, by simp [Json.get?_obj]; rfl, by simp [Json.get?_obj]⟩

private theorem exists_listing (ids : List String) : ∃ listing items,
    parseJson grammarExternals listing = .ok (.obj [("result", .arr items)]) ∧
      items = ids.map (fun id => .obj [("order_id", .str id)]) := by
  have hitem (id : String) : Json.canon (.obj [("order_id", .str id)]) = .obj [("order_id", .str id)] := by
    rw [Json.canon_single, Json.canon_str]
  refine ⟨printText (.obj [("result", .arr (ids.map (fun id => .obj [("order_id", .str id)])))]), _, ?_, rfl⟩
  rw [parseJson_printed grammarExternals (Json.respell_some _), Json.canon_single, Json.canon_arr]
  simp [List.map_map, Function.comp_def, hitem]

/-- One order is placed, and the listing after it is the answer to the refresh. -/
private theorem placed_run {guard : Venue → VenueAct → Prop} {instrument id : String} {listing : Bytes} {data : Json}
    (hd : parseJson grammarExternals listing = .ok data)
    (hl : ListsExactly data ((oneOrder id (namedCurrency instrument)).inCurrency "BTC"))
    (hg : ∀ msg w, (∀ data, Submits grammarExternals msg .place data →
      data.get? "instrument_name" = some (.str instrument)) → guard emptyVenue (.order msg w)) :
    ∃ as, (venue grammarExternals namedCurrency).Run guard as ⟨oneOrder id (namedCurrency instrument),
      [⟨grammarExternals.dump (openOrdersUpdate data), [⟨id, namedCurrency instrument, true⟩]⟩]⟩ := by
  obtain ⟨msg, body, hk, hi, hcarries, hsubmits⟩ := placing instrument
  have hack := acknowledges_ackText id
  have hparsed := parse_ackText id
  generalize ackText id = ack at hack hparsed
  obtain ⟨hreqs, hcasts⟩ := order_dealing hk hi hparsed hd
  have hposts := posts_order hk hi (show TokenFresh (dealing ack listing) from tokenCached_fresh)
  have hrefl (x : Exchange) : Evolves x x := fun o ho _ => ho
  have hserved : Served grammarExternals namedCurrency emptyVenue.exchange
      (apiRequests (processMessage grammarExternals msg (dealing ack listing)).trace) (dealing ack listing).api
      (oneOrder id (namedCurrency instrument)) := by
    have hplaced : Answers grammarExternals namedCurrency emptyVenue.exchange
        ⟨.post, "/api/v2/private/buy", some "token", grammarExternals.dump body⟩ (some ⟨200, ack⟩)
        (oneOrder id (namedCurrency instrument)) := .placed (by simp) (hcarries _) hack rfl
    have hlisted : Answers grammarExternals namedCurrency (oneOrder id (namedCurrency instrument))
        (openOrdersPost grammarExternals "token") (some ⟨200, listing⟩) (oneOrder id (namedCurrency instrument)) :=
      .listed rfl ((openOrdersPost_carries_iff _ _ _).mpr rfl) rfl hd hl
    rw [hreqs]
    exact .next (hrefl _) hplaced (.next (hrefl _) hlisted (.done _ _))
  refine ⟨[.order msg (dealing ack listing)], ?_⟩
  have hstart : (venue grammarExternals namedCurrency).Run guard [] emptyVenue := .start ⟨rfl, rfl⟩
  refine hstart.next (.order msg (dealing ack listing)) (hg msg _ hsubmits) ⟨hposts, _, hserved, ?_⟩
  rw [Venue.reported, hcasts]
  rfl

/-- An order in bitcoin is listed after it is placed. -/
theorem bitcoin_order_visible : ∃ as s,
    (venue grammarExternals namedCurrency).Run (PlacedInBtc grammarExternals namedCurrency) as s ∧
    (∃ r ∈ s.reports, r.due ≠ []) ∧ OrdersVisible s := by
  obtain ⟨listing, items, hd, hitems⟩ := exists_listing ["BTC-1"]
  have hc : namedCurrency "BTC-PERPETUAL" = "BTC" := by decide
  have hl : ListsExactly (.obj [("result", .arr items)])
      ((oneOrder "BTC-1" (namedCurrency "BTC-PERPETUAL")).inCurrency "BTC") := by
    refine ⟨items, by simp [Json.get?_obj], ?_, ?_⟩
    · simp [hitems, hc, oneOrder, Exchange.inCurrency, Json.get?_obj]
    · simp [hitems, hc, oneOrder, Exchange.inCurrency, Json.get?_obj]
  have hg (msg : Message) (w : World) (h : ∀ data, Submits grammarExternals msg .place data →
      data.get? "instrument_name" = some (.str "BTC-PERPETUAL")) :
      PlacedInBtc grammarExternals namedCurrency emptyVenue (.order msg w) := by
    intro data instrument hs hn
    rw [h data hs, Option.some_inj, Json.str.injEq] at hn
    rw [← hn, hc]
  obtain ⟨as, r⟩ := placed_run hd hl hg
  exact ⟨as, _, r, ⟨_, List.mem_singleton_self _, by simp⟩, orders_visible r⟩

/-- An order in ether stays open and is not listed. -/
theorem ether_order_missing : ¬ ∀ (env : Externals) (currencyOf : String → String) (as : List VenueAct) (s : Venue),
    (venue env currencyOf).Run Transition.anyStep as s → OrdersVisible s := by
  intro h
  obtain ⟨listing, items, hd, hitems⟩ := exists_listing []
  have hc : namedCurrency "ETH-PERPETUAL" = "ETH" := by decide
  have hl : ListsExactly (.obj [("result", .arr items)])
      ((oneOrder "ETH-1" (namedCurrency "ETH-PERPETUAL")).inCurrency "BTC") := by
    refine ⟨items, by simp [Json.get?_obj], ?_, ?_⟩
    · simp [hitems]
    · simp [hc, oneOrder, Exchange.inCurrency]
  obtain ⟨as, r⟩ := @placed_run Transition.anyStep _ _ _ _ hd hl (fun _ _ _ => trivial)
  generalize Json.obj [("result", .arr items)] = data at hl r
  have hopen : ⟨"ETH-1", namedCurrency "ETH-PERPETUAL", true⟩ ∈
      (oneOrder "ETH-1" (namedCurrency "ETH-PERPETUAL")).orders := List.mem_singleton_self _
  have hshown := h _ _ _ _ r
  simp only [OrdersVisible, List.mem_singleton, forall_eq] at hshown
  have hcurrency := (showsOrder_iff hl hopen).mp hshown
  simp [hc] at hcurrency

end Placing
end DeribitClientServer.System
