import DeribitClientServer.Server.OrderRuns

/-! Where an order is sent: the path and the method of the POST each handler
makes, against the side the client asked for. -/
namespace DeribitClientServer.Server
open Library Library.JsonText Library.Utf8

/-- The path of a POST is the API root followed by the method its body names. -/
def RoutedByMethod (r : Request) : Prop :=
  ∃ j m, readText r.body = some j ∧ j.get? "method" = some (.str m) ∧ r.path = "/api/v2/" ++ m

/-- data.direction of a client payload. -/
def direction (env : Externals) (payload : Bytes) : Option Json :=
  match parseJson env payload with
  | .ok order => (order.get? "data").bind (fun data => data.get? "direction")
  | .error _ => none

def HasMethod (r : Request) (m : String) : Prop := ∃ j, readText r.body = some j ∧ j.get? "method" = some (.str m)

/-- The method is that of the side asked for, and a side was asked for. -/
def SideAsAsked (env : Externals) (payload : Bytes) (r : Request) : Prop :=
  (HasMethod r "private/buy" ↔ direction env payload = some (.str "buy")) ∧
    (HasMethod r "private/sell" ↔ direction env payload = some (.str "sell")) ∧
    (direction env payload = some (.str "buy") ∨ direction env payload = some (.str "sell"))

structure FaithfulRouting (env : Externals) (payload : Bytes) (w : World) : Prop where
  place : ∀ r ∈ apiRequests (processOrder env payload w).trace, RoutedByMethod r ∧ SideAsAsked env payload r
  modify : ∀ r ∈ apiRequests (processModifyOrder env payload w).trace, RoutedByMethod r
  cancel : ∀ r ∈ apiRequests (processCancelOrder env payload w).trace, RoutedByMethod r

section Requests
variable (env : Externals)

private theorem readText_request (m : String) (id params : Json) :
    ∃ j, readText (env.dump (.obj [("jsonrpc", .str "2.0"), ("id", id), ("method", .str m), ("params", params)])) =
      some j ∧ j.get? "method" = some (.str m) := by
  exact ⟨_, env.dump_reads _, (get?_dumped_str_iff env).mpr (by simp [Json.get?])⟩

theorem hasMethod_orderRequest {r : Request} {orderData : Json} (h : r.body = env.dump (orderRequest orderData))
    (m : String) : HasMethod r m ↔ m = orderMethod orderData := by
  obtain ⟨j, hj, hm⟩ := readText_request env (orderMethod orderData) (numberOf 5275)
    (if isLimit orderData then (orderParams orderData).set "price" (member orderData "price") else orderParams orderData)
  unfold HasMethod
  rw [h, orderRequest]
  constructor
  · rintro ⟨j', hj', hm'⟩
    rw [hj, Option.some_inj] at hj'
    rw [← hj', hm] at hm'
    simpa using hm'.symm
  · rintro rfl
    exact ⟨j, hj, hm⟩

/-- A request whose body names the method its path ends in. -/
theorem routed_of_method (path : String) {m : String} {token : Option String} {id params : Json}
    (hp : path = "/api/v2/" ++ m) :
    RoutedByMethod ⟨.post, path, token,
      env.dump (.obj [("jsonrpc", .str "2.0"), ("id", id), ("method", .str m), ("params", params)])⟩ := by
  obtain ⟨j, hj, hm⟩ := readText_request env m id params
  exact ⟨j, m, hj, hm, hp⟩

end Requests

section Accepted
variable {env : Externals} {payload : Bytes} {orderData : Json}

/-- The data of an order that passes the checks of process_order. -/
def acceptedOrder (env : Externals) (payload : Bytes) : Option Json :=
  match parseJson env payload with
  | .ok order => (checkOrder env order).toOption
  | .error _ => none

/-- Only an accepted order is submitted, and always to the buy path. -/
theorem orderIntake_submitted_iff {path : String} {body : Json} {outcome : Outcome → Except Exn Bytes} :
    orderIntake env payload = .submitted path body outcome ↔
      ∃ orderData, acceptedOrder env payload = some orderData ∧ path = "/api/v2/private/buy" ∧
        body = orderRequest orderData ∧ outcome = orderOutcome env := by
  unfold orderIntake acceptedOrder
  cases parseJson env payload with
  | error e => simp
  | ok order =>
    cases hc : checkOrder env order with
    | error text => simp [hc, Except.toOption]
    | ok orderData => simp [hc, Except.toOption, eq_comm]

private theorem find?_none_of_checked {order : Json} (h : checkOrder env order = .ok orderData) :
    order.contains "data" = true ∧ orderData = member order "data" ∧
      ∀ field ∈ env.requiredFields, orderData.contains field = true := by
  unfold checkOrder at h
  split at h
  · cases h
  · next hd =>
    simp only at h
    split at h
    · cases h
    · next hf =>
      split at h
      · cases h
      · obtain rfl := Except.ok.inj h
        exact ⟨by simpa using hd, rfl, by simpa using hf⟩

/-- An accepted order names a direction. -/
theorem direction_of_accepted (h : acceptedOrder env payload = some orderData) :
    direction env payload = some (member orderData "direction") := by
  unfold acceptedOrder at h
  unfold direction
  cases hp : parseJson env payload with
  | error e => simp [hp] at h
  | ok order =>
    simp only [hp] at h ⊢
    cases hc : checkOrder env order with
    | error text => simp [hc, Except.toOption] at h
    | ok data =>
      obtain rfl : data = orderData := by simpa [hc, Except.toOption] using h
      obtain ⟨hd, rfl, hf⟩ := find?_none_of_checked hc
      have hdir := hf "direction" (env.requiredFields_perm.mem_iff.mpr (by simp))
      obtain ⟨d, hd'⟩ := Option.isSome_iff_exists.mp hd
      obtain ⟨v, hv⟩ := Option.isSome_iff_exists.mp hdir
      rw [member_eq_of_get? hd'] at hv ⊢
      rw [hd', Option.bind_some, hv, member_eq_of_get? hv]

end Accepted

/-- The POST of an accepted order with a token always goes to the buy path. -/
theorem apiRequests_accepted {env : Externals} {payload : Bytes} {w : World} {orderData : Json} {token : String}
    (ha : acceptedOrder env payload = some orderData) (ht : tokenResult env w = .ok token) :
    apiRequests (processOrder env payload w).trace =
      [⟨.post, "/api/v2/private/buy", some token, env.dump (orderRequest orderData)⟩] :=
  apiRequests_handler .place (orderIntake_submitted_iff.mpr ⟨orderData, ha, rfl, rfl, rfl⟩) ht

theorem modify_routed (env : Externals) (payload : Bytes) (w : World) :
    ∀ r ∈ apiRequests (processModifyOrder env payload w).trace, RoutedByMethod r := by
  intro r hr
  obtain ⟨path, body, outcome, token, hi, _, rfl⟩ := mem_apiRequests_handler .modify hr
  simp only [Operation.intake, modifyIntake] at hi
  split at hi
  · cases hi
  · split at hi
    · cases hi
    · next orderData _ =>
      cases hi
      exact routed_of_method env "/api/v2/private/edit" (by decide)

theorem cancel_routed (env : Externals) (payload : Bytes) (w : World) :
    ∀ r ∈ apiRequests (processCancelOrder env payload w).trace, RoutedByMethod r := by
  intro r hr
  obtain ⟨path, body, outcome, token, hi, _, rfl⟩ := mem_apiRequests_handler .cancel hr
  simp only [Operation.intake, cancelIntake] at hi
  split at hi
  · cases hi
  · split at hi
    · cases hi
    · split at hi
      · cases hi
      · next orderId _ =>
        cases hi
        exact routed_of_method env "/api/v2/private/cancel" (by decide)

/-- On the buy path only a buy is routed by its method. -/
theorem routed_order_iff {env : Externals} {r : Request} {orderData : Json} (hp : r.path = "/api/v2/private/buy")
    (hb : r.body = env.dump (orderRequest orderData)) :
    RoutedByMethod r ↔ orderMethod orderData = "private/buy" := by
  have hm := hasMethod_orderRequest env hb
  constructor
  · rintro ⟨j, m, hj, hjm, hpath⟩
    have h := (hm m).mp ⟨j, hj, hjm⟩
    rw [hp, h] at hpath
    exact (String.append_right_inj "/api/v2/").mp hpath.symm
  · intro h
    obtain ⟨j, hj, hjm⟩ := (hm "private/buy").mpr h.symm
    exact ⟨j, "private/buy", hj, hjm, hp⟩

theorem orderMethod_eq_buy_iff (orderData : Json) :
    orderMethod orderData = "private/buy" ↔ member orderData "direction" = .str "buy" := by
  unfold orderMethod
  split
  · next h => simpa using Json.isStr_iff.mp h
  · next h => simpa [Json.isStr_iff] using h

/-- An accepted order for anything but a buy goes the wrong way. -/
theorem not_faithfulRouting {env : Externals} {payload : Bytes} {w : World} {orderData : Json} {token : String}
    (ha : acceptedOrder env payload = some orderData) (ht : tokenResult env w = .ok token)
    (hd : member orderData "direction" ≠ .str "buy") : ¬ FaithfulRouting env payload w := by
  intro h
  have hplace := h.place
  rw [apiRequests_accepted ha ht] at hplace
  have hr := (hplace _ (List.mem_singleton_self _)).1
  rw [routed_order_iff rfl rfl, orderMethod_eq_buy_iff] at hr
  exact hd hr

/-- Orders are routed as asked exactly when the direction asks to buy or the
order is never submitted: every other direction is posted to the buy path as a
sale. -/
theorem faithfulRouting_iff (env : Externals) (payload : Bytes) (w : World) :
    FaithfulRouting env payload w ↔
      (direction env payload = some (.str "buy") ∨
        ¬ (acceptedOrder env payload ≠ none ∧ TokenAvailable env w)) := by
  constructor
  · intro h
    by_contra hc
    obtain ⟨hbuy, ha, ht⟩ : direction env payload ≠ some (.str "buy") ∧
        acceptedOrder env payload ≠ none ∧ TokenAvailable env w := by
      simpa only [not_or, not_not] using hc
    obtain ⟨orderData, ho⟩ := Option.ne_none_iff_exists'.mp ha
    obtain ⟨token, htok⟩ := (tokenAvailable_iff env w).mp ht
    rw [direction_of_accepted ho] at hbuy
    exact not_faithfulRouting ho htok (fun hd => hbuy (congrArg some hd)) h
  · intro h
    refine ⟨?_, modify_routed env payload w, cancel_routed env payload w⟩
    intro r hr
    obtain ⟨path, body, outcome, token, hi, ht, rfl⟩ := mem_apiRequests_handler .place hr
    obtain ⟨orderData, ho, rfl, rfl, -⟩ := orderIntake_submitted_iff.mp hi
    have hbuy : direction env payload = some (.str "buy") := by
      rcases h with h | h
      · exact h
      · exact absurd ⟨by simp [ho], (tokenAvailable_iff env w).mpr ⟨token, ht⟩⟩ h
    have hmem : member orderData "direction" = .str "buy" := by
      rw [direction_of_accepted ho] at hbuy
      exact Option.some.inj hbuy
    have hm := (orderMethod_eq_buy_iff orderData).mpr hmem
    refine ⟨(routed_order_iff rfl rfl).mpr hm, ?_, ?_, Or.inl hbuy⟩
    · rw [hasMethod_orderRequest env rfl, hm]
      simp [hbuy]
    · rw [hasMethod_orderRequest env rfl, hm]
      simp [hbuy]

section Sale

private theorem acceptedOrder_sellOrder : ∃ orderData,
    acceptedOrder grammarExternals (printText sellOrder) = some orderData ∧ member orderData "direction" = .str "sell" := by
  obtain ⟨orderData, hc, hd⟩ := checkOrder_sellOrder
  exact ⟨orderData, by rw [acceptedOrder, parse_sellOrder]; simp [hc, Except.toOption], hd⟩

/-- A market order to sell is posted to the path for buying. -/
theorem sellOrder_misrouted : ¬ ∀ env payload w, FaithfulRouting env payload w := by
  intro h
  obtain ⟨orderData, ha, hd⟩ := acceptedOrder_sellOrder
  refine not_faithfulRouting ha tokenCached_result ?_ (h _ _ _)
  rw [hd]
  simp

end Sale
end DeribitClientServer.Server
