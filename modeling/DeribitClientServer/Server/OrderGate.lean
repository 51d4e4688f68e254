import DeribitClientServer.Server.Replies

/-! Which messages reach the order endpoints, and with which parameters. A
payload passes the gate of its operation or is answered with an error. -/
namespace DeribitClientServer.Server
open Library Library.JsonText Library.Utf8 Library.Members

def Operation.endpoint : Operation → String
  | .place => "/api/v2/private/buy"
  | .modify => "/api/v2/private/edit"
  | .cancel => "/api/v2/private/cancel"

def orderEndpoints : List String :=
  ["/api/v2/private/buy", "/api/v2/private/sell", "/api/v2/private/edit", "/api/v2/private/cancel"]

def Request.isOrderPost (r : Request) : Bool := r.method = .post && r.path ∈ orderEndpoints

/-- The order-mutating requests of a trace. -/
def orderPosts (t : List Event) : List Request := (apiRequests t).filter Request.isOrderPost

/-- The members that the operation's data has to have. -/
def Admitted (data : Json) : Operation → Prop
  | .place => (∀ k ∈ ["instrument_name", "amount", "type", "direction"], data.contains k = true) ∧
      (data.get? "type" = some (.str "limit") → data.contains "price" = true)
  | .modify => ∀ k ∈ ["order_id", "amount"], data.contains k = true
  | .cancel => ∃ orderId, data.get? "order_id" = some (.str orderId)

/-- The parameters to be sent for the data. -/
def sentParam (data : Json) (k : String) : Operation → Option Json
  | .place =>
      if k ∈ ["instrument_name", "amount", "type"] then data.get? k
      else if k = "label" then some (.str "ui_order")
      else if k = "price" && (data.get? "type").any (Json.isStr "limit") then data.get? k
      else none
  | .modify => if k ∈ ["order_id", "amount", "price", "post_only", "reduce_only"] then data.get? k else none
  | .cancel => if k = "order_id" then data.get? k else none

/-- The body's params is an object with exactly these members. -/
def HasParams (r : Request) (params : String → Option Json) : Prop :=
  ∃ j ms, readText r.body = some j ∧ j.get? "params" = some (.obj ms) ∧
    ∀ k, (Json.obj ms).get? k = (params k).map Json.canon

/-- The frame is one JSON object of this type with a text for an error. -/
def ReportsError (p : Bytes) (type : String) : Prop :=
  ∃ j text, readText p = some j ∧ j.get? "type" = some (.str type) ∧ j.get? "error" = some (.str text)

/-- A reply that reports an error. That of an order has its text between a fixed beginning and
end, whatever a reader makes of the text. -/
def ErrorReply (p : Bytes) : Operation → Prop
  | .place => ∃ text, p = encode "\x7b\"type\": \"order_response\", \"error\": \"" ++ text ++ encode "\"\x7d"
  | .modify => ReportsError p "modify_response"
  | .cancel => ReportsError p "cancel_response"

/-- A frame to the sender of the message that tells it of an error. -/
structure Refusal (msg : Message) (op : Operation) (f : Frame) : Prop where
  via : f.via = .reply
  hdl : f.hdl = msg.hdl
  payload : ErrorReply f.payload op ∨ f.payload = encode "Internal server error"

section Requests
variable (env : Externals) {data : Json}

private theorem get?_of_contains {k : String} (h : data.contains k = true) : data.get? k = some (member data k) := by
  obtain ⟨v, hv⟩ := Option.isSome_iff_exists.mp h
  rw [member_eq_of_get? hv, hv]

private theorem isLimit_iff : isLimit data = true ↔ data.get? "type" = some (.str "limit") := by
  rw [isLimit, Json.isStr_iff, member]
  cases data.get? "type" <;> simp

/-- A request whose params is an object is read with that object's members. -/
theorem hasParams_dump {path : String} {token : Option String} {id : Json} {m : String}
    {ps : List (String × Json)} {params : String → Option Json} (h : ∀ k, (Json.obj ps).get? k = params k)
    (hs : ∀ k v, params k = some v → v.stored env.spelling = v) :
    HasParams ⟨.post, path, token, env.dump (.obj [("jsonrpc", .str "2.0"), ("id", id), ("method", .str m),
      ("params", .obj ps)])⟩ params := by
  refine ⟨_, _, env.dump_reads _, by rw [Json.get?_canon, Json.get?_stored]; simp [Json.get?]; rfl, fun k => ?_⟩
  have hg := Json.get?_stored env.spelling (.obj ps) k
  rw [Json.stored_obj] at hg
  rw [← Json.canon, Json.get?_canon, hg, h]
  cases hk : params k with
  | none => rfl
  | some v => rw [Option.map_some, hs k v hk]

private theorem any_isStr_eq_isLimit : (data.get? "type").any (Json.isStr "limit") = isLimit data := by
  rw [isLimit, member]
  cases data.get? "type" <;> rfl

private theorem get?_orderParams (h : Admitted data .place) (k : String) :
    (orderParams data).get? k = if k ∈ ["instrument_name", "amount", "type"] then data.get? k
      else if k = "label" then some (.str "ui_order") else none := by
  have hi := get?_of_contains (h.1 "instrument_name" (by simp))
  have ha := get?_of_contains (h.1 "amount" (by simp))
  have ht := get?_of_contains (h.1 "type" (by simp))
  rw [orderParams, Json.get?_obj]
  by_cases hk : k ∈ ["instrument_name", "amount", "type", "label"]
  · simp only [List.mem_cons, List.not_mem_nil, or_false] at hk
    rcases hk with rfl | rfl | rfl | rfl
    · simpa using hi.symm
    · simpa using ha.symm
    · simpa using ht.symm
    · simp
  · simp only [List.mem_cons, List.not_mem_nil, or_false, not_or] at hk
    obtain ⟨hi, ha, ht, hl⟩ := hk
    simp [hi, ha, ht, hl, Ne.symm hi, Ne.symm ha, Ne.symm ht, Ne.symm hl]

/-- The parameters of an accepted order are copied from its data, and labelled. -/
theorem get?_orderRequest (h : Admitted data .place) (k : String) :
    (if isLimit data then (orderParams data).set "price" (member data "price") else orderParams data).get? k =
      sentParam data k .place := by
  rw [sentParam, any_isStr_eq_isLimit]
  cases hl : isLimit data with
  | false => simpa using get?_orderParams h k
  | true =>
    have hp := get?_of_contains (h.2 (isLimit_iff.mp hl))
    rw [if_pos rfl]
    by_cases hk : k = "price"
    · subst hk
      have hself := @Json.get?_set_self (orderParams data) "price" (member data "price") ⟨_, rfl⟩
      rw [hself]
      simpa using hp.symm
    · rw [Json.get?_set_ne (Ne.symm hk), get?_orderParams h]
      simp [hk]

private theorem copyMember_obj (k : String) (ps : List (String × Json)) :
    ∃ qs, copyMember data k (.obj ps) = .obj qs ∧ ∀ k', (Json.obj qs).get? k' =
      if k = k' ∧ data.contains k = true then data.get? k' else (Json.obj ps).get? k' := by
  unfold copyMember
  cases hc : data.contains k with
  | false => exact ⟨ps, rfl, by simp⟩
  | true =>
    refine ⟨_, rfl, fun k' => ?_⟩
    by_cases hk : k = k'
    · subst hk
      rw [if_pos ⟨rfl, rfl⟩, get?_of_contains hc]
      exact Json.get?_set_self ⟨ps, rfl⟩
    · rw [if_neg (fun h => hk h.1)]
      exact Json.get?_set_ne hk (.obj ps) _

/-- The parameters of a modification are the members present of those it may have. -/
theorem modifyParams_obj (h : Admitted data .modify) :
    ∃ ps, modifyParams data = .obj ps ∧ ∀ k, (Json.obj ps).get? k = sentParam data k .modify := by
  have ho := get?_of_contains (h "order_id" (by simp))
  have ha := get?_of_contains (h "amount" (by simp))
  obtain ⟨ps₁, h₁, hg₁⟩ := @copyMember_obj data "price"
    [("order_id", member data "order_id"), ("amount", member data "amount")]
  obtain ⟨ps₂, h₂, hg₂⟩ := @copyMember_obj data "post_only" ps₁
  obtain ⟨ps₃, h₃, hg₃⟩ := @copyMember_obj data "reduce_only" ps₂
  refine ⟨ps₃, by rw [modifyParams, h₁, h₂, h₃], fun k => ?_⟩
  have habsent (k : String) (hc : ¬ data.contains k = true) : data.get? k = none := by
    simpa [Json.contains] using hc
  rw [hg₃, hg₂, hg₁, sentParam]
  by_cases hk : k ∈ ["order_id", "amount", "price", "post_only", "reduce_only"]
  · rw [if_pos hk]
    simp only [List.mem_cons, List.not_mem_nil, or_false] at hk
    rcases hk with rfl | rfl | rfl | rfl | rfl
    · simpa [Json.get?_obj] using ho.symm
    · simpa [Json.get?_obj] using ha.symm
    · by_cases hc : data.contains "price" = true
      · simp [hc]
      · simp [habsent _ hc, Json.get?_obj, hc]
    · by_cases hc : data.contains "post_only" = true
      · simp [hc]
      · simp [habsent _ hc, Json.get?_obj, hc]
    · by_cases hc : data.contains "reduce_only" = true
      · simp [hc]
      · simp [habsent _ hc, Json.get?_obj, hc]
  · rw [if_neg hk]
    simp only [List.mem_cons, List.not_mem_nil, or_false, not_or] at hk
    obtain ⟨ho, ha, hp, hpo, hr⟩ := hk
    simp [Json.get?_obj, Ne.symm ho, Ne.symm ha, Ne.symm hp, Ne.symm hpo, Ne.symm hr]

end Requests

section Intakes
variable {env : Externals} {payload : Bytes}

/-- The data of the message a payload carries. -/
def messageData (env : Externals) (payload : Bytes) : Option Json :=
  match parseJson env payload with
  | .ok j => j.get? "data"
  | .error _ => none

/-- The payload's data is admitted by the operation. -/
def PassesGate (env : Externals) (payload : Bytes) (op : Operation) (data : Json) : Prop :=
  messageData env payload = some data ∧ Admitted data op

theorem checkOrder_ok_iff {order data : Json} :
    checkOrder env order = .ok data ↔ order.get? "data" = some data ∧ Admitted data .place := by
  have hfields (d : Json) : (∀ k ∈ env.requiredFields, d.contains k = true) ↔
      ∀ k ∈ ["instrument_name", "amount", "type", "direction"], d.contains k = true := by
    simp only [env.requiredFields_perm.mem_iff]
  unfold checkOrder Admitted
  cases hd : order.get? "data" with
  | none => simp [Json.contains, hd]
  | some d =>
    have hc : order.contains "data" = true := contains_of_get? hd
    simp only [member_eq_of_get? hd, hc, Bool.not_true, Bool.false_eq_true, if_false, Option.some_inj]
    cases hf : env.requiredFields.find? (fun field => !d.contains field) with
    | some field =>
      have hmiss := List.find?_some hf
      have hmem := List.mem_of_find?_eq_some hf
      apply iff_of_false (by simp)
      rintro ⟨rfl, hall, _⟩
      simp [(hfields d).mpr hall field hmem] at hmiss
    | none =>
      have hall : ∀ k ∈ env.requiredFields, d.contains k = true := by simpa using hf
      rw [← isLimit_iff]
      by_cases hl : (isLimit d && !d.contains "price") = true
      · rw [if_pos hl]
        apply iff_of_false (by simp)
        rintro ⟨rfl, _, hprice⟩
        simp only [Bool.and_eq_true, Bool.not_eq_true'] at hl
        rw [hprice hl.1] at hl
        cases hl.2
      · rw [if_neg hl, Except.ok.injEq]
        constructor
        · rintro rfl
          refine ⟨rfl, (hfields d).mp hall, fun ht => ?_⟩
          simpa [ht] using hl
        · exact fun h => h.1

theorem checkModify_ok_iff {request data : Json} :
    checkModify request = .ok data ↔ request.get? "data" = some data ∧ Admitted data .modify := by
  unfold checkModify Admitted
  cases hd : request.get? "data" with
  | none => simp [Json.contains, hd]
  | some d =>
    have hc : request.contains "data" = true := contains_of_get? hd
    simp only [member_eq_of_get? hd, hc, Bool.not_true, Bool.false_eq_true, if_false, Option.some_inj]
    cases hf : ["order_id", "amount"].find? (fun field => !d.contains field) with
    | some field =>
      have hmiss := List.find?_some hf
      have hmem := List.mem_of_find?_eq_some hf
      apply iff_of_false (by simp)
      rintro ⟨rfl, hall⟩
      simp [hall field hmem] at hmiss
    | none =>
      have hall : ∀ k ∈ ["order_id", "amount"], d.contains k = true := by
        simpa only [List.find?_eq_none, Bool.not_eq_true', Bool.not_eq_false] using hf
      rw [Except.ok.injEq]
      exact ⟨fun h => ⟨h, h ▸ hall⟩, fun h => h.1⟩

theorem checkCancel_ok_iff {request field : Json} :
    checkCancel request = .ok field ↔ ∃ data, request.get? "data" = some data ∧ data.get? "order_id" = some field := by
  unfold checkCancel
  cases hd : request.get? "data" with
  | none => simp [Json.contains, hd]
  | some d =>
    have hc : request.contains "data" = true := contains_of_get? hd
    simp only [member_eq_of_get? hd, hc, Bool.not_true, Bool.false_or]
    cases ho : d.get? "order_id" with
    | none => simp [Json.contains, ho]
    | some v => simp [Json.contains, ho, member]

private theorem dumpError_reply {t : String} {text p : Bytes} (h : dumpError env t text = .ok p) : ReportsError p t := by
  unfold dumpError at h
  split at h
  · next s _ =>
    obtain rfl := Except.ok.inj h
    exact ⟨_, s, env.dump_reads _, (get?_dumped_str_iff env).mpr (by simp [Json.get?]),
      (get?_dumped_str_iff env).mpr (by simp [Json.get?])⟩
  · cases h

private theorem recover_reply {op : Operation} {e : Exn} {p : Bytes} (h : op.recover env e = .ok p) : ErrorReply p op := by
  cases op with
  | place => exact ⟨_, (Except.ok.inj h).symm⟩
  | modify | cancel => exact dumpError_reply h

/-- What is copied from data that was parsed is stored as it is. -/
private theorem stored_sentParam {data v : Json} {k : String} {op : Operation} (h : PassesGate env payload op data)
    (hv : sentParam data k op = some v) : v.stored env.spelling = v := by
  have hdata : data.stored env.spelling = data := by
    have hd := h.1
    unfold messageData at hd
    cases hp : parseJson env payload with
    | error e =>
      rw [hp] at hd
      cases hd
    | ok j =>
      rw [hp] at hd
      exact Json.stored_of_get? (stored_of_parsed env hp) hd
  have hcopy : ∀ c : Prop, [Decidable c] → (if c then data.get? k else none) = some v → v.stored env.spelling = v := by
    intro c _ hc
    split_ifs at hc
    exact Json.stored_of_get? hdata hc
  cases op with
  | place =>
    rw [sentParam] at hv
    split_ifs at hv
    · exact Json.stored_of_get? hdata hv
    · rw [← Option.some.inj hv]
      rfl
    · exact Json.stored_of_get? hdata hv
  | modify | cancel => exact hcopy _ hv

/-- An operation submits a payload that passes its gate, with the parameters that
are due; any other it answers with an error. -/
inductive Met (env : Externals) (payload : Bytes) (op : Operation) : Intake → Prop where
  | submitted {data body : Json} {outcome : Outcome → Except Exn Bytes} (h : PassesGate env payload op data)
      (hp : ∀ token, HasParams ⟨.post, op.endpoint, token, env.dump body⟩ (fun k => sentParam data k op)) :
      Met env payload op (.submitted op.endpoint body outcome)
  | answered {x : Except Exn Bytes} (h : ∀ data, ¬ PassesGate env payload op data)
      (hx : ∀ p, x = .ok p → ErrorReply p op) : Met env payload op (.answered x)

private theorem met_unparsed {op : Operation} {e : Exn} (hp : parseJson env payload = .error e) :
    Met env payload op (.answered (.error e)) := by
  refine .answered (fun data h => ?_) (by rintro p ⟨⟩)
  have hd := h.1
  rw [messageData, hp] at hd
  cases hd

private theorem met_place : Met env payload .place (orderIntake env payload) := by
  cases hp : parseJson env payload with
  | error e =>
    simp only [orderIntake, hp]
    exact met_unparsed hp
  | ok order =>
    cases hc : checkOrder env order with
    | error text =>
      simp only [orderIntake, hp, hc]
      refine .answered (fun data h => ?_) (fun p h => ⟨_, (Except.ok.inj h).symm⟩)
      obtain ⟨hd, ha⟩ := h
      simp only [messageData, hp] at hd
      rw [checkOrder_ok_iff.mpr ⟨hd, ha⟩] at hc
      cases hc
    | ok orderData =>
      simp only [orderIntake, hp, hc]
      obtain ⟨hd, ha⟩ := checkOrder_ok_iff.mp hc
      have hpass : PassesGate env payload .place orderData := ⟨by simp only [messageData, hp, hd], ha⟩
      refine .submitted hpass (fun token => ?_)
      have hget := get?_orderRequest ha
      unfold orderRequest
      cases hl : isLimit orderData with
      | false =>
        rw [hl] at hget
        exact hasParams_dump env hget fun k v => stored_sentParam hpass
      | true =>
        rw [hl] at hget
        exact hasParams_dump env hget fun k v => stored_sentParam hpass

private theorem met_modify : Met env payload .modify (modifyIntake env payload) := by
  cases hp : parseJson env payload with
  | error e =>
    simp only [modifyIntake, hp]
    exact met_unparsed hp
  | ok request =>
    cases hc : checkModify request with
    | error text =>
      simp only [modifyIntake, hp, hc]
      refine .answered (fun data h => ?_) (fun p h => dumpError_reply h)
      obtain ⟨hd, ha⟩ := h
      simp only [messageData, hp] at hd
      rw [checkModify_ok_iff.mpr ⟨hd, ha⟩] at hc
      cases hc
    | ok orderData =>
      simp only [modifyIntake, hp, hc]
      obtain ⟨hd, ha⟩ := checkModify_ok_iff.mp hc
      obtain ⟨ps, hps, hget⟩ := modifyParams_obj ha
      have hpass : PassesGate env payload .modify orderData := ⟨by simp only [messageData, hp, hd], ha⟩
      refine .submitted hpass (fun token => ?_)
      rw [modifyRequest, hps]
      exact hasParams_dump env hget fun k v => stored_sentParam hpass

private theorem getString_ok_iff {j : Json} {s : String} : getString env j = .ok s ↔ j = .str s := by
  cases j <;> simp [getString]

private theorem checkCancel_of_passes {request data : Json} (hp : parseJson env payload = .ok request)
    (h : PassesGate env payload .cancel data) : ∃ orderId, checkCancel request = .ok (.str orderId) := by
  obtain ⟨hd, orderId, ho⟩ := h
  simp only [messageData, hp] at hd
  exact ⟨orderId, checkCancel_ok_iff.mpr ⟨data, hd, ho⟩⟩

private theorem met_cancel : Met env payload .cancel (cancelIntake env payload) := by
  cases hp : parseJson env payload with
  | error e =>
    simp only [cancelIntake, hp]
    exact met_unparsed hp
  | ok request =>
    cases hc : checkCancel request with
    | error text =>
      simp only [cancelIntake, hp, hc]
      refine .answered (fun data h => ?_) (fun p h => dumpError_reply h)
      obtain ⟨orderId, ho⟩ := checkCancel_of_passes hp h
      rw [ho] at hc
      cases hc
    | ok field =>
      cases hg : getString env field with
      | error e =>
        simp only [cancelIntake, hp, hc, hg]
        refine .answered (fun data h => ?_) (by rintro p ⟨⟩)
        obtain ⟨orderId, ho⟩ := checkCancel_of_passes hp h
        rw [ho, Except.ok.injEq] at hc
        rw [← hc] at hg
        cases hg
      | ok orderId =>
        simp only [cancelIntake, hp, hc, hg]
        obtain rfl := getString_ok_iff.mp hg
        obtain ⟨data, hd, ho⟩ := checkCancel_ok_iff.mp hc
        have hpass : PassesGate env payload .cancel data := ⟨by simp only [messageData, hp, hd], orderId, ho⟩
        refine .submitted hpass (fun token => hasParams_dump env (fun k => ?_) fun k v => stored_sentParam hpass)
        rw [sentParam, Json.get?_obj]
        by_cases hk : k = "order_id"
        · subst hk
          simpa using ho.symm
        · simp [hk, Ne.symm hk]

theorem intake_met (op : Operation) : Met env payload op (op.intake env payload) := by
  cases op with
  | place => exact met_place
  | modify => exact met_modify
  | cancel => exact met_cancel

end Intakes
section Posts
variable {env : Externals} {α : Type}

/-- The program makes no order-mutating request. -/
abbrev PostsNothing (m : Program α) : Prop :=
  Exec.Keeps (fun _ => True) (fun e => ∀ r, e.apiRequest? = some r → r.isOrderPost = false) (fun _ => True) m

private theorem posts_sendTo (via : Via) (hdl : Hdl) (state : SessionState) (payload : Bytes) (op : Opcode) :
    PostsNothing (sendTo via hdl state payload op) := by
  intro w _
  rw [sendTo_run]
  exact ⟨trivial, by simp [Event.apiRequest?], fun _ _ => trivial⟩

private theorem posts_reply (hdl : Hdl) (payload : Bytes) (op : Opcode) : PostsNothing (reply hdl payload op) := by
  intro w _
  rw [reply_run]
  exact ⟨trivial, by simp [Event.apiRequest?], fun _ _ => trivial⟩

private theorem posts_broadcast (message : Bytes) : PostsNothing (broadcast message) := by
  have hconnections : PostsNothing connections := fun w _ => ⟨trivial, by simp, fun _ _ => trivial⟩
  exact .bind hconnections (fun members _ => .forM (fun member _ => posts_sendTo _ _ _ _ _))

private theorem posts_apiCall {r : Request} (hr : r.isOrderPost = false) : PostsNothing (apiCall r) := by
  intro w _
  rw [run_apiCall]
  refine ⟨trivial, fun e he r' h => ?_, fun _ _ => trivial⟩
  rw [List.mem_singleton.mp he] at h
  exact Option.some.inj h ▸ hr

private theorem posts_getAccessToken : PostsNothing (getAccessToken env) := by
  intro w _
  rw [getAccessToken_run]
  refine ⟨trivial, fun e he r h => ?_, fun _ _ => trivial⟩
  unfold tokenTrace at he
  split at he
  · cases he
  · rw [List.mem_singleton.mp he] at h
    cases h

private theorem posts_refresh : PostsNothing (broadcastOpenOrdersUpdate env) := by
  have hfetch : PostsNothing (getOpenOrders env) :=
    .bind posts_getAccessToken (fun _ _ =>
      .bind (posts_apiCall (by simp [Request.isOrderPost, orderEndpoints])) (fun _ _ => .pure trivial))
  exact .bind hfetch (fun _ _ => .bind (.ofExcept (fun _ _ => trivial)) (fun _ _ => posts_broadcast _))

private theorem posts_fetchInstruments (currency kind : String) : PostsNothing (fetchInstruments env currency kind) :=
  .bind (posts_apiCall rfl) (fun _ _ => .ofExcept (fun _ _ => trivial))

private theorem orderPosts_of_forall {t : List Event} (h : ∀ e ∈ t, ∀ r, e.apiRequest? = some r → r.isOrderPost = false) :
    orderPosts t = [] := by
  rw [orderPosts, List.filter_eq_nil_iff]
  intro r hr
  obtain ⟨e, he, hre⟩ := List.mem_filterMap.mp hr
  simp [h e he r hre]

private theorem orderPosts_filterMap (t : List Event) :
    orderPosts t = t.filterMap (fun e => e.apiRequest?.filter Request.isOrderPost) := by
  rw [orderPosts, apiRequests, List.filter_filterMap]

private theorem orderPosts_andThen (r : Ran World Event Exn α) {β : Type} {f : α → Program β}
    (hf : ∀ a, PostsNothing (f a)) : orderPosts (r.andThen f).trace = orderPosts r.trace := by
  rw [orderPosts_filterMap, orderPosts_filterMap]
  refine Ran.filterMap_andThen r (fun a w => ?_)
  rw [← orderPosts_filterMap, orderPosts_of_forall (hf a w trivial).2.1]

private theorem orderPosts_orElse (r : Ran World Event Exn α) {h : Exn → Program α} (hh : ∀ e, PostsNothing (h e)) :
    orderPosts (r.orElse h).trace = orderPosts r.trace := by
  rw [orderPosts_filterMap, orderPosts_filterMap]
  refine Ran.filterMap_orElse r (fun e w => ?_)
  rw [← orderPosts_filterMap, orderPosts_of_forall (hh e w trivial).2.1]

end Posts

section Gate
variable (env : Externals) (msg : Message) (w : World)

private theorem orderPosts_processMessage :
    orderPosts (processMessage env msg w).trace = orderPosts (serve env msg (kindOf env msg.payload) w).trace := by
  rw [processMessage_eq]
  exact orderPosts_orElse _ (fun _ => posts_reply _ _ _)

theorem orderPosts_order {op : Operation} (hk : kindOf env msg.payload = .order op) :
    orderPosts (processMessage env msg w).trace = orderPosts (op.trace env msg.payload w) := by
  have hrest (p : Bytes) : PostsNothing (reply msg.hdl p msg.opcode >>= fun _ => broadcastOpenOrdersUpdate env) :=
    .bind (posts_reply _ _ _) (fun _ _ => posts_refresh)
  rw [orderPosts_processMessage, hk, serve, replyAndUpdate, Exec.run_bind, Operation.handler_run,
    orderPosts_andThen _ hrest]

/-- Only order operations post to the order endpoints. -/
theorem orderPosts_other (hk : ∀ op, kindOf env msg.payload ≠ .order op) :
    orderPosts (processMessage env msg w).trace = [] := by
  have hserve : PostsNothing (serve env msg (kindOf env msg.payload)) := by
    cases h : kindOf env msg.payload with
    | order op => exact absurd h (hk op)
    | malformed => exact fun w _ => ⟨trivial, by simp [serve], fun _ _ => trivial⟩
    | echo => exact posts_reply _ _ _
    | unhandled => exact .pure trivial
    | instruments j =>
      exact .bind (.ofExcept (fun _ _ => trivial)) (fun query _ =>
        .bind (posts_fetchInstruments _ _) (fun _ _ => posts_reply _ _ _))
  rw [orderPosts_processMessage]
  exact orderPosts_of_forall (hserve w trivial).2.1

/-- The posts of an operation: one when its gate is passed and a token is had. -/
theorem orderPosts_operation (op : Operation) :
    ((∀ data, ¬ PassesGate env msg.payload op data) ∧ orderPosts (op.trace env msg.payload w) = []) ∨
      ∃ data, PassesGate env msg.payload op data ∧
        ((¬ TokenAvailable env w ∧ orderPosts (op.trace env msg.payload w) = []) ∨
          TokenAvailable env w ∧ ∃ r, orderPosts (op.trace env msg.payload w) = [r] ∧ r.path = op.endpoint ∧
            HasParams r (fun k => sentParam data k op)) := by
  have hm := @intake_met env msg.payload op
  unfold Operation.trace
  generalize op.intake env msg.payload = i at hm
  cases hm with
  | answered h hx => exact .inl ⟨h, rfl⟩
  | @submitted data body outcome h hp =>
    refine .inr ⟨data, h, ?_⟩
    rw [orderPosts, Intake.trace, apiRequests_submitTrace]
    cases ht : tokenResult env w with
    | error e => exact .inl ⟨(not_tokenAvailable_iff env w).mpr ⟨e, ht⟩, rfl⟩
    | ok token =>
      refine .inr ⟨(tokenAvailable_iff env w).mpr ⟨token, ht⟩, _, ?_, rfl, hp (some token)⟩
      cases op <;> rfl

/-- The first frame sent for an order operation. -/
theorem first_frame {op : Operation} (hk : kindOf env msg.payload = .order op) :
    ∃ f rest, frames (processMessage env msg w).trace = f :: rest ∧ f.via = .reply ∧ f.hdl = msg.hdl ∧
      ((∃ p, op.result env msg.payload w = .ok p ∧ f.payload = p) ∨
        (∃ e, op.result env msg.payload w = .error e) ∧ f.payload = encode "Internal server error") := by
  have hh := processMessage_handled env msg w
  generalize frames (processMessage env msg w).trace = fs at hh
  cases hh with
  | ignored hk' => simp [hk] at hk'
  | failed e _ he =>
    rw [hk] at he
    exact ⟨_, _, rfl, rfl, rfl, .inr ⟨⟨e, he⟩, rfl⟩⟩
  | refused ha _ =>
    rw [hk] at ha
    exact ⟨_, _, rfl, rfl, rfl, .inl ⟨_, ha, rfl⟩⟩
  | answered hk' _ _ => exact absurd hk (hk' op)
  | updated hk' ha _ _ _ | unrefreshed hk' ha _ _ _ =>
    rw [hk, Kind.order.injEq] at hk'
    subst hk'
    exact ⟨_, _, rfl, rfl, rfl, .inl ⟨_, ha, rfl⟩⟩

/-- An open connection takes one of the frames sent for an order operation. -/
private theorem queued_frame {op : Operation} (hk : kindOf env msg.payload = .order op) (ho : SenderOpen w) :
    ∃ f ∈ frames (processMessage env msg w).trace, f.queued = true ∧ f.via = .reply ∧ f.hdl = msg.hdl ∧
      ((∃ p, op.result env msg.payload w = .ok p ∧ f.payload = p) ∨ f.payload = encode "Internal server error") := by
  have herror : ∀ n, (errorFrame msg (w.sender.get n)).queued = true := fun n => by
    rw [ho n]
    exact queues_encode _ _
  have hh := processMessage_handled env msg w
  generalize frames (processMessage env msg w).trace = fs at hh
  cases hh with
  | ignored hk' => simp [hk] at hk'
  | failed e _ _ => exact ⟨_, List.mem_cons_self, herror 0, rfl, rfl, .inr rfl⟩
  | refused _ _ => exact ⟨_, List.mem_cons_of_mem _ List.mem_cons_self, herror 1, rfl, rfl, .inr rfl⟩
  | answered hk' _ _ => exact absurd hk (hk' op)
  | updated hk' ha hq _ _ | unrefreshed hk' ha hq _ _ =>
    rw [hk, Kind.order.injEq] at hk'
    subst hk'
    exact ⟨_, List.mem_cons_self, hq, rfl, rfl, .inl ⟨_, ha, rfl⟩⟩

/-- Without a post the operation's reply is an error. -/
theorem errorReply_of_unposted {op : Operation}
    (h : (∀ data, ¬ PassesGate env msg.payload op data) ∨ ¬ TokenAvailable env w) {p : Bytes}
    (hp : op.result env msg.payload w = .ok p) : ErrorReply p op := by
  have hm := @intake_met env msg.payload op
  unfold Operation.result at hp
  generalize op.intake env msg.payload = i at hm hp
  cases hm with
  | @answered x _ hx =>
    cases x with
    | ok q => exact hx p hp
    | error e => exact recover_reply hp
  | submitted hpass _ =>
    rcases h with h | h
    · exact absurd hpass (h _)
    · obtain ⟨e, he⟩ := (not_tokenAvailable_iff env w).mp h
      simp only [Intake.result, submitResult, he, Except.bind] at hp
      exact recover_reply hp

/-- A message of the operation's type, with data that the operation admits. -/
def Submits (op : Operation) (data : Json) : Prop :=
  ∃ j, IsMessage env msg.payload op.type j ∧ j.get? "data" = some data ∧ Admitted data op

structure OrderGate : Prop where
  atMostOne : (orderPosts (processMessage env msg w).trace).length ≤ 1
  posts : orderPosts (processMessage env msg w).trace ≠ [] ↔ TokenAvailable env w ∧ ∃ op data, Submits env msg op data
  params : ∀ r ∈ orderPosts (processMessage env msg w).trace, ∃ op data, Submits env msg op data ∧
    r.path = op.endpoint ∧ HasParams r (fun k => sentParam data k op)
  refused : ∀ op j, IsMessage env msg.payload op.type j → orderPosts (processMessage env msg w).trace = [] →
    (∃ f rest, frames (processMessage env msg w).trace = f :: rest ∧ Refusal msg op f) ∧
      (SenderOpen w → ∃ f ∈ frames (processMessage env msg w).trace, f.queued = true ∧ Refusal msg op f)

variable {env msg}

theorem submits_iff {op : Operation} {data : Json} (hk : kindOf env msg.payload = .order op) :
    Submits env msg op data ↔ PassesGate env msg.payload op data := by
  obtain ⟨j, hj, ht⟩ := kindOf_order_iff.mp hk
  unfold Submits PassesGate messageData IsMessage
  simp only [hj, Except.ok.injEq]
  constructor
  · rintro ⟨_, ⟨rfl, _⟩, hd, ha⟩
    exact ⟨hd, ha⟩
  · rintro ⟨hd, ha⟩
    exact ⟨j, ⟨rfl, ht⟩, hd, ha⟩

private theorem submits_kind {op : Operation} {data : Json} (h : Submits env msg op data) :
    kindOf env msg.payload = .order op := by
  obtain ⟨j, hj, _⟩ := h
  exact kindOf_order_iff.mpr ⟨j, hj⟩

private theorem refused_reply {op : Operation} (hk : kindOf env msg.payload = .order op)
    (h : (∀ data, ¬ PassesGate env msg.payload op data) ∨ ¬ TokenAvailable env w) :
    (∃ f rest, frames (processMessage env msg w).trace = f :: rest ∧ Refusal msg op f) ∧
      (SenderOpen w → ∃ f ∈ frames (processMessage env msg w).trace, f.queued = true ∧ Refusal msg op f) := by
  constructor
  · obtain ⟨f, rest, hfs, hv, hh, ⟨p, hp, hpay⟩ | ⟨_, hpay⟩⟩ := first_frame env msg w hk
    · exact ⟨f, rest, hfs, hv, hh, .inl (hpay ▸ errorReply_of_unposted env msg w h hp)⟩
    · exact ⟨f, rest, hfs, hv, hh, .inr hpay⟩
  · intro ho
    obtain ⟨f, hf, hq, hv, hh, ⟨p, hp, hpay⟩ | hpay⟩ := queued_frame env msg w hk ho
    · exact ⟨f, hf, hq, hv, hh, .inl (hpay ▸ errorReply_of_unposted env msg w h hp)⟩
    · exact ⟨f, hf, hq, hv, hh, .inr hpay⟩

private theorem unposted {op : Operation} (hk : kindOf env msg.payload = .order op)
    (h : (∀ data, ¬ PassesGate env msg.payload op data) ∨ ¬ TokenAvailable env w)
    (hnone : orderPosts (processMessage env msg w).trace = []) : OrderGate env msg w := by
  refine ⟨by simp [hnone], iff_of_false (by simp [hnone]) ?_, by simp [hnone], fun op' j hj _ => ?_⟩
  · rintro ⟨ht, op', data, hs⟩
    have ho : op = op' := by
      have hk' := hk.symm.trans (submits_kind hs)
      rwa [Kind.order.injEq] at hk'
    subst ho
    rcases h with h | h
    · exact h data ((submits_iff hk).mp hs)
    · exact h ht
  · have ho : op = op' := by
      have hk' := hk.symm.trans (kindOf_order_iff.mpr ⟨j, hj⟩)
      rwa [Kind.order.injEq] at hk'
    subst ho
    exact refused_reply w hk h

variable (env msg)

/-- Handling a message posts to the order endpoints at most once: exactly when a
token is had and the operation's data passes its gate, and then with the
parameters due to that data. Otherwise the operation is answered with an error, which an open
connection takes. -/
theorem order_gate : OrderGate env msg w := by
  by_cases hk : ∃ op, kindOf env msg.payload = .order op
  · obtain ⟨op, hk⟩ := hk
    have hposts := orderPosts_order env msg w hk
    rcases orderPosts_operation env msg w op with
      ⟨hgate, hnone⟩ | ⟨data, hpass, ⟨htoken, hnone⟩ | ⟨htoken, r, hr, hpath, hparams⟩⟩
    · exact unposted w hk (.inl hgate) (hposts.trans hnone)
    · exact unposted w hk (.inr htoken) (hposts.trans hnone)
    · have hs : Submits env msg op data := (submits_iff hk).mpr hpass
      have hone := hposts.trans hr
      refine ⟨by simp [hone], iff_of_true (by simp [hone]) ⟨htoken, op, data, hs⟩, ?_, fun _ _ _ hn => ?_⟩
      · rw [hone]
        intro r' hr'
        obtain rfl := List.mem_singleton.mp hr'
        exact ⟨op, data, hs, hpath, hparams⟩
      · rw [hone] at hn
        cases hn
  · have hk' : ∀ op, kindOf env msg.payload ≠ .order op := fun op h => hk ⟨op, h⟩
    have hnone := orderPosts_other env msg w hk'
    refine ⟨by simp [hnone], iff_of_false (by simp [hnone]) ?_, by simp [hnone], fun op j hj _ => ?_⟩
    · rintro ⟨_, op, data, hs⟩
      exact hk' op (submits_kind hs)
    · exact absurd (kindOf_order_iff.mpr ⟨j, hj⟩) (hk' op)

end Gate
end DeribitClientServer.Server
