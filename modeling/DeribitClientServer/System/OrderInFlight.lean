import DeribitClientServer.Client.Forms
import DeribitClientServer.Server.SingleReply
import DeribitClientServer.Server.WireFormat
import DeribitClientServer.System.FrameTypes

/-! One order form, one connection and the server behind it. Orders and their
replies are counted, and every packet remembers whether it is one of them. -/
namespace DeribitClientServer.System
open Library Library.JsonText Library.Utf8 Server Client

/-- A message or frame on its way, marked when it is an order of the form or a
reply to one. -/
structure Packet where
  order : Bool
  bytes : Bytes

structure Desk where
  form : OrderForm
  instrument : String
  up : List Packet
  down : List Packet
  sent : Nat
  answered : Nat

inductive DeskAct where
  | edit (amount price orderType direction : String)
  | switchInstrument (instrument : String)
  | submit
  | other (message : Bytes)
  | cast (payload : Bytes)
  | serve (w : World)
  | receive

section Steps
variable (env : Externals) (sc : Script) (me : Hdl)

def Desk.edited (s : Desk) (amount price orderType direction : String) : Desk :=
  { s with form := { s.form with amount := amount, price := price, orderType := orderType, direction := direction } }

def Desk.switched (s : Desk) (instrument : String) : Desk :=
  if instrument = s.instrument then s else { s with instrument := instrument, form := s.form.instrumentEffect }

def Desk.submitted (s : Desk) : Desk :=
  let r := OrderForm.handleSubmit sc true s.instrument s.form
  { s with form := r.state, up := s.up ++ r.trace.map (Packet.mk true), sent := s.sent + r.trace.length }

/-- The frames that reach the client while one of its messages is handled. -/
def arriving (x : Packet) (w : World) : List Packet :=
  ((frames (processMessage env ⟨me, x.bytes, .text⟩ w).trace).filter (fun f => f.hdl = me && f.queued)).map
    (fun f => ⟨x.order && f.via = .reply, f.payload⟩)

def Desk.served (s : Desk) (x : Packet) (rest : List Packet) (w : World) : Desk :=
  { s with up := rest, down := s.down ++ arriving env me x w }

def Desk.received (s : Desk) (x : Packet) (rest : List Packet) : Desk :=
  { s with form := (OrderForm.handleMessage sc x.bytes s.form).state, down := rest, answered := s.answered + x.order.toNat }

/-- The connection stays open, and what else the client sends is neither an order
nor an echo of one. -/
def desk : Transition Desk DeskAct where
  initial s := s = ⟨OrderForm.initial, "", [], [], 0, 0⟩
  step s a s' :=
    match a with
    | .edit amount price orderType direction => s' = s.edited amount price orderType direction
    | .switchInstrument instrument => s' = s.switched instrument
    | .submit => s.form.isSubmitting = false ∧ s' = s.submitted sc
    | .other m => kindOf env m ≠ .order .place ∧ kindOf env m ≠ .echo ∧ s' = { s with up := s.up ++ [⟨false, m⟩] }
    | .cast p => Broadcasts env p ∧ s' = { s with down := s.down ++ [⟨false, p⟩] }
    | .serve w => SenderOpen w ∧ ∃ x rest, s.up = x :: rest ∧ s' = s.served env me x rest w
    | .receive => ∃ x rest, s.down = x :: rest ∧ s' = s.received sc x rest

/-- The text glued into a reply reads as part of it, and the refresh after the
order succeeds. -/
def OrdersReadable (s : Desk) : DeskAct → Prop
  | .serve w => ∀ x ∈ s.up.head?, x.order = true →
      (∀ text, gluedText env x.bytes w = some text → Splices text "order_response") ∧
        RefreshOk env (Operation.place.world env x.bytes w)
  | _ => True

/-- Every number the client prints has a spelling on the server. -/
def NumbersAgree : Prop := ∀ s n, sc.parseFloat s = some n → (env.spelling n).isSome

end Steps

def Desk.inFlight (s : Desk) : List Packet := (s.up ++ s.down).filter Packet.order

/-- At most one order is unanswered, the form knows, and it recovers. -/
structure OneInFlight (s : Desk) : Prop where
  one : s.sent = s.answered ∨ s.sent = s.answered + 1
  submitting : s.form.isSubmitting = true ↔ s.sent = s.answered + 1
  recovers : s.inFlight = [] → s.form.isSubmitting = false

/-- The type of a frame tells whether it is a reply to an order, and the form is
submitting while one packet of an order is on its way. -/
structure DeskInv (env : Externals) (s : Desk) : Prop where
  orders : ∀ x ∈ s.up, x.order = true → kindOf env x.bytes = .order .place
  others : ∀ x ∈ s.up, x.order = false → kindOf env x.bytes ≠ .order .place ∧ kindOf env x.bytes ≠ .echo
  replies : ∀ x ∈ s.down, strictEq (typeOf x.bytes) "order_response" = x.order
  balance : s.sent = s.answered + s.inFlight.length
  flag : s.inFlight.length = s.form.isSubmitting.toNat

section Messages
variable {env : Externals} {sc : Script}

private theorem respell_number (hn : NumbersAgree env sc) (s : String) :
    ∃ v, (number sc s).respell env.spelling = some v := by
  unfold number
  cases hs : sc.parseFloat s with
  | none => exact ⟨.null, rfl⟩
  | some n =>
    obtain ⟨m, hm⟩ := Option.isSome_iff_exists.mp (hn s n hs)
    exact ⟨.num m, by simp [Json.respell, hm]⟩

/-- The server takes what the form prints for an order to place. -/
theorem kindOf_order (hn : NumbersAgree env sc) (f : OrderForm) (instrument : String) :
    kindOf env (printText (f.order sc instrument)) = .order .place := by
  obtain ⟨amount, ha⟩ := respell_number hn f.amount
  obtain ⟨price, hp⟩ := respell_number hn f.price
  have hv : ∃ v, (f.order sc instrument).respell env.spelling = some v := by
    unfold OrderForm.order object
    by_cases hl : f.orderType = "limit" <;> simp [hl, Json.respell, Json.respellMembers, ha, hp]
  obtain ⟨v, hv⟩ := hv
  apply kindOf_printed hv
  simp [OrderForm.order, object, Json.get?, Operation.type]

end Messages

section Frames
variable {env : Externals} {me : Hdl} {w : World}

private theorem foreign_broadcast {p : Bytes} (h : Broadcasts env p) :
    strictEq (typeOf p) "order_response" = false := by
  obtain ⟨l, hl⟩ := h.dumpedAs
  apply strictEq_of_hasType hl.hasType
  cases l <;> decide

/-- Nothing sent for another message looks like a reply to an order. -/
private theorem foreign_other {m : Bytes} (hp : kindOf env m ≠ .order .place) (he : kindOf env m ≠ .echo) {f : Frame}
    (hf : f ∈ frames (processMessage env ⟨me, m, .text⟩ w).trace) :
    strictEq (typeOf f.payload) "order_response" = false := by
  cases frame_origin hf with
  | failed state => exact strictEq_error _
  | echoed state hk => exact absurd hk he
  | instruments state hk h => exact strictEq_of_hasType (instrumentsReply_typed h).hasType (by decide)
  | @operation op p state hk h =>
    cases op with
    | place => exact absurd hk hp
    | modify | cancel => exact strictEq_edit (by decide) h (by decide)
  | updated hk hd hv _ => exact foreign_broadcast (.refresh hf hv)

private theorem arriving_other {m : Bytes} (hp : kindOf env m ≠ .order .place) (he : kindOf env m ≠ .echo) :
    ∀ y ∈ arriving env me ⟨false, m⟩ w, y.order = false ∧ strictEq (typeOf y.bytes) "order_response" = false := by
  intro y hy
  obtain ⟨f, hf, rfl⟩ := List.mem_map.mp hy
  exact ⟨rfl, foreign_other hp he (List.mem_of_mem_filter hf)⟩

/-- The reply to an order is the first frame that arrives. -/
private theorem arriving_reply {m p : Bytes} (hk : kindOf env m = .order .place) (ho : SenderOpen w)
    (ha : Operation.place.result env m w = .ok p) (hd : decode p ≠ none) :
    ∃ rest : List Frame, arriving env me ⟨true, m⟩ w =
        ⟨true, p⟩ :: (rest.filter (fun f => f.hdl = me && f.queued)).map (fun f => ⟨true && f.via = .reply, f.payload⟩) ∧
      (RefreshOk env (Operation.place.world env m w) → Updates env (Operation.place.world env m w) rest) := by
  have hopen : w.sender.head = .opened := ho 0
  have hq : queues w.sender.head p .text = true := (queues_iff _ _ _).mpr ⟨hopen, fun _ => hd⟩
  obtain ⟨rest, hrest, hu⟩ := @frames_order env ⟨me, m, .text⟩ w _ _ hk ha hq
  refine ⟨rest, ?_, hu⟩
  rw [arriving, hrest, List.filter_cons_of_pos (by simp [replyFrame, hq]), List.map_cons]
  rfl

/-- A readable order brings one reply, and after it only updates. -/
private theorem arriving_order {m : Bytes} (hk : kindOf env m = .order .place) (ho : SenderOpen w)
    (hs : ∀ text, gluedText env m w = some text → Splices text "order_response")
    (hr : RefreshOk env (Operation.place.world env m w)) :
    ∃ p l, arriving env me ⟨true, m⟩ w = ⟨true, p⟩ :: l ∧ HasType p "order_response" ∧
      ∀ y ∈ l, y.order = false ∧ strictEq (typeOf y.bytes) "order_response" = false := by
  have hres : ∃ p, Operation.place.result env m w = .ok p ∧ HasType p "order_response" := by
    rcases place_result env m w with ⟨text, ht, hp⟩ | ⟨j, _, hp, hj⟩
    · exact ⟨_, hp, (hasType_orderError text _).mpr (hs text ht)⟩
    · exact ⟨_, hp, hasType_dump hj⟩
  obtain ⟨p, hp, ht⟩ := hres
  obtain ⟨rest, harr, hu⟩ := @arriving_reply env me w m p hk ho hp ht.decode_ne
  refine ⟨p, _, harr, ht, fun y hy => ?_⟩
  obtain ⟨f, hf, rfl⟩ := List.mem_map.mp hy
  have hf' := List.mem_of_mem_filter hf
  rcases hu hr with rfl | ⟨data, _, rfl⟩
  · cases hf'
  · obtain ⟨hv, hpay⟩ := of_mem_sends hf'
    refine ⟨by simp [hv], ?_⟩
    rw [hpay]
    exact strictEq_of_hasType (hasType_dump (get?_openOrdersUpdate data)) (by decide)

end Frames

section Invariant
variable {env : Externals} {sc : Script} {me : Hdl} {s : Desk}

private theorem inFlight_length (s : Desk) :
    s.inFlight.length = (s.up.filter Packet.order).length + (s.down.filter Packet.order).length := by
  rw [Desk.inFlight, List.filter_append, List.length_append]

private theorem filter_foreign {l : List Packet}
    (h : ∀ y ∈ l, y.order = false ∧ strictEq (typeOf y.bytes) "order_response" = false) :
    l.filter Packet.order = [] := by
  rw [List.filter_eq_nil_iff]
  intro y hy
  simp [(h y hy).1]

private theorem submitted_eq (s : Desk) : s.submitted sc =
    { s with form := { s.form with isSubmitting := true, message := none },
             up := s.up ++ [⟨true, printText (s.form.order sc s.instrument)⟩], sent := s.sent + 1 } := rfl

private theorem deskInv_submitted (hn : NumbersAgree env sc) (hi : DeskInv env s)
    (hs : s.form.isSubmitting = false) : DeskInv env (s.submitted sc) := by
  have hb := hi.balance
  have hf := hi.flag
  rw [hs, inFlight_length, Bool.toNat_false] at hf
  rw [inFlight_length] at hb
  have hk := kindOf_order hn s.form s.instrument
  rw [submitted_eq]
  generalize printText (s.form.order sc s.instrument) = m at hk ⊢
  refine ⟨List.forall_mem_append.mpr ⟨hi.orders, List.forall_mem_singleton.mpr (fun _ => hk)⟩,
    List.forall_mem_append.mpr ⟨hi.others, List.forall_mem_singleton.mpr (fun h => nomatch h)⟩, hi.replies, ?_, ?_⟩
  · simp [inFlight_length]
    omega
  · simp [inFlight_length]
    omega

private theorem deskInv_other (hi : DeskInv env s) {m : Bytes} (hp : kindOf env m ≠ .order .place)
    (he : kindOf env m ≠ .echo) : DeskInv env { s with up := s.up ++ [⟨false, m⟩] } := by
  refine ⟨List.forall_mem_append.mpr ⟨hi.orders, List.forall_mem_singleton.mpr (fun h => nomatch h)⟩,
    List.forall_mem_append.mpr ⟨hi.others, List.forall_mem_singleton.mpr (fun _ => ⟨hp, he⟩)⟩, hi.replies, ?_, ?_⟩
  · simpa [inFlight_length] using hi.balance
  · simpa [inFlight_length] using hi.flag

private theorem deskInv_cast (hi : DeskInv env s) {p : Bytes} (hp : Broadcasts env p) :
    DeskInv env { s with down := s.down ++ [⟨false, p⟩] } := by
  refine ⟨hi.orders, hi.others,
    List.forall_mem_append.mpr ⟨hi.replies, List.forall_mem_singleton.mpr (foreign_broadcast hp)⟩, ?_, ?_⟩
  · simpa [inFlight_length] using hi.balance
  · simpa [inFlight_length] using hi.flag

private theorem deskInv_served (hi : DeskInv env s) {w : World} {x : Packet} {rest : List Packet}
    (hup : s.up = x :: rest) (ho : SenderOpen w) (hg : OrdersReadable env s (.serve w)) :
    DeskInv env (s.served env me x rest w) := by
  unfold Desk.served
  have hx : x ∈ s.up := hup ▸ List.mem_cons_self
  have hrest {y : Packet} (hy : y ∈ rest) : y ∈ s.up := hup ▸ List.mem_cons_of_mem x hy
  have hb := hi.balance
  have hf := hi.flag
  rw [inFlight_length, hup] at hb hf
  rcases x with ⟨order, m⟩
  cases order with
  | false =>
    obtain ⟨hp, he⟩ := hi.others _ hx rfl
    have harr := @arriving_other env me w m hp he
    refine ⟨fun y hy => hi.orders y (hrest hy), fun y hy => hi.others y (hrest hy),
      List.forall_mem_append.mpr ⟨hi.replies, fun y hy => ?_⟩, ?_, ?_⟩
    · rw [(harr y hy).1, (harr y hy).2]
    · simpa [inFlight_length, filter_foreign harr] using hb
    · simpa [inFlight_length, filter_foreign harr] using hf
  | true =>
    have hg' := hg ⟨true, m⟩ (by rw [hup]; rfl) rfl
    obtain ⟨p, l, harr, ht, hl⟩ := @arriving_order env me w m (hi.orders _ hx rfl) ho hg'.1 hg'.2
    rw [harr]
    refine ⟨fun y hy => hi.orders y (hrest hy), fun y hy => hi.others y (hrest hy),
      List.forall_mem_append.mpr ⟨hi.replies, fun y hy => ?_⟩, ?_, ?_⟩
    · rcases List.mem_cons.mp hy with rfl | hy
      · exact (strictEq_typeOf p _).mpr ht
      · rw [(hl y hy).1, (hl y hy).2]
    · simp [inFlight_length, filter_foreign hl] at hb ⊢
      omega
    · simp [inFlight_length, filter_foreign hl] at hf ⊢
      omega

private theorem deskInv_received (hi : DeskInv env s) {x : Packet} {rest : List Packet} (hdown : s.down = x :: rest) :
    DeskInv env (s.received sc x rest) := by
  have hx := hi.replies x (hdown ▸ List.mem_cons_self)
  have hb := hi.balance
  have hf := hi.flag
  rw [inFlight_length, hdown] at hb hf
  refine ⟨hi.orders, hi.others, fun y hy => hi.replies y (hdown ▸ List.mem_cons_of_mem x hy), ?_, ?_⟩
  · rcases x with ⟨order, p⟩
    cases order <;> simp [Desk.received, inFlight_length] at hb ⊢ <;> omega
  · rcases x with ⟨order, p⟩
    cases order with
    | true =>
      have hform := @OrderForm.handleMessage_taken sc p hx s.form
      have hle := Bool.toNat_le s.form.isSubmitting
      rw [List.filter_cons_of_pos rfl, List.length_cons] at hf
      rw [inFlight_length]
      simp only [Desk.received, hform, Bool.toNat_false]
      omega
    | false =>
      have hform := @OrderForm.handleMessage_ignored sc p hx s.form
      simpa [Desk.received, inFlight_length, hform] using hf

theorem deskInv_step (hn : NumbersAgree env sc) {a : DeskAct} {s' : Desk} (hi : DeskInv env s)
    (hg : OrdersReadable env s a) (h : (desk env sc me).step s a s') : DeskInv env s' := by
  cases a with
  | edit amount price orderType direction =>
    obtain rfl := h
    exact ⟨hi.orders, hi.others, hi.replies, hi.balance, hi.flag⟩
  | switchInstrument instrument =>
    obtain rfl := h
    unfold Desk.switched
    split
    · exact hi
    · exact ⟨hi.orders, hi.others, hi.replies, hi.balance, hi.flag⟩
  | submit =>
    obtain ⟨hs, rfl⟩ := h
    exact deskInv_submitted hn hi hs
  | other m =>
    obtain ⟨hp, he, rfl⟩ := h
    exact deskInv_other hi hp he
  | cast p =>
    obtain ⟨hp, rfl⟩ := h
    exact deskInv_cast hi hp
  | serve w =>
    obtain ⟨ho, x, rest, hup, rfl⟩ := h
    exact deskInv_served hi hup ho hg
  | receive =>
    obtain ⟨x, rest, hdown, rfl⟩ := h
    exact deskInv_received hi hdown

private theorem oneInFlight_of_inv (hi : DeskInv env s) : OneInFlight s := by
  have hb := hi.balance
  have hf := hi.flag
  have hle := Bool.toNat_le s.form.isSubmitting
  refine ⟨by omega, ?_, fun h => ?_⟩
  · rw [← Bool.toNat_eq_one, ← hf]
    omega
  · rw [h] at hf
    exact Bool.toNat_eq_zero.mp hf.symm

/-- When every order is answered with a readable reply and refreshed, at most
one is in flight and the form is submitting exactly then. -/
theorem one_order_in_flight (hn : NumbersAgree env sc) {as : List DeskAct}
    (r : (desk env sc me).Run (OrdersReadable env) as s) : OneInFlight s := by
  apply @oneInFlight_of_inv env
  refine r.invariant (DeskInv env) (fun s h => ?_) (fun s a s' hi hg h => deskInv_step hn hi hg h)
  obtain rfl := h
  exact ⟨by simp, by simp, by simp, rfl, rfl⟩

end Invariant

section Sale

/-- The sale as a user enters it. -/
def sellForm : OrderForm := { OrderForm.initial with amount := "10", direction := "sell" }

/-- The sale has been submitted and nothing has been served yet. -/
def sellDesk : Desk :=
  ⟨{ sellForm with isSubmitting := true }, "BTC-PERPETUAL", [⟨true, printText sellOrder⟩], [], 1, 0⟩

private theorem sellForm_order : sellForm.order plainScript "BTC-PERPETUAL" = sellOrder := rfl

theorem numbersAgree_grammar (sc : Script) : NumbersAgree grammarExternals sc := fun _ _ _ => rfl

private theorem sellDesk_run : (desk grammarExternals plainScript 1).Run (OrdersReadable grammarExternals)
    [.switchInstrument "BTC-PERPETUAL", .edit "10" "" "market" "sell", .submit] sellDesk := by
  have r0 : (desk grammarExternals plainScript 1).Run (OrdersReadable grammarExternals) []
      ⟨OrderForm.initial, "", [], [], 0, 0⟩ := .start rfl
  have r1 := r0.next (.switchInstrument "BTC-PERPETUAL") trivial rfl
  have r2 := r1.next (.edit "10" "" "market" "sell") trivial rfl
  refine r2.next .submit trivial ⟨rfl, ?_⟩
  rw [submitted_eq]
  exact congrArg (fun j => (⟨_, _, [⟨true, printText j⟩], [], 1, 0⟩ : Desk)) sellForm_order.symm

end Sale

section Accepted

private theorem gluedText_accepted : gluedText grammarExternals (printText sellOrder) answering = none := by
  obtain ⟨orderData, hc, _⟩ := checkOrder_sellOrder
  have ht : tokenResult grammarExternals answering = .ok answering.accessToken := by
    rw [tokenResult, if_pos answering_fresh]
  have hu : upstreamText grammarExternals (some ⟨200, emptyListing⟩) = none := by
    rw [upstreamText, typed, parse_emptyListing]
    rfl
  exact (gluedText_submitted _ _ _ parse_sellOrder hc ht).trans hu

private theorem world_accepted :
    Operation.place.world grammarExternals (printText sellOrder) answering = answering := by
  obtain ⟨orderData, hc, _⟩ := checkOrder_sellOrder
  exact (world_submitted _ _ _ parse_sellOrder hc).trans submitWorld_answering

/-- The exchange accepts the sale, and the form is submitting until it reads so. -/
theorem accepted_sale_in_flight :
    OneInFlight (sellDesk.served grammarExternals 1 ⟨true, printText sellOrder⟩ [] answering) := by
  refine one_order_in_flight (numbersAgree_grammar plainScript)
    (sellDesk_run.next (.serve answering) ?_ ⟨fun _ => rfl, _, _, rfl, rfl⟩)
  rintro x ⟨⟩ _
  rw [gluedText_accepted, world_accepted]
  exact ⟨by simp, refreshOk_answering⟩

end Accepted

section Rejected

private theorem rejected_reply : ∃ p, Operation.place.result grammarExternals (printText sellOrder) rejecting = .ok p ∧
    decode p ≠ none ∧ strictEq (typeOf p) "order_response" = false := by
  refine ⟨_, result_glued gluedText_rejected, ?_, ?_⟩
  · rw [decode_orderError_ne, rejection, ← encode_append, decode_encode]
    simp
  · rw [Bool.eq_false_iff, ne_eq, strictEq_typeOf, hasType_orderError]
    exact not_splices_rejected "order_response"

/-- The reply to the rejected sale breaks, and the form goes on submitting after
it has read the reply. -/
theorem rejected_sale_never_recovers : ¬ ∀ (env : Externals) (sc : Script) (me : Hdl), NumbersAgree env sc →
    ∀ as s, (desk env sc me).Run Transition.anyStep as s → OneInFlight s := by
  intro h
  obtain ⟨p, hp, hd, hf⟩ := rejected_reply
  obtain ⟨rest, harr, _⟩ := @arriving_reply grammarExternals 1 rejecting _ p kindOf_sellOrder (fun _ => rfl) hp hd
  have r0 : (desk grammarExternals plainScript 1).Run Transition.anyStep _ sellDesk :=
    sellDesk_run.weaken (fun _ _ _ => trivial)
  have r1 := r0.next (.serve rejecting) trivial ⟨fun _ => rfl, ⟨true, printText sellOrder⟩, [], rfl, rfl⟩
  have hdown : (sellDesk.served grammarExternals 1 ⟨true, printText sellOrder⟩ [] rejecting).down =
      arriving grammarExternals 1 ⟨true, printText sellOrder⟩ rejecting := List.nil_append _
  have hlast := h grammarExternals plainScript 1 (numbersAgree_grammar plainScript) _ _
    (r1.next .receive trivial ⟨_, _, hdown.trans harr, rfl⟩)
  have hform := @OrderForm.handleMessage_ignored plainScript p hf { sellForm with isSubmitting := true }
  have hsub := hlast.submitting.mp (congrArg OrderForm.isSubmitting hform)
  cases hsub

end Rejected
end DeribitClientServer.System
