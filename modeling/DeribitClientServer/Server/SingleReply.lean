import DeribitClientServer.Server.Replies

/-! Replies to one message. The reply and the refresh after it share one catch,
so a refresh that fails answers the same message a second time. -/
namespace DeribitClientServer.Server
open Library Library.JsonText Library.Utf8

def Frame.isReply (f : Frame) : Bool := f.via = .reply && f.queued

/-- The receivers of the frames sent that are not part of a broadcast. -/
def replies (t : List Event) : List Hdl := ((frames t).filter Frame.isReply).map Frame.hdl

def OneReply (env : Externals) (msg : Message) (w : World) : Prop :=
  replies (processMessage env msg w).trace = [msg.hdl]

/-- No ill-formed text keeps the operation's reply from being sent. -/
def Answerable (env : Externals) (msg : Message) (w : World) : Operation → Prop
  | .place => ∀ text, gluedText env msg.payload w = some text → msg.opcode = .text → decode text ≠ none
  | op => ∀ e, op.raised env msg.payload w = some e → decode e.what ≠ none

section Counting
variable {env : Externals} {msg : Message} {w : World}

theorem answerable_iff (op : Operation) :
    Answerable env msg w op ↔ ∃ p, op.result env msg.payload w = .ok p ∧ queues .opened p msg.opcode = true := by
  have hedit (hop : op ≠ .place) : (∀ e, op.raised env msg.payload w = some e → decode e.what ≠ none) ↔
      ∃ p, op.result env msg.payload w = .ok p ∧ queues .opened p msg.opcode = true := by
    rcases edit_result env msg.payload w hop with ⟨p, hp, hd, hr⟩ | ⟨e, e', he, hr, hd⟩
    · exact iff_of_true hr ⟨p, hp, (queues_iff _ _ _).mpr ⟨rfl, fun _ => hd.decode_ne⟩⟩
    · exact iff_of_false (fun h => h e hr hd) (by simp [he])
  cases op with
  | modify => exact hedit (by simp)
  | cancel => exact hedit (by simp)
  | place =>
    rcases place_result env msg.payload w with ⟨text, ht, hp⟩ | ⟨j, ht, hp, _⟩
    · simp [Answerable, ht, hp, queues_iff, decode_orderError_ne]
    · simp [Answerable, ht, hp, queues_iff, decode_dump_ne]

private theorem filter_updates {u : List Frame} (hu : Updates env w u) : u.filter Frame.isReply = [] := by
  rcases hu with rfl | ⟨data, _, rfl⟩
  · rfl
  · rw [List.filter_eq_nil_iff]
    intro f hf
    simp [Frame.isReply, (of_mem_sends hf).1]

@[simp] private theorem isReply_replyFrame (p : Bytes) (state : SessionState) :
    (replyFrame msg p state).isReply = queues state p msg.opcode := by
  simp [Frame.isReply, replyFrame]

@[simp] private theorem isReply_errorFrame : (errorFrame msg .opened).isReply = true := by
  simp [errorFrame, queues_encode]

private theorem hdl_replyFrame (p : Bytes) (state : SessionState) : (replyFrame msg p state).hdl = msg.hdl := rfl

private theorem hdl_errorFrame (state : SessionState) : (errorFrame msg state).hdl = msg.hdl := rfl

/-- A handled message is answered once unless the refresh after its reply fails. -/
theorem replies_processMessage (hk : kindOf env msg.payload ≠ .unhandled) (ho : SenderOpen w) :
    (replies (processMessage env msg w).trace = [msg.hdl] ∧ ∀ op, kindOf env msg.payload = .order op →
        Answerable env msg w op → RefreshOk env (op.world env msg.payload w)) ∨
      replies (processMessage env msg w).trace = [msg.hdl, msg.hdl] ∧ ∃ op, kindOf env msg.payload = .order op ∧
        Answerable env msg w op ∧ ¬ RefreshOk env (op.world env msg.payload w) := by
  have h0 : w.sender.head = .opened := ho 0
  have h1 : w.sender.tail.head = .opened := ho 1
  have hh := processMessage_handled env msg w
  unfold replies
  generalize frames (processMessage env msg w).trace = fs at hh
  cases hh with
  | ignored hk' => exact absurd hk' hk
  | failed e _ ha =>
    refine .inl ⟨by simp [h0, hdl_errorFrame], fun op hop han => ?_⟩
    obtain ⟨p, hp, _⟩ := (answerable_iff op).mp han
    simp [hop, answer, hp] at ha
  | refused ha hq =>
    refine .inl ⟨by simp only [h0, h1] at hq ⊢; simp [hq, hdl_errorFrame], fun op hop han => ?_⟩
    obtain ⟨p, hp, hq'⟩ := (answerable_iff op).mp han
    simp only [hop, answer, hp, Except.ok.injEq] at ha
    subst ha
    simp [h0, hq'] at hq
  | answered hk' ha hq => exact .inl ⟨by simp [hq, hdl_replyFrame], fun op hop _ => absurd hop (hk' op)⟩
  | updated hk' ha hq hu hr =>
    refine .inl ⟨by simp [hq, hdl_replyFrame, filter_updates hu], fun op hop _ => ?_⟩
    rw [hk', Kind.order.injEq] at hop
    exact hop ▸ hr
  | unrefreshed hk' ha hq hu hr =>
    refine .inr ⟨?_, _, hk', (answerable_iff _).mpr ⟨_, ha, h0 ▸ hq⟩, hr⟩
    rw [h1]
    simp [hq, hdl_replyFrame, hdl_errorFrame, filter_updates hu]

/-- Every message gets exactly one reply, except an order operation that was
answered and whose refresh then fails for want of a token, a parsable answer or
an open connection: that one gets two. -/
theorem oneReply_iff (hk : kindOf env msg.payload ≠ .unhandled) (ho : SenderOpen w) :
    OneReply env msg w ↔ ∀ op, kindOf env msg.payload = .order op → Answerable env msg w op →
      RefreshOk env (op.world env msg.payload w) := by
  unfold OneReply
  rcases replies_processMessage hk ho with ⟨hone, h⟩ | ⟨htwo, op, hop, ha, hr⟩
  · exact iff_of_true hone h
  · exact iff_of_false (by simp [htwo]) (fun h => hr (h op hop ha))

end Counting

section Once

/-- A request to cancel an order. -/
def cancelOrder : Message :=
  ⟨1, printText (.obj [("data", .obj [("order_id", .str "BTC-1")]), ("type", .str "cancel_order")]), .text⟩

private theorem parse_cancelOrder : parseJson grammarExternals cancelOrder.payload =
    .ok (.obj [("data", .obj [("order_id", .str "BTC-1")]), ("type", .str "cancel_order")]) :=
  parseJson_printed grammarExternals (Json.respell_some _)

theorem kindOf_cancelOrder : kindOf grammarExternals cancelOrder.payload = .order .cancel := by
  rw [kindOf, parse_cancelOrder]
  rfl

/-- An operation that is submitted meets a world with a cached token, answers and one open connection. -/
theorem world_answering {op : Operation} {payload : Bytes} {path : String} {body : Json}
    {outcome : Outcome → Except Exn Bytes} (hi : op.intake grammarExternals payload = .submitted path body outcome) :
    op.world grammarExternals payload answering = answering := by
  rw [Operation.world, hi]
  exact submitWorld_answering

/-- Its answer is the empty listing, with the type of the reply. -/
theorem result_answering {op : Operation} {payload : Bytes} {path t : String} {body : Json}
    (hi : op.intake grammarExternals payload = .submitted path body (editOutcome grammarExternals t)) :
    op.result grammarExternals payload answering =
      .ok (grammarExternals.dump ((Json.obj [("result", .arr [])]).set "type" (.str t))) := by
  have ht : tokenResult grammarExternals answering = .ok answering.accessToken := by
    rw [tokenResult, if_pos answering_fresh]
  have hb : okBody answering.api.head = some emptyListing := rfl
  refine result_submitted _ _ _ hi ht ?_
  simp only [editOutcome, hb, typed, parse_emptyListing]
  rfl

private theorem intake_cancelOrder : Operation.cancel.intake grammarExternals cancelOrder.payload =
    .submitted "/api/v2/private/cancel" (cancelRequest "BTC-1") (editOutcome grammarExternals "cancel_response") := by
  rw [Operation.intake, cancelIntake, parse_cancelOrder]
  rfl

theorem world_cancelOrder : Operation.cancel.world grammarExternals cancelOrder.payload answering = answering :=
  world_answering intake_cancelOrder

theorem result_cancelOrder : Operation.cancel.result grammarExternals cancelOrder.payload answering =
    .ok (grammarExternals.dump (.obj [("result", .arr []), ("type", .str "cancel_response")])) := by
  have hset : (Json.obj [("result", .arr [])]).set "type" (.str "cancel_response") =
      .obj [("result", .arr []), ("type", .str "cancel_response")] := rfl
  rw [← hset]
  exact result_answering intake_cancelOrder

theorem answerable_cancelOrder : Answerable grammarExternals cancelOrder answering .cancel :=
  (answerable_iff .cancel).mpr ⟨_, result_cancelOrder, (queues_iff _ _ _).mpr ⟨rfl, fun _ => decode_dump_ne _ _⟩⟩

/-- An order is cancelled and the refresh after it reaches a connection: one reply. -/
theorem cancelOrder_oneReply : Answerable grammarExternals cancelOrder answering .cancel ∧
    RefreshOk grammarExternals (Operation.cancel.world grammarExternals cancelOrder.payload answering) ∧
    OneReply grammarExternals cancelOrder answering := by
  have hr : RefreshOk grammarExternals (Operation.cancel.world grammarExternals cancelOrder.payload answering) := by
    rw [world_cancelOrder]
    exact refreshOk_answering
  refine ⟨answerable_cancelOrder, hr, (oneReply_iff ?_ fun _ => rfl).mpr fun op hop _ => ?_⟩
  · rw [kindOf_cancelOrder]
    simp
  · rw [kindOf_cancelOrder, Kind.order.injEq] at hop
    exact hop ▸ hr

end Once

section Twice

/-- A request to place an order that carries no data. -/
def emptyOrder : Message := ⟨1, printText (.obj [("type", .str "place_order")]), .text⟩

private theorem parse_emptyOrder :
    parseJson grammarExternals emptyOrder.payload = .ok (.obj [("type", .str "place_order")]) := by
  unfold parseJson emptyOrder
  rw [grammarExternals.parse_printed _ _ (Json.respell_some _)]
  rfl

private theorem kindOf_emptyOrder : kindOf grammarExternals emptyOrder.payload = .order .place := by
  rw [kindOf, parse_emptyOrder]
  rfl

private theorem result_emptyOrder : Operation.place.intake grammarExternals emptyOrder.payload =
    .answered (.ok (orderError (encode "Invalid order format: 'data' field missing"))) := by
  rw [Operation.intake, orderIntake, parse_emptyOrder]
  rfl

private theorem answerable_emptyOrder : Answerable grammarExternals emptyOrder idleWorld .place := by
  refine (answerable_iff .place).mpr ⟨_, by rw [Operation.result, result_emptyOrder]; rfl, ?_⟩
  rw [queues_iff]
  exact ⟨rfl, fun _ => (decode_orderError_ne _).mpr (by simp)⟩

private theorem not_refreshOk_emptyOrder :
    ¬ RefreshOk grammarExternals (Operation.place.world grammarExternals emptyOrder.payload idleWorld) := by
  rw [Operation.world, result_emptyOrder]
  exact fun h => not_tokenAvailable grammarExternals idleWorld rfl rfl h.token

/-- Without a token the refresh fails, and the order is answered twice. -/
theorem emptyOrder_answered_twice :
    ¬ ∀ env msg w, kindOf env msg.payload ≠ .unhandled → SenderOpen w → OneReply env msg w := by
  intro h
  have hk : kindOf grammarExternals emptyOrder.payload ≠ .unhandled := by simp [kindOf_emptyOrder]
  have ho : SenderOpen idleWorld := fun _ => rfl
  have hone := h grammarExternals emptyOrder idleWorld hk ho
  rcases replies_processMessage hk ho with ⟨_, hall⟩ | ⟨htwo, _⟩
  · exact not_refreshOk_emptyOrder (hall .place kindOf_emptyOrder answerable_emptyOrder)
  · rw [OneReply, htwo] at hone
    simp at hone

end Twice
end DeribitClientServer.Server
