import DeribitClientServer.Server.UpdateFrames

/-! Which payloads are JSON objects with a string type. Broadcasts always are; a
reply is unless an exception reaches the outer catch or a glued text breaks it. -/
namespace DeribitClientServer.Server
open Library Library.JsonText Library.Utf8

/-- The operation's reply can be read: glued text stays inside the object, and
an exception's text can be dumped. -/
def Readable (env : Externals) (payload : Bytes) (w : World) : Operation → Prop
  | .place => ∀ text, gluedText env payload w = some text → ∃ t, Splices text t
  | op => ∀ e, op.raised env payload w = some e → decode e.what ≠ none

/-- A body answered with status 200 parses to what can be given a type. -/
def InstrumentsTyped (env : Externals) (res : Outcome) : Prop :=
  ∀ body, okBody res = some body → ∃ j, typed env "instruments" body = .ok j

/-- The message is well formed, its one reply can be read and sent, and the
refresh that may follow succeeds. -/
structure ReplyOrderly (env : Externals) (msg : Message) (w : World) : Prop where
  formed : kindOf env msg.payload ≠ .malformed
  echo : kindOf env msg.payload = .echo → WireFrame msg.payload
  instruments : ∀ j, kindOf env msg.payload = .instruments j →
    (∃ query, instrumentsQuery env j = .ok query) ∧ InstrumentsTyped env w.api.head
  order : ∀ op, kindOf env msg.payload = .order op →
    Readable env msg.payload w op ∧ RefreshOk env (op.world env msg.payload w)
  opened : kindOf env msg.payload ≠ .unhandled → w.sender.head = .opened

section Payloads
variable {env : Externals} {msg : Message} {w : World}

theorem readable_iff (payload : Bytes) (op : Operation) :
    Readable env payload w op ↔ ∃ p, op.result env payload w = .ok p ∧ WireFrame p := by
  have hedit (hop : op ≠ .place) : (∀ e, op.raised env payload w = some e → decode e.what ≠ none) ↔
      ∃ p, op.result env payload w = .ok p ∧ WireFrame p := by
    rcases edit_result env payload w hop with ⟨p, hp, hd, hr⟩ | ⟨e, e', he, hr, hd⟩
    · exact iff_of_true hr ⟨p, hp, _, hd.hasType⟩
    · exact iff_of_false (fun h => h e hr hd) (by simp [he])
  cases op with
  | modify => exact hedit (by simp)
  | cancel => exact hedit (by simp)
  | place =>
    rcases place_result env payload w with ⟨text, ht, hp⟩ | ⟨j, ht, hp, hj⟩
    · simp [Readable, ht, hp, WireFrame, hasType_orderError]
    · exact iff_of_true (by simp [Readable, ht]) ⟨_, hp, _, hasType_dump hj⟩

theorem instrumentsReply_ok (res : Outcome) :
    InstrumentsTyped env res ↔ ∃ p, instrumentsReply env res = .ok p := by
  unfold InstrumentsTyped instrumentsReply
  cases okBody res with
  | none => exact iff_of_true (by simp) ⟨_, rfl⟩
  | some body => cases ht : typed env "instruments" body <;> simp [ht, Except.map]

theorem instrumentsReply_typed {res : Outcome} {p : Bytes} (h : instrumentsReply env res = .ok p) :
    DumpedAs env p "instruments" := by
  unfold instrumentsReply at h
  cases hb : okBody res with
  | none =>
    rw [hb] at h
    cases h
    exact ⟨_, rfl, by simp [Json.get?]⟩
  | some body =>
    rw [hb] at h
    exact typed_ok env h

private theorem wireFrame_updates {u : List Frame} (hu : Updates env w u) : ∀ f ∈ u, WireFrame f.payload := by
  intro f hf
  rcases hu with rfl | ⟨data, _, rfl⟩
  · cases hf
  · rw [(of_mem_sends hf).2]
    exact ⟨_, hasType_dump (get?_openOrdersUpdate data)⟩

private theorem not_wireFrame_errorFrame (state : SessionState) : ¬ WireFrame (errorFrame msg state).payload :=
  not_wireFrame_error

/-- The reply reached the sender whole, and nothing after it failed. -/
private theorem orderly_iff (hk : kindOf env msg.payload ≠ .unhandled) :
    ReplyOrderly env msg w ↔ ∃ p, answer env msg w (kindOf env msg.payload) = .ok p ∧ WireFrame p ∧
      w.sender.head = .opened ∧ ∀ op, kindOf env msg.payload = .order op → RefreshOk env (op.world env msg.payload w) := by
  constructor
  · intro h
    have ho := h.opened hk
    cases hkind : kindOf env msg.payload with
    | malformed => exact absurd hkind h.formed
    | unhandled => exact absurd hkind hk
    | echo => exact ⟨_, rfl, h.echo hkind, ho, by simp⟩
    | instruments j =>
      obtain ⟨⟨query, hq⟩, ht⟩ := h.instruments j hkind
      obtain ⟨p, hp⟩ := (instrumentsReply_ok _).mp ht
      exact ⟨p, by simp only [answer, hq]; exact hp, ⟨_, (instrumentsReply_typed hp).hasType⟩, ho, by simp⟩
    | order op =>
      obtain ⟨hread, hr⟩ := h.order op hkind
      obtain ⟨p, hp, hw⟩ := (readable_iff _ _).mp hread
      refine ⟨p, hp, hw, ho, ?_⟩
      rintro _ ⟨⟩
      exact hr
  · rintro ⟨p, hp, hw, ho, hr⟩
    refine ⟨?_, ?_, ?_, ?_, fun _ => ho⟩
    · intro hm
      simp [hm, answer] at hp
    · intro he
      simp only [he, answer, Except.ok.injEq] at hp
      exact hp ▸ hw
    · intro j hj
      simp only [hj, answer] at hp
      cases hq : instrumentsQuery env j with
      | error e => rw [hq] at hp; cases hp
      | ok query =>
        rw [hq] at hp
        exact ⟨⟨query, rfl⟩, (instrumentsReply_ok _).mpr ⟨p, hp⟩⟩
    · intro op hop
      simp only [hop, answer] at hp
      exact ⟨(readable_iff _ _).mpr ⟨p, hp, hw⟩, hr op hop⟩

/-- Every payload of a handled message is wire format exactly when its reply is orderly. -/
theorem payloads_processMessage :
    (∀ p ∈ payloads (processMessage env msg w).trace, WireFrame p) ↔ ReplyOrderly env msg w := by
  have hh := processMessage_handled env msg w
  unfold payloads
  generalize frames (processMessage env msg w).trace = fs at hh
  rw [List.forall_mem_map]
  cases hh with
  | ignored hk => exact iff_of_true (by simp) ⟨by simp [hk], by simp [hk], by simp [hk], by simp [hk], by simp [hk]⟩
  | failed e hk ha =>
    rw [orderly_iff hk]
    exact iff_of_false (fun h => not_wireFrame_errorFrame _ (h (errorFrame msg w.sender.head) (by simp))) (by simp [ha])
  | refused ha hq =>
    have hk : kindOf env msg.payload ≠ .unhandled := by
      intro hk
      simp [hk, answer] at ha
    rw [orderly_iff hk]
    refine iff_of_false (fun h => not_wireFrame_errorFrame _ (h (errorFrame msg w.sender.tail.head) (by simp))) ?_
    rintro ⟨p, hp, ⟨t, ht⟩, ho, _⟩
    rw [ha, Except.ok.injEq] at hp
    subst hp
    rw [ho, (queues_iff _ _ _).mpr ⟨rfl, fun _ => ht.decode_ne⟩] at hq
    cases hq
  | answered hk ha hq =>
    have hu : kindOf env msg.payload ≠ .unhandled := by
      intro hu
      simp [hu, answer] at ha
    rw [orderly_iff hu]
    simp [ha, replyFrame, ((queues_iff _ _ _).mp hq).1, hk]
  | updated hk ha hq hu hr =>
    rw [orderly_iff (by simp [hk]), hk]
    simp only [answer, ha, Except.ok.injEq, Kind.order.injEq]
    constructor
    · intro h
      exact ⟨_, rfl, h _ List.mem_cons_self, ((queues_iff _ _ _).mp hq).1, by rintro _ rfl; exact hr⟩
    · rintro ⟨p, rfl, hw, _, _⟩ f hf
      rcases List.mem_cons.mp hf with rfl | hf
      · exact hw
      · exact wireFrame_updates hu f hf
  | unrefreshed hk ha hq hu hr =>
    rw [orderly_iff (by simp [hk])]
    refine iff_of_false (fun h => not_wireFrame_errorFrame _ (h (errorFrame msg w.sender.tail.head) (by simp))) ?_
    rintro ⟨_, _, _, _, hall⟩
    exact hr (hall _ hk)

/-- All frames of messages and broadcasts are wire format exactly when the reply
to the message is orderly; the broadcasts of the threads always are. -/
theorem wireFormat_iff (env : Externals) (msg : Message) (w : World) :
    ((∀ p ∈ payloads (processMessage env msg w).trace, WireFrame p) ∧
      ∀ supported as s, (updateLoops env supported).Run Transition.anyStep as s →
        ∀ l : Loop, ∀ p ∈ payloads (l.turn env supported s.world).trace, WireFrame p) ↔
      ReplyOrderly env msg w := by
  rw [payloads_processMessage, and_iff_left]
  intro supported as s r l p hp
  obtain ⟨f, hf, rfl⟩ := List.mem_map.mp hp
  exact ⟨_, (turn_frames (template_typed r) hf).2.hasType⟩

end Payloads

section Rejection

def rejection : Response := ⟨400, encode "\x7b\"error\":1\x7d"⟩

/-- A token is cached, and every call is rejected with a JSON body. -/
def rejecting : World := { tokenCached with api := .const (some rejection) }

/-- The body of an answer that is not a success is glued as it is. -/
theorem gluedText_refused {r : Response} (hs : r.status ≠ 200) :
    gluedText grammarExternals (printText sellOrder) { tokenCached with api := .const (some r) } =
      some (encode "Failed to process order: " ++ r.body) := by
  obtain ⟨orderData, hc, _⟩ := checkOrder_sellOrder
  have hf : TokenFresh { tokenCached with api := .const (some r) } := tokenCached_fresh
  have ht : tokenResult grammarExternals { tokenCached with api := .const (some r) } = .ok tokenCached.accessToken := by
    rw [tokenResult, if_pos hf]
  have hu : upstreamText grammarExternals (some r) = some (encode "Failed to process order: " ++ r.body) := by
    simp only [upstreamText, if_neg hs]
  exact (gluedText_submitted _ _ _ parse_sellOrder hc ht).trans hu

theorem gluedText_rejected : gluedText grammarExternals (printText sellOrder) rejecting =
    some (encode "Failed to process order: " ++ rejection.body) :=
  gluedText_refused (by decide)

theorem kindOf_sellOrder : kindOf grammarExternals (printText sellOrder) = .order .place := by
  rw [kindOf, parse_sellOrder]
  rfl

theorem not_splices_rejected (t : String) :
    ¬ Splices (encode "Failed to process order: " ++ rejection.body) t := by
  rintro ⟨s, ms, k, acc, hs, hr, _⟩
  rw [rejection, ← encode_append, decode_encode, Option.some_inj] at hs
  subst hs
  have hcs : ("Failed to process order: " ++ "\x7b\"error\":1\x7d").toList =
      "Failed to process order: \x7b".toList ++ '"' :: 'e' :: "rror\":1\x7d".toList := by decide
  have hplain : PlainText "Failed to process order: \x7b".toList := by
    apply plainText_of_all
    decide
  rw [hcs, run_broken _ _ _ _ _ _ hplain ⟨rfl, by decide, by decide⟩] at hr
  cases hr

/-- The rejected order's body is glued between quotes and breaks the reply. -/
theorem rejected_order_breaks_frame :
    ¬ ∀ env msg w, ∀ p ∈ payloads (processMessage env msg w).trace, WireFrame p := by
  intro h
  have ho : ReplyOrderly grammarExternals ⟨1, printText sellOrder, .text⟩ rejecting :=
    payloads_processMessage.mp (h _ _ _)
  obtain ⟨t, ht⟩ := (ho.order .place kindOf_sellOrder).1 _ gluedText_rejected
  exact not_splices_rejected t ht

end Rejection
end DeribitClientServer.Server
