import DeribitClientServer.Server.UpdateFrames

/-! Where frames come from: a reply to the message being handled, an update that
an order operation broadcasts, or a turn of an update thread. -/
namespace DeribitClientServer.Server
open Library Library.JsonText Library.Utf8

/-- What a frame sent while a message is handled can be. -/
inductive Origin (env : Externals) (msg : Message) (w : World) : Frame → Prop where
  | failed (state : SessionState) : Origin env msg w (errorFrame msg state)
  | echoed (state : SessionState) (hk : kindOf env msg.payload = .echo) :
      Origin env msg w (replyFrame msg msg.payload state)
  | instruments {j : Json} {p : Bytes} (state : SessionState) (hk : kindOf env msg.payload = .instruments j)
      (h : instrumentsReply env w.api.head = .ok p) : Origin env msg w (replyFrame msg p state)
  | operation {op : Operation} {p : Bytes} (state : SessionState) (hk : kindOf env msg.payload = .order op)
      (h : op.result env msg.payload w = .ok p) : Origin env msg w (replyFrame msg p state)
  | updated {op : Operation} {data : Json} {f : Frame} (hk : kindOf env msg.payload = .order op)
      (hd : Fetched env (op.world env msg.payload w) data)
      (hv : f.via = .broadcast) (hp : f.payload = env.dump (openOrdersUpdate data)) : Origin env msg w f

section Origins
variable {env : Externals} {msg : Message} {w : World}

private theorem origin_answer {p : Bytes} (ha : answer env msg w (kindOf env msg.payload) = .ok p)
    (state : SessionState) : Origin env msg w (replyFrame msg p state) := by
  cases hk : kindOf env msg.payload with
  | malformed | unhandled => simp [hk, answer] at ha
  | echo =>
    simp only [hk, answer, Except.ok.injEq] at ha
    exact ha ▸ .echoed state hk
  | instruments j =>
    simp only [hk, answer] at ha
    cases hq : instrumentsQuery env j with
    | error e => rw [hq] at ha; cases ha
    | ok query =>
      rw [hq] at ha
      exact .instruments state hk ha
  | order op =>
    simp only [hk, answer] at ha
    exact .operation state hk ha

private theorem origin_updates {op : Operation} {u : List Frame} {f : Frame} (hk : kindOf env msg.payload = .order op)
    (hu : Updates env (op.world env msg.payload w) u) (hf : f ∈ u) : Origin env msg w f := by
  rcases hu with rfl | ⟨data, hd, rfl⟩
  · cases hf
  · obtain ⟨hv, hp⟩ := of_mem_sends hf
    exact .updated hk hd hv hp

/-- Every frame of a handled message has an origin. -/
theorem frame_origin {f : Frame} (h : f ∈ frames (processMessage env msg w).trace) : Origin env msg w f := by
  have hh := processMessage_handled env msg w
  generalize frames (processMessage env msg w).trace = fs at hh h
  cases hh with
  | ignored _ => cases h
  | failed e _ _ =>
    obtain rfl := List.mem_singleton.mp h
    exact .failed _
  | refused ha _ =>
    rcases List.mem_cons.mp h with rfl | h
    · exact origin_answer ha _
    · obtain rfl := List.mem_singleton.mp h
      exact .failed _
  | answered _ ha _ =>
    obtain rfl := List.mem_singleton.mp h
    exact origin_answer ha _
  | updated hk ha _ hu _ =>
    rcases List.mem_cons.mp h with rfl | h
    · exact .operation _ hk ha
    · exact origin_updates hk hu h
  | unrefreshed hk ha _ hu _ =>
    rcases List.mem_cons.mp h with rfl | h
    · exact .operation _ hk ha
    · rcases List.mem_append.mp h with h | h
      · exact origin_updates hk hu h
      · obtain rfl := List.mem_singleton.mp h
        exact .failed _

/-- The reply to a message is handed to send. -/
theorem answer_mem_payloads {p : Bytes} (ha : answer env msg w (kindOf env msg.payload) = .ok p) :
    p ∈ payloads (processMessage env msg w).trace := by
  have hh := processMessage_handled env msg w
  unfold payloads
  generalize frames (processMessage env msg w).trace = fs at hh
  cases hh with
  | ignored hk => simp [hk, answer] at ha
  | failed e _ he => simp [ha] at he
  | refused ha' _ | answered _ ha' _ =>
    rw [ha, Except.ok.injEq] at ha'
    simp [replyFrame, ha']
  | updated hk ha' _ _ _ | unrefreshed hk ha' _ _ _ =>
    simp only [hk, answer, ha', Except.ok.injEq] at ha
    simp [replyFrame, ha]

/-- An order operation whose reply can be sent sends it first. -/
theorem frames_order {op : Operation} {p : Bytes} (hk : kindOf env msg.payload = .order op)
    (ha : op.result env msg.payload w = .ok p) (hq : queues w.sender.head p msg.opcode = true) :
    ∃ rest, frames (processMessage env msg w).trace = replyFrame msg p w.sender.head :: rest ∧
      (RefreshOk env (op.world env msg.payload w) → Updates env (op.world env msg.payload w) rest) := by
  have hans : answer env msg w (kindOf env msg.payload) = .ok p := by
    rw [hk]
    exact ha
  have hh := processMessage_handled env msg w
  generalize frames (processMessage env msg w).trace = fs at hh
  cases hh with
  | ignored hk' => simp [hk] at hk'
  | failed e _ he => simp [hans] at he
  | refused ha' hq' =>
    rw [hans, Except.ok.injEq] at ha'
    subst ha'
    simp [hq] at hq'
  | answered hk' _ _ => exact absurd hk (hk' op)
  | @updated op' p' u hk' ha' _ hu _ =>
    rw [hk, Kind.order.injEq] at hk'
    subst hk'
    rw [ha, Except.ok.injEq] at ha'
    subst ha'
    exact ⟨u, rfl, fun _ => hu⟩
  | @unrefreshed op' p' u hk' ha' _ _ hr =>
    rw [hk, Kind.order.injEq] at hk'
    subst hk'
    rw [ha, Except.ok.injEq] at ha'
    subst ha'
    exact ⟨_, rfl, fun h => absurd h hr⟩

/-- What an order operation sends after its first frame is the error text or the update. -/
theorem frame_later {op : Operation} (hk : kindOf env msg.payload = .order op) {f : Frame}
    (h : f ∈ (frames (processMessage env msg w).trace).tail) :
    f.payload = encode "Internal server error" ∨ DumpedAs env f.payload "open_orders_update" := by
  have hupdate {op : Operation} {u : List Frame} (hk' : kindOf env msg.payload = .order op)
      (hu : Updates env (op.world env msg.payload w) u) (hf : f ∈ u) : DumpedAs env f.payload "open_orders_update" := by
    rcases hu with rfl | ⟨data, _, rfl⟩
    · cases hf
    · exact ⟨_, (of_mem_sends hf).2, get?_openOrdersUpdate data⟩
  have hh := processMessage_handled env msg w
  generalize frames (processMessage env msg w).trace = fs at hh h
  cases hh with
  | ignored _ | failed _ _ _ => cases h
  | refused _ _ =>
    obtain rfl := List.mem_singleton.mp h
    exact .inl rfl
  | answered hk' _ _ => exact absurd hk (hk' op)
  | updated hk' _ _ hu _ => exact .inr (hupdate hk' hu h)
  | unrefreshed hk' _ _ hu _ =>
    rcases List.mem_append.mp h with h | h
    · exact .inr (hupdate hk' hu h)
    · obtain rfl := List.mem_singleton.mp h
      exact .inl rfl

/-- Where the refresh after it goes through, an order operation sends its reply and then the update. -/
theorem frames_updated {op : Operation} {p : Bytes} {data : Json} (hk : kindOf env msg.payload = .order op)
    (ha : op.result env msg.payload w = .ok p) (hq : queues w.sender.head p msg.opcode = true)
    (hr : RefreshOk env (op.world env msg.payload w)) (hd : Fetched env (op.world env msg.payload w) data) :
    frames (processMessage env msg w).trace = replyFrame msg p w.sender.head ::
      frames (sends (env.dump (openOrdersUpdate data)) (op.world env msg.payload w).members.head) := by
  have hs : (op.world env msg.payload w).sender = w.sender := (op.frame env msg.payload w).1
  have hf : frames (op.trace env msg.payload w) = [] := frames_operation env w op msg.payload
  have hok : (broadcastOpenOrdersUpdate env { op.world env msg.payload w with sender := w.sender.tail }).result = .ok () :=
    (refresh_run env _).1.mpr ⟨hr.token, hr.parses, hr.opened⟩
  have hu := frames_refresh env { op.world env msg.payload w with sender := w.sender.tail } hd
  rw [processMessage_eq, hk]
  simp only [serve, replyAndUpdate, Exec.run_bind, Operation.handler_run, ha, Ran.andThen_ok, reply_run, hs,
    (sendResult_ok _ _ _).mpr hq]
  rcases hR : broadcastOpenOrdersUpdate env { op.world env msg.payload w with sender := w.sender.tail } with ⟨x, s, t⟩
  rw [hR] at hok hu
  obtain rfl : x = .ok () := hok
  simpa [hf, replyFrame, hq] using hu

/-- With one open connection registered, the update is queued for it. -/
theorem frames_oneMember {hdl member : Hdl} {payload p : Bytes} {op : Operation} {data : Json}
    (hk : kindOf env payload = .order op) (ha : op.result env payload w = .ok p) (hp : decode p ≠ none)
    (ho : w.sender.head = .opened) (hr : RefreshOk env (op.world env payload w))
    (hd : Fetched env (op.world env payload w) data) (hm : (op.world env payload w).members.head = [(member, .opened)]) :
    frames (processMessage env ⟨hdl, payload, .text⟩ w).trace =
      [⟨.reply, hdl, p, true⟩, ⟨.broadcast, member, env.dump (openOrdersUpdate data), true⟩] := by
  have hq : ∀ b, decode b ≠ none → queues .opened b .text = true := fun b hb => (queues_iff _ _ _).mpr ⟨rfl, fun _ => hb⟩
  have hframes := @frames_updated env ⟨hdl, payload, .text⟩ w op p data hk ha (ho ▸ hq p hp) hr hd
  have hreply : replyFrame ⟨hdl, payload, .text⟩ p .opened = ⟨.reply, hdl, p, true⟩ :=
    congrArg (Frame.mk .reply hdl p) (hq p hp)
  have hupdate : frames (sends (env.dump (openOrdersUpdate data)) [(member, .opened)]) =
      [⟨.broadcast, member, env.dump (openOrdersUpdate data), true⟩] := by
    rw [sends, hq _ (decode_dump_ne env (openOrdersUpdate data))]
    rfl
  rw [hframes, hm, ho, hreply, hupdate]

/-- An echo is all that a message of its type brings. -/
theorem frames_echo (hk : kindOf env msg.payload = .echo) (hq : queues w.sender.head msg.payload msg.opcode = true) :
    frames (processMessage env msg w).trace = [replyFrame msg msg.payload w.sender.head] := by
  have hh := processMessage_handled env msg w
  generalize frames (processMessage env msg w).trace = fs at hh
  cases hh with
  | ignored hk' => simp [hk] at hk'
  | failed e _ ha => simp [hk, answer] at ha
  | refused ha hq' =>
    simp only [hk, answer, Except.ok.injEq] at ha
    simp [← ha, hq] at hq'
  | answered _ ha _ =>
    simp only [hk, answer, Except.ok.injEq] at ha
    rw [ha]
  | updated hk' _ _ _ _ | unrefreshed hk' _ _ _ _ => simp [hk] at hk'

end Origins

/-- A payload some thread broadcasts: an update thread in a turn, or the io
thread after an order operation. -/
inductive Broadcasts (env : Externals) : Bytes → Prop where
  | turn {supported : List String} {as : List Act} {s : Threads} {l : Loop} {f : Frame}
      (r : (updateLoops env supported).Run Transition.anyStep as s)
      (hf : f ∈ frames (l.turn env supported s.world).trace) : Broadcasts env f.payload
  | refresh {msg : Message} {w : World} {f : Frame} (hf : f ∈ frames (processMessage env msg w).trace)
      (hv : f.via = .broadcast) : Broadcasts env f.payload

/-- Every broadcast payload is dumped with the type of an update. -/
theorem Broadcasts.dumpedAs {env : Externals} {p : Bytes} (h : Broadcasts env p) :
    ∃ l : Loop, DumpedAs env p l.updateType := by
  cases h with
  | @turn supported as s l f r hf => exact ⟨l, (turn_frames (template_typed r) hf).2⟩
  | @refresh msg w f hf hv =>
    cases frame_origin hf with
    | failed state | echoed state _ | instruments state _ _ | operation state _ _ => cases hv
    | updated _ _ _ hp => exact ⟨.openOrders, _, hp, get?_openOrdersUpdate _⟩

section Printed
variable {env : Externals} {j v : Json}

/-- A printed message is dispatched by the type that was printed. -/
theorem kindOf_printed (hv : j.respell env.spelling = some v) {op : Operation}
    (ht : j.get? "type" = some (.str op.type)) : kindOf env (printText j) = .order op := by
  have hs : stringMember env v.canon "type" = .ok op.type := by
    have hc : v.canon.get? "type" = some (.str op.type) := by
      rw [Json.get?_canon, Json.get?_respell hv, ht]
      simp [Json.respell]
    exact stringMember_ok_iff.mpr hc
  rw [kindOf, parseJson_printed env hv]
  simp only [hs]
  cases op <;> rfl

end Printed
end DeribitClientServer.Server
