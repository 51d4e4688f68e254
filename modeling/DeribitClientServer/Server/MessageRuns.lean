import DeribitClientServer.Server.Dispatch

/-! What handling one message sends. The kind of a message fixes its reply, and
how the reply and the refresh after it end fixes the frames. -/
namespace DeribitClientServer.Server
open Library Library.Utf8

inductive Kind where
  | malformed
  | echo
  | instruments (j : Json)
  | order (op : Operation)
  | unhandled

def kindOf (env : Externals) (payload : Bytes) : Kind :=
  match parseJson env payload with
  | .error _ => .malformed
  | .ok j =>
      match stringMember env j "type" with
      | .error _ => .malformed
      | .ok type =>
          if type = "echo" then .echo
          else if type = "get_instruments" then .instruments j
          else if type = "modify_order" then .order .modify
          else if type = "cancel_order" then .order .cancel
          else if type = "place_order" then .order .place
          else .unhandled

/-- The payload is a message of this type. -/
def IsMessage (env : Externals) (payload : Bytes) (type : String) (j : Json) : Prop :=
  parseJson env payload = .ok j ∧ j.get? "type" = some (.str type)

theorem kindOf_order_iff {env : Externals} {payload : Bytes} {op : Operation} :
    kindOf env payload = .order op ↔ ∃ j, IsMessage env payload op.type j := by
  unfold kindOf IsMessage
  cases hp : parseJson env payload with
  | error e => simp
  | ok j =>
    cases ht : stringMember env j "type" with
    | error e =>
      simp only [Except.ok.injEq, exists_eq_left', ht]
      refine iff_of_false (by simp) (fun h => ?_)
      rw [stringMember_ok_iff.mpr h] at ht
      cases ht
    | ok type =>
      have h := stringMember_ok_iff.mp ht
      simp only [Except.ok.injEq, exists_eq_left', ht, h, Option.some_inj, Json.str.injEq]
      cases op <;> simp only [Operation.type] <;> split_ifs <;> simp_all

def instrumentsQuery (env : Externals) (j : Json) : Except Exn (String × String) := do
  let currency ← stringMember env j "currency"
  let kind ← stringMember env j "kind"
  pure (currency, kind)

section Runs
variable (env : Externals) (msg : Message) (w : World)

/-- What is run under the catch of process_message. -/
def serve : Kind → Program Unit
  | .malformed => throw ⟨[]⟩
  | .echo => reply msg.hdl msg.payload msg.opcode
  | .instruments j => do
      let query ← Exec.ofExcept (instrumentsQuery env j)
      let instrumentsResponse ← fetchInstruments env query.1 query.2
      reply msg.hdl instrumentsResponse msg.opcode
  | .order op => replyAndUpdate env msg (op.handler env msg.payload)
  | .unhandled => pure ()

private theorem dispatch_order (op : Operation) (j : Json) {type : String} (h : type = op.type) :
    dispatch env msg j type = serve env msg (.order op) := by
  subst h
  cases op <;> simp [dispatch, serve, Operation.type, Operation.handler]

private theorem dispatch_instruments (j : Json) :
    dispatch env msg j "get_instruments" = serve env msg (.instruments j) := by
  funext w
  simp only [dispatch, serve, instrumentsQuery, String.reduceEq, if_false, if_true, Exec.bind_pure_unit]
  cases stringMember env j "currency" with
  | error e => rfl
  | ok currency => cases stringMember env j "kind" <;> rfl

/-- A message is served by its kind, under the one catch. -/
theorem processMessage_eq :
    processMessage env msg w = (serve env msg (kindOf env msg.payload) w).orElse (fun _ => internalError msg) := by
  unfold processMessage kindOf
  rw [Exec.run_tryCatch]
  cases hp : parseJson env msg.payload with
  | error e => simp [serve]
  | ok j =>
    cases ht : stringMember env j "type" with
    | error e => simp [serve, ht]
    | ok type =>
      simp only [Exec.ofExcept_ok, Exec.run_bind, Exec.run_pure, Ran.andThen_ok, Ran.after_nil, ht]
      split_ifs with h1 h2 h3 h4 h5
      · subst h1; simp [dispatch, serve]
      · subst h2; rw [dispatch_instruments]
      · rw [dispatch_order env msg .modify j h3]
      · rw [dispatch_order env msg .cancel j h4]
      · rw [dispatch_order env msg .place j h5]
      · simp [dispatch, serve, h1, h2, h3, h4, h5]

/-- The reply a message calls for, or the exception raised while making it. -/
def answer : Kind → Except Exn Bytes
  | .malformed | .unhandled => .error ⟨[]⟩
  | .echo => .ok msg.payload
  | .instruments j => (instrumentsQuery env j).bind (fun _ => instrumentsReply env w.api.head)
  | .order op => op.result env msg.payload w

def replyFrame (payload : Bytes) (state : SessionState) : Frame :=
  ⟨.reply, msg.hdl, payload, queues state payload msg.opcode⟩

def errorFrame (state : SessionState) : Frame := replyFrame msg (encode "Internal server error") state

/-- Every way the handling of a message can end, with the frames sent. -/
inductive Handled (env : Externals) (msg : Message) (w : World) : List Frame → Prop where
  | ignored (hk : kindOf env msg.payload = .unhandled) : Handled env msg w []
  | failed (e : Exn) (hk : kindOf env msg.payload ≠ .unhandled)
      (ha : answer env msg w (kindOf env msg.payload) = .error e) : Handled env msg w [errorFrame msg w.sender.head]
  | refused {p : Bytes} (ha : answer env msg w (kindOf env msg.payload) = .ok p)
      (hq : queues w.sender.head p msg.opcode = false) :
      Handled env msg w [replyFrame msg p w.sender.head, errorFrame msg w.sender.tail.head]
  | answered {p : Bytes} (hk : ∀ op, kindOf env msg.payload ≠ .order op)
      (ha : answer env msg w (kindOf env msg.payload) = .ok p)
      (hq : queues w.sender.head p msg.opcode = true) : Handled env msg w [replyFrame msg p w.sender.head]
  | updated {op : Operation} {p : Bytes} {u : List Frame} (hk : kindOf env msg.payload = .order op)
      (ha : op.result env msg.payload w = .ok p) (hq : queues w.sender.head p msg.opcode = true)
      (hu : Updates env (op.world env msg.payload w) u) (hr : RefreshOk env (op.world env msg.payload w)) :
      Handled env msg w (replyFrame msg p w.sender.head :: u)
  | unrefreshed {op : Operation} {p : Bytes} {u : List Frame} (hk : kindOf env msg.payload = .order op)
      (ha : op.result env msg.payload w = .ok p) (hq : queues w.sender.head p msg.opcode = true)
      (hu : Updates env (op.world env msg.payload w) u) (hr : ¬ RefreshOk env (op.world env msg.payload w)) :
      Handled env msg w (replyFrame msg p w.sender.head :: (u ++ [errorFrame msg w.sender.tail.head]))

/-- A reply that is all there is to send, under the catch. -/
private theorem reply_caught (p : Bytes) (w : World) :
    frames ((reply msg.hdl p msg.opcode w).orElse (fun _ => internalError msg)).trace =
      replyFrame msg p w.sender.head ::
        if queues w.sender.head p msg.opcode then [] else [errorFrame msg w.sender.tail.head] := by
  rw [reply_run]
  cases hq : queues w.sender.head p msg.opcode with
  | true => simp [(sendResult_ok _ _ _).mpr hq, replyFrame, hq]
  | false =>
    cases hr : sendResult w.sender.head p msg.opcode with
    | ok u => simp [(sendResult_ok _ _ _).mp hr] at hq
    | error e => simp [internalError, reply_run, replyFrame, errorFrame, hq]

private theorem refreshOk_sender {s : Stream' SessionState} : RefreshOk env { w with sender := s } ↔ RefreshOk env w :=
  ⟨fun h => ⟨h.token, h.parses, h.opened⟩, fun h => ⟨h.token, h.parses, h.opened⟩⟩

private theorem handled_order {op : Operation} (hk : kindOf env msg.payload = .order op) :
    Handled env msg w (frames (processMessage env msg w).trace) := by
  have hs : (op.world env msg.payload w).sender = w.sender := (op.frame env msg.payload w).1
  have hf : frames (op.trace env msg.payload w) = [] := frames_operation env w op msg.payload
  rw [processMessage_eq, hk]
  simp only [serve, replyAndUpdate, Exec.run_bind, Operation.handler_run]
  cases ha : op.result env msg.payload w with
  | error e =>
    have h : Handled env msg w [errorFrame msg w.sender.head] := .failed e (by simp [hk]) (by simp [hk, answer, ha])
    simpa [internalError, reply_run, hf, hs, errorFrame, replyFrame] using h
  | ok p =>
    simp only [Ran.andThen_ok, Exec.run_bind, reply_run, hs]
    cases hq : queues w.sender.head p msg.opcode with
    | false =>
      have h : Handled env msg w _ := .refused (by simp [hk, answer, ha]) hq
      cases hr : sendResult w.sender.head p msg.opcode with
      | ok u => simp [(sendResult_ok _ _ _).mp hr] at hq
      | error e => simpa [internalError, reply_run, hf, errorFrame, replyFrame, hq] using h
    | true =>
      rw [(sendResult_ok _ _ _).mpr hq, Ran.andThen_ok]
      obtain ⟨hok, hsender, hu⟩ := refresh_run env { op.world env msg.payload w with sender := w.sender.tail }
      rw [refreshOk_sender] at hok
      rcases hR : broadcastOpenOrdersUpdate env { op.world env msg.payload w with sender := w.sender.tail } with ⟨x, s, t⟩
      rw [hR] at hok hsender hu
      cases x with
      | ok u =>
        have h := Handled.updated hk ha hq hu (hok.mp rfl)
        simpa [hf, replyFrame, hq] using h
      | error e =>
        have h := Handled.unrefreshed hk ha hq hu (fun hr => nomatch hok.mpr hr)
        simp only at hsender
        simpa [hf, internalError, reply_run, hsender, errorFrame, replyFrame, hq] using h

/-- The frames of a handled message, for every message and every outcome. -/
theorem processMessage_handled : Handled env msg w (frames (processMessage env msg w).trace) := by
  cases hk : kindOf env msg.payload with
  | order op => exact handled_order env msg w hk
  | malformed =>
    have h : Handled env msg w [errorFrame msg w.sender.head] := .failed ⟨[]⟩ (by simp [hk]) (by simp [hk, answer])
    simpa [processMessage_eq, hk, serve, internalError, reply_run, errorFrame, replyFrame] using h
  | unhandled => simpa [processMessage_eq, hk, serve] using (Handled.ignored hk : Handled env msg w [])
  | echo =>
    rw [processMessage_eq, hk]
    simp only [serve, reply_caught]
    cases hq : queues w.sender.head msg.payload msg.opcode with
    | true => exact Handled.answered (by simp [hk]) (by simp [hk, answer]) hq
    | false => exact Handled.refused (by simp [hk, answer]) hq
  | instruments j =>
    rw [processMessage_eq, hk]
    simp only [serve, fetchInstruments, Exec.run_bind, Exec.run_ofExcept]
    cases hj : instrumentsQuery env j with
    | error e =>
      have h : Handled env msg w [errorFrame msg w.sender.head] :=
        .failed e (by simp [hk]) (by simp only [hk, answer, hj]; rfl)
      simpa [internalError, reply_run, errorFrame, replyFrame] using h
    | ok query =>
      simp only [Ran.andThen_ok, Exec.run_bind, run_apiCall, Exec.run_ofExcept]
      cases hr : instrumentsReply env w.api.head with
      | error e =>
        have h : Handled env msg w [errorFrame msg w.sender.head] :=
          .failed e (by simp [hk]) (by simp only [hk, answer, hj]; exact hr)
        simpa [internalError, reply_run, errorFrame, replyFrame] using h
      | ok p =>
        have ha : answer env msg w (kindOf env msg.payload) = .ok p := by simp only [hk, answer, hj]; exact hr
        have hc := reply_caught msg p { w with api := w.api.tail }
        simp only [Ran.andThen_after, Ran.andThen_ok, Ran.after_nil, Ran.orElse_after, Ran.after_trace, List.nil_append,
          frames_append, frames_api, frames_nil, hc]
        cases hq : queues w.sender.head p msg.opcode with
        | true => exact Handled.answered (by simp [hk]) ha hq
        | false => exact Handled.refused ha hq

end Runs
end DeribitClientServer.Server
