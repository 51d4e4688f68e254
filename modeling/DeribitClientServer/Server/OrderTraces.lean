import DeribitClientServer.Server.OrderGate

/-! The effects of an order message besides its replies: those of its handler,
and those of the refresh when the reply was queued. -/
namespace DeribitClientServer.Server
open Library Library.JsonText Library.Utf8

def Event.cast? : Event → Option Bytes
  | .send .broadcast _ payload _ => some payload
  | .send .reply _ _ _ | .auth _ | .api _ => none

/-- The payloads of a trace that are broadcast. -/
def casts (t : List Event) : List Bytes := t.filterMap Event.cast?

/-- A parameter that the body of a request carries. -/
def Request.Carries (r : Request) (k : String) (v : Json) : Prop :=
  ∃ j params, readText r.body = some j ∧ j.get? "params" = some params ∧ params.get? k = some v

theorem HasParams.carries_iff {r : Request} {params : String → Option Json} (h : HasParams r params) (k : String)
    (v : Json) : r.Carries k v ↔ (params k).map Json.canon = some v := by
  obtain ⟨j, ms, hj, hparams, hget⟩ := h
  rw [← hget]
  constructor
  · rintro ⟨j', ps, hj', hps, hv⟩
    rw [hj, Option.some_inj] at hj'
    rw [← hj', hparams, Option.some_inj] at hps
    rw [hps, hv]
  · exact fun hv => ⟨j, _, hj, hparams, hv⟩

def openOrdersPost (env : Externals) (accessToken : String) : Request :=
  ⟨.post, "/api/v2/private/get_open_orders_by_currency", some accessToken, env.dump openOrdersRequest⟩

/-- The open orders are asked for in one currency. -/
theorem openOrdersPost_carries_iff (env : Externals) (accessToken : String) (c : String) :
    (openOrdersPost env accessToken).Carries "currency" (.str c) ↔ c = "BTC" := by
  have hparams : HasParams (openOrdersPost env accessToken) (fun k => (Json.obj [("currency", .str "BTC")]).get? k) :=
    hasParams_dump env (fun _ => rfl) fun k v h => by
      obtain ⟨_, rfl⟩ : "currency" = k ∧ Json.str "BTC" = v := by simpa [Json.get?_obj] using h
      rfl
  rw [hparams.carries_iff]
  simp [Json.get?_obj, eq_comm]

section Refresh
variable (env : Externals) (w : World)

theorem apiRequests_refresh : apiRequests (broadcastOpenOrdersUpdate env w).trace =
    (tokenResult env w).toOption.toList.map (openOrdersPost env) := by
  have hcast (openOrders : Bytes) (w : World) :
      (castOpenOrders env openOrders w).trace.filterMap Event.apiRequest? = [] := by
    rcases castOpenOrders_run env w openOrders with ⟨e, _, hc⟩ | ⟨data, x, _, hc, _⟩
    · rw [hc]
      rfl
    · rw [hc]
      exact apiRequests_sends _ _
  rw [broadcastOpenOrdersUpdate, Exec.run_bind, apiRequests, Ran.filterMap_andThen _ hcast, getOpenOrders_run]
  apply (apiRequests_submitTrace env w _ _).trans
  cases tokenResult env w <;> rfl

theorem mem_casts {t : List Event} {p : Bytes} (h : p ∈ casts t) :
    ∃ f ∈ frames t, f.via = .broadcast ∧ f.payload = p := by
  obtain ⟨e, he, hp⟩ := List.mem_filterMap.mp h
  cases e with
  | send via hdl payload queued =>
    cases via with
    | broadcast => exact ⟨⟨.broadcast, hdl, payload, queued⟩, List.mem_filterMap.mpr ⟨_, he, rfl⟩, rfl, Option.some.inj hp⟩
    | reply => cases hp
  | auth r | api r => cases hp

private theorem casts_frames {t u : List Event} (h : frames t = frames u) : casts t = casts u := by
  have hframe (t : List Event) :
      casts t = (frames t).filterMap (fun f => if f.via = .broadcast then some f.payload else none) := by
    rw [casts, frames, List.filterMap_filterMap]
    refine List.filterMap_congr (fun e _ => ?_)
    cases e with
    | send via hdl payload queued => cases via <;> rfl
    | auth r | api r => rfl
  rw [hframe, hframe, h]

/-- A fetch that has a token and parses is broadcast. -/
theorem casts_fetched {data : Json} (h : Fetched env w data) : casts (broadcastOpenOrdersUpdate env w).trace =
    casts (sends (env.dump (openOrdersUpdate data)) w.members.head) := by
  obtain ⟨ha, hd⟩ := h
  obtain ⟨token, ht⟩ := (tokenAvailable_iff env w).mp ha
  apply casts_frames
  rw [broadcastOpenOrdersUpdate, Exec.run_bind, getOpenOrders_run, ht]
  simp only [Except.map, Ran.andThen_ok, Ran.after_trace, frames_append, frames_submitTrace, List.nil_append]
  rcases castOpenOrders_run env (submitWorld env w) (openOrdersText env w.api.head) with
    ⟨e, he, _⟩ | ⟨data', x, hd', hc, _⟩
  · rw [hd] at he
    cases he
  · rw [hd, Except.ok.injEq] at hd'
    rw [hc, hd', (submitFrame env w).2]

/-- A refresh broadcasts nothing but the open orders that it fetched. -/
theorem casts_refresh {p : Bytes} (h : p ∈ casts (broadcastOpenOrdersUpdate env w).trace) :
    ∃ data, Fetched env w data ∧ p = env.dump (openOrdersUpdate data) := by
  obtain ⟨f, hf, _, rfl⟩ := mem_casts h
  rcases (refresh_run env w).2.2 with hu | ⟨data, hd, hu⟩
  · rw [hu] at hf
    cases hf
  · rw [hu] at hf
    exact ⟨data, hd, (of_mem_sends hf).2⟩

end Refresh

section Orders
variable {env : Externals} {msg : Message} {w : World} {op : Operation}

/-- The operation has a reply that is queued, and is followed by a refresh. -/
def Replied (env : Externals) (msg : Message) (w : World) (op : Operation) : Prop :=
  ∃ p, op.result env msg.payload w = .ok p ∧ queues w.sender.head p msg.opcode = true

/-- The world that the refresh starts from. -/
def repliedWorld (env : Externals) (msg : Message) (w : World) (op : Operation) : World :=
  { op.world env msg.payload w with sender := w.sender.tail }

/-- What a reply does not show, an order message does in its handler and in its refresh. -/
theorem filterMap_order {γ : Type} {g : Event → Option γ} (hg : ∀ hdl p queued, g (.send .reply hdl p queued) = none)
    (hk : kindOf env msg.payload = .order op) :
    (¬ Replied env msg w op ∧ (processMessage env msg w).trace.filterMap g = (op.trace env msg.payload w).filterMap g) ∨
      Replied env msg w op ∧ (processMessage env msg w).trace.filterMap g = (op.trace env msg.payload w).filterMap g ++
        (broadcastOpenOrdersUpdate env (repliedWorld env msg w op)).trace.filterMap g := by
  have herror (e : Exn) (w : World) : (internalError msg w).trace.filterMap g = [] := by
    simp [internalError, reply_run, hg]
  have hs : (op.world env msg.payload w).sender = w.sender := (op.frame env msg.payload w).1
  rw [processMessage_eq, hk, Ran.filterMap_orElse _ herror, serve, replyAndUpdate, Exec.run_bind, Operation.handler_run]
  cases hr : op.result env msg.payload w with
  | error e =>
    have hn : ¬ Replied env msg w op := by
      rintro ⟨p, hp, _⟩
      rw [hr] at hp
      cases hp
    exact .inl ⟨hn, rfl⟩
  | ok p =>
    have hq : Replied env msg w op ↔ queues w.sender.head p msg.opcode = true := by simp [Replied, hr]
    rw [hq, Ran.andThen_ok, Ran.after_trace, List.filterMap_append, Exec.run_bind, reply_run, hs]
    cases hx : sendResult w.sender.head p msg.opcode with
    | error e =>
      have hn : ¬ queues w.sender.head p msg.opcode = true := by
        rw [← sendResult_ok, hx]
        rintro ⟨⟩
      exact .inl ⟨hn, by simp [hg]⟩
    | ok u =>
      have hy : queues w.sender.head p msg.opcode = true := by rw [← sendResult_ok, hx]
      exact .inr ⟨hy, by simp [hg, repliedWorld]⟩

end Orders
end DeribitClientServer.Server
