import DeribitClientServer.Server.OrderRuns
import Mathlib.Data.List.TakeWhile

/-! Instrument lists on request, and the open orders fetched and broadcast. -/
namespace DeribitClientServer.Server
open Library Library.JsonText Library.Utf8

/-- A path handed over as a C string ends at its first null character. -/
def cStr (s : String) : String := String.ofList (s.toList.takeWhile (fun c => c ≠ '\x00'))

theorem cStr_of_notMem {s : String} (h : '\x00' ∉ s.toList) : cStr s = s := by
  have hs : ∀ c ∈ s.toList, decide (c ≠ '\x00') = true := fun c hc => decide_eq_true (fun hz => h (hz ▸ hc))
  rw [cStr, List.takeWhile_eq_self_iff.mpr hs, String.ofList_toList]

def instrumentsPath (currency kind : String) : String :=
  "/api/v2/public/get_instruments?currency=" ++ currency ++ "&kind=" ++ kind

/-- fetch_instruments(currency, kind): the reply built from the outcome. -/
def instrumentsReply (env : Externals) (res : Outcome) : Except Exn Bytes :=
  match okBody res with
  | some body => (typed env "instruments" body).map env.dump
  | none => pure (env.dump (.obj [("type", .str "instruments"), ("error", .str "Failed to fetch instruments")]))

def fetchInstruments (env : Externals) (currency kind : String) : Program Bytes := do
  let res ← apiCall ⟨.get, cStr (instrumentsPath currency kind), none, []⟩
  Exec.ofExcept (instrumentsReply env res)

theorem apiRequests_fetchInstruments (env : Externals) (currency kind : String) (w : World) :
    apiRequests (fetchInstruments env currency kind w).trace =
      [⟨.get, cStr (instrumentsPath currency kind), none, []⟩] := by
  rw [fetchInstruments, Exec.run_bind, run_apiCall, Ran.andThen_ok]
  rfl

def openOrdersRequest : Json :=
  .obj [("jsonrpc", .str "2.0"), ("id", numberOf 124), ("method", .str "private/get_open_orders_by_currency"),
    ("params", .obj [("currency", .str "BTC")])]

def openOrdersText (env : Externals) (res : Outcome) : Bytes :=
  match okBody res with
  | some body => body
  | none => env.dump (.obj [("error", .str (httpError res))])

def getOpenOrders (env : Externals) : Program Bytes := do
  let accessToken ← getAccessToken env
  let res ← apiCall ⟨.post, "/api/v2/private/get_open_orders_by_currency", some accessToken,
    env.dump openOrdersRequest⟩
  pure (openOrdersText env res)

def openOrdersUpdate (data : Json) : Json := .obj [("type", .str "open_orders_update"), ("data", data)]

/-- What follows the fetch: parse, wrap and broadcast. -/
def castOpenOrders (env : Externals) (openOrders : Bytes) : Program Unit := do
  let data ← Exec.ofExcept (parseJson env openOrders)
  broadcast (env.dump (openOrdersUpdate data))

def broadcastOpenOrdersUpdate (env : Externals) : Program Unit := do
  let openOrders ← getOpenOrders env
  castOpenOrders env openOrders

section Refresh
variable (env : Externals) (w : World)

/-- A body answered with status 200 parses. -/
def AnswerParses (res : Outcome) : Prop := ∀ body, okBody res = some body → ∃ j, parseJson env body = .ok j

/-- A refresh gets a token, a parsable answer, and only open connections. -/
structure RefreshOk : Prop where
  token : TokenAvailable env w
  parses : AnswerParses env w.api.head
  opened : AllOpened w.members.head

theorem decode_dump_ne (j : Json) : decode (env.dump j) ≠ none := by
  obtain ⟨s, hs⟩ := decode_dump env j
  simp [hs]

theorem parse_openOrdersText (res : Outcome) :
    (∃ data, parseJson env (openOrdersText env res) = .ok data) ↔ AnswerParses env res := by
  unfold openOrdersText AnswerParses
  cases okBody res with
  | none => simp [parseJson_dump]
  | some body => simp

theorem castOpenOrders_run (openOrders : Bytes) :
    (∃ e, parseJson env openOrders = .error e ∧ castOpenOrders env openOrders w = ⟨.error e, w, []⟩) ∨
      ∃ data x, parseJson env openOrders = .ok data ∧
        castOpenOrders env openOrders w = ⟨x, { w with members := w.members.tail },
          sends (env.dump (openOrdersUpdate data)) w.members.head⟩ ∧ (x = .ok () ↔ AllOpened w.members.head) := by
  unfold castOpenOrders
  cases hp : parseJson env openOrders with
  | error e => exact .inl ⟨e, rfl, rfl⟩
  | ok data =>
    obtain ⟨x, hx, hok⟩ := broadcast_run w (decode_dump_ne env (openOrdersUpdate data))
    exact .inr ⟨data, x, rfl, by simp [hx], hok⟩

/-- A fetch of the open orders submits one request and fails only for want of a token. -/
theorem getOpenOrders_run :
    getOpenOrders env w = ⟨(tokenResult env w).map (fun _ => openOrdersText env w.api.head), submitWorld env w,
      submitTrace env w "/api/v2/private/get_open_orders_by_currency" openOrdersRequest⟩ :=
  submit_run env w "/api/v2/private/get_open_orders_by_currency" openOrdersRequest
    (fun res => .ok (openOrdersText env res))

theorem frames_tokenTrace : frames (tokenTrace env w) = [] := by
  unfold tokenTrace
  split <;> rfl

theorem frames_submitTrace (path : String) (body : Json) : frames (submitTrace env w path body) = [] := by
  unfold submitTrace
  cases tokenResult env w with
  | error e => exact frames_tokenTrace env w
  | ok token => rw [frames_append, frames_tokenTrace, frames_api, frames_nil, List.append_nil]

/-- A handler sends nothing itself. -/
theorem frames_operation (op : Operation) (payload : Bytes) : frames (op.trace env payload w) = [] := by
  unfold Operation.trace
  cases op.intake env payload with
  | answered r => rfl
  | submitted path body outcome => exact frames_submitTrace env w path body

/-- The open orders that a refresh fetches and can parse. -/
def Fetched (data : Json) : Prop :=
  TokenAvailable env w ∧ parseJson env (openOrdersText env w.api.head) = .ok data

/-- The frames of a refresh: none, or one update to the registered connections. -/
def Updates (u : List Frame) : Prop :=
  u = [] ∨ ∃ data, Fetched env w data ∧ u = frames (sends (env.dump (openOrdersUpdate data)) w.members.head)

/-- A refresh ends without exception exactly when all it needs is there. -/
theorem refresh_run :
    ((broadcastOpenOrdersUpdate env w).result = .ok () ↔ RefreshOk env w) ∧
      (broadcastOpenOrdersUpdate env w).state.sender = w.sender ∧
      Updates env w (frames (broadcastOpenOrdersUpdate env w).trace) := by
  obtain ⟨hs, hm⟩ := submitFrame env w
  unfold broadcastOpenOrdersUpdate
  rw [Exec.run_bind, getOpenOrders_run]
  cases ht : tokenResult env w with
  | error e =>
    have hn : ¬ TokenAvailable env w := (not_tokenAvailable_iff env w).mpr ⟨e, ht⟩
    exact ⟨iff_of_false (by simp [Except.map]) (fun h => hn h.token), hs, .inl (frames_submitTrace env w _ _)⟩
  | ok token =>
    have ha : TokenAvailable env w := (tokenAvailable_iff env w).mpr ⟨token, ht⟩
    have hparse := parse_openOrdersText env w.api.head
    have hf := frames_submitTrace env w "/api/v2/private/get_open_orders_by_currency" openOrdersRequest
    simp only [Except.map, Ran.andThen_ok, Ran.after_result, Ran.after_state, Ran.after_trace, frames_append, hf,
      List.nil_append]
    rcases castOpenOrders_run env (submitWorld env w) (openOrdersText env w.api.head) with
      ⟨e, hp, hc⟩ | ⟨data, x, hp, hc, hx⟩
    · rw [hc]
      refine ⟨iff_of_false (by simp) (fun h => ?_), hs, .inl rfl⟩
      obtain ⟨data, hd⟩ := hparse.mpr h.parses
      rw [hp] at hd
      cases hd
    · rw [hc, hm] at *
      refine ⟨hx.trans ⟨fun h => ⟨ha, hparse.mp ⟨data, hp⟩, h⟩, fun h => h.opened⟩, hs, .inr ⟨data, ⟨ha, hp⟩, rfl⟩⟩

/-- A refresh with a token and a parsable answer broadcasts that answer. -/
theorem frames_refresh {data : Json} (hd : Fetched env w data) :
    frames (broadcastOpenOrdersUpdate env w).trace = frames (sends (env.dump (openOrdersUpdate data)) w.members.head) := by
  obtain ⟨htoken, hdata⟩ := hd
  obtain ⟨token, ht⟩ := (tokenAvailable_iff env w).mp htoken
  have hf := frames_submitTrace env w "/api/v2/private/get_open_orders_by_currency" openOrdersRequest
  unfold broadcastOpenOrdersUpdate
  rw [Exec.run_bind, getOpenOrders_run, ht]
  simp only [Except.map, Ran.andThen_ok, Ran.after_trace, frames_append, hf, List.nil_append]
  rcases castOpenOrders_run env (submitWorld env w) (openOrdersText env w.api.head) with ⟨e, hp, _⟩ | ⟨data', x, hp, hc, _⟩
  · rw [hdata] at hp
    cases hp
  · rw [hdata] at hp
    cases hp
    rw [hc, (submitFrame env w).2]

end Refresh

section Listing

/-- An answer of the exchange: no open orders. -/
def emptyListing : Bytes := printText (.obj [("result", .arr [])])

/-- A cached token, calls that are answered, and one open connection. -/
def answering : World :=
  { tokenCached with api := .const (some ⟨200, emptyListing⟩), members := .const [(1, .opened)] }

theorem parse_emptyListing : parseJson grammarExternals emptyListing = .ok (.obj [("result", .arr [])]) := by
  have hc : Json.canon (.obj [("result", .arr [])]) = .obj [("result", .arr [])] := by
    rw [Json.canon_single, Json.canon_arr, List.map_nil]
  rw [← hc]
  exact parseJson_printed grammarExternals (Json.respell_some _)

theorem answering_fresh : TokenFresh answering := tokenCached_fresh

theorem submitWorld_answering : submitWorld grammarExternals answering = answering := by
  rw [submitWorld, tokenWorld, tokenResult, if_pos answering_fresh, if_pos answering_fresh]
  rfl

theorem refreshOk_answering : RefreshOk grammarExternals answering := by
  refine ⟨.inl answering_fresh, ?_, ?_⟩
  · rintro body ⟨⟩
    exact ⟨_, parse_emptyListing⟩
  · intro member hm
    obtain rfl := List.mem_singleton.mp hm
    rfl

end Listing
end DeribitClientServer.Server
