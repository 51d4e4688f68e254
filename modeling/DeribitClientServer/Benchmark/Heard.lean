import DeribitClientServer.Benchmark.Watching
import DeribitClientServer.Server.Books
import DeribitClientServer.Server.OrderGate
import DeribitClientServer.Server.QuickCheck

/-! Where the frames come from that these benchmarks wait for. Updates of an order book are
broadcast with answers of the exchange; the execution of an order is never reported. -/
namespace DeribitClientServer.Benchmark
open Library Library.JsonText Library.Utf8 Library.History Library.Transition Server

section Origins
variable {env : Externals} {m : Watch} {me : Hdl} {s s' : Watcher} {a : WatchAct} {as : List WatchAct} {x : Bytes}

/-- What a benchmark sends. -/
def Asks (env : Externals) (m : Watch) (y : Bytes) : Prop :=
  y ∈ m.opening env ∨ m.orders = true ∧ ∃ d, y = env.dump (marketOrder d)

/-- Where a frame that came was sent in a run. -/
inductive Came (env : Externals) (m : Watch) (me : Hdl) (as : List WatchAct) (x : Bytes) : Prop where
  | served (y : Bytes) (w : World) (ha : .serve y w ∈ as) (hy : Asks env m y) (hx : x ∈ reaching env me y w)
  | cast (ha : .cast x ∈ as) (hb : Broadcasts env x)

theorem Came.append (h : Came env m me as x) (bs : List WatchAct) : Came env m me (as ++ bs) x := by
  cases h with
  | served y w ha hy hx => exact .served y w (List.mem_append_left _ ha) hy hx
  | cast ha hb => exact .cast (List.mem_append_left _ ha) hb

structure Traced (env : Externals) (m : Watch) (me : Hdl) (as : List WatchAct) (s : Watcher) : Prop where
  up : ∀ y ∈ s.up, Asks env m y
  down : ∀ x ∈ s.down, Came env m me as x
  heard : ∀ type x time, .heard type x time ∈ s.marks → Came env m me as x ∧ m.raises env x = some type

private theorem traced_moved (h : Traced env m me as s) (bs : List WatchAct) (hu : ∀ y ∈ s'.up, y ∈ s.up ∨ Asks env m y)
    (hd : ∀ x ∈ s'.down, x ∈ s.down ∨ Came env m me (as ++ bs) x)
    (hm : ∀ type x time, .heard type x time ∈ s'.marks → .heard type x time ∈ s.marks) : Traced env m me (as ++ bs) s' := by
  refine ⟨fun y hy => (hu y hy).elim (h.up y) id, fun x hx => (hd x hx).elim (fun hx => (h.down x hx).append bs) id,
    fun type x time hx => ?_⟩
  obtain ⟨hc, hr⟩ := h.heard type x time (hm type x time hx)
  exact ⟨hc.append bs, hr⟩

private theorem heard_of_concat {marks : List WatchMark} {e : WatchMark} (he : ∀ type x time, e ≠ .heard type x time) :
    ∀ type x time, .heard type x time ∈ marks ++ [e] → .heard type x time ∈ marks := by
  intro type x time h
  rcases List.mem_append.mp h with h | h
  · exact h
  · exact absurd (List.mem_singleton.mp h).symm (he type x time)

theorem traced (r : Run (watch env m me) anyStep as s) : Traced env m me as s := by
  induction r with
  | start h =>
    obtain ⟨clock, rfl⟩ := h
    exact ⟨fun y hy => .inl hy, by simp, by simp⟩
  | @next as s s' _ a _ h ih =>
    cases a with
    | pass time =>
      obtain rfl := h
      exact traced_moved ih _ (fun _ => .inl) (fun _ => .inl) fun _ _ _ => id
    | iterate | begin =>
      obtain ⟨_, rfl⟩ := h
      exact traced_moved ih _ (fun _ => .inl) (fun _ => .inl) fun _ _ _ => id
    | fail | go =>
      obtain ⟨_, start, _, rfl⟩ := h
      exact traced_moved ih _ (fun _ => .inl) (fun _ => .inl) fun _ _ _ => id
    | wake =>
      obtain ⟨start, type, deadline, rest, _, _, rfl⟩ := h
      exact traced_moved ih _ (fun _ => .inl) (fun _ => .inl) fun _ _ _ => id
    | lower =>
      obtain ⟨type, flags, _, rfl⟩ := h
      exact traced_moved ih _ (fun _ => .inl) (fun _ => .inl) (heard_of_concat fun _ _ _ => WatchMark.noConfusion)
    | await =>
      obtain ⟨start, type, patience, rest, _, rfl⟩ := h
      exact traced_moved ih _ (fun _ => .inl) (fun _ => .inl) (heard_of_concat fun _ _ _ => WatchMark.noConfusion)
    | giveUp =>
      obtain ⟨start, type, deadline, rest, _, _, _, rfl⟩ := h
      exact traced_moved ih _ (fun _ => .inl) (fun _ => .inl) (heard_of_concat fun _ _ _ => WatchMark.noConfusion)
    | record =>
      obtain ⟨start, _, rfl⟩ := h
      exact traced_moved ih _ (fun _ => .inl) (fun _ => .inl) (heard_of_concat fun _ _ _ => WatchMark.noConfusion)
    | order d =>
      obtain ⟨ho, start, _, rfl⟩ := h
      refine traced_moved ih _ (fun y hy => ?_) (fun _ => .inl) fun _ _ _ => id
      rcases List.mem_append.mp hy with hy | hy
      · exact .inl hy
      · exact .inr (.inr ⟨ho, d, List.mem_singleton.mp hy⟩)
    | serve y w =>
      obtain ⟨before, after, hup, rfl⟩ := h
      have hy : y ∈ s.up := by
        rw [hup]
        exact List.mem_append_right _ List.mem_cons_self
      refine traced_moved ih _ (fun z hz => .inl ?_) (fun x hx => ?_) fun _ _ _ => id
      · rw [hup]
        exact List.mem_append.mpr ((List.mem_append.mp hz).imp_right (List.mem_cons_of_mem y))
      · rcases List.mem_append.mp hx with hx | hx
        · exact .inl hx
        · exact .inr (.served y w (List.mem_append_right _ (List.mem_singleton_self _)) (ih.up y hy) hx)
    | cast p =>
      obtain ⟨hb, rfl⟩ := h
      refine traced_moved ih _ (fun _ => .inl) (fun x hx => ?_) fun _ _ _ => id
      rcases List.mem_append.mp hx with hx | hx
      · exact .inl hx
      · rw [List.mem_singleton.mp hx]
        exact .inr (.cast (List.mem_append_right _ (List.mem_singleton_self _)) hb)
    | deliver x =>
      obtain ⟨before, after, hdown, rfl⟩ := h
      have hx : x ∈ s.down := by
        rw [hdown]
        exact List.mem_append_right _ List.mem_cons_self
      have hrest : ∀ y ∈ before ++ after, y ∈ s.down := by
        intro y hy
        rw [hdown]
        exact List.mem_append.mpr ((List.mem_append.mp hy).imp_right (List.mem_cons_of_mem x))
      unfold Watcher.deliver
      split
      · next type hr =>
        obtain ⟨hup, hd, hheard⟩ : Traced env m me (as ++ [.deliver x]) { s with down := before ++ after } :=
          traced_moved ih _ (fun _ => .inl) (fun y hy => .inl (hrest y hy)) fun _ _ _ => id
        refine ⟨hup, hd, fun type' y time hy => ?_⟩
        rcases List.mem_append.mp hy with hy | hy
        · exact hheard type' y time hy
        · obtain ⟨rfl, rfl, rfl⟩ := WatchMark.heard.inj (List.mem_singleton.mp hy)
          exact ⟨(ih.down y hx).append _, hr⟩
      · exact traced_moved ih _ (fun _ => .inl) (fun y hy => .inl (hrest y hy)) fun _ _ _ => id

theorem raises_typed {j : Json} {type t : String} (hp : parseJson env x = .ok j) (hj : j.get? "type" = some (.str t))
    (hr : m.raises env x = some type) : type = t := by
  rw [Watch.raises, hp, Except.bind, index_of_get? env hj] at hr
  dsimp only at hr
  split_ifs at hr
  exact (Option.some.inj hr).symm

theorem raises_of_typed {j : Json} {t : String} (hp : parseJson env x = .ok j) (hj : j.get? "type" = some (.str t))
    (ht : t ∈ m.flags) : m.raises env x = some t := by
  rw [Watch.raises, hp, Except.bind, index_of_get? env hj]
  exact if_pos ht

/-- A dumped payload raises no flag but that of its type. -/
theorem raises_dumped {type t : String} (h : DumpedAs env x t) (hr : m.raises env x = some type) : type = t := by
  obtain ⟨j, rfl, hj⟩ := h
  exact raises_typed (parseJson_dump env j) ((get?_dumped_str_iff env).mpr hj) hr

/-- The text of a failed message is no JSON, and raises nothing. -/
theorem raises_error (hg : ParsesGrammar env) : m.raises env (encode "Internal server error") = none := by
  unfold Watch.raises
  cases hp : parseJson env (encode "Internal server error") with
  | error e => rfl
  | ok j =>
    cases j with
    | obj ms =>
      have hhead := head_of_parse hg hp (by decide)
      exact absurd hhead (by decide)
    | null | bool b | num n | str t | arr l => rfl

private theorem kindOf_typed {j : Json} {t : String} (h : j.get? "type" = some (.str t)) :
    stringMember env (j.stored env.spelling).canon "type" = .ok t :=
  stringMember_ok_iff.mpr ((get?_dumped_str_iff env).mpr h)

/-- The server has no answer to a subscription. -/
theorem reaching_subscribe {w : World} : reaching env me (env.dump subscribe) w = [] := by
  have hk : kindOf env (env.dump subscribe) = .unhandled := by
    have ht : stringMember env (subscribe.stored env.spelling).canon "type" = .ok "subscribe" := kindOf_typed rfl
    rw [kindOf, parseJson_dump]
    simp only [ht]
    rfl
  have hh := processMessage_handled env ⟨me, env.dump subscribe, .text⟩ w
  have hnone : frames (processMessage env ⟨me, env.dump subscribe, .text⟩ w).trace = [] := by
    generalize frames (processMessage env ⟨me, env.dump subscribe, .text⟩ w).trace = fs at hh
    cases hh with
    | ignored _ => rfl
    | failed e hk' _ => exact absurd hk hk'
    | refused ha _ | answered _ ha _ => simp [hk, answer] at ha
    | updated hk' _ _ _ _ | unrefreshed hk' _ _ _ _ => simp [hk] at hk'
  rw [reaching, arriving, hnone]
  rfl

end Origins

section Sources
variable {env : Externals} {supported : List String} {turns : Threads → Prop} {me : Hdl} {s : Watcher} {as : List WatchAct}
  {x : Bytes} {i start stop : Nat}

/-- Updates of the order book that are cast come from these turns. -/
def BooksCast (env : Externals) (supported : List String) (turns : Threads → Prop) (_ : Watcher) : WatchAct → Prop
  | .cast p => HasType p "orderbook_update" → ∃ t, turns t ∧ TurnCasts env supported t p
  | .pass _ | .iterate | .lower | .begin | .order _ | .fail | .go | .await | .wake | .giveUp | .record | .serve _ _
  | .deliver _ => True

private theorem cast_turn {m : Watch} (r : Run (watch env m me) (BooksCast env supported turns) as s) (ha : .cast x ∈ as)
    (ht : HasType x "orderbook_update") : ∃ t, turns t ∧ TurnCasts env supported t x := by
  induction r with
  | start h => cases ha
  | next r a hg h ih =>
    rcases List.mem_append.mp ha with ha | ha
    · exact ih ha
    · rw [← List.mem_singleton.mp ha] at hg
      exact hg ht

/-- Each type waited for was heard between the lowering of its flag and the interval. -/
private theorem heard_before {m : Watch} (r : Run (watch env m me) anyStep as s) (h : .recorded i start stop ∈ s.marks)
    {type : String} {patience : Nat} (hw : (type, patience) ∈ m.waits) :
    ∃ before mid after x time, s.marks = before ++ .lowered i type :: (mid ++ .recorded i start stop :: after) ∧
      .heard type x time ∈ mid := by
  obtain ⟨front, after, hm, hall⟩ := (intervals_hear_all r).of_mem h
  obtain ⟨mid, ⟨before, rfl⟩, x, time, hx⟩ := hall _ hw
  exact ⟨before, mid, after, x, time, by rw [hm, List.append_assoc, List.cons_append], hx⟩

/-- Every interval that the market data benchmark records holds the arrival of an update that
one of the turns broadcast, with the book it asked the exchange for. -/
theorem interval_holds_book (r : Run (watch env .marketDataLatency me) (BooksCast env supported turns) as s)
    (h : .recorded i start stop ∈ s.marks) : ∃ before mid after time t instrument timestamp data,
      s.marks = before ++ .lowered i "orderbook_update" :: (mid ++ .recorded i start stop :: after) ∧
      .heard "orderbook_update" (env.dump (orderbookUpdate instrument timestamp data)) time ∈ mid ∧
      .cast (env.dump (orderbookUpdate instrument timestamp data)) ∈ as ∧ turns t ∧
      BookFrom env supported t instrument data := by
  have rany : Run (watch env .marketDataLatency me) anyStep as s := r.weaken fun _ _ _ => trivial
  obtain ⟨before, mid, after, x, time, hm, hx⟩ := heard_before rany h (List.mem_singleton_self _)
  have hmem : .heard "orderbook_update" x time ∈ s.marks := by
    rw [hm]
    exact List.mem_append_right _ (List.mem_cons_of_mem _ (List.mem_append_left _ hx))
  obtain ⟨hc, hr⟩ := (traced rany).heard _ x time hmem
  cases hc with
  | served y w _ hy hin =>
    rcases hy with hy | ⟨ho, _⟩
    · rw [List.mem_singleton.mp hy, reaching_subscribe] at hin
      cases hin
    · exact absurd ho Bool.false_ne_true
  | cast ha hb =>
    obtain ⟨l, hl⟩ := hb.dumpedAs
    have hdumped : DumpedAs env x "orderbook_update" := raises_dumped hl hr ▸ hl
    obtain ⟨t, ht, hturn⟩ := cast_turn r ha hdumped.hasType
    obtain ⟨instrument, timestamp, data, hbook, rfl⟩ := book_of_turnCasts hturn hdumped
    exact ⟨before, mid, after, time, t, instrument, timestamp, data, hm, hx, ha, ht, hbook⟩

end Sources

section Executions
variable {env : Externals} {m : Watch} {me : Hdl} {s : Watcher} {as : List WatchAct} {x : Bytes} {i start stop : Nat}

theorem kindOf_marketOrder (d : MarketDraw) : kindOf env (env.dump (marketOrder d)) = .order .place :=
  kindOf_order_iff.mpr ⟨_, parseJson_dump env _, (get?_dumped_str_iff env).mpr rfl⟩

/-- The server accepts a market order as it is sent. -/
theorem checkOrder_marketOrder (d : MarketDraw) :
    ∃ data, checkOrder env ((marketOrder d).stored env.spelling).canon = .ok data := by
  have hget (j : Json) (k : String) : (j.stored env.spelling).canon.get? k =
      (j.get? k).map fun v => (v.stored env.spelling).canon := by
    rw [Json.get?_canon, Json.get?_stored, Option.map_map]
    rfl
  refine ⟨_, checkOrder_ok_iff.mpr ⟨hget (marketOrder d) "data", ?_, fun h => ?_⟩⟩
  · intro k hk
    rw [Json.contains, hget, Option.isSome_map]
    simp only [List.mem_cons, List.not_mem_nil, or_false] at hk
    rcases hk with rfl | rfl | rfl | rfl <;> rfl
  · have ht : some (Json.str "market") = some (.str "limit") := (get?_dumped_str_iff env).mp h
    exact absurd (Json.str.inj (Option.some.inj ht)) (by decide)

/-- A text that the server did not write: of a refused token, or of the exchange's answer. -/
def ForeignText (env : Externals) (w : World) (text : Bytes) : Prop :=
  (∃ e, tokenResult env w = .error e ∧ text = processingError e) ∨ upstreamText env w.api.head = some text

theorem foreignText_of_glued {d : MarketDraw} {w : World} {text : Bytes}
    (h : gluedText env (env.dump (marketOrder d)) w = some text) : ForeignText env w text := by
  obtain ⟨data, hc⟩ := @checkOrder_marketOrder env d
  cases ht : tokenResult env w with
  | error e =>
    simp only [gluedText, parseJson_dump, hc, ht, Option.some_inj] at h
    exact .inl ⟨e, ht, h.symm⟩
  | ok token =>
    rw [gluedText_submitted env _ w (parseJson_dump env _) hc ht] at h
    exact .inr h

/-- Between the quotes of an order's error, a text without quotes, backslashes and control
characters raises no flag but that of an order's response. -/
theorem raises_plain (hg : ParsesGrammar env) {t : String} {type : String} (ht : PlainText t.toList)
    (hr : m.raises env (orderError (encode t)) = some type) : type = "order_response" := by
  have hread : readText (orderError (encode t)) =
      some (closeMember [("type", .str "order_response")] "error" ((t.toList.map Piece.char).reverse ++ [])) :=
    (readText_orderError _ _).mpr ⟨t, _, _, _, decode_encode t, run_plain _ _ _ _ ht, rfl⟩
  cases hp : parseJson env (orderError (encode t)) with
  | error e =>
    rw [Watch.raises, hp] at hr
    cases hr
  | ok j =>
    obtain ⟨v, u, hv, hu, rfl⟩ := hg _ _ ((parseJson_ok_iff env).mp hp)
    rw [significant_text hread, hread, Option.some_inj] at hv
    have hu' : u.get? "type" = some (.str "order_response") := by
      rw [Json.get?_respell hu, ← hv]
      rfl
    exact raises_typed hp (Json.get?_canon_str_iff.mpr hu') hr

/-- A text that ends its string in the reply and goes on to name the awaited type. -/
structure Forges (env : Externals) (text : Bytes) : Prop where
  raises : Watch.raises env .endToEndTradingLatency (orderError text) = some "order_execution"
  breaks : ∀ t, decode text = some t → ¬ PlainText t.toList

private theorem execution_forged (hg : ParsesGrammar env) (hc : Came env .endToEndTradingLatency me as x)
    (hr : Watch.raises env .endToEndTradingLatency x = some "order_execution") :
    ∃ d w text, .serve (env.dump (marketOrder d)) w ∈ as ∧ ForeignText env w text ∧ Forges env text ∧ x = orderError text := by
  cases hc with
  | cast _ hb =>
    obtain ⟨l, hl⟩ := hb.dumpedAs
    have ht := raises_dumped hl hr
    cases l <;> exact absurd ht (by decide)
  | served y w ha hy hin =>
    rcases hy with hy | ⟨_, d, rfl⟩
    · cases hy
    · obtain ⟨y, hy, rfl⟩ := List.mem_map.mp hin
      obtain ⟨f, hf, rfl⟩ := List.mem_map.mp hy
      have hk := @kindOf_marketOrder env d
      cases frame_origin (List.mem_of_mem_filter hf) with
      | failed state =>
        rw [show (errorFrame ⟨me, env.dump (marketOrder d), .text⟩ state).payload = encode "Internal server error" from rfl,
          raises_error hg] at hr
        cases hr
      | echoed state hk' | instruments state hk' _ => simp [hk] at hk'
      | updated hk' _ _ hp => exact absurd (raises_dumped ⟨_, hp, get?_openOrdersUpdate _⟩ hr) (by decide)
      | @operation op p state hk' ho =>
        obtain rfl : Operation.place = op := Kind.order.inj (hk.symm.trans hk')
        rcases place_result env (env.dump (marketOrder d)) w with ⟨text, ht, hp⟩ | ⟨j, _, hp, hj⟩
        · obtain rfl := Except.ok.inj (ho.symm.trans hp)
          refine ⟨d, w, text, ha, foreignText_of_glued ht, ⟨hr, fun t hd hplain => ?_⟩, rfl⟩
          rw [decode_eq_some_iff.mp hd] at hr
          exact absurd (raises_plain hg hplain hr) (by decide)
        · obtain rfl := Except.ok.inj (ho.symm.trans hp)
          exact absurd (raises_dumped ⟨j, rfl, hj⟩ hr) (by decide)

/-- The server reports no executions. Every interval that the end to end benchmark records
holds the arrival of a reply in which a foreign text forged one. -/
theorem interval_holds_forgery (hg : ParsesGrammar env) (r : Run (watch env .endToEndTradingLatency me) anyStep as s)
    (h : .recorded i start stop ∈ s.marks) : ∃ before mid after time d w text,
      s.marks = before ++ .lowered i "order_execution" :: (mid ++ .recorded i start stop :: after) ∧
      .heard "order_execution" (orderError text) time ∈ mid ∧ .serve (env.dump (marketOrder d)) w ∈ as ∧
      ForeignText env w text ∧ Forges env text := by
  have hw : ("order_execution", 5 * 1000000000) ∈ Watch.endToEndTradingLatency.waits :=
    List.mem_cons_of_mem _ (List.mem_singleton_self _)
  obtain ⟨before, mid, after, x, time, hm, hx⟩ := heard_before r h hw
  have hmem : .heard "order_execution" x time ∈ s.marks := by
    rw [hm]
    exact List.mem_append_right _ (List.mem_cons_of_mem _ (List.mem_append_left _ hx))
  obtain ⟨hc, hr⟩ := (traced r).heard _ x time hmem
  obtain ⟨d, w, text, ha, hf, hforge, rfl⟩ := execution_forged hg hc hr
  exact ⟨before, mid, after, time, d, w, text, hm, hx, ha, hf, hforge⟩

end Executions

section Runs
variable {env : Externals} {m : Watch} {me : Hdl} {s : Watcher} {as : List WatchAct} {x : Bytes} {type : String}

theorem deliver_raised (h : m.raises env x = some type) (rest : List Bytes) : s.deliver env m x rest =
    { s with down := rest, raised := type :: s.raised, marks := s.marks ++ [.heard type x s.clock] } := by
  rw [Watcher.deliver, h]

private theorem parse_emptyBook : parseJson grammarExternals emptyBook = .ok (.obj [("result", .obj [])]) := by
  have hread : readText emptyBook = some (.obj [("result", .obj [])]) := by
    rw [emptyBook, readText_encode]
    rfl
  refine (parseJson_ok_iff _).mpr ?_
  simp only [grammarExternals, hread, Json.canon_single]
  rfl

def emptyUpdate : Bytes := grammarExternals.dump (orderbookUpdate "BTC-PERPETUAL" 0 (.obj []))

private theorem casts_emptyUpdate :
    TurnCasts grammarExternals ["BTC-PERPETUAL"] (pollingThreads emptyBook) emptyUpdate :=
  turnCasts_book ⟨emptyBook, _, rfl, by decide, parse_emptyBook, rfl, rfl⟩

/-- Nothing has been asked for yet. -/
def watchStart (m : Watch) : Watcher := ⟨0, 0, .top, [], m.opening grammarExternals, [], []⟩

/-- The first update that comes ends the first interval. -/
theorem first_book_recorded : ∃ before mid after time t instrument timestamp data,
    [WatchMark.lowered 1 "orderbook_update", .waits "orderbook_update" 0, .heard "orderbook_update" emptyUpdate 0,
      .recorded 1 0 0] =
      before ++ .lowered 1 "orderbook_update" :: (mid ++ .recorded 1 0 0 :: after) ∧
    .heard "orderbook_update" (grammarExternals.dump (orderbookUpdate instrument timestamp data)) time ∈ mid ∧
    .cast (grammarExternals.dump (orderbookUpdate instrument timestamp data)) ∈
      [WatchAct.iterate, .lower, .begin, .go, .await, .cast emptyUpdate, .deliver emptyUpdate, .wake, .record] ∧
    t = pollingThreads emptyBook ∧ BookFrom grammarExternals ["BTC-PERPETUAL"] t instrument data := by
  have hraise : Watch.raises grammarExternals .marketDataLatency emptyUpdate = some "orderbook_update" :=
    raises_of_typed (parseJson_dump _ _) ((get?_dumped_str_iff _).mpr rfl) (List.mem_singleton_self _)
  have r0 : Run (watch grammarExternals .marketDataLatency 1)
      (BooksCast grammarExternals ["BTC-PERPETUAL"] (· = pollingThreads emptyBook)) [] (watchStart .marketDataLatency) :=
    .start ⟨0, rfl⟩
  have r := r0.next .iterate trivial ⟨rfl, rfl⟩
  have r1 := r.next .lower trivial ⟨_, _, rfl, rfl⟩
  have r2 := r1.next .begin trivial ⟨rfl, rfl⟩
  have r3 := r2.next .go trivial ⟨rfl, _, rfl, rfl⟩
  have r4 := r3.next .await trivial ⟨_, _, _, _, rfl, rfl⟩
  have r5 := r4.next (.cast emptyUpdate) (fun _ => ⟨_, rfl, casts_emptyUpdate⟩) ⟨casts_emptyUpdate.broadcasts, rfl⟩
  have r6 := r5.next (.deliver emptyUpdate) trivial ⟨[], [], rfl, (deliver_raised hraise _).symm⟩
  have r7 := r6.next .wake trivial ⟨_, _, _, _, rfl, List.mem_singleton_self _, rfl⟩
  have r8 := r7.next .record trivial ⟨_, rfl, rfl⟩
  exact interval_holds_book r8 (List.mem_append_right _ (List.mem_singleton_self _))

end Runs

section Forgery
variable {env : Externals} {d : MarketDraw} {body : Bytes}

/-- A token is cached, and every call is refused with this body. -/
def refusing (body : Bytes) : World := { tokenCached with api := .const (some ⟨400, body⟩) }

def refusal (body : Bytes) : Bytes := orderError (encode "Failed to process order: " ++ body)

/-- A refused order brings its reply, and then whatever the refresh brings. -/
private theorem reaching_refusal (hb : decode body ≠ none) : ∃ rest,
    reaching env 1 (env.dump (marketOrder d)) (refusing body) = refusal body :: rest := by
  obtain ⟨data, hc⟩ := @checkOrder_marketOrder env d
  have hf : TokenFresh (refusing body) := tokenCached_fresh
  have ht : tokenResult env (refusing body) = .ok tokenCached.accessToken := by
    rw [tokenResult, if_pos hf]
    rfl
  have hu : upstreamText env (some ⟨400, body⟩) = some (encode "Failed to process order: " ++ body) := by
    simp [upstreamText]
  have hglued : gluedText env (env.dump (marketOrder d)) (refusing body) =
      some (encode "Failed to process order: " ++ body) :=
    (gluedText_submitted _ _ _ (parseJson_dump _ _) hc ht).trans hu
  have ha : Operation.place.result env (env.dump (marketOrder d)) (refusing body) = .ok (refusal body) :=
    result_glued hglued
  have hdec : decode (refusal body) ≠ none := by
    rw [refusal, decode_orderError_ne, decode_encode_append]
    simpa using hb
  have hq : queues (refusing body).sender.head (refusal body) .text = true := (queues_iff _ _ _).mpr ⟨rfl, fun _ => hdec⟩
  obtain ⟨rest, hframes, _⟩ := @frames_order env ⟨1, env.dump (marketOrder d), .text⟩ (refusing body)
    _ _ (kindOf_marketOrder d) ha hq
  rw [reaching, arriving, hframes]
  simp [replyFrame, hq]

/-- What the reader of a refusal makes of it decides the flag it raises. -/
private theorem raises_refusal {j : Json} {t type : String} (hj : readText (refusal (encode t)) = some j)
    (hget : j.get? "type" = some (.str type)) (hw : type ∈ Watch.endToEndTradingLatency.flags) :
    Watch.raises grammarExternals .endToEndTradingLatency (refusal (encode t)) = some type := by
  have hp : parseJson grammarExternals (refusal (encode t)) = .ok j.canon := by
    refine (parseJson_ok_iff _).mpr ?_
    simp only [grammarExternals, hj]
  exact raises_of_typed hp (Json.get?_canon_str_iff.mpr hget) hw

private theorem raises_blank : Watch.raises grammarExternals .endToEndTradingLatency (refusal (encode "")) =
    some "order_response" := by
  have hread : readText (refusal (encode "")) = some (.obj [("type", .str "order_response"),
      ("error", .str "Failed to process order: ")]) := by
    rw [refusal, ← encode_append]
    refine (readText_orderError _ _).mpr ⟨_, _, _, _, decode_encode _, rfl, rfl⟩
  exact raises_refusal hread rfl (by decide)

/-- A body that closes the string it is put in. -/
def forgery : String := "\",\"type\":\"order_execution\",\"error\":\""

private theorem raises_forgery : Watch.raises grammarExternals .endToEndTradingLatency (refusal (encode forgery)) =
    some "order_execution" := by
  have hread : readText (refusal (encode forgery)) = some (.obj [("type", .str "order_response"),
      ("error", .str "Failed to process order: "), ("type", .str "order_execution"), ("error", .str "")]) := by
    rw [refusal, ← encode_append]
    refine (readText_orderError _ _).mpr ⟨_, _, _, _, decode_encode _, rfl, rfl⟩
  exact raises_refusal hread rfl (by decide)

def someOrder : MarketDraw := ⟨someDraw.contracts, someDraw.buy, someDraw.contracts_range⟩

/-- The first order is answered too late, so its response and the forged execution of the
second meet the second iteration. -/
def forgedActs (env : Externals) (wait : Nat) (x y : Bytes) (w w' : World) : List WatchAct :=
  [.iterate, .lower, .lower, .begin, .order someOrder, .await, .pass wait, .giveUp, .iterate, .lower, .lower, .begin,
    .order someOrder, .await, .serve (env.dump (marketOrder someOrder)) w,
    .serve (env.dump (marketOrder someOrder)) w', .deliver x, .wake, .await, .deliver y, .wake, .record]

def forgedMarks (clock wait : Nat) (x y : Bytes) : List WatchMark :=
  [.lowered 1 "order_response", .lowered 1 "order_execution", .waits "order_response" clock,
    .gaveUp 1 "order_response" (clock + wait), .lowered 2 "order_response", .lowered 2 "order_execution",
    .waits "order_response" (clock + wait), .heard "order_response" x (clock + wait),
    .waits "order_execution" (clock + wait), .heard "order_execution" y (clock + wait),
    .recorded 2 (clock + wait) (clock + wait)]

/-- The head of an iteration in which no flag is raised. -/
private theorem headed_run {as : List WatchAct} {clock i : Nat} {up down : List Bytes} {marks : List WatchMark}
    (r : Run (watch env .endToEndTradingLatency 1) anyStep as ⟨clock, i, .top, [], up, down, marks⟩) :
    Run (watch env .endToEndTradingLatency 1) anyStep (as ++ [.iterate] ++ [.lower] ++ [.lower] ++ [.begin])
      ⟨clock, i + 1, .timed clock, [], up, down,
        marks ++ [.lowered (i + 1) "order_response"] ++ [.lowered (i + 1) "order_execution"]⟩ := by
  have r1 := r.next .iterate trivial ⟨rfl, rfl⟩
  have r2 := r1.next .lower trivial ⟨_, _, rfl, rfl⟩
  have r3 := r2.next .lower trivial ⟨_, _, rfl, rfl⟩
  exact r3.next .begin trivial ⟨rfl, rfl⟩

private theorem forged_run {x y : Bytes} {w w' : World} {rest rest' : List Bytes}
    (hx : Watch.raises env .endToEndTradingLatency x = some "order_response")
    (hy : Watch.raises env .endToEndTradingLatency y = some "order_execution")
    (hw : reaching env 1 (env.dump (marketOrder someOrder)) w = x :: rest)
    (hw' : reaching env 1 (env.dump (marketOrder someOrder)) w' = y :: rest') (clock : Nat) {wait : Nat}
    (hl : 10 * 1000000000 ≤ wait) : ∃ s, s.marks = forgedMarks clock wait x y ∧
      Run (watch env .endToEndTradingLatency 1) anyStep (forgedActs env wait x y w w') s := by
  have r0 : Run (watch env .endToEndTradingLatency 1) anyStep [] ⟨clock, 0, .top, [], [], [], []⟩ :=
    .start ⟨clock, rfl⟩
  -- The first iteration waits in vain.
  have r1 := (headed_run r0).next (.order someOrder) trivial ⟨rfl, _, rfl, rfl⟩
  have r2 := r1.next .await trivial ⟨_, _, _, _, rfl, rfl⟩
  have r3 := r2.next (.pass wait) trivial rfl
  have r4 := r3.next .giveUp trivial ⟨_, _, _, _, rfl, Nat.add_le_add_left hl clock, List.not_mem_nil, rfl⟩
  -- The second hears both replies.
  have r5 := (headed_run r4).next (.order someOrder) trivial ⟨rfl, _, rfl, rfl⟩
  have r6 := r5.next .await trivial ⟨_, _, _, _, rfl, rfl⟩
  have r7 := r6.next (.serve (env.dump (marketOrder someOrder)) w) trivial ⟨[], [_], rfl, rfl⟩
  have r8 := r7.next (.serve (env.dump (marketOrder someOrder)) w') trivial ⟨[], [], rfl, rfl⟩
  have hdown : [] ++ reaching env 1 (env.dump (marketOrder someOrder)) w ++
      reaching env 1 (env.dump (marketOrder someOrder)) w' =
      [] ++ x :: (rest ++ y :: rest') := by rw [hw, hw', List.nil_append, List.cons_append, List.nil_append]
  have r9 := r8.next (.deliver x) trivial ⟨[], _, hdown, (deliver_raised hx _).symm⟩
  have r10 := r9.next .wake trivial ⟨_, _, _, _, rfl, List.mem_singleton_self _, rfl⟩
  have r11 := r10.next .await trivial ⟨_, _, _, _, rfl, rfl⟩
  have r12 := r11.next (.deliver y) trivial ⟨rest, rest', rfl, (deliver_raised hy _).symm⟩
  have r13 := r12.next .wake trivial ⟨_, _, _, _, rfl, List.mem_cons_self, rfl⟩
  have r14 := r13.next .record trivial ⟨_, rfl, rfl⟩
  refine ⟨_, ?_, Eq.subst (motive := fun as => Run _ anyStep as _) ?_ r14⟩
  · rfl
  · simp only [forgedActs, List.nil_append, List.cons_append]

private theorem forged_reached : ∃ s,
    s.marks = forgedMarks 0 (10 * 1000000000) (refusal (encode "")) (refusal (encode forgery)) ∧
    Run (watch grammarExternals .endToEndTradingLatency 1) anyStep (forgedActs grammarExternals (10 * 1000000000)
      (refusal (encode "")) (refusal (encode forgery)) (refusing (encode "")) (refusing (encode forgery))) s := by
  obtain ⟨rest, hrest⟩ := @reaching_refusal grammarExternals someOrder (encode "") (by simp)
  obtain ⟨rest', hrest'⟩ := @reaching_refusal grammarExternals someOrder (encode forgery) (by simp)
  exact forged_run raises_blank raises_forgery hrest hrest' 0 le_rfl

/-- One wait given up, and one interval recorded after both types were heard. -/
theorem forged_intervals_hear_all : Lawful (Allowed .endToEndTradingLatency)
    (forgedMarks 0 (10 * 1000000000) (refusal (encode "")) (refusal (encode forgery))) := by
  obtain ⟨s, hm, r⟩ := forged_reached
  rw [← hm]
  exact intervals_hear_all r

/-- A refusal that closes its own string is timed as an execution. -/
theorem forged_execution_recorded : ∃ before mid after time d w text,
    forgedMarks 0 (10 * 1000000000) (refusal (encode "")) (refusal (encode forgery)) =
      before ++ .lowered 2 "order_execution" :: (mid ++ .recorded 2 (0 + 10 * 1000000000) (0 + 10 * 1000000000) :: after) ∧
    .heard "order_execution" (orderError text) time ∈ mid ∧
    .serve (grammarExternals.dump (marketOrder d)) w ∈ forgedActs grammarExternals (10 * 1000000000) (refusal (encode ""))
      (refusal (encode forgery)) (refusing (encode "")) (refusing (encode forgery)) ∧
    ForeignText grammarExternals w text ∧ Forges grammarExternals text := by
  obtain ⟨s, hm, r⟩ := forged_reached
  have h : .recorded 2 (0 + 10 * 1000000000) (0 + 10 * 1000000000) ∈ s.marks := by
    rw [hm]
    simp [forgedMarks]
  rw [← hm]
  exact interval_holds_forgery parsesGrammar_grammar r h

end Forgery

end DeribitClientServer.Benchmark
