import DeribitClientServer.Server.UpdateFrames

/-! One polling cycle of the order book's thread. What it sends for an instrument
comes from that instrument's own answer, whatever the shared buffers held. -/
namespace DeribitClientServer.Server
open Library Library.JsonText Library.Utf8 Library.Members

/-- The members of an order book update, in key order. -/
def orderbookUpdate (instrument : String) (timestamp : Nat) (data : Json) : Json :=
  .obj [("data", data), ("instrument", .str instrument), ("timestamp", numberOf timestamp),
    ("type", .str "orderbook_update")]

/-- What the template can hold between instruments: what the loop put there, or
the update last filled in. -/
def TemplateReady (template : Json) : Prop :=
  template = initialTemplate ∨ ∃ instrument timestamp data, template = orderbookUpdate instrument timestamp data

theorem fillTemplate_ready {template : Json} (h : TemplateReady template) (instrument : String) (timestamp : Nat)
    (data : Json) : fillTemplate instrument timestamp data template = orderbookUpdate instrument timestamp data := by
  rcases h with rfl | ⟨_, _, _, rfl⟩
  · simp [fillTemplate, initialTemplate, orderbookUpdate, Json.set, put, erase]
  · simp [fillTemplate, orderbookUpdate, Json.set, put, erase]

/-- The call was answered with status 200 and an object that has this result and
no error. -/
def BookAnswer (env : Externals) (res : Outcome) (data : Json) : Prop :=
  ∃ body orderbook, okBody res = some body ∧ body.head? = some '\x7b'.toUInt8 ∧
    parseJson env body = .ok orderbook ∧ orderbook.get? "error" = none ∧ orderbook.get? "result" = some data

/-- The request for an instrument's book at depth 20, whose path ends before the first null character. -/
def bookRequest (instrument : String) : Request :=
  ⟨.get, String.ofList (("/api/v2/public/get_order_book?instrument_name=" ++ instrument ++ "&depth=20").toList.takeWhile
    fun c => c ≠ '\x00'), none, []⟩

section Attempts
variable (env : Externals) (timestamp : Nat)

/-- The payload a step broadcasts, if it broadcasts. -/
def attempt (instrument : String) (res : Outcome) : Option Bytes :=
  match okBody res with
  | none => none
  | some body =>
      if body.head? ≠ some '\x7b'.toUInt8 then none
      else
        match parseJson env body with
        | .error _ => none
        | .ok orderbook =>
            if !orderbook.contains "error" && orderbook.contains "result" then
              some (env.dump (orderbookUpdate instrument timestamp (member orderbook "result")))
            else none

/-- The instruments in their order, each with the payload its own answer gives. -/
def attempts (supported : List String) (api : Stream' Outcome) : List (String × Option Bytes) :=
  supported.mapIdx (fun n instrument => (instrument, attempt env timestamp instrument (api.get n)))

/-- One request for each instrument, and one broadcast for each payload. -/
def cycleTrace : List (String × Option Bytes) → Stream' (List (Hdl × SessionState)) → List Event
  | [], _ => []
  | (instrument, none) :: rest, members => .api (bookRequest instrument) :: cycleTrace rest members
  | (instrument, some p) :: rest, members =>
      .api (bookRequest instrument) :: (sends p members.head ++ cycleTrace rest members.tail)

theorem attempt_eq_some_iff (instrument : String) (res : Outcome) (p : Bytes) :
    attempt env timestamp instrument res = some p ↔
      ∃ data, BookAnswer env res data ∧ p = env.dump (orderbookUpdate instrument timestamp data) := by
  unfold attempt
  constructor
  · intro h
    cases hb : okBody res with
    | none => rw [hb] at h; cases h
    | some body =>
      simp only [hb] at h
      split_ifs at h with hh
      cases hp : parseJson env body with
      | error e => simp [hp] at h
      | ok orderbook =>
        simp only [hp] at h
        split_ifs at h with hc
        obtain ⟨he, hr⟩ : orderbook.get? "error" = none ∧ (orderbook.get? "result").isSome = true := by
          simpa [Json.contains] using hc
        obtain ⟨data, hd⟩ := Option.isSome_iff_exists.mp hr
        rw [member_eq_of_get? hd, Option.some_inj] at h
        exact ⟨data, ⟨body, orderbook, hb, not_not.mp hh, hp, he, hd⟩, h.symm⟩
  · rintro ⟨data, ⟨body, orderbook, hb, hh, hp, he, hd⟩, rfl⟩
    simp [hb, hh, hp, Json.contains, he, hd, member]

theorem getElem?_attempts (supported : List String) (api : Stream' Outcome) (n : Nat) :
    (attempts env timestamp supported api)[n]? =
      supported[n]?.map (fun instrument => (instrument, attempt env timestamp instrument (api.get n))) := by
  rw [attempts, List.getElem?_mapIdx]

private theorem attempts_cons (instrument : String) (supported : List String) (api : Stream' Outcome) :
    attempts env timestamp (instrument :: supported) api =
      (instrument, attempt env timestamp instrument api.head) :: attempts env timestamp supported api.tail := by
  rw [attempts, List.mapIdx_cons]
  rfl

end Attempts

section Cycle
variable {env : Externals} {timestamp : Nat} {w : World}

/-- What a step leaves when it hands nothing to broadcast. -/
def skipped (instrument : String) (w : World) : World :=
  { w with pathBuffer := orderbookPath instrument, api := w.api.tail }

/-- What it leaves when it hands over the template filled with this data. -/
def filledWith (timestamp : Nat) (instrument : String) (data : Json) (w : World) : World :=
  { skipped instrument w with updateTemplate := fillTemplate instrument timestamp data w.updateTemplate,
                              members := w.members.tail }

/-- A step hands the filled template to broadcast on a good answer and on no
other. Whatever that raises is caught. -/
theorem orderbookStep_cases (timestamp : Nat) (instrument : String) (w : World) :
    (∃ data, BookAnswer env w.api.head data ∧
      orderbookStep env timestamp instrument w = ⟨.ok (), filledWith timestamp instrument data w,
        .api (bookRequest instrument) ::
          sends (env.dump (fillTemplate instrument timestamp data w.updateTemplate)) w.members.head⟩) ∨
      (∀ data, ¬ BookAnswer env w.api.head data) ∧
        orderbookStep env timestamp instrument w = ⟨.ok (), skipped instrument w, [.api (bookRequest instrument)]⟩ := by
  unfold orderbookStep BookAnswer
  simp only [Exec.run_tryCatch, Exec.run_bind, Exec.run_modify, Exec.run_get, Ran.andThen_ok, run_apiCall]
  cases hb : okBody w.api.head with
  | none => exact .inr ⟨by simp, rfl⟩
  | some body =>
    by_cases hh : body.head? = some '\x7b'.toUInt8
    · simp only [hh, ne_eq, not_true_eq_false, if_false, Exec.run_bind, Exec.run_ofExcept]
      cases hp : parseJson env body with
      | error e => exact .inr ⟨by simp [hp], rfl⟩
      | ok orderbook =>
        cases hc : !orderbook.contains "error" && orderbook.contains "result" with
        | false =>
          simp only [hc, Ran.andThen_ok, Bool.false_eq_true, if_false]
          refine .inr ⟨?_, rfl⟩
          rintro data ⟨_, _, hbody, _, hparse, he, hr⟩
          obtain rfl := Option.some_inj.mp hbody
          obtain rfl := Except.ok.inj (hp.symm.trans hparse)
          simp [Json.contains, he, hr] at hc
        | true =>
          obtain ⟨he, hr⟩ : orderbook.get? "error" = none ∧ (orderbook.get? "result").isSome = true := by
            simpa [Json.contains] using hc
          obtain ⟨data, hd⟩ := Option.isSome_iff_exists.mp hr
          have hmember : member orderbook "result" = data := member_eq_of_get? hd
          refine .inl ⟨data, ⟨body, orderbook, rfl, hh, hp, he, hd⟩, ?_⟩
          obtain ⟨x, hx, _⟩ := broadcast_run (writeTemplate instrument timestamp data (skipped instrument w))
            (decode_dump_ne env (fillTemplate instrument timestamp data w.updateTemplate))
          simp only [hc, hmember, Ran.andThen_ok, if_true, Exec.run_bind, Exec.run_modify, Exec.run_get, Ran.after_nil,
            writeTemplate, skipped] at hx ⊢
          rw [hx]
          cases x with
          | ok u => rfl
          | error e => exact congrArg (Ran.mk _ _) (congrArg (List.cons _) (List.append_nil _))
    · simp only [hh, ne_eq, not_false_eq_true, if_true]
      refine .inr ⟨?_, rfl⟩
      rintro data ⟨_, _, hbody, hhead, _⟩
      obtain rfl := Option.some_inj.mp hbody
      exact hh hhead

/-- After a step the buffers are ready again, and only a broadcast has met the
members. -/
structure StepFrame (a : Option Bytes) (w w' : World) : Prop where
  api : w'.api = w.api.tail
  members : w'.members = if a.isSome then w.members.tail else w.members
  template : TemplateReady w'.updateTemplate

/-- A step sends what its own answer gives, and catches what that raises. -/
theorem orderbookStep_run (ht : TemplateReady w.updateTemplate) (instrument : String) :
    ∃ w', orderbookStep env timestamp instrument w = ⟨.ok (), w',
        .api (bookRequest instrument) :: ((attempt env timestamp instrument w.api.head).elim []
          (fun p => sends p w.members.head))⟩ ∧
      StepFrame (attempt env timestamp instrument w.api.head) w w' := by
  rcases @orderbookStep_cases env timestamp instrument w with ⟨data, hd, hrun⟩ | ⟨hn, hrun⟩
  · have ha : attempt env timestamp instrument w.api.head =
        some (env.dump (orderbookUpdate instrument timestamp data)) :=
      (attempt_eq_some_iff env timestamp instrument w.api.head _).mpr ⟨data, hd, rfl⟩
    have hfill := fillTemplate_ready ht instrument timestamp data
    rw [hrun, ha, hfill]
    exact ⟨_, rfl, rfl, rfl, .inr ⟨_, _, _, hfill⟩⟩
  · have ha : attempt env timestamp instrument w.api.head = none := by
      rw [Option.eq_none_iff_forall_ne_some]
      intro p hp
      obtain ⟨data, hd, _⟩ := (attempt_eq_some_iff env timestamp instrument w.api.head p).mp hp
      exact hn data hd
    rw [hrun, ha]
    exact ⟨_, rfl, rfl, rfl, ht⟩

private theorem cycleTrace_cons (instrument : String) (a : Option Bytes) (rest : List (String × Option Bytes))
    (members : Stream' (List (Hdl × SessionState))) :
    cycleTrace ((instrument, a) :: rest) members =
      .api (bookRequest instrument) :: (a.elim [] (fun p => sends p members.head) ++
        cycleTrace rest (if a.isSome then members.tail else members)) := by
  cases a <;> rfl

/-- The broadcasts of a cycle, each of which meets the members once. -/
def castCount (as : List (String × Option Bytes)) : Nat := as.countP (fun a => a.2.isSome)

/-- The loop over the instruments sends the payload of each, in their order. -/
theorem cycle_run (ht : TemplateReady w.updateTemplate) (supported : List String) :
    ∃ w', supported.forM (orderbookStep env timestamp) w = ⟨.ok (), w',
        cycleTrace (attempts env timestamp supported w.api) w.members⟩ ∧
      w'.members = w.members.drop (castCount (attempts env timestamp supported w.api)) ∧
      TemplateReady w'.updateTemplate := by
  induction supported generalizing w with
  | nil => exact ⟨w, rfl, rfl, ht⟩
  | cons instrument supported ih =>
    obtain ⟨w₁, hstep, hframe⟩ := @orderbookStep_run env timestamp w ht instrument
    obtain ⟨w₂, hrest, hmembers, hready⟩ := ih hframe.template
    have hrun : (instrument :: supported).forM (orderbookStep env timestamp) w =
        (orderbookStep env timestamp instrument w).andThen (fun _ => supported.forM (orderbookStep env timestamp)) := rfl
    refine ⟨w₂, ?_, ?_, hready⟩
    · rw [hrun, hstep, Ran.andThen_ok, hrest, attempts_cons, cycleTrace_cons, hframe.api, hframe.members]
      rfl
    · rw [hmembers, hframe.members, hframe.api, attempts_cons]
      unfold castCount
      rw [List.countP_cons]
      cases attempt env timestamp instrument w.api.head <;> rfl

theorem apiRequests_append (t u : List Event) : apiRequests (t ++ u) = apiRequests t ++ apiRequests u := by
  simp [apiRequests]

/-- A cycle asks once for each instrument, in their order. -/
theorem apiRequests_cycleTrace (as : List (String × Option Bytes)) (members : Stream' (List (Hdl × SessionState))) :
    apiRequests (cycleTrace as members) = as.map (fun a => bookRequest a.1) := by
  have hapi (r : Request) (t : List Event) : apiRequests (.api r :: t) = r :: apiRequests t := rfl
  induction as generalizing members with
  | nil => rfl
  | cons a rest ih =>
    obtain ⟨instrument, a⟩ := a
    rw [cycleTrace_cons, hapi, apiRequests_append, ih, List.map_cons]
    cases a with
    | none => rfl
    | some p => simp [apiRequests_sends]

end Cycle

section Turns
variable (env : Externals) (supported : List String) (w : World)

/-- The interval is over and somebody is connected. -/
def Polls : Prop := updateInterval ≤ w.steady.head - w.lastUpdate ∧ w.noneConnected.head = false

/-- What the turn of the order book's thread does, in terms of its own answers. -/
structure CycleIsolated : Prop where
  sent : Polls w → (orderbookTurn env supported w).trace =
    cycleTrace (attempts env w.system.head supported w.api) w.members
  received : Polls w → (orderbookTurn env supported w).state.members =
    w.members.drop (castCount (attempts env w.system.head supported w.api))
  requests : Polls w → apiRequests (orderbookTurn env supported w).trace = supported.map bookRequest
  payloads : ∀ n instrument p, (attempts env w.system.head supported w.api)[n]? = some (instrument, some p) ↔
    supported[n]? = some instrument ∧ ∃ data, BookAnswer env (w.api.get n) data ∧
      p = env.dump (orderbookUpdate instrument w.system.head data)
  isolated : ∀ (api : Stream' Outcome) n, api.get n = w.api.get n →
    (attempts env w.system.head supported api)[n]? = (attempts env w.system.head supported w.api)[n]?
  idle : ¬ Polls w → (orderbookTurn env supported w).trace = []

private theorem turn_polls {w : World} (ht : TemplateReady w.updateTemplate) (hp : Polls w) :
    (orderbookTurn env supported w).trace = cycleTrace (attempts env w.system.head supported w.api) w.members ∧
      (orderbookTurn env supported w).state.members =
        w.members.drop (castCount (attempts env w.system.head supported w.api)) ∧
      TemplateReady (orderbookTurn env supported w).state.updateTemplate := by
  obtain ⟨hdue, hsome⟩ := hp
  obtain ⟨w', hcycle, hmembers, hready⟩ := @cycle_run env w.system.head
    { w with steady := w.steady.tail, noneConnected := w.noneConnected.tail, system := w.system.tail } ht supported
  have hrun : orderbookTurn env supported w = ⟨.ok (), { w' with lastUpdate := w.steady.head },
      cycleTrace (attempts env w.system.head supported w.api) w.members⟩ := by
    unfold orderbookTurn
    simp only [Exec.run_tryCatch, Exec.run_bind, run_steadyNow, Ran.andThen_ok, Exec.run_get, not_lt.mpr hdue, if_false,
      run_connectionsEmpty, hsome, Bool.false_eq_true, run_systemNow, hcycle, Exec.run_modify]
    simp
  rw [hrun]
  exact ⟨rfl, hmembers, hready⟩

private theorem turn_idle {w : World} (hp : ¬ Polls w) : (orderbookTurn env supported w).trace = [] ∧
    (orderbookTurn env supported w).state.updateTemplate = w.updateTemplate := by
  unfold orderbookTurn
  simp only [Exec.run_tryCatch, Exec.run_bind, run_steadyNow, Ran.andThen_ok, Exec.run_get]
  by_cases hdue : w.steady.head - w.lastUpdate < updateInterval
  · simp [hdue]
  · cases hn : w.noneConnected.head with
    | true => simp [hdue, hn]
    | false => exact absurd ⟨not_lt.mp hdue, hn⟩ hp

theorem cycleIsolated {w : World} (ht : TemplateReady w.updateTemplate) : CycleIsolated env supported w := by
  refine ⟨fun hp => (turn_polls env supported ht hp).1, fun hp => (turn_polls env supported ht hp).2.1, fun hp => ?_,
    fun n instrument p => ?_, fun api n h => ?_, fun hp => (turn_idle env supported hp).1⟩
  · rw [(turn_polls env supported ht hp).1, apiRequests_cycleTrace]
    apply List.ext_getElem?
    intro n
    rw [List.getElem?_map, List.getElem?_map, getElem?_attempts, Option.map_map]
    rfl
  · rw [getElem?_attempts]
    simp [attempt_eq_some_iff]
  · rw [getElem?_attempts, getElem?_attempts, h]

private theorem of_mem_cycleTrace {as : List (String × Option Bytes)} {members : Stream' (List (Hdl × SessionState))}
    {f : Frame} (h : f ∈ frames (cycleTrace as members)) : ∃ instrument, (instrument, some f.payload) ∈ as := by
  induction as generalizing members with
  | nil => cases h
  | cons a rest ih =>
    obtain ⟨instrument, a⟩ := a
    rw [cycleTrace_cons, frames_api, frames_append] at h
    rcases List.mem_append.mp h with h | h
    · cases a with
      | none => cases h
      | some p => exact ⟨instrument, (of_mem_sends h).2 ▸ List.mem_cons_self⟩
    · obtain ⟨instrument', hmem⟩ := ih h
      exact ⟨instrument', List.mem_cons_of_mem _ hmem⟩

/-- The order book's thread sends nothing but the answers it got. -/
theorem orderbookTurn_frame {w : World} (ht : TemplateReady w.updateTemplate) {f : Frame}
    (h : f ∈ frames (orderbookTurn env supported w).trace) :
    ∃ n instrument data, supported[n]? = some instrument ∧ BookAnswer env (w.api.get n) data ∧
      f.payload = env.dump (orderbookUpdate instrument w.system.head data) := by
  have hc := cycleIsolated env supported ht
  by_cases hp : Polls w
  · rw [hc.sent hp] at h
    obtain ⟨instrument, hmem⟩ := of_mem_cycleTrace h
    obtain ⟨n, hn⟩ := List.mem_iff_getElem?.mp hmem
    obtain ⟨hs, data, hd, hpay⟩ := (hc.payloads n instrument f.payload).mp hn
    exact ⟨n, instrument, data, hs, hd, hpay⟩
  · rw [hc.idle hp] at h
    cases h

end Turns

section Runs
variable {env : Externals} {supported : List String}

/-- The buffers are ready in every run of the update threads. -/
theorem template_ready {guard : Threads → Act → Prop} {as : List Act} {s : Threads}
    (r : (updateLoops env supported).Run guard as s) : TemplateReady s.world.updateTemplate := by
  refine r.invariant (fun s => TemplateReady s.world.updateTemplate) (fun s h => .inl h.2.2) (fun s a s' hs _ h => ?_)
  cases a with
  | turn l =>
    obtain ⟨_, _, rfl⟩ := h
    by_cases hl : l = .orderbook
    · subst hl
      by_cases hp : Polls s.world
      · exact (turn_polls env supported hs hp).2.2
      · exact (turn_idle env supported hp).2 ▸ hs
    · exact (turn_template supported hl s.world).symm ▸ hs
  | outside w =>
    obtain ⟨_, hf, rfl⟩ := h
    exact hf.updateTemplate.symm ▸ hs
  | finish =>
    obtain rfl := h
    exact hs

/-- In every run, a polling cycle asks for each instrument once and broadcasts
one update for each good answer, made of that answer alone. -/
theorem orderbook_cycle_isolated {as : List Act} {s : Threads}
    (r : (updateLoops env supported).Run Transition.anyStep as s) : CycleIsolated env supported s.world :=
  cycleIsolated env supported (template_ready r)

end Runs

section HalfAnswered

def oneBook : Bytes := printText (.obj [("result", .obj [])])

/-- A process with one connection, whose second request is answered with a lone brace. -/
def halfAnswered : Threads :=
  ⟨{ idleWorld with
      api := .cons (some ⟨200, oneBook⟩) (.cons (some ⟨200, encode "\x7b"⟩) (.const (some ⟨200, oneBook⟩)))
      steady := .const updateInterval, updateTemplate := initialTemplate, members := .const [(1, .opened)],
      noneConnected := .const false }, true, false⟩

private theorem bookAnswer_oneBook : BookAnswer grammarExternals (some ⟨200, oneBook⟩) (.obj []) := by
  have hp : parseJson grammarExternals oneBook = .ok (.obj [("result", .obj [])]) := by
    rw [oneBook, parseJson_printed grammarExternals (Json.respell_some _), Json.canon_single]
    rfl
  exact ⟨oneBook, _, rfl, rfl, hp, rfl, rfl⟩

private theorem attempt_oneBook (instrument : String) : attempt grammarExternals 0 instrument (some ⟨200, oneBook⟩) =
    some (grammarExternals.dump (orderbookUpdate instrument 0 (.obj []))) :=
  (attempt_eq_some_iff _ _ _ _ _).mpr ⟨_, bookAnswer_oneBook, rfl⟩

/-- Between two instruments that are answered one fails, and each of them gets its own book. -/
theorem failure_between_isolated :
    (orderbookTurn grammarExternals ["BTC-PERPETUAL", "ETH-PERPETUAL", "SOL-PERPETUAL"] halfAnswered.world).trace =
      .api (bookRequest "BTC-PERPETUAL") ::
        (sends (grammarExternals.dump (orderbookUpdate "BTC-PERPETUAL" 0 (.obj []))) [(1, .opened)] ++
          .api (bookRequest "ETH-PERPETUAL") :: .api (bookRequest "SOL-PERPETUAL") ::
            sends (grammarExternals.dump (orderbookUpdate "SOL-PERPETUAL" 0 (.obj []))) [(1, .opened)]) := by
  have hc : CycleIsolated grammarExternals ["BTC-PERPETUAL", "ETH-PERPETUAL", "SOL-PERPETUAL"] halfAnswered.world :=
    orderbook_cycle_isolated (.start ⟨rfl, rfl, rfl⟩)
  have hlone : attempt grammarExternals 0 "ETH-PERPETUAL" (some ⟨200, encode "\x7b"⟩) = none := by rfl
  have hattempts : attempts grammarExternals halfAnswered.world.system.head
      ["BTC-PERPETUAL", "ETH-PERPETUAL", "SOL-PERPETUAL"] halfAnswered.world.api =
      [("BTC-PERPETUAL", some (grammarExternals.dump (orderbookUpdate "BTC-PERPETUAL" 0 (.obj [])))),
        ("ETH-PERPETUAL", none),
        ("SOL-PERPETUAL", some (grammarExternals.dump (orderbookUpdate "SOL-PERPETUAL" 0 (.obj []))))] := by
    rw [attempts_cons, attempts_cons, attempts_cons]
    exact congrArg₂ List.cons (congrArg _ (attempt_oneBook _)) (congrArg₂ List.cons (congrArg _ hlone)
      (congrArg₂ List.cons (congrArg _ (attempt_oneBook _)) rfl))
  rw [hc.sent ⟨le_rfl, rfl⟩, hattempts, cycleTrace, cycleTrace, cycleTrace, cycleTrace, List.append_nil]
  rfl

end HalfAnswered

end DeribitClientServer.Server
