import DeribitClientServer.Library.Transition
import DeribitClientServer.Server.Loops

/-! The update threads over whole runs. An exception that leaves a turn ends the
process; only the order book's turn contains every exception. -/
namespace DeribitClientServer.Server
open Library Library.Utf8

inductive Loop where
  | orderbook | positions | openOrders
  deriving DecidableEq, Repr

def Loop.turn (env : Externals) (supported : List String) : Loop → Program Unit
  | .orderbook => orderbookTurn env supported
  | .positions => positionsTurn env
  | .openOrders => openOrdersTurn env

/-- The process with its update threads, until one of them lets an exception out. -/
structure Threads where
  world : World
  alive : Bool
  done : Bool

inductive Act where
  | turn (l : Loop)
  | outside (w : World)
  | finish

/-- What only the order book's thread writes is kept by everything else. -/
structure OutsideFrame (w w' : World) : Prop where
  pathBuffer : w'.pathBuffer = w.pathBuffer
  updateTemplate : w'.updateTemplate = w.updateTemplate
  lastUpdate : w'.lastUpdate = w.lastUpdate

def Threads.after (env : Externals) (supported : List String) (s : Threads) (l : Loop) : Threads :=
  let r := l.turn env supported s.world
  ⟨r.state, r.result.isOk, s.done⟩

/-- Turns are taken while the process lives and m_done is not set. -/
def updateLoops (env : Externals) (supported : List String) : Transition Threads Act where
  initial s := s.alive = true ∧ s.done = false ∧ s.world.updateTemplate = initialTemplate
  step s a s' :=
    match a with
    | .turn l => s.alive = true ∧ s.done = false ∧ s' = s.after env supported l
    | .outside w => s.alive = true ∧ OutsideFrame s.world w ∧ s' = { s with world := w }
    | .finish => s' = { s with done := true }

section Containment
variable (env : Externals) (supported : List String) (w : World)

/-- The answers of a positions turn all parse, and each broadcast it makes finds
only open connections. -/
def PositionsContained : Nat → Stream' Outcome → Stream' (List (Hdl × SessionState)) → Prop
  | 0, _, _ => True
  | n + 1, api, members =>
      match okBody api.head with
      | none => PositionsContained n api.tail members
      | some body => ∃ response, parseJson env body = .ok response ∧
          if response.contains "result" then AllOpened members.head ∧ PositionsContained n api.tail members.tail
          else PositionsContained n api.tail members

def TurnContained : Loop → Prop
  | .orderbook => True
  | .positions => TokenAvailable env w ∧ PositionsContained env positionPairs.length w.api w.members
  | .openOrders => RefreshOk env w

theorem orderbookTurn_total : Exec.Total (orderbookTurn env supported) :=
  Exec.Total.tryCatch (fun _ => Exec.Total.pure ())

private theorem positionsSteps_ok (accessToken : String) (pairs : List (String × String)) (w : World) :
    (pairs.forM (positionsStep env accessToken) w).result = .ok () ↔
      PositionsContained env pairs.length w.api w.members := by
  induction pairs generalizing w with
  | nil => exact iff_of_true rfl trivial
  | cons pair pairs ih =>
    have hrun : (pair :: pairs).forM (positionsStep env accessToken) w =
        (positionsStep env accessToken pair w).andThen (fun _ => pairs.forM (positionsStep env accessToken)) := rfl
    rw [hrun, List.length_cons, PositionsContained]
    simp only [positionsStep, Exec.run_bind, run_apiCall, Ran.andThen_ok]
    cases hb : okBody w.api.head with
    | none => simpa using ih { w with api := w.api.tail }
    | some body =>
      cases hp : parseJson env body with
      | error e => simp [hp]
      | ok response =>
        cases hc : response.contains "result" with
        | false => simpa [hp, hc] using ih { w with api := w.api.tail }
        | true =>
          obtain ⟨x, hx, hok⟩ := broadcast_run { w with api := w.api.tail }
            (decode_dump_ne env (positionsUpdate pair.1 pair.2 (member response "result")))
          simp only [Exec.run_bind, hp, Exec.ofExcept_ok, Exec.run_pure, Ran.andThen_ok, hc, if_true, hx]
          cases x with
          | error e => simp [hc, ← hok]
          | ok u =>
            have h := ih { w with api := w.api.tail, members := w.members.tail }
            simpa [hc, hok.mp rfl] using h

theorem positionsTurn_ok : (positionsTurn env w).result = .ok () ↔
    TokenAvailable env w ∧ PositionsContained env positionPairs.length w.api w.members := by
  unfold positionsTurn
  rw [Exec.run_bind, getAccessToken_run]
  cases ht : tokenResult env w with
  | error e => exact iff_of_false (by simp) (fun h => (not_tokenAvailable_iff env w).mpr ⟨e, ht⟩ h.1)
  | ok token =>
    have ha : TokenAvailable env w := (tokenAvailable_iff env w).mpr ⟨token, ht⟩
    rw [Ran.andThen_ok, Ran.after_result, positionsSteps_ok, (tokenFrame env w).api, (tokenFrame env w).members]
    exact (and_iff_right ha).symm

/-- A turn lets no exception out exactly when its calls and receivers are in order. -/
theorem turn_ok_iff (l : Loop) : (l.turn env supported w).result = .ok () ↔ TurnContained env w l := by
  cases l with
  | orderbook => exact iff_of_true (by obtain ⟨u, hu⟩ := orderbookTurn_total env supported w; exact hu) trivial
  | positions => exact positionsTurn_ok env w
  | openOrders => exact (refresh_run env w).1

end Containment

section Runs
variable {env : Externals} {supported : List String}

/-- Every turn taken is one whose exceptions are contained. -/
def Contained (env : Externals) (s : Threads) : Act → Prop
  | .turn l => TurnContained env s.world l
  | .outside _ | .finish => True

private theorem isOk_of_ok {x : Except Exn Unit} (h : x = .ok ()) : x.isOk = true := by
  subst h
  rfl

theorem alive_step {s s' : Threads} {a : Act} (hs : s.alive = true) (hg : Contained env s a)
    (h : (updateLoops env supported).step s a s') : s'.alive = true := by
  cases a with
  | turn l =>
    obtain ⟨_, _, rfl⟩ := h
    exact isOk_of_ok ((turn_ok_iff env supported s.world l).mpr hg)
  | outside w =>
    obtain ⟨_, _, rfl⟩ := h
    exact hs
  | finish =>
    obtain rfl := h
    exact hs

/-- While every positions and open orders turn has its token, parsable answers
and only open receivers, no thread ends the process and each can take its next
turn until m_done is set. -/
theorem loops_keep_iterating {as : List Act} {s : Threads}
    (r : (updateLoops env supported).Run (Contained env) as s) :
    s.alive = true ∧ (s.done = false → ∀ l, ∃ s', (updateLoops env supported).step s (.turn l) s') := by
  have ha : s.alive = true :=
    r.invariant (fun s => s.alive = true) (fun s h => h.1) (fun s a s' hs hg h => alive_step hs hg h)
  exact ⟨ha, fun hd l => ⟨s.after env supported l, ha, hd, rfl⟩⟩

end Runs

section Answered

/-- The process with a cached token and one connection, whose calls are answered. -/
def answeringThreads : Threads := ⟨{ answering with updateTemplate := initialTemplate }, true, false⟩

private theorem positionsContained_answering (n : Nat) :
    PositionsContained grammarExternals n answeringThreads.world.api answeringThreads.world.members := by
  induction n with
  | zero => trivial
  | succ n ih =>
    refine ⟨_, parse_emptyListing, ?_⟩
    have hresult : (Json.obj [("result", .arr [])]).contains "result" = true := rfl
    rw [if_pos hresult]
    exact ⟨refreshOk_answering.opened, ih⟩

private theorem contained_answering (l : Loop) : Contained grammarExternals answeringThreads (.turn l) := by
  cases l with
  | orderbook => exact trivial
  | positions => exact ⟨.inl tokenCached_fresh, positionsContained_answering _⟩
  | openOrders => exact ⟨.inl tokenCached_fresh, refreshOk_answering.parses, refreshOk_answering.opened⟩

private theorem answering_turn (l : Loop) : (updateLoops grammarExternals ["BTC-PERPETUAL"]).Run (Contained grammarExternals)
    [.turn l] (answeringThreads.after grammarExternals ["BTC-PERPETUAL"] l) := by
  have hstart : (updateLoops grammarExternals ["BTC-PERPETUAL"]).Run (Contained grammarExternals) [] answeringThreads :=
    .start ⟨rfl, rfl, rfl⟩
  exact hstart.next (.turn l) (contained_answering l) ⟨rfl, rfl, rfl⟩

/-- A turn that broadcasts the positions, or the open orders, leaves every thread able to go on. -/
theorem answered_turns_keep_iterating :
    ((answeringThreads.after grammarExternals ["BTC-PERPETUAL"] .positions).alive = true ∧
      ((answeringThreads.after grammarExternals ["BTC-PERPETUAL"] .positions).done = false → ∀ l, ∃ s',
        (updateLoops grammarExternals ["BTC-PERPETUAL"]).step
          (answeringThreads.after grammarExternals ["BTC-PERPETUAL"] .positions) (.turn l) s')) ∧
    (answeringThreads.after grammarExternals ["BTC-PERPETUAL"] .openOrders).alive = true ∧
      ((answeringThreads.after grammarExternals ["BTC-PERPETUAL"] .openOrders).done = false → ∀ l, ∃ s',
        (updateLoops grammarExternals ["BTC-PERPETUAL"]).step
          (answeringThreads.after grammarExternals ["BTC-PERPETUAL"] .openOrders) (.turn l) s') :=
  ⟨loops_keep_iterating (answering_turn .positions), loops_keep_iterating (answering_turn .openOrders)⟩

end Answered

section Failure

/-- The process just started, with nothing that answers it. -/
def unanswered : Threads := ⟨{ idleWorld with updateTemplate := initialTemplate }, true, false⟩

/-- One refused authentication in the open orders loop ends the process. -/
theorem refused_auth_terminates : ¬ ∀ (env : Externals) (supported : List String) (as : List Act) (s : Threads),
    (updateLoops env supported).Run Transition.anyStep as s → s.alive = true := by
  intro h
  have hstart : (updateLoops grammarExternals []).Run Transition.anyStep [] unanswered := .start ⟨rfl, rfl, rfl⟩
  have hstep : (updateLoops grammarExternals []).step unanswered (.turn .openOrders)
      (unanswered.after grammarExternals [] .openOrders) := ⟨rfl, rfl, rfl⟩
  have halive := h _ _ _ _ (.next hstart (.turn .openOrders) trivial hstep)
  have hfail : ¬ TurnContained grammarExternals unanswered.world .openOrders :=
    fun hr => not_tokenAvailable grammarExternals _ rfl rfl hr.token
  rw [← turn_ok_iff grammarExternals []] at hfail
  unfold Threads.after at halive
  cases hx : (Loop.openOrders.turn grammarExternals [] unanswered.world).result with
  | ok u => exact hfail hx
  | error e => simp [hx, Except.isOk, Except.toBool] at halive

end Failure
end DeribitClientServer.Server
