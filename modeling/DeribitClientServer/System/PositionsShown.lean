import DeribitClientServer.Client.Positions
import DeribitClientServer.Server.Books
import DeribitClientServer.Server.PositionsCycle
import DeribitClientServer.System.FrameTypes

/-! The positions shown and the answers of the exchange they come from. -/
namespace DeribitClientServer.System
open Library Library.JsonText Library.Utf8 Library.Members Server Client

section Arrival
variable (env : Externals) (supported : List String) (turns : Threads → Prop)

/-- A turn from this state asks for the positions of the pair and is answered with these. -/
def PositionsFrom (s : Threads) (c k : String) (data : Json) : Prop :=
  (c, k) ∈ positionPairs ∧ ∃ accessToken n,
    (apiRequests (positionsTurn env s.world).trace)[n]? = some (positionsPost env accessToken (c, k)) ∧
    PositionsAnswer env (s.world.api.get n) data

/-- An update of positions comes from one of these turns. -/
def PositionsArrive (event : Bytes) : Prop :=
  strictEq (typeOf event) "positions_update" = true → ∃ s, turns s ∧ TurnCasts env supported s event

variable {env supported turns} {sc : Script} {event : Bytes} {s : Threads}

private theorem positions_of_turnCasts (hc : TurnCasts env supported s event) (ht : HasType event "positions_update") :
    ∃ c k data, PositionsFrom env s c k data ∧ event = env.dump (positionsUpdate c k data) := by
  obtain ⟨⟨as, r⟩, l, f, hf, rfl⟩ := hc
  have hl : l.updateType = "positions_update" := updateType_of_frame r hf ht
  cases l with
  | orderbook | openOrders => exact absurd hl (by decide)
  | positions =>
    obtain ⟨accessToken, n, ⟨c, k⟩, data, hmem, hn, hd, hp⟩ := positionsTurn_frame hf
    exact ⟨c, k, data, ⟨hmem, accessToken, n, hn, hd⟩, hp⟩

private theorem positionsIn_update (c k : String) (data : Json) : positionsIn sc (env.dump (positionsUpdate c k data)) =
    some ((c, k), some (data.stored env.spelling).canon) := by
  have hstr (key s : String) (h : (positionsUpdate c k data).get? key = some (.str s)) :
      ((positionsUpdate c k data).stored env.spelling).canon.get? key = some (.str s) := (get?_dumped_str_iff env).mpr h
  have hd : ((positionsUpdate c k data).stored env.spelling).canon.get? "data" = some (data.stored env.spelling).canon := by
    rw [Json.get?_canon, Json.get?_stored]
    rfl
  rw [positionsIn, env.dump_reads, Option.bind_some, hstr "type" _ rfl, hstr "currency" _ rfl,
    hstr "kind" _ rfl, hd, if_pos (strictEq_iff.mpr rfl)]
  rfl

/-- The numbers of an answer are spelled as they are stored, since it was parsed. -/
theorem PositionsFrom.stored {c k : String} {data : Json} (h : PositionsFrom env s c k data) :
    data.stored env.spelling = data := by
  obtain ⟨_, _, _, _, _, _, _, hp, hr⟩ := h
  exact Json.stored_of_get? (stored_of_parsed env hp) hr

/-- What an update stores for a pair is what its turn asked for and was answered with. -/
theorem positionsFrom_of_update {c k : String} {data : Value} (ha : PositionsArrive env supported turns event)
    (hu : positionsIn sc event = some ((c, k), data)) :
    ∃ s answer, turns s ∧ PositionsFrom env s c k answer ∧ data = some answer.canon := by
  have ht : strictEq (typeOf event) "positions_update" = true := by
    by_contra h
    rw [positionsIn_other (Bool.not_eq_true _ ▸ h)] at hu
    cases hu
  obtain ⟨s, hs, hc⟩ := ha ht
  obtain ⟨c', k', answer, hfrom, rfl⟩ := positions_of_turnCasts hc ((strictEq_typeOf _ _).mp ht)
  rw [positionsIn_update, hfrom.stored, Option.some_inj] at hu
  obtain ⟨hpair, rfl⟩ := Prod.mk.inj hu
  obtain ⟨rfl, rfl⟩ := Prod.mk.inj hpair
  exact ⟨s, answer, hs, hfrom, rfl⟩

end Arrival

section Shown
variable {env : Externals} {supported : List String} {turns : Threads → Prop} {acts : List TableAct}

/-- The row is in an answer to one of these turns, of the type selected, and of the currency
selected unless all are shown. -/
def RowAnswered (sc : Script) (env : Externals) (turns : Threads → Prop) (t : PositionsTable) (row : Json) : Prop :=
  ∃ s c data, turns s ∧ (t.selectedCurrency.1 = "any" ∨ c = t.selectedCurrency.1) ∧
    PositionsFrom env s c t.selectedType.1 data ∧ row ∈ rowsOf sc (some (some data.canon))

variable (sc : Script)

private theorem stored_answered (h : ∀ event ∈ framesOf acts, PositionsArrive env supported turns event) {c k : String}
    {row : Json} (hrow : row ∈ rowsOf sc (latest sc (framesOf acts) c k)) :
    ∃ s data, turns s ∧ PositionsFrom env s c k data ∧ row ∈ rowsOf sc (some (some data.canon)) := by
  cases hl : latest sc (framesOf acts) c k with
  | none =>
    rw [hl, rowsOf_none] at hrow
    cases hrow
  | some data =>
    obtain ⟨event, hevent, hu⟩ := List.mem_filterMap.mp (mem_of_lookup hl)
    obtain ⟨s, answer, hs, hfrom, rfl⟩ := positionsFrom_of_update (h event hevent) hu
    exact ⟨s, answer, hs, hfrom, hl ▸ hrow⟩

/-- After any frames and choices, every row shown is in an answer that one of the turns got
for the currency and type it is shown under. -/
theorem positions_shown_answered (h : ∀ event ∈ framesOf acts, PositionsArrive env supported turns event) {row : Json}
    (hrow : row ∈ flattened ((PositionsTable.after sc acts).displayedPositions sc)) :
    RowAnswered sc env turns (PositionsTable.after sc acts) row := by
  by_cases hany : (PositionsTable.after sc acts).selectedCurrency.1 = "any"
  · obtain ⟨rows, hshown, hperm⟩ := displayedPositions_any sc acts hany
    rw [hshown] at hrow
    obtain ⟨c, _, hc⟩ := List.mem_flatMap.mp (hperm.mem_iff.mp hrow)
    obtain ⟨s, data, hs, hfrom, hin⟩ := stored_answered sc h hc
    exact ⟨s, c, data, hs, .inl hany, hfrom, hin⟩
  · rw [displayedPositions_one sc acts hany, flattened_orEmpty] at hrow
    obtain ⟨s, data, hs, hfrom, hin⟩ := stored_answered sc h hrow
    exact ⟨s, _, data, hs, .inr rfl, hfrom, hin⟩

end Shown

section OnePosition
variable {env : Externals} {body : Bytes} {data : Json}

private theorem casts_positions (hd : PositionsAnswer env (some ⟨200, body⟩) data) :
    TurnCasts env [] (answeredThreads body) (env.dump (positionsUpdate "BTC" "future" data)) := by
  refine ⟨⟨[], .start ⟨rfl, rfl, rfl⟩⟩, .positions,
    ⟨.broadcast, 1, env.dump (positionsUpdate "BTC" "future" data), true⟩, ?_, rfl⟩
  exact positionsTurn_first (w := (answeredThreads body).world) (.inl tokenCached_fresh) hd (mem_sends_opened env _)

def oneUpdate (env : Externals) (data : Json) : List TableAct :=
  [.frame (env.dump (positionsUpdate "BTC" "future" data))]

/-- The first pair shown is the one updated. -/
private theorem shown_after_update (sc : Script) {row : Json} {rows : List Json} (hst : data.stored env.spelling = data)
    (hrows : data.canon = .arr (row :: rows)) :
    row ∈ flattened ((PositionsTable.after sc (oneUpdate env data)).displayedPositions sc) := by
  have hselected : (PositionsTable.after sc (oneUpdate env data)).selectedCurrency.1 = "BTC" ∧
      (PositionsTable.after sc (oneUpdate env data)).selectedType.1 = "future" := by
    rw [PositionsTable.after, oneUpdate, List.foldl_cons, List.foldl_nil, PositionsTable.act, PositionsTable.receive_eq,
      positionsIn_update]
    exact ⟨rfl, rfl⟩
  have hlatest : latest sc (framesOf (oneUpdate env data)) "BTC" "future" = some (some data.canon) := by
    have hu := @positionsIn_update env sc "BTC" "future" data
    rw [hst] at hu
    rw [latest, updatesIn, show framesOf (oneUpdate env data) = [env.dump (positionsUpdate "BTC" "future" data)] from rfl,
      List.filterMap_cons_some hu]
    rfl
  rw [displayedPositions_one sc _ (by rw [hselected.1]; decide), hselected.1, hselected.2, hlatest,
    flattened_orEmpty, hrows, rowsOf_arr]
  exact List.mem_cons_self

private theorem oneUpdate_arrives (hd : PositionsAnswer env (some ⟨200, body⟩) data) :
    ∀ event ∈ framesOf (oneUpdate env data), PositionsArrive env [] (· = answeredThreads body) event := by
  intro event hevent _
  have h : event = env.dump (positionsUpdate "BTC" "future" data) := List.mem_singleton.mp hevent
  exact ⟨_, rfl, h ▸ casts_positions hd⟩

def onePosition : Json := .obj [("instrument_name", .str "BTC-PERPETUAL")]

def onePositionText : Bytes := printText (.obj [("result", .arr [onePosition])])

private theorem canon_onePosition : (Json.arr [onePosition]).canon = .arr [onePosition] := by
  rw [Json.canon_arr, List.map_singleton, onePosition, Json.canon_single, Json.canon_str]

private theorem answer_onePosition : PositionsAnswer grammarExternals (some ⟨200, onePositionText⟩) (.arr [onePosition]) := by
  have hp : parseJson grammarExternals onePositionText = .ok (.obj [("result", .arr [onePosition])]) := by
    rw [onePositionText, parseJson_printed grammarExternals (Json.respell_some _), Json.canon_single, canon_onePosition]
  exact ⟨onePositionText, _, rfl, hp, rfl⟩

/-- The first turn's only position is the row shown. -/
theorem onePosition_shown : RowAnswered plainScript grammarExternals (· = answeredThreads onePositionText)
    (PositionsTable.after plainScript (oneUpdate grammarExternals (.arr [onePosition]))) onePosition :=
  positions_shown_answered plainScript (oneUpdate_arrives answer_onePosition)
    (shown_after_update plainScript (Json.stored_some _) canon_onePosition)

end OnePosition
end DeribitClientServer.System
