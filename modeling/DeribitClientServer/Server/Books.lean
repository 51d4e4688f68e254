import DeribitClientServer.Server.FrameOrigins
import DeribitClientServer.Server.OrderbookCycle

/-! Where the order books come from that are broadcast: a thread asked for the
instrument and was answered. -/
namespace DeribitClientServer.Server
open Library Library.JsonText Library.Utf8

/-- A turn of the order book's thread from this state asks for the instrument and is
answered with this book. -/
def BookFrom (env : Externals) (supported : List String) (s : Threads) (instrument : String) (data : Json) : Prop :=
  ∃ n, (apiRequests (orderbookTurn env supported s.world).trace)[n]? = some (bookRequest instrument) ∧
    BookAnswer env (s.world.api.get n) data

/-- A turn of a thread from this state, which the process reaches, broadcasts this payload. -/
def TurnCasts (env : Externals) (supported : List String) (s : Threads) (x : Bytes) : Prop :=
  (∃ as, (updateLoops env supported).Run Transition.anyStep as s) ∧
    ∃ (l : Loop) (f : Frame), f ∈ frames (l.turn env supported s.world).trace ∧ f.payload = x

section Sources
variable {env : Externals} {supported : List String} {s : Threads} {x : Bytes}

/-- The numbers of a book are spelled as they are stored, since it was parsed. -/
theorem BookFrom.stored {instrument : String} {data : Json} (h : BookFrom env supported s instrument data) :
    data.stored env.spelling = data := by
  obtain ⟨_, _, _, _, _, _, hp, _, hr⟩ := h
  exact Json.stored_of_get? (stored_of_parsed env hp) hr

/-- The type of a frame tells the thread whose turn broadcast it. -/
theorem updateType_of_frame {as : List Act} {l : Loop} {f : Frame} {t : String}
    (r : (updateLoops env supported).Run Transition.anyStep as s) (hf : f ∈ frames (l.turn env supported s.world).trace)
    (ht : HasType f.payload t) : l.updateType = t :=
  (turn_frames (template_typed r) hf).2.hasType.inj ht

/-- A dumped payload reaches a connection that is open. -/
theorem mem_sends_opened (env : Externals) (j : Json) :
    (⟨.broadcast, 1, env.dump j, true⟩ : Frame) ∈ frames (sends (env.dump j) [(1, .opened)]) := by
  have hq : queues .opened (env.dump j) .text = true := (queues_iff _ _ _).mpr ⟨rfl, fun _ => decode_dump_ne _ _⟩
  simp [sends, hq]

/-- Of the turns only the order book's broadcasts its updates. -/
theorem book_of_turnCasts (hc : TurnCasts env supported s x) (ht : DumpedAs env x "orderbook_update") :
    ∃ instrument timestamp data, BookFrom env supported s instrument data ∧
      x = env.dump (orderbookUpdate instrument timestamp data) := by
  obtain ⟨⟨as, r⟩, l, f, hf, rfl⟩ := hc
  have hl : l.updateType = "orderbook_update" := updateType_of_frame r hf ht.hasType
  cases l with
  | positions | openOrders => exact absurd hl (by decide)
  | orderbook =>
    have hcycle : CycleIsolated env supported s.world := cycleIsolated env supported (template_ready r)
    obtain ⟨n, instrument, data, hn, hd, hp⟩ := orderbookTurn_frame env supported (template_ready r) hf
    have hpolls : Polls s.world := by
      by_contra hidle
      rw [Loop.turn, hcycle.idle hidle] at hf
      cases hf
    refine ⟨instrument, _, data, ⟨n, ?_, hd⟩, hp⟩
    rw [hcycle.requests hpolls, List.getElem?_map, hn]
    rfl

theorem TurnCasts.broadcasts (hc : TurnCasts env supported s x) : Broadcasts env x := by
  obtain ⟨⟨as, r⟩, l, f, hf, rfl⟩ := hc
  exact .turn r hf

/-- A process that polls one instrument for one connection, and is answered so. -/
def pollingThreads (body : Bytes) : Threads :=
  ⟨{ idleWorld with api := .const (some ⟨200, body⟩), updateTemplate := initialTemplate, steady := .const updateInterval,
                    members := .const [(1, .opened)], noneConnected := .const false }, true, false⟩

/-- A process with a token and one connection, whose calls are answered so. -/
def answeredThreads (body : Bytes) : Threads :=
  ⟨{ tokenCached with api := .const (some ⟨200, body⟩), updateTemplate := initialTemplate,
                      members := .const [(1, .opened)] }, true, false⟩

/-- Any book an exchange can answer with is broadcast in the first turn. -/
theorem turnCasts_book {instrument : String} {body : Bytes} {data : Json} (hd : BookAnswer env (some ⟨200, body⟩) data) :
    TurnCasts env [instrument] (pollingThreads body) (env.dump (orderbookUpdate instrument 0 data)) := by
  have hr : (updateLoops env [instrument]).Run Transition.anyStep [] (pollingThreads body) := .start ⟨rfl, rfl, rfl⟩
  have ha : attempt env 0 instrument (some ⟨200, body⟩) = some (env.dump (orderbookUpdate instrument 0 data)) :=
    (attempt_eq_some_iff _ _ _ _ _).mpr ⟨data, hd, rfl⟩
  have hcycle : attempts env (pollingThreads body).world.system.head [instrument] (pollingThreads body).world.api =
      [(instrument, some (env.dump (orderbookUpdate instrument 0 data)))] := congrArg (fun a => [(instrument, a)]) ha
  have hsent := (cycleIsolated env [instrument] (template_ready hr)).sent ⟨le_rfl, rfl⟩
  refine ⟨⟨[], hr⟩, .orderbook, ⟨.broadcast, 1, env.dump (orderbookUpdate instrument 0 data), true⟩, ?_, rfl⟩
  rw [Loop.turn, hsent, hcycle]
  change _ ∈ frames (.api _ :: (sends _ [(1, .opened)] ++ []))
  rw [frames_api, List.append_nil]
  exact mem_sends_opened env _

end Sources
end DeribitClientServer.Server
