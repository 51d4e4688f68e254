import DeribitClientServer.Benchmark.Attribution

/-! The two benchmarks that wait for what the server says on its own: updates of an order
book, and the execution of an order after the response to it. -/
namespace DeribitClientServer.Benchmark
open Library Library.Utf8 Library.History Library.Transition Server

inductive Watch where
  | marketDataLatency
  | endToEndTradingLatency
  deriving DecidableEq, Repr

structure MarketDraw where
  contracts : Nat
  buy : Bool
  contracts_range : 1 ≤ contracts ∧ contracts ≤ 10

def subscribe : Json :=
  .obj [("type", .str "subscribe"), ("channel", .str "orderbook"), ("instrument_name", .str "btc-perpetual")]

def marketOrder (d : MarketDraw) : Json :=
  .obj [("type", .str "place_order"), ("data", .obj [("instrument_name", .str "btc-perpetual"),
    ("amount", numberOf (d.contracts * 10)), ("type", .str "market"), ("direction", .str (if d.buy then "buy" else "sell"))])]

namespace Watch

/-- What an iteration waits for, one after the other: the type of a frame, and the longest
wait for it in nanoseconds. -/
def waits : Watch → List (String × Nat)
  | .marketDataLatency => [("orderbook_update", 5 * 1000000000)]
  | .endToEndTradingLatency => [("order_response", 10 * 1000000000), ("order_execution", 5 * 1000000000)]

/-- The flags that the handler raises, in the order in which the loop's head lowers them. -/
def flags (m : Watch) : List String := m.waits.map Prod.fst

/-- Whether an iteration sends an order before it waits. -/
def orders : Watch → Bool
  | .marketDataLatency => false
  | .endToEndTradingLatency => true

/-- What is sent before the first iteration. -/
def opening (env : Externals) : Watch → List Bytes
  | .marketDataLatency => [env.dump subscribe]
  | .endToEndTradingLatency => []

/-- The flag that the handler raises on a payload. What is thrown there is caught there. -/
def raises (env : Externals) (m : Watch) (payload : Bytes) : Option String :=
  match (parseJson env payload).bind (fun response => index env response "type") with
  | .ok (.str type) => if type ∈ m.flags then some type else none
  | .ok _ | .error _ => none

end Watch

/-- Where the loop stands, with the flags it has still to lower and what it has still to wait for. -/
inductive Watching where
  | top
  | lowering (flags : List String)
  | timed (start : Nat)
  | ready (start : Nat) (rest : List (String × Nat))
  | waiting (start : Nat) (type : String) (deadline : Nat) (rest : List (String × Nat))

inductive WatchMark where
  | lowered (iteration : Nat) (type : String)
  | waits (type : String) (time : Nat)
  | heard (type : String) (payload : Bytes) (time : Nat)
  | gaveUp (iteration : Nat) (type : String) (time : Nat)
  | recorded (iteration start stop : Nat)
  deriving DecidableEq, Repr

structure Watcher where
  clock : Nat
  iteration : Nat
  phase : Watching
  raised : List String
  up : List Bytes
  down : List Bytes
  marks : List WatchMark

inductive WatchAct where
  | pass (time : Nat)
  | iterate
  | lower
  | begin
  | order (d : MarketDraw)
  | fail
  | go
  | await
  | wake
  | giveUp
  | record
  | serve (x : Bytes) (w : World)
  | cast (payload : Bytes)
  | deliver (x : Bytes)

section Steps
variable (env : Externals) (m : Watch) (me : Hdl)

/-- The frames that reach the benchmark while a message of its is handled. -/
def reaching (x : Bytes) (w : World) : List Bytes := (arriving env me ⟨0, x⟩ w).map Letter.bytes

def Watcher.lower (s : Watcher) (type : String) (flags : List String) : Watcher :=
  { s with
    phase := .lowering flags
    raised := s.raised.filter (· ≠ type)
    marks := s.marks ++ [.lowered s.iteration type] }

def Watcher.await (s : Watcher) (start : Nat) (type : String) (patience : Nat) (rest : List (String × Nat)) : Watcher :=
  { s with phase := .waiting start type (s.clock + patience) rest, marks := s.marks ++ [.waits type s.clock] }

def Watcher.giveUp (s : Watcher) (type : String) : Watcher :=
  { s with phase := .top, marks := s.marks ++ [.gaveUp s.iteration type s.clock] }

def Watcher.record (s : Watcher) (start : Nat) : Watcher :=
  { s with phase := .top, marks := s.marks ++ [.recorded s.iteration start s.clock] }

def Watcher.deliver (s : Watcher) (x : Bytes) (rest : List Bytes) : Watcher :=
  match m.raises env x with
  | some type => { s with down := rest, raised := type :: s.raised, marks := s.marks ++ [.heard type x s.clock] }
  | none => { s with down := rest }

/-- The loop's steps in the order of the source, then those of the server, its other threads
and the handler. Each flag is lowered by a store of its own, and the handler may run between
two. Frames are delivered in any order and at any time, or never. -/
def watch : Transition Watcher WatchAct where
  initial s := ∃ clock, s = ⟨clock, 0, .top, [], m.opening env, [], []⟩
  step s a s' :=
    match a with
    | .pass time => s' = { s with clock := s.clock + time }
    | .iterate => s.phase = .top ∧ s' = { s with iteration := s.iteration + 1, phase := .lowering m.flags }
    | .lower => ∃ type flags, s.phase = .lowering (type :: flags) ∧ s' = s.lower type flags
    | .begin => s.phase = .lowering [] ∧ s' = { s with phase := .timed s.clock }
    | .order d => m.orders = true ∧ ∃ start, s.phase = .timed start ∧
        s' = { s with phase := .ready start m.waits, up := s.up ++ [env.dump (marketOrder d)] }
    -- send raised: skipwitherror and continue
    | .fail => m.orders = true ∧ ∃ start, s.phase = .timed start ∧ s' = { s with phase := .top }
    | .go => m.orders = false ∧ ∃ start, s.phase = .timed start ∧ s' = { s with phase := .ready start m.waits }
    | .await => ∃ start type patience rest, s.phase = .ready start ((type, patience) :: rest) ∧
        s' = s.await start type patience rest
    | .wake => ∃ start type deadline rest, s.phase = .waiting start type deadline rest ∧ type ∈ s.raised ∧
        s' = { s with phase := .ready start rest }
    | .giveUp => ∃ start type deadline rest, s.phase = .waiting start type deadline rest ∧ deadline ≤ s.clock ∧
        type ∉ s.raised ∧ s' = s.giveUp type
    | .record => ∃ start, s.phase = .ready start [] ∧ s' = s.record start
    | .serve x w => ∃ before after, s.up = before ++ x :: after ∧
        s' = { s with up := before ++ after, down := s.down ++ reaching env me x w }
    | .cast p => Broadcasts env p ∧ s' = { s with down := s.down ++ [p] }
    | .deliver x => ∃ before after, s.down = before ++ x :: after ∧ s' = s.deliver env m x (before ++ after)

end Steps

section Waiting
variable {env : Externals} {m : Watch} {me : Hdl} {s s' : Watcher} {a : WatchAct} {as : List WatchAct}
  {marks mid : List WatchMark} {mids : String → List WatchMark} {i : Nat} {e : WatchMark} {type : String}

/-- What happened since the flag of this type was lowered for an iteration. -/
def Since (marks : List WatchMark) (i : Nat) (type : String) (mid : List WatchMark) : Prop :=
  ∃ before, marks = before ++ .lowered i type :: mid

theorem Since.concat (h : Since marks i type mid) (e : WatchMark) : Since (marks ++ [e]) i type (mid ++ [e]) := by
  obtain ⟨before, rfl⟩ := h
  exact ⟨before, by rw [List.append_assoc, List.cons_append]⟩

/-- An interval is recorded once a frame of each type waited for was heard since the flag of
its type was lowered, and given up when the whole wait went by without one. -/
def Allowed (m : Watch) (before : List WatchMark) : WatchMark → Prop
  | .recorded i _ _ => ∀ p ∈ m.waits, ∃ mid, Since before i p.1 mid ∧ ∃ x time, .heard p.1 x time ∈ mid
  | .gaveUp i type time => ∃ mid, Since before i type mid ∧ (∀ x t, .heard type x t ∉ mid) ∧
      ∃ patience t, (type, patience) ∈ m.waits ∧ .waits type t ∈ mid ∧ t + patience ≤ time
  | .lowered _ _ | .waits _ _ | .heard _ _ _ => True

/-- The flags that are not lowered yet. -/
def Watching.left : Watching → List String
  | .lowering flags => flags
  | .top | .timed _ | .ready _ _ | .waiting _ _ _ _ => []

/-- What the phase says of the waits that are over and of the one that is not. -/
def Watching.Stands (m : Watch) (raised : List String) (mids : String → List WatchMark) : Watching → Prop
  | .top | .lowering _ | .timed _ => True
  | .ready _ rest => ∃ heeded, m.waits = heeded ++ rest ∧ ∀ p ∈ heeded, p.1 ∈ raised
  | .waiting _ type deadline rest => ∃ heeded patience t, m.waits = heeded ++ (type, patience) :: rest ∧
      (∀ p ∈ heeded, p.1 ∈ raised) ∧ .waits type t ∈ mids type ∧ t + patience = deadline

/-- A flag that is lowered stands for what was heard since. -/
structure Lowered (s : Watcher) (type : String) (mid : List WatchMark) : Prop where
  since : Since s.marks s.iteration type mid
  raised : type ∈ s.raised ↔ ∃ x time, .heard type x time ∈ mid

/-- An iteration under way, with what happened since each of its flags was lowered. -/
structure Iterating (m : Watch) (s : Watcher) (mids : String → List WatchMark) : Prop where
  lowered : ∀ type ∈ m.flags, type ∉ s.phase.left → Lowered s type (mids type)
  stands : s.phase.Stands m s.raised mids

structure WatchInv (m : Watch) (s : Watcher) : Prop where
  lawful : Lawful (Allowed m) s.marks
  iterating : s.phase ≠ .top → ∃ mids, Iterating m s mids

private theorem heard_concat (he : ∀ x time, e ≠ .heard type x time) :
    (∃ x time, .heard type x time ∈ mid ++ [e]) ↔ ∃ x time, .heard type x time ∈ mid := by
  constructor
  · rintro ⟨x, time, h⟩
    rcases List.mem_append.mp h with h | h
    · exact ⟨x, time, h⟩
    · exact absurd (List.mem_singleton.mp h).symm (he x time)
  · rintro ⟨x, time, h⟩
    exact ⟨x, time, List.mem_append_left _ h⟩

/-- A flag is as it was after a mark that is not about it. -/
private theorem Lowered.marked (h : Lowered s type mid) (hm : s'.marks = s.marks ++ [e]) (hn : s'.iteration = s.iteration)
    (hr : type ∈ s'.raised ↔ type ∈ s.raised) (he : ∀ x time, e ≠ .heard type x time) : Lowered s' type (mid ++ [e]) := by
  refine ⟨?_, ?_⟩
  · rw [hm, hn]
    exact h.since.concat e
  · rw [hr, heard_concat he]
    exact h.raised

/-- A step that leaves the marks and the flags alone. -/
private theorem watchInv_moved (hi : WatchInv m s) (hm : s'.marks = s.marks) (hr : s'.raised = s.raised)
    (hn : s'.iteration = s.iteration) (ht : s'.phase ≠ .top → s.phase ≠ .top)
    (hl : s'.phase ≠ .top → s'.phase.left = s.phase.left)
    (hs : ∀ mids, s.phase.Stands m s.raised mids → s'.phase.Stands m s.raised mids) : WatchInv m s' := by
  refine ⟨hm ▸ hi.lawful, fun hp => ?_⟩
  obtain ⟨mids, hmids⟩ := hi.iterating (ht hp)
  refine ⟨mids, fun type ht' hleft => ?_, by rw [hr]; exact hs mids hmids.stands⟩
  rw [hl hp] at hleft
  obtain ⟨hsince, hraised⟩ := hmids.lowered type ht' hleft
  exact ⟨by rw [hm, hn]; exact hsince, by rw [hr]; exact hraised⟩

private theorem Stands.heard {raised : List String} {phase : Watching} (h : phase.Stands m raised mids) :
    phase.Stands m (type :: raised) (fun type => mids type ++ [e]) := by
  cases phase with
  | top | lowering flags | timed start => trivial
  | ready start rest =>
    obtain ⟨heeded, hwaits, hraised⟩ := h
    exact ⟨heeded, hwaits, fun p hp => List.mem_cons_of_mem _ (hraised p hp)⟩
  | waiting start type' deadline rest =>
    obtain ⟨heeded, patience, t, hwaits, hraised, hw, ht⟩ := h
    exact ⟨heeded, patience, t, hwaits, fun p hp => List.mem_cons_of_mem _ (hraised p hp), List.mem_append_left _ hw, ht⟩

private theorem watchInv_deliver (hi : WatchInv m s) (x : Bytes) (rest : List Bytes) :
    WatchInv m (s.deliver env m x rest) := by
  unfold Watcher.deliver
  split
  · next type hx =>
    refine ⟨lawful_concat.mpr ⟨hi.lawful, trivial⟩, fun hp => ?_⟩
    obtain ⟨mids, hmids⟩ := hi.iterating hp
    refine ⟨fun type' => mids type' ++ [.heard type x s.clock], fun type' hmem hleft => ?_, Stands.heard hmids.stands⟩
    have hlow := hmids.lowered type' hmem hleft
    by_cases ht : type' = type
    · subst ht
      refine ⟨hlow.since.concat _, iff_of_true List.mem_cons_self ?_⟩
      exact ⟨x, s.clock, List.mem_append_right _ (List.mem_singleton_self _)⟩
    · refine hlow.marked rfl rfl ?_ fun x' time h => ht (WatchMark.heard.inj h).1.symm
      rw [List.mem_cons]
      exact ⟨fun h => h.resolve_left ht, .inr⟩
  · exact watchInv_moved hi rfl rfl rfl id (fun _ => rfl) fun _ => id

private theorem watchInv_lower (hi : WatchInv m s) {flags : List String} (hp : s.phase = .lowering (type :: flags)) :
    WatchInv m (s.lower type flags) := by
  refine ⟨lawful_concat.mpr ⟨hi.lawful, trivial⟩, fun _ => ?_⟩
  obtain ⟨mids, hmids⟩ := hi.iterating (by rw [hp]; exact Watching.noConfusion)
  refine ⟨Function.update (fun type' => mids type' ++ [.lowered s.iteration type]) type [], fun type' hmem hleft => ?_,
    trivial⟩
  by_cases ht : type' = type
  · subst ht
    rw [Function.update_self]
    exact ⟨⟨s.marks, rfl⟩, iff_of_false (by simp [Watcher.lower]) (by simp)⟩
  · rw [Function.update_of_ne ht]
    refine (hmids.lowered type' hmem ?_).marked rfl rfl (by simp [Watcher.lower, ht]) fun _ _ => WatchMark.noConfusion
    rw [hp, Watching.left, List.mem_cons]
    exact fun h => h.elim ht hleft

private theorem mem_flags {p : String × Nat} (hp : p ∈ m.waits) : p.1 ∈ m.flags := List.mem_map_of_mem hp

theorem watchInv_step (hi : WatchInv m s) (h : (watch env m me).step s a s') : WatchInv m s' := by
  cases a with
  | pass time =>
    obtain rfl := h
    exact watchInv_moved hi rfl rfl rfl id (fun _ => rfl) fun _ => id
  | iterate =>
    obtain ⟨_, rfl⟩ := h
    exact ⟨hi.lawful, fun _ => ⟨fun _ => [], fun type hmem hleft => absurd hmem hleft, trivial⟩⟩
  | lower =>
    obtain ⟨type, flags, hp, rfl⟩ := h
    exact watchInv_lower hi hp
  | begin =>
    obtain ⟨hp, rfl⟩ := h
    exact watchInv_moved hi rfl rfl rfl (fun _ h => by rw [hp] at h; cases h) (fun _ => by rw [hp]; rfl) fun _ _ => trivial
  | order d =>
    obtain ⟨_, start, hp, rfl⟩ := h
    exact watchInv_moved hi rfl rfl rfl (fun _ h => by rw [hp] at h; cases h) (fun _ => by rw [hp]; rfl)
      fun _ _ => ⟨[], rfl, by simp⟩
  | fail =>
    obtain ⟨_, start, _, rfl⟩ := h
    exact watchInv_moved hi rfl rfl rfl (fun h => absurd rfl h) (fun h => absurd rfl h) fun _ _ => trivial
  | go =>
    obtain ⟨_, start, hp, rfl⟩ := h
    exact watchInv_moved hi rfl rfl rfl (fun _ h => by rw [hp] at h; cases h) (fun _ => by rw [hp]; rfl)
      fun _ _ => ⟨[], rfl, by simp⟩
  | await =>
    obtain ⟨start, type, patience, rest, hp, rfl⟩ := h
    obtain ⟨mids, hmids⟩ := hi.iterating (by rw [hp]; exact Watching.noConfusion)
    have hstands := hmids.stands
    rw [hp] at hstands
    obtain ⟨heeded, hwaits, hraised⟩ := hstands
    refine ⟨lawful_concat.mpr ⟨hi.lawful, trivial⟩, fun _ =>
      ⟨fun t => mids t ++ [.waits type s.clock], fun t hmem _ => ?_, ?_⟩⟩
    · have hlow := hmids.lowered t hmem (by rw [hp]; exact List.not_mem_nil)
      exact hlow.marked rfl rfl Iff.rfl fun _ _ => WatchMark.noConfusion
    · exact ⟨heeded, patience, s.clock, hwaits, hraised, List.mem_append_right _ (List.mem_singleton_self _), rfl⟩
  | wake =>
    obtain ⟨start, type, deadline, rest, hp, hr, rfl⟩ := h
    refine watchInv_moved hi rfl rfl rfl (fun _ h => by rw [hp] at h; cases h) (fun _ => by rw [hp]; rfl) fun mids hs => ?_
    rw [hp] at hs
    obtain ⟨heeded, patience, _, hwaits, hraised, _, _⟩ := hs
    refine ⟨heeded ++ [(type, patience)], by rw [hwaits, List.append_assoc, List.singleton_append], fun p hp => ?_⟩
    rcases List.mem_append.mp hp with hp | hp
    · exact hraised p hp
    · rw [List.mem_singleton.mp hp]
      exact hr
  | giveUp =>
    obtain ⟨start, type, deadline, rest, hp, hd, hr, rfl⟩ := h
    obtain ⟨mids, hmids⟩ := hi.iterating (by rw [hp]; exact Watching.noConfusion)
    have hstands := hmids.stands
    rw [hp] at hstands
    obtain ⟨heeded, patience, t, hwaits, _, hw, ht⟩ := hstands
    have hmem : (type, patience) ∈ m.waits := by
      rw [hwaits]
      exact List.mem_append_right _ List.mem_cons_self
    have hlow := hmids.lowered type (mem_flags hmem) (by rw [hp]; exact List.not_mem_nil)
    refine ⟨lawful_concat.mpr ⟨hi.lawful, mids type, hlow.since, fun x time hx => hr (hlow.raised.mpr ⟨x, time, hx⟩),
      patience, t, hmem, hw, ht.trans_le hd⟩, fun h => absurd rfl h⟩
  | record =>
    obtain ⟨start, hp, rfl⟩ := h
    obtain ⟨mids, hmids⟩ := hi.iterating (by rw [hp]; exact Watching.noConfusion)
    have hstands := hmids.stands
    rw [hp] at hstands
    obtain ⟨heeded, hwaits, hraised⟩ := hstands
    rw [List.append_nil] at hwaits
    refine ⟨lawful_concat.mpr ⟨hi.lawful, fun p hmem => ?_⟩, fun h => absurd rfl h⟩
    have hlow := hmids.lowered p.1 (mem_flags hmem) (by rw [hp]; exact List.not_mem_nil)
    exact ⟨mids p.1, hlow.since, hlow.raised.mp (hraised p (hwaits ▸ hmem))⟩
  | serve x w =>
    obtain ⟨before, after, _, rfl⟩ := h
    exact watchInv_moved hi rfl rfl rfl id (fun _ => rfl) fun _ => id
  | cast p =>
    obtain ⟨_, rfl⟩ := h
    exact watchInv_moved hi rfl rfl rfl id (fun _ => rfl) fun _ => id
  | deliver x =>
    obtain ⟨before, after, _, rfl⟩ := h
    exact watchInv_deliver hi x _

/-- In every run an interval is recorded only after a frame of each type waited for came since
the flag of its type was lowered, and a wait is given up only after its whole time without one. -/
theorem intervals_hear_all (r : Run (watch env m me) anyStep as s) : Lawful (Allowed m) s.marks := by
  have hi : WatchInv m s := by
    refine r.invariant (WatchInv m) (fun s h => ?_) fun s a s' hi _ h => watchInv_step hi h
    obtain ⟨clock, rfl⟩ := h
    exact ⟨lawful_nil, fun h => absurd rfl h⟩
  exact hi.lawful

end Waiting

end DeribitClientServer.Benchmark
