import DeribitClientServer.Library.History
import DeribitClientServer.Library.Transition
import DeribitClientServer.Server.FrameOrigins

/-! The two benchmarks that time a reply: a loop that sends a message and waits
for a flag, and a handler that raises it on any reply of the awaited type. -/
namespace DeribitClientServer.Benchmark
open Library Library.Utf8 Server

inductive Measure where
  | websocketPropagationDelay
  | orderPlacementLatency
  deriving DecidableEq, Repr

/-- What an iteration draws at random. The price is the numeral of the double. -/
structure Draw where
  contracts : Nat
  price : Numeral
  buy : Bool
  contracts_range : 1 ≤ contracts ∧ contracts ≤ 10

def echoMessage : Json := .obj [("type", .str "echo"), ("data", .str "hello, server!")]

def order (d : Draw) : Json :=
  .obj [("type", .str "place_order"), ("data", .obj [("instrument_name", .str "btc-perpetual"),
    ("amount", numberOf (d.contracts * 10)), ("type", .str "limit"),
    ("direction", .str (if d.buy then "buy" else "sell")), ("price", .num d.price)])]

namespace Measure

def message : Measure → Draw → Json
  | .websocketPropagationDelay, _ => echoMessage
  | .orderPlacementLatency, d => order d

/-- The type of the replies that raise the flag. -/
def awaited : Measure → String
  | .websocketPropagationDelay => "echo"
  | .orderPlacementLatency => "order_response"

/-- The longest wait, in nanoseconds. -/
def patience : Measure → Nat
  | .websocketPropagationDelay => 5 * 1000000000
  | .orderPlacementLatency => 10 * 1000000000

/-- The handler's test of a payload. What parsing and operator[] throw is caught
there, with the flag untouched. -/
def takes (env : Externals) (m : Measure) (payload : Bytes) : Bool :=
  match (parseJson env payload).bind (fun response => index env response "type") with
  | .ok type => type.isStr m.awaited
  | .error _ => false

end Measure

/-- Where the loop stands, with the clock readings it has taken. -/
inductive Phase where
  | top
  | cleared
  | timed (start : Nat)
  | sent (start : Nat)
  | waiting (start deadline : Nat)
  | woken (start : Nat)
  deriving DecidableEq, Repr

/-- A message on its way, with the iteration that sent it. -/
structure Sent where
  iteration : Nat
  bytes : Bytes

/-- A frame on its way, with the iteration whose message it replies to. A
broadcast replies to none. -/
structure Letter where
  iteration : Option Nat
  bytes : Bytes

/-- What happens to an iteration: its own reply is taken, its wait ends, and an
interval is recorded. -/
inductive Mark where
  | received (iteration time : Nat)
  | waited (iteration time : Nat)
  | recorded (iteration start stop : Nat)
  deriving DecidableEq, Repr

structure Bench where
  clock : Nat
  iteration : Nat
  phase : Phase
  received : Bool
  up : List Sent
  down : List Letter
  marks : List Mark

/-- The loop's steps in the order of the source, then what the server, its other
threads and the handler do. -/
inductive BenchAct where
  | pass (time : Nat)
  | clear
  | begin
  | send (d : Draw)
  | fail
  | await
  | wake
  | giveUp
  | record
  | serve (x : Sent) (w : World)
  | cast (payload : Bytes)
  | deliver (x : Letter)

section Steps
variable (env : Externals) (m : Measure) (me : Hdl)

/-- The loop's head: messagereceived = false. -/
def Bench.clear (s : Bench) : Bench := { s with iteration := s.iteration + 1, phase := .cleared, received := false }

def Bench.send (s : Bench) (start : Nat) (d : Draw) : Bench :=
  { s with phase := .sent start, up := s.up ++ [⟨s.iteration, env.dump (m.message d)⟩] }

/-- The end of wait_for, with or without the flag. -/
def Bench.waited (s : Bench) (phase : Phase) : Bench :=
  { s with phase := phase, marks := s.marks ++ [.waited s.iteration s.clock] }

/-- state.setiterationtime of the time since start. -/
def Bench.record (s : Bench) (start : Nat) : Bench :=
  { s with phase := .top, marks := s.marks ++ [.recorded s.iteration start s.clock] }

/-- The frames that reach the benchmark while one of its messages is handled. -/
def arriving (x : Sent) (w : World) : List Letter :=
  ((frames (processMessage env ⟨me, x.bytes, .text⟩ w).trace).filter (fun f => f.hdl = me && f.queued)).map
    (fun f => ⟨if f.via = .reply then some x.iteration else none, f.payload⟩)

def Bench.serve (s : Bench) (x : Sent) (rest : List Sent) (w : World) : Bench :=
  { s with up := rest, down := s.down ++ arriving env me x w }

/-- The handler's mark when it takes a reply. -/
def taken (s : Bench) (x : Letter) : List Mark :=
  if m.takes env x.bytes then (x.iteration.map (fun i => Mark.received i s.clock)).toList else []

def Bench.deliver (s : Bench) (x : Letter) (rest : List Letter) : Bench :=
  { s with down := rest, received := s.received || m.takes env x.bytes, marks := s.marks ++ taken env m s x }

/-- Messages are served and frames delivered in any order and at any time, or
never. The loop's thread and the handler's interleave between any two steps. -/
def bench : Transition Bench BenchAct where
  initial s := ∃ clock, s = ⟨clock, 0, .top, false, [], [], []⟩
  step s a s' :=
    match a with
    | .pass time => s' = { s with clock := s.clock + time }
    | .clear => s.phase = .top ∧ s' = s.clear
    | .begin => s.phase = .cleared ∧ s' = { s with phase := .timed s.clock }
    | .send d => ∃ start, s.phase = .timed start ∧ s' = s.send env m start d
    -- send raised: skipwitherror and continue
    | .fail => ∃ start, s.phase = .timed start ∧ s' = { s with phase := .top }
    | .await => ∃ start, s.phase = .sent start ∧ s' = { s with phase := .waiting start (s.clock + m.patience) }
    | .wake => ∃ start deadline, s.phase = .waiting start deadline ∧ s.received = true ∧ s' = s.waited (.woken start)
    | .giveUp => ∃ start deadline, s.phase = .waiting start deadline ∧ deadline ≤ s.clock ∧ s.received = false ∧
        s' = s.waited .top
    | .record => ∃ start, s.phase = .woken start ∧ s' = s.record start
    | .serve x w => ∃ before after, s.up = before ++ x :: after ∧ s' = s.serve env me x (before ++ after) w
    | .cast p => Broadcasts env p ∧ s' = { s with down := s.down ++ [⟨none, p⟩] }
    | .deliver x => ∃ before after, s.down = before ++ x :: after ∧ s' = s.deliver env m x (before ++ after)

end Steps
end DeribitClientServer.Benchmark
