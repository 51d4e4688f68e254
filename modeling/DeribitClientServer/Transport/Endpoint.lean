import DeribitClientServer.Library.Transition
import DeribitClientServer.Transport.Connection

/-! An open connection among its callers and its transport. Any thread may send, and
reads, writes and timers complete in any order. -/
namespace DeribitClientServer.Transport
open Library Library.Utf8 Library.Endian Library.Mask Library.Chunked
open Server (SessionState)

/-- A connection with what its transport and its callers are in the middle of, and
what has happened so far. -/
structure Endpoint where
  con : Connection
  posted : Nat
  writing : Option Bytes
  reading : Bool
  unread : Option Bytes
  passed : List Message
  wire : Bytes
  input : Bytes
  queued : List (Message × OutMessage)
  written : List OutMessage
  broken : Bool
  taken : List Message
  handled : List Message
  answered : List Message
  shutdown : Bool

inductive Act where
  | send (m : Message)
  | push (i : Nat) (key : UInt32)
  | close (code : UInt16) (reason : Bytes) (key : UInt32)
  | writeFrame
  | transmit (n : Nat)
  | wrote
  | writeFailed (message : Bytes)
  | read (b : Bytes)
  | readFailed (ec : ReadError)
  | turn (key : UInt32)
  | timeout

namespace Endpoint

def start (isServer : Bool) (maxMessageSize : Nat) : Endpoint where
  con := .opened isServer maxMessageSize
  posted := 0
  writing := none
  reading := true
  unread := none
  passed := []
  wire := []
  input := []
  queued := []
  written := []
  broken := false
  taken := []
  handled := []
  answered := []
  shutdown := false

def perform (s : Endpoint) : Effect → Endpoint
  | .queued m out => { s with queued := s.queued ++ [(m, out)] }
  | .dispatch => { s with posted := s.posted + 1 }
  | .asyncWrite b => { s with writing := some b }
  | .taken m => { s with taken := s.taken ++ [m] }
  | .message m => { s with handled := s.handled ++ [m] }
  | .answered m => { s with answered := s.answered ++ [m] }
  | .asyncShutdown => { s with shutdown := true }

/-- A handler has run. -/
def act (s : Endpoint) (r : Acted) : Endpoint := r.2.foldl perform { s with con := r.1 }

/-- A send is let through while the connection is open and joins the queue later. A size
always fits 64 bits. Once the socket is shut down no byte goes out any more: a write ends well
only if its bytes were out before. -/
def step (host : Host) (s : Endpoint) : Act → Option Endpoint
  | .send m =>
    if s.con.state = .opened ∧ m.payload.length < UInt64.size then some { s with passed := s.passed ++ [m] } else none
  | .push i key => s.passed[i]?.map fun m => { s with passed := s.passed.eraseIdx i }.act (s.con.sendOpen host key m)
  | .close code reason key => some (s.act (s.con.close host key code reason).1)
  | .writeFrame => if s.posted = 0 then none else some ({ s with posted := s.posted - 1 }.act s.con.writeFrame)
  | .transmit n =>
    if s.shutdown then none else s.writing.map fun b => { s with writing := some (b.drop n), wire := s.wire ++ b.take n }
  | .wrote =>
    if s.writing = some [] then
      some ({ s with writing := none, written := s.written ++ s.con.currentMsgs }.act (s.con.handleWriteFrame none))
    else none
  | .writeFailed message =>
    s.writing.map fun _ => { s with writing := none, broken := true }.act (s.con.handleWriteFrame (some message))
  | .read b =>
    if s.reading ∧ b ≠ [] then some { s with reading := false, unread := some b, input := s.input ++ b } else none
  | .readFailed ec => if s.reading then some ({ s with reading := false }.act (s.con.handleReadError ec)) else none
  | .turn key =>
    match s.unread with
    | none => none
    | some [] => some { s with unread := none, reading := true }
    | some b => some ({ s with unread := (s.con.readTurn host key b).2 }.act (s.con.readTurn host key b).1)
  | .timeout => if s.con.handshakeTimer then some (s.act s.con.handleCloseHandshakeTimeout) else none

theorem step_transmit {host : Host} {s s' : Endpoint} {n : Nat} : s.step host (.transmit n) = some s' ↔
    s.shutdown = false ∧ ∃ b, s.writing = some b ∧
      { s with writing := some (b.drop n), wire := s.wire ++ b.take n } = s' := by
  cases h : s.shutdown with
  | true => simp [step, h]
  | false => simp [step, h]

/-- A caller's send that nobody interrupts, with whether the message was queued. -/
def sendNow (host : Host) (s : Endpoint) (m : Message) (key : UInt32) : Endpoint × Bool :=
  (s.act (s.con.send host key m).1, (s.con.send host key m).2.isNone)

/-- Steps taken one after the other. -/
def steps (host : Host) (s : Endpoint) (as : List Act) : Option Endpoint := as.foldlM (fun s a => s.step host a) s

end Endpoint

/-- One end of a connection, whose peer may send anything. -/
def connection (host : Host) (isServer : Bool) (maxMessageSize : Nat) : Transition Endpoint Act where
  initial s := s = .start isServer maxMessageSize
  step s a s' := s.step host a = some s'

namespace Endpoint

theorem run_of_steps {host : Host} {isServer : Bool} {maxMessageSize : Nat} {guard : Endpoint → Act → Prop} {as : List Act}
    {s : Endpoint} (hg : ∀ s, ∀ a ∈ as, guard s a) (h : (start isServer maxMessageSize).steps host as = some s) :
    (connection host isServer maxMessageSize).Run guard as s := by
  rw [steps] at h
  induction as using List.reverseRecOn generalizing s with
  | nil =>
    obtain rfl := Option.some.inj h
    exact .start rfl
  | append_singleton as a ih =>
    rw [List.foldlM_append, Option.bind_eq_bind, Option.bind_eq_some_iff] at h
    obtain ⟨t, ht, hstep⟩ := h
    rw [List.foldlM_cons, Option.bind_eq_bind, Option.bind_eq_some_iff] at hstep
    obtain ⟨s', hs', hend⟩ := hstep
    obtain rfl := Option.some.inj hend
    have r := ih (fun s b hb => hg s b (List.mem_append_left _ hb)) ht
    exact r.next a (hg t a (List.mem_append_right _ (List.mem_singleton_self a))) hs'

/-- The send queue with its writer. -/
def outbox (s : Endpoint) : Outbox OutMessage where
  queue := s.con.sendQueue
  current := s.con.currentMsgs
  busy := s.con.writeFlag
  wakes := s.posted
  pushed := s.queued.map Prod.snd
  written := s.written
  broken := s.broken

section Acting
variable {host : Host} {s s' : Endpoint} {c : Connection} {m : Message} {out : OutMessage} {P : Message → OutMessage → Prop}

/-- What a handler that queues nothing leaves alone. -/
structure Quiet (s s' : Endpoint) : Prop where
  outbox : s'.outbox = s.outbox
  size : s'.con.sendBufferSize = s.con.sendBufferSize
  queued : s'.queued = s.queued
  writing : s'.writing = s.writing
  wire : s'.wire = s.wire
  passed : s'.passed = s.passed
  isServer : s'.con.isServer = s.con.isServer

/-- What a handler that queues a message changes. -/
structure Pushed (s s' : Endpoint) (m : Message) (out : OutMessage) : Prop where
  outbox : s'.outbox = s.outbox.push out
  size : s'.con.sendBufferSize = s.con.sendBufferSize + out.payload.length
  queued : s'.queued = s.queued ++ [(m, out)]
  writing : s'.writing = s.writing
  wire : s'.wire = s.wire
  passed : s'.passed = s.passed
  isServer : s'.con.isServer = s.con.isServer

/-- What a handler that takes no message from the processor leaves alone. -/
structure SameReads (s s' : Endpoint) : Prop where
  processor : s'.con.processor = s.con.processor
  reading : s'.reading = s.reading
  unread : s'.unread = s.unread
  input : s'.input = s.input
  taken : s'.taken = s.taken
  handled : s'.handled = s.handled
  answered : s'.answered = s.answered
  state : s'.con.state = .opened → s.con.state = .opened

theorem act_push : s.act (c.push m out) =
    { s with
      con := c.writePush out
      queued := s.queued ++ [(m, out)]
      posted := if c.writeFlag then s.posted else s.posted + 1 } := by
  have hne : (c.sendQueue ++ [out]).isEmpty = false := by simp
  simp only [act, Connection.push, Connection.writePush, hne]
  cases c.writeFlag <;> rfl

theorem act_push_shutdown : (s.act (c.push m out)).shutdown = s.shutdown := by
  rw [act_push]

private theorem foldl_perform {β : Type} {f : Endpoint → β} (hf : ∀ t e, f (perform t e) = f t) (es : List Effect) (t : Endpoint) :
    f (es.foldl perform t) = f t := by
  induction es generalizing t with
  | nil => rfl
  | cons e es ih => rw [List.foldl_cons, ih, hf]

theorem act_con (r : Acted) : (s.act r).con = r.1 :=
  foldl_perform (f := con) (fun _ e => by cases e <;> rfl) r.2 _

theorem act_unread {r : Acted} : (s.act r).unread = s.unread :=
  foldl_perform (f := unread) (fun _ e => by cases e <;> rfl) r.2 _

/-- Handlers move no bytes. -/
theorem act_streams (r : Acted) : (s.act r).wire = s.wire ∧ (s.act r).input = s.input ∧ (s.act r).passed = s.passed ∧
    (s.act r).broken = s.broken :=
  ⟨foldl_perform (f := wire) (fun _ e => by cases e <;> rfl) r.2 _, foldl_perform (f := input) (fun _ e => by cases e <;> rfl) r.2 _,
    foldl_perform (f := passed) (fun _ e => by cases e <;> rfl) r.2 _,
    foldl_perform (f := broken) (fun _ e => by cases e <;> rfl) r.2 _⟩

/-- An effect that comes before a handler's own. -/
theorem act_cons {e : Effect} {r : Acted} : s.act (r.1, e :: r.2) = (s.act (c, [e])).act r := by
  cases e <;> rfl

theorem pushed_act (hk : Connection.Keeps s.con c) :
    Pushed s (s.act (c.push m out)) m out ∧ SameReads s (s.act (c.push m out)) := by
  rw [act_push]
  refine ⟨⟨?_, ?_, rfl, rfl, rfl, rfl, hk.isServer⟩, hk.processor, rfl, rfl, rfl, rfl, rfl, rfl, hk.state⟩
  · rw [outbox, outbox, Outbox.push]
    simp only [Connection.writePush, hk.sendQueue, hk.currentMsgs, hk.writeFlag, List.map_append, List.map_cons, List.map_nil]
  · simp only [Connection.writePush, hk.sendBufferSize]

/-- A send that fails changes nothing. -/
theorem sendNow_refused {key : UInt32} (h : (s.sendNow host m key).2 = false) : (s.sendNow host m key).1 = s := by
  rcases Connection.send_cases host s.con key m with ⟨_, hn, _⟩ | ⟨_, hc⟩
  · rw [sendNow, hn] at h
    cases h
  · rw [sendNow, hc]
    rfl

/-- A send that is taken queues its message. -/
theorem sendNow_pushed {key : UInt32} (h : (s.sendNow host m key).2 = true) :
    ∃ out, Pushed s (s.sendNow host m key).1 m out ∧ SameReads s (s.sendNow host m key).1 := by
  rcases Connection.send_cases host s.con key m with ⟨_, _, hsend, out, hp⟩ | ⟨hn, _⟩
  · refine ⟨out, ?_⟩
    rw [sendNow, hsend, hp]
    exact pushed_act (Connection.Keeps.refl s.con)
  · rw [sendNow, Option.isNone_eq_false_iff.mpr hn] at h
    cases h

/-- It is a check of the state and a push, with no step of another in between. -/
theorem sendNow_steps {key : UInt32} (h : (s.sendNow host m key).2 = true) (hm : m.payload.length < UInt64.size) :
    ∃ t, s.step host (.send m) = some t ∧ t.step host (.push s.passed.length key) = some (s.sendNow host m key).1 := by
  rcases Connection.send_cases host s.con key m with ⟨ho, _, hsend, _⟩ | ⟨hn, _⟩
  · refine ⟨{ s with passed := s.passed ++ [m] }, if_pos ⟨ho, hm⟩, ?_⟩
    have hback : (s.passed ++ [m]).eraseIdx s.passed.length = s.passed := by
      rw [List.eraseIdx_append_of_length_le (Nat.le_refl _), Nat.sub_self]
      exact List.append_nil s.passed
    simp only [step, List.getElem?_concat_length, Option.map_some, hback, sendNow, hsend]
  · rw [sendNow, Option.isNone_eq_false_iff.mpr hn] at h
    cases h

/-- A reply of a handler queues one message at most. -/
theorem act_replies {r : Acted} (h : Connection.Replies P s.con r) :
    (Quiet s (s.act r) ∨ ∃ m out, P m out ∧ Pushed s (s.act r) m out) ∧ SameReads s (s.act r) := by
  cases h with
  | quiet c' es hk hes =>
    have ho : ({ s with con := c' } : Endpoint).outbox = s.outbox := by
      rw [outbox, outbox]
      dsimp only
      rw [hk.sendQueue, hk.currentMsgs, hk.writeFlag]
    rcases hes with rfl | rfl
    · exact ⟨.inl ⟨ho, hk.sendBufferSize, rfl, rfl, rfl, rfl, hk.isServer⟩, hk.processor, rfl, rfl, rfl, rfl, rfl, rfl, hk.state⟩
    · exact ⟨.inl ⟨ho, hk.sendBufferSize, rfl, rfl, rfl, rfl, hk.isServer⟩, hk.processor, rfl, rfl, rfl, rfl, rfl, rfl, hk.state⟩
  | push c' m out hk hp =>
    obtain ⟨hpush, hreads⟩ := pushed_act (m := m) hk
    exact ⟨.inr ⟨m, out, hp, hpush⟩, hreads⟩

/-- What the read loop queues: close frames, and a pong for each ping it answers. -/
inductive Answers (host : Host) (s s' : Endpoint) : Prop where
  | quiet (hq : Quiet s s') (ha : s'.answered = s.answered)
  | closing (m : Message) (out : OutMessage) (hop : m.opcode = .close) (hq : Connection.Queued host s.con.isServer m out)
      (ht : s.con.isServer = true → out.terminal = true) (hp : Pushed s s' m out) (ha : s'.answered = s.answered)
  | pong (m : Message) (out : OutMessage) (hq : Connection.Queued host s.con.isServer ⟨.pong, m.payload⟩ out)
      (hp : Pushed s s' ⟨.pong, m.payload⟩ out) (ha : s'.answered = s.answered ++ [m])

/-- What a pass of the read loop does to the send queue. -/
theorem act_turned {buf : Bytes} {r : Acted × Option Bytes} (h : Connection.Turned host s.con buf r)
    (hl : ∀ p rest m, s.con.processor.consumed host buf = .ok (p, rest) → p.getMessage.1 = some m →
      m.opcode.isControl = true → m.payload.length ≤ payloadSizeBasic) : Answers host s (s.act r.1) := by
  cases h with
  | failed e p r hc hs hr =>
    obtain ⟨hq | ⟨m, out, ⟨hop, hqueued, ht⟩, hp⟩, hreads⟩ :=
      act_replies (s := { s with con := { s.con with processor := p } }) hr
    · exact .quiet ⟨hq.outbox, hq.size, hq.queued, hq.writing, hq.wire, hq.passed, hq.isServer⟩ hreads.answered
    · exact .closing m out hop hqueued (fun _ => ht) ⟨hp.outbox, hp.size, hp.queued, hp.writing, hp.wire, hp.passed, hp.isServer⟩
        hreads.answered
  | more p rest hc hp => exact .quiet ⟨rfl, rfl, rfl, rfl, rfl, rfl, rfl⟩ rfl
  | none p rest hc hp hg => exact .quiet ⟨rfl, rfl, rfl, rfl, rfl, rfl, rfl⟩ rfl
  | message p rest m r hc hp hg hr =>
    rw [act_cons (c := { s.con with processor := p.getMessage.2 })]
    cases hr (hl p rest m hc hg) with
    | data hm hs => exact .quiet ⟨rfl, rfl, rfl, rfl, rfl, rfl, rfl⟩ rfl
    | ignored h => exact .quiet ⟨rfl, rfl, rfl, rfl, rfl, rfl, rfl⟩ rfl
    | ping out hm hs hq =>
      rw [act_cons (c := { s.con with processor := p.getMessage.2 })]
      obtain ⟨hp, hreads⟩ := pushed_act (s := (s.act ({ s.con with processor := p.getMessage.2 }, [.taken m])).act
        ({ s.con with processor := p.getMessage.2 }, [.answered m])) (m := ⟨.pong, m.payload⟩) (Connection.Keeps.refl _)
      exact .pong m out hq ⟨hp.outbox, hp.size, hp.queued, hp.writing, hp.wire, hp.passed, hp.isServer⟩ hreads.answered
    | close r hm hr =>
      obtain ⟨hq | ⟨m', out, ⟨hop, hqueued, ht⟩, hp⟩, hreads⟩ :=
        act_replies (s := s.act ({ s.con with processor := p.getMessage.2 }, [.taken m])) hr
      · exact .quiet ⟨hq.outbox, hq.size, hq.queued, hq.writing, hq.wire, hq.passed, hq.isServer⟩ hreads.answered
      · exact .closing m' out hop hqueued ht
          ⟨hp.outbox, hp.size, hp.queued, hp.writing, hp.wire, hp.passed, hp.isServer⟩ hreads.answered

end Acting

end Endpoint
end DeribitClientServer.Transport
