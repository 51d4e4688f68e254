import DeribitClientServer.Library.Outbox
import DeribitClientServer.Server.World
import DeribitClientServer.Transport.Close

/-! One end of an open connection: its send queue, its reads and its closing
handshake. Each handler gives the connection after it and what it asked for. -/
namespace DeribitClientServer.Transport
open Library Library.Utf8 Library.Endian Library.Mask
open Server (SessionState)

structure Connection where
  isServer : Bool
  state : SessionState
  processor : Hybi13
  sendQueue : List OutMessage
  sendBufferSize : Nat
  writeFlag : Bool
  currentMsgs : List OutMessage
  localCloseCode : UInt16
  localCloseReason : Bytes
  remoteCloseCode : UInt16
  remoteCloseReason : Bytes
  wasClean : Bool
  handshakeTimer : Bool
  deriving DecidableEq, Repr

/-- What a handler asks the transport for and hands to the application. Messages are
also noted where they are queued, taken from the processor and answered. -/
inductive Effect where
  | queued (m : Message) (out : OutMessage)
  | dispatch
  | asyncWrite (b : Bytes)
  | taken (m : Message)
  | message (m : Message)
  | answered (ping : Message)
  | asyncShutdown
  deriving DecidableEq, Repr

inductive ReadError where
  | eof
  | other (message : Bytes)
  deriving DecidableEq, Repr

abbrev Acted := Connection × List Effect

/-- What comes next, with what was asked for before. -/
def Acted.andThen (r : Acted) (f : Connection → Acted) : Acted := ((f r.1).1, r.2 ++ (f r.1).2)

namespace Connection
variable (host : Host) (c : Connection) (key : UInt32)

/-- A connection whose opening handshake is over. -/
def opened (isServer : Bool) (maxMessageSize : Nat) : Connection where
  isServer := isServer
  state := .opened
  processor := .init isServer maxMessageSize
  sendQueue := []
  sendBufferSize := 0
  writeFlag := false
  currentMsgs := []
  localCloseCode := CloseStatus.abnormalClose
  localCloseReason := []
  remoteCloseCode := CloseStatus.abnormalClose
  remoteCloseReason := []
  wasClean := false
  handshakeTimer := false

section Writing

def writePush (msg : OutMessage) : Connection where
  __ := c
  sendBufferSize := c.sendBufferSize + msg.payload.length
  sendQueue := c.sendQueue ++ [msg]

/-- A message joins the queue. The writer is woken unless it is busy. -/
def push (m : Message) (msg : OutMessage) : Acted :=
  let c' := c.writePush msg
  (c', .queued m msg :: if !c'.writeFlag && !c'.sendQueue.isEmpty then [.dispatch] else [])

/-- Everything that is ready to write, up to a terminal message. -/
def writePops : Connection where
  __ := c
  currentMsgs := c.currentMsgs ++ (batch OutMessage.terminal c.sendQueue).1
  sendQueue := (batch OutMessage.terminal c.sendQueue).2
  sendBufferSize := c.sendBufferSize - ((batch OutMessage.terminal c.sendQueue).1.map fun m => m.payload.length).sum

def writeFrame : Acted :=
  if c.writeFlag then (c, [])
  else
    let c' := c.writePops
    if c'.currentMsgs.isEmpty then (c', [])
    else ({ c' with writeFlag := true }, [.asyncWrite (c'.currentMsgs.flatMap OutMessage.bytes)])

def terminate (ec : Option Bytes) : Acted :=
  let c' := match ec with
    | none => c
    | some message => { c with localCloseCode := CloseStatus.abnormalClose, localCloseReason := message }
  let c' := { c' with handshakeTimer := false }
  if c'.state = .closed then (c', []) else ({ c' with state := .closed }, [.asyncShutdown])

def handleWriteFrame (ec : Option Bytes) : Acted :=
  let terminal := c.currentMsgs.getLast?.any OutMessage.terminal
  let c' := { c with currentMsgs := [] }
  if ec.isSome then c'.terminate ec
  else if terminal then c'.terminate none
  else ({ c' with writeFlag := false }, if c'.sendQueue.isEmpty then [] else [.dispatch])

end Writing

section Sending

/-- The second half of send, once the connection was seen open. -/
def sendOpen (m : Message) : Acted :=
  match prepareDataFrame host c.isServer key (.make m.opcode m.payload) with
  | .error _ => (c, [])
  | .ok out => c.push m out

/-- The whole of send, for a caller that nobody interrupts. -/
def send (m : Message) : Acted × Option Bytes :=
  if c.state ≠ .opened then ((c, []), some (encode "invalid state"))
  else match prepareDataFrame host c.isServer key (.make m.opcode m.payload) with
    | .error e => ((c, []), some (encode e.message))
    | .ok out => (c.push m out, none)

def pong (payload : Bytes) : Acted :=
  if c.state ≠ .opened then (c, [])
  else match preparePong host c.isServer key payload with
    | .error _ => (c, [])
    | .ok out => c.push ⟨.pong, payload⟩ out

/-- The code and reason to close with: the caller's, or those of the other end. -/
def closeInfo (code : UInt16) (reason : Bytes) (ack : Bool) : UInt16 × Bytes :=
  if code ≠ CloseStatus.blank then (code, reason)
  else if !ack then (CloseStatus.noStatus, [])
  else if c.remoteCloseCode = CloseStatus.noStatus then (CloseStatus.normal, [])
  else (c.remoteCloseCode, c.remoteCloseReason)

def sendCloseFrame (code : UInt16) (reason : Bytes) (ack terminal : Bool) : Acted × Option ProcessorError :=
  let info := c.closeInfo code reason ack
  let c' := { c with localCloseCode := info.1, localCloseReason := info.2 }
  match prepareClose host c.isServer key info.1 info.2 with
  | .error e => ((c', []), some e)
  | .ok out =>
    let out := if terminal then { out with terminal := true } else out
    let c' := { c' with state := .closing, wasClean := c.wasClean || ack, handshakeTimer := true }
    (c'.push ⟨.close, closePayload host info.1 info.2⟩ out, none)

def sendCloseAck (code : UInt16) (reason : Bytes) : Acted := (c.sendCloseFrame host key code reason true c.isServer).1

/-- A reason is cut to what a close frame can hold. Without a close frame there is an error. -/
def close (code : UInt16) (reason : Bytes) : Acted × Option Bytes :=
  if c.state ≠ .opened then ((c, []), some (encode "invalid state"))
  else
    let r := c.sendCloseFrame host key code (reason.take closeReasonSize) false (CloseStatus.terminal code)
    (r.1, r.2.map fun e => encode e.message)

end Sending

section Receiving

def processControlFrame (m : Message) : Acted :=
  if c.state = .closed then (c, [])
  else if m.opcode ≠ .close ∧ c.state ≠ .opened then (c, [])
  else match m.opcode with
    | .ping => Acted.andThen (c, [.answered m]) fun c => c.pong host key m.payload
    | .close =>
      let code := extractCode host m.payload
      let c := { c with remoteCloseCode := code.1 }
      if code.2.isSome then c.sendCloseAck host key CloseStatus.protocolError (encode "Invalid close code")
      else
        let reason := extractReason m.payload
        let c := { c with remoteCloseReason := reason.1 }
        if reason.2.isSome then c.sendCloseAck host key CloseStatus.protocolError (encode "Invalid close reason")
        else if c.state = .opened then c.sendCloseAck host key CloseStatus.blank []
        else if c.state = .closing ∧ c.wasClean = false then
          let c := { c with wasClean := true }
          if c.isServer then c.terminate none else (c, [])
        else (c, [])
    | _ => (c, [])

/-- A message that is ready: data goes to the application while the connection is open. -/
def dispatchMessage (m : Message) : Acted :=
  if m.opcode.isControl then c.processControlFrame host key m
  else if c.state ≠ .opened then (c, [])
  else (c, [.message m])

/-- One pass of the loop over the bytes of a read, with the bytes that are left. After
an error the connection is closed and nothing is read any more. -/
def readTurn (buf : Bytes) : Acted × Option Bytes :=
  let r := c.processor.consume host buf
  let c := { c with processor := r.1 }
  match r.2.2 with
  | some e =>
    let closed := c.close host key e.toWs (encode e.message)
    (if closed.2.isSome then closed.1.andThen fun c => c.terminate closed.2 else closed.1, none)
  | none =>
    if r.1.state = .ready then
      let g := r.1.getMessage
      let c := { c with processor := g.2 }
      match g.1 with
      | none => ((c, []), some (buf.drop r.2.1))
      | some m => (Acted.andThen (c, [.taken m]) fun c => c.dispatchMessage host key m, some (buf.drop r.2.1))
    else ((c, []), some (buf.drop r.2.1))

/-- A read that failed. -/
def handleReadError (ec : ReadError) : Acted :=
  match ec with
  | .eof =>
    if c.state = .closed then (c, [])
    else if c.state = .closing ∧ c.isServer = false then c.terminate none
    else c.terminate (some (encode "End of File"))
  | .other message => c.terminate (some message)

def handleCloseHandshakeTimeout : Acted := c.terminate (some (encode "The closing handshake timed out"))

end Receiving

/-- What a handler of the closing handshake leaves alone. -/
structure Keeps (c c' : Connection) : Prop where
  isServer : c'.isServer = c.isServer
  processor : c'.processor = c.processor
  sendQueue : c'.sendQueue = c.sendQueue
  sendBufferSize : c'.sendBufferSize = c.sendBufferSize
  writeFlag : c'.writeFlag = c.writeFlag
  currentMsgs : c'.currentMsgs = c.currentMsgs
  state : c'.state = .opened → c.state = .opened

/-- A handler that queues one message at most, and only one of a kind. -/
inductive Replies (P : Message → OutMessage → Prop) (c : Connection) : Acted → Prop where
  | quiet (c' : Connection) (es : List Effect) (hk : Keeps c c') (hes : es = [] ∨ es = [.asyncShutdown]) : Replies P c (c', es)
  | push (c' : Connection) (m : Message) (out : OutMessage) (hk : Keeps c c') (hp : P m out) : Replies P c (c'.push m out)

/-- A message as it is queued: prepared with some key, and terminal only if it closes. -/
structure Queued (host : Host) (isServer : Bool) (m : Message) (out : OutMessage) : Prop where
  bytes : ∃ key, out.bytes = (frameOf host (!isServer) key m.opcode true m.payload).bytes
  control : m.opcode.isControl = true → m.payload.length ≤ payloadSizeBasic
  text : m.opcode = .text → validate m.payload = true
  terminal : out.terminal = true → m.opcode = .close

section Handlers
variable {host : Host} {c : Connection} {key : UInt32} {P Q : Message → OutMessage → Prop} {r : Acted}

theorem Keeps.refl (c : Connection) : Keeps c c := ⟨rfl, rfl, rfl, rfl, rfl, rfl, id⟩

theorem Keeps.trans {c₁ c₂ c₃ : Connection} (h : Keeps c₁ c₂) (h' : Keeps c₂ c₃) : Keeps c₁ c₃ :=
  ⟨h'.isServer.trans h.isServer, h'.processor.trans h.processor, h'.sendQueue.trans h.sendQueue,
    h'.sendBufferSize.trans h.sendBufferSize, h'.writeFlag.trans h.writeFlag, h'.currentMsgs.trans h.currentMsgs,
    fun hs => h.state (h'.state hs)⟩

theorem Replies.mono (h : Replies P c r) (hpq : ∀ m out, P m out → Q m out) : Replies Q c r := by
  cases h with
  | quiet c' es hk hes => exact .quiet c' es hk hes
  | push c' m out hk hp => exact .push c' m out hk (hpq m out hp)

theorem Replies.of_keeps {c' : Connection} (hk : Keeps c c') (h : Replies P c' r) : Replies P c r := by
  cases h with
  | quiet c'' es hk' hes => exact .quiet c'' es (hk.trans hk') hes
  | push c'' m out hk' hp => exact .push c'' m out (hk.trans hk') hp

theorem terminate_replies {ec : Option Bytes} : Replies P c (c.terminate ec) ∧ (c.terminate ec).1.state = .closed := by
  unfold terminate
  dsimp only
  have hkeep : Keeps c { (match ec with
      | none => c
      | some message => { c with localCloseCode := CloseStatus.abnormalClose, localCloseReason := message } : Connection) with
        handshakeTimer := false } := by
    cases ec <;> exact ⟨rfl, rfl, rfl, rfl, rfl, rfl, id⟩
  split_ifs with hs
  · exact ⟨.quiet _ _ hkeep (.inl rfl), hs⟩
  · exact ⟨.quiet _ _ (hkeep.trans ⟨rfl, rfl, rfl, rfl, rfl, rfl, nofun⟩) (.inr rfl), rfl⟩

private theorem queued_control {isServer : Bool} {op : Opcode} {payload : Bytes} {out : OutMessage}
    (h : prepareControl host isServer key op payload = .ok out) : Queued host isServer ⟨op, payload⟩ out := by
  obtain ⟨hc, hsize, hb, ht⟩ := prepareControl_ok h
  refine ⟨⟨key, hb⟩, fun _ => hsize, fun hop => ?_, fun h => absurd (ht.symm.trans h) (by decide)⟩
  dsimp only at hop
  rw [hop] at hc
  cases hc

/-- A send queues its message, or it fails and changes nothing. -/
theorem send_cases (host : Host) (c : Connection) (key : UInt32) (m : Message) :
    (c.state = .opened ∧ (c.send host key m).2 = none ∧ (c.send host key m).1 = c.sendOpen host key m ∧
      ∃ out, c.sendOpen host key m = c.push m out) ∨
    ((c.send host key m).2.isSome = true ∧ (c.send host key m).1 = (c, [])) := by
  unfold send sendOpen
  split_ifs with hs
  · exact .inr ⟨rfl, rfl⟩
  · split
    · exact .inr ⟨rfl, rfl⟩
    · next out hp => exact .inl ⟨by simpa using hs, rfl, rfl, out, rfl⟩

/-- A send is taken while the connection is open, of data whose text is valid. -/
theorem send_none_iff {m : Message} : (c.send host key m).2 = none ↔
    c.state = .opened ∧ m.opcode.isControl = false ∧ (m.opcode = .text → validate m.payload = true) := by
  unfold send
  split_ifs with hs
  · exact iff_of_false nofun fun h => hs h.1
  · rw [not_not] at hs
    cases hp : prepareDataFrame host c.isServer key (.make m.opcode m.payload) with
    | ok out =>
      obtain ⟨hc, ht, _⟩ := prepareDataFrame_ok hp
      exact iff_of_true rfl ⟨hs, hc, ht⟩
    | error e =>
      refine iff_of_false nofun fun ⟨_, hc, ht⟩ => ?_
      have ht' : ¬ (m.opcode = .text ∧ validate m.payload = false) := fun h => absurd (ht h.1) (by simp [h.2])
      unfold prepareDataFrame OutMessage.make at hp
      dsimp only at hp
      split_ifs at hp with hcontrol
      rw [hc] at hcontrol
      cases hcontrol

/-- A pong goes out for each ping a control frame can hold, while the connection is open. -/
theorem pong_replies {payload : Bytes} (hs : c.state = .opened) (hl : payload.length ≤ payloadSizeBasic) :
    ∃ out, c.pong host key payload = c.push ⟨.pong, payload⟩ out ∧ Queued host c.isServer ⟨.pong, payload⟩ out := by
  unfold pong
  rw [if_neg (not_not_intro hs)]
  cases hp : preparePong host c.isServer key payload with
  | ok out => exact ⟨out, rfl, queued_control hp⟩
  | error e =>
    unfold preparePong prepareControl at hp
    rw [if_neg (by decide), if_neg (Nat.not_lt_of_le hl)] at hp
    cases hp

theorem sendCloseFrame_replies (c : Connection) (host : Host) (key : UInt32) (code : UInt16) (reason : Bytes)
    (ack terminal : Bool) :
    Replies (fun m out => m.opcode = .close ∧ Queued host c.isServer m out ∧ (terminal = true → out.terminal = true)) c
      (c.sendCloseFrame host key code reason ack terminal).1 := by
  unfold sendCloseFrame
  dsimp only
  split
  · exact .quiet _ _ ⟨rfl, rfl, rfl, rfl, rfl, rfl, id⟩ (.inl rfl)
  · next out hp =>
    have hq := queued_control (prepareClose_ok hp).2.2.2
    refine .push _ _ _ ⟨rfl, rfl, rfl, rfl, rfl, rfl, nofun⟩ ⟨rfl, ?_, fun ht => by rw [if_pos ht]⟩
    split_ifs
    · exact ⟨hq.bytes, hq.control, hq.text, fun _ => rfl⟩
    · exact hq

private theorem andThen_nil {c' : Connection} {f : Connection → Acted} : Acted.andThen (c', []) f = f c' := rfl

/-- Closing queues a close frame, or there is an error and nothing is queued. -/
theorem close_replies {code : UInt16} {reason : Bytes} :
    ((c.close host key code reason).2 = none ∧ (c.close host key code reason).1.1.state = .closing ∧
      Replies (fun m out => m.opcode = .close ∧ Queued host c.isServer m out ∧
        (CloseStatus.terminal code = true → out.terminal = true)) c (c.close host key code reason).1) ∨
    ((c.close host key code reason).2.isSome = true ∧ ∃ c', (c.close host key code reason).1 = (c', []) ∧ Keeps c c') := by
  unfold close
  split_ifs with hs
  · exact .inr ⟨rfl, c, rfl, Keeps.refl c⟩
  · have hr := c.sendCloseFrame_replies host key code (reason.take closeReasonSize) false (CloseStatus.terminal code)
    unfold sendCloseFrame at hr ⊢
    dsimp only at hr ⊢
    split
    · next e hp => exact .inr ⟨rfl, _, rfl, ⟨rfl, rfl, rfl, rfl, rfl, rfl, id⟩⟩
    · next out hp =>
      rw [hp] at hr
      exact .inl ⟨rfl, rfl, hr⟩

/-- What becomes of a message that was taken from the processor. -/
inductive Dispatched (host : Host) (c : Connection) (m : Message) : Acted → Prop where
  | data (hm : m.opcode.isControl = false) (hs : c.state = .opened) : Dispatched host c m (c, [.message m])
  | ignored (h : c.state = .opened → m.opcode.isControl = true ∧ m.opcode ≠ .ping) : Dispatched host c m (c, [])
  | ping (out : OutMessage) (hm : m.opcode = .ping) (hs : c.state = .opened)
      (hq : Queued host c.isServer ⟨.pong, m.payload⟩ out) :
      Dispatched host c m ((c.push ⟨.pong, m.payload⟩ out).1, .answered m :: (c.push ⟨.pong, m.payload⟩ out).2)
  | close (r : Acted) (hm : m.opcode = .close) (hr : Replies (fun m out => m.opcode = .close ∧
      Queued host c.isServer m out ∧ (c.isServer = true → out.terminal = true)) c r) : Dispatched host c m r

private theorem closing_replies {m : Message} (hm : m.opcode = .close) (hs : c.state ≠ .closed) :
    Replies (fun m out => m.opcode = .close ∧ Queued host c.isServer m out ∧ (c.isServer = true → out.terminal = true)) c
      (c.processControlFrame host key m) := by
  have hack : ∀ c' : Connection, Keeps c c' → ∀ code reason,
      Replies (fun m out => m.opcode = .close ∧ Queued host c.isServer m out ∧ (c.isServer = true → out.terminal = true)) c
        (c'.sendCloseAck host key code reason) := by
    intro c' hk code reason
    have hr := c'.sendCloseFrame_replies host key code reason true c'.isServer
    rw [hk.isServer] at hr
    rw [sendCloseAck, hk.isServer]
    exact hr.of_keeps hk
  have hcode : ∀ code, Keeps c { c with remoteCloseCode := code } := fun _ => ⟨rfl, rfl, rfl, rfl, rfl, rfl, id⟩
  have hreason : ∀ code reason, Keeps c { c with remoteCloseCode := code, remoteCloseReason := reason } :=
    fun _ _ => ⟨rfl, rfl, rfl, rfl, rfl, rfl, id⟩
  have hclean : ∀ code reason, Keeps c { c with remoteCloseCode := code, remoteCloseReason := reason, wasClean := true } :=
    fun _ _ => ⟨rfl, rfl, rfl, rfl, rfl, rfl, id⟩
  unfold processControlFrame
  rw [if_neg hs, if_neg fun h => h.1 hm, hm]
  dsimp only
  generalize extractCode host m.payload = code
  generalize extractReason m.payload = reason
  split_ifs
  · exact hack _ (hcode code.1) _ _
  · exact hack _ (hreason code.1 reason.1) _ _
  · exact hack _ (hreason code.1 reason.1) _ _
  · exact terminate_replies.1.of_keeps (hclean code.1 reason.1)
  · exact .quiet _ _ (hclean code.1 reason.1) (.inl rfl)
  · exact .quiet _ _ (hreason code.1 reason.1) (.inl rfl)

theorem dispatchMessage_dispatched {m : Message} (hl : m.opcode.isControl = true → m.payload.length ≤ payloadSizeBasic) :
    Dispatched host c m (c.dispatchMessage host key m) := by
  unfold dispatchMessage
  by_cases hc : m.opcode.isControl = true
  · rw [if_pos hc]
    by_cases hclose : m.opcode = .close
    · by_cases hs : c.state = .closed
      · rw [processControlFrame, if_pos hs]
        exact .ignored fun h => absurd (hs.symm.trans h) (by decide)
      · exact .close _ hclose (closing_replies hclose hs)
    · by_cases hs : c.state = .opened
      · by_cases hping : m.opcode = .ping
        · obtain ⟨out, hp, hq⟩ := pong_replies hs (hl hc)
          unfold processControlFrame
          rw [if_neg (by rw [hs]; decide), if_neg (by rw [hs]; exact fun h => h.2 rfl), hping]
          dsimp only
          rw [Acted.andThen]
          dsimp only
          rw [hp]
          exact .ping out hping hs hq
        · have hi : c.processControlFrame host key m = (c, []) := by
            unfold processControlFrame
            rw [if_neg (by rw [hs]; decide), if_neg (by rw [hs]; exact fun h => h.2 rfl)]
            split
            · next h => exact absurd h hping
            · next h => exact absurd h hclose
            · rfl
          rw [hi]
          exact .ignored fun _ => ⟨hc, hping⟩
      · have hi : c.processControlFrame host key m = (c, []) := by
          unfold processControlFrame
          by_cases hcl : c.state = .closed
          · rw [if_pos hcl]
          · rw [if_neg hcl, if_pos ⟨hclose, hs⟩]
        rw [hi]
        exact .ignored fun h => absurd h hs
  · rw [if_neg hc]
    split_ifs with hs
    · exact .ignored fun h => absurd h hs
    · exact .data (Bool.eq_false_iff.mpr hc) (not_not.mp hs)

/-- What a pass of the read loop does. -/
inductive Turned (host : Host) (c : Connection) (buf : Bytes) : Acted × Option Bytes → Prop where
  | failed (e : ProcessorError) (p : Hybi13) (r : Acted) (hc : c.processor.consumed host buf = .error e)
      (hs : r.1.state ≠ .opened) (hr : Replies (fun m out => m.opcode = .close ∧ Queued host c.isServer m out ∧
        out.terminal = true) { c with processor := p } r) : Turned host c buf (r, none)
  | more (p : Hybi13) (rest : Bytes) (hc : c.processor.consumed host buf = .ok (p, rest)) (hp : p.state ≠ .ready) :
      Turned host c buf (({ c with processor := p }, []), some rest)
  | none (p : Hybi13) (rest : Bytes) (hc : c.processor.consumed host buf = .ok (p, rest)) (hp : p.state = .ready)
      (hg : p.getMessage.1 = none) : Turned host c buf (({ c with processor := p.getMessage.2 }, []), some rest)
  | message (p : Hybi13) (rest : Bytes) (m : Message) (r : Acted) (hc : c.processor.consumed host buf = .ok (p, rest))
      (hp : p.state = .ready) (hg : p.getMessage.1 = some m)
      (hr : (m.opcode.isControl = true → m.payload.length ≤ payloadSizeBasic) →
        Dispatched host { c with processor := p.getMessage.2 } m r) :
      Turned host c buf ((r.1, .taken m :: r.2), some rest)

/-- An error closes the connection one way or the other. -/
private theorem failed_replies {e : ProcessorError} {r : Acted} (hr : r =
    if (c.close host key e.toWs (encode e.message)).2.isSome then
      (c.close host key e.toWs (encode e.message)).1.andThen fun c' => c'.terminate (c.close host key e.toWs (encode e.message)).2
    else (c.close host key e.toWs (encode e.message)).1) :
    r.1.state ≠ .opened ∧
      Replies (fun m out => m.opcode = .close ∧ Queued host c.isServer m out ∧ out.terminal = true) c r := by
  rcases close_replies (c := c) with
    ⟨hn, hs, hq⟩ | ⟨hsome, c', hc', hk⟩
  · rw [hn, Option.isSome_none, if_neg (by decide)] at hr
    rw [hr]
    refine ⟨by rw [hs]; decide, hq.mono fun m out h => ⟨h.1, h.2.1, h.2.2 (toWs_terminal e).1⟩⟩
  · rw [hsome, if_pos rfl, hc', andThen_nil] at hr
    obtain ⟨ht, hs⟩ := terminate_replies (c := c')
      (P := fun m out => m.opcode = .close ∧ Queued host c.isServer m out ∧ out.terminal = true)
    rw [hr]
    exact ⟨by rw [hs]; decide, ht.of_keeps hk⟩

theorem readTurn_turned {buf : Bytes} : Turned host c buf (c.readTurn host key buf) := by
  unfold readTurn
  dsimp only
  cases he : (c.processor.consume host buf).2.2 with
  | some e =>
    dsimp only
    have hc : c.processor.consumed host buf = .error e := by rw [Hybi13.consumed, he]
    obtain ⟨hs, hr⟩ := failed_replies (c := { c with processor := (c.processor.consume host buf).1 })
      (e := e) rfl
    exact .failed e _ _ hc hs hr
  | none =>
    dsimp only
    have hc : c.processor.consumed host buf =
        .ok ((c.processor.consume host buf).1, buf.drop (c.processor.consume host buf).2.1) := by rw [Hybi13.consumed, he]
    split_ifs with hp
    · split
      · next hg => exact .none _ _ hc hp hg
      · next m hg =>
        exact .message _ _ m _ hc hp hg fun hl => dispatchMessage_dispatched hl
    · exact .more _ _ hc hp

end Handlers

section Closing

private theorem prepareClose_isOk {host : Host} {server : Bool} {key : UInt32} {code : UInt16} {reason : Bytes}
    (hr : CloseStatus.reserved code = false) (hi : CloseStatus.invalid code = true → code = CloseStatus.noStatus)
    (hn : code = CloseStatus.noStatus → reason = [])
    (hl : reason.length ≤ closeReasonSize) : ∃ out, prepareClose host server key code reason = .ok out := by
  have hpayload : (closePayload host code reason).length ≤ payloadSizeBasic := by
    unfold closePayload
    split_ifs
    · exact Nat.zero_le _
    · rw [List.length_append, Host.length_memory]
      exact Nat.add_le_add_left hl 2
  unfold prepareClose prepareControl
  rw [if_neg (by rw [hr]; decide), if_neg fun h => h.2 (hi h.1), if_neg fun h => by rw [hn h.1] at h; exact absurd h.2 (by decide),
    if_neg (show ¬ payloadSizeBasic - 2 < reason.length from Nat.not_lt_of_le hl), if_neg (by decide),
    if_neg (Nat.not_lt_of_le hpayload)]
  exact ⟨_, rfl⟩

/-- An open connection closes with every code that may be sent. The other end reads the code and the
reason back, the reason cut to what fits, and refuses them only where the cut left no whole text. A blank
code goes out as no code at all, and without a reason. -/
theorem close_read_back (host host' : Host) (c : Connection) (key : UInt32) (code : UInt16) (reason : Bytes) :
    let info := c.closeInfo code (reason.take closeReasonSize) false
    ((c.close host key code reason).2 = none ↔ c.state = .opened ∧ CloseStatus.reserved info.1 = false ∧
        (CloseStatus.invalid info.1 = true → info.1 = CloseStatus.noStatus) ∧ (info.1 = CloseStatus.noStatus → info.2 = [])) ∧
      ((c.close host key code reason).2 = none → ∃ payload out, .queued ⟨.close, payload⟩ out ∈ (c.close host key code reason).1.2 ∧
        out.bytes = (frameOf host (!c.isServer) key .close true payload).bytes ∧
        extractCode host' payload = (info.1, none) ∧ (extractReason payload).1 = info.2 ∧
        ((extractReason payload).2 = none ↔ ∃ t, Utf8.decode info.2 = some t)) := by
  intro info
  have hlen : info.2.length ≤ closeReasonSize := by
    simp only [info, closeInfo]
    split_ifs
    · exact List.length_take_le _ _
    · exact Nat.zero_le _
    · exact Nat.zero_le _
    · exact absurd rfl ‹_›
  by_cases ho : c.state = .opened
  · have hclose : c.close host key code reason =
        ((c.sendCloseFrame host key code (reason.take closeReasonSize) false (CloseStatus.terminal code)).1,
          (c.sendCloseFrame host key code (reason.take closeReasonSize) false (CloseStatus.terminal code)).2.map
            fun e => encode e.message) := by
      rw [close, if_neg (not_not_intro ho)]
    unfold sendCloseFrame at hclose
    dsimp only at hclose
    cases hp : prepareClose host c.isServer key info.1 info.2 with
    | error e =>
      rw [hp] at hclose
      rw [hclose]
      refine ⟨⟨nofun, fun ⟨_, hr, hi, hn⟩ => ?_⟩, nofun⟩
      obtain ⟨out, hout⟩ : ∃ out, prepareClose host c.isServer key info.1 info.2 = .ok out := prepareClose_isOk hr hi hn hlen
      rw [hp] at hout
      cases hout
    | ok out =>
      obtain ⟨hr, hi, hn, hcontrol⟩ := prepareClose_ok hp
      obtain ⟨_, _, hbytes, _⟩ := prepareControl_ok hcontrol
      obtain ⟨hcode, hreason⟩ := extract_closePayload hp host'
      rw [hp] at hclose
      rw [hclose]
      refine ⟨⟨fun _ => ⟨ho, hr, hi, hn⟩, fun _ => rfl⟩, fun _ => ⟨_, _, List.mem_cons_self, ?_, hcode, hreason, ?_⟩⟩
      · split_ifs <;> exact hbytes
      have hutf8 : ∀ payload, (extractReason payload).2 =
          if validate (extractReason payload).1 = false then some .invalidUtf8 else none := fun _ => rfl
      rw [hutf8, hreason, ← validate_iff]
      cases validate info.2 with
      | true => exact ⟨fun _ => rfl, fun _ => rfl⟩
      | false => exact ⟨nofun, nofun⟩
  · rw [close, if_pos ho]
    exact ⟨⟨nofun, fun h => absurd h.1 ho⟩, nofun⟩

end Closing

end Connection
end DeribitClientServer.Transport
