import DeribitClientServer.Transport.Header
import DeribitClientServer.Transport.Masking
import DeribitClientServer.Transport.Utf8Validator

/-! The processor that turns a connection's bytes into messages: a state machine
that knows which field it is reading and how many bytes that field still needs. -/
namespace DeribitClientServer.Transport
open Library.Utf8 Library.Endian

inductive ProcessorError where
  | general | messageTooBig | invalidPayload | invalidOpcode | controlTooBig | invalidRsvBit | fragmentedControl
  | invalidContinuation | maskingRequired | maskingForbidden | nonMinimalEncoding | invalidUtf8
  | reservedCloseCode | invalidCloseCode | reasonRequiresCode
  deriving DecidableEq, Repr

structure Message where
  opcode : Opcode
  payload : Bytes
  deriving DecidableEq, Repr

structure MsgMetadata where
  msgPtr : Option Message
  preparedKey : UInt64
  validator : Validator
  deriving DecidableEq, Repr

def MsgMetadata.empty : MsgMetadata := ⟨none, 0, .init⟩

/-- Bytes added to the payload, with the key for the next ones. -/
def MsgMetadata.append (m : MsgMetadata) (b : Bytes) (key : UInt64) : MsgMetadata :=
  { m with preparedKey := key, msgPtr := m.msgPtr.map fun msg => { msg with payload := msg.payload ++ b } }

def MsgMetadata.isText (m : MsgMetadata) : Bool := m.msgPtr.map Message.opcode == some .text

/-- The metadata of a message about to be read. -/
def MsgMetadata.start (op : Opcode) (key : UInt32) : MsgMetadata := ⟨some ⟨op, []⟩, prepareMaskingKey key, .init⟩

inductive ReadState where
  | headerBasic | headerExtended | extension | application | ready | fatalError
  deriving DecidableEq, Repr

/-- Which metadata the current frame belongs to. -/
inductive Slot where
  | data | control
  deriving DecidableEq, Repr

structure Hybi13 where
  server : Bool
  maxMessageSize : Nat
  basicHeader : BasicHeader
  extendedHeader : ExtendedHeader
  bytesNeeded : Nat
  cursor : Nat
  dataMsg : MsgMetadata
  controlMsg : MsgMetadata
  currentMsg : Slot
  state : ReadState
  deriving DecidableEq, Repr

section Validation

/-- The checks on the first two bytes of a frame, in their order. -/
def validateIncomingBasicHeader (h : BasicHeader) (isServer newMsg : Bool) : Option ProcessorError :=
  let op := h.getOpcode
  if op.isControl && payloadSizeBasic < h.getBasicSize.toNat then some .controlTooBig
  else if h.getRsv1 then some .invalidRsvBit
  else if h.getRsv2 || h.getRsv3 then some .invalidRsvBit
  else if op.reserved then some .invalidOpcode
  else if op.invalid then some .invalidOpcode
  else if op.isControl && !h.getFin then some .fragmentedControl
  else if newMsg && op = .continuation then some .invalidContinuation
  else if !newMsg && !op.isControl && op ≠ .continuation then some .invalidContinuation
  else if isServer && !h.getMasked then some .maskingRequired
  else if !isServer && h.getMasked then some .maskingForbidden
  else none

def validateIncomingExtendedHeader (host : Host) (h : BasicHeader) (e : ExtendedHeader) : Option ProcessorError :=
  if h.getBasicSize = payloadSizeCode16bit ∧ getPayloadSize host h e ≤ payloadSizeBasic then some .nonMinimalEncoding
  else if h.getBasicSize = payloadSizeCode64bit ∧ getPayloadSize host h e ≤ payloadSizeExtended then
    some .nonMinimalEncoding
  else none

end Validation

namespace Hybi13
variable (host : Host) (s : Hybi13) (buf : Bytes)

def current : MsgMetadata :=
  match s.currentMsg with
  | .data => s.dataMsg
  | .control => s.controlMsg

def setCurrent (m : MsgMetadata) : Hybi13 :=
  match s.currentMsg with
  | .data => { s with dataMsg := m }
  | .control => { s with controlMsg := m }

def resetHeaders : Hybi13 :=
  { s with state := .headerBasic, bytesNeeded := basicHeaderLength, basicHeader := .empty, extendedHeader := .empty }

/-- A processor at the start of a connection. -/
def init (server : Bool) (maxMessageSize : Nat) : Hybi13 where
  server := server
  maxMessageSize := maxMessageSize
  basicHeader := .empty
  extendedHeader := .empty
  bytesNeeded := basicHeaderLength
  cursor := 0
  dataMsg := .empty
  controlMsg := .empty
  currentMsg := .data
  state := .headerBasic

def copyBasicHeaderBytes : Hybi13 × Nat :=
  match buf with
  | [] => (s, 0)
  | x :: rest =>
    if s.bytesNeeded = 0 then (s, 0)
    else if s.bytesNeeded = 2 then
      match rest with
      | y :: _ => ({ s with basicHeader := ⟨x, y⟩, bytesNeeded := s.bytesNeeded - 2 }, 2)
      | [] => ({ s with basicHeader := { s.basicHeader with b0 := x }, bytesNeeded := s.bytesNeeded - 1 }, 1)
    else ({ s with basicHeader := { s.basicHeader with b1 := x }, bytesNeeded := s.bytesNeeded - 1 }, 1)

/-- Bytes put into the extended header where the cursor stands. -/
def storeExtended (b : Bytes) : Hybi13 where
  __ := s
  extendedHeader := s.extendedHeader.put s.cursor b
  cursor := s.cursor + b.length
  bytesNeeded := s.bytesNeeded - b.length

def copyExtendedHeaderBytes : Hybi13 × Nat :=
  let bytesToRead := min s.bytesNeeded buf.length
  (s.storeExtended (buf.take bytesToRead), bytesToRead)

/-- A piece of payload unmasked, when the frame is masked, and the key for the next. -/
def unmasked : Bytes × UInt64 :=
  if s.basicHeader.getMasked then byteMaskCirc host buf s.current.preparedKey else (buf, s.current.preparedKey)

/-- Unmasks, appends to the message and validates a text. -/
def processPayloadBytes : Hybi13 × Nat × Option ProcessorError :=
  let u := s.unmasked host buf
  let cur := s.current.append u.1 u.2
  if cur.isText then
    let d := cur.validator.decode u.1
    if d.1 = false then (s.setCurrent { cur with validator := d.2 }, 0, some .invalidUtf8)
    else ({ s.setCurrent { cur with validator := d.2 } with bytesNeeded := s.bytesNeeded - buf.length }, buf.length, none)
  else ({ s.setCurrent cur with bytesNeeded := s.bytesNeeded - buf.length }, buf.length, none)

/-- The end of a whole message. Only a last frame with the text opcode is checked
to end on a whole character. -/
def finalizeMessage : Hybi13 × Option ProcessorError :=
  if s.basicHeader.getOpcode = .text ∧ s.current.validator.complete = false then (s, some .invalidUtf8)
  else ({ s with state := .ready }, none)

/-- The basic header is whole. -/
def enterExtended : Hybi13 × Option ProcessorError :=
  match validateIncomingBasicHeader s.basicHeader s.server s.dataMsg.msgPtr.isNone with
  | some e => (s, some e)
  | none =>
    ({ s with state := .headerExtended, cursor := 0, bytesNeeded := s.basicHeader.getHeaderLen - basicHeaderLength }, none)

/-- The first frame of a message starts its metadata, a later one brings a new key. The sizes
are of 64 bits, and so is their sum. -/
def startData (op : Opcode) (key : UInt32) : Hybi13 × Option ProcessorError :=
  match s.dataMsg.msgPtr with
  | none =>
    if s.maxMessageSize < s.bytesNeeded then (s, some .messageTooBig)
    else ({ s with dataMsg := .start op key, currentMsg := .data }, none)
  | some out =>
    if s.maxMessageSize < (out.payload.length + s.bytesNeeded) % UInt64.size then (s, some .messageTooBig)
    else ({ s with dataMsg := { s.dataMsg with preparedKey := prepareMaskingKey key }, currentMsg := .data }, none)

/-- The whole header is there. A control frame has metadata of its own. -/
def enterApplication : Hybi13 × Option ProcessorError :=
  match validateIncomingExtendedHeader host s.basicHeader s.extendedHeader with
  | some e => (s, some e)
  | none =>
    let s := { s with state := .application, bytesNeeded := getPayloadSize host s.basicHeader s.extendedHeader }
    let op := s.basicHeader.getOpcode
    let key := getMaskingKey host s.basicHeader s.extendedHeader
    if op.isControl then ({ s with controlMsg := .start op key, currentMsg := .control }, none) else s.startData op key

/-- The frame is whole: its message is ready, or another frame follows. -/
def endFrame : Hybi13 × Option ProcessorError :=
  if s.basicHeader.getFin then s.finalizeMessage else (s.resetHeaders, none)

/-- One pass of the loop: the processor, the bytes it took and the error it met. -/
def turn : Hybi13 × Nat × Option ProcessorError :=
  match s.state with
  | .headerBasic =>
    let r := s.copyBasicHeaderBytes buf
    if 0 < r.1.bytesNeeded then (r.1, r.2, none) else (r.1.enterExtended.1, r.2, r.1.enterExtended.2)
  | .headerExtended =>
    let r := s.copyExtendedHeaderBytes buf
    if 0 < r.1.bytesNeeded then (r.1, r.2, none) else ((r.1.enterApplication host).1, r.2, (r.1.enterApplication host).2)
  | .extension => ({ s with state := .application }, 0, none)
  | .application =>
    let bytesToProcess := min s.bytesNeeded buf.length
    let r := if 0 < bytesToProcess then s.processPayloadBytes host (buf.take bytesToProcess) else (s, 0, none)
    if r.2.2.isSome then r else if 0 < r.1.bytesNeeded then r else (r.1.endFrame.1, r.2.1, r.1.endFrame.2)
  | .ready | .fatalError => (s, 0, some .general)

/-- The loop goes on while no message is ready and there are bytes left or none needed. -/
def goesOn : Bool := s.state ≠ .ready && s.state ≠ .fatalError && (0 < buf.length || s.bytesNeeded == 0)

/-- Passes that take no byte go down in rank. -/
def rank : Nat :=
  match s.state with
  | .headerBasic => if s.bytesNeeded = 0 then 4 else 0
  | .headerExtended => 3
  | .extension => 2
  | .application => 1
  | .ready | .fatalError => 0

variable {host s buf}

theorem rank_le (s : Hybi13) : s.rank ≤ 4 := by
  unfold rank
  split
  · split_ifs <;> decide
  all_goals decide

theorem goesOn_iff : s.goesOn buf = true ↔
    s.state ≠ .ready ∧ s.state ≠ .fatalError ∧ (buf ≠ [] ∨ s.bytesNeeded = 0) := by
  simp [goesOn, and_assoc, List.length_pos_iff]

theorem copyBasicHeaderBytes_taken : (s.copyBasicHeaderBytes buf).2 ≤ buf.length ∧
    ((s.copyBasicHeaderBytes buf).2 = 0 → (s.copyBasicHeaderBytes buf).1 = s ∧ (buf = [] ∨ s.bytesNeeded = 0)) := by
  unfold copyBasicHeaderBytes
  split
  · exact ⟨Nat.le_refl _, fun _ => ⟨rfl, .inl rfl⟩⟩
  split_ifs with h0 h2
  · exact ⟨Nat.zero_le _, fun _ => ⟨rfl, .inr h0⟩⟩
  · split <;> simp
  · simp

theorem enterExtended_state (h : s.enterExtended.2 = none) : s.enterExtended.1.state = .headerExtended := by
  unfold enterExtended at h ⊢
  split at h
  · cases h
  · rfl

theorem startData_state {op : Opcode} {key : UInt32} : (s.startData op key).1.state = s.state := by
  unfold startData
  split <;> split_ifs <;> rfl

theorem enterApplication_state (h : (s.enterApplication host).2 = none) :
    (s.enterApplication host).1.state = .application := by
  unfold enterApplication at h ⊢
  split at h
  · cases h
  · dsimp only
    split_ifs
    · rfl
    · exact startData_state

theorem processPayloadBytes_taken (s : Hybi13) (host : Host) (buf : Bytes) (h : (s.processPayloadBytes host buf).2.2 = none) :
    (s.processPayloadBytes host buf).2.1 = buf.length := by
  unfold processPayloadBytes at h ⊢
  dsimp only at h ⊢
  split_ifs at h ⊢ <;> rfl

theorem endFrame_rank (h : s.endFrame.2 = none) : s.endFrame.1.rank = 0 := by
  unfold endFrame finalizeMessage at h ⊢
  split_ifs at h ⊢ <;> rfl

/-- Each pass of the loop takes bytes or goes down in rank. -/
theorem turn_decreases (hg : s.goesOn buf = true) (h : (s.turn host buf).2.2 = none) :
    (s.turn host buf).2.1 ≤ buf.length ∧ (0 < (s.turn host buf).2.1 ∨ (s.turn host buf).1.rank < s.rank) := by
  rw [goesOn_iff] at hg
  obtain ⟨hready, hfatal, hmore⟩ := hg
  unfold turn at h ⊢
  split at h
  · next hs =>
    obtain ⟨hn, h0⟩ := copyBasicHeaderBytes_taken (s := s)
    dsimp only at h ⊢
    split_ifs at h ⊢ with hneed
    · refine ⟨hn, Or.inl (Nat.pos_of_ne_zero fun hz => ?_)⟩
      obtain ⟨he, hb⟩ := h0 hz
      rw [he] at hneed
      rcases hmore with hm | hm
      · exact hm (hb.resolve_right hneed.ne')
      · exact hneed.ne' hm
    · refine ⟨hn, or_iff_not_imp_left.mpr fun hz => ?_⟩
      obtain ⟨he, hb⟩ := h0 (Nat.eq_zero_of_not_pos hz)
      have hr := enterExtended_state h
      rw [he] at hneed hr ⊢
      have h0 : s.bytesNeeded = 0 := by omega
      simp [rank, hr, hs, h0]
  · next hs =>
    dsimp only [copyExtendedHeaderBytes] at h ⊢
    split_ifs at h ⊢ with hneed
    · refine ⟨Nat.min_le_right _ _, Or.inl ?_⟩
      have hn : 0 < s.bytesNeeded := Nat.lt_of_lt_of_le hneed (Nat.sub_le _ _)
      have hb := List.length_pos_iff.mpr (hmore.resolve_right hn.ne')
      exact Nat.lt_min.mpr ⟨hn, hb⟩
    · refine ⟨Nat.min_le_right _ _, Or.inr ?_⟩
      have hr := enterApplication_state h
      simp [rank, hr, hs]
  · next hs => exact ⟨Nat.zero_le _, Or.inr (by simp [rank, hs])⟩
  · next hs =>
    dsimp only at h ⊢
    by_cases hb : 0 < min s.bytesNeeded buf.length
    · rw [if_pos hb] at h ⊢
      have hp := s.processPayloadBytes_taken host (buf.take (min s.bytesNeeded buf.length))
      rw [List.length_take, Nat.min_assoc, Nat.min_self] at hp
      generalize s.processPayloadBytes host (buf.take (min s.bytesNeeded buf.length)) = r at h hp ⊢
      obtain ⟨s', n, _ | e⟩ := r
      · obtain rfl : n = _ := hp rfl
        simp only [Option.isSome_none, Bool.false_eq_true, if_false] at h ⊢
        split_ifs <;> exact ⟨Nat.min_le_right _ _, Or.inl hb⟩
      · cases h
    · rw [if_neg hb] at h ⊢
      simp only [Option.isSome_none, Bool.false_eq_true, if_false] at h ⊢
      split_ifs at h ⊢ with hneed
      · have hl := List.length_pos_iff.mpr (hmore.resolve_right hneed.ne')
        exact absurd (Nat.lt_min.mpr ⟨hneed, hl⟩) hb
      · refine ⟨Nat.zero_le _, Or.inr ?_⟩
        have hr := endFrame_rank h
        rw [hr]
        simp [rank, hs]
  · next hs => exact absurd hs hready
  · next hs => exact absurd hs hfatal

end Hybi13

/-- Takes bytes until a message is ready, an error is met or the bytes run out: the
processor, the number of bytes taken and the error. -/
def Hybi13.consume (host : Host) (s : Hybi13) (buf : Bytes) : Hybi13 × Nat × Option ProcessorError :=
  if _hg : s.goesOn buf = true then
    let r := s.turn host buf
    if _hec : r.2.2 = none then
      let r' := Hybi13.consume host r.1 (buf.drop r.2.1)
      (r'.1, r.2.1 + r'.2.1, r'.2.2)
    else r
  else (s, 0, none)
termination_by buf.length * 5 + s.rank
decreasing_by
  obtain ⟨hn, h⟩ := Hybi13.turn_decreases _hg _hec
  have hr := (s.turn host buf).1.rank_le
  rw [List.length_drop]
  omega

/-- The message that is ready, its metadata cleared and the headers reset. -/
def Hybi13.getMessage (s : Hybi13) : Option Message × Hybi13 :=
  if s.state ≠ .ready then (none, s)
  else
    match s.current.msgPtr with
    | none => (none, s.resetHeaders)
    | some ret =>
      let s' := s.setCurrent { s.current with msgPtr := none }
      let s' := if ret.opcode.isControl then { s' with controlMsg := { s'.controlMsg with msgPtr := none } }
        else { s' with dataMsg := { s'.dataMsg with msgPtr := none } }
      (some ret, s'.resetHeaders)

/-- The messages taken out of a read, until the bytes run out or an error stops it. -/
def readLoop (host : Host) : Nat → Hybi13 → Bytes → List Message × Except ProcessorError Hybi13
  | 0, s, _ => ([], .ok s)
  | fuel + 1, s, buf =>
    if buf = [] then ([], .ok s)
    else
      let r := s.consume host buf
      match r.2.2 with
      | some e => ([], .error e)
      | none =>
        if r.1.state = .ready then
          let g := r.1.getMessage
          let r' := readLoop host fuel g.2 (buf.drop r.2.1)
          (g.1.toList ++ r'.1, r'.2)
        else readLoop host fuel r.1 (buf.drop r.2.1)

/-- Each pass of the loop takes at least a byte. -/
def readBytes (host : Host) (s : Hybi13) (buf : Bytes) : List Message × Except ProcessorError Hybi13 :=
  readLoop host buf.length s buf

end DeribitClientServer.Transport
