import DeribitClientServer.Transport.Pieces

/-! Frames as they lie on the wire, and what a processor makes of a whole frame. -/
namespace DeribitClientServer.Transport
open Library Library.Utf8 Library.Endian Library.Mask Library.Chunked

/-- A frame's header bytes and its payload as sent. -/
structure WireFrame where
  basic : BasicHeader
  extended : Bytes
  raw : Bytes
  deriving DecidableEq, Repr

namespace WireFrame

def bytes (f : WireFrame) : Bytes := f.basic.b0 :: f.basic.b1 :: (f.extended ++ f.raw)

/-- The extended header as the processor holds it. -/
def header (f : WireFrame) : ExtendedHeader := ExtendedHeader.empty.put 0 f.extended

/-- The header announces the bytes that follow it. -/
structure WellSized (host : Host) (f : WireFrame) : Prop where
  extended : f.extended.length = f.basic.getHeaderLen - basicHeaderLength
  raw : f.raw.length = getPayloadSize host f.basic f.header

/-- The payload the frame carries. -/
def plain (host : Host) (f : WireFrame) : Bytes :=
  if f.basic.getMasked then mask (keyStream host (getMaskingKey host f.basic f.header)) f.raw else f.raw

end WireFrame

/-- A text can still start with these bytes. -/
def viable (b : Bytes) : Bool := b.foldl nextState utf8Accept ≠ utf8Reject

theorem viable_iff {b : Bytes} : viable b = true ↔ ∃ more t, Utf8.decode (b ++ more) = some t := by
  rw [viable, decide_eq_true_iff]
  exact foldl_ne_reject_iff

/-- A message with more payload, or the first payload of a message. -/
def Message.extend (pending : Option Message) (op : Opcode) (b : Bytes) : Message :=
  match pending with
  | none => ⟨op, b⟩
  | some m => { m with payload := m.payload ++ b }

/-- What a frame does to the message that is pending: the message pending after it
and the message it completes. -/
def frameStep (host : Host) (server : Bool) (maxMessageSize : Nat) (pending : Option Message) (f : WireFrame) :
    Except ProcessorError (Option Message × Option Message) :=
  let op := f.basic.getOpcode
  match validateIncomingBasicHeader f.basic server pending.isNone, validateIncomingExtendedHeader host f.basic f.header with
  | some e, _ => .error e
  | none, some e => .error e
  | none, none =>
    if op.isControl then .ok (pending, some ⟨op, f.plain host⟩)
    else
      let msg := Message.extend pending op (f.plain host)
      if maxMessageSize < Message.sizeWith pending f.raw.length then .error .messageTooBig
      else if msg.opcode = .text ∧ viable msg.payload = false then .error .invalidUtf8
      else if f.basic.getFin = false then .ok (some msg, none)
      else if op = .text ∧ validate msg.payload = false then .error .invalidUtf8
      else .ok (none, some msg)

/-- A processor between two frames, with a message pending. -/
structure Stands (server : Bool) (maxMessageSize : Nat) (pending : Option Message) (s : Hybi13) : Prop where
  server : s.server = server
  maxMessageSize : s.maxMessageSize = maxMessageSize
  state : s.state = .headerBasic
  bytesNeeded : s.bytesNeeded = basicHeaderLength
  extendedHeader : s.extendedHeader = .empty
  message : s.dataMsg.msgPtr = pending
  kind : ∀ m, pending = some m → m.opcode.isControl = false
  validator : ∀ m, pending = some m → m.opcode = .text →
    s.dataMsg.validator.state = m.payload.foldl nextState utf8Accept ∧ viable m.payload = true

namespace Hybi13
variable {host : Host} {s s' : Hybi13} {buf b : Bytes} {x : UInt8}

private theorem unmasked_nil : s.unmasked host [] = ([], s.current.preparedKey) := by
  unfold unmasked
  split_ifs
  · simp [byteMaskCirc, circshiftPreparedKey]
  · rfl

private theorem setCurrent_current : s.setCurrent s.current = s := by
  obtain ⟨_, _, _, _, _, _, _, _, slot, _⟩ := s
  cases slot <;> rfl

/-- No payload bytes change nothing. -/
theorem afterPayload_nil : s.afterPayload host [] = s := by
  have hm : s.fed host [] = s.current := by
    have hv : (if s.current.isText then (s.current.validator.decode []).2 else s.current.validator) = s.current.validator := by
      split_ifs <;> rfl
    rw [fed, unmasked_nil]
    simp only [MsgMetadata.append, List.append_nil, Option.map_id', hv]
  rw [afterPayload, hm, setCurrent_current]
  rfl

theorem processed_nil : s.processed host [] = .ok s := by
  rw [processed, unmasked_nil, if_neg (by rintro ⟨_, h⟩; cases h), afterPayload_nil]

/-- A pass over all the payload the frame still needs. -/
theorem turned_whole (hs : s.state = .application) (hn : s.bytesNeeded ≤ buf.length) :
    s.turned host buf = match s.processed host (buf.take s.bytesNeeded) with
      | .error e => .error e
      | .ok s' => match s'.endFrame.2 with
        | some e => .error e
        | none => .ok (s'.endFrame.1, buf.drop s.bytesNeeded) := by
  have hm : min s.bytesNeeded buf.length = s.bytesNeeded := Nat.min_eq_left hn
  rcases Nat.eq_zero_or_pos s.bytesNeeded with h0 | hpos
  · rw [h0, List.take_zero, processed_nil]
    cases he : s.endFrame.2 with
    | some e => simp only [turned, turn, hs, h0, Nat.zero_min, Nat.lt_irrefl, if_false, Option.isSome_none, Bool.false_eq_true, he]
    | none => simp only [turned, turn, hs, h0, Nat.zero_min, Nat.lt_irrefl, if_false, Option.isSome_none, Bool.false_eq_true, he]
  · rw [turned_application hs (by rw [hm]; exact hpos), hm]
    cases hp : s.processed host (buf.take s.bytesNeeded) with
    | error e => rfl
    | ok s' =>
      obtain ⟨rfl, _⟩ := processed_ok hp
      have hz : (s.afterPayload host (buf.take s.bytesNeeded)).bytesNeeded = 0 := by
        rw [afterPayload, List.length_take_of_le hn]
        exact Nat.sub_self _
      exact if_neg (by rw [hz]; exact Nat.lt_irrefl 0)

/-- The processor when the first two bytes of a frame are accepted. -/
def withBasic (s : Hybi13) (h : BasicHeader) : Hybi13 where
  __ := s
  basicHeader := h
  bytesNeeded := h.getHeaderLen - basicHeaderLength
  cursor := 0
  state := .headerExtended

theorem consumed_basic {y : UInt8} (hs : s.state = .headerBasic) (hn : s.bytesNeeded = 2) :
    s.consumed host (x :: y :: b) = match validateIncomingBasicHeader ⟨x, y⟩ s.server s.dataMsg.msgPtr.isNone with
      | some e => .error e
      | none => (s.withBasic ⟨x, y⟩).consumed host b := by
  have hg : s.goesOn (x :: y :: b) = true :=
    goesOn_iff.mpr ⟨by rw [hs]; nofun, by rw [hs]; nofun, .inl (List.cons_ne_nil _ _)⟩
  have hc : s.copyBasicHeaderBytes (x :: y :: b) = ({ s with basicHeader := ⟨x, y⟩, bytesNeeded := 0 }, 2) := by
    simp [copyBasicHeaderBytes, hn]
  rw [consumed_turn hg, turned]
  simp only [turn, hs, hc, Nat.lt_irrefl, if_false, enterExtended]
  cases validateIncomingBasicHeader ⟨x, y⟩ s.server s.dataMsg.msgPtr.isNone with
  | some e => rfl
  | none => rfl

theorem consumed_extended (hs : s.state = .headerExtended) (hn : s.bytesNeeded = buf.length) :
    s.consumed host (buf ++ b) = match ((s.storeExtended buf).enterApplication host).2 with
      | some e => .error e
      | none => ((s.storeExtended buf).enterApplication host).1.consumed host b := by
  have hg : s.goesOn (buf ++ b) = true := by
    refine goesOn_iff.mpr ⟨by rw [hs]; nofun, by rw [hs]; nofun, ?_⟩
    rcases Nat.eq_zero_or_pos s.bytesNeeded with h | h
    · exact .inr h
    · exact .inl (List.append_ne_nil_of_left_ne_nil (List.length_pos_iff.mp (hn ▸ h)) b)
  rw [consumed_turn hg, turned, turn_extended hs, if_pos (by rw [List.length_append]; omega), hn, List.take_left, List.drop_left]
  generalize (s.storeExtended buf).enterApplication host = r
  obtain ⟨s', _ | e⟩ := r <;> rfl

theorem consumed_application (hs : s.state = .application) (hn : s.bytesNeeded = b.length) :
    s.consumed host b = match s.processed host b with
      | .error e => .error e
      | .ok s' => match s'.endFrame.2 with
        | some e => .error e
        | none => .ok (s'.endFrame.1, []) := by
  have hg : s.goesOn b = true := by
    refine goesOn_iff.mpr ⟨by rw [hs]; nofun, by rw [hs]; nofun, ?_⟩
    rcases Nat.eq_zero_or_pos s.bytesNeeded with h | h
    · exact .inr h
    · exact .inl (List.length_pos_iff.mp (hn ▸ h))
  rw [consumed_turn hg, turned_whole hs (Nat.le_of_eq hn), hn, List.take_length, List.drop_length]
  cases s.processed host b with
  | error e => rfl
  | ok s' =>
    dsimp only
    cases he : s'.endFrame with
    | mk s₁ ec =>
      cases ec with
      | some e => rfl
      | none =>
        dsimp only
        refine consumed_stop fun h => ?_
        rcases endFrame_ok he with ⟨_, rfl, _⟩ | ⟨_, rfl⟩
        · exact (goesOn_iff.mp h).1 rfl
        · exact not_goesOn_of_needs Nat.two_pos h

/-- A header whose bytes run out is waited for. -/
theorem consumed_extended_short (hs : s.state = .headerExtended) (hn : buf.length < s.bytesNeeded) :
    ∃ s', s.consumed host buf = .ok (s', []) ∧ s'.state = .headerExtended := by
  cases buf with
  | nil => exact ⟨s, consumed_stop (not_goesOn_of_needs hn), hs⟩
  | cons x b =>
    have hg : s.goesOn (x :: b) = true :=
      goesOn_iff.mpr ⟨by rw [hs]; nofun, by rw [hs]; nofun, .inl (List.cons_ne_nil _ _)⟩
    have hneed : 0 < (s.storeExtended (x :: b)).bytesNeeded := Nat.sub_pos_of_lt hn
    refine ⟨s.storeExtended (x :: b), ?_, hs⟩
    rw [consumed_turn hg, turned, turn_extended hs, if_neg (Nat.not_le_of_lt hn)]
    dsimp only
    rw [List.drop_length]
    exact consumed_stop (not_goesOn_of_needs hneed)

/-- A payload whose bytes run out is waited for, or met an error. -/
theorem consumed_application_short {r : Hybi13 × Bytes} (hs : s.state = .application) (hn : buf.length < s.bytesNeeded)
    (hc : s.consumed host buf = .ok r) : r.1.state = .application := by
  cases buf with
  | nil =>
    rw [consumed_stop (not_goesOn_of_needs hn)] at hc
    cases hc
    exact hs
  | cons x b =>
    have hg : s.goesOn (x :: b) = true :=
      goesOn_iff.mpr ⟨by rw [hs]; nofun, by rw [hs]; nofun, .inl (List.cons_ne_nil _ _)⟩
    have hm : min s.bytesNeeded (x :: b).length = (x :: b).length := Nat.min_eq_right (Nat.le_of_lt hn)
    rw [consumed_turn hg, turned_application hs (by rw [hm]; exact Nat.succ_pos _), hm, List.take_length, List.drop_length] at hc
    cases hp : s.processed host (x :: b) with
    | error e =>
      rw [hp] at hc
      cases hc
    | ok s' =>
      obtain ⟨rfl, _⟩ := processed_ok hp
      have hneed : 0 < (s.afterPayload host (x :: b)).bytesNeeded := Nat.sub_pos_of_lt hn
      rw [hp] at hc
      dsimp only at hc
      rw [if_pos hneed] at hc
      dsimp only at hc
      rw [consumed_stop (not_goesOn_of_needs hneed)] at hc
      cases hc
      exact afterPayload_state.trans hs

end Hybi13

section Stages
variable {host : Host} {server : Bool} {maxMessageSize : Nat} {pending : Option Message} {s s₁ s₂ : Hybi13} {f : WireFrame}

open Hybi13

theorem Stands.waiting (h : Stands server maxMessageSize pending s) : Waiting host s :=
  ⟨by rw [h.bytesNeeded]; exact Nat.two_pos, .inl ⟨h.state, Nat.le_of_eq h.bytesNeeded⟩, by rw [h.extendedHeader]; rfl⟩

theorem Stands.init (server : Bool) (maxMessageSize : Nat) : Stands server maxMessageSize none (.init server maxMessageSize) :=
  ⟨rfl, rfl, rfl, rfl, rfl, rfl, nofun, nofun⟩

/-- What the checks on a whole header make of it. -/
theorem enterApplication_snd (host : Host) (s : Hybi13) : (s.enterApplication host).2 =
    match validateIncomingExtendedHeader host s.basicHeader s.extendedHeader with
    | some e => some e
    | none =>
      if s.basicHeader.getOpcode.isControl = false ∧
        s.maxMessageSize < Message.sizeWith s.dataMsg.msgPtr (getPayloadSize host s.basicHeader s.extendedHeader) then
        some .messageTooBig
      else none := by
  unfold enterApplication
  cases validateIncomingExtendedHeader host s.basicHeader s.extendedHeader with
  | some e => rfl
  | none =>
    dsimp only
    by_cases hc : s.basicHeader.getOpcode.isControl = true
    · rw [if_pos hc, if_neg fun h => absurd (hc.symm.trans h.1) (by decide)]
    · rw [if_neg hc, startData_eq]
      split_ifs with hm hm' hm'
      · rfl
      · exact absurd ⟨Bool.eq_false_iff.mpr hc, hm⟩ hm'
      · exact absurd hm'.2 hm
      · rfl

/-- The processor with the header of a frame. -/
private theorem withHeader_fields (h : Stands server maxMessageSize pending s) :
    ((s.withBasic f.basic).storeExtended f.extended).basicHeader = f.basic ∧
      ((s.withBasic f.basic).storeExtended f.extended).extendedHeader = f.header ∧
      ((s.withBasic f.basic).storeExtended f.extended).maxMessageSize = maxMessageSize ∧
      ((s.withBasic f.basic).storeExtended f.extended).server = server ∧
      ((s.withBasic f.basic).storeExtended f.extended).dataMsg = s.dataMsg := by
  refine ⟨rfl, ?_, h.maxMessageSize, h.server, rfl⟩
  change s.extendedHeader.put 0 f.extended = _
  rw [h.extendedHeader]
  rfl

/-- The loop over a whole frame, up to its payload. -/
private theorem consumed_frame (h : Stands server maxMessageSize pending s) (hf : f.WellSized host) :
    s.consumed host f.bytes = match validateIncomingBasicHeader f.basic server pending.isNone with
      | some e => .error e
      | none => match (((s.withBasic f.basic).storeExtended f.extended).enterApplication host).2 with
        | some e => .error e
        | none => (((s.withBasic f.basic).storeExtended f.extended).enterApplication host).1.consumed host f.raw := by
  rw [WireFrame.bytes, consumed_basic h.state h.bytesNeeded, h.server, h.message]
  cases validateIncomingBasicHeader f.basic server pending.isNone with
  | some e => rfl
  | none => exact consumed_extended rfl hf.extended.symm

/-- The payload as the processor unmasks it. -/
private theorem unmasked_plain (hb : s₂.basicHeader = f.basic)
    (hk : Prepared host s₂.current.preparedKey (keyStream host (getMaskingKey host f.basic f.header))) :
    (s₂.unmasked host f.raw).1 = f.plain host := by
  rw [unmasked, WireFrame.plain, hb]
  split_ifs
  · exact (byteMaskCirc_prepared hk).1
  · rfl

/-- A control frame is last in its message, and short. -/
theorem control_of_valid {h : BasicHeader} {newMsg : Bool} (hv : validateIncomingBasicHeader h server newMsg = none)
    (hc : h.getOpcode.isControl = true) : h.getFin = true ∧ h.getBasicSize.toNat ≤ payloadSizeBasic := by
  unfold validateIncomingBasicHeader at hv
  dsimp only at hv
  split_ifs at hv with h1 h2 h3 h4 h5 h6 h7 h8 h9 h10
  all_goals
    refine ⟨?_, ?_⟩
    · simpa [hc] using h6
    · simpa [hc] using h1

private theorem getMessage_control {m : Message} (hslot : s.currentMsg = .control) (hm : s.controlMsg.msgPtr = some m)
    (hc : m.opcode.isControl = true) : ({ s with state := .ready } : Hybi13).getMessage =
      (some m, { s with controlMsg := { s.controlMsg with msgPtr := none }, state := .ready }.resetHeaders) := by
  have hcur : ({ s with state := .ready } : Hybi13).current = s.controlMsg := by
    unfold current
    simp [hslot]
  rw [getMessage, if_neg (not_not_intro rfl), hcur, hm]
  dsimp only
  rw [if_pos hc]
  unfold setCurrent
  simp [hslot]

private theorem getMessage_data {m : Message} (hslot : s.currentMsg = .data) (hm : s.dataMsg.msgPtr = some m)
    (hc : m.opcode.isControl = false) : ({ s with state := .ready } : Hybi13).getMessage =
      (some m, { s with dataMsg := { s.dataMsg with msgPtr := none }, state := .ready }.resetHeaders) := by
  have hcur : ({ s with state := .ready } : Hybi13).current = s.dataMsg := by
    unfold current
    simp [hslot]
  rw [getMessage, if_neg (not_not_intro rfl), hcur, hm]
  dsimp only
  rw [if_neg (by rw [hc]; decide)]
  unfold setCurrent
  simp [hslot]

/-- A processor that has read the header of a frame and accepted it. -/
structure AtPayload (host : Host) (s : Hybi13) (f : WireFrame) (s₂ : Hybi13) : Prop where
  consumed : s.consumed host f.bytes = s₂.consumed host f.raw
  basicHeader : s₂.basicHeader = f.basic
  state : s₂.state = .application
  bytesNeeded : s₂.bytesNeeded = f.raw.length
  server : s₂.server = s.server
  maxMessageSize : s₂.maxMessageSize = s.maxMessageSize
  plain : (s₂.unmasked host f.raw).1 = f.plain host
  control : f.basic.getOpcode.isControl = true → s₂.currentMsg = .control ∧ s₂.dataMsg = s.dataMsg ∧
    s₂.controlMsg = .start f.basic.getOpcode (getMaskingKey host f.basic f.header)
  data : f.basic.getOpcode.isControl = false → s₂.currentMsg = .data ∧
    s₂.dataMsg = s.dataMsg.next f.basic.getOpcode (getMaskingKey host f.basic f.header)

private theorem atPayload (h : Stands server maxMessageSize pending s) (hf : f.WellSized host)
    (hv : validateIncomingBasicHeader f.basic server pending.isNone = none)
    (hx : validateIncomingExtendedHeader host f.basic f.header = none)
    (hm : f.basic.getOpcode.isControl = false → Message.sizeWith pending f.raw.length ≤ maxMessageSize) :
    ∃ s₂, AtPayload host s f s₂ := by
  obtain ⟨hb, he, hmax, hserver, hdata⟩ := withHeader_fields (f := f) h
  have hcons := consumed_frame h hf
  have hsnd : (((s.withBasic f.basic).storeExtended f.extended).enterApplication host).2 = none := by
    rw [enterApplication_snd, hb, he, hx, hdata, h.message, hmax, ← hf.raw]
    exact if_neg fun h => absurd (hm h.1) (Nat.not_le_of_lt h.2)
  obtain ⟨s₂, hs₂⟩ : ∃ s₂, ((s.withBasic f.basic).storeExtended f.extended).enterApplication host = (s₂, none) :=
    ⟨_, Prod.ext rfl hsnd⟩
  rw [hv, hs₂] at hcons
  have hen := enterApplication_ok hs₂
  have hk := hen.prepared
  have hctl := hen.control
  have hdat := hen.data
  rw [hb, he] at hk hctl hdat
  rw [hdata] at hctl hdat
  refine ⟨s₂, hcons, hen.basicHeader.trans hb, hen.state, ?_, (hen.server.trans hserver).trans h.server.symm,
    (hen.maxMessageSize.trans hmax).trans h.maxMessageSize.symm, unmasked_plain (hen.basicHeader.trans hb) hk, hctl,
    fun hc => ⟨(hdat hc).1, (hdat hc).2.2.1⟩⟩
  rw [hen.bytesNeeded, hb, he, hf.raw]

theorem endFrame_ready (hf : s.basicHeader.getFin = true)
    (ht : s.basicHeader.getOpcode = .text → s.current.validator.complete = true) :
    s.endFrame = ({ s with state := .ready }, none) := by
  rw [endFrame, if_pos hf, finalizeMessage, if_neg]
  rintro ⟨hop, hc⟩
  exact absurd ((ht hop).symm.trans hc) (by decide)

theorem endFrame_invalid (hf : s.basicHeader.getFin = true) (ht : s.basicHeader.getOpcode = .text)
    (hc : s.current.validator.complete = false) : s.endFrame = (s, some .invalidUtf8) := by
  rw [endFrame, if_pos hf, finalizeMessage, if_pos ⟨ht, hc⟩]

theorem endFrame_more (hf : s.basicHeader.getFin = false) : s.endFrame = (s.resetHeaders, none) := by
  rw [endFrame, if_neg (by rw [hf]; decide)]

/-- The frame after a first one that is not the last continues its message. -/
theorem fresh_of_valid {h : BasicHeader} (hv : validateIncomingBasicHeader h server pending.isNone = none)
    (hc : h.getOpcode.isControl = false) (ho : h.getOpcode ≠ .continuation) : pending = none := by
  unfold validateIncomingBasicHeader at hv
  dsimp only at hv
  split_ifs at hv with h1 h2 h3 h4 h5 h6 h7 h8
  all_goals
    cases pending with
    | none => rfl
    | some m => simp [hc, ho] at h8

theorem validate_iff_foldl {b : Bytes} : validate b = true ↔ b.foldl nextState utf8Accept = utf8Accept := by
  rw [validate_iff, foldl_accept_iff]

/-- A control frame between two frames of a message. -/
private theorem control_refines (h : Stands server maxMessageSize pending s) (hf : f.WellSized host)
    (hc : f.basic.getOpcode.isControl = true) (hv : validateIncomingBasicHeader f.basic server pending.isNone = none)
    (hx : validateIncomingExtendedHeader host f.basic f.header = none) :
    ∃ s', readBytes host s f.bytes = ([⟨f.basic.getOpcode, f.plain host⟩], .ok s') ∧ Stands server maxMessageSize pending s' := by
  obtain ⟨s₂, hp⟩ := atPayload h hf hv hx fun hn => absurd (hc.symm.trans hn) (by decide)
  obtain ⟨hslot, hd, hm⟩ := hp.control hc
  have hcur : s₂.current = s₂.controlMsg := by
    unfold current
    rw [hslot]
  have hop : f.basic.getOpcode ≠ .text := by
    intro hop
    rw [hop] at hc
    cases hc
  have htext : s₂.current.isText = false := by
    rw [hcur, hm, MsgMetadata.isText, beq_eq_false_iff_ne]
    exact fun h => hop (Option.some.inj h)
  have hproc : s₂.processed host f.raw = .ok (s₂.afterPayload host f.raw) :=
    if_neg fun h => absurd (htext.symm.trans h.1) (by decide)
  have hafter : s₂.afterPayload host f.raw =
      { s₂ with controlMsg := s₂.fed host f.raw, bytesNeeded := s₂.bytesNeeded - f.raw.length } := by
    unfold afterPayload setCurrent
    rw [hslot]
  have hmsg : (s₂.fed host f.raw).msgPtr = some ⟨f.basic.getOpcode, f.plain host⟩ := by
    rw [fed, hp.plain, hcur, hm]
    rfl
  have hbh : (s₂.afterPayload host f.raw).basicHeader = f.basic := setCurrent_fields.1.trans hp.basicHeader
  have hend := endFrame_ready (by rw [hbh]; exact (control_of_valid hv hc).1) fun h => absurd (hbh ▸ h) hop
  have hcons := hp.consumed
  rw [consumed_application hp.state hp.bytesNeeded, hproc] at hcons
  dsimp only at hcons
  rw [hend, hafter] at hcons
  have hg := getMessage_control (s := { s₂ with controlMsg := s₂.fed host f.raw, bytesNeeded := s₂.bytesNeeded - f.raw.length })
    hslot hmsg hc
  have hr := readBytes_whole hcons
  rw [if_pos rfl, hg] at hr
  refine ⟨_, hr, ⟨hp.server.trans h.server, hp.maxMessageSize.trans h.maxMessageSize, rfl, rfl, rfl, ?_, h.kind, ?_⟩⟩
  · exact (congrArg MsgMetadata.msgPtr hd).trans h.message
  · intro m hm ht
    obtain ⟨hs, hv⟩ := h.validator m hm ht
    exact ⟨(congrArg (fun d => d.validator.state) hd).trans hs, hv⟩

/-- The pending message and its metadata, at the payload of a data frame. -/
structure AtData (host : Host) (pending : Option Message) (f : WireFrame) (s₂ : Hybi13) (base : Message) : Prop where
  slot : s₂.currentMsg = .data
  message : s₂.dataMsg.msgPtr = some base
  extend : Message.extend pending f.basic.getOpcode (f.plain host) = { base with payload := base.payload ++ f.plain host }
  kind : base.opcode.isControl = false
  validator : base.opcode = .text →
    s₂.dataMsg.validator.state = base.payload.foldl nextState utf8Accept ∧ viable base.payload = true

private theorem atData (h : Stands server maxMessageSize pending s) (hp : AtPayload host s f s₂)
    (hc : f.basic.getOpcode.isControl = false) : ∃ base, AtData host pending f s₂ base := by
  obtain ⟨hslot, hd⟩ := hp.data hc
  unfold MsgMetadata.next at hd
  rw [h.message] at hd
  cases hpend : pending with
  | none =>
    rw [hpend, Option.isNone_none, if_pos rfl] at hd
    refine ⟨⟨f.basic.getOpcode, []⟩, hslot, by rw [hd]; rfl, rfl, hc, fun _ => ?_⟩
    rw [hd]
    exact ⟨rfl, rfl⟩
  | some m =>
    rw [hpend, Option.isNone_some, if_neg (by decide)] at hd
    refine ⟨m, hslot, ?_, rfl, h.kind m hpend, fun ht => ?_⟩
    · rw [hd]
    · rw [hd]
      exact h.validator m hpend ht

section Payload
variable {base : Message}

private theorem isText_data (hd : AtData host pending f s₂ base) : s₂.current.isText = true ↔ base.opcode = .text := by
  rw [current, hd.slot, MsgMetadata.isText, hd.message]
  simp

/-- A text message stays viable exactly when the processor meets no error. -/
private theorem processed_data (hp : AtPayload host s f s₂) (hd : AtData host pending f s₂ base) :
    s₂.processed host f.raw =
      if base.opcode = .text ∧ viable (base.payload ++ f.plain host) = false then .error .invalidUtf8
      else .ok (s₂.afterPayload host f.raw) := by
  have hiff : (s₂.current.isText = true ∧ (s₂.current.validator.decode (s₂.unmasked host f.raw).1).1 = false) ↔
      base.opcode = .text ∧ viable (base.payload ++ f.plain host) = false := by
    rw [isText_data hd]
    refine and_congr_right fun ht => ?_
    obtain ⟨hs, hviable⟩ := hd.validator ht
    rw [viable, decide_eq_true_iff, ← hs] at hviable
    have hdec := decode_fst_iff (b := f.plain host) hviable
    have hcur : s₂.current.validator = s₂.dataMsg.validator := by rw [current, hd.slot]
    rw [hp.plain, hcur, ← Bool.not_eq_true, hdec, hs, ← List.foldl_append, viable, decide_eq_false_iff_not]
  rw [processed, if_congr hiff rfl rfl]

/-- The metadata after the whole payload of a data frame. -/
private theorem fed_data (hp : AtPayload host s f s₂) (hd : AtData host pending f s₂ base)
    (hv : base.opcode = .text → viable (base.payload ++ f.plain host) = true) :
    (s₂.fed host f.raw).msgPtr = some { base with payload := base.payload ++ f.plain host } ∧
      (base.opcode = .text → (s₂.fed host f.raw).validator.state = (base.payload ++ f.plain host).foldl nextState utf8Accept) := by
  have hcur : s₂.current = s₂.dataMsg := by rw [current, hd.slot]
  constructor
  · rw [fed, hp.plain, hcur]
    simp only [MsgMetadata.append, hd.message, Option.map_some]
  · intro ht
    obtain ⟨hs, _⟩ := hd.validator ht
    have hf : (f.plain host).foldl nextState s₂.dataMsg.validator.state ≠ utf8Reject := by
      rw [hs, ← List.foldl_append]
      exact of_decide_eq_true (hv ht)
    have hval : (s₂.fed host f.raw).validator = (s₂.dataMsg.validator.decode (f.plain host)).2 := by
      rw [fed, if_pos ((isText_data hd).mpr ht), hp.plain, hcur]
    rw [hval, decode_eq_foldl hf, foldl_advance_state, hs, List.foldl_append]

end Payload

/-- A frame of a data message. -/
private theorem data_refines (h : Stands server maxMessageSize pending s) (hf : f.WellSized host)
    (hc : f.basic.getOpcode.isControl = false) (hv : validateIncomingBasicHeader f.basic server pending.isNone = none)
    (hx : validateIncomingExtendedHeader host f.basic f.header = none) :
    match frameStep host server maxMessageSize pending f with
    | .error e => readBytes host s f.bytes = ([], .error e)
    | .ok (pending', out) =>
      ∃ s', readBytes host s f.bytes = (out.toList, .ok s') ∧ Stands server maxMessageSize pending' s' := by
  by_cases hbig : maxMessageSize < Message.sizeWith pending f.raw.length
  · have hsnd : (((s.withBasic f.basic).storeExtended f.extended).enterApplication host).2 = some .messageTooBig := by
      obtain ⟨hb, he, hmax, _, hdata⟩ := withHeader_fields (f := f) h
      rw [enterApplication_snd, hb, he, hx, hdata, h.message, hmax, ← hf.raw]
      exact if_pos ⟨hc, hbig⟩
    have hcons := consumed_frame h hf
    rw [hv, hsnd] at hcons
    simp only [frameStep, hv, hx, hc, Bool.false_eq_true, if_false, if_pos hbig]
    exact readBytes_error hcons
  · obtain ⟨s₂, hp⟩ := atPayload h hf hv hx fun _ => Nat.le_of_not_lt hbig
    obtain ⟨base, hd⟩ := atData h hp hc
    have hcons := hp.consumed
    rw [consumed_application hp.state hp.bytesNeeded, processed_data hp hd] at hcons
    simp only [frameStep, hv, hx, hc, Bool.false_eq_true, if_false, hd.extend]
    rw [if_neg hbig]
    by_cases hu : base.opcode = .text ∧ viable (base.payload ++ f.plain host) = false
    · rw [if_pos hu] at hcons ⊢
      exact readBytes_error hcons
    rw [if_neg hu] at hcons ⊢
    dsimp only at hcons
    have hviable : base.opcode = .text → viable (base.payload ++ f.plain host) = true := by
      intro ht
      by_contra hn
      exact hu ⟨ht, Bool.eq_false_iff.mpr hn⟩
    obtain ⟨hmsg, hval⟩ := fed_data hp hd hviable
    have hbh : (s₂.afterPayload host f.raw).basicHeader = f.basic := setCurrent_fields.1.trans hp.basicHeader
    have hafter : s₂.afterPayload host f.raw =
        { s₂ with dataMsg := s₂.fed host f.raw, bytesNeeded := s₂.bytesNeeded - f.raw.length } := by
      unfold afterPayload setCurrent
      rw [hd.slot]
    have hcomplete : f.basic.getOpcode = .text →
        (s₂.afterPayload host f.raw).current.validator.complete = validate (base.payload ++ f.plain host) := by
      intro hop
      have hnone := fresh_of_valid hv hc (by rw [hop]; nofun)
      have hext := hd.extend
      rw [hnone] at hext
      have ht : base.opcode = .text := (congrArg Message.opcode hext).symm.trans hop
      have hcur : (s₂.afterPayload host f.raw).current = s₂.fed host f.raw := current_setCurrent (s := s₂)
      rw [hcur, Bool.eq_iff_iff, validate_iff_foldl, Validator.complete, decide_eq_true_iff, hval ht]
    by_cases hfin : f.basic.getFin = true
    · rw [if_neg (by rw [hfin]; decide)]
      by_cases hi : f.basic.getOpcode = .text ∧ validate (base.payload ++ f.plain host) = false
      · rw [if_pos hi]
        rw [endFrame_invalid (by rw [hbh]; exact hfin) (by rw [hbh]; exact hi.1) (by rw [hcomplete hi.1]; exact hi.2)] at hcons
        exact readBytes_error hcons
      · rw [if_neg hi]
        have hready := endFrame_ready (s := s₂.afterPayload host f.raw) (by rw [hbh]; exact hfin) fun hop => by
          rw [hbh] at hop
          rw [hcomplete hop]
          by_contra hn
          exact hi ⟨hop, Bool.eq_false_iff.mpr hn⟩
        rw [hready, hafter] at hcons
        have hg := getMessage_data
          (s := { s₂ with dataMsg := s₂.fed host f.raw, bytesNeeded := s₂.bytesNeeded - f.raw.length }) hd.slot hmsg hd.kind
        have hr := readBytes_whole hcons
        rw [if_pos rfl, hg] at hr
        exact ⟨_, hr, ⟨hp.server.trans h.server, hp.maxMessageSize.trans h.maxMessageSize, rfl, rfl, rfl, rfl, nofun, nofun⟩⟩
    · have hmore := Bool.eq_false_iff.mpr hfin
      rw [if_pos hmore]
      rw [endFrame_more (by rw [hbh]; exact hmore), hafter] at hcons
      have hr := readBytes_whole hcons
      rw [if_neg (by nofun)] at hr
      refine ⟨_, hr, ⟨hp.server.trans h.server, hp.maxMessageSize.trans h.maxMessageSize, rfl, rfl, rfl, hmsg, ?_, ?_⟩⟩
      · intro m hm
        obtain rfl := Option.some.inj hm
        exact hd.kind
      · intro m hm ht
        obtain rfl := Option.some.inj hm
        exact ⟨hval ht, hviable ht⟩

/-- The processor makes of a frame's bytes what the frame stands for. -/
theorem frame_refines (h : Stands server maxMessageSize pending s) (hf : f.WellSized host) :
    match frameStep host server maxMessageSize pending f with
    | .error e => readBytes host s f.bytes = ([], .error e)
    | .ok (pending', out) =>
      ∃ s', readBytes host s f.bytes = (out.toList, .ok s') ∧ Stands server maxMessageSize pending' s' := by
  obtain ⟨hb, he, hmax, hserver, hdata⟩ := withHeader_fields (f := f) h
  have hcons := consumed_frame h hf
  cases hv : validateIncomingBasicHeader f.basic server pending.isNone with
  | some e =>
    rw [hv] at hcons
    simp only [frameStep, hv]
    exact readBytes_error hcons
  | none =>
    rw [hv] at hcons
    cases hx : validateIncomingExtendedHeader host f.basic f.header with
    | some e =>
      have hsnd := enterApplication_snd host ((s.withBasic f.basic).storeExtended f.extended)
      rw [hb, he, hx] at hsnd
      simp only [hsnd] at hcons
      simp only [frameStep, hv, hx]
      exact readBytes_error hcons
    | none =>
      by_cases hc : f.basic.getOpcode.isControl = true
      · obtain ⟨s', hr, hs'⟩ := control_refines h hf hc hv hx
        simp only [frameStep, hv, hx, hc, if_true]
        exact ⟨s', hr, hs'⟩
      · exact data_refines h hf (Bool.eq_false_iff.mpr hc) hv hx

end Stages

end DeribitClientServer.Transport
