import DeribitClientServer.Transport.Delivered
import Mathlib.Data.List.Forall2

/-! Messages prepared for the wire, and what the other end makes of their frames. -/
namespace DeribitClientServer.Transport
open Library Library.Utf8 Library.Endian Library.Mask Library.Chunked

/-- A message on its way out. -/
structure OutMessage where
  opcode : Opcode
  header : Bytes
  payload : Bytes
  prepared : Bool
  fin : Bool
  terminal : Bool
  deriving DecidableEq, Repr

namespace OutMessage

/-- A message a caller fills in. -/
def make (op : Opcode) (payload : Bytes) : OutMessage := ⟨op, [], payload, false, true, false⟩

/-- A message overwritten with a prepared frame. -/
def ready (op : Opcode) (header payload : Bytes) : OutMessage := ⟨op, header, payload, true, true, false⟩

/-- What is handed to the transport. -/
def bytes (m : OutMessage) : Bytes := m.header ++ m.payload

end OutMessage

section Preparing
variable (host : Host) (server : Bool) (key : UInt32)

def maskedCopy (i : Bytes) : Bytes := byteMask host i key 0

def prepareDataFrame (msg : OutMessage) : Except ProcessorError OutMessage :=
  let op := msg.opcode
  if op.isControl then .error .invalidOpcode
  else if op = .text ∧ validate msg.payload = false then .error .invalidPayload
  else
    let masked := !server
    let o := if masked then maskedCopy host key msg.payload else msg.payload
    let h := BasicHeader.make op o.length msg.fin masked false false false
    let e := if masked then ExtendedHeader.ofSizeKey host o.length key else ExtendedHeader.ofSize host o.length
    .ok (.ready op (prepareHeader h e) o)

def prepareControl (op : Opcode) (payload : Bytes) : Except ProcessorError OutMessage :=
  if op.isControl = false then .error .invalidOpcode
  else if payloadSizeBasic < payload.length then .error .controlTooBig
  else
    let masked := !server
    let h := BasicHeader.make op payload.length true masked false false false
    let e := if masked then ExtendedHeader.ofSizeKey host payload.length key else ExtendedHeader.ofSize host payload.length
    .ok (.ready op (prepareHeader h e) (if masked then maskedCopy host key payload else payload))

def preparePong (payload : Bytes) : Except ProcessorError OutMessage := prepareControl host server key .pong payload

end Preparing

/-- The frame with this header and payload. -/
def frameOf (host : Host) (masked : Bool) (key : UInt32) (op : Opcode) (fin : Bool) (payload : Bytes) : WireFrame where
  basic := .make op payload.length fin masked false false false
  extended := sizeBytes payload.length ++ if masked then host.memory 4 key.toNat else []
  raw := if masked then mask (keyStream host key) payload else payload

section Header
variable {host : Host} {masked fin : Bool} {key : UInt32} {op : Opcode} {size : Nat} {payload : Bytes}

private theorem basicValue_cases : (size ≤ payloadSizeBasic ∧ sizeBytes size = [] ∧
      (BasicHeader.basicValue size).toNat = size ∧ BasicHeader.basicValue size ≠ payloadSizeCode16bit ∧
      BasicHeader.basicValue size ≠ payloadSizeCode64bit) ∨
    (payloadSizeBasic < size ∧ size ≤ payloadSizeExtended ∧ sizeBytes size = bigEndian 2 size ∧
      BasicHeader.basicValue size = payloadSizeCode16bit) ∨
    (payloadSizeExtended < size ∧ sizeBytes size = bigEndian 8 size ∧ BasicHeader.basicValue size = payloadSizeCode64bit) := by
  unfold BasicHeader.basicValue sizeBytes
  by_cases hb : size ≤ payloadSizeBasic
  · left
    rw [if_pos hb, if_pos hb]
    have hn : (UInt8.ofNat size).toNat = size := by
      rw [UInt8.toNat_ofNat']
      unfold payloadSizeBasic at hb
      omega
    refine ⟨hb, rfl, hn, fun h => ?_, fun h => ?_⟩
    all_goals
      rw [h] at hn
      rw [← hn] at hb
      exact absurd hb (by decide)
  · right
    rw [if_neg hb, if_neg hb]
    by_cases he : size ≤ payloadSizeExtended
    · rw [if_pos he, if_pos he]
      exact .inl ⟨Nat.lt_of_not_le hb, he, rfl, rfl⟩
    · rw [if_neg he, if_neg he]
      exact .inr ⟨Nat.lt_of_not_le he, rfl, rfl⟩

private theorem getMaskingKeyOffset_make {rsv1 rsv2 rsv3 : Bool} :
    (BasicHeader.make op size fin masked rsv1 rsv2 rsv3).getMaskingKeyOffset = (sizeBytes size).length := by
  unfold BasicHeader.getMaskingKeyOffset
  rw [getBasicSize_make]
  rcases basicValue_cases with ⟨_, hs, _, h16, h64⟩ | ⟨_, _, hs, hv⟩ | ⟨_, hs, hv⟩
  · rw [if_neg h16, if_neg h64, hs]
    rfl
  · rw [if_pos hv, hs, length_bigEndian]
  · rw [hv, if_neg (by decide), if_pos rfl, hs, length_bigEndian]

theorem length_extended : (frameOf host masked key op fin payload).extended.length =
    (frameOf host masked key op fin payload).basic.getHeaderLen - basicHeaderLength := by
  simp only [frameOf, BasicHeader.getHeaderLen, getMaskingKeyOffset_make, getMasked_make, List.length_append]
  cases masked <;> simp [Host.length_memory, basicHeaderLength, Nat.add_assoc]

private theorem bytes_put {e : ExtendedHeader} {b : Bytes} : (e.put 0 b).bytes = b ++ e.bytes.drop b.length := by
  rw [ExtendedHeader.put, List.take_zero, List.nil_append, Nat.zero_add]

/-- The extended header a frame is prepared with, as the peer holds it. -/
private theorem extended_eq : (if masked then ExtendedHeader.ofSizeKey host size key else ExtendedHeader.ofSize host size) =
    ExtendedHeader.empty.put 0 (sizeBytes size ++ if masked then host.memory 4 key.toNat else []) := by
  have hc : ExtendedHeader.empty.copyPayload host size = ExtendedHeader.empty.put 0 (sizeBytes size) := by
    rw [ExtendedHeader.copyPayload, memory_htonll, drop_payloadOffset]
  cases masked with
  | false =>
    rw [if_neg (by decide), if_neg (by decide), List.append_nil]
    exact hc
  | true =>
    have hp := ExtendedHeader.put_put (e := .empty) (a := sizeBytes size) (b := host.memory 4 key.toNat) (Nat.zero_le _)
    rw [Nat.zero_add, length_sizeBytes] at hp
    rw [if_pos rfl, if_pos rfl, ExtendedHeader.ofSizeKey, hc, hp]

private theorem header_bytes : prepareHeader (frameOf host masked key op fin payload).basic
      (if masked then ExtendedHeader.ofSizeKey host payload.length key else ExtendedHeader.ofSize host payload.length) ++
        (frameOf host masked key op fin payload).raw = (frameOf host masked key op fin payload).bytes := by
  have hlen : (frameOf host masked key op fin payload).extended.length =
      (frameOf host masked key op fin payload).basic.getHeaderLen - basicHeaderLength := length_extended
  rw [prepareHeader, ← hlen, extended_eq, bytes_put]
  change _ :: _ :: ((frameOf host masked key op fin payload).extended ++ _).take _ ++ _ = _
  rw [List.take_left]
  rfl

theorem length_raw : (frameOf host masked key op fin payload).raw.length = payload.length := by
  unfold frameOf
  split_ifs
  · exact length_mask
  · rfl

/-- A payload size is read back from the bytes it was written to. -/
theorem getPayloadSize_frameOf (hn : payload.length < UInt64.size) :
    getPayloadSize host (frameOf host masked key op fin payload).basic (frameOf host masked key op fin payload).header =
      payload.length := by
  have hn' : payload.length < 256 ^ 8 := hn
  simp only [getPayloadSize, frameOf, WireFrame.header, getBasicSize_make]
  rcases basicValue_cases with ⟨hb, _, hv, _⟩ | ⟨_, he, hs, hv⟩ | ⟨_, hs, hv⟩
  · rw [hv, if_pos hb]
  · have hlt : payload.length < 256 ^ 2 := Nat.lt_succ_of_le he
    have ht : ∀ more, (bigEndian 2 payload.length ++ more).take 2 = bigEndian 2 payload.length :=
      fun _ => List.take_left' length_bigEndian
    rw [hv, if_neg (by decide), if_pos rfl, getExtendedSize, bytes_put, hs, List.append_assoc, ht,
      ntohs_ofMemory length_bigEndian, ofBigEndian_bigEndian, Nat.mod_eq_of_lt hlt]
  · have ht : ∀ more, (bigEndian 8 payload.length ++ more).take 8 = bigEndian 8 payload.length :=
      fun _ => List.take_left' length_bigEndian
    rw [hv, if_neg (by decide), if_neg (by decide), getJumboSize, bytes_put, hs, List.append_assoc, ht,
      ntoh_ofMemory length_bigEndian, ofBigEndian_bigEndian, Nat.mod_eq_of_lt hn']

theorem getMaskingKey_frameOf :
    getMaskingKey host (frameOf host true key op fin payload).basic (frameOf host true key op fin payload).header = key := by
  have hl : (host.memory 4 key.toNat).length = 4 := Host.length_memory
  rw [getMaskingKey, WireFrame.header, bytes_put]
  simp only [frameOf, getMasked_make, getMaskingKeyOffset_make, if_true]
  rw [List.append_assoc, List.drop_left, List.take_left' hl, Host.ofMemory_memory,
    Nat.mod_eq_of_lt (by exact key.toNat_lt), UInt32.ofNat_toNat]

theorem frameOf_wellSized (hn : payload.length < UInt64.size) : (frameOf host masked key op fin payload).WellSized host :=
  ⟨length_extended, by rw [length_raw, getPayloadSize_frameOf hn]⟩

/-- The other end unmasks what was sent. -/
theorem plain_frameOf : (frameOf host masked key op fin payload).plain host = payload := by
  cases masked with
  | false =>
    rw [WireFrame.plain, if_neg (by simp [frameOf])]
    rfl
  | true =>
    rw [WireFrame.plain, if_pos (by simp [frameOf]), getMaskingKey_frameOf]
    exact mask_mask

/-- Sizes are sent in the fewest bytes. -/
theorem validateIncomingExtendedHeader_frameOf (hn : payload.length < UInt64.size) :
    validateIncomingExtendedHeader host (frameOf host masked key op fin payload).basic
      (frameOf host masked key op fin payload).header = none := by
  rw [validateIncomingExtendedHeader, getPayloadSize_frameOf hn]
  simp only [frameOf, getBasicSize_make]
  rcases basicValue_cases with ⟨_, _, _, h16, h64⟩ | ⟨hb, _, _, hv⟩ | ⟨he, _, hv⟩
  · rw [if_neg fun h => h16 h.1, if_neg fun h => h64 h.1]
  · rw [if_neg fun h => absurd h.2 (Nat.not_le_of_lt hb), hv, if_neg fun h => absurd h.1 (by decide)]
  · rw [hv, if_neg fun h => absurd h.1 (by decide), if_neg fun h => absurd h.2 (Nat.not_le_of_lt he)]

/-- Machines of either byte order send the same frames. -/
theorem frameOf_host (host' : Host) (key : UInt32) :
    ∃ key', frameOf host masked key op fin payload = frameOf host' masked key' op fin payload := by
  refine ⟨UInt32.ofNat (host'.ofMemory (host.memory 4 key.toNat)), ?_⟩
  have hl : (host.memory 4 key.toNat).length = 4 := Host.length_memory
  have hlt := host'.ofMemory_lt (host.memory 4 key.toNat)
  rw [hl] at hlt
  have hm : host'.memory 4 (UInt32.ofNat (host'.ofMemory (host.memory 4 key.toNat))).toNat = host.memory 4 key.toNat := by
    have h := host'.memory_ofMemory (host.memory 4 key.toNat)
    rw [hl] at h
    rw [UInt32.toNat_ofNat', Nat.mod_eq_of_lt (by exact hlt), h]
  have hk : keyStream host' (UInt32.ofNat (host'.ofMemory (host.memory 4 key.toNat))) = keyStream host key := by
    funext i
    rw [keyStream, keyStream, keyByte, keyByte, hm]
  rw [frameOf, frameOf, hm, hk]

end Header

section Frames
variable {host : Host} {server : Bool} {maxMessageSize : Nat} {key : UInt32} {op : Opcode} {payload : Bytes} {msg out : OutMessage}

private theorem maskedCopy_eq : maskedCopy host key payload = mask (keyStream host key) payload := by
  rw [maskedCopy, byteMask_eq]
  congr 1
  funext i
  rw [shift, Nat.zero_add]

/-- What a data message is prepared to. -/
theorem prepareDataFrame_ok (h : prepareDataFrame host server key msg = .ok out) :
    msg.opcode.isControl = false ∧ (msg.opcode = .text → validate msg.payload = true) ∧
      out.bytes = (frameOf host (!server) key msg.opcode msg.fin msg.payload).bytes ∧ out.terminal = false := by
  unfold prepareDataFrame at h
  dsimp only at h
  split_ifs at h with hc hv hm
  all_goals
    refine ⟨Bool.eq_false_iff.mpr hc, fun ht => by simpa [ht] using hv, ?_, by cases h; rfl⟩
    rw [← Except.ok.inj h, OutMessage.bytes, OutMessage.ready, ← header_bytes]
  · simp only [maskedCopy_eq, length_mask, frameOf, hm, if_true]
  · simp only [frameOf, hm, Bool.false_eq_true, if_false]

theorem prepareControl_ok (h : prepareControl host server key op payload = .ok out) :
    op.isControl = true ∧ payload.length ≤ payloadSizeBasic ∧
      out.bytes = (frameOf host (!server) key op true payload).bytes ∧ out.terminal = false := by
  unfold prepareControl at h
  dsimp only at h
  split_ifs at h with hc hsize hm
  all_goals
    refine ⟨by simpa using hc, Nat.le_of_not_lt hsize, ?_, by cases h; rfl⟩
    rw [← Except.ok.inj h, OutMessage.bytes, OutMessage.ready, ← header_bytes]
  · simp only [maskedCopy_eq, frameOf, hm, if_true]
  · simp only [frameOf, hm, Bool.false_eq_true, if_false]

/-- What the other end can be sent. -/
structure Sendable (maxMessageSize : Nat) (m : Message) : Prop where
  kind : m.opcode ∈ [Opcode.text, .binary, .close, .ping, .pong]
  control : m.opcode.isControl = true → m.payload.length ≤ payloadSizeBasic
  data : m.opcode.isControl = false → m.payload.length ≤ maxMessageSize
  text : m.opcode = .text → validate m.payload = true

/-- A whole text can start one. -/
theorem viable_of_validate {b : Bytes} (h : validate b = true) : viable b = true := by
  rw [validate_iff_foldl] at h
  rw [viable, h]
  decide

private theorem length_lt {m : Message} (hmax : maxMessageSize < UInt64.size) (hm : Sendable maxMessageSize m) :
    m.payload.length < UInt64.size := by
  cases hc : m.opcode.isControl with
  | true => exact Nat.lt_of_le_of_lt (hm.control hc) (by decide)
  | false => exact Nat.lt_of_le_of_lt (hm.data hc) hmax

private theorem legal_frameOf {fin : Bool} (hkind : op ∈ [Opcode.continuation, .text, .binary, .close, .ping, .pong])
    (hcontrol : op.isControl = true → payload.length ≤ payloadSizeBasic ∧ fin = true) :
    Legal server (frameOf host server key op fin payload).basic := by
  unfold frameOf
  refine ⟨⟨getRsv1_make, getRsv2_make, getRsv3_make⟩, by rw [getOpcode_make]; exact hkind, fun hc => ?_, getMasked_make⟩
  rw [getOpcode_make] at hc
  obtain ⟨hsize, hfin⟩ := hcontrol hc
  rw [getFin_make, getBasicSize_make, BasicHeader.basicValue, if_pos hsize, UInt8.toNat_ofNat']
  exact ⟨hfin, Nat.le_trans (Nat.mod_le _ _) hsize⟩

/-- A message sent in one frame is delivered as it is. -/
theorem frameStep_frameOf {m : Message} (hmax : maxMessageSize < UInt64.size) (hm : Sendable maxMessageSize m) :
    frameStep host server maxMessageSize none (frameOf host server key m.opcode true m.payload) = .ok (none, some m) := by
  have hkind := List.mem_cons_of_mem Opcode.continuation hm.kind
  have hv : validateIncomingBasicHeader (frameOf host server key m.opcode true m.payload).basic server true = none := by
    refine validateIncomingBasicHeader_none.mpr ⟨legal_frameOf hkind fun hc => ⟨hm.control hc, rfl⟩, fun _ => ?_⟩
    have hne : m.opcode ≠ .continuation := by
      intro ho
      have h := hm.kind
      rw [ho] at h
      exact absurd h (by decide)
    rw [frameOf, getOpcode_make]
    exact ⟨fun ho => absurd ho hne, nofun⟩
  have hx : validateIncomingExtendedHeader host (frameOf host server key m.opcode true m.payload).basic
      (frameOf host server key m.opcode true m.payload).header = none :=
    validateIncomingExtendedHeader_frameOf (length_lt hmax hm)
  have hop : (frameOf host server key m.opcode true m.payload).basic.getOpcode = m.opcode := getOpcode_make
  have hfin : (frameOf host server key m.opcode true m.payload).basic.getFin = true := getFin_make
  unfold frameStep
  simp only [Option.isNone_none, hv, hx, hop, hfin, plain_frameOf, length_raw, Message.extend, Message.sizeWith]
  cases hc : m.opcode.isControl with
  | true => rfl
  | false =>
    rw [if_neg (by decide), if_neg (Nat.not_lt_of_le (hm.data hc)), if_neg, if_neg (by decide), if_neg]
    · rintro ⟨ht, hn⟩
      exact absurd ((hm.text ht).symm.trans hn) (by decide)
    · rintro ⟨ht, hn⟩
      exact absurd ((viable_of_validate (hm.text ht)).symm.trans hn) (by decide)

end Frames

section Channel
variable {host host' : Host} {server : Bool} {maxMessageSize : Nat} {ms : List Message} {outs : List OutMessage}
  {a b : Bytes} {ps qs : List Bytes}

/-- A message made ready for the wire, with a masking key. -/
def prepare (host : Host) (server : Bool) (key : UInt32) (m : Message) : Except ProcessorError OutMessage :=
  if m.opcode.isControl then prepareControl host server key m.opcode m.payload
  else prepareDataFrame host server key (.make m.opcode m.payload)

/-- What the other end needs of a message that was prepared. -/
structure Accepts (maxMessageSize : Nat) (m : Message) : Prop where
  kind : m.opcode ∈ [Opcode.text, .binary, .close, .ping, .pong]
  data : m.opcode.isControl = false → m.payload.length ≤ maxMessageSize

theorem prepare_ok {key : UInt32} {m : Message} {out : OutMessage} (h : prepare host server key m = .ok out)
    (hm : Accepts maxMessageSize m) :
    Sendable maxMessageSize m ∧ out.terminal = false ∧ out.bytes = (frameOf host (!server) key m.opcode true m.payload).bytes := by
  unfold prepare at h
  split_ifs at h with hc
  · obtain ⟨_, hsize, hb, ht⟩ := prepareControl_ok h
    refine ⟨⟨hm.kind, fun _ => hsize, hm.data, fun hop => ?_⟩, ht, hb⟩
    rw [hop] at hc
    cases hc
  · obtain ⟨_, htext, hb, ht⟩ := prepareDataFrame_ok h
    exact ⟨⟨hm.kind, fun hc' => absurd hc' hc, hm.data, htext⟩, ht, hb⟩

/-- The frames of prepared messages, as the other end's host sees them. -/
theorem frames_of_prepared (hmax : maxMessageSize < UInt64.size)
    (hs : List.Forall₂ (fun m out => ∃ key, prepare host server key m = .ok out) ms outs)
    (hms : ∀ m ∈ ms, Accepts maxMessageSize m) :
    ∃ fs : List WireFrame, outs.flatMap OutMessage.bytes = fs.flatMap WireFrame.bytes ∧ (∀ f ∈ fs, f.WellSized host') ∧
      framesRun host' (!server) maxMessageSize none fs = (ms, .ok none) := by
  induction hs with
  | nil => exact ⟨[], rfl, fun f hf => (List.not_mem_nil hf).elim, rfl⟩
  | @cons m out ms outs hm _ ih =>
    obtain ⟨key, hkey⟩ := hm
    obtain ⟨fs, hb, hfs, hrun⟩ := ih fun m' h' => hms m' (List.mem_cons_of_mem m h')
    obtain ⟨hsend, _, hout⟩ := prepare_ok hkey (hms m List.mem_cons_self)
    obtain ⟨key', hhost⟩ := frameOf_host host' key
    rw [hhost] at hout
    refine ⟨frameOf host' (!server) key' m.opcode true m.payload :: fs, ?_, fun f hf => ?_, ?_⟩
    · rw [List.flatMap_cons, List.flatMap_cons, hb, hout]
    · rcases List.mem_cons.mp hf with rfl | hf
      · exact frameOf_wellSized (length_lt hmax hsend)
      · exact hfs f hf
    · rw [framesRun, frameStep_frameOf hmax hsend]
      dsimp only
      rw [hrun]
      rfl

/-- More bytes deliver more messages and take none back. -/
theorem delivered_mono (h : ps.flatten <+: qs.flatten) :
    delivered host server maxMessageSize ps <+: delivered host server maxMessageSize qs := by
  obtain ⟨more, hmore⟩ := h
  rw [delivered, delivered, pieces_readBytes, pieces_readBytes, ← hmore,
    readBytes_elementwise.append (waiting_init server maxMessageSize)]
  generalize readBytes host (.init server maxMessageSize) ps.flatten = r
  obtain ⟨out, _ | s⟩ := r
  · exact List.prefix_refl _
  · exact List.prefix_append _ _

private theorem delivered_sent (hmax : maxMessageSize < UInt64.size)
    (hs : List.Forall₂ (fun m out => ∃ key, prepare host server key m = .ok out) ms outs)
    (hms : ∀ m ∈ ms, Accepts maxMessageSize m) (hp : ps.flatten = outs.flatMap OutMessage.bytes) :
    delivered host' (!server) maxMessageSize ps = ms := by
  obtain ⟨fs, hb, hfs, hrun⟩ := frames_of_prepared hmax hs hms
  rw [delivered_eq, hp, hb, framesOf_flatMap hfs, hrun]

theorem delivered_of_prepared (hmax : maxMessageSize < UInt64.size)
    (hs : List.Forall₂ (fun m out => ∃ key, prepare host server key m = .ok out) ms outs)
    (hms : ∀ m ∈ ms, Accepts maxMessageSize m) (hp : ps.flatten <+: outs.flatMap OutMessage.bytes) :
    delivered host' (!server) maxMessageSize ps <+: ms ∧
      ∀ n, (outs.take n).flatMap OutMessage.bytes <+: ps.flatten →
        ms.take n <+: delivered host' (!server) maxMessageSize ps := by
  constructor
  · have hall : delivered host' (!server) maxMessageSize [outs.flatMap OutMessage.bytes] = ms :=
      delivered_sent hmax hs hms List.flatten_singleton
    rw [← hall]
    exact delivered_mono (by simpa using hp)
  · intro n hn
    have hpart : delivered host' (!server) maxMessageSize [(outs.take n).flatMap OutMessage.bytes] = ms.take n :=
      delivered_sent hmax (List.forall₂_take n hs) (fun m hm => hms m (List.mem_of_mem_take hm)) List.flatten_singleton
    rw [← hpart]
    exact delivered_mono (by simpa using hn)

end Channel

section Texts
variable {host : Host} {server : Bool} {maxMessageSize : Nat} {b : Bytes}

/-- A text in two frames, the second one empty: only its first is of the text kind. -/
private theorem framesRun_fragmented (hmax : maxMessageSize < UInt64.size) (hv : viable b = true)
    (hl : b.length ≤ maxMessageSize) :
    framesRun host server maxMessageSize none [frameOf host server 0 .text false b, frameOf host server 0 .continuation true []] =
      ([⟨.text, b⟩], .ok none) := by
  have hfirst : frameStep host server maxMessageSize none (frameOf host server 0 .text false b) = .ok (some ⟨.text, b⟩, none) := by
    have hbasic : validateIncomingBasicHeader (frameOf host server 0 .text false b).basic server true = none := by
      refine validateIncomingBasicHeader_none.mpr ⟨legal_frameOf (by decide) fun h => absurd h (by decide), fun _ => ?_⟩
      rw [frameOf, getOpcode_make]
      decide
    have hx : validateIncomingExtendedHeader host (frameOf host server 0 .text false b).basic
        (frameOf host server 0 .text false b).header = none :=
      validateIncomingExtendedHeader_frameOf (Nat.lt_of_le_of_lt hl hmax)
    have hop : (frameOf host server 0 .text false b).basic.getOpcode = .text := getOpcode_make
    have hfin : (frameOf host server 0 .text false b).basic.getFin = false := getFin_make
    unfold frameStep
    simp only [Option.isNone_none, hbasic, hx, hop, hfin, plain_frameOf, length_raw, Message.extend, Message.sizeWith]
    rw [if_neg (by decide), if_neg (Nat.not_lt_of_le hl), if_neg fun h => absurd (hv.symm.trans h.2) (by decide),
      if_pos trivial]
  have hlast : frameStep host server maxMessageSize (some ⟨.text, b⟩) (frameOf host server 0 .continuation true []) =
      .ok (none, some ⟨.text, b⟩) := by
    have hbasic : validateIncomingBasicHeader (frameOf host server 0 .continuation true []).basic server false = none := by
      refine validateIncomingBasicHeader_none.mpr ⟨legal_frameOf (by decide) fun h => absurd h (by decide), fun _ => ?_⟩
      rw [frameOf, getOpcode_make]
      decide
    have hx : validateIncomingExtendedHeader host (frameOf host server 0 .continuation true []).basic
        (frameOf host server 0 .continuation true []).header = none :=
      validateIncomingExtendedHeader_frameOf (by decide)
    have hop : (frameOf host server 0 .continuation true []).basic.getOpcode = .continuation := getOpcode_make
    have hfin : (frameOf host server 0 .continuation true []).basic.getFin = true := getFin_make
    unfold frameStep
    simp only [Option.isNone_some, hbasic, hx, hop, hfin, plain_frameOf, length_raw, Message.extend, Message.sizeWith,
      List.append_nil, List.length_nil, Nat.add_zero, Nat.mod_eq_of_lt (Nat.lt_of_le_of_lt hl hmax)]
    rw [if_neg (by decide), if_neg (Nat.not_lt_of_le hl), if_neg fun h => absurd (hv.symm.trans h.2) (by decide),
      if_neg (by decide), if_neg fun h => absurd h.1 (by decide)]
  rw [framesRun, hfirst]
  dsimp only
  rw [framesRun, hlast]
  rfl

private theorem delivered_frames {fs : List WireFrame} (hfs : ∀ f ∈ fs, f.WellSized host) :
    delivered host server maxMessageSize [fs.flatMap WireFrame.bytes] = (framesRun host server maxMessageSize none fs).1 := by
  rw [delivered_eq, List.flatten_singleton, framesOf_flatMap hfs]

/-- A peer can have any bytes within the limit delivered as a text that could start one, by cutting
the text after them. In unfragmented messages it can only have whole texts delivered. -/
theorem text_delivered_iff (host : Host) (server : Bool) {maxMessageSize : Nat} (hmax : maxMessageSize < UInt64.size) (b : Bytes)
    (hb : b.length < UInt64.size) :
    ((∃ ps, ⟨.text, b⟩ ∈ delivered host server maxMessageSize ps) ↔
        (∃ more t, Utf8.decode (b ++ more) = some t) ∧ b.length ≤ maxMessageSize) ∧
      ((∃ ps, (∀ f ∈ framesOf host ps.flatten, f.basic.getFin = true) ∧ ⟨.text, b⟩ ∈ delivered host server maxMessageSize ps) ↔
        (∃ t, Utf8.decode b = some t) ∧ b.length ≤ maxMessageSize) := by
  constructor
  · constructor
    · rintro ⟨ps, hm⟩
      have hd := (delivered_admitted _ hm).deliverable hb
      exact ⟨viable_iff.mp (hd.text rfl), hd.data rfl⟩
    · rintro ⟨hv, hl⟩
      refine ⟨[[frameOf host server 0 .text false b, frameOf host server 0 .continuation true []].flatMap WireFrame.bytes], ?_⟩
      have hfs : ∀ f ∈ [frameOf host server 0 .text false b, frameOf host server 0 .continuation true []], f.WellSized host := by
        intro f hf
        rcases List.mem_pair.mp hf with rfl | rfl
        · exact frameOf_wellSized (Nat.lt_of_le_of_lt hl hmax)
        · exact frameOf_wellSized (by decide)
      rw [delivered_frames hfs, framesRun_fragmented hmax (viable_iff.mpr hv) hl]
      exact List.mem_singleton_self _
  · constructor
    · rintro ⟨ps, hfin, hm⟩
      have hd := (delivered_admitted _ hm).deliverable hb
      rw [delivered_eq] at hm
      exact ⟨validate_iff.mp (framesRun_unfragmented hfin _ hm rfl), hd.data rfl⟩
    · rintro ⟨hv, hl⟩
      have hws : (frameOf host server 0 .text true b).WellSized host := frameOf_wellSized (Nat.lt_of_le_of_lt hl hmax)
      have hfs : ∀ f ∈ [frameOf host server 0 .text true b], f.WellSized host := by
        intro f hf
        rwa [List.mem_singleton.mp hf]
      refine ⟨[[frameOf host server 0 .text true b].flatMap WireFrame.bytes], fun f hf => ?_, ?_⟩
      · rw [List.flatten_singleton, framesOf_flatMap hfs] at hf
        rw [List.mem_singleton.mp hf]
        exact getFin_make
      · have hsend : Sendable maxMessageSize ⟨.text, b⟩ :=
          ⟨List.mem_cons_self, nofun, fun _ => hl, fun _ => validate_iff.mpr hv⟩
        rw [delivered_frames hfs, framesRun, frameStep_frameOf hmax hsend]
        exact List.mem_append_left _ (List.mem_singleton_self _)

/-- The first byte of a letter of two bytes can be had as a text, but not in unfragmented messages. -/
theorem text_delivered_iff_cut : (∃ ps, ⟨.text, [0xc3]⟩ ∈ delivered .little true 1000 ps) ∧
    ¬ ∃ ps, (∀ f ∈ framesOf .little ps.flatten, f.basic.getFin = true) ∧ ⟨.text, [0xc3]⟩ ∈ delivered .little true 1000 ps := by
  obtain ⟨hany, hwhole⟩ := text_delivered_iff .little true (by decide : 1000 < UInt64.size) [0xc3] (by decide)
  refine ⟨hany.mpr ⟨⟨[0xa9], validate_iff.mp (by decide)⟩, by decide⟩, fun h => ?_⟩
  have hv := validate_iff.mpr (hwhole.mp h).1
  exact absurd hv (by decide)

end Texts

section Results
variable {host host' : Host} {server : Bool} {maxMessageSize : Nat} {ms : List Message} {outs : List OutMessage} {ps : List Bytes}

/-- The other end of a connection gets the messages that were prepared, whole, unchanged and in
order: from a part of the bytes, in any pieces, the first of them, and each one whose frame arrived. -/
theorem sent_delivered (hmax : maxMessageSize < UInt64.size)
    (hs : List.Forall₂ (fun m out => ∃ key, prepare host server key m = .ok out) ms outs)
    (hms : ∀ m ∈ ms, Accepts maxMessageSize m) (hp : ps.flatten <+: outs.flatMap OutMessage.bytes) :
    delivered host' (!server) maxMessageSize ps <+: ms ∧
      ∀ n, (outs.take n).flatMap OutMessage.bytes <+: ps.flatten →
        ms.take n <+: delivered host' (!server) maxMessageSize ps := delivered_of_prepared hmax hs hms hp

/-- Of two messages one arrived, and the header of the other. -/
theorem sent_delivered_part : [⟨.text, [0x68, 0x69]⟩] <+: delivered .big false 1000 [[0x81], [0x02, 0x68, 0x69, 0x82, 0x01]] ∧
    delivered .big false 1000 [[0x81], [0x02, 0x68, 0x69, 0x82, 0x01]] <+: [⟨.text, [0x68, 0x69]⟩, ⟨.binary, [0xff]⟩] := by
  obtain ⟨a, b, hs, ha, hb⟩ : ∃ a b, List.Forall₂ (fun m out => ∃ key, prepare .little true key m = .ok out)
      [⟨.text, [0x68, 0x69]⟩, ⟨.binary, [0xff]⟩] [a, b] ∧ a.bytes = [0x81, 0x02, 0x68, 0x69] ∧ b.bytes = [0x82, 0x01, 0xff] :=
    ⟨_, _, .cons ⟨0, rfl⟩ (.cons ⟨0, rfl⟩ .nil), rfl, rfl⟩
  have hms : ∀ m ∈ [(⟨.text, [0x68, 0x69]⟩ : Message), ⟨.binary, [0xff]⟩], Accepts 1000 m := by
    intro m hm
    rcases List.mem_pair.mp hm with rfl | rfl <;> exact ⟨by decide, by decide⟩
  have hp : [[0x81], [0x02, 0x68, 0x69, 0x82, 0x01]].flatten <+: [a, b].flatMap OutMessage.bytes := by
    rw [List.flatMap_cons, List.flatMap_cons, ha, hb]
    decide
  obtain ⟨hfront, hpart⟩ := sent_delivered (by decide) hs hms hp
  refine ⟨hpart 1 ?_, hfront⟩
  rw [List.take_succ_cons, List.take_zero, List.flatMap_singleton, ha]
  decide

end Results
end DeribitClientServer.Transport
