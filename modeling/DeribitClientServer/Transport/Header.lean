import DeribitClientServer.Library.Endian
import DeribitClientServer.Library.Utf8
import Mathlib.Tactic.Linarith

/-! The header of a frame: two bytes, then the payload size when it does not fit
them, then the masking key when there is one. -/
namespace DeribitClientServer.Transport
open Library.Utf8 Library.Endian

inductive Opcode where
  | continuation | text | binary | rsv3 | rsv4 | rsv5 | rsv6 | rsv7
  | close | ping | pong | controlRsvb | controlRsvc | controlRsvd | controlRsve | controlRsvf
  deriving DecidableEq, Repr

namespace Opcode

def toNat : Opcode → Nat
  | continuation => 0x0 | text => 0x1 | binary => 0x2 | rsv3 => 0x3 | rsv4 => 0x4 | rsv5 => 0x5 | rsv6 => 0x6
  | rsv7 => 0x7 | close => 0x8 | ping => 0x9 | pong => 0xA | controlRsvb => 0xB | controlRsvc => 0xC
  | controlRsvd => 0xD | controlRsve => 0xE | controlRsvf => 0xF

/-- The opcode of the low four bits of a byte. -/
def value (n : UInt8) : Opcode :=
  match n.toNat % 16 with
  | 0x0 => continuation | 0x1 => text | 0x2 => binary | 0x3 => rsv3 | 0x4 => rsv4 | 0x5 => rsv5 | 0x6 => rsv6
  | 0x7 => rsv7 | 0x8 => close | 0x9 => ping | 0xA => pong | 0xB => controlRsvb | 0xC => controlRsvc
  | 0xD => controlRsvd | 0xE => controlRsve | _ => controlRsvf

def reserved (v : Opcode) : Bool :=
  (rsv3.toNat ≤ v.toNat && v.toNat ≤ rsv7.toNat) || (controlRsvb.toNat ≤ v.toNat && v.toNat ≤ controlRsvf.toNat)

def invalid (v : Opcode) : Bool := 0xF < v.toNat

def isControl (v : Opcode) : Bool := 0x8 ≤ v.toNat

end Opcode

def basicHeaderLength : Nat := 2

def maxExtendedHeaderLength : Nat := 12

def payloadSizeBasic : Nat := 125

def payloadSizeExtended : Nat := 0xFFFF

def bhb0Opcode : UInt8 := 0x0F
def bhb0Rsv3 : UInt8 := 0x10
def bhb0Rsv2 : UInt8 := 0x20
def bhb0Rsv1 : UInt8 := 0x40
def bhb0Fin : UInt8 := 0x80

def bhb1Payload : UInt8 := 0x7F
def bhb1Mask : UInt8 := 0x80

def payloadSizeCode16bit : UInt8 := 0x7E
def payloadSizeCode64bit : UInt8 := 0x7F

structure BasicHeader where
  b0 : UInt8
  b1 : UInt8
  deriving DecidableEq, Repr

structure ExtendedHeader where
  bytes : Bytes
  deriving DecidableEq, Repr

namespace BasicHeader

def empty : BasicHeader := ⟨0x00, 0x00⟩

/-- The seven bits that stand for a payload size. -/
def basicValue (size : Nat) : UInt8 :=
  if size ≤ payloadSizeBasic then UInt8.ofNat size
  else if size ≤ payloadSizeExtended then payloadSizeCode16bit
  else payloadSizeCode64bit

def flag (set : Bool) (bit : UInt8) : UInt8 := if set then bit else 0x00

def make (op : Opcode) (size : Nat) (fin mask rsv1 rsv2 rsv3 : Bool) : BasicHeader where
  b0 := flag fin bhb0Fin ||| flag rsv1 bhb0Rsv1 ||| flag rsv2 bhb0Rsv2 ||| flag rsv3 bhb0Rsv3 |||
    (UInt8.ofNat op.toNat &&& bhb0Opcode)
  b1 := flag mask bhb1Mask ||| basicValue size

def getFin (h : BasicHeader) : Bool := h.b0 &&& bhb0Fin == bhb0Fin

def getRsv1 (h : BasicHeader) : Bool := h.b0 &&& bhb0Rsv1 == bhb0Rsv1

def getRsv2 (h : BasicHeader) : Bool := h.b0 &&& bhb0Rsv2 == bhb0Rsv2

def getRsv3 (h : BasicHeader) : Bool := h.b0 &&& bhb0Rsv3 == bhb0Rsv3

def getOpcode (h : BasicHeader) : Opcode := .value (h.b0 &&& bhb0Opcode)

def getMasked (h : BasicHeader) : Bool := h.b1 &&& bhb1Mask == bhb1Mask

def getBasicSize (h : BasicHeader) : UInt8 := h.b1 &&& bhb1Payload

def getMaskingKeyOffset (h : BasicHeader) : Nat :=
  if h.getBasicSize = payloadSizeCode16bit then 2 else if h.getBasicSize = payloadSizeCode64bit then 8 else 0

def getHeaderLen (h : BasicHeader) : Nat :=
  basicHeaderLength + h.getMaskingKeyOffset + if h.getMasked then 4 else 0

end BasicHeader

namespace ExtendedHeader

def empty : ExtendedHeader := ⟨List.replicate maxExtendedHeaderLength 0x00⟩

/-- Bytes copied into the buffer from an offset on. -/
def put (e : ExtendedHeader) (offset : Nat) (src : Bytes) : ExtendedHeader :=
  ⟨e.bytes.take offset ++ src ++ e.bytes.drop (offset + src.length)⟩

def payloadOffset (payloadSize : Nat) : Nat :=
  if payloadSize ≤ payloadSizeBasic then 8 else if payloadSize ≤ payloadSizeExtended then 6 else 0

/-- Host order to network order and back: the bytes are swapped on a little-endian host. -/
def htonll (host : Host) (n : Nat) : Nat :=
  match host with
  | .big => n
  | .little => host.ofMemory (host.memory 8 n).reverse

def ntohs (host : Host) (n : Nat) : Nat :=
  match host with
  | .big => n
  | .little => host.ofMemory (host.memory 2 n).reverse

def copyPayload (host : Host) (e : ExtendedHeader) (payloadSize : Nat) : ExtendedHeader :=
  e.put 0 ((host.memory 8 (htonll host payloadSize)).drop (payloadOffset payloadSize))

def ofSize (host : Host) (payloadSize : Nat) : ExtendedHeader := empty.copyPayload host payloadSize

def ofSizeKey (host : Host) (payloadSize : Nat) (maskingKey : UInt32) : ExtendedHeader :=
  (empty.copyPayload host payloadSize).put (8 - payloadOffset payloadSize) (host.memory 4 maskingKey.toNat)

end ExtendedHeader

section Wire
variable (host : Host) (h : BasicHeader) (e : ExtendedHeader)

def prepareHeader : Bytes := h.b0 :: h.b1 :: e.bytes.take (h.getHeaderLen - basicHeaderLength)

def getMaskingKey : UInt32 :=
  if h.getMasked then UInt32.ofNat (host.ofMemory ((e.bytes.drop h.getMaskingKeyOffset).take 4)) else 0

def getExtendedSize : Nat := ExtendedHeader.ntohs host (host.ofMemory (e.bytes.take 2))

def getJumboSize : Nat := ExtendedHeader.htonll host (host.ofMemory (e.bytes.take 8))

def getPayloadSize : Nat :=
  if h.getBasicSize.toNat ≤ payloadSizeBasic then h.getBasicSize.toNat
  else if h.getBasicSize = payloadSizeCode16bit then getExtendedSize host e
  else getJumboSize host e

end Wire

section Basic
variable {op : Opcode} {size : Nat} {fin mask rsv1 rsv2 rsv3 : Bool}

@[simp] theorem value_toNat : Opcode.value (UInt8.ofNat op.toNat &&& bhb0Opcode) = op := by
  cases op <;> rfl

@[simp] theorem getFin_make : (BasicHeader.make op size fin mask rsv1 rsv2 rsv3).getFin = fin := by
  cases op <;> revert fin rsv1 rsv2 rsv3 <;> simp only [BasicHeader.getFin, BasicHeader.make] <;> decide

@[simp] theorem getRsv1_make : (BasicHeader.make op size fin mask rsv1 rsv2 rsv3).getRsv1 = rsv1 := by
  cases op <;> revert fin rsv1 rsv2 rsv3 <;> simp only [BasicHeader.getRsv1, BasicHeader.make] <;> decide

@[simp] theorem getRsv2_make : (BasicHeader.make op size fin mask rsv1 rsv2 rsv3).getRsv2 = rsv2 := by
  cases op <;> revert fin rsv1 rsv2 rsv3 <;> simp only [BasicHeader.getRsv2, BasicHeader.make] <;> decide

@[simp] theorem getRsv3_make : (BasicHeader.make op size fin mask rsv1 rsv2 rsv3).getRsv3 = rsv3 := by
  cases op <;> revert fin rsv1 rsv2 rsv3 <;> simp only [BasicHeader.getRsv3, BasicHeader.make] <;> decide

@[simp] theorem getOpcode_make : (BasicHeader.make op size fin mask rsv1 rsv2 rsv3).getOpcode = op := by
  cases op <;> revert fin rsv1 rsv2 rsv3 <;> simp only [BasicHeader.getOpcode, BasicHeader.make] <;> decide

private theorem basicValue_lt (size : Nat) : (BasicHeader.basicValue size).toNat < 128 := by
  unfold BasicHeader.basicValue payloadSizeBasic
  split_ifs
  · rw [UInt8.toNat_ofNat']
    omega
  · decide
  · decide

private theorem low_seven : ∀ n < 128, ∀ mask : Bool,
    (BasicHeader.flag mask bhb1Mask ||| UInt8.ofNat n) &&& bhb1Mask = BasicHeader.flag mask bhb1Mask ∧
      (BasicHeader.flag mask bhb1Mask ||| UInt8.ofNat n) &&& bhb1Payload = UInt8.ofNat n := by
  decide +kernel

@[simp] theorem getMasked_make : (BasicHeader.make op size fin mask rsv1 rsv2 rsv3).getMasked = mask := by
  have h := (low_seven _ (basicValue_lt size) mask).1
  rw [UInt8.ofNat_toNat] at h
  rw [BasicHeader.getMasked, BasicHeader.make, h]
  cases mask <;> rfl

@[simp] theorem getBasicSize_make :
    (BasicHeader.make op size fin mask rsv1 rsv2 rsv3).getBasicSize = BasicHeader.basicValue size := by
  have h := (low_seven _ (basicValue_lt size) mask).2
  rwa [UInt8.ofNat_toNat] at h

end Basic

section Extended
variable {host : Host} {h : BasicHeader} {size : Nat} {key : UInt32} {more : Bytes}

/-- The bytes of a payload size past the basic header. -/
def sizeBytes (size : Nat) : Bytes :=
  if size ≤ payloadSizeBasic then [] else if size ≤ payloadSizeExtended then bigEndian 2 size else bigEndian 8 size

theorem memory_htonll : host.memory 8 (ExtendedHeader.htonll host size) = bigEndian 8 size := by
  cases host with
  | big => rfl
  | little =>
    have hm := Host.memory_ofMemory .little (Host.memory .little 8 size).reverse
    rw [List.length_reverse, Host.length_memory] at hm
    rw [ExtendedHeader.htonll, hm]
    exact List.reverse_reverse _

/-- Network order read back on either host. -/
theorem ntoh_ofMemory {b : Bytes} (hb : b.length = 8) : ExtendedHeader.htonll host (host.ofMemory b) = ofBigEndian b := by
  cases host with
  | big => rfl
  | little =>
    have hm := Host.memory_ofMemory .little b
    rw [hb] at hm
    rw [ExtendedHeader.htonll, hm]
    exact congrArg ofBigEndian (List.reverse_reverse b)

theorem ntohs_ofMemory {b : Bytes} (hb : b.length = 2) : ExtendedHeader.ntohs host (host.ofMemory b) = ofBigEndian b := by
  cases host with
  | big => rfl
  | little =>
    have hm := Host.memory_ofMemory .little b
    rw [hb] at hm
    rw [ExtendedHeader.ntohs, hm]
    exact congrArg ofBigEndian (List.reverse_reverse b)

theorem drop_payloadOffset : (bigEndian 8 size).drop (ExtendedHeader.payloadOffset size) = sizeBytes size := by
  unfold ExtendedHeader.payloadOffset sizeBytes
  split_ifs
  · exact List.drop_eq_nil_of_le (by rw [length_bigEndian])
  · exact drop_bigEndian (j := 6) (k := 2)
  · rfl

theorem length_sizeBytes : (sizeBytes size).length = 8 - ExtendedHeader.payloadOffset size := by
  rw [← drop_payloadOffset, List.length_drop, length_bigEndian]

end Extended

end DeribitClientServer.Transport
