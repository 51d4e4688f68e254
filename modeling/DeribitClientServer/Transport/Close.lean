import DeribitClientServer.Transport.Sending

/-! Close frames: what they carry, when they may be sent, and what is read back. -/
namespace DeribitClientServer.Transport
open Library Library.Utf8 Library.Endian Library.Mask

namespace CloseStatus

def blank : UInt16 := 0
def normal : UInt16 := 1000
def protocolError : UInt16 := 1002
def noStatus : UInt16 := 1005
def abnormalClose : UInt16 := 1006
def invalidPayload : UInt16 := 1007
def policyViolation : UInt16 := 1008
def messageTooBig : UInt16 := 1009
def internalEndpointError : UInt16 := 1011
def tlsHandshake : UInt16 := 1015
def rsvStart : UInt16 := 1016
def rsvEnd : UInt16 := 2999
def invalidLow : UInt16 := 999
def invalidHigh : UInt16 := 5000

def reserved (code : UInt16) : Bool := (rsvStart ≤ code && code ≤ rsvEnd) || code == 1004

def invalid (code : UInt16) : Bool :=
  code ≤ invalidLow || invalidHigh ≤ code || code == noStatus || code == abnormalClose || code == tlsHandshake

/-- After an error of this kind nothing is waited for. -/
def terminal (code : UInt16) : Bool :=
  code == protocolError || code == invalidPayload || code == policyViolation || code == messageTooBig ||
    code == internalEndpointError

end CloseStatus

def closeReasonSize : Nat := 123

/-- The status a connection is closed with when its processor meets an error. -/
def ProcessorError.toWs : ProcessorError → UInt16
  | .controlTooBig | .invalidOpcode | .invalidRsvBit | .fragmentedControl | .invalidContinuation | .maskingRequired
  | .maskingForbidden | .reservedCloseCode | .invalidCloseCode => CloseStatus.protocolError
  | .invalidPayload | .invalidUtf8 => CloseStatus.invalidPayload
  | .messageTooBig => CloseStatus.messageTooBig
  | .general | .nonMinimalEncoding | .reasonRequiresCode => CloseStatus.internalEndpointError

def ProcessorError.message : ProcessorError → String
  | .general => "Generic processor error"
  | .messageTooBig => "A message was too large"
  | .invalidPayload => "A payload contained invalid data"
  | .invalidOpcode => "invalid opcode"
  | .controlTooBig => "Control messages are limited to fewer than 125 characters"
  | .invalidRsvBit => "Invalid use of reserved bits"
  | .fragmentedControl => "Control messages cannot be fragmented"
  | .invalidContinuation => "Invalid message continuation"
  | .maskingRequired => "Clients may not send unmasked frames"
  | .maskingForbidden => "Servers may not send masked frames"
  | .nonMinimalEncoding => "Payload length was not minimally encoded"
  | .invalidUtf8 => "Invalid UTF8 encoding"
  | .reservedCloseCode => "Reserved close code used"
  | .invalidCloseCode => "Invalid close code used"
  | .reasonRequiresCode => "Using a close reason requires a valid close code"

/-- Errors in the payload of a close frame. -/
inductive CloseError where
  | badCloseCode | reservedCloseCode | invalidCloseCode | invalidUtf8
  deriving DecidableEq, Repr

section Frames
variable (host : Host)

/-- The payload of a close frame: the code in network order, then the reason. -/
def closePayload (code : UInt16) (reason : Bytes) : Bytes :=
  if code = CloseStatus.noStatus then [] else host.memory 2 (ExtendedHeader.ntohs host code.toNat) ++ reason

def prepareClose (server : Bool) (key : UInt32) (code : UInt16) (reason : Bytes) : Except ProcessorError OutMessage :=
  if CloseStatus.reserved code then .error .reservedCloseCode
  else if CloseStatus.invalid code ∧ code ≠ CloseStatus.noStatus then .error .invalidCloseCode
  else if code = CloseStatus.noStatus ∧ 0 < reason.length then .error .reasonRequiresCode
  else if payloadSizeBasic - 2 < reason.length then .error .controlTooBig
  else prepareControl host server key .close (closePayload host code reason)

/-- The code of a close frame, with the error that makes it unusable. -/
def extractCode : Bytes → UInt16 × Option CloseError
  | [] => (CloseStatus.noStatus, none)
  | [_] => (CloseStatus.protocolError, some .badCloseCode)
  | x :: y :: _ =>
    let code := UInt16.ofNat (ExtendedHeader.ntohs host (host.ofMemory [x, y]))
    (code, if CloseStatus.reserved code then some .reservedCloseCode
      else if CloseStatus.invalid code then some .invalidCloseCode
      else none)

def extractReason (payload : Bytes) : Bytes × Option CloseError :=
  let reason := if 2 < payload.length then payload.drop 2 else []
  (reason, if validate reason = false then some .invalidUtf8 else none)

end Frames

section Codes
variable {host : Host} {server : Bool} {key : UInt32} {code : UInt16} {reason : Bytes} {out : OutMessage}

/-- Every error closes a connection with a code that may be sent and ends it. -/
theorem toWs_terminal (e : ProcessorError) : CloseStatus.terminal e.toWs = true ∧ CloseStatus.reserved e.toWs = false ∧
    CloseStatus.invalid e.toWs = false := by
  cases e <;> decide

theorem memory_ntohs {n : Nat} : host.memory 2 (ExtendedHeader.ntohs host n) = bigEndian 2 n := by
  cases host with
  | big => rfl
  | little =>
    have hm := Host.memory_ofMemory .little (Host.memory .little 2 n).reverse
    rw [List.length_reverse, Host.length_memory] at hm
    rw [ExtendedHeader.ntohs, hm]
    exact List.reverse_reverse _

theorem prepareClose_ok (h : prepareClose host server key code reason = .ok out) :
    CloseStatus.reserved code = false ∧ (CloseStatus.invalid code = true → code = CloseStatus.noStatus) ∧
      (code = CloseStatus.noStatus → reason = []) ∧
      prepareControl host server key .close (closePayload host code reason) = .ok out := by
  unfold prepareClose at h
  split_ifs at h with hres hinv hempty hsize
  refine ⟨Bool.eq_false_iff.mpr hres, fun hi => ?_, fun hc => ?_, h⟩
  · by_contra hne
    exact hinv ⟨hi, hne⟩
  · by_contra hne
    exact hempty ⟨hc, List.length_pos_iff.mpr hne⟩

/-- A close frame that was prepared gives its code and reason back. -/
theorem extract_closePayload (h : prepareClose host server key code reason = .ok out) (host' : Host) :
    extractCode host' (closePayload host code reason) = (code, none) ∧
      (extractReason (closePayload host code reason)).1 = reason := by
  obtain ⟨hres, hinv, hempty, _⟩ := prepareClose_ok h
  unfold closePayload
  split_ifs with hc
  · rw [hc, hempty hc]
    exact ⟨rfl, rfl⟩
  · rw [memory_ntohs]
    have htwo : bigEndian 2 code.toNat = [UInt8.ofNat (code.toNat / 256 ^ 1), UInt8.ofNat (code.toNat / 256 ^ 0)] := rfl
    have hcode : UInt16.ofNat (ExtendedHeader.ntohs host' (host'.ofMemory (bigEndian 2 code.toNat))) = code := by
      rw [ntohs_ofMemory length_bigEndian, ofBigEndian_bigEndian, Nat.mod_eq_of_lt (by exact code.toNat_lt), UInt16.ofNat_toNat]
    rw [htwo] at hcode
    have hinv' : CloseStatus.invalid code = false := Bool.eq_false_iff.mpr fun hi => hc (hinv hi)
    constructor
    · simp only [htwo, List.cons_append, List.nil_append, extractCode, hcode, hres, hinv', Bool.false_eq_true, if_false]
    · simp only [htwo, List.cons_append, List.nil_append, extractReason, List.length_cons, List.drop_succ_cons, List.drop_zero]
      split_ifs with hl
      · rfl
      · exact (List.eq_nil_of_length_eq_zero (by omega)).symm

end Codes
end DeribitClientServer.Transport
