import Mathlib.Data.List.Basic

/-! Byte strings and the texts they encode. A byte string decodes to a text
exactly when it is that text's encoding, so decoding is exact and partial. -/
namespace DeribitClientServer.Library.Utf8

abbrev Bytes := List UInt8

def encode (s : String) : Bytes := s.toList.flatMap String.utf8EncodeChar

def decode (b : Bytes) : Option String := String.fromUTF8? b.toByteArray

private theorem toByteArray_encode (s : String) : (encode s).toByteArray = s.toByteArray := by
  obtain ⟨l, rfl⟩ := s.exists_eq_ofList
  simp [encode, List.utf8Encode]

theorem encode_append (s t : String) : encode (s ++ t) = encode s ++ encode t := by
  simp [encode]

theorem decode_eq_some_iff {b : Bytes} {s : String} : decode b = some s ↔ b = encode s := by
  rw [← List.toByteArray_inj, toByteArray_encode]
  constructor
  · intro h
    unfold decode String.fromUTF8? at h
    split at h
    · exact congrArg String.toByteArray (Option.some.inj h)
    · cases h
  · intro h
    have hv : b.toByteArray.IsValidUTF8 := h ▸ s.isValidUTF8
    unfold decode String.fromUTF8?
    rw [dif_pos hv, Option.some_inj, ← String.toByteArray_inj]
    exact h

@[simp] theorem decode_encode (s : String) : decode (encode s) = some s :=
  decode_eq_some_iff.mpr rfl

theorem decode_eq_none_iff {b : Bytes} : decode b = none ↔ ∀ s, b ≠ encode s := by
  simp only [Option.eq_none_iff_forall_ne_some, ne_eq, decode_eq_some_iff]

private theorem encodeChar_cancel {c d : Char} {b b' : Bytes}
    (h : String.utf8EncodeChar c ++ b = String.utf8EncodeChar d ++ b') : c = d ∧ b = b' := by
  have hl : [c].utf8Encode ++ b.toByteArray = [d].utf8Encode ++ b'.toByteArray := by
    simp only [List.utf8Encode_singleton, ← List.toByteArray_append, h]
  have hc := congrArg (fun l => ByteArray.utf8DecodeChar? l 0) hl
  obtain rfl : c = d := by
    simpa [List.utf8DecodeChar?_utf8Encode_singleton_append] using hc
  exact ⟨rfl, List.append_cancel_left h⟩

private theorem encodeChars_split (p l : List Char) (b : Bytes)
    (h : l.flatMap String.utf8EncodeChar = p.flatMap String.utf8EncodeChar ++ b) :
    ∃ r, l = p ++ r ∧ b = r.flatMap String.utf8EncodeChar := by
  induction p generalizing l with
  | nil => exact ⟨l, rfl, by simpa using h.symm⟩
  | cons c p ih =>
    cases l with
    | nil => simp [String.utf8EncodeChar_ne_nil] at h
    | cons d l =>
      simp only [List.flatMap_cons, List.append_assoc] at h
      obtain ⟨rfl, hrest⟩ := encodeChar_cancel h
      obtain ⟨r, rfl, hb⟩ := ih l hrest
      exact ⟨r, rfl, hb⟩

/-- Text put before a byte string neither repairs nor spoils its encoding. -/
theorem decode_encode_append (p : String) (b : Bytes) :
    decode (encode p ++ b) = (decode b).map (p ++ ·) := by
  cases hb : decode b with
  | some s =>
    rw [decode_eq_some_iff] at hb
    rw [hb, ← encode_append, decode_encode, Option.map_some]
  | none =>
    rw [decode_eq_none_iff] at hb
    rw [Option.map_none, decode_eq_none_iff]
    intro s hs
    obtain ⟨r, _, hr⟩ := encodeChars_split p.toList s.toList b hs.symm
    exact hb (String.ofList r) (by simpa [encode] using hr)

private theorem ascii_starts_char {x : UInt8} (hx : x &&& 128 = 0) (c : Char) (b r : Bytes)
    (h : String.utf8EncodeChar c = b ++ x :: r) : b = [] := by
  have hlt : b.length < (String.utf8EncodeChar c).length := by simp [h]
  have hget : (String.utf8EncodeChar c)[b.length] = x := by simp [h]
  have hfirst : (String.utf8EncodeChar c)[b.length].IsUTF8FirstByte := by
    rw [hget]
    exact Or.inl hx
  exact List.length_eq_zero_iff.mp (UInt8.isUTF8FirstByte_getElem_utf8EncodeChar.mp hfirst)

/-- An ASCII byte occurs only in the encoding of its own character. -/
theorem eq_of_ascii_mem {x : UInt8} (hx : x &&& 128 = 0) {c d : Char} (hd : String.utf8EncodeChar d = [x])
    (h : x ∈ String.utf8EncodeChar c) : c = d := by
  obtain ⟨b, r, hbr⟩ := List.append_of_mem h
  obtain rfl := ascii_starts_char hx c b r hbr
  have he : String.utf8EncodeChar c ++ [] = String.utf8EncodeChar d ++ r := by rw [hbr, hd]; simp
  exact (encodeChar_cancel he).1

private theorem strip_ascii (l : List Char) (b q : Bytes) (hq : ∀ x ∈ q, x &&& 128 = 0)
    (h : l.flatMap String.utf8EncodeChar = b ++ q) : ∃ r : List Char, b = r.flatMap String.utf8EncodeChar := by
  induction l generalizing b with
  | nil =>
    obtain ⟨rfl, _⟩ := List.append_eq_nil_iff.mp h.symm
    exact ⟨[], rfl⟩
  | cons c l ih =>
    rw [List.flatMap_cons] at h
    rcases List.append_eq_append_iff.mp h with ⟨b', rfl, hrest⟩ | ⟨r, hc, hq'⟩
    · obtain ⟨r, rfl⟩ := ih b' hrest
      exact ⟨c :: r, rfl⟩
    · cases r with
      | nil => exact ⟨[c], by simpa using hc.symm⟩
      | cons x r =>
        have hb := ascii_starts_char (hq x (by simp [hq'])) c b r hc
        exact ⟨[], by simpa using hb⟩

/-- ASCII text put after a byte string neither completes nor spoils its encoding. -/
theorem decode_append_ascii (b : Bytes) (q : String) (hq : ∀ x ∈ encode q, x &&& 128 = 0) :
    decode (b ++ encode q) = (decode b).map (· ++ q) := by
  cases hb : decode b with
  | some s =>
    rw [decode_eq_some_iff] at hb
    rw [hb, ← encode_append, decode_encode, Option.map_some]
  | none =>
    rw [decode_eq_none_iff] at hb
    rw [Option.map_none, decode_eq_none_iff]
    intro s hs
    obtain ⟨r, hr⟩ := strip_ascii s.toList b (encode q) hq hs.symm
    exact hb (String.ofList r) (by simpa [encode] using hr)

end DeribitClientServer.Library.Utf8
