import DeribitClientServer.Library.Utf8

/-! The query of a URL as a server reads it: split on ampersands, each piece on
its first equals sign, and every percent escape decoded. -/
namespace DeribitClientServer.Library.Query
open Utf8

def hexValue (b : UInt8) : Option UInt8 :=
  if '0'.toUInt8 ≤ b ∧ b ≤ '9'.toUInt8 then some (b - '0'.toUInt8)
  else if 'A'.toUInt8 ≤ b ∧ b ≤ 'F'.toUInt8 then some (b - 'A'.toUInt8 + 10)
  else if 'a'.toUInt8 ≤ b ∧ b ≤ 'f'.toUInt8 then some (b - 'a'.toUInt8 + 10)
  else none

/-- The byte that an escape stands for. -/
def escapedByte (b x y : UInt8) : Option UInt8 :=
  if b = '%'.toUInt8 then (hexValue x).bind (fun h => (hexValue y).map (fun l => 16 * h + l)) else none

/-- A percent sign without two hexadecimal digits after it stands for itself. -/
def percentDecode : Bytes → Bytes
  | [] => []
  | b :: x :: y :: rest =>
      match escapedByte b x y with
      | some v => v :: percentDecode rest
      | none => b :: percentDecode (x :: y :: rest)
  | b :: rest => b :: percentDecode rest

/-- What follows the first question mark, up to the fragment. -/
def queryPart (url : Bytes) : Bytes :=
  ((url.dropWhile (fun b => b ≠ '?'.toUInt8)).drop 1).takeWhile (fun b => b ≠ '#'.toUInt8)

def param (piece : Bytes) : Bytes × Bytes :=
  (percentDecode (piece.takeWhile (fun b => b ≠ '='.toUInt8)),
    percentDecode ((piece.dropWhile (fun b => b ≠ '='.toUInt8)).drop 1))

def params (url : Bytes) : List (Bytes × Bytes) := ((queryPart url).splitOnP (fun b => b = '&'.toUInt8)).map param

/-- Somewhere a percent sign is followed by two hexadecimal digits. -/
def HasEscape (b : Bytes) : Prop := ∃ p x y s v, b = p ++ '%'.toUInt8 :: x :: y :: s ∧ escapedByte '%'.toUInt8 x y = some v

section Decoding

theorem percentDecode_escape {x y v : UInt8} (h : escapedByte '%'.toUInt8 x y = some v) (rest : Bytes) :
    percentDecode ('%'.toUInt8 :: x :: y :: rest) = v :: percentDecode rest := by
  simp only [percentDecode, h]

/-- A byte that begins no escape is read as it stands. -/
theorem percentDecode_cons {b : UInt8} {rest : Bytes}
    (h : ∀ x y s, rest = x :: y :: s → escapedByte b x y = none) : percentDecode (b :: rest) = b :: percentDecode rest := by
  match rest with
  | [] | [_] => rfl
  | x :: y :: rest => simp only [percentDecode, h x y rest rfl]

theorem length_percentDecode (b : Bytes) : (percentDecode b).length ≤ b.length := by
  fun_induction percentDecode b with
  | case1 => exact Nat.le_refl _
  | case2 b x y rest v hv ih => simp only [List.length_cons]; omega
  | case3 b x y rest hv ih => simp only [List.length_cons] at ih ⊢; omega
  | case4 b rest _ ih => simp only [List.length_cons]; omega

private theorem hasEscape_cons {b : UInt8} {rest : Bytes} (h : HasEscape rest) : HasEscape (b :: rest) := by
  obtain ⟨p, x, y, s, v, rfl, hv⟩ := h
  exact ⟨b :: p, x, y, s, v, rfl, hv⟩

private theorem hasEscape_of_cons {b : UInt8} {rest : Bytes} (h : HasEscape (b :: rest))
    (hb : ∀ x y s, rest = x :: y :: s → escapedByte b x y = none) : HasEscape rest := by
  obtain ⟨p, x, y, s, v, he, hv⟩ := h
  cases p with
  | nil =>
    obtain ⟨rfl, rfl⟩ := List.cons.inj he
    rw [hb x y s rfl] at hv
    cases hv
  | cons c p =>
    obtain ⟨rfl, rfl⟩ := List.cons.inj he
    exact ⟨p, x, y, s, v, rfl, hv⟩

/-- Decoding an escape shortens the text. -/
theorem length_percentDecode_lt {b : Bytes} (h : HasEscape b) : (percentDecode b).length < b.length := by
  fun_induction percentDecode b with
  | case1 =>
    obtain ⟨p, x, y, s, v, he, _⟩ := h
    simp at he
  | case2 b x y rest v hv ih =>
    have hle := length_percentDecode rest
    simp only [List.length_cons]
    omega
  | case3 b x y rest hv ih =>
    have hrest := ih (hasEscape_of_cons h (by rintro _ _ _ ⟨⟩; exact hv))
    simp only [List.length_cons] at hrest ⊢
    omega
  | case4 b rest hne ih =>
    have hrest := ih (hasEscape_of_cons h (fun x y s hs => absurd hs (hne x y s)))
    simp only [List.length_cons]
    omega

private theorem escapedByte_eq_some {b x y v : UInt8} (h : escapedByte b x y = some v) : b = '%'.toUInt8 := by
  unfold escapedByte at h
  split at h
  · assumption
  · cases h

/-- Text without escapes is read as it stands, and no other text is. -/
theorem percentDecode_eq_self_iff (b : Bytes) : percentDecode b = b ↔ ¬ HasEscape b := by
  constructor
  · intro h he
    have hlt := length_percentDecode_lt he
    rw [h] at hlt
    exact Nat.lt_irrefl _ hlt
  · intro h
    fun_induction percentDecode b with
    | case1 => rfl
    | case2 b x y rest v hv ih =>
      obtain rfl := escapedByte_eq_some hv
      exact absurd ⟨[], x, y, rest, v, rfl, hv⟩ h
    | case3 b x y rest hv ih => rw [ih (fun he => h (hasEscape_cons he))]
    | case4 b rest hne ih => rw [ih (fun he => h (hasEscape_cons he))]

end Decoding
end DeribitClientServer.Library.Query
