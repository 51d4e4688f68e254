import Mathlib.Data.List.Basic

/-! The shapes a character's UTF-8 encoding has, by its length, with the scalar
value each shape stands for. -/
namespace DeribitClientServer.Library.Utf8
open String (utf8EncodeChar)

def Tail (y : UInt8) : Prop := 0x80 ≤ y.toNat ∧ y.toNat ≤ 0xBF

/-- The encodings of one character with their scalar values. -/
inductive Shape : Nat → List UInt8 → Prop where
  | one {x : UInt8} (hx : x.toNat ≤ 0x7F) : Shape x.toNat [x]
  | two {x y : UInt8} (hx : 0xC2 ≤ x.toNat ∧ x.toNat ≤ 0xDF) (hy : Tail y) :
      Shape ((x.toNat - 0xC0) * 64 + (y.toNat - 0x80)) [x, y]
  | three {x y z : UInt8} (hx : 0xE0 ≤ x.toNat ∧ x.toNat ≤ 0xEF) (hy : Tail y) (hz : Tail z)
      (hlow : x.toNat = 0xE0 → 0xA0 ≤ y.toNat) (hsurrogate : x.toNat = 0xED → y.toNat ≤ 0x9F) :
      Shape (((x.toNat - 0xE0) * 64 + (y.toNat - 0x80)) * 64 + (z.toNat - 0x80)) [x, y, z]
  | four {x y z t : UInt8} (hx : 0xF0 ≤ x.toNat ∧ x.toNat ≤ 0xF4) (hy : Tail y) (hz : Tail z) (ht : Tail t)
      (hlow : x.toNat = 0xF0 → 0x90 ≤ y.toNat) (hhigh : x.toNat = 0xF4 → y.toNat ≤ 0x8F) :
      Shape ((((x.toNat - 0xF0) * 64 + (y.toNat - 0x80)) * 64 + (z.toNat - 0x80)) * 64 + (t.toNat - 0x80)) [x, y, z, t]

section Bytes
variable {v : Nat}

private theorem toNat_ofNat {n : Nat} (h : n < 256) : (UInt8.ofNat n).toNat = n :=
  UInt8.toNat_ofNat_of_lt h

private theorem shape_one (h : v ≤ 0x7F) : Shape v [UInt8.ofNat v] := by
  have hx := toNat_ofNat (n := v) (by omega)
  have hs := Shape.one (x := UInt8.ofNat v) (by omega)
  rwa [hx] at hs

private theorem shape_two (h : 0x7F < v) (h' : v ≤ 0x7FF) :
    Shape v [UInt8.ofNat (v / 64 % 32 + 192), UInt8.ofNat (v % 64 + 128)] := by
  have hx := toNat_ofNat (n := v / 64 % 32 + 192) (by omega)
  have hy := toNat_ofNat (n := v % 64 + 128) (by omega)
  have hs := Shape.two (x := UInt8.ofNat (v / 64 % 32 + 192)) (y := UInt8.ofNat (v % 64 + 128)) (by omega)
    ⟨by omega, by omega⟩
  convert hs using 1
  omega

private theorem shape_three (h : 0x7FF < v) (h' : v ≤ 0xFFFF) (hv : v < 0xD800 ∨ 0xDFFF < v) :
    Shape v [UInt8.ofNat (v / 4096 % 16 + 224), UInt8.ofNat (v / 64 % 64 + 128), UInt8.ofNat (v % 64 + 128)] := by
  have hx := toNat_ofNat (n := v / 4096 % 16 + 224) (by omega)
  have hy := toNat_ofNat (n := v / 64 % 64 + 128) (by omega)
  have hz := toNat_ofNat (n := v % 64 + 128) (by omega)
  have hs := Shape.three (x := UInt8.ofNat (v / 4096 % 16 + 224)) (y := UInt8.ofNat (v / 64 % 64 + 128))
    (z := UInt8.ofNat (v % 64 + 128)) (by omega) ⟨by omega, by omega⟩ ⟨by omega, by omega⟩ (by omega) (by omega)
  convert hs using 1
  omega

private theorem shape_four (h : 0xFFFF < v) (h' : v < 0x110000) :
    Shape v [UInt8.ofNat (v / 262144 % 8 + 240), UInt8.ofNat (v / 4096 % 64 + 128), UInt8.ofNat (v / 64 % 64 + 128),
      UInt8.ofNat (v % 64 + 128)] := by
  have hx := toNat_ofNat (n := v / 262144 % 8 + 240) (by omega)
  have hy := toNat_ofNat (n := v / 4096 % 64 + 128) (by omega)
  have hz := toNat_ofNat (n := v / 64 % 64 + 128) (by omega)
  have ht := toNat_ofNat (n := v % 64 + 128) (by omega)
  have hs := Shape.four (x := UInt8.ofNat (v / 262144 % 8 + 240)) (y := UInt8.ofNat (v / 4096 % 64 + 128))
    (z := UInt8.ofNat (v / 64 % 64 + 128)) (t := UInt8.ofNat (v % 64 + 128)) (by omega) ⟨by omega, by omega⟩
    ⟨by omega, by omega⟩ ⟨by omega, by omega⟩ (by omega) (by omega)
  convert hs using 1
  omega

end Bytes

section Characters
variable {v : Nat} {b b' : List UInt8}

private theorem scalar_bounds (c : Char) : c.val.toNat < 0xD800 ∨ 0xDFFF < c.val.toNat ∧ c.val.toNat < 0x110000 :=
  c.valid

/-- A character's encoding has one of the shapes. -/
theorem shape_encodeChar (c : Char) : Shape c.toNat (utf8EncodeChar c) := by
  have hc := scalar_bounds c
  unfold utf8EncodeChar
  change Shape c.val.toNat _
  generalize c.val.toNat = v at hc ⊢
  dsimp only
  split
  · next h => exact shape_one h
  split
  · next h h' => exact shape_two (by omega) h'
  split
  · next h h' h'' => exact shape_three (by omega) h'' (by omega)
  · exact shape_four (by omega) (by omega)

private theorem Shape.valid (h : Shape v b) : v.isValidChar := by
  cases h with
  | one hx => exact Or.inl (by omega)
  | two hx hy => exact Or.inl (by unfold Tail at hy; omega)
  | three hx hy hz hlow hs => unfold Tail at hy hz; unfold Nat.isValidChar; omega
  | four hx hy hz ht hlow hh => unfold Tail at hy hz ht; unfold Nat.isValidChar; omega

private theorem ofNat_eq {x : UInt8} {n : Nat} (h : n = x.toNat) : UInt8.ofNat n = x := by
  rw [h, UInt8.ofNat_toNat]

private theorem Shape.eq_encodeChar {c : Char} (h : Shape v b) (hc : c.val.toNat = v) : utf8EncodeChar c = b := by
  unfold utf8EncodeChar
  rw [hc]
  dsimp only
  cases h with
  | one hx => rw [if_pos hx, ofNat_eq rfl]
  | two hx hy =>
    unfold Tail at hy
    rw [if_neg (by omega), if_pos (by omega)]
    simp only [List.cons.injEq, and_true]
    exact ⟨ofNat_eq (by omega), ofNat_eq (by omega)⟩
  | three hx hy hz hlow hs =>
    unfold Tail at hy hz
    rw [if_neg (by omega), if_neg (by omega), if_pos (by omega)]
    simp only [List.cons.injEq, and_true]
    exact ⟨ofNat_eq (by omega), ofNat_eq (by omega), ofNat_eq (by omega)⟩
  | four hx hy hz ht hlow hh =>
    unfold Tail at hy hz ht
    rw [if_neg (by omega), if_neg (by omega), if_neg (by omega)]
    simp only [List.cons.injEq, and_true]
    exact ⟨ofNat_eq (by omega), ofNat_eq (by omega), ofNat_eq (by omega), ofNat_eq (by omega)⟩

/-- A byte string of one of the shapes encodes the character with its value. -/
theorem Shape.encodes (h : Shape v b) : ∃ c : Char, c.toNat = v ∧ utf8EncodeChar c = b := by
  have hc : (Char.ofNat v).toNat = v := by rw [Char.ofNat, dif_pos h.valid]; rfl
  exact ⟨Char.ofNat v, hc, h.eq_encodeChar hc⟩

end Characters
end DeribitClientServer.Library.Utf8
