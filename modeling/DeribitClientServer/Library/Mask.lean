import Mathlib.Data.List.Basic

/-! Byte strings combined with an unbounded stream of key bytes. -/
namespace DeribitClientServer.Library.Mask
variable {c : Nat → UInt8} {a b : List UInt8} {n : Nat}

def mask (c : Nat → UInt8) : List UInt8 → List UInt8
  | [] => []
  | x :: b => (x ^^^ c 0) :: mask (fun i => c (i + 1)) b

/-- The stream from a place on. -/
def shift (c : Nat → UInt8) (n : Nat) : Nat → UInt8 := fun i => c (n + i)

@[simp] theorem length_mask : (mask c b).length = b.length := by
  induction b generalizing c with
  | nil => rfl
  | cons x b ih => rw [mask, List.length_cons, List.length_cons, ih]

theorem mask_append : mask c (a ++ b) = mask c a ++ mask (shift c a.length) b := by
  induction a generalizing c with
  | nil =>
    rw [List.nil_append, mask, List.nil_append]
    congr 1
    funext i
    rw [shift, List.length_nil, Nat.zero_add]
  | cons x a ih =>
    rw [List.cons_append, mask, mask, List.cons_append, ih]
    congr 3
    funext i
    rw [shift, shift, List.length_cons]
    congr 1
    omega

/-- Masking twice with one stream gives the bytes back. -/
theorem mask_mask : mask c (mask c b) = b := by
  induction b generalizing c with
  | nil => rfl
  | cons x b ih => rw [mask, mask, ih, UInt8.xor_assoc, UInt8.xor_self, UInt8.xor_zero]

theorem shift_shift (m : Nat) : shift (shift c n) m = shift c (n + m) := by
  funext i
  rw [shift, shift, shift, Nat.add_assoc]

theorem mask_eq_mapIdx : mask c b = b.mapIdx (fun i x => x ^^^ c i) := by
  induction b generalizing c with
  | nil => rfl
  | cons x b ih => rw [mask, ih, List.mapIdx_cons]

end DeribitClientServer.Library.Mask
