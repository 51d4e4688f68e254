import Mathlib.Data.List.Basic
import Mathlib.Tactic.Ring

/-! Unsigned integers as bytes, most significant first, and as a host of either
byte order keeps them in memory. -/
namespace DeribitClientServer.Library.Endian
variable {k n j : Nat} {b : List UInt8}

def bigEndian : Nat → Nat → List UInt8
  | 0, _ => []
  | k + 1, n => UInt8.ofNat (n / 256 ^ k) :: bigEndian k n

def ofBigEndian (b : List UInt8) : Nat := b.foldl (fun n x => n * 256 + x.toNat) 0

@[simp] theorem length_bigEndian : (bigEndian k n).length = k := by
  induction k with
  | zero => rfl
  | succ k ih => rw [bigEndian, List.length_cons, ih]

private theorem foldl_add (m : Nat) :
    b.foldl (fun n x => n * 256 + x.toNat) m = m * 256 ^ b.length + ofBigEndian b := by
  unfold ofBigEndian
  induction b generalizing m with
  | nil => simp
  | cons x b ih =>
    rw [List.foldl_cons, List.foldl_cons, ih, ih (0 * 256 + x.toNat), List.length_cons, Nat.pow_succ]
    ring

theorem ofBigEndian_cons (x : UInt8) : ofBigEndian (x :: b) = x.toNat * 256 ^ b.length + ofBigEndian b := by
  rw [ofBigEndian, List.foldl_cons, foldl_add]
  simp

theorem ofBigEndian_lt : ofBigEndian b < 256 ^ b.length := by
  induction b with
  | nil => exact Nat.one_pos
  | cons x b ih =>
    rw [ofBigEndian_cons, List.length_cons, Nat.pow_succ]
    have hx : x.toNat ≤ 255 := Nat.le_of_lt_succ x.toNat_lt
    have hm := Nat.mul_le_mul_right (256 ^ b.length) hx
    omega

theorem ofBigEndian_bigEndian : ofBigEndian (bigEndian k n) = n % 256 ^ k := by
  induction k with
  | zero => rw [Nat.pow_zero, Nat.mod_one]; rfl
  | succ k ih =>
    have hm : n % 256 ^ (k + 1) = n % 256 ^ k + 256 ^ k * (n / 256 ^ k % 256) := by
      rw [show 256 ^ (k + 1) = 256 ^ k * 256 from rfl, Nat.mod_mul]
    rw [bigEndian, ofBigEndian_cons, length_bigEndian, ih, UInt8.toNat_ofNat', hm, Nat.mul_comm]
    exact Nat.add_comm _ _

/-- The bytes of an integer with the given low bytes. -/
theorem bigEndian_mul_add (m : Nat) : bigEndian k (m * 256 ^ k + n) = bigEndian k n := by
  induction k generalizing m with
  | zero => rfl
  | succ k ih =>
    have hd : (m * 256 ^ (k + 1) + n) / 256 ^ k = m * 256 + n / 256 ^ k := by
      rw [Nat.pow_succ, show m * (256 ^ k * 256) + n = m * 256 * 256 ^ k + n by ring,
        Nat.mul_comm, Nat.mul_add_div (Nat.pow_pos (by decide))]
    rw [bigEndian, bigEndian, hd, Nat.pow_succ, show m * (256 ^ k * 256) + n = m * 256 * 256 ^ k + n by ring, ih]
    congr 1
    apply UInt8.toNat_inj.mp
    rw [UInt8.toNat_ofNat', UInt8.toNat_ofNat', Nat.mul_add_mod_self_right]

theorem bigEndian_ofBigEndian : bigEndian b.length (ofBigEndian b) = b := by
  induction b with
  | nil => rfl
  | cons x b ih =>
    have hpos : 0 < 256 ^ b.length := Nat.pow_pos (by decide)
    rw [List.length_cons, bigEndian, ofBigEndian_cons, bigEndian_mul_add, ih, Nat.mul_comm,
      Nat.mul_add_div hpos, Nat.div_eq_of_lt ofBigEndian_lt, Nat.add_zero, UInt8.ofNat_toNat]

theorem drop_bigEndian : (bigEndian (j + k) n).drop j = bigEndian k n := by
  induction j with
  | zero => rw [Nat.zero_add, List.drop_zero]
  | succ j ih => rw [Nat.add_right_comm, bigEndian, List.drop_succ_cons, ih]

theorem bigEndian_append {m : Nat} (hn : n < 256 ^ k) : bigEndian (j + k) (m * 256 ^ k + n) = bigEndian j m ++ bigEndian k n := by
  have hpos : 0 < 256 ^ k := Nat.pow_pos (by decide)
  induction j with
  | zero => rw [Nat.zero_add, bigEndian_mul_add]; rfl
  | succ j ih =>
    have hd : (m * 256 ^ k + n) / 256 ^ (j + k) = m / 256 ^ j := by
      rw [Nat.pow_add, Nat.mul_comm (256 ^ j), ← Nat.div_div_eq_div_mul, Nat.mul_comm, Nat.mul_add_div hpos,
        Nat.div_eq_of_lt hn, Nat.add_zero]
    rw [Nat.add_right_comm, bigEndian, hd, ih, bigEndian, List.cons_append]

/-- Exclusive or acts on each byte. -/
theorem bigEndian_xor (m : Nat) : bigEndian k (n ^^^ m) = List.zipWith (· ^^^ ·) (bigEndian k n) (bigEndian k m) := by
  induction k with
  | zero => rfl
  | succ k ih =>
    rw [bigEndian, bigEndian, bigEndian, List.zipWith_cons_cons, ih]
    congr 1
    rw [show 256 ^ k = 2 ^ (8 * k) by rw [Nat.pow_mul], Nat.xor_div_two_pow]
    apply UInt8.toNat_inj.mp
    rw [UInt8.toNat_xor, UInt8.toNat_ofNat', UInt8.toNat_ofNat', UInt8.toNat_ofNat', Nat.xor_mod_two_pow]

/-- The byte order of a machine. -/
inductive Host where
  | little | big
  deriving DecidableEq, Repr

namespace Host
variable {host : Host}

/-- The bytes at an unsigned integer's address, lowest address first. -/
def memory (host : Host) (k n : Nat) : List UInt8 :=
  match host with
  | .little => (bigEndian k n).reverse
  | .big => bigEndian k n

def ofMemory (host : Host) (c : List UInt8) : Nat :=
  match host with
  | .little => ofBigEndian c.reverse
  | .big => ofBigEndian c

@[simp] theorem length_memory : (host.memory k n).length = k := by
  cases host <;> simp [memory]

theorem ofMemory_memory : host.ofMemory (host.memory k n) = n % 256 ^ k := by
  cases host <;> simp [memory, ofMemory, ofBigEndian_bigEndian]

theorem memory_ofMemory (host : Host) (c : List UInt8) : host.memory c.length (host.ofMemory c) = c := by
  cases host with
  | little =>
    have h := bigEndian_ofBigEndian (b := c.reverse)
    rw [List.length_reverse] at h
    simp [memory, ofMemory, h]
  | big => exact bigEndian_ofBigEndian

theorem ofMemory_lt (host : Host) (c : List UInt8) : host.ofMemory c < 256 ^ c.length := by
  cases host with
  | little => simpa [ofMemory] using ofBigEndian_lt (b := c.reverse)
  | big => exact ofBigEndian_lt

theorem memory_xor (m : Nat) : host.memory k (n ^^^ m) = List.zipWith (· ^^^ ·) (host.memory k n) (host.memory k m) := by
  cases host with
  | little => rw [memory, bigEndian_xor, List.reverse_zipWith (by simp)]; rfl
  | big => exact bigEndian_xor m

end Host
end DeribitClientServer.Library.Endian
