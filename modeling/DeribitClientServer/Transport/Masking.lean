import DeribitClientServer.Library.Endian
import DeribitClientServer.Library.Mask
import DeribitClientServer.Library.Utf8
import Mathlib.Data.List.GetD
import Mathlib.Tactic.IntervalCases
import Mathlib.Tactic.Linarith

/-! Masking a payload: byte by byte with a key, and piece by piece with a key
prepared as a machine word and turned by the length of each piece. -/
namespace DeribitClientServer.Transport
open Library.Utf8 Library.Endian Library.Mask

/-- The bytes of a key as they lie in memory and on the wire. -/
def keyByte (host : Host) (key : UInt32) (i : Nat) : UInt8 := (host.memory 4 key.toNat).getD i 0

def prepareMaskingKey (key : UInt32) : UInt64 := (key.toUInt64 <<< 32) ||| key.toUInt64

def circshiftPreparedKey (host : Host) (preparedKey : UInt64) (offset : Nat) : UInt64 :=
  if offset = 0 then preparedKey
  else
    match host with
    | .little => (preparedKey >>> UInt64.ofNat (offset * 8)) ||| (preparedKey <<< UInt64.ofNat ((8 - offset) * 8))
    | .big => (preparedKey <<< UInt64.ofNat (offset * 8)) ||| (preparedKey >>> UInt64.ofNat ((8 - offset) * 8))

/-- Byte by byte, from an index into the key. -/
def byteMaskFrom (host : Host) (key : UInt32) : Nat → Bytes → Bytes
  | _, [] => []
  | keyIndex, x :: b => (x ^^^ keyByte host key keyIndex) :: byteMaskFrom host key ((keyIndex + 1) % 4) b

def byteMask (host : Host) (input : Bytes) (key : UInt32) (keyOffset : Nat) : Bytes :=
  byteMaskFrom host key (keyOffset % 4) input

/-- The masked piece and the key for the next one. -/
def byteMaskCirc (host : Host) (input : Bytes) (preparedKey : UInt64) : Bytes × UInt64 :=
  (input.mapIdx fun i x => x ^^^ keyByte host preparedKey.toUInt32 (i % 4),
    circshiftPreparedKey host preparedKey (input.length % 4))

/-- Whole words combined with the prepared key where they lie. -/
def maskWords (host : Host) (preparedKey : UInt64) : Nat → Bytes → Bytes
  | 0, _ => []
  | n + 1, b => host.memory 8 (host.ofMemory (b.take 8) ^^^ preparedKey.toNat) ++ maskWords host preparedKey n (b.drop 8)

/-- Word by word, what is left over byte by byte with the key. -/
def wordMaskExact (host : Host) (input : Bytes) (key : UInt32) : Bytes :=
  let n := input.length / 8
  maskWords host (prepareMaskingKey key) n input ++
    (input.drop (n * 8)).mapIdx fun i x => x ^^^ keyByte host key ((n * 8 + i) % 4)

/-- Word by word, what is left over byte by byte with the bytes of the word. -/
def wordMaskCirc (host : Host) (input : Bytes) (preparedKey : UInt64) : Bytes × UInt64 :=
  let n := input.length / 8
  let l := input.length - n * 8
  (maskWords host preparedKey n input ++
      (input.drop (input.length - l)).mapIdx fun i x => x ^^^ (host.memory 8 preparedKey.toNat).getD i 0,
    circshiftPreparedKey host preparedKey l)

/-- The key repeated without end. -/
def keyStream (host : Host) (key : UInt32) (i : Nat) : UInt8 := keyByte host key (i % 4)

/-- A prepared key stands for the rest of a key's stream. -/
def Prepared (host : Host) (preparedKey : UInt64) (c : Nat → UInt8) : Prop :=
  ∃ key, preparedKey = prepareMaskingKey key ∧ c = keyStream host key

section Keys
variable {host : Host} {key : UInt32} {c : Nat → UInt8} {k : UInt64} {b : Bytes}

private theorem lor_high {a b s : Nat} (hb : b < 2 ^ s) : a * 2 ^ s ||| b = a * 2 ^ s + b := by
  rw [← Nat.shiftLeft_eq, Nat.shiftLeft_add_eq_or_of_lt hb]

theorem toNat_prepareMaskingKey : (prepareMaskingKey key).toNat = key.toNat * 4294967296 + key.toNat := by
  have hk := key.toNat_lt
  rw [prepareMaskingKey, UInt64.toNat_or, UInt64.toNat_shiftLeft, UInt32.toNat_toUInt64]
  change (key.toNat <<< 32) % 2 ^ 64 ||| key.toNat = _
  rw [Nat.shiftLeft_eq, Nat.mod_eq_of_lt (by omega), lor_high (by omega)]
  rfl

theorem toUInt32_prepareMaskingKey : (prepareMaskingKey key).toUInt32 = key := by
  apply UInt32.toNat_inj.mp
  have hk := key.toNat_lt
  rw [UInt64.toNat_toUInt32, toNat_prepareMaskingKey]
  omega

/-- Turning a word right by whole bytes, as sums. -/
private theorem rotate_right {o : Nat} (h0 : o ≠ 0) (h8 : o < 8) :
    ((k >>> UInt64.ofNat (o * 8)) ||| (k <<< UInt64.ofNat ((8 - o) * 8))).toNat =
      k.toNat % 2 ^ (o * 8) * 2 ^ ((8 - o) * 8) + k.toNat / 2 ^ (o * 8) := by
  have hk := k.toNat_lt
  rw [UInt64.toNat_or, UInt64.toNat_shiftRight, UInt64.toNat_shiftLeft, UInt64.toNat_ofNat_of_lt' (by
    simp [UInt64.size]; omega), UInt64.toNat_ofNat_of_lt' (by simp [UInt64.size]; omega),
    Nat.mod_eq_of_lt (a := o * 8) (by omega), Nat.mod_eq_of_lt (a := (8 - o) * 8) (by omega), Nat.shiftLeft_eq,
    Nat.shiftRight_eq_div_pow, show (2 : Nat) ^ 64 = 2 ^ (o * 8) * 2 ^ ((8 - o) * 8) by rw [← Nat.pow_add]; congr 1; omega,
    Nat.mul_mod_mul_right, Nat.or_comm, lor_high]
  rw [Nat.div_lt_iff_lt_mul (by positivity), ← Nat.pow_add]
  rwa [show (8 - o) * 8 + o * 8 = 64 by omega]

private theorem rotate_left {o : Nat} (h0 : o ≠ 0) (h8 : o < 8) :
    ((k <<< UInt64.ofNat (o * 8)) ||| (k >>> UInt64.ofNat ((8 - o) * 8))).toNat =
      k.toNat % 2 ^ ((8 - o) * 8) * 2 ^ (o * 8) + k.toNat / 2 ^ ((8 - o) * 8) := by
  have h := rotate_right (k := k) (o := 8 - o) (by omega) (by omega)
  rw [show 8 - (8 - o) = o by omega, UInt64.or_comm] at h
  exact h

private theorem keyByte_little {i : Nat} (hi : i < 4) : keyByte .little key i = UInt8.ofNat (key.toNat / 256 ^ i) := by
  interval_cases i <;> simp [keyByte, Host.memory, bigEndian]

private theorem keyByte_big {i : Nat} (hi : i < 4) : keyByte .big key i = UInt8.ofNat (key.toNat / 256 ^ (3 - i)) := by
  interval_cases i <;> simp [keyByte, Host.memory, bigEndian]

private theorem ofNat_congr {m n : Nat} (h : m % 256 = n % 256) : UInt8.ofNat m = UInt8.ofNat n := by
  apply UInt8.toNat_inj.mp
  rw [UInt8.toNat_ofNat', UInt8.toNat_ofNat']
  exact h

/-- A key turned right by whole bytes. -/
private def turnedKey (key : UInt32) (o : Nat) : UInt32 :=
  UInt32.ofNat (key.toNat % 256 ^ (o % 4) * 256 ^ (4 - o % 4) + key.toNat / 256 ^ (o % 4))

private theorem pow_split (o : Nat) : 256 ^ (o % 4) * 256 ^ (4 - o % 4) = 4294967296 := by
  rw [← Nat.pow_add, show o % 4 + (4 - o % 4) = 4 by omega]

private theorem turnedKey_lt {n p q : Nat} (hpq : p * q = 4294967296) (hn : n < 4294967296) : n % p * q + n / p < 4294967296 := by
  have hp : 0 < p := Nat.pos_of_mul_pos_right (a := p) (b := q) (by omega)
  have hm : n % p + 1 ≤ p := Nat.mod_lt n hp
  have hd : n / p < q := Nat.div_lt_of_lt_mul (by omega)
  have h := Nat.mul_le_mul_right q hm
  rw [Nat.add_mul, Nat.one_mul, hpq] at h
  omega

/-- Turning two copies of a key is two copies of the turned key. -/
private theorem turned_twice {n p q : Nat} (hpq : p * q = 4294967296) :
    n % p * q * 4294967296 + n * q + n / p = (n % p * q + n / p) * 4294967296 + (n % p * q + n / p) := by
  have hn : n * q = n / p * 4294967296 + n % p * q := by
    rw [← hpq, ← Nat.mul_assoc, ← Nat.add_mul, Nat.mul_comm (n / p), Nat.div_add_mod]
  rw [hn]
  ring

private theorem rotate_prepared (key : UInt32) {o : Nat} (h8 : o < 8) :
    (prepareMaskingKey key).toNat % 2 ^ (o * 8) * 2 ^ ((8 - o) * 8) + (prepareMaskingKey key).toNat / 2 ^ (o * 8) =
      (prepareMaskingKey (turnedKey key o)).toNat := by
  have hk := key.toNat_lt
  have hpq := pow_split o
  rw [toNat_prepareMaskingKey, toNat_prepareMaskingKey, turnedKey, UInt32.toNat_ofNat_of_lt' (turnedKey_lt hpq hk),
    ← turned_twice hpq]
  have hpos : 0 < 256 ^ (o % 4) := Nat.pow_pos (by decide)
  rcases Nat.lt_or_ge o 4 with h4 | h4
  · have hp : 2 ^ (o * 8) = 256 ^ (o % 4) := by
      rw [Nat.mod_eq_of_lt h4, Nat.mul_comm, Nat.pow_mul]
    have hq : 2 ^ ((8 - o) * 8) = 256 ^ (4 - o % 4) * 4294967296 := by
      rw [Nat.mod_eq_of_lt h4, show (8 - o) * 8 = 8 * (4 - o) + 32 by omega, Nat.pow_add, Nat.pow_mul]
    have hkk : key.toNat * 4294967296 + key.toNat = 256 ^ (o % 4) * (key.toNat * 256 ^ (4 - o % 4)) + key.toNat := by
      rw [← hpq]
      ring
    rw [hp, hq, hkk, Nat.mul_add_mod, Nat.mul_add_div hpos]
    ring
  · have hp : 2 ^ (o * 8) = 4294967296 * 256 ^ (o % 4) := by
      rw [show o * 8 = 32 + 8 * (o % 4) by omega, Nat.pow_add, Nat.pow_mul]
    have hq : 2 ^ ((8 - o) * 8) = 256 ^ (4 - o % 4) := by
      rw [show (8 - o) * 8 = 8 * (4 - o % 4) by omega, Nat.pow_mul]
    have hd : (key.toNat * 4294967296 + key.toNat) / 4294967296 = key.toNat := by omega
    have hm : (key.toNat * 4294967296 + key.toNat) % 4294967296 = key.toNat := by omega
    rw [hp, hq, Nat.mod_mul, ← Nat.div_div_eq_div_mul, hd, hm]
    ring

private theorem circshift_little {o : Nat} (h8 : o < 8) :
    circshiftPreparedKey .little (prepareMaskingKey key) o = prepareMaskingKey (turnedKey key o) := by
  rw [circshiftPreparedKey]
  split_ifs with h0
  · subst h0
    rw [turnedKey, Nat.zero_mod, Nat.pow_zero, Nat.mod_one, Nat.zero_mul, Nat.zero_add, Nat.div_one, UInt32.ofNat_toNat]
  · apply UInt64.toNat_inj.mp
    rw [rotate_right h0 h8, rotate_prepared key h8]

private theorem circshift_big {o : Nat} (h8 : o < 8) :
    circshiftPreparedKey .big (prepareMaskingKey key) o = prepareMaskingKey (turnedKey key (8 - o)) := by
  rw [circshiftPreparedKey]
  split_ifs with h0
  · subst h0
    rw [turnedKey, show (8 - 0) % 4 = 0 from rfl, Nat.pow_zero, Nat.mod_one, Nat.zero_mul, Nat.zero_add, Nat.div_one,
      UInt32.ofNat_toNat]
  · have hr := rotate_prepared key (o := 8 - o) (by omega)
    rw [show 8 - (8 - o) = o by omega] at hr
    apply UInt64.toNat_inj.mp
    rw [rotate_left h0 h8, hr]

private theorem byte_turned {n o i : Nat} (ho : o < 4) (hi : i < 4) (hn : n < 4294967296) :
    (n % 256 ^ o * 256 ^ (4 - o) + n / 256 ^ o) / 256 ^ i % 256 = n / 256 ^ ((o + i) % 4) % 256 := by
  rcases Nat.lt_or_ge (o + i) 4 with h | h
  · have hq : 256 ^ (4 - o) = 256 ^ i * (256 ^ (3 - o - i) * 256) := by
      rw [← Nat.pow_succ, ← Nat.pow_add]
      congr 1
      omega
    have hr : n % 256 ^ o * 256 ^ (4 - o) + n / 256 ^ o = 256 ^ i * (n % 256 ^ o * 256 ^ (3 - o - i) * 256) + n / 256 ^ o := by
      rw [hq]
      ring
    rw [hr, Nat.mul_add_div (Nat.pow_pos (by decide)), Nat.mul_add_mod_self_right, Nat.div_div_eq_div_mul, ← Nat.pow_add,
      Nat.mod_eq_of_lt h]
  · have hi' : i = (4 - o) + (o + i - 4) := by omega
    have ho' : o = (o + i - 4) + (3 - i + 1) := by omega
    have hlt : n / 256 ^ o < 256 ^ (4 - o) := by
      rw [Nat.div_lt_iff_lt_mul (Nat.pow_pos (by decide)), ← Nat.pow_add, show 4 - o + o = 4 by omega]
      exact hn
    have hm : n % 256 ^ o / 256 ^ (o + i - 4) = n / 256 ^ (o + i - 4) % 256 ^ (3 - i + 1) := by
      conv_lhs => rw [ho', Nat.pow_add]
      rw [show (o + i - 4) + (3 - i + 1) + i - 4 = o + i - 4 by omega, Nat.mod_mul_right_div_self]
    conv_lhs => rw [hi']
    rw [Nat.pow_add, ← Nat.div_div_eq_div_mul, Nat.mul_comm, Nat.mul_add_div (Nat.pow_pos (by decide)),
      Nat.div_eq_of_lt hlt, Nat.add_zero, hm, Nat.mod_mod_of_dvd _ (dvd_pow_self 256 (Nat.succ_ne_zero _)),
      show (o + i) % 4 = o + i - 4 by omega]

private theorem keyStream_little (o i : Nat) : keyStream .little (turnedKey key o) i = keyStream .little key (o + i) := by
  have hk := key.toNat_lt
  rw [keyStream, keyStream, keyByte_little (Nat.mod_lt _ (by decide)), keyByte_little (Nat.mod_lt _ (by decide)), turnedKey,
    UInt32.toNat_ofNat_of_lt' (turnedKey_lt (pow_split o) hk), Nat.add_mod]
  exact ofNat_congr (byte_turned (Nat.mod_lt _ (by decide)) (Nat.mod_lt _ (by decide)) hk)

private theorem keyStream_big {o : Nat} (h8 : o < 8) (i : Nat) :
    keyStream .big (turnedKey key (8 - o)) i = keyStream .big key (o + i) := by
  have hk := key.toNat_lt
  rw [keyStream, keyStream, keyByte_big (Nat.mod_lt _ (by decide)), keyByte_big (Nat.mod_lt _ (by decide)), turnedKey,
    UInt32.toNat_ofNat_of_lt' (turnedKey_lt (pow_split _) hk)]
  have h := byte_turned (n := key.toNat) (o := (8 - o) % 4) (i := 3 - i % 4) (by omega) (by omega) hk
  rw [show ((8 - o) % 4 + (3 - i % 4)) % 4 = 3 - (o + i) % 4 by omega] at h
  exact ofNat_congr h

/-- Turning the word moves along the stream. -/
theorem Prepared.circshift (h : Prepared host k c) {o : Nat} (h8 : o < 8) :
    Prepared host (circshiftPreparedKey host k o) (shift c o) := by
  obtain ⟨key, rfl, rfl⟩ := h
  cases host with
  | little => exact ⟨turnedKey key o, circshift_little h8, funext fun i => (keyStream_little o i).symm⟩
  | big => exact ⟨turnedKey key (8 - o), circshift_big h8, funext fun i => (keyStream_big h8 i).symm⟩

theorem Prepared.periodic (h : Prepared host k c) (i n : Nat) : c (i + 4 * n) = c i := by
  obtain ⟨key, rfl, rfl⟩ := h
  rw [keyStream, keyStream, Nat.add_mul_mod_self_left]

theorem keyStream_injective {key' : UInt32} (h : keyStream host key = keyStream host key') : key = key' := by
  have hm : host.memory 4 key.toNat = host.memory 4 key'.toNat := by
    refine List.ext_getElem (by rw [Host.length_memory, Host.length_memory]) fun i h1 h2 => ?_
    have hi := congrFun h i
    rw [Host.length_memory] at h1
    rw [keyStream, keyStream, Nat.mod_eq_of_lt h1, keyByte, keyByte, List.getD_eq_getElem _ _ (by rwa [Host.length_memory]),
      List.getD_eq_getElem _ _ (by rwa [Host.length_memory])] at hi
    exact hi
  have ho := congrArg host.ofMemory hm
  rw [Host.ofMemory_memory, Host.ofMemory_memory, Nat.mod_eq_of_lt (show _ < 256 ^ 4 from key.toNat_lt),
    Nat.mod_eq_of_lt (show _ < 256 ^ 4 from key'.toNat_lt)] at ho
  exact UInt32.toNat_inj.mp ho

/-- One word stands for each stream. -/
theorem Prepared.unique {k' : UInt64} (h : Prepared host k c) (h' : Prepared host k' c) : k = k' := by
  obtain ⟨key, rfl, rfl⟩ := h
  obtain ⟨key', rfl, hc⟩ := h'
  rw [keyStream_injective hc]

end Keys

section Paths
variable {host : Host} {key : UInt32} {c : Nat → UInt8} {k : UInt64} {b : Bytes}

theorem byteMaskFrom_eq (i : Nat) : byteMaskFrom host key (i % 4) b = mask (shift (keyStream host key) i) b := by
  induction b generalizing i with
  | nil => rfl
  | cons x b ih =>
    rw [byteMaskFrom, mask, Nat.mod_add_mod, ih (i + 1)]
    congr 2
    funext j
    rw [shift, shift]
    congr 1
    omega

/-- The plain path is the stream from the key's offset on. -/
theorem byteMask_eq (offset : Nat) : byteMask host b key offset = mask (shift (keyStream host key) offset) b :=
  byteMaskFrom_eq offset

/-- A piece is masked with the stream the word stands for, and the word returned
stands for the stream after the piece. -/
theorem byteMaskCirc_prepared (h : Prepared host k c) :
    (byteMaskCirc host b k).1 = mask c b ∧ Prepared host (byteMaskCirc host b k).2 (shift c b.length) := by
  constructor
  · obtain ⟨key, rfl, rfl⟩ := h
    rw [byteMaskCirc, toUInt32_prepareMaskingKey, mask_eq_mapIdx]
    rfl
  · have hs := h.circshift (o := b.length % 4) (by omega)
    have hc : shift c (b.length % 4) = shift c b.length := by
      funext i
      have hp := h.periodic (b.length % 4 + i) (b.length / 4)
      rw [shift, shift, ← hp]
      congr 1
      omega
    rwa [hc] at hs

theorem byteMaskCirc_append (h : Prepared host k c) {a : Bytes} : byteMaskCirc host (a ++ b) k =
    ((byteMaskCirc host a k).1 ++ (byteMaskCirc host b (byteMaskCirc host a k).2).1,
      (byteMaskCirc host b (byteMaskCirc host a k).2).2) := by
  obtain ⟨ha, hka⟩ := byteMaskCirc_prepared (b := a) h
  obtain ⟨hb, hkb⟩ := byteMaskCirc_prepared (b := b) hka
  obtain ⟨hab, hkab⟩ := byteMaskCirc_prepared (b := a ++ b) h
  rw [shift_shift, ← List.length_append] at hkb
  refine Prod.ext ?_ (hkab.unique hkb)
  rw [hab, ha, hb, mask_append]

theorem prepared_prepareMaskingKey : Prepared host (prepareMaskingKey key) (keyStream host key) := ⟨key, rfl, rfl⟩

/-- The bytes of a prepared key are two turns of the key's. -/
private theorem memory_prepared :
    host.memory 8 (prepareMaskingKey key).toNat = host.memory 4 key.toNat ++ host.memory 4 key.toNat := by
  have hk : key.toNat < 256 ^ 4 := key.toNat_lt
  have h := bigEndian_append (j := 4) (k := 4) (m := key.toNat) hk
  rw [toNat_prepareMaskingKey]
  change host.memory (4 + 4) (key.toNat * 256 ^ 4 + key.toNat) = _
  cases host with
  | little => rw [Host.memory, Host.memory, h, List.reverse_append]
  | big => exact h

private theorem getD_memory_prepared (h : Prepared host k c) {i : Nat} (hi : i < 8) : (host.memory 8 k.toNat).getD i 0 = c i := by
  obtain ⟨key, rfl, rfl⟩ := h
  rw [memory_prepared, keyStream, keyByte]
  rcases Nat.lt_or_ge i 4 with h4 | h4
  · rw [List.getD_append _ _ _ _ (by rw [Host.length_memory]; exact h4), Nat.mod_eq_of_lt h4]
  · rw [List.getD_append_right _ _ _ _ (by rw [Host.length_memory]; exact h4), Host.length_memory,
      show i % 4 = i - 4 by omega]

private theorem zipWith_mask (l : Bytes) (h : b.length ≤ l.length) (hc : ∀ i < b.length, l.getD i 0 = c i) :
    List.zipWith (· ^^^ ·) b l = mask c b := by
  induction b generalizing l c with
  | nil => rfl
  | cons x b ih =>
    cases l with
    | nil => simp at h
    | cons y l =>
      have hy : y = c 0 := hc 0 (by simp)
      rw [List.zipWith_cons_cons, mask, hy]
      congr 1
      refine ih l (by simpa using h) fun i hi => ?_
      exact hc (i + 1) (by simpa using hi)

private theorem maskWords_eq (h : Prepared host k c) {n : Nat} (hn : n * 8 ≤ b.length) :
    maskWords host k n b = mask c (b.take (n * 8)) := by
  induction n generalizing b with
  | zero => rw [maskWords, Nat.zero_mul, List.take_zero, mask]
  | succ n ih =>
    have hlen : (b.take 8).length = 8 := by
      rw [List.length_take]
      omega
    have hword : host.memory 8 (host.ofMemory (b.take 8) ^^^ k.toNat) = mask c (b.take 8) := by
      have hm := Host.memory_ofMemory host (b.take 8)
      rw [hlen] at hm
      rw [Host.memory_xor, hm]
      exact zipWith_mask _ (by rw [hlen, Host.length_memory]) fun i hi => getD_memory_prepared h (by omega)
    have hshift : shift c (b.take 8).length = c := by
      funext i
      rw [hlen, shift, Nat.add_comm]
      exact h.periodic i 2
    rw [maskWords, hword, ih (by rw [List.length_drop]; omega)]
    calc mask c (b.take 8) ++ mask c ((b.drop 8).take (n * 8))
      _ = mask c (b.take 8) ++ mask (shift c (b.take 8).length) ((b.drop 8).take (n * 8)) := by rw [hshift]
      _ = mask c (b.take 8 ++ (b.drop 8).take (n * 8)) := mask_append.symm
      _ = mask c (b.take ((n + 1) * 8)) := by rw [← List.take_add, Nat.add_comm, ← Nat.succ_mul]

private theorem mask_take_drop (n : Nat) (hn : n ≤ b.length) : mask c b = mask c (b.take n) ++ mask (shift c n) (b.drop n) := by
  conv_lhs => rw [← List.take_append_drop n b, mask_append, List.length_take, Nat.min_eq_left hn]

/-- The path that masks a whole message by words is the plain path. -/
theorem wordMaskExact_eq : wordMaskExact host b key = mask (keyStream host key) b := by
  have hn : b.length / 8 * 8 ≤ b.length := Nat.div_mul_le_self _ _
  rw [wordMaskExact, maskWords_eq prepared_prepareMaskingKey hn, mask_take_drop _ hn, mask_eq_mapIdx (b := b.drop _)]
  rfl

/-- The path that masks a piece by words is the path that masks it by bytes. -/
theorem wordMaskCirc_prepared (h : Prepared host k c) :
    (wordMaskCirc host b k).1 = mask c b ∧ Prepared host (wordMaskCirc host b k).2 (shift c b.length) := by
  have hn : b.length / 8 * 8 ≤ b.length := Nat.div_mul_le_self _ _
  have hs : b.length - (b.length - b.length / 8 * 8) = b.length / 8 * 8 := by omega
  constructor
  · rw [wordMaskCirc]
    dsimp only
    rw [hs, maskWords_eq h hn, mask_take_drop _ hn, mask_eq_mapIdx (b := b.drop _)]
    congr 1
    rw [List.mapIdx_eq_mapIdx_iff]
    intro i hi
    rw [List.length_drop] at hi
    rw [getD_memory_prepared h (by omega), shift, ← h.periodic i (b.length / 8 * 2)]
    congr 2
    omega
  · have hc := h.circshift (o := b.length - b.length / 8 * 8) (by omega)
    have he : shift c (b.length - b.length / 8 * 8) = shift c b.length := by
      funext i
      rw [shift, shift, ← h.periodic _ (b.length / 8 * 2)]
      congr 1
      omega
    rwa [he] at hc

/-- Which of the two paths takes a piece. -/
inductive Path where
  | byByte | byWord
  deriving DecidableEq, Repr

/-- The pieces of a payload, each on its own path with the key the last one left. -/
def maskPieces (host : Host) (k : UInt64) : List (Path × Bytes) → Bytes
  | [] => []
  | (.byByte, b) :: pieces => (byteMaskCirc host b k).1 ++ maskPieces host (byteMaskCirc host b k).2 pieces
  | (.byWord, b) :: pieces => (wordMaskCirc host b k).1 ++ maskPieces host (wordMaskCirc host b k).2 pieces

theorem maskPieces_prepared (h : Prepared host k c) (pieces : List (Path × Bytes)) :
    maskPieces host k pieces = mask c (pieces.map Prod.snd).flatten := by
  induction pieces generalizing k c with
  | nil => rfl
  | cons p pieces ih =>
    obtain ⟨path, b⟩ := p
    rw [List.map_cons, List.flatten_cons, mask_append]
    cases path with
    | byByte =>
      obtain ⟨hb, hk⟩ := byteMaskCirc_prepared (b := b) h
      rw [maskPieces, hb, ih hk]
    | byWord =>
      obtain ⟨hb, hk⟩ := wordMaskCirc_prepared (b := b) h
      rw [maskPieces, hb, ih hk]

private theorem shift_zero : shift c 0 = c := funext fun i => congrArg c (Nat.zero_add i)

/-- On a host of either byte order masking undoes itself, a payload masked whole by
words is the payload masked by bytes, and so are its pieces on any paths. -/
theorem masking_paths_agree (host : Host) (key : UInt32) (payload : Bytes) (offset : Nat) (pieces : List (Path × Bytes)) :
    byteMask host (byteMask host payload key offset) key offset = payload ∧
      wordMaskExact host payload key = byteMask host payload key 0 ∧
      maskPieces host (prepareMaskingKey key) pieces = byteMask host (pieces.map Prod.snd).flatten key 0 := by
  refine ⟨by rw [byteMask_eq, byteMask_eq, mask_mask], ?_, ?_⟩
  · rw [wordMaskExact_eq, byteMask_eq, shift_zero]
  · rw [maskPieces_prepared prepared_prepareMaskingKey, byteMask_eq, shift_zero]

end Paths

end DeribitClientServer.Transport
