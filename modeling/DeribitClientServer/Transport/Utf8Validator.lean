import DeribitClientServer.Library.Utf8
import DeribitClientServer.Library.Utf8Shape

/-! The table-driven validator that text payloads pass on their way out and in. -/
namespace DeribitClientServer.Transport
open Library Library.Utf8

def utf8Accept : Nat := 0

def utf8Reject : Nat := 1

/-- The class of each byte, then for each state the next state under each class. -/
def utf8d : List Nat := [
  0, 0, 0, 0, 0, 0, 0, 0, 0, 0, 0, 0, 0, 0, 0, 0, 0, 0, 0, 0, 0, 0, 0, 0, 0, 0, 0, 0, 0, 0, 0, 0, -- 00..1f
  0, 0, 0, 0, 0, 0, 0, 0, 0, 0, 0, 0, 0, 0, 0, 0, 0, 0, 0, 0, 0, 0, 0, 0, 0, 0, 0, 0, 0, 0, 0, 0, -- 20..3f
  0, 0, 0, 0, 0, 0, 0, 0, 0, 0, 0, 0, 0, 0, 0, 0, 0, 0, 0, 0, 0, 0, 0, 0, 0, 0, 0, 0, 0, 0, 0, 0, -- 40..5f
  0, 0, 0, 0, 0, 0, 0, 0, 0, 0, 0, 0, 0, 0, 0, 0, 0, 0, 0, 0, 0, 0, 0, 0, 0, 0, 0, 0, 0, 0, 0, 0, -- 60..7f
  1, 1, 1, 1, 1, 1, 1, 1, 1, 1, 1, 1, 1, 1, 1, 1, 9, 9, 9, 9, 9, 9, 9, 9, 9, 9, 9, 9, 9, 9, 9, 9, -- 80..9f
  7, 7, 7, 7, 7, 7, 7, 7, 7, 7, 7, 7, 7, 7, 7, 7, 7, 7, 7, 7, 7, 7, 7, 7, 7, 7, 7, 7, 7, 7, 7, 7, -- a0..bf
  8, 8, 2, 2, 2, 2, 2, 2, 2, 2, 2, 2, 2, 2, 2, 2, 2, 2, 2, 2, 2, 2, 2, 2, 2, 2, 2, 2, 2, 2, 2, 2, -- c0..df
  0xa, 0x3, 0x3, 0x3, 0x3, 0x3, 0x3, 0x3, 0x3, 0x3, 0x3, 0x3, 0x3, 0x4, 0x3, 0x3, -- e0..ef
  0xb, 0x6, 0x6, 0x6, 0x5, 0x8, 0x8, 0x8, 0x8, 0x8, 0x8, 0x8, 0x8, 0x8, 0x8, 0x8, -- f0..ff
  0x0, 0x1, 0x2, 0x3, 0x5, 0x8, 0x7, 0x1, 0x1, 0x1, 0x4, 0x6, 0x1, 0x1, 0x1, 0x1, -- s0..s0
  1, 1, 1, 1, 1, 1, 1, 1, 1, 1, 1, 1, 1, 1, 1, 1, 1, 0, 1, 1, 1, 1, 1, 0, 1, 0, 1, 1, 1, 1, 1, 1, -- s1..s2
  1, 2, 1, 1, 1, 1, 1, 2, 1, 2, 1, 1, 1, 1, 1, 1, 1, 1, 1, 1, 1, 1, 1, 2, 1, 1, 1, 1, 1, 1, 1, 1, -- s3..s4
  1, 2, 1, 1, 1, 1, 1, 1, 1, 2, 1, 1, 1, 1, 1, 1, 1, 1, 1, 1, 1, 1, 1, 3, 1, 3, 1, 1, 1, 1, 1, 1, -- s5..s6
  1, 3, 1, 1, 1, 1, 1, 3, 1, 3, 1, 1, 1, 1, 1, 1, 1, 3, 1, 1, 1, 1, 1, 1, 1, 1, 1, 1, 1, 1, 1, 1] -- s7..s8

def byteClass (byte : UInt8) : Nat := utf8d.getD byte.toNat 0

def nextState (state : Nat) (byte : UInt8) : Nat := utf8d.getD (256 + state * 16 + byteClass byte) 0

structure Validator where
  state : Nat
  codepoint : UInt32
  deriving DecidableEq, Repr

namespace Validator

def init : Validator := ⟨utf8Accept, 0⟩

/-- One byte taken by the decoder. -/
def advance (v : Validator) (byte : UInt8) : Validator where
  state := nextState v.state byte
  codepoint :=
    if v.state ≠ utf8Accept then (byte.toUInt32 &&& 0x3f) ||| (v.codepoint <<< (6 : UInt32))
    else (0xff >>> UInt32.ofNat (byteClass byte)) &&& byte.toUInt32

/-- Stops at the first byte that is rejected. -/
def decode (v : Validator) : Bytes → Bool × Validator
  | [] => (true, v)
  | x :: b => if (v.advance x).state = utf8Reject then (false, v.advance x) else (v.advance x).decode b

def complete (v : Validator) : Bool := v.state = utf8Accept

end Validator

def validate (b : Bytes) : Bool :=
  match Validator.init.decode b with
  | (false, _) => false
  | (true, v) => v.complete

section Table
variable {s : Nat} {x : UInt8}

/-- The state a first byte opens. -/
def opening (n : Nat) : Nat :=
  if n ≤ 0x7F then 0
  else if 0xC2 ≤ n ∧ n ≤ 0xDF then 2
  else if n = 0xE0 then 4
  else if n = 0xED then 5
  else if 0xE1 ≤ n ∧ n ≤ 0xEF then 3
  else if n = 0xF0 then 6
  else if 0xF1 ≤ n ∧ n ≤ 0xF3 then 7
  else if n = 0xF4 then 8
  else 1

/-- Inside a character: the least and the greatest byte that continues it, and the
state after that byte. -/
def window : Nat → Nat × Nat × Nat
  | 2 => (0x80, 0xBF, 0)
  | 3 => (0x80, 0xBF, 2)
  | 4 => (0xA0, 0xBF, 2)
  | 5 => (0x80, 0x9F, 2)
  | 6 => (0x90, 0xBF, 3)
  | 7 => (0x80, 0xBF, 3)
  | 8 => (0x80, 0x8F, 3)
  | _ => (1, 0, 1)

/-- The bytes of each class. -/
private def classOf (n : Nat) : Nat :=
  if n ≤ 0x7F then 0
  else if n ≤ 0x8F then 1
  else if n ≤ 0x9F then 9
  else if n ≤ 0xBF then 7
  else if n ≤ 0xC1 then 8
  else if n ≤ 0xDF then 2
  else if n = 0xE0 then 10
  else if n = 0xED then 4
  else if n ≤ 0xEF then 3
  else if n = 0xF0 then 11
  else if n ≤ 0xF3 then 6
  else if n = 0xF4 then 5
  else 8

/-- Where each class leads from each state. -/
private def leads (s c : Nat) : Nat :=
  ([[0, 1, 2, 3, 5, 8, 7, 1, 1, 1, 4, 6], [1, 1, 1, 1, 1, 1, 1, 1, 1, 1, 1, 1], [1, 0, 1, 1, 1, 1, 1, 0, 1, 0, 1, 1],
    [1, 2, 1, 1, 1, 1, 1, 2, 1, 2, 1, 1], [1, 1, 1, 1, 1, 1, 1, 2, 1, 1, 1, 1], [1, 2, 1, 1, 1, 1, 1, 1, 1, 2, 1, 1],
    [1, 1, 1, 1, 1, 1, 1, 3, 1, 3, 1, 1], [1, 3, 1, 1, 1, 1, 1, 3, 1, 3, 1, 1],
    [1, 3, 1, 1, 1, 1, 1, 1, 1, 1, 1, 1]].getD s []).getD c 0

private theorem table_class : ∀ n < 256, utf8d.getD n 0 = classOf n := by decide +kernel

private theorem table_leads : ∀ s < 9, ∀ c < 12, utf8d.getD (256 + s * 16 + c) 0 = leads s c := by decide +kernel

private theorem classOf_lt : ∀ n < 256, classOf n < 12 := by decide +kernel

private theorem leads_opening : ∀ n < 256, leads 0 (classOf n) = opening n := by decide +kernel

private theorem leads_window : ∀ s < 9, s ≠ 0 → ∀ n < 256,
    leads s (classOf n) = if (window s).1 ≤ n ∧ n ≤ (window s).2.1 then (window s).2.2 else 1 := by
  decide +kernel

/-- The bits a first byte contributes to the scalar value. -/
private def leadBits (n : Nat) : Nat :=
  if n < 0x80 then n else if n < 0xE0 then n - 0xC0 else if n < 0xF0 then n - 0xE0 else n - 0xF0

private theorem classOf_lead : ∀ n < 256, opening n ≠ 1 → (0xff >>> classOf n) &&& n = leadBits n := by
  decide +kernel

private theorem nextState_eq (hs : s < 9) : nextState s x = leads s (classOf x.toNat) := by
  rw [nextState, byteClass, table_class _ x.toNat_lt, table_leads s hs _ (classOf_lt _ x.toNat_lt)]

theorem nextState_accept : nextState utf8Accept x = opening x.toNat := by
  rw [nextState_eq (by decide)]
  exact leads_opening x.toNat x.toNat_lt

theorem nextState_inside (hs : s < 9) (h0 : s ≠ utf8Accept) :
    nextState s x = if (window s).1 ≤ x.toNat ∧ x.toNat ≤ (window s).2.1 then (window s).2.2 else utf8Reject := by
  rw [nextState_eq hs]
  exact leads_window s hs h0 x.toNat x.toNat_lt

theorem nextState_lt (hs : s < 9) : nextState s x < 9 := by
  rcases Nat.eq_zero_or_pos s with rfl | h0
  · rw [show (0 : Nat) = utf8Accept from rfl, nextState_accept]
    unfold opening
    split_ifs <;> decide
  · rw [nextState_inside hs (Nat.pos_iff_ne_zero.mp h0)]
    have hw : (window s).2.2 < 9 := by
      unfold window
      split <;> decide
    split
    · exact hw
    · decide

/-- No byte leads out of the rejecting state. -/
theorem nextState_reject : nextState utf8Reject x = utf8Reject := by
  rw [nextState_inside (by decide) (by decide)]
  exact if_neg fun h => absurd (Nat.le_trans h.1 h.2) (by decide)

theorem foldl_reject (b : Bytes) : b.foldl nextState utf8Reject = utf8Reject := by
  induction b with
  | nil => rfl
  | cons x b ih => rw [List.foldl_cons, nextState_reject, ih]

end Table

section Streaming
variable {v : Validator} {a b : Bytes}

@[simp] theorem advance_state (x : UInt8) : (v.advance x).state = nextState v.state x := rfl

theorem foldl_advance_state : (b.foldl Validator.advance v).state = b.foldl nextState v.state := by
  induction b generalizing v with
  | nil => rfl
  | cons x b ih => rw [List.foldl_cons, List.foldl_cons, ih, advance_state]

/-- Away from the rejecting state the whole input is taken. -/
theorem decode_eq_foldl (h : b.foldl nextState v.state ≠ utf8Reject) : v.decode b = (true, b.foldl Validator.advance v) := by
  induction b generalizing v with
  | nil => rfl
  | cons x b ih =>
    rw [List.foldl_cons] at h
    have hx : (v.advance x).state ≠ utf8Reject := by
      intro hr
      rw [advance_state] at hr
      exact h (by rw [hr, foldl_reject])
    rw [Validator.decode, if_neg hx, ih h, List.foldl_cons]

theorem decode_fst_iff (hv : v.state ≠ utf8Reject) :
    (v.decode b).1 = true ↔ b.foldl nextState v.state ≠ utf8Reject := by
  induction b generalizing v with
  | nil => exact ⟨fun _ => hv, fun _ => rfl⟩
  | cons x b ih =>
    rw [Validator.decode, List.foldl_cons]
    by_cases hx : (v.advance x).state = utf8Reject
    · rw [if_pos hx, ← advance_state, hx, foldl_reject]
      simp
    · rw [if_neg hx]
      exact ih hx

/-- The input may arrive in pieces. -/
theorem decode_append : v.decode (a ++ b) =
    match v.decode a with
    | (false, v') => (false, v')
    | (true, v') => v'.decode b := by
  induction a generalizing v with
  | nil => rfl
  | cons x a ih =>
    rw [List.cons_append, Validator.decode, Validator.decode]
    split
    · rfl
    · exact ih

end Streaming

section Scalars
variable {u : Validator} {s n : Nat} {x y : UInt8}

/-- The validator stands in a state with the bits read so far. -/
private structure At (u : Validator) (s n : Nat) : Prop where
  state : u.state = s
  bits : u.codepoint.toNat = n

private theorem at_lead (hu : u.state = utf8Accept) (hx : opening x.toNat ≠ 1) :
    At (u.advance x) (opening x.toNat) (leadBits x.toNat) := by
  refine ⟨by rw [advance_state, hu, nextState_accept], ?_⟩
  rw [Validator.advance, if_neg (not_not_intro hu), byteClass, table_class _ x.toNat_lt, UInt32.toNat_and,
    UInt8.toNat_toUInt32, ← classOf_lead _ x.toNat_lt hx]
  have hc := classOf_lt _ x.toNat_lt
  congr 1
  rw [UInt32.toNat_shiftRight, UInt32.toNat_ofNat_of_lt' (Nat.lt_trans hc (by decide)), Nat.mod_eq_of_lt (by omega)]
  rfl

private theorem low_bits (hy : Tail y) : y.toNat &&& 0x3f = y.toNat - 0x80 := by
  rw [show (0x3f : Nat) = 2 ^ 6 - 1 from rfl, Nat.and_two_pow_sub_one_eq_mod]
  unfold Tail at hy
  omega

private theorem At.tail (h : At u s n) (hs : s < 9) (h0 : s ≠ utf8Accept) (hy : Tail y)
    (hw : (window s).1 ≤ y.toNat ∧ y.toNat ≤ (window s).2.1) (hn : n < 0x100000) :
    At (u.advance y) (window s).2.2 (n * 64 + (y.toNat - 0x80)) := by
  refine ⟨by rw [advance_state, h.state, nextState_inside hs h0, if_pos hw], ?_⟩
  have hlow : y.toNat - 0x80 < 2 ^ 6 := by unfold Tail at hy; omega
  rw [Validator.advance, if_pos (h.state ▸ h0), UInt32.toNat_or, UInt32.toNat_and, UInt8.toNat_toUInt32,
    UInt32.toNat_shiftLeft, h.bits, Nat.or_comm]
  change n <<< 6 % 2 ^ 32 ||| y.toNat &&& 0x3f = _
  rw [low_bits hy, Nat.mod_eq_of_lt (by rw [Nat.shiftLeft_eq]; omega), ← Nat.shiftLeft_add_eq_or_of_lt hlow,
    Nat.shiftLeft_eq]

/-- A character's bytes bring the validator back to acceptance with its value. -/
private theorem at_shape {v : Nat} {p : Bytes} (hu : u.state = utf8Accept) (hp : Shape v p) :
    At (p.foldl Validator.advance u) utf8Accept v := by
  cases hp with
  | @one x hx =>
    have ho : opening x.toNat = 0 := by rw [opening, if_pos hx]
    have h1 := at_lead (x := x) hu (by omega)
    rw [ho, leadBits, if_pos (by omega)] at h1
    exact h1
  | @two x y hx hy =>
    have ho : opening x.toNat = 2 := by rw [opening, if_neg (by omega), if_pos hx]
    have h1 := at_lead (x := x) hu (by omega)
    rw [ho, leadBits, if_neg (by omega), if_pos (by omega)] at h1
    exact h1.tail (by decide) (by decide) hy hy (by omega)
  | @three x y z hx hy hz hlow hs =>
    have hl : leadBits x.toNat = x.toNat - 0xE0 := by
      rw [leadBits, if_neg (by omega), if_neg (by omega), if_pos (by omega)]
    have hyz : ∀ s, opening x.toNat = s → s < 9 → 1 < s → (window s).2.2 = 2 →
        (window s).1 ≤ y.toNat ∧ y.toNat ≤ (window s).2.1 →
        At ([x, y, z].foldl Validator.advance u) utf8Accept
          (((x.toNat - 0xE0) * 64 + (y.toNat - 0x80)) * 64 + (z.toNat - 0x80)) := by
      intro s ho h9 h1 hw2 hw
      have hx1 := at_lead (x := x) hu (by omega)
      rw [ho, hl] at hx1
      have hy1 := hx1.tail h9 (by unfold utf8Accept; omega) hy hw (by omega)
      rw [hw2] at hy1
      exact hy1.tail (by decide) (by decide) hz hz (by unfold Tail at hy; omega)
    unfold Tail at hy
    by_cases h0 : x.toNat = 0xE0
    · exact hyz 4 (by rw [h0]; rfl) (by decide) (by decide) rfl ⟨hlow h0, hy.2⟩
    by_cases hD : x.toNat = 0xED
    · exact hyz 5 (by rw [hD]; rfl) (by decide) (by decide) rfl ⟨hy.1, hs hD⟩
    · refine hyz 3 ?_ (by decide) (by decide) rfl hy
      rw [opening, if_neg (by omega), if_neg (by omega), if_neg h0, if_neg hD, if_pos (by omega)]
  | @four x y z t hx hy hz ht hlow hh =>
    have hl : leadBits x.toNat = x.toNat - 0xF0 := by
      rw [leadBits, if_neg (by omega), if_neg (by omega), if_neg (by omega)]
    have hyzt : ∀ s, opening x.toNat = s → s < 9 → 1 < s → (window s).2.2 = 3 →
        (window s).1 ≤ y.toNat ∧ y.toNat ≤ (window s).2.1 →
        At ([x, y, z, t].foldl Validator.advance u) utf8Accept
          ((((x.toNat - 0xF0) * 64 + (y.toNat - 0x80)) * 64 + (z.toNat - 0x80)) * 64 + (t.toNat - 0x80)) := by
      intro s ho h9 h1 hw3 hw
      have hx1 := at_lead (x := x) hu (by omega)
      rw [ho, hl] at hx1
      have hy1 := hx1.tail h9 (by unfold utf8Accept; omega) hy hw (by omega)
      rw [hw3] at hy1
      unfold Tail at hy
      have hz1 := hy1.tail (by decide) (by decide) hz hz (by omega)
      unfold Tail at hz
      exact hz1.tail (by decide) (by decide) ht ht (by omega)
    unfold Tail at hy
    by_cases h0 : x.toNat = 0xF0
    · exact hyzt 6 (by rw [h0]; rfl) (by decide) (by decide) rfl ⟨hlow h0, hy.2⟩
    by_cases h4 : x.toNat = 0xF4
    · exact hyzt 8 (by rw [h4]; rfl) (by decide) (by decide) rfl ⟨hy.1, hh h4⟩
    · refine hyzt 7 ?_ (by decide) (by decide) rfl hy
      rw [opening, if_neg (by omega), if_neg (by omega), if_neg (by omega), if_neg (by omega), if_neg (by omega),
        if_neg h0, if_pos (by omega)]

end Scalars

section Acceptance
variable {s : Nat} {b : Bytes}

/-- Inside a character only a byte of the window leads back to acceptance. -/
private theorem accepts_inside (hs : s < 9) (h0 : s ≠ utf8Accept) (h : b.foldl nextState s = utf8Accept) :
    ∃ y r, b = y :: r ∧ (window s).1 ≤ y.toNat ∧ y.toNat ≤ (window s).2.1 ∧
      r.foldl nextState (window s).2.2 = utf8Accept := by
  cases b with
  | nil => exact absurd h h0
  | cons y r =>
    rw [List.foldl_cons, nextState_inside hs h0] at h
    split at h
    · next hw => exact ⟨y, r, rfl, hw.1, hw.2, h⟩
    · rw [foldl_reject] at h
      cases h

private theorem accepts_two (h : b.foldl nextState 2 = utf8Accept) :
    ∃ y r, b = y :: r ∧ Tail y ∧ r.foldl nextState utf8Accept = utf8Accept := by
  obtain ⟨y, r, hb, hl, hh, hr⟩ := accepts_inside (by decide) (by decide) h
  exact ⟨y, r, hb, ⟨hl, hh⟩, hr⟩

private theorem accepts_three (hs : s < 9) (h0 : s ≠ utf8Accept) (hw : (window s).2.2 = 2)
    (h : b.foldl nextState s = utf8Accept) :
    ∃ y z r, b = y :: z :: r ∧ ((window s).1 ≤ y.toNat ∧ y.toNat ≤ (window s).2.1) ∧ Tail z ∧
      r.foldl nextState utf8Accept = utf8Accept := by
  obtain ⟨y, b, rfl, hl, hh, hb⟩ := accepts_inside hs h0 h
  rw [hw] at hb
  obtain ⟨z, r, rfl, hz, hr⟩ := accepts_two hb
  exact ⟨y, z, r, rfl, ⟨hl, hh⟩, hz, hr⟩

private theorem accepts_four (hs : s < 9) (h0 : s ≠ utf8Accept) (hw : (window s).2.2 = 3)
    (h : b.foldl nextState s = utf8Accept) :
    ∃ y z t r, b = y :: z :: t :: r ∧ ((window s).1 ≤ y.toNat ∧ y.toNat ≤ (window s).2.1) ∧ Tail z ∧ Tail t ∧
      r.foldl nextState utf8Accept = utf8Accept := by
  obtain ⟨y, b, rfl, hl, hh, hb⟩ := accepts_inside hs h0 h
  rw [hw] at hb
  obtain ⟨z, t, r, rfl, hz, ht, hr⟩ := accepts_three (by decide) (by decide) rfl hb
  exact ⟨y, z, t, r, rfl, ⟨hl, hh⟩, hz, ht, hr⟩

/-- What is accepted starts with a whole character. -/
private theorem accepts_split {x : UInt8} (h : (x :: b).foldl nextState utf8Accept = utf8Accept) :
    ∃ v p r, x :: b = p ++ r ∧ Shape v p ∧ p ≠ [] ∧ r.foldl nextState utf8Accept = utf8Accept := by
  rw [List.foldl_cons, nextState_accept, opening] at h
  split_ifs at h with h7 hC hE0 hED hE hF0 hF hF4
  · exact ⟨_, [x], b, rfl, .one h7, by simp, h⟩
  · obtain ⟨y, r, rfl, hy, hr⟩ := accepts_two h
    exact ⟨_, [x, y], r, rfl, .two hC hy, by simp, hr⟩
  · obtain ⟨y, z, r, rfl, hy, hz, hr⟩ := accepts_three (by decide) (by decide) rfl h
    simp only [window] at hy
    exact ⟨_, [x, y, z], r, rfl, .three (by omega) ⟨by omega, hy.2⟩ hz (by omega) (by omega), by simp, hr⟩
  · obtain ⟨y, z, r, rfl, hy, hz, hr⟩ := accepts_three (by decide) (by decide) rfl h
    simp only [window] at hy
    exact ⟨_, [x, y, z], r, rfl, .three (by omega) ⟨hy.1, by omega⟩ hz (by omega) (by omega), by simp, hr⟩
  · obtain ⟨y, z, r, rfl, hy, hz, hr⟩ := accepts_three (by decide) (by decide) rfl h
    exact ⟨_, [x, y, z], r, rfl, .three (by omega) hy hz (by omega) (by omega), by simp, hr⟩
  · obtain ⟨y, z, t, r, rfl, hy, hz, ht, hr⟩ := accepts_four (by decide) (by decide) rfl h
    simp only [window] at hy
    exact ⟨_, [x, y, z, t], r, rfl, .four (by omega) ⟨by omega, hy.2⟩ hz ht (by omega) (by omega), by simp, hr⟩
  · obtain ⟨y, z, t, r, rfl, hy, hz, ht, hr⟩ := accepts_four (by decide) (by decide) rfl h
    exact ⟨_, [x, y, z, t], r, rfl, .four (by omega) hy hz ht (by omega) (by omega), by simp, hr⟩
  · obtain ⟨y, z, t, r, rfl, hy, hz, ht, hr⟩ := accepts_four (by decide) (by decide) rfl h
    simp only [window] at hy
    exact ⟨_, [x, y, z, t], r, rfl, .four (by omega) ⟨hy.1, by omega⟩ hz ht (by omega) (by omega), by simp, hr⟩
  · rw [show (1 : Nat) = utf8Reject from rfl, foldl_reject] at h
    cases h

private theorem foldl_encodeChars (l : List Char) :
    (l.flatMap String.utf8EncodeChar).foldl nextState utf8Accept = utf8Accept := by
  induction l with
  | nil => rfl
  | cons c l ih =>
    have hc := (at_shape (u := .init) rfl (shape_encodeChar c)).state
    rw [foldl_advance_state] at hc
    rw [List.flatMap_cons, List.foldl_append, show utf8Accept = Validator.init.state from rfl, hc]
    exact ih

private theorem chars_of_accepts (n : Nat) : ∀ b : Bytes, b.length ≤ n → b.foldl nextState utf8Accept = utf8Accept →
    ∃ l : List Char, b = l.flatMap String.utf8EncodeChar := by
  induction n with
  | zero => exact fun b hn _ => ⟨[], List.length_eq_zero_iff.mp (Nat.le_zero.mp hn)⟩
  | succ n ih =>
    intro b hn h
    cases b with
    | nil => exact ⟨[], rfl⟩
    | cons x b =>
      obtain ⟨v, p, r, hb, hp, hne, hr⟩ := accepts_split h
      have hlen := congrArg List.length hb
      rw [List.length_append] at hlen
      have hpos := List.length_pos_iff.mpr hne
      obtain ⟨l, rfl⟩ := ih r (by omega) hr
      obtain ⟨c, _, hc⟩ := hp.encodes
      exact ⟨c :: l, by rw [hb, List.flatMap_cons, hc]⟩

/-- The table ends in acceptance exactly on the encodings of texts. -/
theorem foldl_accept_iff : b.foldl nextState utf8Accept = utf8Accept ↔ ∃ t, Utf8.decode b = some t := by
  simp only [decode_eq_some_iff]
  constructor
  · intro h
    obtain ⟨l, hl⟩ := chars_of_accepts b.length b (Nat.le_refl _) h
    exact ⟨String.ofList l, by simpa [encode] using hl⟩
  · rintro ⟨t, rfl⟩
    exact foldl_encodeChars t.toList

/-- Bytes that lead from each state back to acceptance. -/
private def completion : Nat → Bytes
  | 2 => [0x80]
  | 3 => [0x80, 0x80]
  | 4 => [0xA0, 0x80]
  | 5 => [0x80, 0x80]
  | 6 => [0x90, 0x80, 0x80]
  | 7 => [0x80, 0x80, 0x80]
  | 8 => [0x80, 0x80, 0x80]
  | _ => []

private theorem foldl_completion : ∀ s < 9, s ≠ 1 → (completion s).foldl nextState s = 0 := by decide +kernel

private theorem foldl_nextState_lt (hs : s < 9) : b.foldl nextState s < 9 := by
  induction b generalizing s with
  | nil => exact hs
  | cons x b ih => exact ih (nextState_lt hs)

/-- Rejection means that no text starts with the bytes so far. -/
theorem foldl_ne_reject_iff :
    b.foldl nextState utf8Accept ≠ utf8Reject ↔ ∃ more t, Utf8.decode (b ++ more) = some t := by
  constructor
  · intro h
    refine ⟨completion (b.foldl nextState utf8Accept), foldl_accept_iff.mp ?_⟩
    rw [List.foldl_append]
    exact foldl_completion _ (foldl_nextState_lt (by decide)) h
  · rintro ⟨more, ht⟩ hr
    rw [← foldl_accept_iff, List.foldl_append, hr, foldl_reject] at ht
    cases ht

/-- The validator passes exactly the encodings of texts. -/
theorem validate_iff : validate b = true ↔ ∃ t, Utf8.decode b = some t := by
  rw [← foldl_accept_iff]
  by_cases h : b.foldl nextState utf8Accept = utf8Reject
  · have hd : (Validator.init.decode b).1 = false := by
      rw [Bool.eq_false_iff, ne_eq, decode_fst_iff (by decide)]
      exact not_not_intro h
    rw [validate, h]
    generalize Validator.init.decode b = d at hd ⊢
    obtain ⟨ok, v⟩ := d
    cases hd
    exact ⟨nofun, nofun⟩
  · rw [validate, decode_eq_foldl h]
    change decide _ = true ↔ _
    rw [decide_eq_true_iff, foldl_advance_state]
    rfl

/-- The pieces of a payload, each taken as it arrives. -/
def Validator.decodePieces (v : Validator) : List Bytes → Bool × Validator
  | [] => (true, v)
  | b :: pieces =>
    match v.decode b with
    | (false, v') => (false, v')
    | (true, v') => v'.decodePieces pieces

theorem decodePieces_eq {v : Validator} (pieces : List Bytes) : v.decodePieces pieces = v.decode pieces.flatten := by
  induction pieces generalizing v with
  | nil => rfl
  | cons b pieces ih =>
    rw [Validator.decodePieces, List.flatten_cons, decode_append]
    generalize v.decode b = d
    obtain ⟨_ | _, v'⟩ := d
    · rfl
    · exact ih

/-- However a payload is cut up, its pieces pass as long as a text can still start
with them, and they end complete exactly when they are a text. -/
theorem payload_pieces_validated (pieces : List Bytes) :
    ((Validator.init.decodePieces pieces).1 = true ↔ ∃ more t, Utf8.decode (pieces.flatten ++ more) = some t) ∧
      ((Validator.init.decodePieces pieces).1 = true ∧ (Validator.init.decodePieces pieces).2.complete = true ↔
        ∃ t, Utf8.decode pieces.flatten = some t) := by
  rw [decodePieces_eq, decode_fst_iff (by decide), show Validator.init.state = utf8Accept from rfl, foldl_ne_reject_iff]
  refine ⟨Iff.rfl, ?_⟩
  rw [← validate_iff, validate]
  constructor
  · rintro ⟨hmore, hc⟩
    rw [decode_eq_foldl (foldl_ne_reject_iff.mpr hmore)] at hc ⊢
    exact hc
  · intro h
    have hmore := foldl_ne_reject_iff.mpr ⟨[], by rw [List.append_nil]; exact validate_iff.mp h⟩
    rw [decode_eq_foldl hmore] at h ⊢
    exact ⟨foldl_ne_reject_iff.mp hmore, h⟩

end Acceptance

end DeribitClientServer.Transport
