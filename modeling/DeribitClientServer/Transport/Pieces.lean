import DeribitClientServer.Library.Chunked
import DeribitClientServer.Transport.Hybi13

/-! The bytes of a connection may be read in any pieces: the messages, the error
and the state after them are those of the whole. -/
namespace DeribitClientServer.Transport
open Library.Utf8 Library.Endian Library.Mask Library.Chunked

/-- A processor between reads: it needs bytes, for a field it can hold. -/
structure Waiting (host : Host) (s : Hybi13) : Prop where
  needs : 0 < s.bytesNeeded
  reading : s.state = .headerBasic ∧ s.bytesNeeded ≤ 2 ∨
    s.state = .headerExtended ∧ s.cursor + s.bytesNeeded ≤ maxExtendedHeaderLength ∨
    s.state = .application ∧ ∃ c, Prepared host s.current.preparedKey c
  buffer : s.extendedHeader.bytes.length = maxExtendedHeaderLength

/-- The metadata a data frame goes on with. -/
def MsgMetadata.next (m : MsgMetadata) (op : Opcode) (key : UInt32) : MsgMetadata :=
  if m.msgPtr.isNone then .start op key else { m with preparedKey := prepareMaskingKey key }

/-- The size of a message with `n` bytes more, as the check on it adds them up. -/
def Message.sizeWith (pending : Option Message) (n : Nat) : Nat :=
  match pending with
  | none => n
  | some m => (m.payload.length + n) % UInt64.size

namespace Hybi13
variable {host : Host} {s s' : Hybi13} {buf b : Bytes} {x : UInt8}

/-- A pass of the loop without what an error leaves behind. -/
def turned (host : Host) (s : Hybi13) (buf : Bytes) : Except ProcessorError (Hybi13 × Bytes) :=
  match (s.turn host buf).2.2 with
  | some e => .error e
  | none => .ok ((s.turn host buf).1, buf.drop (s.turn host buf).2.1)

/-- The loop without what an error leaves behind. -/
def consumed (host : Host) (s : Hybi13) (buf : Bytes) : Except ProcessorError (Hybi13 × Bytes) :=
  match (s.consume host buf).2.2 with
  | some e => .error e
  | none => .ok ((s.consume host buf).1, buf.drop (s.consume host buf).2.1)

theorem consumed_stop (h : ¬ s.goesOn buf = true) : s.consumed host buf = .ok (s, buf) := by
  rw [consumed, consume, dif_neg h]
  rfl

theorem consumed_turn (h : s.goesOn buf = true) : s.consumed host buf =
    match s.turned host buf with
    | .error e => .error e
    | .ok (s', rest) => s'.consumed host rest := by
  rw [consumed, consume, dif_pos h, turned]
  dsimp only
  generalize s.turn host buf = r
  obtain ⟨s', n, _ | e⟩ := r
  · simp only [consumed, dif_pos, List.drop_drop]
  · rfl

theorem not_goesOn_of_needs (h : 0 < s.bytesNeeded) : ¬ s.goesOn [] = true := by
  rw [goesOn_iff]
  rintro ⟨_, _, hn | h0⟩
  · exact hn rfl
  · omega

/-- A processor that needs nothing does not look at the bytes. -/
theorem turn_of_zero (h : s.bytesNeeded = 0) : s.turn host b = s.turn host [] := by
  have hc : ∀ b, s.copyBasicHeaderBytes b = (s, 0) := by
    intro b
    cases b with
    | nil => rfl
    | cons x b => simp only [copyBasicHeaderBytes, h, if_true]
  have he : ∀ b, s.copyExtendedHeaderBytes b = (s.storeExtended [], 0) := by
    intro b
    rw [copyExtendedHeaderBytes, h, Nat.zero_min, List.take_zero]
  unfold turn
  rw [hc, hc [], he, he [], h, Nat.zero_min, Nat.zero_min]
  rfl

/-- After passes that take no byte the loop resumes with the bytes there are. -/
def resume (host : Host) (b : Bytes) (r : Except ProcessorError (Hybi13 × Bytes)) : Except ProcessorError (Hybi13 × Bytes) :=
  match r with
  | .error e => .error e
  | .ok (s, _) => if s.state = .ready then .ok (s, b) else s.consumed host b

theorem consumed_resume : s.consumed host b = resume host b (s.consumed host []) := by
  induction hn : s.rank using Nat.strongRecOn generalizing s with
  | ind n ih =>
    by_cases hg : s.goesOn [] = true
    · have hz := (goesOn_iff.mp hg).2.2.resolve_left (not_not_intro rfl)
      have hgb : s.goesOn b = true := goesOn_iff.mpr ⟨(goesOn_iff.mp hg).1, (goesOn_iff.mp hg).2.1, .inr hz⟩
      have hd : (s.turn host []).2.2 = none → _ := turn_decreases hg
      rw [consumed_turn hg, consumed_turn hgb, turned, turned, turn_of_zero hz]
      generalize s.turn host [] = r at hd ⊢
      obtain ⟨s', m, _ | e⟩ := r
      · obtain ⟨hm, hlt⟩ := hd rfl
        obtain rfl : m = 0 := Nat.le_zero.mp hm
        exact ih _ (hn ▸ hlt.resolve_left (Nat.lt_irrefl 0)) rfl
      · rfl
    · rw [consumed_stop hg, resume]
      split_ifs with hr
      · exact consumed_stop fun h => (goesOn_iff.mp h).1 hr
      · rfl

/-- A pass that takes just the first byte, whatever follows it. -/
theorem consumed_cons_of_turned (hg : ∀ b, s.goesOn (x :: b) = true)
    (h : (∃ s', ∀ b, s.turned host (x :: b) = .ok (s', b)) ∨ ∃ e, ∀ b, s.turned host (x :: b) = .error e) :
    s.consumed host (x :: b) = resume host b (s.consumed host [x]) := by
  rw [consumed_turn (hg b), consumed_turn (hg [])]
  rcases h with ⟨s', h⟩ | ⟨e, h⟩
  · rw [h, h]
    exact consumed_resume
  · rw [h, h]
    rfl

/-- A pass that takes more than the first byte is a pass that takes it and stops, and
another for the rest. -/
theorem consumed_cons_of_more (t : Hybi13) (hg : ∀ b, s.goesOn (x :: b) = true) (hs : t.state ≠ .ready)
    (hf : t.state ≠ .fatalError) (hn : 0 < t.bytesNeeded) (h1 : s.turned host [x] = .ok (t, []))
    (h : b ≠ [] → s.turned host (x :: b) = t.turned host b) :
    s.consumed host (x :: b) = resume host b (s.consumed host [x]) := by
  have hstop : s.consumed host [x] = .ok (t, []) := by
    rw [consumed_turn (hg []), h1]
    exact consumed_stop (not_goesOn_of_needs hn)
  rw [hstop, resume, if_neg hs]
  cases b with
  | nil => rw [hstop, consumed_stop (not_goesOn_of_needs hn)]
  | cons y b =>
    have hg' : t.goesOn (y :: b) = true := goesOn_iff.mpr ⟨hs, hf, .inl (List.cons_ne_nil _ _)⟩
    rw [consumed_turn (hg _), h (List.cons_ne_nil _ _), consumed_turn hg']

private theorem consumed_cons_basic (hs : s.state = .headerBasic) (hn : 0 < s.bytesNeeded) (h2 : s.bytesNeeded ≤ 2) :
    s.consumed host (x :: b) = resume host b (s.consumed host [x]) := by
  have hg : ∀ b, s.goesOn (x :: b) = true := fun b =>
    goesOn_iff.mpr ⟨by rw [hs]; nofun, by rw [hs]; nofun, .inl (List.cons_ne_nil _ _)⟩
  rcases (show s.bytesNeeded = 1 ∨ s.bytesNeeded = 2 by omega) with h | h
  · apply consumed_cons_of_turned hg
    have hc : ∀ b, s.copyBasicHeaderBytes (x :: b) =
        ({ s with basicHeader := { s.basicHeader with b1 := x }, bytesNeeded := 0 }, 1) := by
      intro b
      simp [copyBasicHeaderBytes, h]
    simp only [turned, turn, hs, hc, Nat.lt_irrefl, if_false]
    generalize enterExtended _ = r
    obtain ⟨s', _ | e⟩ := r
    · exact .inl ⟨s', fun b => rfl⟩
    · exact .inr ⟨e, fun b => rfl⟩
  · refine consumed_cons_of_more { s with basicHeader := { s.basicHeader with b0 := x }, bytesNeeded := 1 } hg
      (by simp [hs]) (by simp [hs]) Nat.one_pos ?_ ?_
    · simp [turned, turn, hs, copyBasicHeaderBytes, h]
    · intro hb
      cases b with
      | nil => exact absurd rfl hb
      | cons y b =>
        simp only [turned, turn, hs, copyBasicHeaderBytes, h, Nat.lt_irrefl, if_false, if_true, List.drop_succ_cons,
          List.drop_zero, Nat.one_ne_zero, show (1 : Nat) ≠ 2 by decide, show (2 : Nat) ≠ 0 by decide]

end Hybi13

namespace ExtendedHeader
variable {e : ExtendedHeader} {offset : Nat} {a b : Bytes}

theorem put_put (h : offset ≤ e.bytes.length) : (e.put offset a).put (offset + a.length) b = e.put offset (a ++ b) := by
  have ht : (e.bytes.take offset).length = offset := List.length_take_of_le h
  have h1 : (e.bytes.take offset ++ a).length = offset + a.length := by rw [List.length_append, ht]
  rw [put, put, put]
  congr 1
  rw [← h1, List.take_left, ← List.drop_drop, List.drop_left, List.drop_drop, h1, List.append_assoc, List.append_assoc,
    List.append_assoc, List.append_assoc, List.length_append, Nat.add_assoc]

theorem length_put (h : offset + a.length ≤ e.bytes.length) : (e.put offset a).bytes.length = e.bytes.length := by
  rw [put, List.length_append, List.length_append, List.length_take_of_le (by omega), List.length_drop]
  omega

end ExtendedHeader

namespace Hybi13
variable {host : Host} {s s' : Hybi13} {buf a b : Bytes} {x : UInt8}

theorem storeExtended_append (h : s.cursor ≤ s.extendedHeader.bytes.length) :
    (s.storeExtended a).storeExtended b = s.storeExtended (a ++ b) := by
  rw [storeExtended, storeExtended, storeExtended]
  dsimp only
  rw [ExtendedHeader.put_put h, List.length_append, Nat.add_assoc, Nat.sub_sub]

private theorem consumed_cons_extended (hs : s.state = .headerExtended) (hn : 0 < s.bytesNeeded)
    (hc : s.cursor ≤ s.extendedHeader.bytes.length) : s.consumed host (x :: b) = resume host b (s.consumed host [x]) := by
  have hg : ∀ b, s.goesOn (x :: b) = true := fun b =>
    goesOn_iff.mpr ⟨by rw [hs]; nofun, by rw [hs]; nofun, .inl (List.cons_ne_nil _ _)⟩
  rcases (show s.bytesNeeded = 1 ∨ 1 < s.bytesNeeded by omega) with h | h
  · apply consumed_cons_of_turned hg
    have hc : ∀ b, s.copyExtendedHeaderBytes (x :: b) = (s.storeExtended [x], 1) := by
      intro b
      rw [copyExtendedHeaderBytes, h, List.length_cons, Nat.min_eq_left (by omega), List.take_succ_cons, List.take_zero]
    have hz : (s.storeExtended [x]).bytesNeeded = 0 := by rw [storeExtended, h]; rfl
    simp only [turned, turn, hs, hc, hz, Nat.lt_irrefl, if_false]
    generalize enterApplication host _ = r
    obtain ⟨s', _ | e⟩ := r
    · exact .inl ⟨s', fun b => rfl⟩
    · exact .inr ⟨e, fun b => rfl⟩
  · have hst : (s.storeExtended [x]).state = .headerExtended := hs
    have hnd : (s.storeExtended [x]).bytesNeeded = s.bytesNeeded - 1 := rfl
    refine consumed_cons_of_more (s.storeExtended [x]) hg (by rw [hst]; nofun) (by rw [hst]; nofun)
      (by rw [hnd]; omega) ?_ fun _ => ?_
    · have hm : min s.bytesNeeded 1 = 1 := by omega
      simp only [turned, turn, hs, copyExtendedHeaderBytes, List.length_singleton, hm, List.take_succ_cons,
        List.take_nil, hnd]
      rw [if_pos (by omega)]
      rfl
    · have hm : min s.bytesNeeded (b.length + 1) = min (s.bytesNeeded - 1) b.length + 1 := by omega
      have hcopy : s.copyExtendedHeaderBytes (x :: b) =
          (((s.storeExtended [x]).copyExtendedHeaderBytes b).1, ((s.storeExtended [x]).copyExtendedHeaderBytes b).2 + 1) := by
        rw [copyExtendedHeaderBytes, copyExtendedHeaderBytes, hnd, List.length_cons, hm, List.take_succ_cons]
        dsimp only
        rw [storeExtended_append hc]
        rfl
      simp only [turned, turn, hs, hst, hcopy]
      split_ifs
      · rfl
      · generalize enterApplication host _ = r
        obtain ⟨s', _ | e⟩ := r <;> rfl

@[simp] theorem current_setCurrent {m : MsgMetadata} : (s.setCurrent m).current = m := by
  unfold setCurrent current
  cases s.currentMsg <;> simp

@[simp] theorem setCurrent_setCurrent {m m' : MsgMetadata} : (s.setCurrent m).setCurrent m' = s.setCurrent m' := by
  unfold setCurrent
  cases s.currentMsg <;> simp

theorem setCurrent_fields {m : MsgMetadata} : (s.setCurrent m).basicHeader = s.basicHeader ∧
    (s.setCurrent m).bytesNeeded = s.bytesNeeded ∧ (s.setCurrent m).state = s.state ∧
    (s.setCurrent m).extendedHeader = s.extendedHeader ∧ (s.setCurrent m).cursor = s.cursor := by
  unfold setCurrent
  split <;> exact ⟨rfl, rfl, rfl, rfl, rfl⟩

@[simp] theorem isText_append {m : MsgMetadata} {k : UInt64} : (m.append a k).isText = m.isText := by
  unfold MsgMetadata.isText MsgMetadata.append
  rw [Option.map_map]
  rfl

/-- The current metadata after a piece of payload. -/
def fed (host : Host) (s : Hybi13) (buf : Bytes) : MsgMetadata :=
  { s.current.append (s.unmasked host buf).1 (s.unmasked host buf).2 with
    validator := if s.current.isText then (s.current.validator.decode (s.unmasked host buf).1).2 else s.current.validator }

/-- The processor after a piece of payload. -/
def afterPayload (host : Host) (s : Hybi13) (buf : Bytes) : Hybi13 :=
  { s.setCurrent (s.fed host buf) with bytesNeeded := s.bytesNeeded - buf.length }

/-- Payload bytes without what an error leaves behind. -/
def processed (host : Host) (s : Hybi13) (buf : Bytes) : Except ProcessorError Hybi13 :=
  if s.current.isText = true ∧ (s.current.validator.decode (s.unmasked host buf).1).1 = false then .error .invalidUtf8
  else .ok (s.afterPayload host buf)

theorem processPayloadBytes_processed : (s.processed host buf = .error .invalidUtf8 ∧
      (s.processPayloadBytes host buf).2 = (0, some .invalidUtf8)) ∨
    s.processed host buf = .ok (s.afterPayload host buf) ∧
      s.processPayloadBytes host buf = (s.afterPayload host buf, buf.length, none) := by
  unfold processPayloadBytes processed
  dsimp only
  rw [isText_append]
  by_cases ht : s.current.isText = true
  · by_cases hv : (s.current.validator.decode (s.unmasked host buf).1).1 = false
    · rw [if_pos ht, if_pos ⟨ht, hv⟩, if_pos (show ((s.current.append _ _).validator.decode _).1 = false from hv)]
      exact .inl ⟨rfl, rfl⟩
    · rw [if_pos ht, if_neg fun h => hv h.2, if_neg (show ¬ ((s.current.append _ _).validator.decode _).1 = false from hv)]
      refine .inr ⟨rfl, ?_⟩
      rw [afterPayload, fed, if_pos ht]
      rfl
  · rw [if_neg ht, if_neg fun h => ht h.1]
    refine .inr ⟨rfl, ?_⟩
    rw [afterPayload, fed, if_neg ht]
    rfl

theorem unmasked_append {c : Nat → UInt8} (h : Prepared host s.current.preparedKey c) : s.unmasked host (a ++ b) =
    ((s.unmasked host a).1 ++ ((s.afterPayload host a).unmasked host b).1, ((s.afterPayload host a).unmasked host b).2) := by
  have hh : (s.afterPayload host a).basicHeader = s.basicHeader := setCurrent_fields.1
  have hk : (s.afterPayload host a).current.preparedKey = (s.unmasked host a).2 :=
    congrArg MsgMetadata.preparedKey (current_setCurrent (s := s) (m := s.fed host a))
  have hb : (s.afterPayload host a).unmasked host b =
      if s.basicHeader.getMasked then byteMaskCirc host b (s.unmasked host a).2 else (b, (s.unmasked host a).2) := by
    rw [unmasked, hh, hk]
  rw [hb]
  unfold unmasked
  split_ifs
  · exact byteMaskCirc_append h
  · rfl

private theorem afterPayload_append
    (hu : s.unmasked host (a ++ b) =
      ((s.unmasked host a).1 ++ ((s.afterPayload host a).unmasked host b).1, ((s.afterPayload host a).unmasked host b).2))
    (hv : (s.fed host (a ++ b)).validator = ((s.afterPayload host a).fed host b).validator) :
    s.afterPayload host (a ++ b) = (s.afterPayload host a).afterPayload host b := by
  have hcur : (s.afterPayload host a).current = s.fed host a := current_setCurrent (s := s)
  have hfed : s.fed host (a ++ b) = (s.afterPayload host a).fed host b := by
    have hm : (s.fed host (a ++ b)).msgPtr = ((s.afterPayload host a).fed host b).msgPtr := by
      rw [fed, fed, hcur, fed, hu]
      dsimp only [MsgMetadata.append]
      rw [Option.map_map]
      congr 1
      funext m
      rw [Function.comp_apply, List.append_assoc]
    have hk : (s.fed host (a ++ b)).preparedKey = ((s.afterPayload host a).fed host b).preparedKey := by
      rw [fed, fed, hu]
      rfl
    generalize s.fed host (a ++ b) = m at hm hk hv ⊢
    generalize (s.afterPayload host a).fed host b = m' at hm hk hv ⊢
    obtain ⟨_, _, _⟩ := m
    obtain ⟨_, _, _⟩ := m'
    cases hm
    cases hk
    cases hv
    rfl
  have hset : ∀ m, (s.afterPayload host a).setCurrent m = { s.setCurrent m with bytesNeeded := s.bytesNeeded - a.length } := by
    intro m
    unfold afterPayload setCurrent
    cases hc : s.currentMsg <;> simp
  calc s.afterPayload host (a ++ b)
    _ = { s.setCurrent (s.fed host (a ++ b)) with bytesNeeded := s.bytesNeeded - (a ++ b).length } := rfl
    _ = { s.setCurrent ((s.afterPayload host a).fed host b) with bytesNeeded := s.bytesNeeded - a.length - b.length } := by
      rw [hfed, List.length_append, Nat.sub_sub]
    _ = { (s.afterPayload host a).setCurrent ((s.afterPayload host a).fed host b) with
          bytesNeeded := s.bytesNeeded - a.length - b.length } := by rw [hset]
    _ = (s.afterPayload host a).afterPayload host b := rfl

/-- A payload taken in two pieces. -/
theorem processed_append {c : Nat → UInt8} (h : Prepared host s.current.preparedKey c) : s.processed host (a ++ b) =
    match s.processed host a with
    | .error e => .error e
    | .ok s' => s'.processed host b := by
  have hcur : (s.afterPayload host a).current = s.fed host a := current_setCurrent (s := s)
  have htext : (s.fed host a).isText = s.current.isText := isText_append (k := (s.unmasked host a).2)
  have hu := unmasked_append (b := b) (a := a) h
  by_cases ht : s.current.isText = true
  · have hv : (s.fed host a).validator = (s.current.validator.decode (s.unmasked host a).1).2 := if_pos ht
    have hd := decode_append (v := s.current.validator) (a := (s.unmasked host a).1)
      (b := ((s.afterPayload host a).unmasked host b).1)
    by_cases ha : (s.current.validator.decode (s.unmasked host a).1).1 = false
    · have hab : (s.current.validator.decode (s.unmasked host (a ++ b)).1).1 = false := by
        rw [hu, hd]
        generalize s.current.validator.decode (s.unmasked host a).1 = d at ha ⊢
        obtain ⟨_ | _, v⟩ := d
        · rfl
        · cases ha
      have e : s.processed host a = .error .invalidUtf8 := if_pos ⟨ht, ha⟩
      rw [e]
      exact if_pos ⟨ht, hab⟩
    · have hab : s.current.validator.decode (s.unmasked host (a ++ b)).1 =
          (s.fed host a).validator.decode ((s.afterPayload host a).unmasked host b).1 := by
        rw [hu, hd, hv]
        generalize s.current.validator.decode (s.unmasked host a).1 = d at ha ⊢
        obtain ⟨_ | _, v⟩ := d
        · exact absurd rfl ha
        · rfl
      have e : s.processed host a = .ok (s.afterPayload host a) := if_neg fun h => ha h.2
      rw [e]
      dsimp only
      rw [processed, processed, hcur, htext, hab]
      split_ifs with hb
      · rfl
      · rw [afterPayload_append hu (by rw [fed, fed, if_pos ht, hcur, htext, if_pos ht, hab])]
  · have e : s.processed host a = .ok (s.afterPayload host a) := if_neg fun h => ht h.1
    rw [e]
    dsimp only
    rw [processed, processed, hcur, htext, if_neg fun h => ht h.1, if_neg fun h => ht h.1,
      afterPayload_append hu (by rw [fed, fed, if_neg ht, hcur, htext, if_neg ht, fed, if_neg ht])]

theorem turned_application (hs : s.state = .application) (hb : 0 < min s.bytesNeeded buf.length) :
    s.turned host buf = match s.processed host (buf.take (min s.bytesNeeded buf.length)) with
      | .error e => .error e
      | .ok s' =>
        if 0 < s'.bytesNeeded then .ok (s', buf.drop (min s.bytesNeeded buf.length))
        else match s'.endFrame.2 with
          | some e => .error e
          | none => .ok (s'.endFrame.1, buf.drop (min s.bytesNeeded buf.length)) := by
  have hl : (buf.take (min s.bytesNeeded buf.length)).length = min s.bytesNeeded buf.length := by
    rw [List.length_take]
    omega
  simp only [turned, turn, hs, if_pos hb]
  rcases processPayloadBytes_processed (s := s) with
    ⟨he, hp⟩ | ⟨he, hp⟩
  · rw [he]
    generalize s.processPayloadBytes host _ = r at hp ⊢
    obtain ⟨s', n, ec⟩ := r
    cases hp
    rfl
  · rw [he, hp, hl]
    simp only [Option.isSome_none, Bool.false_eq_true, if_false]
    split_ifs
    · rfl
    · generalize endFrame _ = r
      obtain ⟨s', _ | e⟩ := r <;> rfl

theorem afterPayload_state : (s.afterPayload host buf).state = s.state := setCurrent_fields.2.2.1

private theorem consumed_cons_application (hs : s.state = .application) (hn : 0 < s.bytesNeeded)
    {c : Nat → UInt8} (hk : Prepared host s.current.preparedKey c) :
    s.consumed host (x :: b) = resume host b (s.consumed host [x]) := by
  have hg : ∀ b, s.goesOn (x :: b) = true := fun b =>
    goesOn_iff.mpr ⟨by rw [hs]; nofun, by rw [hs]; nofun, .inl (List.cons_ne_nil _ _)⟩
  have hm : ∀ b : Bytes, min s.bytesNeeded (x :: b).length = min (s.bytesNeeded - 1) b.length + 1 := by
    intro b
    rw [List.length_cons]
    omega
  have ht : ∀ b : Bytes, s.turned host (x :: b) = _ := fun b => turned_application hs (by rw [hm]; omega)
  simp only [hm, List.take_succ_cons, List.drop_succ_cons] at ht
  cases hx : s.processed host [x] with
  | error e =>
    refine consumed_cons_of_turned hg (.inr ⟨e, fun b => ?_⟩)
    have hp := processed_append (b := b.take (min (s.bytesNeeded - 1) b.length)) (a := [x]) hk
    rw [hx] at hp
    rw [ht b, show s.processed host (x :: b.take _) = _ from hp]
  | ok s₁ =>
    have hs₁ : s₁ = s.afterPayload host [x] := by
      unfold processed at hx
      split_ifs at hx
      exact (Except.ok.inj hx).symm
    have hn₁ : s₁.bytesNeeded = s.bytesNeeded - 1 := by rw [hs₁]; rfl
    have hst : s₁.state = .application := by rw [hs₁, afterPayload_state, hs]
    have hp : ∀ b : Bytes, s.processed host (x :: b) = s₁.processed host b := by
      intro b
      have hp := processed_append (b := b) (a := [x]) hk
      rw [hx] at hp
      exact hp
    rcases (show s.bytesNeeded = 1 ∨ 1 < s.bytesNeeded by omega) with h | h
    · apply consumed_cons_of_turned hg
      have ht1 : ∀ b, s.turned host (x :: b) = match s₁.endFrame.2 with
          | some e => .error e
          | none => .ok (s₁.endFrame.1, b) := by
        intro b
        rw [ht b, h, Nat.sub_self, Nat.zero_min, List.take_zero, hx]
        dsimp only
        rw [if_neg (by omega)]
        rfl
      simp only [ht1]
      generalize s₁.endFrame = r
      obtain ⟨s', _ | e⟩ := r
      · exact .inl ⟨s', fun b => rfl⟩
      · exact .inr ⟨e, fun b => rfl⟩
    · refine consumed_cons_of_more _ hg (by rw [hst]; nofun) (by rw [hst]; nofun) (by rw [hn₁]; omega) ?_ fun hb => ?_
      · rw [ht []]
        simp only [List.take_nil, List.drop_nil, hx, hn₁]
        rw [if_pos (by omega)]
      · have hl := List.length_pos_iff.mpr hb
        rw [ht b, turned_application hst (by rw [hn₁]; omega), hn₁, hp]

/-- The loop treats the first byte as it would alone. -/
theorem consumed_cons (h : Waiting host s) : s.consumed host (x :: b) = resume host b (s.consumed host [x]) := by
  rcases h.reading with ⟨hs, h2⟩ | ⟨hs, hc⟩ | ⟨hs, c, hk⟩
  · exact consumed_cons_basic hs h.needs h2
  · exact consumed_cons_extended hs h.needs (by rw [h.buffer]; omega)
  · exact consumed_cons_application hs h.needs hk

/-- What the passes of the loop keep holds where it stops. -/
theorem consumed_invariant (P : Hybi13 → Bytes → Prop)
    (hstep : ∀ s buf s' rest, P s buf → s.goesOn buf = true → s.turned host buf = .ok (s', rest) → P s' rest)
    {rest : Bytes} (h : P s buf) (hc : s.consumed host buf = .ok (s', rest)) : P s' rest ∧ ¬ s'.goesOn rest = true := by
  induction s, buf using Hybi13.consume.induct host with
  | case1 s buf hg r hec ih =>
    rw [consumed_turn hg] at hc
    have ht : s.turned host buf = .ok (r.1, buf.drop r.2.1) := by
      change (match r.2.2 with | some e => _ | none => _) = _
      rw [hec]
    rw [ht] at hc
    exact ih (hstep s buf _ _ h hg ht) hc
  | case2 s buf hg r hec =>
    rw [consumed_turn hg] at hc
    have ht : ∃ e, s.turned host buf = .error e := by
      obtain ⟨e, he⟩ := Option.ne_none_iff_exists'.mp hec
      refine ⟨e, ?_⟩
      change (match r.2.2 with | some e => _ | none => _) = _
      rw [he]
    obtain ⟨e, he⟩ := ht
    rw [he] at hc
    cases hc
  | case3 s buf hg =>
    rw [consumed_stop hg] at hc
    cases hc
    exact ⟨h, hg⟩

/-- Between the passes of the loop. -/
structure Held (host : Host) (s : Hybi13) : Prop where
  reading : s.state = .headerBasic ∧ s.bytesNeeded ≤ 2 ∨
    s.state = .headerExtended ∧ s.cursor + s.bytesNeeded ≤ maxExtendedHeaderLength ∨
    s.state = .application ∧ (∃ c, Prepared host s.current.preparedKey c) ∨ s.state = .ready
  buffer : s.extendedHeader.bytes.length = maxExtendedHeaderLength

theorem enterExtended_ok (h : s.enterExtended = (s', none)) :
    validateIncomingBasicHeader s.basicHeader s.server s.dataMsg.msgPtr.isNone = none ∧
      s' = { s with
        state := .headerExtended, cursor := 0, bytesNeeded := s.basicHeader.getHeaderLen - basicHeaderLength } := by
  unfold enterExtended at h
  split at h
  · cases h
  · next hv => exact ⟨hv, (Prod.mk.inj h).1.symm⟩

theorem startData_eq {op : Opcode} {key : UInt32} : s.startData op key =
    if s.maxMessageSize < Message.sizeWith s.dataMsg.msgPtr s.bytesNeeded then (s, some .messageTooBig)
    else ({ s with dataMsg := s.dataMsg.next op key, currentMsg := .data }, none) := by
  unfold startData Message.sizeWith MsgMetadata.next
  split
  · next h => simp [h]
  · next out h => simp [h]

/-- The header of a frame whose payload is about to be read. -/
structure Entered (host : Host) (s s' : Hybi13) : Prop where
  valid : validateIncomingExtendedHeader host s.basicHeader s.extendedHeader = none
  basicHeader : s'.basicHeader = s.basicHeader
  extendedHeader : s'.extendedHeader = s.extendedHeader
  server : s'.server = s.server
  maxMessageSize : s'.maxMessageSize = s.maxMessageSize
  state : s'.state = .application
  bytesNeeded : s'.bytesNeeded = getPayloadSize host s.basicHeader s.extendedHeader
  control : s.basicHeader.getOpcode.isControl = true → s'.currentMsg = .control ∧ s'.dataMsg = s.dataMsg ∧
    s'.controlMsg = .start s.basicHeader.getOpcode (getMaskingKey host s.basicHeader s.extendedHeader)
  data : s.basicHeader.getOpcode.isControl = false → s'.currentMsg = .data ∧ s'.controlMsg = s.controlMsg ∧
    s'.dataMsg = s.dataMsg.next s.basicHeader.getOpcode (getMaskingKey host s.basicHeader s.extendedHeader) ∧
    Message.sizeWith s.dataMsg.msgPtr s'.bytesNeeded ≤ s.maxMessageSize

theorem enterApplication_ok (h : s.enterApplication host = (s', none)) : Entered host s s' := by
  unfold enterApplication at h
  split at h
  · cases h
  next hv =>
  dsimp only at h
  split_ifs at h with hc
  · cases h
    exact ⟨hv, rfl, rfl, rfl, rfl, rfl, rfl, fun _ => ⟨rfl, rfl, rfl⟩, fun hn => absurd (hc.symm.trans hn) (by decide)⟩
  · rw [startData_eq] at h
    split_ifs at h with hm
    · cases h
    · cases h
      exact ⟨hv, rfl, rfl, rfl, rfl, rfl, rfl, fun hn => absurd hn hc, fun _ => ⟨rfl, rfl, rfl, Nat.le_of_not_lt hm⟩⟩

theorem endFrame_ok (h : s.endFrame = (s', none)) :
    s.basicHeader.getFin = true ∧ s' = { s with state := .ready } ∧
        (s.basicHeader.getOpcode = .text → s.current.validator.complete = true) ∨
      s.basicHeader.getFin = false ∧ s' = s.resetHeaders := by
  unfold endFrame finalizeMessage at h
  split_ifs at h with hf ht
  · cases h
  · refine .inl ⟨hf, (Prod.mk.inj h).1.symm, fun hop => ?_⟩
    by_contra hc
    exact ht ⟨hop, Bool.eq_false_iff.mpr hc⟩
  · exact .inr ⟨Bool.eq_false_iff.mpr hf, (Prod.mk.inj h).1.symm⟩

theorem turn_extended (hs : s.state = .headerExtended) : s.turn host buf =
    if s.bytesNeeded ≤ buf.length then
      (((s.storeExtended (buf.take s.bytesNeeded)).enterApplication host).1, s.bytesNeeded,
        ((s.storeExtended (buf.take s.bytesNeeded)).enterApplication host).2)
    else (s.storeExtended buf, buf.length, none) := by
  by_cases h : s.bytesNeeded ≤ buf.length
  · have hc : s.copyExtendedHeaderBytes buf = (s.storeExtended (buf.take s.bytesNeeded), s.bytesNeeded) := by
      rw [copyExtendedHeaderBytes, Nat.min_eq_left h]
    have hz : (s.storeExtended (buf.take s.bytesNeeded)).bytesNeeded = 0 := by
      rw [storeExtended, List.length_take_of_le h]
      exact Nat.sub_self _
    simp only [turn, hs, hc, hz, Nat.lt_irrefl, if_false, if_pos h]
  · have hc : s.copyExtendedHeaderBytes buf = (s.storeExtended buf, buf.length) := by
      rw [copyExtendedHeaderBytes, Nat.min_eq_right (by omega), List.take_length]
    have hn : 0 < (s.storeExtended buf).bytesNeeded := Nat.sub_pos_of_lt (by omega)
    simp only [turn, hs, hc, if_pos hn, if_neg h]

/-- What a pass that meets no error does. -/
theorem turned_cases {rest : Bytes} (h : s.turned host buf = .ok (s', rest)) :
    s.state = .headerBasic ∧ rest = buf.drop (s.copyBasicHeaderBytes buf).2 ∧
        (0 < (s.copyBasicHeaderBytes buf).1.bytesNeeded ∧ s' = (s.copyBasicHeaderBytes buf).1 ∨
          (s.copyBasicHeaderBytes buf).1.bytesNeeded = 0 ∧ (s.copyBasicHeaderBytes buf).1.enterExtended = (s', none)) ∨
      s.state = .headerExtended ∧ rest = buf.drop (min s.bytesNeeded buf.length) ∧
        (min s.bytesNeeded buf.length < s.bytesNeeded ∧ s' = s.storeExtended (buf.take (min s.bytesNeeded buf.length)) ∨
          s.bytesNeeded ≤ buf.length ∧ (s.storeExtended (buf.take s.bytesNeeded)).enterApplication host = (s', none)) ∨
      s.state = .extension ∧ rest = buf ∧ s' = { s with state := .application } ∨
      s.state = .application ∧ rest = buf.drop (min s.bytesNeeded buf.length) ∧
        ∃ s₁, (s₁ = s ∧ min s.bytesNeeded buf.length = 0 ∨
            s.processed host (buf.take (min s.bytesNeeded buf.length)) = .ok s₁) ∧
          (0 < s₁.bytesNeeded ∧ s' = s₁ ∨ s₁.bytesNeeded = 0 ∧ s₁.endFrame = (s', none)) := by
  have hpair : ∀ {r : Hybi13 × Option ProcessorError} {b : Bytes},
      (match r.2 with | some e => Except.error e | none => .ok (r.1, b)) = .ok (s', rest) → r = (s', none) ∧ rest = b := by
    rintro ⟨s₁, _ | e⟩ b h
    · cases h
      exact ⟨rfl, rfl⟩
    · cases h
  have hs : s.state ≠ .ready ∧ s.state ≠ .fatalError := by
    constructor <;> intro hs <;> simp [turned, turn, hs] at h
  rcases hst : s.state with _ | _ | _ | _ | _ | _
  · simp only [turned, turn, hst] at h
    split_ifs at h with hn
    · cases h
      exact .inl ⟨rfl, rfl, .inl ⟨hn, rfl⟩⟩
    · obtain ⟨he, hr⟩ := hpair h
      exact .inl ⟨rfl, hr, .inr ⟨by omega, he⟩⟩
  · rw [turned, turn_extended hst] at h
    split_ifs at h with hn
    · obtain ⟨he, hr⟩ := hpair h
      exact .inr (.inl ⟨rfl, by rw [hr, Nat.min_eq_left hn], .inr ⟨hn, he⟩⟩)
    · cases h
      rw [Nat.min_eq_right (by omega), List.take_length]
      exact .inr (.inl ⟨rfl, rfl, .inl ⟨by omega, rfl⟩⟩)
  · simp only [turned, turn, hst] at h
    cases h
    exact .inr (.inr (.inl ⟨rfl, rfl, rfl⟩))
  · refine .inr (.inr (.inr ⟨rfl, ?_⟩))
    by_cases hm : 0 < min s.bytesNeeded buf.length
    · rw [turned_application hst hm] at h
      split at h
      · cases h
      · next s₁ hp =>
        split_ifs at h with hn
        · cases h
          exact ⟨rfl, _, .inr hp, .inl ⟨hn, rfl⟩⟩
        · obtain ⟨he, hr⟩ := hpair h
          exact ⟨hr, s₁, .inr hp, .inr ⟨by omega, he⟩⟩
    · have hz : min s.bytesNeeded buf.length = 0 := by omega
      simp only [turned, turn, hst, hz, Nat.lt_irrefl, if_false, Option.isSome_none, Bool.false_eq_true] at h
      split_ifs at h with hn
      · cases h
        exact ⟨by rw [hz], s, .inl ⟨rfl, hz⟩, .inl ⟨hn, rfl⟩⟩
      · obtain ⟨he, hr⟩ := hpair h
        exact ⟨by rw [hr, hz], s, .inl ⟨rfl, hz⟩, .inr ⟨by omega, he⟩⟩
  · exact absurd hst hs.1
  · exact absurd hst hs.2

theorem getHeaderLen_le (h : BasicHeader) : h.getHeaderLen - basicHeaderLength ≤ maxExtendedHeaderLength := by
  unfold BasicHeader.getHeaderLen BasicHeader.getMaskingKeyOffset basicHeaderLength maxExtendedHeaderLength
  split_ifs <;> omega

theorem copyBasicHeaderBytes_fields (s : Hybi13) (buf : Bytes) : (s.copyBasicHeaderBytes buf).1.state = s.state ∧
    (s.copyBasicHeaderBytes buf).1.extendedHeader = s.extendedHeader ∧
    (s.copyBasicHeaderBytes buf).1.bytesNeeded ≤ s.bytesNeeded := by
  unfold copyBasicHeaderBytes
  split
  · exact ⟨rfl, rfl, Nat.le_refl _⟩
  split_ifs
  · exact ⟨rfl, rfl, Nat.le_refl _⟩
  · split <;> exact ⟨rfl, rfl, Nat.sub_le _ _⟩
  · exact ⟨rfl, rfl, Nat.sub_le _ _⟩

theorem prepared_next {m : MsgMetadata} {op : Opcode} {key : UInt32} :
    Prepared host (m.next op key).preparedKey (keyStream host key) := by
  unfold MsgMetadata.next
  split_ifs <;> exact prepared_prepareMaskingKey

theorem Entered.prepared (h : Entered host s s') :
    Prepared host s'.current.preparedKey (keyStream host (getMaskingKey host s.basicHeader s.extendedHeader)) := by
  unfold current
  by_cases hc : s.basicHeader.getOpcode.isControl = true
  · obtain ⟨hslot, _, hm⟩ := h.control hc
    rw [hslot, hm]
    exact prepared_prepareMaskingKey
  · obtain ⟨hslot, _, hm, _⟩ := h.data (Bool.eq_false_iff.mpr hc)
    rw [hslot, hm]
    exact prepared_next

theorem processed_ok (h : s.processed host buf = .ok s') : s' = s.afterPayload host buf ∧
    (s.current.isText = true → (s.current.validator.decode (s.unmasked host buf).1).1 = true) := by
  unfold processed at h
  split_ifs at h with hc
  refine ⟨(Except.ok.inj h).symm, fun ht => ?_⟩
  by_contra hd
  exact hc ⟨ht, Bool.eq_false_iff.mpr hd⟩

theorem prepared_afterPayload {c : Nat → UInt8} (h : Prepared host s.current.preparedKey c) :
    ∃ c', Prepared host (s.afterPayload host buf).current.preparedKey c' := by
  have hk : (s.afterPayload host buf).current.preparedKey = (s.unmasked host buf).2 :=
    congrArg MsgMetadata.preparedKey (current_setCurrent (s := s) (m := s.fed host buf))
  rw [hk, unmasked]
  split_ifs
  · exact ⟨_, (byteMaskCirc_prepared h).2⟩
  · exact ⟨c, h⟩

theorem Held.turned {rest : Bytes} (h : Held host s) (ht : s.turned host buf = .ok (s', rest)) : Held host s' := by
  rcases turned_cases ht with ⟨hs, _, h'⟩ | ⟨hs, _, h'⟩ | ⟨hs, _, _⟩ | ⟨hs, _, s₁, hs₁, h'⟩
  · obtain ⟨hst, hbuf, hle⟩ := s.copyBasicHeaderBytes_fields buf
    have h2 : s.bytesNeeded ≤ 2 := by
      rcases h.reading with h | h | h | h
      · exact h.2
      all_goals simp [hs] at h
    rcases h' with ⟨_, rfl⟩ | ⟨_, he⟩
    · exact ⟨.inl ⟨hst.trans hs, hle.trans h2⟩, by rw [hbuf]; exact h.buffer⟩
    · obtain ⟨_, rfl⟩ := enterExtended_ok he
      refine ⟨.inr (.inl ⟨rfl, ?_⟩), by rw [hbuf]; exact h.buffer⟩
      dsimp only
      rw [Nat.zero_add]
      exact getHeaderLen_le _
  · have hc : s.cursor + s.bytesNeeded ≤ s.extendedHeader.bytes.length := by
      rw [h.buffer]
      rcases h.reading with h | h | h | h
      · simp [hs] at h
      · exact h.2
      all_goals simp [hs] at h
    have hput : ∀ n ≤ s.bytesNeeded, n ≤ buf.length →
        (s.storeExtended (buf.take n)).extendedHeader.bytes.length = maxExtendedHeaderLength := by
      intro n hn hl
      rw [storeExtended, ExtendedHeader.length_put (by rw [List.length_take_of_le hl]; omega), h.buffer]
    rcases h' with ⟨hlt, rfl⟩ | ⟨hle, he⟩
    · refine ⟨.inr (.inl ⟨hs, ?_⟩), hput _ (Nat.min_le_left _ _) (Nat.min_le_right _ _)⟩
      rw [h.buffer] at hc
      simp only [storeExtended, List.length_take]
      omega
    · have hen := enterApplication_ok he
      exact ⟨.inr (.inr (.inl ⟨hen.state, _, hen.prepared⟩)), by rw [hen.extendedHeader]; exact hput _ (Nat.le_refl _) hle⟩
  · rcases h.reading with h | h | h | h <;> simp [hs] at h
  · obtain ⟨c, hk⟩ : ∃ c, Prepared host s.current.preparedKey c := by
      rcases h.reading with h | h | h | h
      · simp [hs] at h
      · simp [hs] at h
      · exact h.2
      · simp [hs] at h
    have h₁ : s₁.state = .application ∧ (∃ c, Prepared host s₁.current.preparedKey c) ∧
        s₁.extendedHeader.bytes.length = maxExtendedHeaderLength := by
      rcases hs₁ with ⟨rfl, _⟩ | hp
      · exact ⟨hs, ⟨c, hk⟩, h.buffer⟩
      · obtain ⟨rfl, _⟩ := processed_ok hp
        exact ⟨afterPayload_state.trans hs, prepared_afterPayload hk,
          (congrArg (fun e => e.bytes.length) setCurrent_fields.2.2.2.1).trans h.buffer⟩
    rcases h' with ⟨_, rfl⟩ | ⟨_, he⟩
    · exact ⟨.inr (.inr (.inl ⟨h₁.1, h₁.2.1⟩)), h₁.2.2⟩
    · rcases endFrame_ok he with ⟨_, rfl, _⟩ | ⟨_, rfl⟩
      · exact ⟨.inr (.inr (.inr rfl)), h₁.2.2⟩
      · exact ⟨.inl ⟨rfl, Nat.le_refl _⟩, rfl⟩

theorem held_of_waiting (h : Waiting host s) : Held host s := by
  refine ⟨?_, h.buffer⟩
  rcases h.reading with h | h | h
  · exact .inl h
  · exact .inr (.inl h)
  · exact .inr (.inr (.inl h))

theorem Held.waiting (h : Held host s) (hg : ¬ s.goesOn [] = true) (hr : s.state ≠ .ready) : Waiting host s := by
  have hn : 0 < s.bytesNeeded := by
    refine Nat.pos_of_ne_zero fun h0 => hg (goesOn_iff.mpr ⟨hr, ?_, .inr h0⟩)
    rcases h.reading with h | h | h | h
    · simp [h.1]
    · simp [h.1]
    · simp [h.1]
    · exact absurd h hr
  refine ⟨hn, ?_, h.buffer⟩
  rcases h.reading with h | h | h | h
  · exact .inl h
  · exact .inr (.inl h)
  · exact .inr (.inr h)
  · exact absurd h hr

/-- One byte is always taken, and then a message is ready or more bytes are needed. -/
theorem consumed_singleton {rest : Bytes} (h : Waiting host s) (hc : s.consumed host [x] = .ok (s', rest)) :
    rest = [] ∧ (s'.state = .ready ∨ Waiting host s') := by
  have hone : ∀ {n : Nat}, 0 < n → List.drop (min n [x].length) [x] = [] := by
    intro n hn
    rw [List.length_singleton, Nat.min_eq_right hn]
    rfl
  have hP := consumed_invariant (fun s buf => Held host s ∧ (buf = [] ∨ buf = [x] ∧ Waiting host s)) (by
    rintro s buf s' rest ⟨hh, hb⟩ _ ht
    refine ⟨hh.turned ht, .inl ?_⟩
    rcases hb with rfl | ⟨rfl, hw⟩
    · rcases turned_cases ht with ⟨_, hr, _⟩ | ⟨_, hr, _⟩ | ⟨_, hr, _⟩ | ⟨_, hr, _⟩ <;> simpa using hr
    · have hn := hw.needs
      rcases turned_cases ht with ⟨_, hr, _⟩ | ⟨_, hr, _⟩ | ⟨hs, _, _⟩ | ⟨_, hr, _⟩
      · rw [hr]
        refine List.drop_eq_nil_of_le (Nat.one_le_iff_ne_zero.mpr fun h0 => ?_)
        rcases (copyBasicHeaderBytes_taken.2 h0).2 with h | h
        · exact List.cons_ne_nil _ _ h
        · omega
      · rw [hr, hone hn]
      · rcases hh.reading with h | h | h | h <;> simp [hs] at h
      · rw [hr, hone hn]) ⟨held_of_waiting h, .inr ⟨rfl, h⟩⟩ hc
  obtain ⟨⟨hh, hb⟩, hg⟩ := hP
  rcases hb with rfl | ⟨rfl, hw⟩
  · refine ⟨rfl, ?_⟩
    by_cases hr : s'.state = .ready
    · exact .inl hr
    · exact .inr (hh.waiting hg hr)
  · refine absurd (goesOn_iff.mpr ⟨?_, ?_, .inl (List.cons_ne_nil _ _)⟩) hg <;>
      rcases hw.reading with h | h | h <;> simp [h.1]

theorem waiting_resetHeaders : Waiting host s.resetHeaders :=
  ⟨Nat.two_pos, .inl ⟨rfl, Nat.le_refl _⟩, rfl⟩

theorem waiting_getMessage (h : s.state = .ready) : Waiting host s.getMessage.2 := by
  rw [getMessage, if_neg (not_not_intro h)]
  split <;> exact waiting_resetHeaders

theorem consumed_nil (h : Waiting host s) : s.consumed host [] = .ok (s, []) :=
  consumed_stop (not_goesOn_of_needs h.needs)

/-- Some bytes are always taken, and then a message is ready or more bytes are needed. -/
theorem consumed_taken {rest : Bytes} (h : Waiting host s) (hc : s.consumed host (x :: b) = .ok (s', rest)) :
    rest.length ≤ b.length ∧ (s'.state = .ready ∨ rest = [] ∧ Waiting host s') := by
  induction b generalizing s x with
  | nil =>
    obtain ⟨rfl, hs'⟩ := consumed_singleton h hc
    exact ⟨Nat.le_refl _, hs'.imp_right fun hw => ⟨rfl, hw⟩⟩
  | cons y b ih =>
    rw [consumed_cons h] at hc
    cases hx : s.consumed host [x] with
    | error e =>
      rw [hx] at hc
      cases hc
    | ok p =>
      obtain ⟨s₁, rest₁⟩ := p
      obtain ⟨rfl, hs₁⟩ := consumed_singleton h hx
      rw [hx, resume] at hc
      split_ifs at hc with hr
      · cases hc
        exact ⟨Nat.le_refl _, .inl hr⟩
      · obtain ⟨hl, hs'⟩ := ih (hs₁.resolve_left hr) hc
        exact ⟨Nat.le_succ_of_le hl, hs'⟩

end Hybi13

section Loop
variable {host : Host} {s s' : Hybi13} {buf b : Bytes} {x : UInt8} {fuel : Nat}

open Hybi13

private theorem readLoop_nil : readLoop host fuel s [] = ([], .ok s) := by
  cases fuel <;> rfl

private theorem readLoop_cons : readLoop host (fuel + 1) s (x :: b) =
    match s.consumed host (x :: b) with
    | .error e => ([], .error e)
    | .ok (s', rest) =>
      if s'.state = .ready then
        (s'.getMessage.1.toList ++ (readLoop host fuel s'.getMessage.2 rest).1, (readLoop host fuel s'.getMessage.2 rest).2)
      else readLoop host fuel s' rest := by
  rw [readLoop, if_neg (List.cons_ne_nil _ _), consumed]
  dsimp only
  generalize s.consume host (x :: b) = r
  obtain ⟨s', n, _ | e⟩ := r <;> rfl

/-- Passes enough for the bytes there are end the read. -/
private theorem readLoop_enough (h : Waiting host s) (hf : buf.length ≤ fuel) :
    readLoop host fuel s buf = readLoop host buf.length s buf := by
  induction hn : buf.length using Nat.strongRecOn generalizing s buf fuel with
  | ind n ih =>
    cases buf with
    | nil => rw [readLoop_nil, readLoop_nil]
    | cons x b =>
      obtain ⟨fuel, rfl⟩ : ∃ m, fuel = m + 1 := ⟨fuel - 1, by rw [List.length_cons] at hf; omega⟩
      rw [List.length_cons] at hf hn
      subst hn
      rw [readLoop_cons, readLoop_cons]
      cases hc : s.consumed host (x :: b) with
      | error e => rfl
      | ok p =>
        obtain ⟨s', rest⟩ := p
        obtain ⟨hl, hs'⟩ := consumed_taken h hc
        dsimp only
        split_ifs with hr
        · have hw : Waiting host s'.getMessage.2 := waiting_getMessage hr
          rw [ih _ (Nat.lt_succ_of_le hl) hw (by omega) rfl,
            ← ih _ (Nat.lt_succ_of_le hl) hw hl rfl]
        · obtain ⟨rfl, _⟩ := hs'.resolve_left hr
          rw [readLoop_nil, readLoop_nil]

private theorem readBytes_singleton (h : Waiting host s) : readBytes host s [x] =
    match s.consumed host [x] with
    | .error e => ([], .error e)
    | .ok (s', _) => if s'.state = .ready then (s'.getMessage.1.toList, .ok s'.getMessage.2) else ([], .ok s') := by
  rw [readBytes, List.length_singleton, readLoop_cons]
  cases hc : s.consumed host [x] with
  | error e => rfl
  | ok p =>
    obtain ⟨s', rest⟩ := p
    obtain ⟨rfl, _⟩ := consumed_singleton h hc
    dsimp only
    rw [readLoop_nil, readLoop_nil, List.append_nil]

/-- A read treats its first byte as a read of that byte alone. -/
theorem readBytes_elementwise : Elementwise (readBytes host) (Waiting host) where
  nil s _ := readLoop_nil
  cons s x b h := by
    rw [readBytes_singleton h, readBytes, List.length_cons, readLoop_cons, consumed_cons h]
    cases hc : s.consumed host [x] with
    | error e => rfl
    | ok p =>
      obtain ⟨s₁, rest⟩ := p
      obtain ⟨rfl, hs₁⟩ := consumed_singleton h hc
      simp only [resume]
      split_ifs with hr
      · dsimp only
        rw [if_pos hr, andThen_ok]
        rfl
      · have hw := hs₁.resolve_left hr
        rw [andThen_ok, List.nil_append]
        change _ = readBytes host s₁ b
        cases b with
        | nil =>
          rw [consumed_nil hw]
          dsimp only
          rw [if_neg hr]
          rfl
        | cons y b =>
          rw [readBytes, List.length_cons, readLoop_cons]
          cases hc' : s₁.consumed host (y :: b) with
          | error e => rfl
          | ok p =>
            obtain ⟨s₂, rest⟩ := p
            obtain ⟨hl, hs₂⟩ := consumed_taken hw hc'
            dsimp only
            split_ifs with hr₂
            · rw [readLoop_enough (waiting_getMessage hr₂) (Nat.le_succ_of_le hl),
                readLoop_enough (waiting_getMessage hr₂) hl]
            · obtain ⟨rfl, _⟩ := hs₂.resolve_left hr₂
              rw [readLoop_nil, readLoop_nil]
  keeps s x s' h hr := by
    rw [readBytes_singleton h] at hr
    cases hc : s.consumed host [x] with
    | error e =>
      rw [hc] at hr
      cases hr
    | ok p =>
      obtain ⟨s₁, rest⟩ := p
      obtain ⟨_, hs₁⟩ := consumed_singleton h hc
      rw [hc] at hr
      dsimp only at hr
      split_ifs at hr with hready
      · cases hr
        exact waiting_getMessage hready
      · cases hr
        exact hs₁.resolve_left hready

/-- A read is one pass and a read of what the pass left. -/
theorem readBytes_turn (h : Waiting host s) : readBytes host s (x :: b) =
    match s.consumed host (x :: b) with
    | .error e => ([], .error e)
    | .ok (s', rest) =>
      if s'.state = .ready then
        (s'.getMessage.1.toList ++ (readBytes host s'.getMessage.2 rest).1, (readBytes host s'.getMessage.2 rest).2)
      else readBytes host s' rest := by
  rw [readBytes, List.length_cons, readLoop_cons]
  cases hc : s.consumed host (x :: b) with
  | error e => rfl
  | ok p =>
    obtain ⟨s', rest⟩ := p
    obtain ⟨hl, hs'⟩ := consumed_taken h hc
    dsimp only
    split_ifs with hr
    · rw [readLoop_enough (waiting_getMessage hr) hl]
      rfl
    · obtain ⟨rfl, _⟩ := hs'.resolve_left hr
      rw [readLoop_nil, readBytes, List.length_nil, readLoop]

theorem readBytes_error {e : ProcessorError} (h : s.consumed host (x :: b) = .error e) :
    readBytes host s (x :: b) = ([], .error e) := by
  rw [readBytes, List.length_cons, readLoop_cons, h]

/-- A read whose bytes the loop takes all at once. -/
theorem readBytes_whole (h : s.consumed host (x :: b) = .ok (s', [])) : readBytes host s (x :: b) =
    if s'.state = .ready then (s'.getMessage.1.toList, .ok s'.getMessage.2) else ([], .ok s') := by
  rw [readBytes, List.length_cons, readLoop_cons, h]
  dsimp only
  rw [readLoop_nil, readLoop_nil, List.append_nil]

/-- A read completes no message when the loop stops short of one. -/
theorem readBytes_short (hw : Waiting host s)
    (h : ∀ s' rest, s.consumed host buf = .ok (s', rest) → s'.state ≠ .ready) : (readBytes host s buf).1 = [] := by
  cases buf with
  | nil => rw [readBytes_elementwise.nil s hw]
  | cons x b =>
    rw [readBytes, List.length_cons, readLoop_cons]
    cases hc : s.consumed host (x :: b) with
    | error e => rfl
    | ok p =>
      obtain ⟨s', rest⟩ := p
      have hr := h s' rest hc
      obtain ⟨rfl, _⟩ := (consumed_taken hw hc).2.resolve_left hr
      dsimp only
      rw [if_neg hr, readLoop_nil]

theorem waiting_init (server : Bool) (maxMessageSize : Nat) : Waiting host (.init server maxMessageSize) :=
  ⟨Nat.two_pos, .inl ⟨rfl, Nat.le_refl _⟩, rfl⟩

end Loop

end DeribitClientServer.Transport
