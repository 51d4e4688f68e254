import DeribitClientServer.Transport.Frames

/-! A connection's whole byte stream: its frames, and the messages they complete. -/
namespace DeribitClientServer.Transport
open Library Library.Utf8 Library.Endian Library.Mask Library.Chunked

/-- The first frame of a byte string and what follows it, when it is whole. -/
def splitFrame (host : Host) : Bytes → Option (WireFrame × Bytes)
  | x :: y :: rest =>
    let h : BasicHeader := ⟨x, y⟩
    let n := h.getHeaderLen - basicHeaderLength
    let size := getPayloadSize host h (ExtendedHeader.empty.put 0 (rest.take n))
    if rest.length < n + size then none
    else some (⟨h, rest.take n, (rest.drop n).take size⟩, (rest.drop n).drop size)
  | _ => none

/-- The whole frames a byte string starts with. -/
def framesIn (host : Host) : Nat → Bytes → List WireFrame
  | 0, _ => []
  | n + 1, b =>
    match splitFrame host b with
    | none => []
    | some (f, rest) => f :: framesIn host n rest

/-- Each frame takes at least two bytes. -/
def framesOf (host : Host) (b : Bytes) : List WireFrame := framesIn host b.length b

/-- The messages a list of frames completes, and the message pending after it or the
error that stopped it. -/
def framesRun (host : Host) (server : Bool) (maxMessageSize : Nat) :
    Option Message → List WireFrame → List Message × Except ProcessorError (Option Message)
  | pending, [] => ([], .ok pending)
  | pending, f :: fs =>
    match frameStep host server maxMessageSize pending f with
    | .error e => ([], .error e)
    | .ok (pending', out) =>
      (out.toList ++ (framesRun host server maxMessageSize pending' fs).1,
        (framesRun host server maxMessageSize pending' fs).2)

section Split
variable {host : Host} {server : Bool} {maxMessageSize n : Nat} {pending : Option Message} {s : Hybi13} {f : WireFrame}
  {b rest : Bytes}

open Hybi13

theorem splitFrame_some (h : splitFrame host b = some (f, rest)) : f.WellSized host ∧ b = f.bytes ++ rest := by
  unfold splitFrame at h
  split at h
  · next x y more =>
    dsimp only at h
    split_ifs at h with hl
    cases h
    refine ⟨⟨List.length_take_of_le (by omega), ?_⟩, ?_⟩
    · refine List.length_take_of_le ?_
      rw [List.length_drop]
      omega
    · simp only [WireFrame.bytes, List.cons_append, List.append_assoc, List.take_append_drop]
  · cases h

theorem splitFrame_bytes (hf : f.WellSized host) : splitFrame host (f.bytes ++ rest) = some (f, rest) := by
  obtain ⟨basic, extended, raw⟩ := f
  obtain ⟨he, hr⟩ := hf
  dsimp only at he hr
  simp only [splitFrame, WireFrame.bytes, List.cons_append, List.append_assoc]
  rw [← he, List.take_left, List.drop_left]
  change (if _ < _ + getPayloadSize host basic (ExtendedHeader.empty.put 0 extended) then _ else _) = _
  rw [WireFrame.header] at hr
  rw [← hr, if_neg (by simp only [List.length_append]; omega), List.take_left, List.drop_left]

/-- A byte string is its whole frames and a rest that holds none. -/
theorem framesIn_bytes (hn : b.length ≤ n) : ∃ tail, b = (framesIn host n b).flatMap WireFrame.bytes ++ tail ∧
    splitFrame host tail = none ∧ ∀ f ∈ framesIn host n b, f.WellSized host := by
  induction n generalizing b with
  | zero =>
    obtain rfl := List.eq_nil_of_length_eq_zero (Nat.le_zero.mp hn)
    exact ⟨[], rfl, rfl, fun f hf => (List.not_mem_nil hf).elim⟩
  | succ n ih =>
    rw [framesIn]
    cases hs : splitFrame host b with
    | none => exact ⟨b, rfl, hs, fun f hf => (List.not_mem_nil hf).elim⟩
    | some p =>
      obtain ⟨f, rest⟩ := p
      obtain ⟨hf, rfl⟩ := splitFrame_some hs
      have hlen : rest.length ≤ n := by
        rw [WireFrame.bytes] at hn
        simp only [List.cons_append, List.length_cons, List.length_append] at hn
        omega
      obtain ⟨tail, hb, ht, hfs⟩ := ih hlen
      refine ⟨tail, ?_, ht, ?_⟩
      · dsimp only
        rw [List.flatMap_cons, List.append_assoc, ← hb]
      · intro g hg
        rcases List.mem_cons.mp hg with rfl | hg
        · exact hf
        · exact hfs g hg

/-- Frames put one after the other are found again. -/
theorem framesIn_flatMap {fs : List WireFrame} (hfs : ∀ f ∈ fs, f.WellSized host) (hn : fs.length ≤ n) :
    framesIn host n (fs.flatMap WireFrame.bytes) = fs := by
  induction fs generalizing n with
  | nil =>
    rw [List.flatMap_nil]
    cases n <;> rfl
  | cons f fs ih =>
    obtain ⟨n, rfl⟩ : ∃ m, n = m + 1 := ⟨n - 1, by rw [List.length_cons] at hn; omega⟩
    rw [List.flatMap_cons, framesIn, splitFrame_bytes (hfs f List.mem_cons_self)]
    dsimp only
    rw [ih (fun g hg => hfs g (List.mem_cons_of_mem f hg)) (Nat.le_of_succ_le_succ hn)]

theorem length_le_flatMap_bytes (fs : List WireFrame) : fs.length ≤ (fs.flatMap WireFrame.bytes).length := by
  induction fs with
  | nil => exact Nat.zero_le _
  | cons f fs ih =>
    rw [List.flatMap_cons, List.length_append, List.length_cons, WireFrame.bytes, List.length_cons]
    omega

theorem framesOf_flatMap {fs : List WireFrame} (hfs : ∀ f ∈ fs, f.WellSized host) :
    framesOf host (fs.flatMap WireFrame.bytes) = fs := framesIn_flatMap hfs (length_le_flatMap_bytes fs)

theorem framesOf_bytes (host : Host) (b : Bytes) : ∃ tail, b = (framesOf host b).flatMap WireFrame.bytes ++ tail ∧
    splitFrame host tail = none ∧ ∀ f ∈ framesOf host b, f.WellSized host := framesIn_bytes (Nat.le_refl b.length)

theorem framesOf_wellSized (hf : f ∈ framesOf host b) : f.WellSized host := by
  obtain ⟨_, _, _, hfs⟩ := framesOf_bytes host b
  exact hfs f hf

end Split

section Run
variable {host : Host} {server : Bool} {maxMessageSize : Nat} {pending : Option Message} {s : Hybi13} {fs : List WireFrame}
  {b : Bytes}

open Hybi13

/-- The processor makes of whole frames what they stand for. -/
theorem readBytes_frames (h : Stands server maxMessageSize pending s) (hfs : ∀ f ∈ fs, f.WellSized host) :
    (readBytes host s (fs.flatMap WireFrame.bytes)).1 = (framesRun host server maxMessageSize pending fs).1 ∧
      match (framesRun host server maxMessageSize pending fs).2 with
      | .error e => (readBytes host s (fs.flatMap WireFrame.bytes)).2 = .error e
      | .ok pending' => ∃ s', (readBytes host s (fs.flatMap WireFrame.bytes)).2 = .ok s' ∧
          Stands server maxMessageSize pending' s' := by
  induction fs generalizing pending s with
  | nil =>
    rw [List.flatMap_nil, readBytes_elementwise.nil s h.waiting]
    exact ⟨rfl, s, rfl, h⟩
  | cons f fs ih =>
    have hone := frame_refines h (hfs f List.mem_cons_self)
    rw [List.flatMap_cons, readBytes_elementwise.append h.waiting, framesRun]
    cases hstep : frameStep host server maxMessageSize pending f with
    | error e =>
      rw [hstep] at hone
      rw [hone, andThen_error]
      exact ⟨rfl, rfl⟩
    | ok p =>
      obtain ⟨pending', out⟩ := p
      rw [hstep] at hone
      obtain ⟨s', hr, hs'⟩ := hone
      obtain ⟨hout, hend⟩ := ih hs' fun g hg => hfs g (List.mem_cons_of_mem f hg)
      rw [hr, andThen_ok]
      exact ⟨by dsimp only; rw [hout], hend⟩

/-- The loop stops short of a message when the bytes hold no whole frame. -/
private theorem consumed_part (h : Stands server maxMessageSize pending s) (hb : splitFrame host b = none) {s' : Hybi13}
    {rest : Bytes} (hc : s.consumed host b = .ok (s', rest)) : s'.state ≠ .ready := by
  cases b with
  | nil =>
    rw [consumed_nil h.waiting] at hc
    cases hc
    rw [h.state]
    decide
  | cons x b =>
    cases b with
    | nil =>
      have hg : s.goesOn [x] = true :=
        goesOn_iff.mpr ⟨by rw [h.state]; decide, by rw [h.state]; decide, .inl (List.cons_ne_nil _ _)⟩
      have hcopy : s.copyBasicHeaderBytes [x] = ({ s with basicHeader := { s.basicHeader with b0 := x }, bytesNeeded := 1 }, 1) := by
        simp [copyBasicHeaderBytes, h.bytesNeeded, basicHeaderLength]
      rw [consumed_turn hg, turned] at hc
      simp only [turn, h.state, hcopy, Nat.one_pos, if_true, List.drop_succ_cons, List.drop_zero] at hc
      rw [consumed_stop (not_goesOn_of_needs Nat.one_pos)] at hc
      cases hc
      exact (by decide : ReadState.headerBasic ≠ .ready)
    | cons y more =>
      unfold splitFrame at hb
      dsimp only at hb
      rw [consumed_basic h.state h.bytesNeeded] at hc
      split at hc
      · cases hc
      by_cases hn : more.length < BasicHeader.getHeaderLen ⟨x, y⟩ - basicHeaderLength
      · obtain ⟨s₁, hs₁, hst⟩ := consumed_extended_short (s := s.withBasic ⟨x, y⟩) rfl hn
        rw [hs₁] at hc
        cases hc
        rw [hst]
        decide
      · obtain ⟨ext, body, rfl, hlen⟩ : ∃ ext body, more = ext ++ body ∧
            ext.length = BasicHeader.getHeaderLen ⟨x, y⟩ - basicHeaderLength :=
          ⟨_, _, (List.take_append_drop _ more).symm, List.length_take_of_le (Nat.le_of_not_lt hn)⟩
        rw [← hlen, List.take_left] at hb
        rw [consumed_extended (s := s.withBasic ⟨x, y⟩) rfl hlen.symm] at hc
        split at hc
        · cases hc
        · next he =>
          have hen := enterApplication_ok (Prod.ext rfl he)
          have hneed := hen.bytesNeeded
          change _ = getPayloadSize host ⟨x, y⟩ (s.extendedHeader.put 0 ext) at hneed
          rw [h.extendedHeader] at hneed
          have hshort : body.length < (((s.withBasic ⟨x, y⟩).storeExtended ext).enterApplication host).1.bytesNeeded := by
            rw [hneed]
            split_ifs at hb with hl
            rw [List.length_append] at hl
            omega
          have hst := consumed_application_short hen.state hshort hc
          rw [hst]
          decide

/-- What a connection delivers is what its whole frames stand for. -/
theorem readBytes_bytes (h : Stands server maxMessageSize pending s) :
    (readBytes host s b).1 = (framesRun host server maxMessageSize pending (framesOf host b)).1 ∧
      ∀ e, (framesRun host server maxMessageSize pending (framesOf host b)).2 = .error e → (readBytes host s b).2 = .error e := by
  obtain ⟨tail, hb, ht, hfs⟩ := framesOf_bytes host b
  obtain ⟨hout, hend⟩ := readBytes_frames h hfs
  have hread : readBytes host s b =
      andThen (readBytes host s ((framesOf host b).flatMap WireFrame.bytes)) fun s' => readBytes host s' tail := by
    conv_lhs => rw [hb]
    exact readBytes_elementwise.append h.waiting
  generalize readBytes host s ((framesOf host b).flatMap WireFrame.bytes) = r at hout hend hread
  obtain ⟨out, res⟩ := r
  rw [hread]
  cases hrun : (framesRun host server maxMessageSize pending (framesOf host b)).2 with
  | error e =>
    rw [hrun] at hend
    obtain rfl : res = .error e := hend
    rw [andThen_error]
    exact ⟨hout, fun _ he => congrArg Except.error (Except.error.inj he)⟩
  | ok pending' =>
    rw [hrun] at hend
    obtain ⟨s', hs', hstands⟩ := hend
    obtain rfl : res = .ok s' := hs'
    rw [andThen_ok, readBytes_short hstands.waiting fun s₂ rest hc => consumed_part hstands ht hc, List.append_nil]
    exact ⟨hout, nofun⟩

end Run

end DeribitClientServer.Transport
