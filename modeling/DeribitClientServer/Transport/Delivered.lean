import DeribitClientServer.Transport.Stream

/-! What the messages a connection delivers have in common, whatever its peer sends. -/
namespace DeribitClientServer.Transport
open Library Library.Utf8 Library.Endian Library.Mask Library.Chunked

/-- What may reach the handler of messages. -/
structure Deliverable (maxMessageSize : Nat) (m : Message) : Prop where
  kind : m.opcode ∈ [Opcode.text, .binary, .close, .ping, .pong]
  control : m.opcode.isControl = true → m.payload.length ≤ payloadSizeBasic
  data : m.opcode.isControl = false → m.payload.length ≤ maxMessageSize
  text : m.opcode = .text → viable m.payload = true

/-- What the checks on its frames make sure of: the size they compare is of 64 bits. -/
structure Admitted (maxMessageSize : Nat) (m : Message) : Prop where
  kind : m.opcode ∈ [Opcode.text, .binary, .close, .ping, .pong]
  control : m.opcode.isControl = true → m.payload.length ≤ payloadSizeBasic
  data : m.opcode.isControl = false → m.payload.length % UInt64.size ≤ maxMessageSize
  text : m.opcode = .text → viable m.payload = true

theorem Admitted.deliverable {maxMessageSize : Nat} {m : Message} (h : Admitted maxMessageSize m)
    (hl : m.payload.length < UInt64.size) : Deliverable maxMessageSize m :=
  ⟨h.kind, h.control, fun hc => by rw [← Nat.mod_eq_of_lt hl]; exact h.data hc, h.text⟩

/-- What a frame must be whatever came before it. -/
structure Legal (server : Bool) (h : BasicHeader) : Prop where
  rsv : h.getRsv1 = false ∧ h.getRsv2 = false ∧ h.getRsv3 = false
  opcode : h.getOpcode ∈ [Opcode.continuation, .text, .binary, .close, .ping, .pong]
  control : h.getOpcode.isControl = true → h.getFin = true ∧ h.getBasicSize.toNat ≤ payloadSizeBasic
  masked : h.getMasked = server

instance (server : Bool) (h : BasicHeader) : Decidable (Legal server h) :=
  decidable_of_iff ((h.getRsv1 = false ∧ h.getRsv2 = false ∧ h.getRsv3 = false) ∧
      h.getOpcode ∈ [Opcode.continuation, .text, .binary, .close, .ping, .pong] ∧
      (h.getOpcode.isControl = true → h.getFin = true ∧ h.getBasicSize.toNat ≤ payloadSizeBasic) ∧ h.getMasked = server)
    ⟨fun ⟨hr, ho, hc, hm⟩ => ⟨hr, ho, hc, hm⟩, fun ⟨hr, ho, hc, hm⟩ => ⟨hr, ho, hc, hm⟩⟩

section Headers
variable {server newMsg : Bool} {h : BasicHeader}

private theorem not_reserved_iff {op : Opcode} : op.reserved = false ↔
    op ∈ [Opcode.continuation, .text, .binary, .close, .ping, .pong] := by
  cases op <;> decide

private theorem not_invalid {op : Opcode} : op.invalid = false := by
  cases op <;> rfl

/-- A check that is passed, and the checks after it. -/
private theorem check_none {c : Prop} [Decidable c] {e : ProcessorError} {r : Option ProcessorError} :
    (if c then some e else r) = none ↔ ¬ c ∧ r = none := by
  split_ifs with hc
  · exact ⟨nofun, fun h => absurd hc h.1⟩
  · exact ⟨fun h => ⟨hc, h⟩, fun h => h.2⟩

/-- A frame is accepted when it is legal and continues a message exactly when one is
pending. -/
theorem validateIncomingBasicHeader_none : validateIncomingBasicHeader h server newMsg = none ↔
    Legal server h ∧ (h.getOpcode.isControl = false → (h.getOpcode = .continuation ↔ newMsg = false)) := by
  have hcont : h.getOpcode = .continuation → h.getOpcode.isControl = false := by
    intro ho
    rw [ho]
    rfl
  have hmasked : (¬ (server && !h.getMasked) = true) ∧ (¬ (!server && h.getMasked) = true) ↔ h.getMasked = server := by
    cases server <;> cases h.getMasked <;> decide
  unfold validateIncomingBasicHeader
  simp only [not_invalid, check_none, and_true]
  constructor
  · rintro ⟨hsize, hr1, hr2, hres, _, hfin, hnew, hold, hm1, hm2⟩
    refine ⟨⟨?_, not_reserved_iff.mp (Bool.eq_false_iff.mpr hres), fun hc => ?_, hmasked.mp ⟨hm1, hm2⟩⟩, fun hc => ?_⟩
    · simpa [hr1] using hr2
    · exact ⟨by simpa [hc] using hfin, by simpa [hc] using hsize⟩
    · cases newMsg
      · simpa [hc] using hold
      · simpa using hnew
  · rintro ⟨⟨hr, hop, hctl, hm⟩, hkind⟩
    obtain ⟨hm1, hm2⟩ := hmasked.mpr hm
    refine ⟨?_, by simp [hr], by simp [hr], by rw [not_reserved_iff.mpr hop]; decide, by decide, ?_, ?_, ?_, hm1, hm2⟩
    · intro hc
      rw [Bool.and_eq_true, decide_eq_true_iff] at hc
      exact absurd (hctl hc.1).2 (Nat.not_le_of_lt hc.2)
    · intro hc
      rw [Bool.and_eq_true, Bool.not_eq_true'] at hc
      exact absurd ((hctl hc.1).1.symm.trans hc.2) (by decide)
    · intro hc
      rw [Bool.and_eq_true, decide_eq_true_iff] at hc
      exact absurd (hc.1.symm.trans ((hkind (hcont hc.2)).mp hc.2)) (by decide)
    · intro hc
      simp only [Bool.and_eq_true, Bool.not_eq_true', decide_eq_true_iff] at hc
      exact hc.2 ((hkind hc.1.2).mpr hc.1.1)

end Headers

section Frames
variable {host : Host} {server : Bool} {maxMessageSize : Nat} {pending pending' out : Option Message} {f : WireFrame}
  {fs : List WireFrame}

/-- What a step that meets no error did. -/
theorem frameStep_ok (h : frameStep host server maxMessageSize pending f = .ok (pending', out)) :
    Legal server f.basic ∧ (f.basic.getOpcode.isControl = false → (f.basic.getOpcode = .continuation ↔ pending.isNone = false)) ∧
      ((f.basic.getOpcode.isControl = true ∧ pending' = pending ∧ out = some ⟨f.basic.getOpcode, f.plain host⟩) ∨
        (f.basic.getOpcode.isControl = false ∧ ∃ m, m = Message.extend pending f.basic.getOpcode (f.plain host) ∧
          Message.sizeWith pending f.raw.length ≤ maxMessageSize ∧ (m.opcode = .text → viable m.payload = true) ∧
          ((f.basic.getFin = false ∧ pending' = some m ∧ out = none) ∨
            (f.basic.getFin = true ∧ pending' = none ∧ out = some m ∧
              (f.basic.getOpcode = .text → validate m.payload = true))))) := by
  unfold frameStep at h
  dsimp only at h
  split at h
  · cases h
  · cases h
  · next hv _ =>
    obtain ⟨hl, hk⟩ := validateIncomingBasicHeader_none.mp hv
    refine ⟨hl, hk, ?_⟩
    split_ifs at h with hc hsize htext hfin hvalid
    · cases h
      exact .inl ⟨hc, rfl, rfl⟩
    · cases h
      exact .inr ⟨Bool.eq_false_iff.mpr hc, _, rfl, Nat.le_of_not_lt hsize, fun ht => by simpa [ht] using htext,
        .inl ⟨hfin, rfl, rfl⟩⟩
    · cases h
      exact .inr ⟨Bool.eq_false_iff.mpr hc, _, rfl, Nat.le_of_not_lt hsize, fun ht => by simpa [ht] using htext,
        .inr ⟨by simpa using hfin, rfl, rfl, fun ht => by simpa [ht] using hvalid⟩⟩

theorem length_plain : (f.plain host).length = f.raw.length := by
  rw [WireFrame.plain]
  split_ifs
  · exact length_mask
  · rfl

theorem length_extend {op : Opcode} :
    (Message.extend pending op (f.plain host)).payload.length % UInt64.size ≤ Message.sizeWith pending f.raw.length := by
  cases pending with
  | none =>
    rw [Message.extend, Message.sizeWith, length_plain]
    exact Nat.mod_le _ _
  | some m =>
    rw [Message.extend, Message.sizeWith, List.length_append, length_plain]

/-- What a step keeps pending and what it delivers passed the checks. -/
theorem frameStep_admitted (hf : f.WellSized host)
    (hp : ∀ m, pending = some m → Admitted maxMessageSize m ∧ m.opcode.isControl = false)
    (h : frameStep host server maxMessageSize pending f = .ok (pending', out)) :
    (∀ m, pending' = some m → Admitted maxMessageSize m ∧ m.opcode.isControl = false) ∧
      ∀ m, out = some m → Admitted maxMessageSize m := by
  obtain ⟨hl, hk, ⟨hc, rfl, rfl⟩ | ⟨hc, m, hm, hsize, htext, hend⟩⟩ := frameStep_ok h
  · refine ⟨hp, fun m hm => ?_⟩
    obtain rfl := Option.some.inj hm
    have hbasic := (hl.control hc).2
    refine ⟨?_, fun _ => ?_, fun hd => absurd (hc.symm.trans hd) (by decide), fun ht => ?_⟩
    · refine List.mem_cons.mp hl.opcode |>.resolve_left fun ho => ?_
      rw [ho] at hc
      cases hc
    · rw [length_plain, hf.raw, getPayloadSize, if_pos hbasic]
      exact hbasic
    · dsimp only at ht
      rw [ht] at hc
      cases hc
  · have hfits : m.payload.length % UInt64.size ≤ maxMessageSize := by
      rw [hm]
      exact length_extend.trans hsize
    have hmsg : Admitted maxMessageSize m ∧ m.opcode.isControl = false := by
      cases pending with
      | none =>
        have hop : m.opcode = f.basic.getOpcode := congrArg Message.opcode hm
        have hfresh : f.basic.getOpcode ≠ .continuation := fun ho => absurd ((hk hc).mp ho) (by decide)
        refine ⟨⟨?_, fun hd => absurd ((hop ▸ hd).symm.trans hc) (by decide), fun _ => hfits, htext⟩, hop ▸ hc⟩
        have hmem := hl.opcode
        rw [hop]
        exact List.mem_cons.mp hmem |>.resolve_left hfresh
      | some m₀ =>
        obtain ⟨hd, hc₀⟩ := hp m₀ rfl
        have hop : m.opcode = m₀.opcode := hm ▸ rfl
        exact ⟨⟨hop ▸ hd.kind, fun hd => absurd ((hop ▸ hd).symm.trans hc₀) (by decide), fun _ => hfits, htext⟩, hop ▸ hc₀⟩
    rcases hend with ⟨_, rfl, rfl⟩ | ⟨_, rfl, rfl, _⟩
    · exact ⟨fun m' h' => by rwa [← Option.some.inj h'], nofun⟩
    · exact ⟨nofun, fun m' h' => by rw [← Option.some.inj h']; exact hmsg.1⟩

theorem framesRun_admitted (hfs : ∀ f ∈ fs, f.WellSized host)
    (hp : ∀ m, pending = some m → Admitted maxMessageSize m ∧ m.opcode.isControl = false) :
    ∀ m ∈ (framesRun host server maxMessageSize pending fs).1, Admitted maxMessageSize m := by
  induction fs generalizing pending with
  | nil => exact fun m hm => (List.not_mem_nil hm).elim
  | cons f fs ih =>
    rw [framesRun]
    cases hstep : frameStep host server maxMessageSize pending f with
    | error e => exact fun m hm => (List.not_mem_nil hm).elim
    | ok p =>
      obtain ⟨pending', out⟩ := p
      obtain ⟨hp', hout⟩ := frameStep_admitted (hfs f List.mem_cons_self) hp hstep
      intro m hm
      rcases List.mem_append.mp hm with hm | hm
      · exact hout m (Option.mem_toList.mp hm)
      · exact ih (fun g hg => hfs g (List.mem_cons_of_mem f hg)) hp' m hm

/-- A step makes a message no longer than the payload it had and the frame's. -/
theorem frameStep_length {n : Nat} (hp : ∀ m, pending = some m → m.payload.length ≤ n)
    (h : frameStep host server maxMessageSize pending f = .ok (pending', out)) :
    (∀ m, pending' = some m → m.payload.length ≤ n + f.raw.length) ∧
      ∀ m, out = some m → m.payload.length ≤ n + f.raw.length := by
  obtain ⟨_, _, ⟨_, rfl, rfl⟩ | ⟨_, m, hm, _, _, hend⟩⟩ := frameStep_ok h
  · refine ⟨fun m hm => (hp m hm).trans (Nat.le_add_right _ _), fun m hm => ?_⟩
    obtain rfl := Option.some.inj hm
    rw [length_plain]
    exact Nat.le_add_left _ _
  · have hlen : m.payload.length ≤ n + f.raw.length := by
      rw [hm]
      cases pending with
      | none =>
        rw [Message.extend, length_plain]
        exact Nat.le_add_left _ _
      | some m₀ =>
        rw [Message.extend, List.length_append, length_plain]
        exact Nat.add_le_add_right (hp m₀ rfl) _
    rcases hend with ⟨_, rfl, rfl⟩ | ⟨_, rfl, rfl, _⟩
    · exact ⟨fun m' h' => by rwa [← Option.some.inj h'], nofun⟩
    · exact ⟨nofun, fun m' h' => by rwa [← Option.some.inj h']⟩

/-- A message is no longer than the bytes its frames came in. -/
theorem framesRun_length {n : Nat} (hp : ∀ m, pending = some m → m.payload.length ≤ n) :
    ∀ m ∈ (framesRun host server maxMessageSize pending fs).1, m.payload.length ≤ n + (fs.flatMap WireFrame.bytes).length := by
  induction fs generalizing pending n with
  | nil => exact fun m hm => (List.not_mem_nil hm).elim
  | cons f fs ih =>
    have hraw : f.raw.length ≤ f.bytes.length := by
      simp only [WireFrame.bytes, List.length_cons, List.length_append]
      omega
    rw [framesRun, List.flatMap_cons, List.length_append]
    cases hstep : frameStep host server maxMessageSize pending f with
    | error e => exact fun m hm => (List.not_mem_nil hm).elim
    | ok p =>
      obtain ⟨pending', out⟩ := p
      obtain ⟨hp', hout⟩ := frameStep_length hp hstep
      intro m hm
      rcases List.mem_append.mp hm with hm | hm
      · have h := hout m (Option.mem_toList.mp hm)
        omega
      · have h := ih hp' m hm
        omega

/-- Nothing is delivered from the first frame on that is not legal. -/
theorem framesRun_legal : (framesRun host server maxMessageSize pending fs).1 =
    (framesRun host server maxMessageSize pending (fs.takeWhile fun f => Legal server f.basic)).1 := by
  induction fs generalizing pending with
  | nil => rfl
  | cons f fs ih =>
    rw [framesRun]
    cases hstep : frameStep host server maxMessageSize pending f with
    | error e =>
      rw [List.takeWhile_cons]
      split_ifs
      · rw [framesRun, hstep]
      · rfl
    | ok p =>
      obtain ⟨pending', out⟩ := p
      have hl := (frameStep_ok hstep).1
      rw [List.takeWhile_cons, if_pos (decide_eq_true hl), framesRun, hstep]
      dsimp only
      rw [ih]

/-- A text whose frames are all last ones is whole. -/
theorem framesRun_unfragmented (hfin : ∀ f ∈ fs, f.basic.getFin = true) :
    ∀ m ∈ (framesRun host server maxMessageSize none fs).1, m.opcode = .text → validate m.payload = true := by
  induction fs with
  | nil => exact fun m hm => (List.not_mem_nil hm).elim
  | cons f fs ih =>
    have hrest := ih fun g hg => hfin g (List.mem_cons_of_mem f hg)
    have hf := hfin f List.mem_cons_self
    rw [framesRun]
    cases hstep : frameStep host server maxMessageSize none f with
    | error e => exact fun m hm => (List.not_mem_nil hm).elim
    | ok p =>
      obtain ⟨pending', out⟩ := p
      intro m hm ht
      obtain ⟨_, _, ⟨hc, rfl, rfl⟩ | ⟨_, m', hm', _, _, hend⟩⟩ := frameStep_ok hstep
      · rcases List.mem_append.mp hm with hm | hm
        · obtain rfl := List.mem_singleton.mp hm
          dsimp only at ht
          rw [ht] at hc
          cases hc
        · exact hrest m hm ht
      · rcases hend with ⟨hmore, _⟩ | ⟨_, rfl, rfl, hvalid⟩
        · exact absurd (hf.symm.trans hmore) (by decide)
        · rcases List.mem_append.mp hm with hm | hm
          · obtain rfl := List.mem_singleton.mp hm
            exact hvalid ((congrArg Message.opcode hm').symm.trans ht)
          · exact hrest m hm ht

end Frames

section Connections
variable (host : Host) (server : Bool) (maxMessageSize : Nat) (ps : List Bytes)

/-- The messages that reads of a connection's bytes deliver. -/
def delivered (host : Host) (server : Bool) (maxMessageSize : Nat) (ps : List Bytes) : List Message :=
  (pieces (readBytes host) (.init server maxMessageSize) ps).1

variable {host server maxMessageSize ps}

theorem pieces_readBytes : pieces (readBytes host) (.init server maxMessageSize) ps =
    readBytes host (.init server maxMessageSize) ps.flatten :=
  readBytes_elementwise.pieces_eq (waiting_init server maxMessageSize) ps

theorem delivered_eq : delivered host server maxMessageSize ps =
    (framesRun host server maxMessageSize none (framesOf host ps.flatten)).1 := by
  rw [delivered, pieces_readBytes]
  exact (readBytes_bytes (Stands.init server maxMessageSize)).1

theorem delivered_admitted : ∀ m ∈ delivered host server maxMessageSize ps, Admitted maxMessageSize m := by
  rw [delivered_eq]
  exact framesRun_admitted (fun f => framesOf_wellSized) nofun

theorem delivered_length : ∀ m ∈ delivered host server maxMessageSize ps, m.payload.length ≤ ps.flatten.length := by
  obtain ⟨tail, hb, _, _⟩ := framesOf_bytes host ps.flatten
  have hnone : ∀ m : Message, none = some m → m.payload.length ≤ 0 := nofun
  intro m hm
  rw [delivered_eq] at hm
  have h := framesRun_length hnone m hm
  rw [hb, List.length_append]
  omega

/-- Whatever fewer than 2⁶⁴ bytes a peer sends, no message of a reserved kind, no control message past
125 bytes, no data past the limit and no text that cannot start one is delivered, and nothing from the first
illegal frame on: with reserved bits or opcode, a control frame in fragments, or the wrong masking. -/
theorem delivered_fit (host : Host) (server : Bool) (maxMessageSize : Nat) (ps : List Bytes)
    (hsize : ps.flatten.length < UInt64.size) :
    (∀ m ∈ delivered host server maxMessageSize ps, Deliverable maxMessageSize m) ∧
      delivered host server maxMessageSize ps =
        (framesRun host server maxMessageSize none
          ((framesOf host ps.flatten).takeWhile fun f => Legal server f.basic)).1 := by
  refine ⟨fun m hm => (delivered_admitted m hm).deliverable (Nat.lt_of_le_of_lt (delivered_length m hm) hsize), ?_⟩
  rw [delivered_eq]
  exact framesRun_legal

/-- A text in two frames is delivered, and nothing of the unmasked frame behind it. -/
theorem delivered_fit_hi :
    delivered .little true 2 [[0x01, 0x81, 0, 0, 0, 0], [0x68, 0x80, 0x81, 0, 0, 0, 0, 0x69, 0x81, 0x01, 0x21]] =
      [⟨.text, [0x68, 0x69]⟩] ∧ Deliverable 2 ⟨.text, [0x68, 0x69]⟩ := by
  obtain ⟨hfit, hlegal⟩ := delivered_fit .little true 2
    [[0x01, 0x81, 0, 0, 0, 0], [0x68, 0x80, 0x81, 0, 0, 0, 0, 0x69, 0x81, 0x01, 0x21]] (by decide)
  have hms : (framesRun .little true 2 none ((framesOf .little [[0x01, 0x81, 0, 0, 0, 0],
      [0x68, 0x80, 0x81, 0, 0, 0, 0, 0x69, 0x81, 0x01, 0x21]].flatten).takeWhile fun f => Legal true f.basic)).1 =
        [⟨.text, [0x68, 0x69]⟩] := by decide +kernel
  rw [hms] at hlegal
  exact ⟨hlegal, hfit _ (by rw [hlegal]; exact List.mem_singleton_self _)⟩

end Connections
end DeribitClientServer.Transport
