import DeribitClientServer.Transport.Endpoint

/-! What an endpoint makes of the bytes it reads, whatever else its connection does
in between. -/
namespace DeribitClientServer.Transport
open Library Library.Utf8 Library.Endian Library.Mask Library.Chunked
open Server (SessionState)

/-- The steps that read. -/
def Act.reads : Act → Bool
  | .read _ | .readFailed _ | .turn _ => true
  | _ => false

namespace Endpoint
variable {host : Host} {isServer : Bool} {maxMessageSize : Nat} {s s' : Endpoint} {a : Act}

theorem SameReads.refl (s : Endpoint) : SameReads s s := ⟨rfl, rfl, rfl, rfl, rfl, rfl, rfl, id⟩

/-- A handler that ends the connection reads nothing. -/
theorem act_terminate (ec : Option Bytes) : SameReads s (s.act (s.con.terminate ec)) :=
  (act_replies (Connection.terminate_replies (P := fun _ _ => True)).1).2

private theorem act_writeFrame : SameReads s (s.act s.con.writeFrame) := by
  unfold Connection.writeFrame
  split_ifs
  · exact SameReads.refl s
  · dsimp only
    split_ifs <;> exact ⟨rfl, rfl, rfl, rfl, rfl, rfl, rfl, id⟩

private theorem act_handleWriteFrame {ec : Option Bytes} : SameReads s (s.act (s.con.handleWriteFrame ec)) := by
  unfold Connection.handleWriteFrame
  dsimp only
  have ht : ∀ ec, SameReads s (s.act (({ s.con with currentMsgs := [] } : Connection).terminate ec)) := by
    intro ec
    have h := act_terminate (s := { s with con := { s.con with currentMsgs := [] } }) ec
    exact ⟨h.processor, h.reading, h.unread, h.input, h.taken, h.handled, h.answered, h.state⟩
  split_ifs
  · exact ht ec
  · exact ht none
  · exact ⟨rfl, rfl, rfl, rfl, rfl, rfl, rfl, id⟩
  · exact ⟨rfl, rfl, rfl, rfl, rfl, rfl, rfl, id⟩

private theorem act_sendOpen {m : Message} {key : UInt32} : SameReads s (s.act (s.con.sendOpen host key m)) := by
  unfold Connection.sendOpen
  split
  · exact SameReads.refl s
  · exact (pushed_act (Connection.Keeps.refl _)).2

private theorem act_close {code : UInt16} {reason : Bytes} {key : UInt32} :
    SameReads s (s.act (s.con.close host key code reason).1) := by
  rcases Connection.close_replies (c := s.con) with
    ⟨_, _, hr⟩ | ⟨_, c', hc, hk⟩
  · exact (act_replies hr).2
  · rw [hc]
    exact (act_replies (Connection.Replies.quiet (P := fun _ _ => True) c' [] hk (.inl rfl))).2

/-- A step that does not read leaves the reading alone. -/
theorem step_sameReads (h : s.step host a = some s') (ha : a.reads = false) : SameReads s s' := by
  have from_ {t : Endpoint} (ht : SameReads s t) {t' : Endpoint} (ht' : SameReads t t') : SameReads s t' :=
    ⟨ht'.processor.trans ht.processor, ht'.reading.trans ht.reading, ht'.unread.trans ht.unread, ht'.input.trans ht.input,
      ht'.taken.trans ht.taken, ht'.handled.trans ht.handled, ht'.answered.trans ht.answered, fun hs => ht.state (ht'.state hs)⟩
  have same : ∀ t : Endpoint, t.con = s.con → t.reading = s.reading → t.unread = s.unread → t.input = s.input →
      t.taken = s.taken → t.handled = s.handled → t.answered = s.answered → SameReads s t :=
    fun t hc h1 h2 h3 h4 h5 h6 => ⟨by rw [hc], h1, h2, h3, h4, h5, h6, by rw [hc]; exact id⟩
  cases a with
  | send m =>
    simp only [step] at h
    split_ifs at h
    cases h
    exact same _ rfl rfl rfl rfl rfl rfl rfl
  | push i key =>
    simp only [step, Option.map_eq_some_iff] at h
    obtain ⟨m, _, rfl⟩ := h
    exact from_ (same { s with passed := s.passed.eraseIdx i } rfl rfl rfl rfl rfl rfl rfl) act_sendOpen
  | close code reason key =>
    cases h
    exact act_close
  | writeFrame =>
    simp only [step] at h
    split_ifs at h
    cases h
    exact from_ (same { s with posted := s.posted - 1 } rfl rfl rfl rfl rfl rfl rfl) act_writeFrame
  | transmit n =>
    obtain ⟨_, b, _, rfl⟩ := step_transmit.mp h
    exact same _ rfl rfl rfl rfl rfl rfl rfl
  | wrote =>
    simp only [step] at h
    split_ifs at h
    cases h
    exact from_ (same { s with writing := none, written := s.written ++ s.con.currentMsgs } rfl rfl rfl rfl rfl rfl rfl)
      act_handleWriteFrame
  | writeFailed message =>
    simp only [step, Option.map_eq_some_iff] at h
    obtain ⟨_, _, rfl⟩ := h
    exact from_ (same { s with writing := none, broken := true } rfl rfl rfl rfl rfl rfl rfl) act_handleWriteFrame
  | timeout =>
    simp only [step] at h
    split_ifs at h
    cases h
    exact act_terminate _
  | read b | readFailed ec | turn key => cases ha

def isData (m : Message) : Bool := !m.opcode.isControl

def isPing (m : Message) : Bool := m.opcode = .ping

/-- While an endpoint is open it hands on every message of a kind. -/
structure HandsOn (p : Message → Bool) (l : List Message) (s : Endpoint) : Prop where
  front : l <+: s.taken.filter p
  all : s.con.state = .opened → l = s.taken.filter p

/-- The messages taken so far and the bytes still held are those of everything read, and
an open endpoint goes on reading. -/
structure Reads (host : Host) (isServer : Bool) (maxMessageSize : Nat) (s : Endpoint) : Prop where
  between : s.reading = true → s.unread = none
  goesOn : s.con.state = .opened → s.reading = true ∨ s.unread ≠ none
  idle : s.reading = true → Waiting host s.con.processor ∧
    readBytes host (.init isServer maxMessageSize) s.input = (s.taken, .ok s.con.processor)
  loop : ∀ b, s.unread = some b → Waiting host s.con.processor ∧
    readBytes host (.init isServer maxMessageSize) s.input =
      (s.taken ++ (readBytes host s.con.processor b).1, (readBytes host s.con.processor b).2)
  front : s.taken <+: (readBytes host (.init isServer maxMessageSize) s.input).1
  handled : HandsOn isData s.handled s
  answered : HandsOn isPing s.answered s

/-- A pass of the read loop as the readers see it. -/
inductive TurnReads (host : Host) (s s' : Endpoint) (buf : Bytes) : Prop where
  | failed (e : ProcessorError) (hr : readBytes host s.con.processor buf = ([], .error e)) (hu : s'.unread = none)
      (ht : s'.taken = s.taken) (hh : s'.handled = s.handled) (ha : s'.answered = s.answered)
      (hs : s'.con.state ≠ .opened)
  | passed (m : Option Message) (rest : Bytes) (hw : Waiting host s'.con.processor)
      (hr : readBytes host s.con.processor buf =
        (m.toList ++ (readBytes host s'.con.processor rest).1, (readBytes host s'.con.processor rest).2))
      (hu : s'.unread = some rest) (ht : s'.taken = s.taken ++ m.toList)
      (hh : s'.handled = s.handled ++ if s.con.state = .opened then m.toList.filter isData else [])
      (ha : s'.answered = s.answered ++ if s.con.state = .opened then m.toList.filter isPing else [])
      (hs : s'.con.state = .opened → s.con.state = .opened)

private theorem dispatched_reads {c : Connection} {m : Message} {r : Acted} (hd : Connection.Dispatched host c m r)
    (hc : s.con = c) : (s.act r).con.processor = c.processor ∧ (s.act r).taken = s.taken ∧ (s.act r).unread = s.unread ∧
      (s.act r).reading = s.reading ∧ (s.act r).input = s.input ∧
      (s.act r).handled = s.handled ++ (if c.state = .opened then [m].filter isData else []) ∧
      (s.act r).answered = s.answered ++ (if c.state = .opened then [m].filter isPing else []) ∧
      ((s.act r).con.state = .opened → c.state = .opened) := by
  subst hc
  have hnil : ∀ (q : Message → Bool) (l : List Message), q m = false →
      l ++ (if s.con.state = .opened then [m].filter q else []) = l := by
    intro q l hq
    rw [List.filter_singleton, hq]
    split_ifs <;> exact List.append_nil l
  have hsing : ∀ (q : Message → Bool) (l : List Message), q m = true → s.con.state = .opened →
      l ++ (if s.con.state = .opened then [m].filter q else []) = l ++ [m] := by
    intro q l hq hs
    rw [if_pos hs, List.filter_singleton, hq]
    rfl
  cases hd with
  | data hm hs =>
    have hping : isPing m = false := by
      rw [isPing, decide_eq_false_iff_not]
      intro hop
      rw [hop] at hm
      cases hm
    refine ⟨rfl, rfl, rfl, rfl, rfl, ?_, ?_, id⟩
    · rw [hsing _ _ (by rw [isData, hm]; rfl) hs]
      rfl
    · rw [hnil _ _ hping]
      rfl
  | ignored h =>
    refine ⟨rfl, rfl, rfl, rfl, rfl, ?_, ?_, id⟩
    all_goals
      by_cases hs : s.con.state = .opened
      · obtain ⟨hc, hp⟩ := h hs
        refine (hnil _ _ ?_).symm
        simp [isData, isPing, hc, hp]
      · rw [if_neg hs, List.append_nil]
        rfl
  | ping out hm hs hq =>
    obtain ⟨_, hr⟩ := pushed_act (s := s.act (s.con, [.answered m])) (m := ⟨.pong, m.payload⟩)
      (Connection.Keeps.refl _)
    rw [act_cons (c := s.con)]
    refine ⟨hr.processor, hr.taken, hr.unread, hr.reading, hr.input, ?_, ?_, hr.state⟩
    · rw [hnil _ _ (by rw [isData, hm]; rfl)]
      exact hr.handled
    · rw [hsing _ _ (by rw [isPing, hm]; rfl) hs]
      exact hr.answered
  | close r hm hr =>
    have hsame := (act_replies hr).2
    refine ⟨hsame.processor, hsame.taken, hsame.unread, hsame.reading, hsame.input, ?_, ?_, hsame.state⟩
    · rw [hnil _ _ (by rw [isData, hm]; rfl)]
      exact hsame.handled
    · rw [hnil _ _ (by rw [isPing, hm]; rfl)]
      exact hsame.answered

private theorem turnReads_of_turned {x : UInt8} {b : Bytes} {r : Acted × Option Bytes} (hw : Waiting host s.con.processor)
    (h : Connection.Turned host s.con (x :: b) r)
    (hl : ∀ p rest m, s.con.processor.consumed host (x :: b) = .ok (p, rest) → p.getMessage.1 = some m →
      m.opcode.isControl = true → m.payload.length ≤ payloadSizeBasic) :
    TurnReads host s ({ s with unread := r.2 }.act r.1) (x :: b) ∧
      ({ s with unread := r.2 }.act r.1).reading = s.reading ∧ ({ s with unread := r.2 }.act r.1).input = s.input := by
  have hread := readBytes_turn (x := x) (b := b) hw
  cases h with
  | failed e p r hc hs hr =>
    have hsame := (act_replies (s := { s with con := { s.con with processor := p }, unread := none }) hr).2
    rw [hc] at hread
    refine ⟨.failed e hread hsame.unread hsame.taken hsame.handled hsame.answered ?_, hsame.reading, hsame.input⟩
    rw [act_con]
    exact hs
  | more p rest hc hp =>
    rw [hc] at hread
    dsimp only at hread
    rw [if_neg hp] at hread
    obtain ⟨rfl, hw'⟩ := (Hybi13.consumed_taken hw hc).2.resolve_left hp
    have hnil : ∀ l : List Message, l = l ++ if s.con.state = .opened then [] else [] := by
      intro l
      rw [ite_self, List.append_nil]
    exact ⟨.passed none [] hw' hread rfl (List.append_nil _).symm (hnil _) (hnil _) id, rfl, rfl⟩
  | none p rest hc hp hg =>
    rw [hc] at hread
    dsimp only at hread
    rw [if_pos hp, hg] at hread
    have hnil : ∀ l : List Message, l = l ++ if s.con.state = .opened then [] else [] := by
      intro l
      rw [ite_self, List.append_nil]
    exact ⟨.passed none rest (Hybi13.waiting_getMessage hp) hread rfl (List.append_nil _).symm (hnil _) (hnil _) id, rfl, rfl⟩
  | message p rest m r hc hp hg hr =>
    rw [hc] at hread
    dsimp only at hread
    rw [if_pos hp, hg] at hread
    rw [act_cons (c := { s.con with processor := p.getMessage.2 })]
    obtain ⟨hproc, htaken, hunread, hreading, hinput, hhandled, hanswered, hstate⟩ :=
      dispatched_reads (s := { s with unread := some rest }.act ({ s.con with processor := p.getMessage.2 }, [.taken m]))
        (hr (hl p rest m hc hg)) rfl
    refine ⟨.passed (some m) rest ?_ ?_ hunread htaken hhandled hanswered hstate, hreading, hinput⟩
    · rw [hproc]
      exact Hybi13.waiting_getMessage hp
    · rw [hproc]
      exact hread

/-- Control messages among what is read are short. -/
theorem control_short {x : UInt8} {b : Bytes} (hw : Waiting host s.con.processor)
    (hr : readBytes host (.init isServer maxMessageSize) s.input =
      (s.taken ++ (readBytes host s.con.processor (x :: b)).1, (readBytes host s.con.processor (x :: b)).2)) :
    ∀ p rest m, s.con.processor.consumed host (x :: b) = .ok (p, rest) → p.getMessage.1 = some m →
      m.opcode.isControl = true → m.payload.length ≤ payloadSizeBasic := by
  intro p rest m hc hg hm
  have hready : p.state = .ready := by
    by_contra hp
    rw [Hybi13.getMessage, if_pos hp] at hg
    cases hg
  have hread := readBytes_turn (x := x) (b := b) hw
  rw [hc] at hread
  dsimp only at hread
  rw [if_pos hready, hg] at hread
  have hmem : m ∈ delivered host isServer maxMessageSize [s.input] := by
    rw [delivered, pieces_readBytes, List.flatten_singleton, hr, hread]
    exact List.mem_append_right _ (List.mem_append_left _ (List.mem_singleton_self m))
  exact (delivered_admitted m hmem).control hm

theorem SameReads.handsOn {p : Message → Bool} {l : List Message} (h : SameReads s s') (hl : HandsOn p l s) : HandsOn p l s' := by
  refine ⟨?_, fun hs => ?_⟩
  · rw [h.taken]
    exact hl.front
  · rw [h.taken]
    exact hl.all (h.state hs)

theorem SameReads.reads (h : SameReads s s') (hs : Reads host isServer maxMessageSize s) :
    Reads host isServer maxMessageSize s' := by
  refine ⟨?_, ?_, ?_, ?_, ?_, ?_, ?_⟩
  · rw [h.reading, h.unread]
    exact hs.between
  · rw [h.reading, h.unread]
    exact fun ho => hs.goesOn (h.state ho)
  · rw [h.reading, h.processor, h.input, h.taken]
    exact hs.idle
  · rw [h.unread, h.processor, h.input, h.taken]
    exact hs.loop
  · rw [h.input, h.taken]
    exact hs.front
  · rw [h.handled]
    exact h.handsOn hs.handled
  · rw [h.answered]
    exact h.handsOn hs.answered

/-- A message more is handed on when it is of the kind and the endpoint is open. -/
private theorem HandsOn.more {p : Message → Bool} {l : List Message} (h : HandsOn p l s) {m : Option Message}
    (ht : s'.taken = s.taken ++ m.toList) (hs : s'.con.state = .opened → s.con.state = .opened) :
    HandsOn p (l ++ if s.con.state = .opened then m.toList.filter p else []) s' := by
  by_cases ho : s.con.state = .opened
  · have heq : l ++ m.toList.filter p = s'.taken.filter p := by rw [ht, List.filter_append, h.all ho]
    rw [if_pos ho, heq]
    exact ⟨List.prefix_refl _, fun _ => rfl⟩
  · rw [if_neg ho, List.append_nil]
    refine ⟨?_, fun hs' => absurd (hs hs') ho⟩
    rw [ht, List.filter_append]
    exact h.front.trans (List.prefix_append _ _)

theorem reads_start : Reads host isServer maxMessageSize (.start isServer maxMessageSize) := by
  have hw : Waiting host (.init isServer maxMessageSize) := waiting_init isServer maxMessageSize
  have hnil := readBytes_elementwise.nil _ hw
  refine ⟨fun _ => rfl, fun _ => .inl rfl, fun _ => ⟨hw, hnil⟩, nofun, List.nil_prefix, ⟨List.prefix_refl _, fun _ => rfl⟩,
    ⟨List.prefix_refl _, fun _ => rfl⟩⟩

private theorem reads_turn {x : UInt8} {b : Bytes} (key : UInt32) (hs : Reads host isServer maxMessageSize s)
    (hu : s.unread = some (x :: b)) :
    Reads host isServer maxMessageSize
      ({ s with unread := (s.con.readTurn host key (x :: b)).2 }.act (s.con.readTurn host key (x :: b)).1) := by
  obtain ⟨hw, hr⟩ := hs.loop _ hu
  have hnot : s.reading = false := by
    rw [← Bool.not_eq_true]
    intro h
    rw [hs.between h] at hu
    cases hu
  obtain ⟨hturn, hreading, hinput⟩ :=
    turnReads_of_turned hw (Connection.readTurn_turned) (control_short hw hr)
  generalize ({ s with unread := (s.con.readTurn host key (x :: b)).2 }.act (s.con.readTurn host key (x :: b)).1) = s' at *
  have hnot' : s'.reading ≠ true := by
    rw [hreading, hnot]
    decide
  cases hturn with
  | failed e hr' hu' ht hh ha hstate =>
    refine ⟨fun h => absurd h hnot', fun h => absurd h hstate, fun h => absurd h hnot', fun b' hb' => ?_, ?_, ?_, ?_⟩
    · rw [hu'] at hb'
      cases hb'
    · rw [hinput, ht]
      exact hs.front
    · rw [hh]
      exact ⟨by rw [ht]; exact hs.handled.front, fun h => absurd h hstate⟩
    · rw [ha]
      exact ⟨by rw [ht]; exact hs.answered.front, fun h => absurd h hstate⟩
  | passed m rest hw' hr' hu' ht hh ha hstate =>
    have hr'' : readBytes host (.init isServer maxMessageSize) s'.input =
        (s'.taken ++ (readBytes host s'.con.processor rest).1, (readBytes host s'.con.processor rest).2) := by
      rw [hinput, hr, hr', ht, List.append_assoc]
    refine ⟨fun h => absurd h hnot', fun _ => .inr (by rw [hu']; exact Option.some_ne_none rest), fun h => absurd h hnot',
      fun b' hb' => ?_, ?_, ?_, ?_⟩
    · rw [hu'] at hb'
      obtain rfl := Option.some.inj hb'
      exact ⟨hw', hr''⟩
    · rw [hr'']
      exact List.prefix_append _ _
    · rw [hh]
      exact hs.handled.more ht hstate
    · rw [ha]
      exact hs.answered.more ht hstate

private theorem reads_readFailed {ec : ReadError} (hs : Reads host isServer maxMessageSize s) (hr : s.reading = true) :
    Reads host isServer maxMessageSize ({ s with reading := false }.act (s.con.handleReadError ec)) := by
  have hover : SameReads { s with reading := false } ({ s with reading := false }.act (s.con.handleReadError ec)) ∧
      (s.con.handleReadError ec).1.state ≠ .opened := by
    have ht : ∀ ec, (s.con.terminate ec).1.state ≠ .opened := by
      intro ec
      rw [(Connection.terminate_replies (P := fun _ _ => True)).2]
      decide
    unfold Connection.handleReadError
    split
    · split_ifs with hc
      · exact ⟨SameReads.refl _, by rw [hc]; decide⟩
      · exact ⟨act_terminate _, ht _⟩
      · exact ⟨act_terminate _, ht _⟩
    · exact ⟨act_terminate _, ht _⟩
  obtain ⟨h, hstate⟩ := hover
  have hclosed : ({ s with reading := false }.act (s.con.handleReadError ec)).con.state ≠ .opened := by
    rw [act_con]
    exact hstate
  refine ⟨?_, fun ho => absurd ho hclosed, ?_, ?_, ?_, ?_, ?_⟩
  · rw [h.reading]
    exact nofun
  · rw [h.reading]
    exact nofun
  · rw [h.unread, h.processor, h.input, h.taken, hs.between hr]
    exact nofun
  · rw [h.input, h.taken]
    exact hs.front
  · rw [h.handled]
    exact ⟨by rw [h.taken]; exact hs.handled.front, fun ho => absurd ho hclosed⟩
  · rw [h.answered]
    exact ⟨by rw [h.taken]; exact hs.answered.front, fun ho => absurd ho hclosed⟩

theorem step_reads (h : s.step host a = some s') (hs : Reads host isServer maxMessageSize s) :
    Reads host isServer maxMessageSize s' := by
  by_cases ha : a.reads = true
  · cases a with
    | read b =>
      simp only [step] at h
      split_ifs at h with hb
      cases h
      obtain ⟨hw, hr⟩ := hs.idle hb.1
      have hinput : readBytes host (.init isServer maxMessageSize) (s.input ++ b) =
          (s.taken ++ (readBytes host s.con.processor b).1, (readBytes host s.con.processor b).2) := by
        rw [readBytes_elementwise.append (waiting_init isServer maxMessageSize), hr, andThen_ok]
      refine ⟨fun h => absurd h Bool.false_ne_true, fun _ => .inr (Option.some_ne_none b), fun h => absurd h Bool.false_ne_true,
        fun b' hb' => ?_, ?_, ⟨hs.handled.front, hs.handled.all⟩,
        ⟨hs.answered.front, hs.answered.all⟩⟩
      · obtain rfl := Option.some.inj hb'
        exact ⟨hw, hinput⟩
      · dsimp only
        rw [hinput]
        exact List.prefix_append _ _
    | readFailed ec =>
      simp only [step] at h
      split_ifs at h with hr
      cases h
      exact reads_readFailed hs hr
    | turn key =>
      simp only [step] at h
      split at h
      · cases h
      · next hu =>
        cases h
        obtain ⟨hw, hr⟩ := hs.loop _ hu
        rw [readBytes_elementwise.nil _ hw, List.append_nil] at hr
        exact ⟨fun _ => rfl, fun _ => .inl rfl, fun _ => ⟨hw, hr⟩, fun b h => absurd h (Option.some_ne_none b).symm,
          hs.front, ⟨hs.handled.front, hs.handled.all⟩,
          ⟨hs.answered.front, hs.answered.all⟩⟩
      · next b hne hu =>
        cases h
        cases b with
        | nil => exact absurd rfl hne
        | cons x b => exact reads_turn key hs hu
    | send m | push i key | close code reason key | writeFrame | transmit n | wrote | writeFailed message | timeout => cases ha
  · exact (step_sameReads h (Bool.eq_false_iff.mpr ha)).reads hs

end Endpoint
end DeribitClientServer.Transport
