import DeribitClientServer.Transport.Reads

/-! What an endpoint writes: the messages queued by its callers and its read loop. -/
namespace DeribitClientServer.Transport
open Library Library.Utf8 Library.Endian Library.Mask Library.Chunked
open Server (SessionState)

namespace Endpoint
variable {host : Host} {isServer : Bool} {maxMessageSize : Nat} {s s' : Endpoint} {a : Act}

def isPong (m : Message) : Bool := m.opcode = .pong

/-- The answer to a ping. -/
def pongOf (m : Message) : Message := ⟨.pong, m.payload⟩

def sizeOf (q : List OutMessage) : Nat := (q.map fun m => m.payload.length).sum

/-- The queue is sound, its size is counted right, one write at most is outstanding, and
what is on the wire is the start of what was queued. -/
structure Writes (host : Host) (isServer : Bool) (s : Endpoint) : Prop where
  role : s.con.isServer = isServer
  sound : s.outbox.Sound OutMessage.terminal
  size : s.con.sendBufferSize = sizeOf s.con.sendQueue
  writing : ∀ rest, s.writing = some rest → s.con.currentMsgs ≠ [] ∧
    s.wire ++ rest = (s.written ++ s.con.currentMsgs).flatMap OutMessage.bytes
  idle : s.writing = none → s.con.currentMsgs = [] ∧
    (s.broken = false → s.wire = s.written.flatMap OutMessage.bytes)
  front : s.wire <+: (batch OutMessage.terminal s.outbox.pushed).1.flatMap OutMessage.bytes
  queued : ∀ p ∈ s.queued, Connection.Queued host isServer p.1 p.2 ∧ p.1.payload.length < UInt64.size
  passed : ∀ m ∈ s.passed, m.payload.length < UInt64.size
  pongs : (s.queued.map Prod.fst).filter isPong = s.answered.map pongOf

theorem writes_start : Writes host isServer (.start isServer maxMessageSize) :=
  ⟨rfl, Outbox.sound_empty, rfl, nofun, fun _ => ⟨rfl, fun _ => rfl⟩, List.nil_prefix, nofun, nofun, rfl⟩

private theorem flatMap_mono {a b : List OutMessage} (h : a <+: b) :
    a.flatMap OutMessage.bytes <+: b.flatMap OutMessage.bytes := by
  obtain ⟨c, rfl⟩ := h
  rw [List.flatMap_append]
  exact List.prefix_append _ _

theorem Quiet.writes (h : Quiet s s') (hs : Writes host isServer s) (hw : s'.answered = s.answered) : Writes host isServer s' := by
  have hcon : s'.con.sendQueue = s.con.sendQueue := congrArg Outbox.queue h.outbox
  have hcur : s'.con.currentMsgs = s.con.currentMsgs := congrArg Outbox.current h.outbox
  have hwritten : s'.written = s.written := congrArg Outbox.written h.outbox
  have hbroken : s'.broken = s.broken := congrArg Outbox.broken h.outbox
  refine ⟨h.isServer.trans hs.role, by rw [h.outbox]; exact hs.sound, ?_, ?_, ?_, ?_, ?_, ?_, ?_⟩
  · rw [h.size, hcon]
    exact hs.size
  · rw [h.writing, h.wire, hcur, hwritten]
    exact hs.writing
  · rw [h.writing, h.wire, hcur, hwritten, hbroken]
    exact hs.idle
  · rw [h.wire, h.outbox]
    exact hs.front
  · rw [h.queued]
    exact hs.queued
  · rw [h.passed]
    exact hs.passed
  · rw [h.queued, hw]
    exact hs.pongs

theorem Pushed.writes {m : Message} {out : OutMessage} (h : Pushed s s' m out) (hs : Writes host isServer s)
    (hq : Connection.Queued host isServer m out) (hl : m.payload.length < UInt64.size)
    (hw : s'.answered.map pongOf = s.answered.map pongOf ++ [m].filter isPong) : Writes host isServer s' := by
  have hcon : s'.con.sendQueue = s.con.sendQueue ++ [out] := congrArg Outbox.queue h.outbox
  have hcur : s'.con.currentMsgs = s.con.currentMsgs := congrArg Outbox.current h.outbox
  have hwritten : s'.written = s.written := congrArg Outbox.written h.outbox
  have hbroken : s'.broken = s.broken := congrArg Outbox.broken h.outbox
  refine ⟨h.isServer.trans hs.role, by rw [h.outbox]; exact hs.sound.push out, ?_, ?_, ?_, ?_, ?_, ?_, ?_⟩
  · rw [h.size, hcon, hs.size, sizeOf, sizeOf, List.map_append, List.sum_append]
    rfl
  · rw [h.writing, h.wire, hcur, hwritten]
    exact hs.writing
  · rw [h.writing, h.wire, hcur, hwritten, hbroken]
    exact hs.idle
  · rw [h.wire, h.outbox]
    exact hs.front.trans (flatMap_mono batch_prefix_append)
  · rw [h.queued]
    intro p hmem
    rcases List.mem_append.mp hmem with hmem | hmem
    · exact hs.queued p hmem
    · rw [List.mem_singleton.mp hmem]
      exact ⟨hq, hl⟩
  · rw [h.passed]
    exact hs.passed
  · rw [h.queued, List.map_append, List.filter_append, hs.pongs, hw]
    rfl

private theorem sizeOf_batch (q : List OutMessage) :
    sizeOf q - ((batch OutMessage.terminal q).1.map fun m => m.payload.length).sum =
    sizeOf (batch OutMessage.terminal q).2 := by
  have h : sizeOf ((batch OutMessage.terminal q).1 ++ (batch OutMessage.terminal q).2) = sizeOf q :=
    congrArg sizeOf batch_append_batch
  rw [sizeOf, List.map_append, List.sum_append] at h
  change _ + sizeOf _ = _ at h
  omega

private theorem idle_current (hs : Writes host isServer s) (hf : s.con.writeFlag = false) :
    s.con.currentMsgs = [] ∧ s.broken = false ∧ s.writing = none := by
  cases hs.sound with
  | idle _ hc hb =>
    refine ⟨hc, hb, ?_⟩
    cases hw : s.writing with
    | none => rfl
    | some rest => exact absurd hc (hs.writing rest hw).1
  | writing hb | ended hb | failed hb => exact absurd (hf.symm.trans hb) (by decide)

/-- A writer that is not busy takes the next batch. -/
private theorem writeFrame_idle {c : Connection} (hf : c.writeFlag = false) (hcur : c.currentMsgs = []) :
    c.writeFrame = if c.sendQueue = [] then (c, []) else
      ({ c with
          writeFlag := true
          currentMsgs := (batch OutMessage.terminal c.sendQueue).1
          sendQueue := (batch OutMessage.terminal c.sendQueue).2
          sendBufferSize := c.sendBufferSize - ((batch OutMessage.terminal c.sendQueue).1.map fun m => m.payload.length).sum },
        [.asyncWrite ((batch OutMessage.terminal c.sendQueue).1.flatMap OutMessage.bytes)]) := by
  have hpops : c.writePops.currentMsgs = (batch OutMessage.terminal c.sendQueue).1 := by
    rw [Connection.writePops, hcur, List.nil_append]
  unfold Connection.writeFrame
  rw [hf, if_neg (by decide)]
  dsimp only
  rw [hpops]
  by_cases hq : c.sendQueue = []
  · obtain ⟨_, _, _, _, _, _, _, _, _, _, _, _, _⟩ := c
    dsimp only at hq hcur hf
    subst hq hcur
    rfl
  · rw [if_neg hq, if_neg fun h => batch_ne_nil hq (List.isEmpty_iff.mp h)]
    simp only [Connection.writePops, hcur, List.nil_append]

/-- The writer runs: it takes the next batch when it is not busy. -/
theorem outbox_writeFrame (hs : Writes host isServer s) :
    ({ s with posted := s.posted - 1 }.act s.con.writeFrame).outbox = s.outbox.wake OutMessage.terminal := by
  unfold Outbox.wake
  cases hf : s.con.writeFlag with
  | true =>
    have hw : s.con.writeFrame = (s.con, []) := by rw [Connection.writeFrame, if_pos hf]
    rw [if_pos (.inl hf), hw]
    rfl
  | false =>
    rw [writeFrame_idle hf (idle_current hs hf).1]
    by_cases hq : s.con.sendQueue = []
    · have hk : s.outbox.busy = true ∨ s.outbox.queue = [] := .inr hq
      rw [if_pos hq, if_pos hk]
      rfl
    · have hn : ¬ (s.outbox.busy = true ∨ s.outbox.queue = []) := fun h => h.elim (fun hb => absurd (hf.symm.trans hb) (by decide)) hq
      rw [if_neg hq, if_neg hn]
      rfl

theorem writes_writeFrame (hs : Writes host isServer s) :
    Writes host isServer ({ s with posted := s.posted - 1 }.act s.con.writeFrame) := by
  have hsound := hs.sound.wake
  rw [← outbox_writeFrame hs] at hsound
  cases hf : s.con.writeFlag with
  | true =>
    have hw : s.con.writeFrame = (s.con, []) := by rw [Connection.writeFrame, if_pos hf]
    rw [hw] at hsound ⊢
    exact ⟨hs.role, hsound, hs.size, hs.writing, hs.idle, hs.front, hs.queued, hs.passed, hs.pongs⟩
  | false =>
    obtain ⟨hcur, hbroken, hnone⟩ := idle_current hs hf
    have hwire := (hs.idle hnone).2 hbroken
    rw [writeFrame_idle hf hcur] at hsound ⊢
    by_cases hq : s.con.sendQueue = []
    · rw [if_pos hq] at hsound ⊢
      exact ⟨hs.role, hsound, hs.size, hs.writing, hs.idle, hs.front, hs.queued, hs.passed, hs.pongs⟩
    · rw [if_neg hq] at hsound ⊢
      refine ⟨hs.role, hsound, ?_, ?_, nofun, hs.front, hs.queued, hs.passed, hs.pongs⟩
      · change s.con.sendBufferSize - _ = _
        rw [hs.size]
        exact sizeOf_batch s.con.sendQueue
      · intro rest hw
        obtain rfl := Option.some.inj hw
        refine ⟨batch_ne_nil hq, ?_⟩
        change s.wire ++ _ = (s.written ++ (batch OutMessage.terminal s.con.sendQueue).1).flatMap OutMessage.bytes
        rw [List.flatMap_append, hwire]

private theorem writes_transmit (hs : Writes host isServer s) {b : Bytes} (hb : s.writing = some b) (n : Nat) :
    Writes host isServer { s with writing := some (b.drop n), wire := s.wire ++ b.take n } := by
  obtain ⟨hcur, hwire⟩ := hs.writing b hb
  have hall : (s.wire ++ b.take n) ++ b.drop n = (s.written ++ s.con.currentMsgs).flatMap OutMessage.bytes := by
    rw [List.append_assoc, List.take_append_drop, hwire]
  refine ⟨hs.role, hs.sound, hs.size, fun rest hr => ?_, nofun, ?_, hs.queued, hs.passed, hs.pongs⟩
  · obtain rfl := Option.some.inj hr
    exact ⟨hcur, hall⟩
  · refine List.IsPrefix.trans ⟨b.drop n, hall⟩ (flatMap_mono ?_)
    exact hs.sound.front

/-- The end of the connection leaves the queue alone. -/
private theorem Writes.terminate (hs : Writes host isServer s) (ec : Option Bytes) :
    Writes host isServer (s.act (s.con.terminate ec)) := by
  obtain ⟨hq | ⟨m, out, hp, _⟩, hr⟩ := act_replies (Connection.terminate_replies (c := s.con) (P := fun _ _ => False)).1
  · exact hq.writes hs hr.answered
  · exact hp.elim

/-- A batch is written: it is over, and the writer goes on unless it was the last. -/
theorem outbox_wrote : ({ s with writing := none, written := s.written ++ s.con.currentMsgs }.act
    (s.con.handleWriteFrame none)).outbox = s.outbox.finish OutMessage.terminal := by
  unfold Connection.handleWriteFrame Outbox.finish
  dsimp only
  rw [Option.isSome_none, if_neg (by decide)]
  by_cases hl : s.con.currentMsgs.getLast?.any OutMessage.terminal = true
  · have hl' : s.outbox.current.getLast?.any OutMessage.terminal = true := hl
    rw [if_pos hl, if_pos hl']
    obtain ⟨hq | ⟨m, out, hp, _⟩, _⟩ := act_replies
      (s := { s with writing := none, written := s.written ++ s.con.currentMsgs, con := { s.con with currentMsgs := [] } })
      (Connection.terminate_replies (P := fun _ _ => False)).1
    · exact hq.outbox
    · exact hp.elim
  · have hl' : ¬ s.outbox.current.getLast?.any OutMessage.terminal = true := hl
    rw [if_neg hl, if_neg hl']
    by_cases hq : s.con.sendQueue = []
    · have hq' : s.outbox.queue = [] := hq
      rw [if_pos (List.isEmpty_iff.mpr hq), if_pos hq']
      rfl
    · have hq' : ¬ s.outbox.queue = [] := hq
      rw [if_neg fun h => hq (List.isEmpty_iff.mp h), if_neg hq']
      rfl

theorem writes_wrote (hs : Writes host isServer s) (hw : s.writing = some []) :
    Writes host isServer ({ s with writing := none, written := s.written ++ s.con.currentMsgs }.act (s.con.handleWriteFrame none)) := by
  obtain ⟨hcur, hwire⟩ := hs.writing [] hw
  rw [List.append_nil] at hwire
  have hsound := hs.sound.finish hcur
  rw [← outbox_wrote] at hsound
  unfold Connection.handleWriteFrame at hsound ⊢
  dsimp only at hsound ⊢
  rw [Option.isSome_none, if_neg (by decide)] at hsound ⊢
  by_cases hl : s.con.currentMsgs.getLast?.any OutMessage.terminal = true
  · rw [if_pos hl] at hsound ⊢
    have ht : Writes host isServer { s with
        writing := none, written := s.written ++ s.con.currentMsgs, con := { s.con with currentMsgs := [] } } := by
      refine ⟨hs.role, ?_, hs.size, nofun, fun _ => ⟨rfl, fun _ => hwire⟩, hs.front, hs.queued, hs.passed, hs.pongs⟩
      have hf := hs.sound.finish hcur
      rwa [Outbox.finish, if_pos (show s.outbox.current.getLast?.any OutMessage.terminal = true from hl)] at hf
    exact ht.terminate none
  · rw [if_neg hl] at hsound ⊢
    by_cases hq : s.con.sendQueue = []
    · rw [if_pos (List.isEmpty_iff.mpr hq)] at hsound ⊢
      exact ⟨hs.role, hsound, hs.size, nofun, fun _ => ⟨rfl, fun _ => hwire⟩, hs.front, hs.queued, hs.passed, hs.pongs⟩
    · rw [if_neg fun h => hq (List.isEmpty_iff.mp h)] at hsound ⊢
      exact ⟨hs.role, hsound, hs.size, nofun, fun _ => ⟨rfl, fun _ => hwire⟩, hs.front, hs.queued, hs.passed, hs.pongs⟩

private theorem writes_writeFailed (hs : Writes host isServer s) {b : Bytes} (hb : s.writing = some b) (message : Bytes) :
    Writes host isServer ({ s with writing := none, broken := true }.act (s.con.handleWriteFrame (some message))) := by
  have hsound := hs.sound.fail (hs.writing b hb).1
  unfold Connection.handleWriteFrame
  dsimp only
  rw [Option.isSome_some, if_pos rfl]
  have ht : Writes host isServer { s with writing := none, broken := true, con := { s.con with currentMsgs := [] } } :=
    ⟨hs.role, hsound, hs.size, nofun, fun _ => ⟨rfl, nofun⟩, hs.front, hs.queued, hs.passed, hs.pongs⟩
  exact ht.terminate (some message)

private theorem writes_push (hs : Writes host isServer s) {m : Message} {key : UInt32} (hm : m.payload.length < UInt64.size) :
    Writes host isServer (s.act (s.con.sendOpen host key m)) := by
  unfold Connection.sendOpen
  cases hprep : prepareDataFrame host s.con.isServer key (.make m.opcode m.payload) with
  | error e => exact hs
  | ok out =>
    obtain ⟨hc, htext, hb, ht⟩ := prepareDataFrame_ok hprep
    change m.opcode.isControl = false at hc
    rw [hs.role] at hb
    have hq : Connection.Queued host isServer m out :=
      ⟨⟨key, hb⟩, fun h => absurd (hc.symm.trans h) (by decide), htext, fun h => absurd (ht.symm.trans h) (by decide)⟩
    obtain ⟨hpush, hr⟩ := pushed_act (s := s) (m := m) (Connection.Keeps.refl _)
    have hpong : isPong m = false := by
      rw [isPong, decide_eq_false_iff_not]
      intro hop
      rw [hop] at hc
      cases hc
    refine hpush.writes hs hq hm ?_
    rw [hr.answered, List.filter_singleton, hpong]
    exact (List.append_nil _).symm

private theorem Pushed.writes_close {m : Message} {out : OutMessage} (h : Pushed s s' m out) (hs : Writes host isServer s)
    (hq : Connection.Queued host isServer m out) (hop : m.opcode = .close) (ha : s'.answered = s.answered) :
    Writes host isServer s' := by
  have hc : m.opcode.isControl = true := by
    rw [hop]
    rfl
  have hpong : isPong m = false := by
    rw [isPong, hop]
    rfl
  refine h.writes hs hq (Nat.lt_of_le_of_lt (hq.control hc) (by decide)) ?_
  rw [ha, List.filter_singleton, hpong]
  exact (List.append_nil _).symm

private theorem writes_close (hs : Writes host isServer s) {code : UInt16} {reason : Bytes} {key : UInt32} :
    Writes host isServer (s.act (s.con.close host key code reason).1) := by
  rcases Connection.close_replies (c := s.con) with
    ⟨_, _, hr⟩ | ⟨_, c', hc, hk⟩
  · obtain ⟨hq | ⟨m, out, ⟨hop, hqueued, _⟩, hp⟩, hreads⟩ := act_replies hr
    · exact hq.writes hs hreads.answered
    · rw [hs.role] at hqueued
      exact hp.writes_close hs hqueued hop hreads.answered
  · rw [hc]
    obtain ⟨hq | ⟨_, _, hf, _⟩, hreads⟩ := act_replies (Connection.Replies.quiet (P := fun _ _ => False) c' [] hk (.inl rfl))
    · exact hq.writes hs hreads.answered
    · exact hf.elim

private theorem Answers.writes (h : Answers host s s') (hs : Writes host isServer s) : Writes host isServer s' := by
  cases h with
  | quiet hq ha => exact hq.writes hs ha
  | closing m out hop hq ht hp ha =>
    rw [hs.role] at hq
    exact hp.writes_close hs hq hop ha
  | pong m out hq hp ha =>
    rw [hs.role] at hq
    refine hp.writes hs hq (Nat.lt_of_le_of_lt (hq.control rfl) (by decide)) ?_
    rw [ha, List.map_append]
    rfl

theorem step_writes (h : s.step host a = some s') (hs : Writes host isServer s) (hr : Reads host isServer maxMessageSize s) :
    Writes host isServer s' := by
  cases a with
  | send m =>
    simp only [step] at h
    split_ifs at h with hm
    cases h
    refine ⟨hs.role, hs.sound, hs.size, hs.writing, hs.idle, hs.front, hs.queued, fun m' hm' => ?_, hs.pongs⟩
    rcases List.mem_append.mp hm' with hm' | hm'
    · exact hs.passed m' hm'
    · rw [List.mem_singleton.mp hm']
      exact hm.2
  | push i key =>
    simp only [step, Option.map_eq_some_iff] at h
    obtain ⟨m, hm, rfl⟩ := h
    have hs' : Writes host isServer { s with passed := s.passed.eraseIdx i } :=
      ⟨hs.role, hs.sound, hs.size, hs.writing, hs.idle, hs.front, hs.queued,
        fun m' hm' => hs.passed m' (List.mem_of_mem_eraseIdx hm'), hs.pongs⟩
    exact writes_push hs' (hs.passed m (List.mem_of_getElem? hm))
  | close code reason key =>
    cases h
    exact writes_close hs
  | writeFrame =>
    simp only [step] at h
    split_ifs at h
    cases h
    exact writes_writeFrame hs
  | transmit n =>
    obtain ⟨_, b, hb, rfl⟩ := step_transmit.mp h
    exact writes_transmit hs hb n
  | wrote =>
    simp only [step] at h
    split_ifs at h with hw
    cases h
    exact writes_wrote hs hw
  | writeFailed message =>
    simp only [step, Option.map_eq_some_iff] at h
    obtain ⟨b, hb, rfl⟩ := h
    exact writes_writeFailed hs hb message
  | read b =>
    simp only [step] at h
    split_ifs at h
    cases h
    exact ⟨hs.role, hs.sound, hs.size, hs.writing, hs.idle, hs.front, hs.queued, hs.passed, hs.pongs⟩
  | readFailed ec =>
    simp only [step] at h
    split_ifs at h
    cases h
    have hs' : Writes host isServer { s with reading := false } :=
      ⟨hs.role, hs.sound, hs.size, hs.writing, hs.idle, hs.front, hs.queued, hs.passed, hs.pongs⟩
    unfold Connection.handleReadError
    split
    · split_ifs
      · exact hs'
      · exact hs'.terminate _
      · exact hs'.terminate _
    · exact hs'.terminate _
  | turn key =>
    simp only [step] at h
    split at h
    · cases h
    · cases h
      exact ⟨hs.role, hs.sound, hs.size, hs.writing, hs.idle, hs.front, hs.queued, hs.passed, hs.pongs⟩
    · next b hne hu =>
      cases h
      cases b with
      | nil => exact absurd rfl hne
      | cons x b =>
        obtain ⟨hw, hread⟩ := hr.loop _ hu
        have hs' : Writes host isServer { s with unread := (s.con.readTurn host key (x :: b)).2 } :=
          ⟨hs.role, hs.sound, hs.size, hs.writing, hs.idle, hs.front, hs.queued, hs.passed, hs.pongs⟩
        exact (act_turned (s := { s with unread := (s.con.readTurn host key (x :: b)).2 })
          (Connection.readTurn_turned) (control_short hw hread)).writes hs'
  | timeout =>
    simp only [step] at h
    split_ifs at h
    cases h
    exact hs.terminate _

end Endpoint
end DeribitClientServer.Transport
