import DeribitClientServer.Transport.Writes

/-! What a connection's peer and its own application get, over all its runs. -/
namespace DeribitClientServer.Transport
open Library Library.Utf8 Library.Endian Library.Mask Library.Chunked Library.Transition
open Server (SessionState)

/-- The step with which an application closes the connection. -/
def Act.closes : Act → Bool
  | .close _ _ _ => true
  | _ => false

/-- The steps of the writer. -/
def Act.writes : Act → Bool
  | .writeFrame | .transmit _ | .wrote => true
  | _ => false

namespace Endpoint
variable {host host' : Host} {isServer : Bool} {maxMessageSize : Nat} {s s' : Endpoint} {a : Act} {as : List Act}
  {l : List (Message × OutMessage)} {ps : List Bytes}

theorem run_reads {guard : Endpoint → Act → Prop} (r : Run (connection host isServer maxMessageSize) guard as s) :
    Reads host isServer maxMessageSize s :=
  r.invariant (Reads host isServer maxMessageSize) (fun _ h => h ▸ reads_start) fun _ _ _ hs _ h => step_reads h hs

theorem run_writes {guard : Endpoint → Act → Prop} (r : Run (connection host isServer maxMessageSize) guard as s) :
    Writes host isServer s :=
  (r.invariant (fun s => Writes host isServer s ∧ Reads host isServer maxMessageSize s)
    (fun _ h => h ▸ ⟨writes_start, reads_start⟩)
    fun _ _ _ hs _ h => ⟨step_writes h hs.1 hs.2, step_reads h hs.2⟩).1

/-- A frame of a queued message is the message, or an error for the other end. -/
private theorem frameStep_queued {m : Message} {key : UInt32} {server : Bool} {p : Option Message × Option Message}
    (h : frameStep host server maxMessageSize none (frameOf host server key m.opcode true m.payload) = .ok p) :
    p = (none, some m) := by
  obtain ⟨pending', out⟩ := p
  have hop : (frameOf host server key m.opcode true m.payload).basic.getOpcode = m.opcode := getOpcode_make
  have hfin : (frameOf host server key m.opcode true m.payload).basic.getFin = true := getFin_make
  obtain ⟨_, _, ⟨_, rfl, rfl⟩ | ⟨_, m', rfl, _, _, hend⟩⟩ := frameStep_ok h
  · rw [hop, plain_frameOf]
  · rcases hend with ⟨hmore, _⟩ | ⟨_, rfl, rfl, _⟩
    · exact absurd (hfin.symm.trans hmore) (by decide)
    · rw [hop, plain_frameOf]
      rfl

/-- The frames of queued messages, as the other end's host sees them. -/
private theorem frames_queued (host' : Host)
    (hl : ∀ p ∈ l, Connection.Queued host isServer p.1 p.2 ∧ p.1.payload.length < UInt64.size) :
    ∃ fs : List WireFrame, (l.map Prod.snd).flatMap OutMessage.bytes = fs.flatMap WireFrame.bytes ∧
      (∀ f ∈ fs, f.WellSized host') ∧
      List.Forall₂ (fun p f => ∃ key, f = frameOf host' (!isServer) key p.1.opcode true p.1.payload) l fs := by
  induction l with
  | nil => exact ⟨[], rfl, nofun, .nil⟩
  | cons p l ih =>
    obtain ⟨hq, hsize⟩ := hl p List.mem_cons_self
    obtain ⟨key, hb⟩ := hq.bytes
    obtain ⟨key', hhost⟩ := frameOf_host
      host' key
    rw [hhost] at hb
    obtain ⟨fs, hfs, hws, hall⟩ := ih fun q hq => hl q (List.mem_cons_of_mem p hq)
    refine ⟨frameOf host' (!isServer) key' p.1.opcode true p.1.payload :: fs, ?_, fun f hf => ?_, .cons ⟨key', rfl⟩ hall⟩
    · rw [List.map_cons, List.flatMap_cons, List.flatMap_cons, hb, hfs]
    · rcases List.mem_cons.mp hf with rfl | hf
      · exact frameOf_wellSized hsize
      · exact hws f hf

private theorem framesRun_queued {server : Bool} {fs : List WireFrame}
    (h : List.Forall₂ (fun (p : Message × OutMessage) f => ∃ key, f = frameOf host server key p.1.opcode true p.1.payload) l fs) :
    (framesRun host server maxMessageSize none fs).1 <+: l.map Prod.fst := by
  induction h with
  | nil => exact List.prefix_refl _
  | cons hp _ ih =>
    obtain ⟨key, rfl⟩ := hp
    rw [framesRun]
    cases hstep : frameStep host server maxMessageSize none _ with
    | error e => exact List.nil_prefix
    | ok p =>
      obtain rfl := frameStep_queued hstep
      exact (List.prefix_cons_inj _).mpr ih

/-- A queued message can be sent to another end that accepts it. -/
theorem sendable_queued {p : Message × OutMessage} (hq : Connection.Queued host isServer p.1 p.2)
    (ha : Accepts maxMessageSize p.1) : Sendable maxMessageSize p.1 := ⟨ha.kind, hq.control, ha.data, hq.text⟩

private theorem framesRun_accepted {server : Bool} {fs : List WireFrame} (hmax : maxMessageSize < UInt64.size)
    (h : List.Forall₂ (fun (p : Message × OutMessage) f => ∃ key, f = frameOf host server key p.1.opcode true p.1.payload) l fs)
    (hl : ∀ p ∈ l, Sendable maxMessageSize p.1) : framesRun host server maxMessageSize none fs = (l.map Prod.fst, .ok none) := by
  induction h with
  | nil => rfl
  | @cons p f l fs hp _ ih =>
    obtain ⟨key, rfl⟩ := hp
    rw [framesRun, frameStep_frameOf hmax (hl p List.mem_cons_self)]
    dsimp only
    rw [ih fun q hq => hl q (List.mem_cons_of_mem p hq)]
    rfl

/-- Whatever part of the frames arrives, and however it is cut, the other end gets the
first of the messages that were queued. -/
theorem delivered_queued (hl : ∀ p ∈ l, Connection.Queued host isServer p.1 p.2 ∧ p.1.payload.length < UInt64.size)
    (hp : ps.flatten <+: (l.map Prod.snd).flatMap OutMessage.bytes) :
    delivered host' (!isServer) maxMessageSize ps <+: l.map Prod.fst := by
  obtain ⟨fs, hb, hws, hall⟩ := frames_queued host' hl
  have hwhole : delivered host' (!isServer) maxMessageSize [fs.flatMap WireFrame.bytes] <+: l.map Prod.fst := by
    rw [delivered_eq, List.flatten_singleton, framesOf_flatMap hws]
    exact framesRun_queued hall
  refine (delivered_mono ?_).trans hwhole
  rw [List.flatten_singleton, ← hb]
  exact hp

/-- Once the frames have all arrived, an end that accepts the messages has got them all. -/
theorem readBytes_accepted (host' : Host) (hmax : maxMessageSize < UInt64.size)
    (hl : ∀ p ∈ l, Connection.Queued host isServer p.1 p.2 ∧ p.1.payload.length < UInt64.size)
    (ha : ∀ p ∈ l, Accepts maxMessageSize p.1) :
    ∃ p, readBytes host' (.init (!isServer) maxMessageSize) ((l.map Prod.snd).flatMap OutMessage.bytes) =
      (l.map Prod.fst, .ok p) := by
  obtain ⟨fs, hb, hws, hall⟩ := frames_queued host' hl
  obtain ⟨hout, hend⟩ := readBytes_frames (Stands.init (!isServer) maxMessageSize) hws
  have hrun : framesRun host' (!isServer) maxMessageSize none fs = (l.map Prod.fst, .ok none) :=
    framesRun_accepted hmax hall fun p hp => sendable_queued (hl p hp).1 (ha p hp)
  rw [hrun] at hout hend
  obtain ⟨p, hp, _⟩ := hend
  rw [hb]
  exact ⟨p, Prod.ext hout hp⟩

/-- No part of the frames is an error for an end that accepts the messages. -/
theorem readBytes_ok (hmax : maxMessageSize < UInt64.size)
    (hl : ∀ p ∈ l, Connection.Queued host isServer p.1 p.2 ∧ p.1.payload.length < UInt64.size)
    (ha : ∀ p ∈ l, Accepts maxMessageSize p.1) {b : Bytes} (hb : b <+: (l.map Prod.snd).flatMap OutMessage.bytes) :
    ∃ p, (readBytes host' (.init (!isServer) maxMessageSize) b).2 = .ok p := by
  obtain ⟨more, hmore⟩ := hb
  obtain ⟨p, hp⟩ := readBytes_accepted host' hmax hl ha
  rw [← hmore, readBytes_elementwise.append (waiting_init (!isServer) maxMessageSize)] at hp
  cases hr : (readBytes host' (.init (!isServer) maxMessageSize) b).2 with
  | ok q => exact ⟨q, rfl⟩
  | error e =>
    rw [andThen, hr] at hp
    cases congrArg Prod.snd hp

/-- The messages whose frames may go out: those queued up to a terminal one. -/
def sent (s : Endpoint) : List Message := (batch (fun p => p.2.terminal) s.queued).1.map Prod.fst

theorem sent_prefix : s.sent <+: s.queued.map Prod.fst := by
  refine ⟨(batch (fun p => p.2.terminal) s.queued).2.map Prod.fst, ?_⟩
  rw [sent, ← List.map_append, batch_append_batch]

private theorem bytes_sent : (batch OutMessage.terminal s.outbox.pushed).1 =
    (batch (fun p => p.2.terminal) s.queued).1.map Prod.snd := batch_map

private theorem mem_sent {p : Message × OutMessage} (hp : p ∈ (batch (fun p => p.2.terminal) s.queued).1) : p ∈ s.queued := by
  rw [← batch_append_batch (l := s.queued)]
  exact List.mem_append_left _ hp

/-- Whatever part of the wire another end reads, it gets the first messages sent. -/
theorem Writes.delivers (hs : Writes host isServer s) (hp : ps.flatten <+: s.wire) :
    delivered host' (!isServer) maxMessageSize ps <+: s.sent := by
  have hfront := hs.front
  rw [bytes_sent] at hfront
  exact delivered_queued (fun p hp => hs.queued p (mem_sent hp)) (hp.trans hfront)

/-- No part of the wire is an error for an end that accepts what was sent. -/
theorem Writes.accepted (hs : Writes host isServer s) (hmax : maxMessageSize < UInt64.size)
    (ha : ∀ m ∈ s.sent, Accepts maxMessageSize m) {b : Bytes} (hb : b <+: s.wire) :
    ∃ p, (readBytes host' (.init (!isServer) maxMessageSize) b).2 = .ok p := by
  have hfront := hs.front
  rw [bytes_sent] at hfront
  exact readBytes_ok hmax (fun p hp => hs.queued p (mem_sent hp)) (fun p hp => ha p.1 (List.mem_map_of_mem hp)) (hb.trans hfront)

theorem handleWriteFrame_keeps {c : Connection} {ec : Option Bytes} :
    (s.act (c.handleWriteFrame ec)).queued = s.queued ∧ (s.act (c.handleWriteFrame ec)).writing = s.writing := by
  unfold Connection.handleWriteFrame Connection.terminate
  dsimp only
  split_ifs <;> exact ⟨rfl, rfl⟩

theorem writeFrame_queued {c : Connection} : (s.act c.writeFrame).queued = s.queued := by
  unfold Connection.writeFrame
  dsimp only
  split_ifs <;> rfl

theorem writeFrame_shutdown {c : Connection} : (s.act c.writeFrame).shutdown = s.shutdown := by
  unfold Connection.writeFrame
  dsimp only
  split_ifs <;> rfl

section Closing

/-- What a step queues: data that was let through, a pong, or a close frame. -/
inductive Adds (a : Act) (s s' : Endpoint) : Prop where
  | none (hq : s'.queued = s.queued)
  | data (m : Message) (out : OutMessage) (hm : m ∈ s.passed) (hc : m.opcode.isControl = false)
      (hq : s'.queued = s.queued ++ [(m, out)])
  | pong (m : Message) (out : OutMessage) (hm : m.opcode = .pong) (hq : s'.queued = s.queued ++ [(m, out)])
  | close (m : Message) (out : OutMessage) (hm : m.opcode = .close)
      (ht : a.closes = false → s.con.isServer = true → out.terminal = true) (hq : s'.queued = s.queued ++ [(m, out)])

private theorem terminate_adds {ec : Option Bytes} : (s.act (s.con.terminate ec)).queued = s.queued := by
  unfold Connection.terminate
  dsimp only
  split_ifs <;> rfl

theorem step_adds (h : s.step host a = some s') (hr : Reads host isServer maxMessageSize s) : Adds a s s' := by
  cases a with
  | send m =>
    simp only [step] at h
    split_ifs at h
    cases h
    exact .none rfl
  | push i key =>
    simp only [step, Option.map_eq_some_iff] at h
    obtain ⟨m, hm, rfl⟩ := h
    unfold Connection.sendOpen
    cases hprep : prepareDataFrame host s.con.isServer key (.make m.opcode m.payload) with
    | error e => exact .none rfl
    | ok out =>
      have hpush : Pushed { s with passed := s.passed.eraseIdx i } _ m out := (pushed_act (Connection.Keeps.refl _)).1
      exact .data m out (List.mem_of_getElem? hm) (prepareDataFrame_ok hprep).1 hpush.queued
  | close code reason key =>
    cases h
    rcases Connection.close_replies (c := s.con) with ⟨_, _, hr⟩ | ⟨_, c', hc, _⟩
    · obtain ⟨hq | ⟨m, out, ⟨hop, _⟩, hp⟩, _⟩ := act_replies hr
      · exact .none hq.queued
      · exact .close m out hop (by intro h; cases h) hp.queued
    · rw [hc]
      exact .none rfl
  | writeFrame =>
    simp only [step] at h
    split_ifs at h
    cases h
    exact .none writeFrame_queued
  | transmit n =>
    obtain ⟨_, b, _, rfl⟩ := step_transmit.mp h
    exact .none rfl
  | wrote =>
    simp only [step] at h
    split_ifs at h
    cases h
    exact .none handleWriteFrame_keeps.1
  | writeFailed message =>
    simp only [step, Option.map_eq_some_iff] at h
    obtain ⟨b, _, rfl⟩ := h
    exact .none handleWriteFrame_keeps.1
  | read b =>
    simp only [step] at h
    split_ifs at h
    cases h
    exact .none rfl
  | readFailed ec =>
    simp only [step] at h
    split_ifs at h
    cases h
    refine .none ?_
    unfold Connection.handleReadError
    split
    · split_ifs
      · rfl
      · exact terminate_adds
      · exact terminate_adds
    · exact terminate_adds
  | turn key =>
    simp only [step] at h
    split at h
    · cases h
    · cases h
      exact .none rfl
    · next b hne hu =>
      cases h
      cases b with
      | nil => exact absurd rfl hne
      | cons x b =>
        obtain ⟨hw, hread⟩ := hr.loop _ hu
        cases act_turned (s := { s with unread := (s.con.readTurn host key (x :: b)).2 }) Connection.readTurn_turned
          (control_short hw hread) with
        | quiet hq ha => exact .none hq.queued
        | closing m out hop hq ht hp ha => exact .close m out hop (fun _ => ht) hp.queued
        | pong m out hq hp ha => exact .pong _ out rfl hp.queued
  | timeout =>
    simp only [step] at h
    split_ifs at h
    cases h
    exact .none terminate_adds

/-- A server whose application leaves the closing to its peer queues terminal close frames only. -/
theorem closes_terminal {guard : Endpoint → Act → Prop} (hg : ∀ s a, guard s a → a.closes = false)
    (r : Run (connection host true maxMessageSize) guard as s) :
    ∀ p ∈ s.queued, p.1.opcode = .close → p.2.terminal = true := by
  refine (r.invariant (fun s => (s.con.isServer = true ∧ Writes host true s ∧ Reads host true maxMessageSize s) ∧
    ∀ p ∈ s.queued, p.1.opcode = .close → p.2.terminal = true) (fun _ h => ?_) fun s a s' hs hga h => ?_).2
  · subst h
    exact ⟨⟨rfl, writes_start, reads_start⟩, nofun⟩
  · obtain ⟨⟨hserver, hw, hr⟩, hclose⟩ := hs
    have hw' := step_writes h hw hr
    refine ⟨⟨hw'.role, hw', step_reads h hr⟩, fun p hp hop => ?_⟩
    have hlast : ∀ m out, s'.queued = s.queued ++ [(m, out)] → (m.opcode = .close → out.terminal = true) → p.2.terminal = true := by
      intro m out hq hm
      rw [hq] at hp
      rcases List.mem_append.mp hp with hp | hp
      · exact hclose p hp hop
      · obtain rfl := List.mem_singleton.mp hp
        exact hm hop
    cases step_adds h hr with
    | none hq =>
      rw [hq] at hp
      exact hclose p hp hop
    | data m out _ hc hq =>
      refine hlast m out hq fun hm => ?_
      rw [hm] at hc
      cases hc
    | pong m out hm hq => exact hlast m out hq fun h => absurd (hm.symm.trans h) (by decide)
    | close m out _ ht hq => exact hlast m out hq fun _ => ht (hg s a hga) hserver

end Closing

section Draining

/-- The socket is open, or nothing is left for the writer to do. -/
def CanWrite (s : Endpoint) : Prop := s.shutdown = false ∨ s.con.writeFlag = true ∧ s.writing = none

private theorem handleWriteFrame_canWrite {c : Connection} (hd : s.shutdown = false) (hw : s.writing = none)
    (hf : c.writeFlag = true) : CanWrite (s.act (c.handleWriteFrame none)) := by
  unfold Connection.handleWriteFrame Connection.terminate
  dsimp only
  split_ifs
  all_goals first | exact .inl hd | exact .inr ⟨hf, hw⟩

private theorem writeFrame_canWrite (hcan : CanWrite s) :
    CanWrite ({ s with posted := s.posted - 1 }.act s.con.writeFrame) := by
  rcases hcan with hd | hidle
  · exact .inl (writeFrame_shutdown.trans hd)
  · rw [Connection.writeFrame, if_pos hidle.1]
    exact .inr hidle

/-- A batch being written can be written to its end. -/
private theorem writes_on (maxMessageSize : Nat) {rest : Bytes} (hd : s.shutdown = false) (hf : s.con.writeFlag = true)
    (hw : s.writing = some rest) :
    ∃ bs s', Run ((connection host isServer maxMessageSize).startingAt s) (fun _ a => a.writes = true) bs s' ∧
      s'.outbox = s.outbox.finish OutMessage.terminal ∧ s'.writing = none ∧ s'.queued = s.queued ∧ CanWrite s' := by
  have h1 : s.step host (.transmit rest.length) = some { s with writing := some [], wire := s.wire ++ rest.take rest.length } := by
    refine step_transmit.mpr ⟨hd, rest, hw, ?_⟩
    rw [List.drop_length]
  have r1 : Run ((connection host isServer maxMessageSize).startingAt s) (fun _ a => a.writes = true)
      ([] ++ [.transmit rest.length]) _ :=
    (Run.start rfl).next _ rfl h1
  generalize ht : ({ s with writing := some [], wire := s.wire ++ rest.take rest.length } : Endpoint) = t at r1
  have hwriting : t.writing = some [] := by rw [← ht]
  have hqueued : t.queued = s.queued := by rw [← ht]
  have hopen : t.shutdown = false := by rw [← ht, hd]
  have hbusy : t.con.writeFlag = true := by rw [← ht, hf]
  have hout : t.outbox = s.outbox := by
    rw [← ht]
    rfl
  have h2 : t.step host .wrote =
      some ({ t with writing := none, written := t.written ++ t.con.currentMsgs }.act (t.con.handleWriteFrame none)) :=
    if_pos hwriting
  refine ⟨_, _, r1.next _ rfl h2, outbox_wrote.trans (by rw [hout]), handleWriteFrame_keeps.2,
    handleWriteFrame_keeps.1.trans hqueued, handleWriteFrame_canWrite hopen rfl hbusy⟩

/-- What is being written can be written to its end. -/
private theorem finishes_on (maxMessageSize : Nat) (hs : Writes host isServer s) (hcan : CanWrite s) :
    ∃ bs s', Run ((connection host isServer maxMessageSize).startingAt s) (fun _ a => a.writes = true) bs s' ∧
      s'.outbox = (if s.outbox.current = [] then s.outbox else s.outbox.finish OutMessage.terminal) ∧
      s'.writing = none ∧ s'.queued = s.queued ∧ CanWrite s' := by
  cases hw : s.writing with
  | none =>
    have hc : s.outbox.current = [] := (hs.idle hw).1
    rw [if_pos hc]
    exact ⟨[], s, .start rfl, rfl, hw, rfl, hcan⟩
  | some rest =>
    have hc : s.outbox.current ≠ [] := (hs.writing rest hw).1
    have hopen : s.shutdown = false := by
      refine hcan.resolve_right fun h => ?_
      rw [hw] at h
      cases h.2
    rw [if_neg hc]
    exact writes_on maxMessageSize hopen (hs.sound.busy hc) hw

/-- The writer can be woken when there is something to write. -/
private theorem wakes_on (maxMessageSize : Nat) (hs : Writes host isServer s) (hcan : CanWrite s) :
    ∃ bs s', Run ((connection host isServer maxMessageSize).startingAt s) (fun _ a => a.writes = true) bs s' ∧
      s'.outbox = s.outbox.wake OutMessage.terminal ∧ s'.queued = s.queued ∧ CanWrite s' := by
  by_cases hposted : s.posted = 0
  · refine ⟨[], s, .start rfl, ?_, rfl, hcan⟩
    have hk : s.outbox.busy = true ∨ s.outbox.queue = [] := by
      cases hs.sound with
      | idle _ _ _ _ _ hwake => exact .inr (by_contra fun hq => (hwake hq).ne' hposted)
      | writing hb | ended hb | failed hb => exact .inl hb
    have hwakes : s.outbox.wakes - 1 = s.outbox.wakes := by
      rw [show s.outbox.wakes = 0 from hposted]
    rw [Outbox.wake, if_pos hk, hwakes]
  · have h1 : s.step host .writeFrame = some ({ s with posted := s.posted - 1 }.act s.con.writeFrame) := if_neg hposted
    exact ⟨_, _, (Run.start rfl).next _ rfl h1, outbox_writeFrame hs, writeFrame_queued, writeFrame_canWrite hcan⟩

/-- What holds of an endpoint in every run holds of it after every run from there. -/
theorem writes_from {guard : Endpoint → Act → Prop} (hw : Writes host isServer s) (hr : Reads host isServer maxMessageSize s)
    (r : Run ((connection host isServer maxMessageSize).startingAt s) guard as s') :
    Writes host isServer s' ∧ Reads host isServer maxMessageSize s' :=
  r.invariant (fun s => Writes host isServer s ∧ Reads host isServer maxMessageSize s)
    (fun _ h => h ▸ ⟨hw, hr⟩)
    fun _ _ _ hs _ h => ⟨step_writes h hs.1 hs.2, step_reads h hs.2⟩

/-- The writer alone can settle the queue of an endpoint whose socket is open. -/
theorem settles_on (hw : Writes host isServer s) (hr : Reads host isServer maxMessageSize s) (hd : s.shutdown = false) :
    ∃ bs s', Run ((connection host isServer maxMessageSize).startingAt s) (fun _ a => a.writes = true) bs s' ∧
      s'.outbox = s.outbox.settle OutMessage.terminal ∧ s'.writing = none ∧ s'.queued = s.queued := by
  obtain ⟨_, s₁, r₁, ho₁, _, hq₁, hcan₁⟩ := finishes_on maxMessageSize hw (.inl hd)
  obtain ⟨hw₁, hr₁⟩ := writes_from hw hr r₁
  obtain ⟨_, s₂, r₂, ho₂, hq₂, hcan₂⟩ := wakes_on maxMessageSize hw₁ hcan₁
  obtain ⟨hw₂, _⟩ := writes_from hw₁ hr₁ r₂
  obtain ⟨_, s₃, r₃, ho₃, hw₃, hq₃, _⟩ := finishes_on maxMessageSize hw₂ hcan₂
  refine ⟨_, s₃, (r₁.append r₂).append r₃, ?_, hw₃, by rw [hq₃, hq₂, hq₁]⟩
  rw [ho₃, ho₂, ho₁]
  rfl

/-- While no write failed and the socket is open, the writer alone can bring everything there is to send
onto the wire. -/
theorem drains_on (hw : Writes host isServer s) (hr : Reads host isServer maxMessageSize s) (hd : s.shutdown = false)
    (hb : s.broken = false) :
    ∃ bs s', Run ((connection host isServer maxMessageSize).startingAt s) (fun _ a => a.writes = true) bs s' ∧
      s'.wire = (batch OutMessage.terminal s.outbox.pushed).1.flatMap OutMessage.bytes ∧ s'.queued = s.queued := by
  obtain ⟨bs, s', r, ho, hnone, hq⟩ := settles_on hw hr hd
  have hbroken : s'.outbox.broken = false := by
    rw [ho]
    exact Outbox.settle_broken.trans hb
  have hwritten : s'.outbox.written = (batch OutMessage.terminal s.outbox.pushed).1 := by
    rw [ho]
    exact hw.sound.settles hb
  refine ⟨bs, s', r, ?_, hq⟩
  rw [((writes_from hw hr r).1.idle hnone).2 hbroken, ← hwritten]
  rfl

end Draining

section Results

private theorem mem_dropLast {l₁ l₂ : List Message} {m : Message} (h : l₁ <+: l₂) (hm : m ∈ l₁.dropLast) : m ∈ l₂.dropLast := by
  obtain ⟨more, rfl⟩ := h
  cases more with
  | nil => rwa [List.append_nil]
  | cons x more =>
    rw [List.dropLast_append_cons]
    exact List.mem_append_left _ (List.dropLast_subset _ hm)

/-- In every interleaving of callers, reads, writes and failures, the buffered amount is that of
the queue, a queue that waits for no write has the writer posted, and whatever part of the wire
another end reads, in any pieces, it gets the first of the messages sent. -/
theorem sending_sound (r : Run (connection host isServer maxMessageSize) anyStep as s) :
    s.con.sendBufferSize = (s.con.sendQueue.map fun out => out.payload.length).sum ∧
      (s.con.sendQueue ≠ [] → s.con.writeFlag = false → 0 < s.posted) ∧
      ∀ host' maxMessageSize' ps, ps.flatten <+: s.wire → delivered host' (!isServer) maxMessageSize' ps <+: s.sent := by
  have hs := run_writes r
  refine ⟨hs.size, fun hq hf => ?_, fun _ _ _ hp => hs.delivers hp⟩
  cases hs.sound with
  | idle _ _ _ _ _ hwake => exact hwake hq
  | writing hb | ended hb | failed hb => exact absurd (hf.symm.trans hb) (by decide)

theorem sending_sound_hello : ∃ as s, Run (connection .little true 1000) anyStep as s ∧ s.con.sendQueue ≠ [] ∧
    s.con.sendBufferSize = 1 ∧ ∀ ps, ps.flatten = [0x81, 0x02, 0x68, 0x69] → delivered .big false 500 ps <+: s.sent := by
  obtain ⟨s, hs, hq, hw⟩ : ∃ s, (start true 1000).steps .little [.send ⟨.text, [0x68, 0x69]⟩, .push 0 0, .writeFrame,
      .send ⟨.text, [0x21]⟩, .push 0 0, .transmit 4] = some s ∧ (s.con.sendQueue.map fun out => out.payload) = [[0x21]] ∧
      s.wire = [0x81, 0x02, 0x68, 0x69] := ⟨_, rfl, rfl, rfl⟩
  have r : Run (connection .little true 1000) anyStep _ s := run_of_steps (fun _ _ _ => trivial) hs
  obtain ⟨hsize, _, hdel⟩ := sending_sound r
  have hlen : (s.con.sendQueue.map fun out => out.payload.length) = [1] := by
    have h := congrArg (List.map List.length) hq
    rwa [List.map_map] at h
  refine ⟨_, s, r, fun hnil => ?_, by rw [hsize, hlen]; rfl, fun ps hp => hdel .big 500 ps (by rw [hw, hp])⟩
  rw [hnil] at hlen
  cases hlen

/-- From every state a run reaches without a failed write and before the socket is shut down, the writer
alone can bring all that was sent to any end that accepts it. -/
theorem wire_drains (r : Run (connection host isServer maxMessageSize) anyStep as s) (hd : s.shutdown = false)
    (hb : s.broken = false) :
    ∃ bs s', Run ((connection host isServer maxMessageSize).startingAt s) (fun _ a => a.writes = true) bs s' ∧
      ∀ host' maxMessageSize' ps, maxMessageSize' < UInt64.size → (∀ m ∈ s.sent, Accepts maxMessageSize' m) →
        ps.flatten = s'.wire → delivered host' (!isServer) maxMessageSize' ps = s.sent := by
  have hw := run_writes r
  obtain ⟨bs, s', r', hwire, _⟩ := drains_on hw (run_reads r) hd hb
  refine ⟨bs, s', r', fun host' maxMessageSize' ps hmax ha hp => ?_⟩
  rw [bytes_sent] at hwire
  obtain ⟨_, hread⟩ := readBytes_accepted host' hmax (fun p hp => hw.queued p (mem_sent hp)) fun p hp =>
    ha p.1 (List.mem_map_of_mem hp)
  rw [delivered, pieces_readBytes, hp, hwire, hread]
  rfl

theorem wire_drains_hello : ∃ as s, Run (connection .little true 1000) anyStep as s ∧ s.wire = [0x81] ∧
    ∃ bs s', Run ((connection .little true 1000).startingAt s) (fun _ a => a.writes = true) bs s' ∧
      ∀ ps, ps.flatten = s'.wire → delivered .big false 500 ps = [⟨.text, [0x68, 0x69]⟩, ⟨.text, [0x21]⟩] := by
  obtain ⟨s, hs, hw, hd, hb, hsent⟩ : ∃ s, (start true 1000).steps .little [.send ⟨.text, [0x68, 0x69]⟩, .push 0 0, .writeFrame,
      .send ⟨.text, [0x21]⟩, .push 0 0, .transmit 1] = some s ∧ s.wire = [0x81] ∧ s.shutdown = false ∧ s.broken = false ∧
      s.sent = [⟨.text, [0x68, 0x69]⟩, ⟨.text, [0x21]⟩] := ⟨_, rfl, rfl, rfl, rfl, rfl⟩
  have r : Run (connection .little true 1000) anyStep _ s := run_of_steps (fun _ _ _ => trivial) hs
  obtain ⟨bs, s', r', hdel⟩ := wire_drains r hd hb
  refine ⟨_, s, r, hw, bs, s', r', fun ps hp => ?_⟩
  rw [← hsent]
  refine hdel .big 500 ps (by decide) (fun m hm => ?_) hp
  rw [hsent] at hm
  rcases List.mem_pair.mp hm with rfl | rfl <;> exact ⟨by decide, by decide⟩

/-- In every run of a server whose application closes nothing, a close message is the last that any
other end can be delivered, whatever is queued behind it. -/
theorem server_closes_last (r : Run (connection host true maxMessageSize) (fun _ a => a.closes = false) as s)
    {maxMessageSize' : Nat} (hp : ps.flatten <+: s.wire) :
    ∀ m ∈ (delivered host' false maxMessageSize' ps).dropLast, m.opcode ≠ .close := by
  have hterm := closes_terminal (fun _ _ h => h) r
  have hsent : delivered host' false maxMessageSize' ps <+: s.sent := (run_writes r).delivers hp
  intro m hm hop
  obtain ⟨p, hp, rfl⟩ : ∃ p ∈ (batch (fun p : Message × OutMessage => p.2.terminal) s.queued).1.dropLast, p.1 = m := by
    have hmem : m ∈ s.sent.dropLast := mem_dropLast hsent hm
    rw [sent, ← List.map_dropLast] at hmem
    exact List.mem_map.mp hmem
  have hnot : p.2.terminal = false := batch_dropLast p hp
  have ht := hterm p (mem_sent (List.dropLast_subset _ hp)) hop
  exact absurd (ht.symm.trans hnot) (by decide)

/-- A message let through before the close arrived is queued behind it. -/
theorem server_closes_last_hello : ∃ as s, Run (connection .little true 1000) (fun _ a => a.closes = false) as s ∧
    s.queued.map (fun p => p.1.opcode) = [.text, .close, .text] ∧ s.wire = [0x81, 0x01, 0x68, 0x88, 0x02, 0x03, 0xe8] ∧
    ∀ m ∈ (delivered .big false 500 [s.wire]).dropLast, m.opcode ≠ .close := by
  have hrun : ((start true 1000).steps .little [.send ⟨.text, [0x68]⟩, .push 0 0, .send ⟨.text, [0x21]⟩,
      .read [0x88, 0x80, 0, 0, 0, 0], .turn 0, .push 0 0, .writeFrame, .transmit 7]).map
      (fun s => (s.queued.map (fun p => p.1.opcode), s.wire)) =
        some ([.text, .close, .text], [0x81, 0x01, 0x68, 0x88, 0x02, 0x03, 0xe8]) := by decide +kernel
  obtain ⟨s, hs, hv⟩ := Option.map_eq_some_iff.mp hrun
  obtain ⟨hq, hw⟩ := Prod.mk.inj hv
  have r : Run (connection .little true 1000) (fun _ a => a.closes = false) _ s := run_of_steps (fun _ => by decide) hs
  exact ⟨_, s, r, hq, hw, server_closes_last r (by rw [List.flatten_singleton])⟩

/-- In every run, the handler has got the first data messages that the whole frames read stand
for, and the first of their pings have a pong queued each, in order and with the same payload.
While the connection is open and nothing read is still to be looked at, they all have. -/
theorem handler_gets_messages (r : Run (connection host isServer maxMessageSize) anyStep as s) :
    let ms := (framesRun host isServer maxMessageSize none (framesOf host s.input)).1
    s.handled <+: ms.filter isData ∧ (s.queued.map Prod.fst).filter isPong <+: (ms.filter isPing).map pongOf ∧
      (s.con.state = .opened → s.unread = none →
        s.handled = ms.filter isData ∧ (s.queued.map Prod.fst).filter isPong = (ms.filter isPing).map pongOf) := by
  intro ms
  have hr := run_reads r
  have hms : (readBytes host (.init isServer maxMessageSize) s.input).1 = ms :=
    (readBytes_bytes (Stands.init isServer maxMessageSize)).1
  have htaken : s.taken <+: ms := hms ▸ hr.front
  rw [(run_writes r).pongs]
  refine ⟨hr.handled.front.trans (htaken.filter _), ?_, fun ho hu => ?_⟩
  · exact (hr.answered.front.trans (htaken.filter _)).map _
  · have hreading : s.reading = true := (hr.goesOn ho).resolve_right fun h => h hu
    have hall : s.taken = ms := by rw [← hms, (hr.idle hreading).2]
    rw [hr.handled.all ho, hr.answered.all ho, hall]
    exact ⟨rfl, rfl⟩

theorem handler_gets_messages_ping : ∃ as s, Run (connection .little true 1000) anyStep as s ∧
    s.handled = [⟨.text, [0x68]⟩] ∧ (s.queued.map Prod.fst).filter isPong = [⟨.pong, [0x69]⟩] := by
  have hrun : ((start true 1000).steps .little [.read [0x81, 0x81, 0, 0, 0, 0, 0x68, 0x89], .turn 0, .turn 0, .turn 0,
      .read [0x81, 0, 0, 0, 0, 0x69], .turn 0, .turn 0]).map
      (fun s => ((framesRun .little true 1000 none (framesOf .little s.input)).1, s.con.state, s.unread)) =
        some ([⟨.text, [0x68]⟩, ⟨.ping, [0x69]⟩], .opened, none) := by decide +kernel
  obtain ⟨s, hs, hv⟩ := Option.map_eq_some_iff.mp hrun
  simp only [Prod.mk.injEq] at hv
  obtain ⟨hms, ho, hu⟩ := hv
  have r : Run (connection .little true 1000) anyStep _ s := run_of_steps (fun _ _ _ => trivial) hs
  obtain ⟨hh, hp⟩ := (handler_gets_messages r).2.2 ho hu
  rw [hms] at hh hp
  exact ⟨_, s, r, hh, hp⟩

end Results

end Endpoint
end DeribitClientServer.Transport
