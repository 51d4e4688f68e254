import DeribitClientServer.Transport.Channel

/-! The two ends of a connection, each reading what the other wrote. -/
namespace DeribitClientServer.Transport
open Library Library.Utf8 Library.Endian Library.Mask Library.Chunked Library.Transition
open Server (SessionState)

/-- The client's end at false, the server's at true. -/
abbrev Duplex := Bool → Endpoint

/-- Two ends with a reliable stream each way. What an end reads is what the other wrote next. -/
def duplex (host : Bool → Host) (maxMessageSize : Bool → Nat) : Transition Duplex (Bool × Act) where
  initial d := ∀ e, d e = .start e (maxMessageSize e)
  step d a d' := (∀ b, a.2 = .read b → (d a.1).input ++ b <+: (d !a.1).wire) ∧
    (d a.1).step (host a.1) a.2 = some (d' a.1) ∧ d' (!a.1) = d !a.1

/-- A step in which nobody closes, nothing fails and only what the other end accepts is sent. -/
def Act.Friendly (maxMessageSize : Nat) : Act → Prop
  | .send m => Accepts maxMessageSize m
  | .close _ _ _ | .readFailed _ | .writeFailed _ => False
  | _ => True

theorem Act.friendly_of_writes {a : Act} {maxMessageSize : Nat} (h : a.writes = true) :
    a.Friendly maxMessageSize ∧ ∀ b, a ≠ .read b := by
  cases a with
  | writeFrame | transmit | wrote => exact ⟨trivial, nofun⟩
  | send | push | close | writeFailed | read | readFailed | turn | timeout => cases h

namespace Endpoint
variable {host : Host} {isServer : Bool} {maxMessageSize maxMessageSize' : Nat} {s s' : Endpoint} {a : Act}

/-- Handlers only add to what the application was handed. -/
theorem act_handled (r : Acted) : s.handled <+: (s.act r).handled := by
  have hfold : ∀ (es : List Effect) (t : Endpoint), t.handled <+: (es.foldl perform t).handled := by
    intro es
    induction es with
    | nil => exact fun t => List.prefix_refl _
    | cons e es ih =>
      intro t
      refine List.IsPrefix.trans ?_ (ih (perform t e))
      cases e with
      | message m => exact List.prefix_append _ _
      | queued | dispatch | asyncWrite | taken | answered | asyncShutdown => exact List.prefix_refl _
  exact hfold r.2 { s with con := r.1 }

/-- What a step does to what came in, went out and was handed over. -/
structure Streams (a : Act) (s s' : Endpoint) : Prop where
  wire : s.wire <+: s'.wire
  input : s'.input = s.input ∨ ∃ b, a = .read b ∧ s'.input = s.input ++ b
  handled : s.handled <+: s'.handled
  passed : ∀ m ∈ s'.passed, m ∈ s.passed ∨ a = .send m

/-- A handler moves no bytes, from a state with the streams of the one before. -/
private theorem Streams.act {t : Endpoint} {r : Acted} (hw : t.wire = s.wire) (hi : t.input = s.input) (hh : t.handled = s.handled)
    (hp : ∀ m ∈ t.passed, m ∈ s.passed) : Streams a s (t.act r) := by
  obtain ⟨hwire, hinput, hpassed, _⟩ := act_streams (s := t) r
  refine ⟨?_, .inl (hinput.trans hi), hh ▸ act_handled r, fun m hm => .inl (hp m (hpassed ▸ hm))⟩
  rw [hwire, hw]

theorem step_streams (h : s.step host a = some s') : Streams a s s' := by
  cases a with
  | send m =>
    simp only [step] at h
    split_ifs at h
    cases h
    refine ⟨List.prefix_refl _, .inl rfl, List.prefix_refl _, fun m' hm' => ?_⟩
    rcases List.mem_append.mp hm' with hm' | hm'
    · exact .inl hm'
    · rw [List.mem_singleton.mp hm']
      exact .inr rfl
  | push i key =>
    simp only [step, Option.map_eq_some_iff] at h
    obtain ⟨m, _, rfl⟩ := h
    exact .act rfl rfl rfl fun _ => List.mem_of_mem_eraseIdx
  | close code reason key =>
    cases h
    exact .act rfl rfl rfl fun _ => id
  | writeFrame =>
    simp only [step] at h
    split_ifs at h
    cases h
    exact .act rfl rfl rfl fun _ => id
  | transmit n =>
    obtain ⟨_, b, _, rfl⟩ := step_transmit.mp h
    exact ⟨List.prefix_append _ _, .inl rfl, List.prefix_refl _, fun _ => .inl⟩
  | wrote =>
    simp only [step] at h
    split_ifs at h
    cases h
    exact .act rfl rfl rfl fun _ => id
  | writeFailed message =>
    simp only [step, Option.map_eq_some_iff] at h
    obtain ⟨b, _, rfl⟩ := h
    exact .act rfl rfl rfl fun _ => id
  | read b =>
    simp only [step] at h
    split_ifs at h
    cases h
    exact ⟨List.prefix_refl _, .inr ⟨b, rfl, rfl⟩, List.prefix_refl _, fun _ => .inl⟩
  | readFailed ec =>
    simp only [step] at h
    split_ifs at h
    cases h
    exact .act rfl rfl rfl fun _ => id
  | turn key =>
    simp only [step] at h
    split at h
    · cases h
    · cases h
      exact ⟨List.prefix_refl _, .inl rfl, List.prefix_refl _, fun _ => .inl⟩
    · cases h
      exact .act rfl rfl rfl fun _ => id
  | timeout =>
    simp only [step] at h
    split_ifs at h
    cases h
    exact .act rfl rfl rfl fun _ => id

section Calm

/-- An open endpoint at which nothing closes, all of whose messages the other end accepts. -/
structure Calm (maxMessageSize : Nat) (s : Endpoint) : Prop where
  opened : s.con.state = .opened
  timer : s.con.handshakeTimer = false
  shutdown : s.shutdown = false
  broken : s.broken = false
  passed : ∀ m ∈ s.passed, Accepts maxMessageSize m
  queued : ∀ p ∈ s.queued, Accepts maxMessageSize p.1 ∧ p.1.opcode ≠ .close

theorem calm_start : Calm maxMessageSize (.start isServer maxMessageSize') := ⟨rfl, rfl, rfl, rfl, nofun, nofun⟩

/-- A pass of the read loop over bytes without an error or a close message. -/
theorem turned_calm {x : UInt8} {b : Bytes} {r : Acted × Option Bytes} (hw : Waiting host s.con.processor)
    (h : Connection.Turned host s.con (x :: b) r)
    (hl : ∀ p rest m, s.con.processor.consumed host (x :: b) = .ok (p, rest) → p.getMessage.1 = some m →
      m.opcode.isControl = true → m.payload.length ≤ payloadSizeBasic)
    (hok : ∃ p, (readBytes host s.con.processor (x :: b)).2 = .ok p)
    (hclose : ∀ m ∈ (readBytes host s.con.processor (x :: b)).1, m.opcode ≠ .close) (ho : s.con.state = .opened) :
    r.1.1.state = .opened ∧ r.1.1.handshakeTimer = s.con.handshakeTimer ∧ (s.act r.1).shutdown = s.shutdown ∧
      (∃ rest, r.2 = some rest ∧ rest.length ≤ b.length) ∧
      ((s.act r.1).queued = s.queued ∨ ∃ m out, (s.act r.1).queued = s.queued ++ [(m, out)] ∧ m.opcode = .pong) := by
  have hread := readBytes_turn (x := x) (b := b) hw
  cases h with
  | failed e p r hc hs hr =>
    obtain ⟨q, hq⟩ := hok
    rw [hread, hc] at hq
    cases hq
  | more p rest hc hp => exact ⟨ho, rfl, rfl, ⟨rest, rfl, (Hybi13.consumed_taken hw hc).1⟩, .inl rfl⟩
  | none p rest hc hp hg => exact ⟨ho, rfl, rfl, ⟨rest, rfl, (Hybi13.consumed_taken hw hc).1⟩, .inl rfl⟩
  | message p rest m r hc hp hg hr =>
    have hrest : ∃ rest', some rest = some rest' ∧ rest'.length ≤ b.length := ⟨rest, rfl, (Hybi13.consumed_taken hw hc).1⟩
    have hm : m.opcode ≠ .close := by
      refine hclose m ?_
      rw [hread, hc]
      dsimp only
      rw [if_pos hp, hg]
      exact List.mem_append_left _ (List.mem_singleton_self m)
    cases hr (hl p rest m hc hg) with
    | data hm hs => exact ⟨ho, rfl, rfl, hrest, .inl rfl⟩
    | ignored h => exact ⟨ho, rfl, rfl, hrest, .inl rfl⟩
    | ping out hm hs hq =>
      refine ⟨ho, rfl, ?_, hrest, .inr ⟨⟨.pong, m.payload⟩, out, ?_, rfl⟩⟩
      · rw [act_cons (c := { s.con with processor := p.getMessage.2 }), act_cons (c := { s.con with processor := p.getMessage.2 })]
        exact act_push_shutdown
      have hpush : Pushed ((s.act ({ s.con with processor := p.getMessage.2 }, [.taken m])).act
          ({ s.con with processor := p.getMessage.2 }, [.answered m])) _ ⟨.pong, m.payload⟩ out :=
        (pushed_act (Connection.Keeps.refl _)).1
      rw [act_cons (c := { s.con with processor := p.getMessage.2 }), act_cons (c := { s.con with processor := p.getMessage.2 })]
      exact hpush.queued
    | close r hm' hr => exact absurd hm' hm

private theorem writeFrame_calm {c : Connection} :
    c.writeFrame.1.state = c.state ∧ c.writeFrame.1.handshakeTimer = c.handshakeTimer := by
  unfold Connection.writeFrame
  split_ifs
  · exact ⟨rfl, rfl⟩
  · dsimp only
    split_ifs <;> exact ⟨rfl, rfl⟩

/-- Without a close message no batch is the last. -/
private theorem Calm.current (hc : Calm maxMessageSize s) (hw : Writes host isServer s) :
    s.con.currentMsgs.getLast?.any OutMessage.terminal = false := by
  rw [← Bool.not_eq_true]
  intro hl
  obtain ⟨out, hout, ht⟩ := getLast_ends hl
  have hpushed : out ∈ s.outbox.pushed := by
    rw [← batch_append_batch (l := s.outbox.pushed)]
    exact List.mem_append_left _ (hw.sound.front.subset (List.mem_append_right _ hout))
  obtain ⟨p, hp, rfl⟩ := List.mem_map.mp hpushed
  exact (hc.queued p hp).2 ((hw.queued p hp).1.terminal ht)

private theorem Calm.act (hc : Calm maxMessageSize s) {r : Acted} (hs : r.1.state = .opened) (ht : r.1.handshakeTimer = false)
    (hd : (s.act r).shutdown = s.shutdown)
    (hq : (s.act r).queued = s.queued ∨
      ∃ m out, (s.act r).queued = s.queued ++ [(m, out)] ∧ Accepts maxMessageSize m ∧ m.opcode ≠ .close) :
    Calm maxMessageSize (s.act r) := by
  obtain ⟨_, _, hpassed, hbroken⟩ := act_streams (s := s) r
  refine ⟨by rw [act_con]; exact hs, by rw [act_con]; exact ht, hd.trans hc.shutdown, hbroken.trans hc.broken, ?_, fun p hp => ?_⟩
  · rw [hpassed]
    exact hc.passed
  · rcases hq with hq | ⟨m, out, hq, ha⟩
    · rw [hq] at hp
      exact hc.queued p hp
    · rw [hq] at hp
      rcases List.mem_append.mp hp with hp | hp
      · exact hc.queued p hp
      · rw [List.mem_singleton.mp hp]
        exact ha

/-- A friendly step keeps an endpoint calm whose peer sends no errors and no close message. -/
theorem calm_step (hf : a.Friendly maxMessageSize') (h : s.step host a = some s') (hw : Writes host isServer s)
    (hr : Reads host isServer maxMessageSize s) (hc : Calm maxMessageSize' s)
    (hok : ∃ p, (readBytes host (.init isServer maxMessageSize) s.input).2 = .ok p)
    (hclose : ∀ m ∈ (readBytes host (.init isServer maxMessageSize) s.input).1, m.opcode ≠ .close) : Calm maxMessageSize' s' := by
  cases a with
  | close | readFailed | writeFailed => exact hf.elim
  | send m =>
    simp only [step] at h
    split_ifs at h
    cases h
    refine ⟨hc.opened, hc.timer, hc.shutdown, hc.broken, fun m' hm' => ?_, hc.queued⟩
    rcases List.mem_append.mp hm' with hm' | hm'
    · exact hc.passed m' hm'
    · rw [List.mem_singleton.mp hm']
      exact hf
  | push i key =>
    simp only [step, Option.map_eq_some_iff] at h
    obtain ⟨m, hm, rfl⟩ := h
    have hc' : Calm maxMessageSize' { s with passed := s.passed.eraseIdx i } :=
      ⟨hc.opened, hc.timer, hc.shutdown, hc.broken, fun m' hm' => hc.passed m' (List.mem_of_mem_eraseIdx hm'), hc.queued⟩
    unfold Connection.sendOpen
    cases hprep : prepareDataFrame host s.con.isServer key (.make m.opcode m.payload) with
    | error e => exact hc'
    | ok out =>
      have hdata := (prepareDataFrame_ok hprep).1
      refine hc'.act hc.opened hc.timer act_push_shutdown
        (.inr ⟨m, out, by rw [act_push], hc.passed m (List.mem_of_getElem? hm), fun hop => ?_⟩)
      change m.opcode.isControl = false at hdata
      rw [hop] at hdata
      cases hdata
  | writeFrame =>
    simp only [step] at h
    split_ifs at h
    cases h
    have hc' : Calm maxMessageSize' { s with posted := s.posted - 1 } :=
      ⟨hc.opened, hc.timer, hc.shutdown, hc.broken, hc.passed, hc.queued⟩
    exact hc'.act (writeFrame_calm.1.trans hc.opened) (writeFrame_calm.2.trans hc.timer) writeFrame_shutdown
      (.inl writeFrame_queued)
  | transmit n =>
    obtain ⟨_, b, _, rfl⟩ := step_transmit.mp h
    exact ⟨hc.opened, hc.timer, hc.shutdown, hc.broken, hc.passed, hc.queued⟩
  | wrote =>
    simp only [step] at h
    split_ifs at h
    cases h
    have hc' : Calm maxMessageSize' { s with writing := none, written := s.written ++ s.con.currentMsgs } :=
      ⟨hc.opened, hc.timer, hc.shutdown, hc.broken, hc.passed, hc.queued⟩
    have hnot := hc.current hw
    have hhandle : s.con.handleWriteFrame none = ({ s.con with currentMsgs := [], writeFlag := false },
        if s.con.sendQueue.isEmpty then [] else [.dispatch]) := by
      rw [Connection.handleWriteFrame, hnot]
      rfl
    refine hc'.act (by rw [hhandle]; exact hc.opened) (by rw [hhandle]; exact hc.timer) ?_ (.inl handleWriteFrame_keeps.1)
    rw [hhandle]
    split_ifs <;> rfl
  | read b =>
    simp only [step] at h
    split_ifs at h
    cases h
    exact ⟨hc.opened, hc.timer, hc.shutdown, hc.broken, hc.passed, hc.queued⟩
  | turn key =>
    simp only [step] at h
    split at h
    · cases h
    · cases h
      exact ⟨hc.opened, hc.timer, hc.shutdown, hc.broken, hc.passed, hc.queued⟩
    · next b hne hu =>
      cases h
      cases b with
      | nil => exact absurd rfl hne
      | cons x b =>
        obtain ⟨hwait, hread⟩ := hr.loop _ hu
        have hc' : Calm maxMessageSize' { s with unread := (s.con.readTurn host key (x :: b)).2 } :=
          ⟨hc.opened, hc.timer, hc.shutdown, hc.broken, hc.passed, hc.queued⟩
        obtain ⟨ho, ht, hd, _, hq⟩ := turned_calm (s := { s with unread := (s.con.readTurn host key (x :: b)).2 }) hwait
          Connection.readTurn_turned (control_short hwait hread) (by rwa [hread] at hok)
          (fun m hm => hclose m (by rw [hread]; exact List.mem_append_right _ hm)) hc.opened
        refine hc'.act ho (ht.trans hc.timer) hd (hq.imp_right ?_)
        rintro ⟨m, out, hq, hm⟩
        refine ⟨m, out, hq, ⟨by rw [hm]; decide, fun hdata => ?_⟩, by rw [hm]; decide⟩
        rw [hm] at hdata
        cases hdata
  | timeout =>
    simp only [step] at h
    rw [hc.timer] at h
    cases h

/-- A pass of the read loop can be taken, over a part of what a read got. -/
theorem turn_on {b : Bytes} (hr : Reads host isServer maxMessageSize s) (ho : s.con.state = .opened)
    (hu : s.unread = some b) (hok : ∃ p, (readBytes host (.init isServer maxMessageSize) s.input).2 = .ok p)
    (hclose : ∀ m ∈ (readBytes host (.init isServer maxMessageSize) s.input).1, m.opcode ≠ .close) :
    ∃ s', s.step host (.turn 0) = some s' ∧ s'.input = s.input ∧ s'.con.state = .opened ∧
      (s'.unread = none ∧ s'.reading = true ∨ ∃ rest, s'.unread = some rest ∧ rest.length < b.length) := by
  cases b with
  | nil =>
    have hstep : s.step host (.turn 0) = some { s with unread := none, reading := true } := by
      simp only [step, hu]
    exact ⟨_, hstep, rfl, ho, .inl ⟨rfl, rfl⟩⟩
  | cons x b =>
    have hstep : s.step host (.turn 0) = some ({ s with unread := (s.con.readTurn host 0 (x :: b)).2 }.act
        (s.con.readTurn host 0 (x :: b)).1) := by
      simp only [step, hu]
    obtain ⟨hwait, hread⟩ := hr.loop _ hu
    obtain ⟨ho', _, _, ⟨rest, hrest, hlen⟩, _⟩ := turned_calm (s := { s with unread := (s.con.readTurn host 0 (x :: b)).2 }) hwait
      Connection.readTurn_turned (control_short hwait hread) (by rwa [hread] at hok)
      (fun m hm => hclose m (by rw [hread]; exact List.mem_append_right _ hm)) ho
    refine ⟨_, hstep, (act_streams _).2.1, ?_, .inr ⟨rest, act_unread.trans hrest, Nat.lt_succ_of_le hlen⟩⟩
    rw [act_con]
    exact ho'

/-- The read loop can look at everything a read got. -/
theorem turns_on {b : Bytes} (hr : Reads host isServer maxMessageSize s) (ho : s.con.state = .opened)
    (hu : s.unread = some b) (hok : ∃ p, (readBytes host (.init isServer maxMessageSize) s.input).2 = .ok p)
    (hclose : ∀ m ∈ (readBytes host (.init isServer maxMessageSize) s.input).1, m.opcode ≠ .close) :
    ∃ bs s', Run ((connection host isServer maxMessageSize).startingAt s) (fun _ a => a = .turn 0) bs s' ∧ s'.unread = none ∧
      s'.reading = true ∧ s'.input = s.input := by
  induction hn : b.length using Nat.strongRecOn generalizing s b with
  | ind n ih =>
    obtain ⟨s₁, hstep, hi, ho₁, ⟨hnone, hreading⟩ | ⟨rest, hrest, hlen⟩⟩ := turn_on hr ho hu hok hclose
    · exact ⟨_, s₁, (Run.start rfl).next _ rfl hstep, hnone, hreading, hi⟩
    · rw [← hi] at hok hclose
      obtain ⟨bs, s', r', hnone, hreading, hi'⟩ :=
        ih rest.length (hn ▸ hlen) (step_reads hstep hr) ho₁ hrest hok hclose rfl
      exact ⟨_, s', Run.append ((Run.start rfl).next _ rfl hstep) r', hnone, hreading, hi'.trans hi⟩

end Calm

end Endpoint

section Runs
variable {host : Bool → Host} {maxMessageSize : Bool → Nat} {guard : Duplex → Bool × Act → Prop} {as : List (Bool × Act)} {d : Duplex}

/-- Each end runs as a connection does whose peer may send anything. -/
theorem end_run (r : Run (duplex host maxMessageSize) guard as d) (e : Bool) :
    ∃ bs, Run (connection (host e) e (maxMessageSize e)) anyStep bs (d e) := by
  induction r with
  | start h => exact ⟨[], .start (h e)⟩
  | @next as d d' _ a _ h ih =>
    obtain ⟨bs, r⟩ := ih
    obtain ⟨_, hstep, hother⟩ := h
    by_cases he : e = a.1
    · subst he
      exact ⟨_, r.next a.2 trivial hstep⟩
    · have hnot : e = !a.1 := Bool.eq_not_of_ne he
      rw [hnot, hother, ← hnot]
      exact ⟨bs, r⟩

/-- What an end has read is the start of what the other wrote. -/
theorem input_wire (r : Run (duplex host maxMessageSize) guard as d) (e : Bool) : (d e).input <+: (d !e).wire := by
  induction r with
  | start h =>
    rw [h e]
    exact List.nil_prefix
  | @next as d d' _ a _ h ih =>
    obtain ⟨hread, hstep, hother⟩ := h
    obtain ⟨hwire, hinput, _, _⟩ := Endpoint.step_streams hstep
    by_cases he : e = a.1
    · subst he
      rw [hother]
      rcases hinput with hi | ⟨b, hb, hi⟩
      · rw [hi]
        exact ih
      · rw [hi]
        exact hread b hb
    · have hnot : a.1 = !e := Bool.eq_not_of_ne fun h => he h.symm
      have hself : d' e = d e := by rwa [hnot, Bool.not_not] at hother
      rw [hself, ← hnot]
      rw [← hnot] at ih
      exact ih.trans hwire

/-- What an end has taken is the start of what the other sent. -/
theorem taken_sent (r : Run (duplex host maxMessageSize) guard as d) (e : Bool) : (d e).taken <+: (d !e).sent := by
  obtain ⟨_, re⟩ := end_run r e
  obtain ⟨_, ro⟩ := end_run r (!e)
  have hdel : delivered (host e) (!(!e)) (maxMessageSize e) [(d e).input] <+: (d !e).sent :=
    (Endpoint.run_writes ro).delivers (by rw [List.flatten_singleton]; exact input_wire r e)
  rw [Bool.not_not, delivered, pieces_readBytes, List.flatten_singleton] at hdel
  exact (Endpoint.run_reads re).front.trans hdel

/-- What the handler of an end has got is the start of the data that the other queued. -/
theorem handled_queued (r : Run (duplex host maxMessageSize) guard as d) (e : Bool) :
    (d e).handled <+: ((d !e).queued.map Prod.fst).filter Endpoint.isData := by
  obtain ⟨_, re⟩ := end_run r e
  exact (Endpoint.run_reads re).handled.front.trans (((taken_sent r e).trans Endpoint.sent_prefix).filter _)

section Friendly

/-- What an end has read holds no error and no close message when the other is calm. -/
private theorem input_accepted (hmax : ∀ e, maxMessageSize e < UInt64.size)
    (r : Run (duplex host maxMessageSize) guard as d) (e : Bool)
    (hc : (d !e).Calm (maxMessageSize e)) :
    (∃ p, (readBytes (host e) (.init e (maxMessageSize e)) (d e).input).2 = .ok p) ∧
      ∀ m ∈ (readBytes (host e) (.init e (maxMessageSize e)) (d e).input).1, m.opcode ≠ .close := by
  obtain ⟨_, ro⟩ := end_run r (!e)
  have hw := Endpoint.run_writes ro
  have hsent : ∀ m ∈ (d !e).sent, Accepts (maxMessageSize e) m ∧ m.opcode ≠ .close := by
    intro m hm
    obtain ⟨p, hp, rfl⟩ := List.mem_map.mp (Endpoint.sent_prefix.subset hm)
    exact hc.queued p hp
  have hok : ∃ p, (readBytes (host e) (.init (!(!e)) (maxMessageSize e)) (d e).input).2 = .ok p :=
    hw.accepted (hmax e) (fun m hm => (hsent m hm).1) (input_wire r e)
  have hdel : delivered (host e) (!(!e)) (maxMessageSize e) [(d e).input] <+: (d !e).sent :=
    hw.delivers (by rw [List.flatten_singleton]; exact input_wire r e)
  rw [Bool.not_not] at hok
  rw [Bool.not_not, delivered, pieces_readBytes, List.flatten_singleton] at hdel
  exact ⟨hok, fun m hm => (hsent m (hdel.subset hm)).2⟩

/-- In a friendly run both ends stay calm. -/
theorem calm_run (hmax : ∀ e, maxMessageSize e < UInt64.size)
    (r : Run (duplex host maxMessageSize) (fun _ a => a.2.Friendly (maxMessageSize !a.1)) as d) :
    ∀ e, (d e).Calm (maxMessageSize !e) := by
  induction r with
  | start h =>
    intro e
    rw [h e]
    exact Endpoint.calm_start
  | @next as d d' r a hf h ih =>
    obtain ⟨_, hstep, hother⟩ := h
    intro e
    by_cases he : e = a.1
    · subst he
      obtain ⟨_, re⟩ := end_run r a.1
      have hc := ih (!a.1)
      rw [Bool.not_not] at hc
      obtain ⟨hok, hclose⟩ := input_accepted hmax r a.1 hc
      exact Endpoint.calm_step hf hstep (Endpoint.run_writes re) (Endpoint.run_reads re) (ih a.1) hok hclose
    · have hnot : e = !a.1 := Bool.eq_not_of_ne he
      rw [hnot, hother, ← hnot]
      exact ih e

/-- In a friendly run nothing read is an error or a close message. -/
theorem input_calm (hmax : ∀ e, maxMessageSize e < UInt64.size)
    (r : Run (duplex host maxMessageSize) (fun _ a => a.2.Friendly (maxMessageSize !a.1)) as d) (e : Bool) :
    (∃ p, (readBytes (host e) (.init e (maxMessageSize e)) (d e).input).2 = .ok p) ∧
      ∀ m ∈ (readBytes (host e) (.init e (maxMessageSize e)) (d e).input).1, m.opcode ≠ .close := by
  have hc := calm_run hmax r (!e)
  rw [Bool.not_not] at hc
  exact input_accepted hmax r e hc

/-- Steps of one end that read nothing are steps of the two. -/
theorem lift_run {e : Bool} {g : Endpoint → Act → Prop} {bs : List Act} {s' : Endpoint}
    (hg : ∀ s a, g s a → a.Friendly (maxMessageSize !e) ∧ ∀ b, a ≠ .read b)
    (r : Run ((connection (host e) e (maxMessageSize e)).startingAt (d e)) g bs s') :
    ∃ cs, Run ((duplex host maxMessageSize).startingAt d) (fun d a => a.1 = e ∧ g (d e) a.2) cs (Function.update d e s') := by
  have hne : (!e) ≠ e := Bool.not_ne_self e
  induction r with
  | start h =>
    obtain rfl := h
    exact ⟨[], .start (Function.update_eq_self e d)⟩
  | @next bs s s' _ a ha h ih =>
    obtain ⟨cs, r⟩ := ih
    obtain ⟨_, hread⟩ := hg s a ha
    refine ⟨_, r.next (e, a) ⟨rfl, by rwa [Function.update_self]⟩ ⟨fun b hb => absurd hb (hread b), ?_, ?_⟩⟩
    · rw [Function.update_self, Function.update_self]
      exact h
    · rw [Function.update_of_ne hne, Function.update_of_ne hne]

/-- Steps of the writer of one end. -/
def WriterOf (e : Bool) : Duplex → Bool × Act → Prop := fun _ a => a.1 = e ∧ a.2.writes = true

/-- Steps of the reader of one end. -/
def ReaderOf (e : Bool) : Duplex → Bool × Act → Prop := fun _ a => a.1 = e ∧ (a.2 = .turn 0 ∨ ∃ b, a.2 = .read b)

theorem WriterOf.friendly {e : Bool} (d : Duplex) (a : Bool × Act) (h : WriterOf e d a) : a.2.Friendly (maxMessageSize !a.1) :=
  (Act.friendly_of_writes h.2).1

theorem ReaderOf.friendly {e : Bool} (d : Duplex) (a : Bool × Act) (h : ReaderOf e d a) : a.2.Friendly (maxMessageSize !a.1) := by
  obtain ⟨_, h | ⟨b, h⟩⟩ := h <;> rw [h] <;> trivial

/-- The writer of an end can bring all it has queued onto the wire. -/
theorem drained (hmax : ∀ e, maxMessageSize e < UInt64.size)
    (r : Run (duplex host maxMessageSize) (fun _ a => a.2.Friendly (maxMessageSize !a.1)) as d) (e : Bool) :
    ∃ bs d', Run ((duplex host maxMessageSize).startingAt d) (WriterOf e) bs d' ∧
      (d' e).queued = (d e).queued ∧ d' (!e) = d !e ∧ (d' e).wire = ((d e).queued.map Prod.snd).flatMap OutMessage.bytes := by
  obtain ⟨_, re⟩ := end_run r e
  have hw := Endpoint.run_writes re
  have hc := calm_run hmax r e
  obtain ⟨bs, s', rs, hwire, hq⟩ := Endpoint.drains_on hw (Endpoint.run_reads re) hc.shutdown hc.broken
  have hall : (batch OutMessage.terminal (d e).outbox.pushed).1 = (d e).outbox.pushed := by
    refine batch_all fun out hout => Bool.eq_false_iff.mpr fun ht => ?_
    obtain ⟨p, hp, rfl⟩ := List.mem_map.mp hout
    exact (hc.queued p hp).2 ((hw.queued p hp).1.terminal ht)
  rw [hall] at hwire
  obtain ⟨cs, rc⟩ := lift_run (fun _ _ ha => Act.friendly_of_writes ha) rs
  refine ⟨cs, _, rc, ?_, Function.update_of_ne (Bool.not_ne_self e) _ _, ?_⟩
  · rw [Function.update_self, hq]
  · rw [Function.update_self, hwire]
    rfl

/-- An end can look at everything it has read. -/
private theorem looked (hmax : ∀ e, maxMessageSize e < UInt64.size)
    (r : Run (duplex host maxMessageSize) (fun _ a => a.2.Friendly (maxMessageSize !a.1)) as d) (e : Bool) :
    ∃ bs d', Run ((duplex host maxMessageSize).startingAt d) (ReaderOf e) bs d' ∧
      (d' e).unread = none ∧ (d' e).reading = true ∧ (d' e).input = (d e).input ∧ d' (!e) = d !e := by
  obtain ⟨_, re⟩ := end_run r e
  have hr := Endpoint.run_reads re
  have ho := (calm_run hmax r e).opened
  cases hu : (d e).unread with
  | none => exact ⟨[], d, .start rfl, hu, (hr.goesOn ho).resolve_right fun h => h hu, rfl, rfl⟩
  | some b =>
    obtain ⟨hok, hclose⟩ := input_calm hmax r e
    obtain ⟨bs, s', rs, hnone, hreading, hi⟩ := Endpoint.turns_on hr ho hu hok hclose
    obtain ⟨cs, rc⟩ := lift_run (fun s a ha => by rw [ha]; exact ⟨trivial, nofun⟩) rs
    refine ⟨cs, _, rc.weaken fun _ a h => ⟨h.1, .inl h.2⟩, ?_, ?_, ?_, Function.update_of_ne (Bool.not_ne_self e) _ _⟩
    · rw [Function.update_self, hnone]
    · rw [Function.update_self, hreading]
    · rw [Function.update_self, hi]

/-- An end that has looked at everything it read can read the rest of what the other wrote. -/
theorem reads_rest (r : Run (duplex host maxMessageSize) guard as d) {e : Bool} (hreading : (d e).reading = true)
    (hi : (d e).input ≠ (d !e).wire) :
    ∃ b d', (duplex host maxMessageSize).step d (e, .read b) d' ∧ (d' e).input = (d !e).wire ∧ d' (!e) = d !e ∧
      (d' e).handled = (d e).handled := by
  obtain ⟨more, hmore⟩ := input_wire r e
  have hm : more ≠ [] := by
    rintro rfl
    exact hi (by rw [← hmore, List.append_nil])
  have hstep : (d e).step (host e) (.read more) =
      some { d e with reading := false, unread := some more, input := (d e).input ++ more } := if_pos ⟨hreading, hm⟩
  refine ⟨more, Function.update d e { d e with reading := false, unread := some more, input := (d e).input ++ more },
    ⟨fun b hb => ?_, ?_, Function.update_of_ne (Bool.not_ne_self e) _ _⟩, ?_, Function.update_of_ne (Bool.not_ne_self e) _ _, ?_⟩
  · obtain rfl := Act.read.inj hb
    rw [hmore]
  · rw [Function.update_self]
    exact hstep
  · rw [Function.update_self, ← hmore]
  · rw [Function.update_self]

/-- An end can read everything the other wrote. -/
theorem caught_up (hmax : ∀ e, maxMessageSize e < UInt64.size)
    (r : Run (duplex host maxMessageSize) (fun _ a => a.2.Friendly (maxMessageSize !a.1)) as d) (e : Bool) :
    ∃ bs d', Run ((duplex host maxMessageSize).startingAt d) (ReaderOf e) bs d' ∧
      (d' e).reading = true ∧ (d' e).input = (d !e).wire ∧ d' (!e) = d !e := by
  obtain ⟨bs₁, d₁, r₁, _, hreading₁, hi₁, ho₁⟩ := looked hmax r e
  by_cases hm : (d₁ e).input = (d₁ !e).wire
  · exact ⟨bs₁, d₁, r₁, hreading₁, hm.trans (by rw [ho₁]), ho₁⟩
  · have r' := r.append (r₁.weaken ReaderOf.friendly)
    obtain ⟨b, d₂, hstep, hi₂, ho₂, _⟩ := reads_rest r' hreading₁ hm
    have r₂ := r₁.next (e, .read b) ⟨rfl, .inr ⟨b, rfl⟩⟩ hstep
    obtain ⟨bs₃, d₃, r₃, _, hreading₃, hi₃, ho₃⟩ := looked hmax (r.append (r₂.weaken ReaderOf.friendly)) e
    refine ⟨_, d₃, r₂.append r₃, hreading₃, ?_, ?_⟩
    · rw [hi₃, hi₂, ho₁]
    · rw [ho₃, ho₂, ho₁]

/-- The handler of an end that has read all that the other queued has got its data messages. -/
theorem handled_all (hmax : ∀ e, maxMessageSize e < UInt64.size)
    (r : Run (duplex host maxMessageSize) (fun _ a => a.2.Friendly (maxMessageSize !a.1)) as d) {e : Bool}
    (hreading : (d e).reading = true) (hi : (d e).input = ((d !e).queued.map Prod.snd).flatMap OutMessage.bytes) :
    (d e).handled = ((d !e).queued.map Prod.fst).filter Endpoint.isData := by
  obtain ⟨_, re⟩ := end_run r e
  obtain ⟨_, ro⟩ := end_run r (!e)
  have hr := Endpoint.run_reads re
  have hc := calm_run hmax r (!e)
  rw [Bool.not_not] at hc
  obtain ⟨_, hread⟩ := Endpoint.readBytes_accepted (host e) (hmax e) (Endpoint.run_writes ro).queued fun p hp => (hc.queued p hp).1
  rw [Bool.not_not, ← hi, (hr.idle hreading).2] at hread
  rw [hr.handled.all (calm_run hmax r e).opened, (Prod.mk.inj hread).1]

/-- The handler of an end can get every data message that the other has queued. -/
private theorem delivers_on (hmax : ∀ e, maxMessageSize e < UInt64.size)
    (r : Run (duplex host maxMessageSize) (fun _ a => a.2.Friendly (maxMessageSize !a.1)) as d) (e : Bool) :
    ∃ bs d', Run ((duplex host maxMessageSize).startingAt d) (fun _ a => a.2.Friendly (maxMessageSize !a.1)) bs d' ∧
      (d' e).handled = ((d !e).queued.map Prod.fst).filter Endpoint.isData := by
  obtain ⟨bs₁, d₁, r₁, hq₁, _, hwire₁⟩ := drained hmax r (!e)
  have r₁' : Run ((duplex host maxMessageSize).startingAt d) (fun _ a => a.2.Friendly (maxMessageSize !a.1)) bs₁ d₁ :=
    r₁.weaken WriterOf.friendly
  obtain ⟨bs₂, d₂, r₂, hreading₂, hi₂, ho₂⟩ := caught_up hmax (r.append r₁') e
  have r₂' : Run ((duplex host maxMessageSize).startingAt d₁) (fun _ a => a.2.Friendly (maxMessageSize !a.1)) bs₂ d₂ :=
    r₂.weaken ReaderOf.friendly
  refine ⟨_, d₂, r₁'.append r₂', ?_⟩
  have hh := handled_all hmax ((r.append r₁').append r₂') hreading₂ (by rw [hi₂, hwire₁, ho₂, hq₁])
  rw [hh, ho₂, hq₁]

/-- A server that has queued three messages, the first two by threads of which the later was faster. -/
private theorem greeting : ∃ as d, Run (duplex (fun _ => .little) fun _ => 1000) (fun _ a => a.2.Friendly 1000) as d ∧
    (d true).queued.map Prod.fst = [⟨.binary, [0xff]⟩, ⟨.text, [0x68, 0x69]⟩, ⟨.text, [0x21]⟩] := by
  obtain ⟨s, hs, hq⟩ : ∃ s, (Endpoint.start true 1000).steps .little [.send ⟨.text, [0x68, 0x69]⟩, .send ⟨.binary, [0xff]⟩,
      .push 1 0, .push 0 0, .send ⟨.text, [0x21]⟩, .push 0 0] = some s ∧
      s.queued.map Prod.fst = [⟨.binary, [0xff]⟩, ⟨.text, [0x68, 0x69]⟩, ⟨.text, [0x21]⟩] := ⟨_, rfl, rfl⟩
  have r : Run (connection .little true 1000) (fun _ a => a.Friendly 1000 ∧ ∀ b, a ≠ .read b) [.send ⟨.text, [0x68, 0x69]⟩,
      .send ⟨.binary, [0xff]⟩, .push 1 0, .push 0 0, .send ⟨.text, [0x21]⟩, .push 0 0] s := by
    refine Endpoint.run_of_steps (fun _ a ha => ?_) hs
    simp only [List.mem_cons, List.not_mem_nil, or_false] at ha
    rcases ha with rfl | rfl | rfl | rfl | rfl | rfl
    · exact ⟨⟨by decide, by decide⟩, nofun⟩
    · exact ⟨⟨by decide, by decide⟩, nofun⟩
    · exact ⟨trivial, nofun⟩
    · exact ⟨trivial, nofun⟩
    · exact ⟨⟨by decide, by decide⟩, nofun⟩
    · exact ⟨trivial, nofun⟩
  obtain ⟨cs, rc⟩ : ∃ cs, Run ((duplex (fun _ => .little) fun _ => 1000).startingAt fun e => .start e 1000)
      (fun _ a => a.1 = true ∧ a.2.Friendly 1000 ∧ ∀ b, a.2 ≠ .read b) cs (Function.update (fun e => .start e 1000) true s) :=
    lift_run (fun _ _ h => h) r
  refine ⟨_, _, Run.append (.start fun _ => rfl) (rc.weaken fun _ _ h => h.2.1), ?_⟩
  rw [Function.update_self]
  exact hq

end Friendly

section Results

/-- In every interleaving of two ends, with any failures, the messages an end takes are the first
that the other sent, and its handler gets the first data messages that the other queued. -/
theorem duplex_in_order (r : Run (duplex host maxMessageSize) anyStep as d) (e : Bool) :
    (d e).taken <+: (d !e).sent ∧ (d e).handled <+: ((d !e).queued.map Prod.fst).filter Endpoint.isData :=
  ⟨taken_sent r e, handled_queued r e⟩

theorem duplex_in_order_greeting : ∃ as d, Run (duplex (fun _ => .little) fun _ => 1000) anyStep as d ∧
    (d false).handled = [⟨.binary, [0xff]⟩, ⟨.text, [0x68, 0x69]⟩, ⟨.text, [0x21]⟩] ∧ (d false).taken <+: (d true).sent := by
  obtain ⟨_, d, r, hq⟩ := greeting
  obtain ⟨_, d', r', hh⟩ := delivers_on (fun _ => by decide) r false
  rw [Bool.not_false, hq] at hh
  have rd : Run (duplex (fun _ => .little) fun _ => 1000) anyStep _ d' := (r.append r').weaken fun _ _ _ => trivial
  exact ⟨_, d', rd, hh, (duplex_in_order rd false).1⟩

/-- While neither application closes, nothing fails and each end sends what the other accepts, no
end ever meets an error, queues a close frame or leaves the open state. -/
theorem duplex_stays_open (hmax : ∀ e, maxMessageSize e < UInt64.size)
    (r : Run (duplex host maxMessageSize) (fun _ a => a.2.Friendly (maxMessageSize !a.1)) as d) (e : Bool) :
    (d e).con.state = .opened ∧ (∀ p ∈ (d e).queued, p.1.opcode ≠ .close) ∧
      ∃ p, (readBytes (host e) (.init e (maxMessageSize e)) (d e).input).2 = .ok p := by
  exact ⟨(calm_run hmax r e).opened, fun p hp => ((calm_run hmax r e).queued p hp).2, (input_calm hmax r e).1⟩

theorem duplex_stays_open_greeting : ∃ as d, Run (duplex (fun _ => .little) fun _ => 1000) (fun _ a => a.2.Friendly 1000) as d ∧
    (d false).handled = [⟨.binary, [0xff]⟩, ⟨.text, [0x68, 0x69]⟩, ⟨.text, [0x21]⟩] ∧ (d true).con.state = .opened ∧
    (d false).con.state = .opened := by
  obtain ⟨_, d, r, hq⟩ := greeting
  obtain ⟨_, d', r', hh⟩ := delivers_on (fun _ => by decide) r false
  rw [Bool.not_false, hq] at hh
  have hopen := duplex_stays_open (fun _ => by decide) (r.append r')
  exact ⟨_, d', r.append r', hh, (hopen true).1, (hopen false).1⟩

/-- From every state of such a run the two ends can go on until the handler of one has got every
data message that the other had queued, unchanged and in order. -/
theorem duplex_delivers (hmax : ∀ e, maxMessageSize e < UInt64.size)
    (r : Run (duplex host maxMessageSize) (fun _ a => a.2.Friendly (maxMessageSize !a.1)) as d) (e : Bool) :
    ∃ bs d', Run ((duplex host maxMessageSize).startingAt d) (fun _ a => a.2.Friendly (maxMessageSize !a.1)) bs d' ∧
      (d' e).handled = ((d !e).queued.map Prod.fst).filter Endpoint.isData :=
  delivers_on hmax r e

theorem duplex_delivers_greeting : ∃ as d, Run (duplex (fun _ => .little) fun _ => 1000) (fun _ a => a.2.Friendly 1000) as d ∧
    (d false).handled = [⟨.binary, [0xff]⟩, ⟨.text, [0x68, 0x69]⟩, ⟨.text, [0x21]⟩] := by
  obtain ⟨_, d, r, hq⟩ := greeting
  obtain ⟨_, d', r', hh⟩ := duplex_delivers (fun _ => by decide) r false
  rw [Bool.not_false, hq] at hh
  exact ⟨_, d', r.append r', hh⟩

end Results

end Runs
end DeribitClientServer.Transport
