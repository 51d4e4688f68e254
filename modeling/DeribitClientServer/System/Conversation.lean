import DeribitClientServer.Server.SingleReply
import DeribitClientServer.Transport.Duplex

/-! The server's handler of messages on one of its connections, and what the client at the
other end gets. Other threads send on the same connection. -/
namespace DeribitClientServer.System
open Library Library.Utf8 Library.Transition Library.Endian Server
open Transport (Duplex Endpoint Connection duplex validate validate_iff)

def wireOpcode : Server.Opcode → Transport.Opcode
  | .text => .text
  | .binary => .binary

/-- A data message as the server's handler gets it. -/
def asMessage (hdl : Hdl) (m : Transport.Message) : Server.Message where
  hdl := hdl
  payload := m.payload
  opcode := if m.opcode = .text then .text else .binary

/-- A reply has the opcode of the message it answers, and a broadcast is text. -/
def frameOpcode (op : Server.Opcode) (f : Frame) : Server.Opcode :=
  match f.via with
  | .reply => op
  | .broadcast => .text

/-- What the handler sends to the connection a message came from, and whether send takes it. -/
def answers (env : Externals) (hdl : Hdl) (m : Transport.Message) (w : World) : List (Transport.Message × Bool) :=
  ((frames (processMessage env (asMessage hdl m) w).trace).filter fun f => f.hdl = hdl).map fun f =>
    (⟨wireOpcode (frameOpcode (asMessage hdl m).opcode f), f.payload⟩, f.queued)

/-- The messages that send takes. -/
def takenOf (l : List (Transport.Message × Bool)) : List Transport.Message := (l.filter Prod.snd).map Prod.fst

/-- The data messages queued at an end. -/
def dataQueued (s : Endpoint) : List Transport.Message := (s.queued.map Prod.fst).filter Endpoint.isData

/-- Who made the server queue a message. -/
inductive Speaker where
  | handler | other
  deriving DecidableEq, Repr

/-- The two ends, the messages that the handler was run on in their surroundings, what it
has still to send, and what was queued for the client by whom. -/
structure Conversation where
  ends : Duplex
  served : List (Transport.Message × World)
  pending : List (Transport.Message × Bool)
  said : List (Speaker × Transport.Message)

inductive ConversationAct where
  | transport (e : Bool) (a : Transport.Act)
  | serve (w : World)
  | answer (key : UInt32)

namespace Conversation

/-- What the handler made the server queue. -/
def replies (s : Conversation) : List Transport.Message := (s.said.filter fun p => p.1 = .handler).map Prod.snd

/-- The handler is done with all it was given. -/
def Idle (s : Conversation) : Prop := s.pending = [] ∧ s.served.length = (s.ends true).handled.length

/-- The ends after a step of theirs. What the server queued in it is not the handler's. -/
def moved (s : Conversation) (d : Duplex) : Conversation where
  ends := d
  served := s.served
  pending := s.pending
  said := s.said ++ ((dataQueued (d true)).drop (dataQueued (s.ends true)).length).map fun m => (.other, m)

def answered (host : Bool → Host) (s : Conversation) (key : UInt32) (m : Transport.Message)
    (rest : List (Transport.Message × Bool)) :
    Conversation where
  ends := Function.update s.ends true ((s.ends true).sendNow (host true) m key).1
  served := s.served
  pending := rest
  said := s.said ++ if ((s.ends true).sendNow (host true) m key).2 then [(.handler, m)] else []

end Conversation

section Steps
variable (env : Externals) (hdl : Hdl) (host : Bool → Host) (maxMessageSize : Bool → Nat)

/-- The server's handler runs in the thread that reads, so nothing more is looked at before
it is done. Its surroundings find the connection as it is when they send on it. -/
def conversation : Transition Conversation ConversationAct where
  initial s := (duplex host maxMessageSize).initial s.ends ∧ s.served = [] ∧ s.pending = [] ∧ s.said = []
  step s a s' :=
    match a with
    | .transport e a => ∃ d, (duplex host maxMessageSize).step s.ends (e, a) d ∧
        (∀ key, (e, a) = (true, .turn key) → s.Idle) ∧ s' = s.moved d
    | .serve w => s.pending = [] ∧ ∃ m, (s.ends true).handled[s.served.length]? = some m ∧
        s' = { s with served := s.served ++ [(m, w)], pending := answers env hdl m w }
    | .answer key => ∃ m rest, s.pending = (m, ((s.ends true).sendNow (host true) m key).2) :: rest ∧
        m.payload.length < UInt64.size ∧ s' = s.answered host key m rest

end Steps

section Sends

theorem decode_none_iff {b : Bytes} : decode b = none ↔ validate b = false := by
  rw [← Bool.not_eq_true, validate_iff, Option.eq_none_iff_forall_ne_some, not_exists]

/-- The connection takes what the server's run takes it to. -/
theorem send_takes {c : Connection} {host : Host} {key : UInt32} {payload : Bytes} {op : Server.Opcode} :
    (c.send host key ⟨wireOpcode op, payload⟩).2.isNone = queues c.state payload op := by
  rw [Bool.eq_iff_iff, Option.isNone_iff_eq_none, Connection.send_none_iff, queues_iff]
  cases op with
  | text => simp [wireOpcode, Transport.Opcode.isControl, Transport.Opcode.toNat, decode_none_iff]
  | binary => simp [wireOpcode, Transport.Opcode.isControl, Transport.Opcode.toNat]

end Sends

section Moves
variable {env : Externals} {hdl : Hdl} {host : Bool → Host} {maxMessageSize : Bool → Nat} {s s' : Conversation}
  {a : ConversationAct} {as : List ConversationAct}

theorem answered_ends {host : Bool → Host} {s : Conversation} {key : UInt32} {m : Transport.Message}
    {rest : List (Transport.Message × Bool)} :
    (s.answered host key m rest).ends true = ((s.ends true).sendNow (host true) m key).1 ∧
      (s.answered host key m rest).ends false = s.ends false :=
  ⟨Function.update_self true _ s.ends,
    Function.update_of_ne Bool.false_ne_true ((s.ends true).sendNow (host true) m key).1 s.ends⟩

@[simp] theorem takenOf_nil : takenOf [] = [] := rfl

theorem takenOf_cons (m : Transport.Message) (t : Bool) (l : List (Transport.Message × Bool)) :
    takenOf ((m, t) :: l) = (if t then [m] else []) ++ takenOf l := by
  cases t <;> rfl

/-- What the steps of the ends are that make up a step. -/
def Moves (s : Conversation) : ConversationAct → Bool × Transport.Act → Prop
  | .transport e a, b => b = (e, a)
  | .serve _, _ => False
  | .answer key, b => ∃ m rest, s.pending = (m, true) :: rest ∧ (b = (true, .send m) ∨ ∃ i, b = (true, .push i key))

/-- Every step is made up of steps of the ends. -/
theorem step_moves (h : (conversation env hdl host maxMessageSize).step s a s') :
    ∃ bs, Run ((duplex host maxMessageSize).startingAt s.ends) (fun _ b => Moves s a b) bs s'.ends := by
  cases a with
  | transport e x =>
    obtain ⟨d, hd, _, rfl⟩ := h
    exact ⟨_, (Run.start rfl).next (e, x) rfl hd⟩
  | serve w =>
    obtain ⟨_, m, _, rfl⟩ := h
    exact ⟨[], .start rfl⟩
  | answer key =>
    obtain ⟨m, rest, hp, hm, rfl⟩ := h
    cases ht : ((s.ends true).sendNow (host true) m key).2 with
    | false =>
      refine ⟨[], .start ?_⟩
      rw [Conversation.answered, Endpoint.sendNow_refused ht]
      exact Function.update_eq_self true s.ends
    | true =>
      rw [ht] at hp
      obtain ⟨t, hsend, hpush⟩ := Endpoint.sendNow_steps ht hm
      have hother : ∀ t : Endpoint, Function.update s.ends true t false = s.ends false := fun t =>
        Function.update_of_ne Bool.false_ne_true t s.ends
      have h₁ : (duplex host maxMessageSize).step s.ends (true, .send m) (Function.update s.ends true t) := by
        refine ⟨nofun, ?_, hother t⟩
        rw [Function.update_self]
        exact hsend
      have r₀ : Run ((duplex host maxMessageSize).startingAt s.ends) (fun _ b => Moves s (.answer key) b) [] s.ends := .start rfl
      have r₁ := r₀.next (true, .send m) ⟨m, rest, hp, .inl rfl⟩ h₁
      refine ⟨_, r₁.next (true, .push (s.ends true).passed.length key) ⟨m, rest, hp, .inr ⟨_, rfl⟩⟩ ⟨nofun, ?_, ?_⟩⟩
      · rw [Conversation.answered]
        dsimp only
        rw [Function.update_self, Function.update_self]
        exact hpush
      · exact (hother ((s.ends true).sendNow (host true) m key).1).trans (hother t).symm

/-- The ends of a conversation run as they do on their own. -/
theorem ends_run {guard : Conversation → ConversationAct → Prop} (r : Run (conversation env hdl host maxMessageSize) guard as s) :
    ∃ bs, Run (duplex host maxMessageSize) anyStep bs s.ends := by
  induction r with
  | start h => exact ⟨[], .start h.1⟩
  | next _ a _ h ih =>
    obtain ⟨_, r⟩ := ih
    obtain ⟨_, r'⟩ := step_moves h
    exact ⟨_, r.append (r'.weaken fun _ _ _ => trivial)⟩

/-- A step of an end adds data that its callers passed to what it queued. -/
theorem dataQueued_step {e : Bool} {max : Nat} {t t' : Endpoint} {x : Transport.Act} (h : t.step (host e) x = some t')
    (hr : t.Reads (host e) e max) : ∃ l, dataQueued t' = dataQueued t ++ l ∧ ∀ m ∈ l, m ∈ t.passed := by
  have hadd : ∀ m out, t'.queued = t.queued ++ [(m, out)] →
      dataQueued t' = dataQueued t ++ if Endpoint.isData m then [m] else [] := by
    intro m out hq
    rw [dataQueued, hq, List.map_append, List.filter_append]
    cases hm : Endpoint.isData m <;> simp [dataQueued, hm]
  cases Endpoint.step_adds h hr with
  | none hq => exact ⟨[], by rw [dataQueued, hq, List.append_nil, dataQueued], nofun⟩
  | data m out hm hc hq =>
    refine ⟨_, hadd m out hq, fun m' hm' => ?_⟩
    split_ifs at hm'
    · rwa [List.mem_singleton.mp hm']
    · cases hm'
  | pong m out hm hq | close m out hm _ hq =>
    have hnot : Endpoint.isData m = false := by
      rw [Endpoint.isData, hm]
      rfl
    refine ⟨[], ?_, nofun⟩
    rw [hadd m out hq, hnot]
    rfl

end Moves

section Safety
variable {env : Externals} {hdl : Hdl} {host : Bool → Host} {maxMessageSize : Bool → Nat} {s s' : Conversation}
  {a : ConversationAct} {as : List ConversationAct} {P : Transport.Message → Prop}

/-- What was queued for the client is accounted for: the handler's answers to the messages it
was given, in order, and what other threads passed. -/
structure Accounted (env : Externals) (hdl : Hdl) (P : Transport.Message → Prop) (s : Conversation) : Prop where
  said : s.said.map Prod.snd = dataQueued (s.ends true)
  served : s.served.map Prod.fst <+: (s.ends true).handled
  replies : s.replies ++ takenOf s.pending = s.served.flatMap fun p => takenOf (answers env hdl p.1 p.2)
  others : ∀ p ∈ s.said, p.1 = .other → P p.2
  passed : ∀ m ∈ (s.ends true).passed, P m

private theorem served_next {l : List (Transport.Message × World)} {w : World} {m : Transport.Message} {ms : List Transport.Message}
    (h : l.map Prod.fst <+: ms) (hm : ms[l.length]? = some m) : (l ++ [(m, w)]).map Prod.fst <+: ms := by
  obtain ⟨t, rfl⟩ := h
  rw [List.getElem?_append_right (by rw [List.length_map]), List.length_map, Nat.sub_self] at hm
  cases t with
  | nil => cases hm
  | cons x t =>
    obtain rfl := Option.some.inj hm
    refine ⟨t, ?_⟩
    rw [List.map_append, List.append_assoc]
    rfl

private theorem replies_others {l : List Transport.Message} :
    (l.map fun m => (Speaker.other, m)).filter (fun p => p.1 = .handler) = [] := by
  induction l with
  | nil => rfl
  | cons m l ih => exact ih

theorem accounted_step (hg : ∀ m, a = .transport true (.send m) → P m) (h : (conversation env hdl host maxMessageSize).step s a s')
    {bs : List (Bool × Transport.Act)} (r : Run (duplex host maxMessageSize) anyStep bs s.ends) (hs : Accounted env hdl P s) :
    Accounted env hdl P s' := by
  cases a with
  | transport e x =>
    obtain ⟨d, ⟨_, hstep, hother⟩, _, rfl⟩ := h
    cases e with
    | false =>
      have hsame : d true = s.ends true := hother
      have hsaid : (s.moved d).said = s.said := by
        rw [Conversation.moved, hsame, List.drop_length]
        exact List.append_nil _
      refine ⟨?_, ?_, ?_, ?_, ?_⟩
      · rw [hsaid]
        exact hs.said.trans (congrArg dataQueued hsame.symm)
      · change _ <+: (d true).handled
        rw [hsame]
        exact hs.served
      · rw [Conversation.replies, hsaid]
        exact hs.replies
      · rw [hsaid]
        exact hs.others
      · change ∀ m ∈ (d true).passed, P m
        rw [hsame]
        exact hs.passed
    | true =>
      obtain ⟨_, re⟩ := Transport.end_run r true
      change (s.ends true).step (host true) x = some (d true) at hstep
      obtain ⟨l, hl, hpassed⟩ := dataQueued_step hstep (Endpoint.run_reads re)
      have hstreams := Endpoint.step_streams hstep
      have hsaid : (s.moved d).said = s.said ++ l.map fun m => (.other, m) := by
        change s.said ++ ((dataQueued (d true)).drop (dataQueued (s.ends true)).length).map _ = _
        rw [hl, List.drop_left]
      refine ⟨?_, hs.served.trans hstreams.handled, ?_, fun p hp ho => ?_, fun m hm => ?_⟩
      · rw [hsaid, List.map_append, hs.said, List.map_map]
        exact (congrArg _ (List.map_id l)).trans hl.symm
      · rw [Conversation.replies, hsaid, List.filter_append, replies_others, List.append_nil]
        exact hs.replies
      · rw [hsaid] at hp
        rcases List.mem_append.mp hp with hp | hp
        · exact hs.others p hp ho
        · obtain ⟨m, hm, rfl⟩ := List.mem_map.mp hp
          exact hs.passed m (hpassed m hm)
      · rcases hstreams.passed m hm with hm | hm
        · exact hs.passed m hm
        · exact hg m (by rw [hm])
  | serve w =>
    obtain ⟨hp, m, hm, rfl⟩ := h
    refine ⟨hs.said, served_next hs.served hm, ?_, hs.others, hs.passed⟩
    have hreplies := hs.replies
    rw [hp, takenOf_nil, List.append_nil] at hreplies
    rw [List.flatMap_append, ← hreplies]
    exact congrArg _ (List.append_nil _).symm
  | answer key =>
    obtain ⟨m, rest, hp, hm, rfl⟩ := h
    have hreplies := hs.replies
    rw [hp, takenOf_cons] at hreplies
    cases ht : ((s.ends true).sendNow (host true) m key).2 with
    | false =>
      have hsame : s.answered host key m rest = { s with pending := rest } := by
        rw [Conversation.answered, Endpoint.sendNow_refused ht, ht, Function.update_eq_self]
        exact congrArg _ (List.append_nil s.said)
      rw [hsame]
      rw [ht] at hreplies
      exact ⟨hs.said, hs.served, hreplies, hs.others, hs.passed⟩
    | true =>
      obtain ⟨out, hpush, hreads⟩ := Endpoint.sendNow_pushed ht
      have hend : (s.answered host key m rest).ends true = ((s.ends true).sendNow (host true) m key).1 := answered_ends.1
      have hsaid : (s.answered host key m rest).said = s.said ++ [(.handler, m)] := by
        rw [Conversation.answered, ht]
        rfl
      have hdata : Endpoint.isData m = true := by
        have hnone := Option.isNone_iff_eq_none.mp ht
        rw [Endpoint.isData, (Connection.send_none_iff.mp hnone).2.1]
        rfl
      rw [ht] at hreplies
      refine ⟨?_, ?_, ?_, fun p hp ho => ?_, ?_⟩
      · rw [hsaid, hend, dataQueued, hpush.queued, List.map_append, List.map_append, List.filter_append, hs.said]
        have hone : [m].filter Endpoint.isData = [m] := List.filter_cons_of_pos hdata
        exact congrArg _ hone.symm
      · rw [hend, hreads.handled]
        exact hs.served
      · rw [Conversation.replies, hsaid, List.filter_append, List.map_append, List.append_assoc]
        exact hreplies
      · rw [hsaid] at hp
        rcases List.mem_append.mp hp with hp | hp
        · exact hs.others p hp ho
        · rw [List.mem_singleton.mp hp] at ho
          cases ho
      · rw [hend, hpush.passed]
        exact hs.passed

theorem accounted (r : Run (conversation env hdl host maxMessageSize) (fun _ a => ∀ m, a = .transport true (.send m) → P m) as s) :
    Accounted env hdl P s := by
  induction r with
  | start h =>
    obtain ⟨hends, hserved, hpending, hsaid⟩ := h
    refine ⟨?_, ?_, ?_, ?_, ?_⟩
    · rw [hsaid, hends true]
      rfl
    · rw [hserved]
      exact List.nil_prefix
    · rw [Conversation.replies, hsaid, hpending, hserved]
      rfl
    · rw [hsaid]
      exact nofun
    · rw [hends true]
      exact nofun
  | next r a hg h ih =>
    obtain ⟨_, rends⟩ := ends_run r
    exact accounted_step hg h rends ih

end Safety

section Welcome
variable (env : Externals) (hdl : Hdl) (maxMessageSize : Bool → Nat)

/-- The handler finds the connection of a message open all along, and the client accepts
the size of its answers. -/
structure Suits (m : Transport.Message) (w : World) : Prop where
  sender : SenderOpen w
  members : ∀ n, ∀ member ∈ w.members.get n, member.1 = hdl → member.2 = .opened
  size : ∀ p ∈ answers env hdl m w, p.1.payload.length ≤ maxMessageSize false

/-- No end closes, nothing fails, and what is sent can be accepted. -/
def Welcome (s : Conversation) : ConversationAct → Prop
  | .transport e a => a.Friendly (maxMessageSize !e)
  | .serve w => ∀ m, (s.ends true).handled[s.served.length]? = some m → Suits env hdl maxMessageSize m w
  | .answer _ => True

end Welcome

end DeribitClientServer.System
