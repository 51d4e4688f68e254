import DeribitClientServer.Server.FrameOrigins
import DeribitClientServer.System.Conversation

/-! That the messages of a client are answered, and that the client gets the answers. -/
namespace DeribitClientServer.System
open Library Library.JsonText Library.Utf8 Library.Transition Library.Endian Server
open Transport (Duplex Endpoint Connection Accepts duplex validate)

section Progress
variable {env : Externals} {hdl : Hdl} {host : Bool → Host} {maxMessageSize : Bool → Nat} {s s' : Conversation}
  {as : List ConversationAct} {W : Nat → World}

/-- An answer that an open connection takes exactly if it is marked so. -/
structure Fits (maxMessageSize : Bool → Nat) (p : Transport.Message × Bool) : Prop where
  takes : ∃ op, p.1.opcode = wireOpcode op ∧ p.2 = queues .opened p.1.payload op
  size : p.1.payload.length ≤ maxMessageSize false

private theorem mem_sends {message : Bytes} {f : Frame} {members : List (Hdl × SessionState)}
    (h : f ∈ frames (sends message members)) :
    ∃ state, (f.hdl, state) ∈ members ∧ f.queued = queues state f.payload .text := by
  induction members with
  | nil => cases h
  | cons member members ih =>
    obtain ⟨hdl, state⟩ := member
    rw [sends, frames_send] at h
    rcases List.mem_cons.mp h with rfl | h
    · exact ⟨state, List.mem_cons_self, rfl⟩
    · split at h
      · obtain ⟨state', hm, hq⟩ := ih h
        exact ⟨state', List.mem_cons_of_mem _ hm, hq⟩
      · cases h

/-- Whether send takes a frame is a matter of its payload while its connection is open. -/
private theorem queued_opened {msg : Server.Message} {w : World} {f : Frame} (hs : SenderOpen w)
    (hm : ∀ n, ∀ member ∈ w.members.get n, member.1 = msg.hdl → member.2 = .opened)
    (h : f ∈ frames (processMessage env msg w).trace) (hf : f.hdl = msg.hdl) :
    f.queued = queues .opened f.payload (frameOpcode msg.opcode f) := by
  have hreply : ∀ p state, state = .opened → f = replyFrame msg p state →
      f.queued = queues .opened f.payload (frameOpcode msg.opcode f) := by
    rintro p state rfl rfl
    rfl
  have h0 : w.sender.head = .opened := hs 0
  have h1 : w.sender.tail.head = .opened := hs 1
  have hupdate : ∀ {op : Operation} {u : List Frame}, Updates env (op.world env msg.payload w) u → f ∈ u →
      f.queued = queues .opened f.payload (frameOpcode msg.opcode f) := by
    intro op u hu hfu
    rcases hu with rfl | ⟨data, _, rfl⟩
    · cases hfu
    · obtain ⟨state, hmem, hq⟩ := mem_sends hfu
      rw [(op.frame env msg.payload w).2] at hmem
      have hstate : state = .opened := hm 0 _ hmem hf
      rw [hq, hstate, frameOpcode, (of_mem_sends hfu).1]
  have hh := processMessage_handled env msg w
  generalize frames (processMessage env msg w).trace = fs at h hh
  cases hh with
  | ignored hk => cases h
  | failed e _ _ => exact hreply _ _ h0 (List.mem_singleton.mp h)
  | refused _ _ =>
    rcases List.mem_pair.mp h with h | h
    · exact hreply _ _ h0 h
    · exact hreply _ _ h1 h
  | answered _ _ _ => exact hreply _ _ h0 (List.mem_singleton.mp h)
  | updated _ _ _ hu _ =>
    rcases List.mem_cons.mp h with h | h
    · exact hreply _ _ h0 h
    · exact hupdate hu h
  | unrefreshed _ _ _ hu _ =>
    rcases List.mem_cons.mp h with h | h
    · exact hreply _ _ h0 h
    · rcases List.mem_append.mp h with h | h
      · exact hupdate hu h
      · exact hreply _ _ h1 (List.mem_singleton.mp h)

theorem Suits.fits {m : Transport.Message} {w : World} (h : Suits env hdl maxMessageSize m w) :
    ∀ p ∈ answers env hdl m w, Fits maxMessageSize p := by
  intro p hp
  refine ⟨?_, h.size p hp⟩
  obtain ⟨f, hf, rfl⟩ := List.mem_map.mp hp
  obtain ⟨hf, hhdl⟩ := List.mem_filter.mp hf
  exact ⟨frameOpcode (asMessage hdl m).opcode f, rfl, queued_opened h.sender h.members hf (of_decide_eq_true hhdl)⟩

theorem Fits.accepts {p : Transport.Message × Bool} (h : Fits maxMessageSize p) : Accepts (maxMessageSize false) p.1 := by
  obtain ⟨op, hop, _⟩ := h.takes
  refine ⟨?_, fun _ => h.size⟩
  rw [hop]
  cases op <;> decide

/-- Both ends run as friends do, and an open connection takes what is pending as it is marked. -/
theorem welcome_run (r : Run (conversation env hdl host maxMessageSize) (Welcome env hdl maxMessageSize) as s) :
    (∃ bs, Run (duplex host maxMessageSize) (fun _ a => a.2.Friendly (maxMessageSize !a.1)) bs s.ends) ∧
      (∀ p ∈ s.pending, Fits maxMessageSize p) ∧ ∀ p ∈ s.served, Suits env hdl maxMessageSize p.1 p.2 := by
  induction r with
  | start h =>
    refine ⟨⟨[], .start h.1⟩, ?_, ?_⟩
    · rw [h.2.2.1]
      exact nofun
    · rw [h.2.1]
      exact nofun
  | @next as s s' _ a hg h ih =>
    obtain ⟨⟨_, r⟩, hfit, hsuits⟩ := ih
    refine ⟨?_, ?_, ?_⟩
    · obtain ⟨_, r'⟩ := step_moves h
      refine ⟨_, r.append (r'.weaken fun _ b hb => ?_)⟩
      cases a with
      | transport e x =>
        obtain rfl := hb
        exact hg
      | serve w => exact hb.elim
      | answer key =>
        obtain ⟨m, rest, hp, rfl | ⟨i, rfl⟩⟩ := hb
        · exact (hfit (m, true) (by rw [hp]; exact List.mem_cons_self)).accepts
        · exact trivial
    · cases a with
      | transport e x =>
        obtain ⟨d, _, _, rfl⟩ := h
        exact hfit
      | serve w =>
        obtain ⟨_, m, hm, rfl⟩ := h
        exact (hg m hm).fits
      | answer key =>
        obtain ⟨m, rest, hp, _, rfl⟩ := h
        exact fun p hp' => hfit p (by rw [hp]; exact List.mem_cons_of_mem _ hp')
    · cases a with
      | transport e x =>
        obtain ⟨d, _, _, rfl⟩ := h
        exact hsuits
      | serve w =>
        obtain ⟨_, m, hm, rfl⟩ := h
        intro p hp
        rcases List.mem_append.mp hp with hp | hp
        · exact hsuits p hp
        · rw [List.mem_singleton.mp hp]
          exact hg m hm
      | answer key =>
        obtain ⟨m, rest, _, _, rfl⟩ := h
        exact hsuits

/-- The surroundings that the handler meets at each message suit it. -/
def SuitsAll (env : Externals) (hdl : Hdl) (maxMessageSize : Bool → Nat) (W : Nat → World)
    (ms : List Transport.Message) : Prop :=
  ∀ i m, ms[i]? = some m → Suits env hdl maxMessageSize m (W i)

/-- The handler is run on further messages, on each in its surroundings, and the client's end is
left alone. -/
structure Serves (W : Nat → World) (s s' : Conversation) : Prop where
  client : s'.ends false = s.ends false
  served : s.served <+: s'.served
  worlds : ∀ i p, s.served.length ≤ i → s'.served[i]? = some p → p.2 = W i

/-- Nothing is served where the client's end and the messages served stay the same. -/
theorem Serves.of_eq (hclient : s'.ends false = s.ends false) (hserved : s'.served = s.served) : Serves W s s' := by
  refine ⟨hclient, by rw [hserved], fun i p hi hp => ?_⟩
  rw [hserved, List.getElem?_eq_none hi] at hp
  cases hp

theorem Serves.trans {s₁ s₂ s₃ : Conversation} (h : Serves W s₁ s₂) (h' : Serves W s₂ s₃) : Serves W s₁ s₃ := by
  refine ⟨h'.client.trans h.client, h.served.trans h'.served, fun i p hi hp => ?_⟩
  by_cases hlt : i < s₂.served.length
  · rw [List.prefix_iff_getElem?.mp h'.served i hlt, Option.some_inj] at hp
    exact hp ▸ h.worlds i _ hi (List.getElem?_eq_getElem hlt)
  · exact h'.worlds i p (Nat.le_of_not_lt hlt) hp

/-- One more message is served. -/
private theorem Serves.one {m : Transport.Message} (hclient : s'.ends false = s.ends false)
    (hserved : s'.served = s.served ++ [(m, W s.served.length)]) : Serves W s s' := by
  refine ⟨hclient, ⟨_, hserved.symm⟩, fun i p hi hp => ?_⟩
  rw [hserved, List.getElem?_append_right hi, List.getElem?_singleton] at hp
  split_ifs at hp with h0
  obtain rfl : i = s.served.length := by omega
  rw [← Option.some.inj hp]

/-- The reader of the server's end is where it was. -/
structure Still (s s' : Conversation) : Prop where
  handled : (s'.ends true).handled = (s.ends true).handled
  reading : (s'.ends true).reading = (s.ends true).reading
  unread : (s'.ends true).unread = (s.ends true).unread
  input : (s'.ends true).input = (s.ends true).input

theorem Still.trans {s₁ s₂ s₃ : Conversation} (h : Still s₁ s₂) (h' : Still s₂ s₃) : Still s₁ s₃ :=
  ⟨h'.handled.trans h.handled, h'.reading.trans h.reading, h'.unread.trans h.unread, h'.input.trans h.input⟩

/-- The handler can send all that it has still to send. -/
private theorem answers_on (hmax : ∀ e, maxMessageSize e < UInt64.size)
    (r : Run (conversation env hdl host maxMessageSize) (Welcome env hdl maxMessageSize) as s) :
    ∃ bs s', Run ((conversation env hdl host maxMessageSize).startingAt s) (Welcome env hdl maxMessageSize) bs s' ∧
      s'.pending = [] ∧ s'.served = s.served ∧ s'.ends false = s.ends false ∧ Still s s' := by
  induction hp : s.pending generalizing s as with
  | nil => exact ⟨[], s, .start rfl, hp, rfl, rfl, rfl, rfl, rfl, rfl⟩
  | cons p rest ih =>
    obtain ⟨m, t⟩ := p
    obtain ⟨⟨_, rends⟩, hfit, _⟩ := welcome_run r
    have hm : Fits maxMessageSize (m, t) := hfit (m, t) (by rw [hp]; exact List.mem_cons_self)
    obtain ⟨op, hop, htakes⟩ := hm.takes
    have hopen : (s.ends true).con.state = .opened := (Transport.calm_run hmax rends true).opened
    have ht : ((s.ends true).sendNow (host true) m 0).2 = t := by
      have h : ((s.ends true).con.send (host true) 0 ⟨wireOpcode op, m.payload⟩).2.isNone =
          queues (s.ends true).con.state m.payload op :=
        send_takes
      rw [hopen, ← htakes, ← hop] at h
      exact h
    have hstep : (conversation env hdl host maxMessageSize).step s (.answer 0) (s.answered host 0 m rest) :=
      ⟨m, rest, by rw [hp, ht], Nat.lt_of_le_of_lt hm.size (hmax false), rfl⟩
    have hstill : Still s (s.answered host 0 m rest) := by
      have hend : (s.answered host 0 m rest).ends true = ((s.ends true).sendNow (host true) m 0).1 := answered_ends.1
      cases ht' : ((s.ends true).sendNow (host true) m 0).2 with
      | false =>
        rw [Endpoint.sendNow_refused ht'] at hend
        exact ⟨by rw [hend], by rw [hend], by rw [hend], by rw [hend]⟩
      | true =>
        obtain ⟨_, _, hreads⟩ := Endpoint.sendNow_pushed ht'
        exact ⟨by rw [hend, hreads.handled], by rw [hend, hreads.reading], by rw [hend, hreads.unread],
          by rw [hend, hreads.input]⟩
    obtain ⟨_, s', r', hpending, hserved, hclient, hstill'⟩ := ih (r.next (.answer 0) trivial hstep) rfl
    have r₁ : Run ((conversation env hdl host maxMessageSize).startingAt s) (Welcome env hdl maxMessageSize) [] s :=
      .start rfl
    exact ⟨_, s', (r₁.next (.answer 0) trivial hstep).append r', hpending, hserved, hclient.trans answered_ends.2,
      hstill.trans hstill'⟩

/-- The handler can be run on all that it was given. -/
private theorem serves_on (hmax : ∀ e, maxMessageSize e < UInt64.size)
    (r : Run (conversation env hdl host maxMessageSize) (Welcome env hdl maxMessageSize) as s)
    (hW : SuitsAll env hdl maxMessageSize W (dataQueued (s.ends false))) :
    ∃ bs s', Run ((conversation env hdl host maxMessageSize).startingAt s) (Welcome env hdl maxMessageSize) bs s' ∧
      s'.Idle ∧ Serves W s s' ∧ Still s s' := by
  induction hn : (s.ends true).handled.length - s.served.length generalizing s as with
  | zero =>
    obtain ⟨_, s₁, r₁, hp₁, hserved₁, hclient₁, hstill₁⟩ := answers_on hmax r
    have hle : s.served.length ≤ (s.ends true).handled.length := by
      have h := (accounted (r.weaken fun _ _ _ _ _ => trivial)).served.length_le
      rwa [List.length_map] at h
    refine ⟨_, s₁, r₁, ⟨hp₁, ?_⟩, .of_eq hclient₁ hserved₁, hstill₁⟩
    rw [hserved₁, hstill₁.handled]
    omega
  | succ n ih =>
    obtain ⟨_, s₁, r₁, hp₁, hserved₁, hclient₁, hstill₁⟩ := answers_on hmax r
    have hlt : s₁.served.length < (s₁.ends true).handled.length := by
      rw [hserved₁, hstill₁.handled]
      omega
    obtain ⟨m, hm⟩ : ∃ m, (s₁.ends true).handled[s₁.served.length]? = some m := ⟨_, List.getElem?_eq_getElem hlt⟩
    have hsent : (dataQueued (s.ends false))[s₁.served.length]? = some m := by
      obtain ⟨⟨_, rends⟩, _⟩ := welcome_run (r.append r₁)
      rw [← hclient₁]
      exact (List.prefix_iff_getElem?.mp (Transport.handled_queued rends true) _ hlt).trans
        ((List.getElem?_eq_getElem hlt).symm.trans hm)
    generalize hw : W s₁.served.length = w
    have hguard : Welcome env hdl maxMessageSize s₁ (.serve w) := fun m' hm' => by
      obtain rfl := Option.some.inj (hm.symm.trans hm')
      exact hw ▸ hW _ m hsent
    have hstep : (conversation env hdl host maxMessageSize).step s₁ (.serve w)
        { s₁ with served := s₁.served ++ [(m, w)], pending := answers env hdl m w } := ⟨hp₁, m, hm, rfl⟩
    have r₂ := r₁.next _ hguard hstep
    obtain ⟨_, s', r', hidle, hserves, hstill⟩ := ih (r.append r₂) (hclient₁ ▸ hW) (by
      rw [List.length_append, hserved₁, hstill₁.handled]
      simp only [List.length_singleton]
      omega)
    have hone : Serves W s { s₁ with served := s₁.served ++ [(m, w)], pending := answers env hdl m w } :=
      .one hclient₁ (by rw [← hw, hserved₁])
    exact ⟨_, s', r₂.append r', hidle, hone.trans hserves,
      hstill₁.trans ⟨hstill.handled, hstill.reading, hstill.unread, hstill.input⟩⟩

/-- The server can look at everything it has read, with its handler done. -/
private theorem looks_on (hmax : ∀ e, maxMessageSize e < UInt64.size)
    (r : Run (conversation env hdl host maxMessageSize) (Welcome env hdl maxMessageSize) as s)
    (hW : SuitsAll env hdl maxMessageSize W (dataQueued (s.ends false))) {n : Nat}
    (hn : ∀ b, (s.ends true).unread = some b → b.length < n) :
    ∃ bs s', Run ((conversation env hdl host maxMessageSize).startingAt s) (Welcome env hdl maxMessageSize) bs s' ∧
      s'.Idle ∧ (s'.ends true).reading = true ∧ (s'.ends true).input = (s.ends true).input ∧ Serves W s s' := by
  induction n generalizing s as with
  | zero =>
    obtain ⟨_, s₁, r₁, hidle₁, hserves₁, hstill₁⟩ := serves_on hmax r hW
    obtain ⟨⟨_, rends⟩, _⟩ := welcome_run (r.append r₁)
    obtain ⟨_, re⟩ := Transport.end_run rends true
    have hreading : (s₁.ends true).reading = true := by
      refine ((Endpoint.run_reads re).goesOn (Transport.calm_run hmax rends true).opened).resolve_right fun h => ?_
      obtain ⟨b, hb⟩ := Option.ne_none_iff_exists'.mp h
      exact Nat.not_lt_zero _ (hn b (hstill₁.unread ▸ hb))
    exact ⟨_, s₁, r₁, hidle₁, hreading, hstill₁.input, hserves₁⟩
  | succ n ih =>
    obtain ⟨_, s₁, r₁, hidle₁, hserves₁, hstill₁⟩ := serves_on hmax r hW
    obtain ⟨⟨_, rends⟩, _⟩ := welcome_run (r.append r₁)
    obtain ⟨_, re⟩ := Transport.end_run rends true
    have hreads := Endpoint.run_reads re
    have hopen := (Transport.calm_run hmax rends true).opened
    cases hu : (s₁.ends true).unread with
    | none =>
      exact ⟨_, s₁, r₁, hidle₁, (hreads.goesOn hopen).resolve_right fun h => h hu, hstill₁.input, hserves₁⟩
    | some b =>
      obtain ⟨hok, hclose⟩ := Transport.input_calm hmax rends true
      obtain ⟨t, ht, hi, _, hnext⟩ := Endpoint.turn_on hreads hopen hu hok hclose
      have hclient : (s₁.moved (Function.update s₁.ends true t)).ends false = s₁.ends false := by
        change Function.update s₁.ends true t false = s₁.ends false
        exact Function.update_of_ne Bool.false_ne_true t s₁.ends
      have hend : (s₁.moved (Function.update s₁.ends true t)).ends true = t := by
        change Function.update s₁.ends true t true = t
        exact Function.update_self true t s₁.ends
      have hstep : (conversation env hdl host maxMessageSize).step s₁ (.transport true (.turn 0))
          (s₁.moved (Function.update s₁.ends true t)) :=
        ⟨Function.update s₁.ends true t, ⟨nofun, ht.trans (congrArg some hend.symm), hclient⟩, fun _ _ => hidle₁, rfl⟩
      have r₂ := r₁.next (.transport true (.turn 0)) trivial hstep
      have hlt : ∀ b', ((s₁.moved (Function.update s₁.ends true t)).ends true).unread = some b' → b'.length < n := by
        intro b' hb'
        rw [hend] at hb'
        have hb : b.length < n + 1 := hn b (by rw [← hstill₁.unread, hu])
        rcases hnext with ⟨hnone, _⟩ | ⟨rest, hrest, hlen⟩
        · rw [hnone] at hb'
          cases hb'
        · obtain rfl := Option.some.inj (hrest.symm.trans hb')
          omega
      obtain ⟨_, s', r', hidle, hreading, hinput, hserves⟩ :=
        ih (r.append r₂) (by rwa [hclient, hserves₁.client]) hlt
      have hmoved : Serves W s₁ (s₁.moved (Function.update s₁.ends true t)) := .of_eq hclient rfl
      refine ⟨_, s', r₂.append r', hidle, hreading, ?_, (hserves₁.trans hmoved).trans hserves⟩
      rw [hinput, hend, hi, hstill₁.input]

/-- The server can read all that the client wrote, with its handler done. -/
private theorem catches_on (hmax : ∀ e, maxMessageSize e < UInt64.size)
    (r : Run (conversation env hdl host maxMessageSize) (Welcome env hdl maxMessageSize) as s)
    (hW : SuitsAll env hdl maxMessageSize W (dataQueued (s.ends false))) :
    ∃ bs s', Run ((conversation env hdl host maxMessageSize).startingAt s) (Welcome env hdl maxMessageSize) bs s' ∧
      s'.Idle ∧ (s'.ends true).reading = true ∧ (s'.ends true).input = (s.ends false).wire ∧ Serves W s s' := by
  have hbound : ∀ (t : Endpoint) b, t.unread = some b → b.length < (t.unread.getD []).length + 1 := by
    intro t b hb
    rw [hb]
    exact Nat.lt_succ_self _
  obtain ⟨_, s₁, r₁, hidle₁, hreading₁, hinput₁, hserves₁⟩ := looks_on hmax r hW (hbound _)
  obtain ⟨⟨_, rends⟩, _⟩ := welcome_run (r.append r₁)
  by_cases hi : (s₁.ends true).input = (s₁.ends false).wire
  · exact ⟨_, s₁, r₁, hidle₁, hreading₁, hi.trans (by rw [hserves₁.client]), hserves₁⟩
  · obtain ⟨b, d, hstep, hin, hclient, _⟩ := Transport.reads_rest rends hreading₁ hi
    change d false = s₁.ends false at hclient
    have hmoved : Serves W s₁ (s₁.moved d) := .of_eq hclient rfl
    have hread : (conversation env hdl host maxMessageSize).step s₁ (.transport true (.read b)) (s₁.moved d) :=
      ⟨d, hstep, fun key h => absurd h (by simp), rfl⟩
    have r₂ := r₁.next (.transport true (.read b)) trivial hread
    have hserves₂ := hserves₁.trans hmoved
    obtain ⟨_, s', r', hidle, hreading, hinput, hserves⟩ :=
      looks_on hmax (r.append r₂) (by rwa [hserves₂.client]) (hbound _)
    refine ⟨_, s', r₂.append r', hidle, hreading, ?_, hserves₂.trans hserves⟩
    rw [hinput]
    exact hin.trans (by rw [Bool.not_true, hserves₁.client])

/-- Steps of the ends that the handler has no part in. -/
private theorem lift_ends {G : Duplex → Bool × Transport.Act → Prop}
    (hG : ∀ d a, G d a → a.2.Friendly (maxMessageSize !a.1) ∧ ∀ key, a ≠ (true, .turn key))
    {bs : List (Bool × Transport.Act)} {d : Duplex}
    (rd : Run ((duplex host maxMessageSize).startingAt s.ends) G bs d) :
    ∃ cs s', Run ((conversation env hdl host maxMessageSize).startingAt s) (Welcome env hdl maxMessageSize) cs s' ∧
      s'.ends = d ∧ s'.served = s.served ∧ s'.pending = s.pending := by
  induction rd with
  | start h => exact ⟨[], s, .start rfl, h.symm, rfl, rfl⟩
  | @next bs d d' _ a ha h ih =>
    obtain ⟨_, s₁, r₁, he, hserved, hpending⟩ := ih
    obtain ⟨hf, hturn⟩ := hG d a ha
    have hstep : (conversation env hdl host maxMessageSize).step s₁ (.transport a.1 a.2) (s₁.moved d') :=
      ⟨d', he ▸ h, fun key hk => absurd hk (hturn key), rfl⟩
    exact ⟨_, _, r₁.next (.transport a.1 a.2) hf hstep, rfl, hserved, hpending⟩

/-- The handler can be run on everything that the client sent. -/
private theorem hears_on (hmax : ∀ e, maxMessageSize e < UInt64.size)
    (r : Run (conversation env hdl host maxMessageSize) (Welcome env hdl maxMessageSize) as s)
    (hW : SuitsAll env hdl maxMessageSize W (dataQueued (s.ends false))) :
    ∃ bs s', Run ((conversation env hdl host maxMessageSize).startingAt s) (Welcome env hdl maxMessageSize) bs s' ∧
      s'.pending = [] ∧ s.served <+: s'.served ∧ (∀ i p, s.served.length ≤ i → s'.served[i]? = some p → p.2 = W i) ∧
      s'.served.map Prod.fst = dataQueued (s.ends false) ∧ dataQueued (s'.ends false) = dataQueued (s.ends false) := by
  obtain ⟨⟨_, rends⟩, _⟩ := welcome_run r
  obtain ⟨_, d₁, rd₁, hq₁, _, hwire₁⟩ := Transport.drained hmax rends false
  obtain ⟨_, s₁, r₁, rfl, hserved₁, _⟩ : ∃ cs s', Run ((conversation env hdl host maxMessageSize).startingAt s)
      (Welcome env hdl maxMessageSize) cs s' ∧ s'.ends = d₁ ∧ s'.served = s.served ∧ s'.pending = s.pending := by
    refine lift_ends (fun d a h => ⟨Transport.WriterOf.friendly d a h, fun key ha => ?_⟩) rd₁
    rw [ha] at h
    cases h.1
  have hsent₁ : dataQueued (s₁.ends false) = dataQueued (s.ends false) := by rw [dataQueued, hq₁, dataQueued]
  obtain ⟨_, s₂, r₂, hidle₂, hreading₂, hinput₂, hserves₂⟩ :=
    catches_on hmax (r.append r₁) (hsent₁ ▸ hW)
  have R₂ := (r.append r₁).append r₂
  obtain ⟨⟨_, rends₂⟩, _⟩ := welcome_run R₂
  have hhandled : (s₂.ends true).handled = dataQueued (s.ends false) := by
    rw [Transport.handled_all hmax rends₂ hreading₂ (by rw [hinput₂, hwire₁, Bool.not_true, hserves₂.client, hq₁]), Bool.not_true,
      hserves₂.client]
    exact hsent₁
  have hserved₂ := (accounted (R₂.weaken fun _ _ _ _ _ => trivial)).served.eq_of_length (by rw [List.length_map, hidle₂.2])
  exact ⟨_, s₂, r₁.append r₂, hidle₂.1, hserved₁ ▸ hserves₂.served, hserved₁ ▸ hserves₂.worlds, hserved₂.trans hhandled,
    by rw [hserves₂.client, hsent₁]⟩

/-- The client can get all that was queued for it. -/
private theorem tells_on (hmax : ∀ e, maxMessageSize e < UInt64.size)
    (r : Run (conversation env hdl host maxMessageSize) (Welcome env hdl maxMessageSize) as s) :
    ∃ bs s', Run ((conversation env hdl host maxMessageSize).startingAt s) (Welcome env hdl maxMessageSize) bs s' ∧
      s'.pending = s.pending ∧ s'.served = s.served ∧ (s'.ends false).handled = s'.said.map Prod.snd := by
  obtain ⟨⟨_, rends⟩, _⟩ := welcome_run r
  obtain ⟨_, d₁, rd₁, hq₁, _, hwire₁⟩ := Transport.drained hmax rends true
  obtain ⟨_, s₁, r₁, rfl, hserved₁, hpending₁⟩ : ∃ cs s', Run ((conversation env hdl host maxMessageSize).startingAt s)
      (Welcome env hdl maxMessageSize) cs s' ∧ s'.ends = d₁ ∧ s'.served = s.served ∧ s'.pending = s.pending := by
    refine lift_ends (fun d a h => ⟨Transport.WriterOf.friendly d a h, fun key ha => ?_⟩) rd₁
    rw [ha] at h
    cases h.2
  obtain ⟨⟨_, rends₁⟩, _⟩ := welcome_run (r.append r₁)
  obtain ⟨_, d₂, rd₂, hreading₂, hinput₂, hserver₂⟩ := Transport.caught_up hmax rends₁ false
  obtain ⟨_, s₂, r₂, rfl, hserved₂, hpending₂⟩ : ∃ cs s', Run ((conversation env hdl host maxMessageSize).startingAt s₁)
      (Welcome env hdl maxMessageSize) cs s' ∧ s'.ends = d₂ ∧ s'.served = s₁.served ∧ s'.pending = s₁.pending := by
    refine lift_ends (fun d a h => ⟨Transport.ReaderOf.friendly d a h, fun key ha => ?_⟩) rd₂
    rw [ha] at h
    cases h.1
  have R₂ := (r.append r₁).append r₂
  obtain ⟨⟨_, rends₂⟩, _⟩ := welcome_run R₂
  rw [Bool.not_false] at hinput₂ hserver₂
  refine ⟨_, s₂, r₁.append r₂, hpending₂.trans hpending₁, hserved₂.trans hserved₁, ?_⟩
  rw [(accounted (R₂.weaken fun _ _ _ _ _ => trivial)).said]
  exact Transport.handled_all hmax rends₂ hreading₂ (by rw [hinput₂, hwire₁, Bool.not_false, hserver₂, hq₁])

/-- The client can get all the answers to what it sent. -/
private theorem completes_on (hmax : ∀ e, maxMessageSize e < UInt64.size)
    (r : Run (conversation env hdl host maxMessageSize) (Welcome env hdl maxMessageSize) as s)
    (hW : SuitsAll env hdl maxMessageSize W (dataQueued (s.ends false))) :
    ∃ bs s', Run ((conversation env hdl host maxMessageSize).startingAt s) (Welcome env hdl maxMessageSize) bs s' ∧
      s.served <+: s'.served ∧ (∀ i p, s.served.length ≤ i → s'.served[i]? = some p → p.2 = W i) ∧
      s'.served.map Prod.fst = dataQueued (s.ends false) ∧ (s'.ends false).handled = s'.said.map Prod.snd ∧
      s'.replies = s'.served.flatMap fun p => takenOf (answers env hdl p.1 p.2) := by
  obtain ⟨_, s₁, r₁, hpending₁, hfront, hworlds, hserved₁, _⟩ := hears_on hmax r hW
  obtain ⟨_, s₂, r₂, hpending₂, hserved₂, hhandled⟩ := tells_on hmax (r.append r₁)
  refine ⟨_, s₂, r₁.append r₂, hserved₂ ▸ hfront, hserved₂ ▸ hworlds, by rw [hserved₂, hserved₁], hhandled, ?_⟩
  have hreplies := (accounted (((r.append r₁).append r₂).weaken fun _ _ _ _ _ => trivial)).replies
  rwa [hpending₂, hpending₁, takenOf_nil, List.append_nil] at hreplies

end Progress

section Echoes
variable {env : Externals} {hdl : Hdl} {host : Bool → Host} {maxMessageSize : Bool → Nat} {s : Conversation}
  {as : List ConversationAct}

/-- An echo that the connection takes is the message itself. -/
private theorem answers_echo {m : Transport.Message} {w : World} (hk : kindOf env m.payload = .echo) (hs : SenderOpen w)
    (hkind : m.opcode = .text ∨ m.opcode = .binary) (ht : m.opcode = .text → validate m.payload = true) :
    answers env hdl m w = [(m, true)] := by
  have hop : wireOpcode (asMessage hdl m).opcode = m.opcode := by
    rcases hkind with h | h <;> rw [asMessage, h] <;> rfl
  have hq : queues w.sender.head m.payload (asMessage hdl m).opcode = true := by
    refine (queues_iff _ _ _).mpr ⟨hs 0, fun htext hd => ?_⟩
    have hm : m.opcode = .text := by rw [← hop, htext]; rfl
    exact absurd (ht hm) (by rw [decode_none_iff.mp hd]; decide)
  have hframes : frames (processMessage env (asMessage hdl m) w).trace = [⟨.reply, hdl, m.payload, true⟩] := by
    have hkind : kindOf env (asMessage hdl m).payload = .echo := hk
    rw [processMessage_eq, hkind, serve, reply_run]
    change frames (Ran.orElse ⟨sendResult w.sender.head m.payload (asMessage hdl m).opcode, _, _⟩ _).trace = _
    rw [(sendResult_ok _ _ _).mpr hq]
    exact congrArg (fun q => [(⟨.reply, hdl, m.payload, q⟩ : Frame)]) hq
  rw [answers, hframes]
  have hm : (⟨wireOpcode (asMessage hdl m).opcode, m.payload⟩ : Transport.Message) = m := by rw [hop]
  simpa [frameOpcode] using hm

/-- Data queued at an end is text or binary, and text is valid. -/
private theorem dataQueued_kind (r : Run (conversation env hdl host maxMessageSize) (Welcome env hdl maxMessageSize) as s)
    (hmax : ∀ e, maxMessageSize e < UInt64.size) {e : Bool} {m : Transport.Message} (hm : m ∈ dataQueued (s.ends e)) :
    (m.opcode = .text ∨ m.opcode = .binary) ∧ (m.opcode = .text → validate m.payload = true) := by
  obtain ⟨⟨_, rends⟩, _⟩ := welcome_run r
  obtain ⟨_, re⟩ := Transport.end_run rends e
  obtain ⟨hq, hdata⟩ := List.mem_filter.mp hm
  obtain ⟨p, hp, rfl⟩ := List.mem_map.mp hq
  refine ⟨?_, ((Endpoint.run_writes re).queued p hp).1.text⟩
  have hkind := ((Transport.calm_run hmax rends e).queued p hp).1.kind
  simp only [List.mem_cons, List.not_mem_nil, or_false] at hkind
  rcases hkind with h | h | h | h | h
  · exact .inl h
  · exact .inr h
  all_goals
    rw [Endpoint.isData, h] at hdata
    cases hdata

end Echoes

section Exchange
variable {env : Externals} {hdl : Hdl} {host : Bool → Host} {maxMessageSize : Bool → Nat} {s s' : Conversation}
  {as : List ConversationAct}

private theorem said_grows {guard : Conversation → ConversationAct → Prop}
    (r : Run ((conversation env hdl host maxMessageSize).startingAt s) guard as s') : s.said <+: s'.said := by
  induction r with
  | start h => rw [h]
  | next _ a _ h ih =>
    cases a with
    | transport e x =>
      obtain ⟨d, _, _, rfl⟩ := h
      exact ih.trans (List.prefix_append _ _)
    | serve w =>
      obtain ⟨_, m, _, rfl⟩ := h
      exact ih
    | answer key =>
      obtain ⟨m, rest, _, _, rfl⟩ := h
      exact ih.trans (List.prefix_append _ _)

/-- The first steps of one end, which reads nothing. -/
private theorem first_steps {e : Bool} {acts : List Transport.Act} {t : Endpoint} (hends : s.ends e = .start e 1000)
    (hacts : ∀ a ∈ acts, (a.Friendly 1000 ∧ ∀ b, a ≠ .read b) ∧ ∀ key, a ≠ .turn key)
    (ht : (Endpoint.start e 1000).steps .little acts = some t) :
    ∃ cs s', Run ((conversation env 1 (fun _ => .little) fun _ => 1000).startingAt s) (Welcome env 1 fun _ => 1000) cs s' ∧
      s'.ends = Function.update s.ends e t ∧ s'.served = s.served ∧ s'.pending = s.pending := by
  have r : Run ((Transport.connection .little e 1000).startingAt (s.ends e))
      (fun _ a => (a.Friendly 1000 ∧ ∀ b, a ≠ .read b) ∧ ∀ key, a ≠ .turn key) acts t := by
    rw [hends]
    exact Endpoint.run_of_steps (fun _ => hacts) ht
  obtain ⟨_, rd⟩ := @Transport.lift_run (fun _ => .little) (fun _ => 1000) s.ends e _ acts t (fun _ _ h => h.1) r
  exact lift_ends (fun d a h => ⟨h.2.1.1, fun key ha => h.2.2 key (by rw [ha])⟩) rd

/-- What these steps make of the two ends of a new connection. -/
private theorem opened_with {acts others : List Transport.Act} {t u : Endpoint}
    (hacts : ∀ a ∈ acts, (a.Friendly 1000 ∧ ∀ b, a ≠ .read b) ∧ ∀ key, a ≠ .turn key)
    (ht : (Endpoint.start false 1000).steps .little acts = some t)
    (hothers : ∀ a ∈ others, (a.Friendly 1000 ∧ ∀ b, a ≠ .read b) ∧ ∀ key, a ≠ .turn key)
    (hu : (Endpoint.start true 1000).steps .little others = some u) :
    ∃ as s, Run (conversation env 1 (fun _ => .little) fun _ => 1000) (Welcome env 1 fun _ => 1000) as s ∧
      s.ends false = t ∧ s.ends true = u ∧ s.served = [] := by
  have r₀ : Run (conversation env 1 (fun _ => .little) fun _ => 1000) (Welcome env 1 fun _ => 1000) []
      ⟨fun e => .start e 1000, [], [], []⟩ := .start ⟨fun _ => rfl, rfl, rfl, rfl⟩
  obtain ⟨_, s₁, r₁, hends₁, hserved₁, _⟩ := first_steps (s := ⟨fun e => .start e 1000, [], [], []⟩) rfl hacts ht
  have hserver : s₁.ends true = .start true 1000 := by
    rw [hends₁, Function.update_of_ne Bool.false_ne_true.symm]
  obtain ⟨_, s₂, r₂, hends₂, hserved₂, _⟩ := first_steps hserver hothers hu
  refine ⟨_, s₂, (r₀.append r₁).append r₂, ?_, ?_, hserved₂.trans hserved₁⟩
  · rw [hends₂, hends₁, Function.update_of_ne Bool.false_ne_true, Function.update_self]
  · rw [hends₂, Function.update_self]

end Exchange

section Results
variable {env : Externals} {hdl : Hdl} {host : Bool → Host} {maxMessageSize : Bool → Nat} {s : Conversation}
  {as : List ConversationAct} {P : Transport.Message → Prop} {W : Nat → World}

def echoMessage (text : String) : Transport.Message :=
  ⟨.text, printText (.obj [("text", .str text), ("type", .str "echo")])⟩

/-- What is no JSON. -/
def brokenMessage : Transport.Message := ⟨.text, encode "\x7b"⟩

def cancelMessage : Transport.Message := ⟨.text, cancelOrder.payload⟩

/-- What another thread of the server sends. -/
def noticeMessage : Transport.Message := ⟨.text, encode "notice"⟩

/-- Only the third message finds a token cached and the exchange answering. -/
def surroundings (i : Nat) : World := if i = 2 then answering else idleWorld

def cancelReplies : List Transport.Message :=
  [⟨.text, grammarExternals.dump (.obj [("result", .arr []), ("type", .str "cancel_response")])⟩,
    ⟨.text, grammarExternals.dump (openOrdersUpdate (.obj [("result", .arr [])]))⟩]

private theorem kindOf_echoMessage (text : String) : kindOf grammarExternals (echoMessage text).payload = .echo := by
  have hc : Json.canon (.obj [("text", .str text), ("type", .str "echo")]) =
      .obj [("text", .str text), ("type", .str "echo")] := by
    simp [Json.canon, Json.canonMembers, Members.normal, Members.put, Members.erase]
  rw [kindOf, echoMessage, parseJson_printed grammarExternals (Json.respell_some _), hc]
  rfl

private theorem answers_echoMessage {text : String} (hv : validate (echoMessage text).payload = true) :
    answers grammarExternals 1 (echoMessage text) idleWorld = [(echoMessage text, true)] :=
  answers_echo (kindOf_echoMessage text) (fun _ => rfl) (.inl rfl) fun _ => hv

private theorem answers_brokenMessage : answers grammarExternals 1 brokenMessage idleWorld =
    [(⟨.text, encode "Internal server error"⟩, true)] := by
  have hp : grammarExternals.parse (encode "\x7b") = .error (encode "[json.exception.parse_error.101] parse error") := by
    simp only [grammarExternals, readText_encode]
    rfl
  have hk : kindOf grammarExternals (asMessage 1 brokenMessage).payload = .malformed := by
    have hpayload : (asMessage 1 brokenMessage).payload = encode "\x7b" := rfl
    simp only [kindOf, parseJson, hpayload, hp]
    rfl
  have hq : queues .opened (encode "Internal server error") .text = true := queues_encode _ _
  have hframes : frames (processMessage grammarExternals (asMessage 1 brokenMessage) idleWorld).trace =
      [⟨.reply, 1, encode "Internal server error", true⟩] := by
    rw [processMessage_eq, hk]
    exact congrArg (fun q => [(⟨.reply, 1, encode "Internal server error", q⟩ : Frame)]) hq
  rw [answers, hframes]
  rfl

/-- An order operation is answered with its reply and the update of a refresh that goes through. -/
private theorem answers_updated {op : Operation} {payload p : Bytes} {data : Json} {w : World}
    (hk : kindOf env payload = .order op) (ha : op.result env payload w = .ok p) (hp : decode p ≠ none) (ho : SenderOpen w)
    (hr : RefreshOk env (op.world env payload w)) (hd : Fetched env (op.world env payload w) data)
    (hm : (op.world env payload w).members.head = [(1, .opened)]) : answers env 1 ⟨.text, payload⟩ w =
      [(⟨.text, p⟩, true), (⟨.text, env.dump (openOrdersUpdate data)⟩, true)] := by
  have hframes : frames (processMessage env (asMessage 1 ⟨.text, payload⟩) w).trace = _ :=
    frames_oneMember hk ha hp (ho 0) hr hd hm
  rw [answers, hframes]
  rfl

private theorem answers_cancelMessage :
    answers grammarExternals 1 cancelMessage answering = cancelReplies.map fun m => (m, true) := by
  have hr : RefreshOk grammarExternals (Operation.cancel.world grammarExternals cancelOrder.payload answering) := by
    rw [world_cancelOrder]
    exact refreshOk_answering
  have hd : Fetched grammarExternals (Operation.cancel.world grammarExternals cancelOrder.payload answering)
      (.obj [("result", .arr [])]) := by
    rw [world_cancelOrder]
    exact ⟨.inl answering_fresh, parse_emptyListing⟩
  have hm : (Operation.cancel.world grammarExternals cancelOrder.payload answering).members.head = [(1, .opened)] := by
    rw [world_cancelOrder]
    rfl
  have ho : SenderOpen answering := fun _ => rfl
  exact @answers_updated grammarExternals .cancel cancelOrder.payload _ _ answering kindOf_cancelOrder result_cancelOrder
    (decode_dump_ne _ _) ho hr hd hm

/-- What the client sends, one message after the other. -/
def requests : List Transport.Message := [echoMessage "hello", brokenMessage, cancelMessage]

def requestReplies : List Transport.Message :=
  echoMessage "hello" :: ⟨.text, encode "Internal server error"⟩ :: cancelReplies

/-- The steps that send messages and queue each of them. -/
def sending (ms : List Transport.Message) : List Transport.Act := ms.flatMap fun m => [.send m, .push 0 0]

private theorem sending_friendly {ms : List Transport.Message} (h : ∀ m ∈ ms, Accepts 1000 m) :
    ∀ a ∈ sending ms, (a.Friendly 1000 ∧ ∀ b, a ≠ .read b) ∧ ∀ key, a ≠ .turn key := by
  intro a ha
  obtain ⟨m, hm, ha⟩ := List.mem_flatMap.mp ha
  rcases List.mem_pair.mp ha with rfl | rfl
  · exact ⟨⟨h m hm, nofun⟩, nofun⟩
  · exact ⟨⟨trivial, nofun⟩, nofun⟩

/-- The client has sent these messages, and another thread of the server has sent its notice. -/
private theorem sent_with_notice {env : Externals} {ms : List Transport.Message} (hms : ∀ m ∈ ms, Accepts 1000 m)
    (hq : ((Endpoint.start false 1000).steps .little (sending ms)).map dataQueued = some ms) :
    ∃ as s, Run (conversation env 1 (fun _ => .little) fun _ => 1000) (Welcome env 1 fun _ => 1000) as s ∧
      dataQueued (s.ends false) = ms ∧ s.said = [(.other, noticeMessage)] ∧ s.served = [] := by
  have hnotice : ((Endpoint.start true 1000).steps .little (sending [noticeMessage])).map dataQueued = some [noticeMessage] := by
    decide +kernel
  have haccepts : ∀ m ∈ [noticeMessage], Accepts 1000 m := by
    intro m hm
    rw [List.mem_singleton.mp hm]
    exact ⟨by decide, by decide⟩
  obtain ⟨t, ht, hsent⟩ := Option.map_eq_some_iff.mp hq
  obtain ⟨u, hu, hserver⟩ := Option.map_eq_some_iff.mp hnotice
  obtain ⟨_, s, r, hclient, hends, hserved⟩ := 
    @opened_with env _ _ t u (sending_friendly hms) ht (sending_friendly haccepts) hu
  have hacc := accounted (P := fun _ => True) (r.weaken fun _ _ _ _ _ => trivial)
  have hsaid := hacc.said
  rw [hends, hserver] at hsaid
  obtain ⟨p, hp, hp₂⟩ := List.map_eq_singleton_iff.mp hsaid
  have hreplies := hacc.replies
  rw [hserved, Conversation.replies, hp] at hreplies
  refine ⟨_, s, r, by rw [hclient, hsent], ?_, hserved⟩
  obtain ⟨speaker, m⟩ := p
  obtain rfl : m = noticeMessage := hp₂
  cases speaker with
  | other => exact hp
  | handler => cases hreplies

private theorem requests_sent : ∃ as s, Run (conversation grammarExternals 1 (fun _ => .little) fun _ => 1000)
    (Welcome grammarExternals 1 fun _ => 1000) as s ∧ dataQueued (s.ends false) = requests ∧
    s.said = [(.other, noticeMessage)] ∧ s.served = [] := by
  refine sent_with_notice (fun m hm => ?_) (by decide +kernel)
  simp only [requests, List.mem_cons, List.not_mem_nil, or_false] at hm
  rcases hm with rfl | rfl | rfl
  all_goals exact ⟨by decide, by decide +kernel⟩

private theorem suits_of_answers {m : Transport.Message} {w : World} {l : List Transport.Message} (hs : SenderOpen w)
    (hm : ∀ n, ∀ member ∈ w.members.get n, member.2 = .opened) (ha : answers grammarExternals 1 m w = l.map fun m => (m, true))
    (hl : ∀ m ∈ l, m.payload.length ≤ 1000) : Suits grammarExternals 1 (fun _ => 1000) m w := by
  refine ⟨hs, fun n member hmem _ => hm n member hmem, fun p hp => ?_⟩
  rw [ha] at hp
  obtain ⟨m', hm', rfl⟩ := List.mem_map.mp hp
  exact hl m' hm'

private theorem suits_echoMessage {text : String} (hv : validate (echoMessage text).payload = true)
    (hl : (echoMessage text).payload.length ≤ 1000) :
    Suits grammarExternals 1 (fun _ => 1000) (echoMessage text) idleWorld := by
  refine suits_of_answers (l := [echoMessage text]) (fun _ => rfl) (fun _ _ h => nomatch h) (answers_echoMessage hv)
    fun m hm => ?_
  rwa [List.mem_singleton.mp hm]

private theorem suits_brokenMessage : Suits grammarExternals 1 (fun _ => 1000) brokenMessage idleWorld :=
  suits_of_answers (l := [⟨.text, encode "Internal server error"⟩]) (fun _ => rfl) (fun _ _ h => nomatch h) answers_brokenMessage
    (by decide)

private theorem suits_cancelMessage : Suits grammarExternals 1 (fun _ => 1000) cancelMessage answering := by
  refine suits_of_answers (fun _ => rfl) (fun n member h => ?_) answers_cancelMessage (by decide +kernel)
  obtain rfl := List.mem_singleton.mp h
  rfl

private theorem suits_requests : SuitsAll grammarExternals 1 (fun _ => 1000) surroundings requests := by
  intro i m hi
  match i with
  | 0 => exact Option.some.inj hi ▸ suits_echoMessage (by decide +kernel) (by decide +kernel)
  | 1 => exact Option.some.inj hi ▸ suits_brokenMessage
  | 2 => exact Option.some.inj hi ▸ suits_cancelMessage
  | n + 3 => cases hi

/-- What is served in these surroundings is answered so. -/
private theorem requests_replied {s : Conversation} (hworlds : ∀ i p, s.served[i]? = some p → p.2 = surroundings i)
    (hserved : s.served.map Prod.fst = requests) :
    (s.served.flatMap fun p => takenOf (answers grammarExternals 1 p.1 p.2)) = requestReplies := by
  obtain ⟨⟨m₀, w₀⟩, l₁, h₀, rfl, hrest₁⟩ := List.map_eq_cons_iff.mp hserved
  obtain ⟨⟨m₁, w₁⟩, l₂, rfl, rfl, hrest₂⟩ := List.map_eq_cons_iff.mp hrest₁
  obtain ⟨⟨m₂, w₂⟩, l₃, rfl, rfl, hrest₃⟩ := List.map_eq_cons_iff.mp hrest₂
  obtain rfl := List.map_eq_nil_iff.mp hrest₃
  rw [h₀] at hworlds ⊢
  obtain rfl : w₀ = idleWorld := hworlds 0 _ rfl
  obtain rfl : w₁ = idleWorld := hworlds 1 _ rfl
  obtain rfl : w₂ = answering := hworlds 2 _ rfl
  rw [List.flatMap_cons, List.flatMap_cons, List.flatMap_singleton, answers_echoMessage (by decide +kernel),
    answers_brokenMessage, answers_cancelMessage]
  rfl

/-- In every interleaving of the client, the server's handler and its other threads, with any
failures, the handler is run on the first messages the client sent, and the client's handler gets
the first of what was queued for it: the handler's answers to those messages, in order, among what
the other threads sent. -/
theorem answers_in_order
    (r : Run (conversation env hdl host maxMessageSize) (fun _ a => ∀ m, a = .transport true (.send m) → P m) as s) :
    s.served.map Prod.fst <+: dataQueued (s.ends false) ∧ (s.ends false).handled <+: s.said.map Prod.snd ∧
      s.replies ++ takenOf s.pending = (s.served.flatMap fun p => takenOf (answers env hdl p.1 p.2)) ∧
      ∀ p ∈ s.said, p.1 = .other → P p.2 := by
  have hs := accounted r
  obtain ⟨_, rends⟩ := ends_run r
  refine ⟨hs.served.trans (Transport.handled_queued rends true), ?_, hs.replies, hs.others⟩
  rw [hs.said]
  exact Transport.handled_queued rends false

theorem answers_in_order_requests : ∃ as s, Run (conversation grammarExternals 1 (fun _ => .little) fun _ => 1000)
    (fun _ a => ∀ m, a = .transport true (.send m) → Accepts 1000 m) as s ∧ s.served.map Prod.fst = requests ∧
    (s.ends false).handled <+: s.said.map Prod.snd ∧ s.replies ++ takenOf s.pending = requestReplies ∧
    (.other, noticeMessage) ∈ s.said := by
  obtain ⟨_, s, r, hsent, hsaid, hserved⟩ := requests_sent
  obtain ⟨_, s', r', _, hworlds, hall, _⟩ := completes_on (fun _ => by decide) r (hsent ▸ suits_requests)
  have hguard : ∀ (s : Conversation) (a : ConversationAct), Welcome grammarExternals 1 (fun _ => 1000) s a →
      ∀ m, a = .transport true (.send m) → Accepts 1000 m := by
    rintro s a hg m rfl
    exact hg
  have rs := (r.append r').weaken hguard
  obtain ⟨_, hhandled, hreplies, _⟩ := answers_in_order rs
  rw [hserved] at hworlds
  rw [hsent] at hall
  refine ⟨_, s', rs, hall, hhandled, hreplies.trans (requests_replied (fun i p => hworlds i p (Nat.zero_le i)) hall), ?_⟩
  exact (said_grows r').subset (by rw [hsaid]; exact List.mem_singleton_self _)

/-- While nobody closes, nothing fails and messages fit, the two ends and the handler can go on
from every state until the handler was run on everything the client sent, and the client's handler
got everything queued for it, all the answers among it. -/
theorem every_message_answered (hmax : ∀ e, maxMessageSize e < UInt64.size)
    (r : Run (conversation env hdl host maxMessageSize) (Welcome env hdl maxMessageSize) as s)
    (hW : SuitsAll env hdl maxMessageSize W (dataQueued (s.ends false))) :
    ∃ bs s', Run ((conversation env hdl host maxMessageSize).startingAt s) (Welcome env hdl maxMessageSize) bs s' ∧
      s.served <+: s'.served ∧ (∀ i p, s.served.length ≤ i → s'.served[i]? = some p → p.2 = W i) ∧
      s'.served.map Prod.fst = dataQueued (s.ends false) ∧ (s'.ends false).handled = s'.said.map Prod.snd ∧
      s'.replies = s'.served.flatMap fun p => takenOf (answers env hdl p.1 p.2) :=
  completes_on hmax r hW

theorem every_message_answered_requests : ∃ as s, Run (conversation grammarExternals 1 (fun _ => .little) fun _ => 1000)
    (Welcome grammarExternals 1 fun _ => 1000) as s ∧ s.served.map Prod.fst = requests ∧ s.replies = requestReplies ∧
    (.other, noticeMessage) ∈ s.said ∧ (s.ends false).handled = s.said.map Prod.snd := by
  obtain ⟨_, s, r, hsent, hsaid, hserved⟩ := requests_sent
  obtain ⟨_, s', r', _, hworlds, hall, hhandled, hreplies⟩ :=
    every_message_answered (fun _ => by decide) r (hsent ▸ suits_requests)
  rw [hserved] at hworlds
  rw [hsent] at hall
  refine ⟨_, s', r.append r', hall, hreplies.trans (requests_replied (fun i p => hworlds i p (Nat.zero_le i)) hall), ?_, hhandled⟩
  exact (said_grows r').subset (by rw [hsaid]; exact List.mem_singleton_self _)

/-- A client that sends echo messages only is answered with each of them that the handler was run
on, unchanged and in order. -/
theorem echoes_return (hmax : ∀ e, maxMessageSize e < UInt64.size)
    (r : Run (conversation env hdl host maxMessageSize) (Welcome env hdl maxMessageSize) as s)
    (he : ∀ m ∈ dataQueued (s.ends false), kindOf env m.payload = .echo) :
    s.served.map Prod.fst <+: dataQueued (s.ends false) ∧ s.replies ++ takenOf s.pending = s.served.map Prod.fst := by
  have hs := accounted (r.weaken fun _ _ _ _ _ => trivial)
  obtain ⟨⟨_, rends⟩, _, hsuits⟩ := welcome_run r
  have hsent : s.served.map Prod.fst <+: dataQueued (s.ends false) := hs.served.trans (Transport.handled_queued rends true)
  have hechoes : (s.served.flatMap fun p => takenOf (answers env hdl p.1 p.2)) = s.served.map Prod.fst := by
    rw [← List.flatMap_pure_eq_map]
    refine List.flatMap_congr fun p hp => ?_
    have hm : p.1 ∈ dataQueued (s.ends false) := hsent.subset (List.mem_map_of_mem hp)
    obtain ⟨hkind, htext⟩ := dataQueued_kind r hmax hm
    rw [answers_echo (he p.1 hm) (hsuits p hp).sender hkind htext]
    rfl
  exact ⟨hsent, hs.replies.trans hechoes⟩

/-- The client sends two echoes while another thread of the server speaks, and gets both back. -/
theorem echoes_return_twice : ∃ as s, Run (conversation grammarExternals 1 (fun _ => .little) fun _ => 1000)
    (Welcome grammarExternals 1 fun _ => 1000) as s ∧ s.replies = [echoMessage "one", echoMessage "two"] ∧
    (.other, noticeMessage) ∈ s.said := by
  have haccepts : ∀ m ∈ [echoMessage "one", echoMessage "two"], Accepts 1000 m := by
    intro m hm
    rcases List.mem_pair.mp hm with rfl | rfl
    all_goals exact ⟨by decide, by decide +kernel⟩
  obtain ⟨_, s, r, hsent, hsaid, _⟩ := sent_with_notice haccepts (by decide +kernel)
  have hsuits : SuitsAll grammarExternals 1 (fun _ => 1000) (fun _ => idleWorld) (dataQueued (s.ends false)) := by
    intro i m hi
    rw [hsent] at hi
    rcases List.mem_pair.mp (List.mem_of_getElem? hi) with rfl | rfl
    all_goals exact suits_echoMessage (by decide +kernel) (by decide +kernel)
  obtain ⟨_, s', r', hpending, _, _, hall, hsent'⟩ := hears_on (fun _ => by decide) r hsuits
  obtain ⟨_, hreplies⟩ := echoes_return (fun _ => by decide) (r.append r') fun m hm => by
    rw [hsent', hsent] at hm
    rcases List.mem_pair.mp hm with rfl | rfl
    all_goals exact kindOf_echoMessage _
  rw [hpending, takenOf_nil, List.append_nil, hall, hsent] at hreplies
  exact ⟨_, s', r.append r', hreplies, (said_grows r').subset (by rw [hsaid]; exact List.mem_singleton_self _)⟩

end Results

end DeribitClientServer.System
