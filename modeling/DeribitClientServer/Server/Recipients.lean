import DeribitClientServer.Library.Transition
import DeribitClientServer.Server.World

/-! Broadcasts between connections that open and close. Registration follows a
connection's state only when its handlers get the mutex a broadcast holds. -/
namespace DeribitClientServer.Server
open Library Library.Utf8

/-- The threads that broadcast. -/
inductive Caster where
  | io | orderbook | positions | openOrders
  deriving DecidableEq, Repr

/-- A broadcast that holds the mutex: the set in its order, and who is left. -/
structure Casting where
  caster : Caster
  message : Bytes
  members : List Hdl
  delivered : List Hdl
  remaining : List Hdl

/-- A broadcast that returned or threw, with the connection states at that time. -/
structure Ended where
  casting : Casting
  session : Hdl → SessionState

structure Hub where
  session : Hdl → SessionState
  connections : List Hdl
  casting : Option Casting
  ended : List Ended

inductive HubAct where
  | handshake (h : Hdl)
  | onOpen (h : Hdl)
  | startClose (h : Hdl)
  | terminate (h : Hdl)
  | onClose (h : Hdl)
  | lock (caster : Caster) (message : Bytes) (order : List Hdl)
  | send
  | unlock

def Hub.enter (s : Hub) (h : Hdl) (state : SessionState) : Hub :=
  { s with session := Function.update s.session h state }

def Hub.finish (s : Hub) (c : Casting) : Hub := { s with casting := none, ended := s.ended ++ [⟨c, s.session⟩] }

/-- One send of the loop: queue the frame and go on, or throw out of the loop. -/
def Hub.sendNext (s : Hub) (c : Casting) (h : Hdl) (rest : List Hdl) : Hub :=
  if queues (s.session h) c.message .text then
    { s with casting := some { c with delivered := c.delivered ++ [h], remaining := rest } }
  else s.finish c

/-- The handlers wait for the mutex; the message is text the server dumped. -/
def hub : Transition Hub HubAct where
  initial s := s = ⟨fun _ => .connecting, [], none, []⟩
  step s a s' :=
    match a with
    | .handshake h => s.session h = .connecting ∧ s' = s.enter h .opened
    | .onOpen h => s.casting = none ∧ s' = { s with connections := s.connections.insert h }
    | .startClose h => s.session h = .opened ∧ s' = s.enter h .closing
    | .terminate h => s.session h ≠ .closed ∧ s' = s.enter h .closed
    | .onClose h => s.session h = .closed ∧ s.casting = none ∧ s' = { s with connections := s.connections.erase h }
    | .lock caster message order =>
        s.casting = none ∧ order.Perm s.connections ∧ decode message ≠ none ∧
          s' = { s with casting := some ⟨caster, message, order, [], order⟩ }
    | .send => ∃ c h rest, s.casting = some c ∧ c.remaining = h :: rest ∧ s' = s.sendNext c h rest
    | .unlock => ∃ c, s.casting = some c ∧ c.remaining = [] ∧ s' = s.finish c

/-- Every member still open got the message exactly once. -/
def Ended.Complete (e : Ended) : Prop :=
  ∀ h ∈ e.casting.members, e.session h = .opened → e.casting.delivered.count h = 1

def Hub.Complete (s : Hub) : Prop := ∀ e ∈ s.ended, e.Complete

/-- A send to a connection that is not open has no open one after it. -/
def Orderly (s : Hub) : HubAct → Prop
  | .send => ∀ c h rest, s.casting = some c → c.remaining = h :: rest →
      s.session h = .opened ∨ ∀ later ∈ rest, s.session later ≠ .opened
  | _ => True

section Invariant

/-- So far every member before the remaining ones has been served. -/
structure Casting.Underway (c : Casting) : Prop where
  served : c.members = c.delivered ++ c.remaining
  nodup : c.members.Nodup
  text : decode c.message ≠ none

structure HubInv (s : Hub) : Prop where
  nodup : s.connections.Nodup
  underway : ∀ c, s.casting = some c → c.Underway
  complete : ∀ e ∈ s.ended, e.Complete

private theorem queues_text {message : Bytes} (h : decode message ≠ none) (state : SessionState) :
    queues state message .text = true ↔ state = .opened := by
  simp [queues_iff, h]

/-- A broadcast may stop exactly where no remaining member is open. -/
theorem Casting.Underway.complete_iff {c : Casting} (hc : c.Underway) (session : Hdl → SessionState) :
    Ended.Complete ⟨c, session⟩ ↔ ∀ h ∈ c.remaining, session h ≠ .opened := by
  have hn : (c.delivered ++ c.remaining).Nodup := hc.served ▸ hc.nodup
  have hd := List.disjoint_of_nodup_append hn
  unfold Ended.Complete
  rw [hc.served]
  constructor
  · intro h k hk ho
    have hcount := h k (List.mem_append_right _ hk) ho
    rw [List.count_eq_zero_of_not_mem (fun hm => hd hm hk)] at hcount
    cases hcount
  · intro h k hk ho
    rcases List.mem_append.mp hk with hm | hm
    · exact List.count_eq_one_of_mem hn.of_append_left hm
    · exact absurd ho (h k hm)

private theorem complete_finish {s : Hub} {c : Casting} (hs : HubInv s) (hc : s.casting = some c)
    (hr : ∀ h ∈ c.remaining, s.session h ≠ .opened) : HubInv (s.finish c) := by
  refine ⟨hs.nodup, fun c' h => ?_, fun e he => ?_⟩
  · cases h
  · rcases List.mem_append.mp he with he | he
    · exact hs.complete e he
    · rw [List.mem_singleton.mp he]
      exact ((hs.underway c hc).complete_iff s.session).mpr hr

private theorem hubInv_send {s : Hub} {c : Casting} {h : Hdl} {rest : List Hdl} (hs : HubInv s)
    (hc : s.casting = some c) (hr : c.remaining = h :: rest)
    (hg : s.session h = .opened ∨ ∀ later ∈ rest, s.session later ≠ .opened) : HubInv (s.sendNext c h rest) := by
  have hu := hs.underway c hc
  unfold Hub.sendNext
  split
  · next hq =>
    refine ⟨hs.nodup, fun c' hc' => ?_, hs.complete⟩
    obtain rfl := Option.some.inj hc'
    refine ⟨?_, hu.nodup, hu.text⟩
    rw [hu.served, hr, List.append_assoc]
    rfl
  · next hq =>
    rw [queues_text hu.text] at hq
    apply complete_finish hs hc
    intro h' hm
    rw [hr] at hm
    rcases List.mem_cons.mp hm with rfl | hm
    · exact hq
    · exact (hg.resolve_left hq) h' hm

theorem hubInv_step {s s' : Hub} {a : HubAct} (hs : HubInv s) (hg : Orderly s a) (h : hub.step s a s') :
    HubInv s' := by
  cases a with
  | handshake k | startClose k | terminate k =>
    obtain ⟨_, rfl⟩ := h
    exact ⟨hs.nodup, hs.underway, hs.complete⟩
  | onOpen k =>
    obtain ⟨hf, rfl⟩ := h
    exact ⟨hs.nodup.insert, by simp [hf], hs.complete⟩
  | onClose k =>
    obtain ⟨_, hf, rfl⟩ := h
    exact ⟨hs.nodup.erase k, hs.underway, hs.complete⟩
  | lock caster message order =>
    obtain ⟨_, hp, ht, rfl⟩ := h
    refine ⟨hs.nodup, fun c hc => ?_, hs.complete⟩
    obtain rfl := Option.some.inj hc
    exact ⟨rfl, hp.nodup_iff.mpr hs.nodup, ht⟩
  | send =>
    obtain ⟨c, k, rest, hc, hr, rfl⟩ := h
    exact hubInv_send hs hc hr (hg c k rest hc hr)
  | unlock =>
    obtain ⟨c, hc, hr, rfl⟩ := h
    exact complete_finish hs hc (by rw [hr]; simp)

/-- When no send fails ahead of an open member, every broadcast that has ended
reached each member still open exactly once, however opening, closing and the
threads interleave. -/
theorem broadcasts_complete {as : List HubAct} {s : Hub} (r : hub.Run Orderly as s) : s.Complete := by
  have hi : HubInv s := by
    refine r.invariant HubInv (fun s h => ?_) (fun s a s' hs hg h => hubInv_step hs hg h)
    obtain rfl := h
    exact ⟨List.nodup_nil, by simp, by simp⟩
  exact hi.complete

end Invariant

section Refinement

/-- The connections to which a trace queued its frames. -/
def receivers (t : List Event) : List Hdl := ((frames t).filter Frame.queued).map Frame.hdl

theorem receivers_sends (message : Bytes) (hdl : Hdl) (state : SessionState)
    (members : List (Hdl × SessionState)) :
    receivers (sends message ((hdl, state) :: members)) =
      if queues state message .text then hdl :: receivers (sends message members) else [] := by
  cases hq : queues state message .text <;> simp [receivers, sends, hq]

/-- What the broadcast of the server would serve from the present states. -/
def Hub.served (s : Hub) (c : Casting) : List Hdl :=
  receivers (sends c.message (c.remaining.map (fun h => (h, s.session h))))

/-- A broadcast that no other thread cuts into ends having served the very
connections that the broadcast of the server serves from the same states. -/
theorem uninterrupted_broadcast {as : List HubAct} {s : Hub} {c : Casting}
    (r : hub.Run Transition.anyStep as s) (hc : s.casting = some c) :
    ∃ as' s' left, hub.Run Transition.anyStep as' s' ∧
      s'.ended = s.ended ++ [⟨{ c with delivered := c.delivered ++ s.served c, remaining := left }, s.session⟩] := by
  unfold Hub.served
  induction hr : c.remaining generalizing as s c with
  | nil =>
    have hstep : hub.step s .unlock (s.finish c) := ⟨c, hc, hr, rfl⟩
    refine ⟨_, _, [], r.next .unlock trivial hstep, ?_⟩
    obtain ⟨caster, message, members, delivered, remaining⟩ := c
    obtain rfl : remaining = [] := hr
    simp [Hub.finish, receivers, sends]
  | cons h rest ih =>
    have hstep : hub.step s .send (s.sendNext c h rest) := ⟨c, h, rest, hc, hr, rfl⟩
    have hrun := r.next .send trivial hstep
    rw [List.map_cons, receivers_sends]
    unfold Hub.sendNext at hrun
    by_cases hq : queues (s.session h) c.message .text = true
    · rw [if_pos hq] at hrun ⊢
      obtain ⟨as', s', left, hrun', hended⟩ := ih hrun rfl rfl
      refine ⟨as', s', left, hrun', ?_⟩
      rw [hended]
      simp
    · rw [if_neg hq] at hrun ⊢
      refine ⟨_, _, h :: rest, hrun, ?_⟩
      obtain ⟨caster, message, members, delivered, remaining⟩ := c
      obtain rfl : remaining = h :: rest := hr
      simp [Hub.finish]

end Refinement

section Interrupted

def Hub.join (s : Hub) (h : Hdl) : Hub := { s.enter h .opened with connections := s.connections.insert h }

private theorem run_join {as : List HubAct} {s : Hub} (r : hub.Run Orderly as s) (h : Hdl)
    (hs : s.session h = .connecting) (hc : s.casting = none) : ∃ as', hub.Run Orderly as' (s.join h) := by
  have h1 : hub.step s (.handshake h) (s.enter h .opened) := ⟨hs, rfl⟩
  have h2 : hub.step (s.enter h .opened) (.onOpen h) (s.join h) := ⟨hc, rfl⟩
  exact ⟨_, (r.next (.handshake h) trivial h1).next (.onOpen h) trivial h2⟩

/-- Two connections have joined, and the second has begun to close. -/
def halfClosed : Hub := (((⟨fun _ => .connecting, [], none, []⟩ : Hub).join 1).join 2).enter 2 .closing

private theorem run_halfClosed : ∃ as, hub.Run Orderly as halfClosed := by
  obtain ⟨_, r1⟩ := run_join (.start rfl) 1 rfl rfl
  obtain ⟨_, r2⟩ := run_join r1 2 rfl rfl
  exact ⟨_, r2.next (.startClose 2) trivial ⟨rfl, rfl⟩⟩

def casting (order : List Hdl) : Casting := ⟨.positions, encode "update", order, [], order⟩

private theorem step_lock {order : List Hdl} (h : order.Perm [2, 1]) :
    hub.step halfClosed (.lock .positions (encode "update") order) { halfClosed with casting := some (casting order) } :=
  ⟨rfl, h, by simp, rfl⟩

private theorem step_send_closing (rest : List Hdl) :
    hub.step { halfClosed with casting := some (casting (2 :: rest)) } .send (halfClosed.finish (casting (2 :: rest))) :=
  ⟨_, 2, rest, rfl, rfl, rfl⟩

/-- The broadcast after its first send, in the order that puts the open one first. -/
def openServed : Casting := { casting [1, 2] with delivered := [1], remaining := [2] }

private theorem step_send_open : hub.step { halfClosed with casting := some (casting [1, 2]) } .send
    { halfClosed with casting := some openServed } := by
  refine ⟨_, 1, [2], rfl, rfl, ?_⟩
  have hq : queues (halfClosed.session 1) (encode "update") .text = true := queues_encode "update" .text
  exact (if_pos hq).symm

/-- With the closing connection last in the order, the open one is served. -/
theorem closing_member_last : (halfClosed.finish openServed).Complete := by
  obtain ⟨_, r⟩ := run_halfClosed
  have r1 := r.next (.lock .positions (encode "update") [1, 2]) trivial (step_lock (.swap 2 1 []))
  have g1 : Orderly { halfClosed with casting := some (casting [1, 2]) } .send := by
    rintro c h rest ⟨⟩ ⟨⟩
    exact .inl rfl
  have g2 : Orderly { halfClosed with casting := some openServed } .send := by
    rintro c h rest ⟨⟩ ⟨⟩
    exact .inr (by simp)
  have h2 : hub.step { halfClosed with casting := some openServed } .send (halfClosed.finish openServed) :=
    ⟨_, 2, [], rfl, rfl, rfl⟩
  exact broadcasts_complete ((r1.next _ g1 step_send_open).next _ g2 h2)

/-- A send to the closing connection throws, and the open one gets nothing. -/
theorem closing_member_cuts_broadcast :
    ¬ ∀ (as : List HubAct) (s : Hub), hub.Run Transition.anyStep as s → s.Complete := by
  intro h
  obtain ⟨_, r⟩ := run_halfClosed
  have r1 := (r.weaken (fun _ _ _ => trivial)).next _ trivial (step_lock (.refl [2, 1]))
  have r2 := r1.next _ trivial (step_send_closing [1])
  have hc := h _ _ r2 ⟨casting [2, 1], halfClosed.session⟩ (List.mem_append_right _ (List.mem_singleton_self _))
  have h1 := hc 1 (by simp [casting]) rfl
  simp [casting] at h1

end Interrupted
end DeribitClientServer.Server
