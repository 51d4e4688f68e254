import DeribitClientServer.Server.Recipients
import DeribitClientServer.Server.Updates

/-! The open orders as clients see them in time. Two threads fetch and then
broadcast, and nothing orders one thread's fetch and the other's broadcast. -/
namespace DeribitClientServer.System
open Library Library.JsonText Library.Utf8 Server

/-- The threads that fetch and broadcast: order messages, and the polling loop. -/
inductive Poster where
  | io | poller
  deriving DecidableEq, Repr

/-- An answer of the exchange, with the version of the open orders it shows. -/
structure Snapshot where
  version : Nat
  text : Bytes

structure Feed where
  version : Nat
  held : Poster → Option Snapshot
  delivered : Hdl → List Nat

inductive FeedAct where
  | accept
  | fetch (p : Poster) (w : World)
  | cast (p : Poster) (w : World)

def Feed.hold (s : Feed) (p : Poster) (x : Option Snapshot) : Feed := { s with held := Function.update s.held p x }

/-- A fetch that got its answer holds it for the broadcast that follows. -/
def Feed.fetched (env : Externals) (s : Feed) (p : Poster) (w : World) : Feed :=
  match (getOpenOrders env w).result with
  | .ok text => s.hold p (some ⟨s.version, text⟩)
  | .error _ => s

def Feed.casted (env : Externals) (s : Feed) (p : Poster) (w : World) (snap : Snapshot) : Feed :=
  { s.hold p none with
    delivered := fun h => s.delivered h ++
      List.replicate ((receivers (castOpenOrders env snap.text w).trace).count h) snap.version }

/-- Every accepted order operation makes a new version. The broadcast holds the
mutex, so its deliveries are one step. -/
def feed (env : Externals) : Transition Feed FeedAct where
  initial s := s = ⟨0, fun _ => none, fun _ => []⟩
  step s a s' :=
    match a with
    | .accept => s' = { s with version := s.version + 1 }
    | .fetch p w => s.held p = none ∧ s' = s.fetched env p w
    | .cast p w => ∃ snap, s.held p = some snap ∧ s' = s.casted env p w snap

/-- No broadcast goes out while the other thread holds an older answer. -/
def NoOlderHeld (s : Feed) : FeedAct → Prop
  | .cast p _ => ∀ q snap other, s.held p = some snap → s.held q = some other → snap.version ≤ other.version
  | .accept | .fetch _ _ => True

section Order
variable {env : Externals}

structure FeedInv (s : Feed) : Prop where
  sorted : ∀ h, (s.delivered h).Pairwise (· ≤ ·)
  current : ∀ h, ∀ v ∈ s.delivered h, v ≤ s.version
  held : ∀ p snap, s.held p = some snap → snap.version ≤ s.version
  newer : ∀ p snap, s.held p = some snap → ∀ h, ∀ v ∈ s.delivered h, v ≤ snap.version

private theorem held_hold {s : Feed} {p q : Poster} {x : Option Snapshot} {snap : Snapshot}
    (h : (s.hold p x).held q = some snap) : x = some snap ∨ s.held q = some snap := by
  change Function.update s.held p x q = some snap at h
  rcases eq_or_ne q p with rfl | hqp
  · rw [Function.update_self] at h
    exact .inl h
  · rw [Function.update_of_ne hqp] at h
    exact .inr h

private theorem feedInv_fetched {s : Feed} (hs : FeedInv s) (p : Poster) (w : World) :
    FeedInv (s.fetched env p w) := by
  unfold Feed.fetched
  cases (getOpenOrders env w).result with
  | error e => exact hs
  | ok text =>
    refine ⟨hs.sorted, hs.current, fun q snap hq => ?_, fun q snap hq h v hv => ?_⟩
    · rcases held_hold hq with hx | hq
      · obtain rfl := Option.some.inj hx
        exact Nat.le_refl s.version
      · exact hs.held q snap hq
    · rcases held_hold hq with hx | hq
      · obtain rfl := Option.some.inj hx
        exact hs.current h v hv
      · exact hs.newer q snap hq h v hv

private theorem mem_casted {s : Feed} {p : Poster} {w : World} {snap : Snapshot} {h : Hdl} {v : Nat}
    (hv : v ∈ (s.casted env p w snap).delivered h) : v ∈ s.delivered h ∨ v = snap.version := by
  rcases List.mem_append.mp hv with hv | hv
  · exact .inl hv
  · exact .inr (List.eq_of_mem_replicate hv)

private theorem feedInv_casted {s : Feed} {p : Poster} {snap : Snapshot} (hs : FeedInv s) (hp : s.held p = some snap)
    (hg : ∀ q other, s.held q = some other → snap.version ≤ other.version) (w : World) :
    FeedInv (s.casted env p w snap) := by
  have hkept {q : Poster} {other : Snapshot} (hq : (s.casted env p w snap).held q = some other) :
      s.held q = some other := by
    rcases held_hold hq with hx | hq
    · cases hx
    · exact hq
  refine ⟨fun h => ?_, fun h v hv => ?_, fun q other hq => hs.held q other (hkept hq), fun q other hq h v hv => ?_⟩
  · apply List.pairwise_append.mpr
    refine ⟨hs.sorted h, by simp [List.pairwise_replicate], fun u hu v hv => ?_⟩
    rw [List.eq_of_mem_replicate hv]
    exact hs.newer p snap hp h u hu
  · rcases mem_casted hv with hv | rfl
    · exact hs.current h v hv
    · exact hs.held p snap hp
  · rcases mem_casted hv with hv | rfl
    · exact hs.newer q other (hkept hq) h v hv
    · exact hg q other (hkept hq)

theorem feedInv_step {s s' : Feed} {a : FeedAct} (hs : FeedInv s) (hg : NoOlderHeld s a)
    (h : (feed env).step s a s') : FeedInv s' := by
  cases a with
  | accept =>
    obtain rfl := h
    exact ⟨hs.sorted, fun h v hv => Nat.le_succ_of_le (hs.current h v hv),
      fun p snap hp => Nat.le_succ_of_le (hs.held p snap hp), hs.newer⟩
  | fetch p w =>
    obtain ⟨_, rfl⟩ := h
    exact feedInv_fetched hs p w
  | cast p w =>
    obtain ⟨snap, hp, rfl⟩ := h
    exact feedInv_casted hs hp (fun q other hq => hg q snap other hp hq) w

/-- When no broadcast overtakes an older answer still held by the other thread,
the versions each client gets never go back. -/
theorem versions_never_go_back {as : List FeedAct} {s : Feed} (r : (feed env).Run NoOlderHeld as s) (h : Hdl) :
    (s.delivered h).Pairwise (· ≤ ·) := by
  have hi : FeedInv s := by
    refine r.invariant FeedInv (fun s h => ?_) (fun s a s' hs hg h => feedInv_step hs hg h)
    obtain rfl := h
    exact ⟨by simp, by simp, by simp, by simp⟩
  exact hi.sorted h

end Order

section Refinement
variable {env : Externals}

/-- A refresh that is not interrupted is a fetch followed by its broadcast. -/
theorem refresh_is_fetch_then_cast {s : Feed} {p : Poster} {w : World} (hp : s.held p = none)
    (hok : (broadcastOpenOrdersUpdate env w).result = .ok ()) :
    ∃ s' w' s'', (feed env).step s (.fetch p w) s' ∧ (feed env).step s' (.cast p w') s'' ∧
      ∀ h, s''.delivered h = s.delivered h ++
        List.replicate ((receivers (broadcastOpenOrdersUpdate env w).trace).count h) s.version := by
  unfold broadcastOpenOrdersUpdate at hok ⊢
  rw [Exec.run_bind, getOpenOrders_run] at hok ⊢
  cases ht : tokenResult env w with
  | error e =>
    rw [ht] at hok
    cases hok
  | ok token =>
    have hf : s.fetched env p w = s.hold p (some ⟨s.version, openOrdersText env w.api.head⟩) := by
      unfold Feed.fetched
      rw [getOpenOrders_run, ht]
      rfl
    have hheld : (s.hold p (some ⟨s.version, openOrdersText env w.api.head⟩)).held p =
        some ⟨s.version, openOrdersText env w.api.head⟩ := Function.update_self ..
    refine ⟨_, submitWorld env w, _, ⟨hp, hf.symm⟩, ⟨_, hheld, rfl⟩, fun h => ?_⟩
    simp [Feed.casted, Feed.hold, Except.map, receivers, frames_submitTrace]

end Refinement

section Overtaken

private theorem fetched_answering (s : Feed) (p : Poster) :
    s.fetched grammarExternals p answering = s.hold p (some ⟨s.version, emptyListing⟩) := by
  unfold Feed.fetched
  rw [getOpenOrders_run, tokenResult, if_pos answering_fresh]
  rfl

private theorem delivered_answering (s : Feed) (p : Poster) (v : Nat) :
    (s.casted grammarExternals p answering ⟨v, emptyListing⟩).delivered 1 = s.delivered 1 ++ [v] := by
  rcases castOpenOrders_run grammarExternals answering emptyListing with ⟨e, he, _⟩ | ⟨data', x, _, hc, _⟩
  · rw [parse_emptyListing] at he
    cases he
  · have hm : answering.members.head = [(1, .opened)] := rfl
    have hq : queues .opened (grammarExternals.dump (openOrdersUpdate data')) .text = true :=
      (queues_iff _ _ _).mpr ⟨rfl, fun _ => decode_dump_ne grammarExternals _⟩
    simp [Feed.casted, Feed.hold, hc, hm, hq, receivers, sends]

/-- No broadcast is overtaken while what the other thread holds is not older. -/
private theorem noOlderHeld_cast {s : Feed} {p q : Poster} {snap : Snapshot} (w : World) (hpq : ∀ r, r = p ∨ r = q)
    (hp : s.held p = some snap) (hq : ∀ other, s.held q = some other → snap.version ≤ other.version) :
    NoOlderHeld s (.cast p w) := by
  intro r snap' other hp' hr
  obtain rfl := Option.some.inj (hp.symm.trans hp')
  rcases hpq r with rfl | rfl
  · obtain rfl := Option.some.inj (hp.symm.trans hr)
    exact Nat.le_refl _
  · exact hq other hr

/-- A poll and the refresh of an order accepted after it hold their answers at one
time, and broadcast them in the order in which they fetched. -/
theorem polled_in_order : ∃ as s, (feed grammarExternals).Run NoOlderHeld as s ∧ s.delivered 1 = [0, 1] ∧
    (s.delivered 1).Pairwise (· ≤ ·) := by
  have r0 : (feed grammarExternals).Run NoOlderHeld [] ⟨0, fun _ => none, fun _ => []⟩ := .start rfl
  have r1 := r0.next (.fetch .poller answering) trivial ⟨rfl, (fetched_answering _ _).symm⟩
  have r2 := r1.next .accept trivial rfl
  have r3 := r2.next (.fetch .io answering) trivial ⟨rfl, (fetched_answering _ _).symm⟩
  have r4 := r3.next (.cast .poller answering) ?_ ⟨⟨0, emptyListing⟩, rfl, rfl⟩
  · have r5 := r4.next (.cast .io answering) ?_ ⟨⟨1, emptyListing⟩, rfl, rfl⟩
    · refine ⟨_, _, r5, ?_, versions_never_go_back r5 1⟩
      rw [delivered_answering, delivered_answering]
      rfl
    · refine noOlderHeld_cast (q := .poller) answering (by rintro (_ | _) <;> simp) rfl (fun other ho => ?_)
      cases ho
  · refine noOlderHeld_cast (q := .io) answering (by rintro (_ | _) <;> simp) rfl (fun other ho => ?_)
    obtain rfl := Option.some.inj ho
    exact Nat.zero_le 1

/-- An order message's refresh overtakes the poll that fetched before it, and
the client then gets the older listing after the newer one. -/
theorem poll_overtaken : ¬ ∀ (env : Externals) (as : List FeedAct) (s : Feed),
    (feed env).Run Transition.anyStep as s → ∀ h, (s.delivered h).Pairwise (· ≤ ·) := by
  intro h
  have r0 : (feed grammarExternals).Run Transition.anyStep [] ⟨0, fun _ => none, fun _ => []⟩ := .start rfl
  have r1 := r0.next (.fetch .poller answering) trivial ⟨rfl, (fetched_answering _ _).symm⟩
  have r2 := r1.next .accept trivial rfl
  have r3 := r2.next (.fetch .io answering) trivial ⟨rfl, (fetched_answering _ _).symm⟩
  have r4 := r3.next (.cast .io answering) trivial ⟨⟨1, emptyListing⟩, rfl, rfl⟩
  have r5 := r4.next (.cast .poller answering) trivial ⟨⟨0, emptyListing⟩, rfl, rfl⟩
  have hp := h _ _ _ r5 1
  rw [delivered_answering, delivered_answering] at hp
  simp [Feed.hold] at hp

end Overtaken
end DeribitClientServer.System
