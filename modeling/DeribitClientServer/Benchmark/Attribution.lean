import DeribitClientServer.Benchmark.Client

/-! Whose reply ends an interval. The flag does not say which message a reply
answers, so an interval is right as long as no other reply comes first. -/
namespace DeribitClientServer.Benchmark
open Library Library.Utf8 Library.History Server

/-- The reply to the iteration's own message was received before its wait ended. -/
def InTime (marks : List Mark) (i : Nat) : Prop :=
  ∃ before t after t', marks = before ++ .waited i t :: after ∧ .received i t' ∈ before

/-- An interval ends after the reply to its iteration's own message, and an
iteration without that reply in time records nothing. -/
structure RecordsOwn (marks : List Mark) : Prop where
  ended : ∀ before i start stop after, marks = before ++ .recorded i start stop :: after →
    ∃ t, .received i t ∈ before ∧ t ≤ stop
  silent : ∀ i, ¬ InTime marks i → ∀ start stop, .recorded i start stop ∉ marks

/-- From the lowering of the flag to the end of the wait. -/
def Phase.Armed : Phase → Prop
  | .cleared | .timed _ | .sent _ | .waiting _ _ => True
  | .top | .woken _ => False

/-- While an iteration is armed, no reply to another iteration's message is taken
before its own. -/
def OwnFirst (env : Externals) (m : Measure) (s : Bench) : BenchAct → Prop
  | .deliver x => s.phase.Armed → m.takes env x.bytes = true → ∀ i, x.iteration = some i →
      i = s.iteration ∨ ∃ t, .received s.iteration t ∈ s.marks
  | _ => True

/-- What allows a record. -/
def OwnReply (before : List Mark) : Mark → Prop
  | .recorded i _ stop => InTime before i ∧ ∃ t, .received i t ∈ before ∧ t ≤ stop
  | .received _ _ | .waited _ _ => True

/-- While an iteration is armed, the flag stands for its own reply. -/
structure BenchInv (env : Externals) (m : Measure) (s : Bench) : Prop where
  foreign : ∀ x ∈ s.down, x.iteration = none → m.takes env x.bytes = false
  flag : s.phase.Armed → s.received = true → ∃ t, .received s.iteration t ∈ s.marks
  woken : ∀ start, s.phase = .woken start → InTime s.marks s.iteration
  past : ∀ i t, .received i t ∈ s.marks → t ≤ s.clock
  own : Lawful OwnReply s.marks

section Replies
variable {env : Externals} {m : Measure} {me : Hdl}

/-- A dumped payload is taken exactly when it has the awaited type. -/
theorem takes_dumped {p : Bytes} {t : String} (h : DumpedAs env p t) : m.takes env p = true ↔ t = m.awaited := by
  obtain ⟨j, rfl, hj⟩ := h
  have hc := (get?_dumped_str_iff env).mpr hj
  unfold Measure.takes
  rw [parseJson_dump, Except.bind, index_of_get? env hc]
  exact decide_eq_true_iff

theorem takes_broadcast {p : Bytes} (h : Broadcasts env p) : m.takes env p = false := by
  obtain ⟨l, hl⟩ := h.dumpedAs
  rw [Bool.eq_false_iff, ne_eq, takes_dumped hl]
  cases l <;> cases m <;> decide

/-- Of the frames that arrive, those that reply to nothing are not taken. -/
theorem takes_arriving {x : Sent} {y : Letter} {w : World} (hy : y ∈ arriving env me x w) (hn : y.iteration = none) :
    m.takes env y.bytes = false := by
  obtain ⟨f, hf, rfl⟩ := List.mem_map.mp hy
  cases hv : f.via with
  | reply => simp [hv] at hn
  | broadcast => exact takes_broadcast (.refresh (List.mem_of_mem_filter hf) hv)

end Replies

section Marks
variable {marks : List Mark} {i : Nat} {a : Mark}

theorem InTime.append (h : InTime marks i) (more : List Mark) : InTime (marks ++ more) i := by
  obtain ⟨before, t, after, t', rfl, hr⟩ := h
  exact ⟨before, t, after ++ more, t', by rw [List.append_assoc, List.cons_append], hr⟩

theorem InTime.received (h : InTime marks i) : ∃ t, .received i t ∈ marks := by
  obtain ⟨before, t, after, t', rfl, hr⟩ := h
  exact ⟨t', List.mem_append_left _ hr⟩

/-- Only the handler adds the mark of a reply. -/
theorem received_of_concat {t : Nat} (ha : ∀ t, a ≠ .received i t) (h : .received i t ∈ marks ++ [a]) :
    .received i t ∈ marks := by
  rcases List.mem_append.mp h with h | h
  · exact h
  · exact absurd (List.mem_singleton.mp h).symm (ha t)

/-- Marks other than records need nothing before them. -/
theorem own_append {more : List Mark} (h : Lawful OwnReply marks) (hm : ∀ a ∈ more, ∀ before, OwnReply before a) :
    Lawful OwnReply (marks ++ more) := by
  induction more generalizing marks with
  | nil => rwa [List.append_nil]
  | cons a more ih =>
    rw [List.append_cons]
    apply ih
    · exact lawful_concat.mpr ⟨h, hm a List.mem_cons_self marks⟩
    · exact fun b hb => hm b (List.mem_cons_of_mem a hb)

theorem recordsOwn_of_lawful (h : Lawful OwnReply marks) : RecordsOwn marks := by
  refine ⟨fun before i start stop after hm => (h before _ after hm).2, fun i hi start stop hmem => hi ?_⟩
  obtain ⟨before, after, rfl, hin, _⟩ := h.of_mem hmem
  exact hin.append _

end Marks

section Invariant
variable {env : Externals} {m : Measure} {me : Hdl} {s : Bench}

private theorem taken_allowed (x : Letter) : ∀ a ∈ taken env m s x, ∀ before, OwnReply before a := by
  intro a ha before
  unfold taken at ha
  split at ha
  · rw [Option.mem_toList] at ha
    obtain ⟨i, _, rfl⟩ := Option.map_eq_some_iff.mp ha
    trivial
  · cases ha

private theorem taken_past {x : Letter} {i t : Nat} (h : Mark.received i t ∈ taken env m s x) : t = s.clock := by
  unfold taken at h
  split at h
  · rw [Option.mem_toList] at h
    obtain ⟨j, _, hj⟩ := Option.map_eq_some_iff.mp h
    cases hj
    rfl
  · cases h

private theorem benchInv_deliver (hi : BenchInv env m s) {x : Letter} {rest : List Letter}
    (hrest : ∀ y ∈ rest, y ∈ s.down) (hx : x ∈ s.down) (hg : OwnFirst env m s (.deliver x)) :
    BenchInv env m (s.deliver env m x rest) := by
  refine ⟨fun y hy => hi.foreign y (hrest y hy), fun ha hr => ?_, fun start hp => (hi.woken start hp).append _,
    fun i t ht => ?_, own_append hi.own (taken_allowed x)⟩
  · obtain hold | htake := Bool.or_eq_true_iff.mp hr
    · obtain ⟨t, ht⟩ := hi.flag ha hold
      exact ⟨t, List.mem_append_left _ ht⟩
    · cases hn : x.iteration with
      | none =>
        rw [hi.foreign x hx hn] at htake
        cases htake
      | some i =>
        rcases hg ha htake i hn with rfl | ⟨t, ht⟩
        · refine ⟨s.clock, List.mem_append_right _ ?_⟩
          rw [taken, if_pos htake, hn]
          exact List.mem_singleton_self _
        · exact ⟨t, List.mem_append_left _ ht⟩
  · rcases List.mem_append.mp ht with ht | ht
    · exact hi.past i t ht
    · exact (taken_past ht).le

/-- A step that changes neither what is on its way down nor the marks. -/
private theorem benchInv_moved (hi : BenchInv env m s) {s' : Bench} (hd : s'.down = s.down) (hm : s'.marks = s.marks)
    (hc : s.clock ≤ s'.clock)
    (hf : s'.phase.Armed → s'.received = true → s.phase.Armed ∧ s.received = true ∧ s'.iteration = s.iteration)
    (hw : ∀ start, s'.phase = .woken start → s.phase = .woken start ∧ s'.iteration = s.iteration) :
    BenchInv env m s' := by
  refine ⟨hd ▸ hi.foreign, fun ha hr => ?_, fun start hp => ?_, fun i t ht => ?_, hm ▸ hi.own⟩
  · obtain ⟨ha', hr', hit⟩ := hf ha hr
    rw [hit, hm]
    exact hi.flag ha' hr'
  · obtain ⟨hp', hit⟩ := hw start hp
    rw [hit, hm]
    exact hi.woken start hp'
  · exact (hi.past i t (hm ▸ ht)).trans hc

private theorem benchInv_down (hi : BenchInv env m s) {more : List Letter} {up : List Sent}
    (hmore : ∀ y ∈ more, y.iteration = none → m.takes env y.bytes = false) :
    BenchInv env m { s with up := up, down := s.down ++ more } :=
  ⟨List.forall_mem_append.mpr ⟨hi.foreign, hmore⟩, hi.flag, hi.woken, hi.past, hi.own⟩

private theorem benchInv_waited (hi : BenchInv env m s) {phase : Phase} (hp : ¬ phase.Armed)
    (hw : ∀ start, phase = .woken start → ∃ t, .received s.iteration t ∈ s.marks) :
    BenchInv env m (s.waited phase) := by
  refine ⟨hi.foreign, fun ha => absurd ha hp, fun start hstart => ?_, fun i t ht => ?_, ?_⟩
  · obtain ⟨t, ht⟩ := hw start hstart
    exact ⟨s.marks, s.clock, [], t, rfl, ht⟩
  · exact hi.past i t (received_of_concat (fun _ => Mark.noConfusion) ht)
  · exact lawful_concat.mpr ⟨hi.own, trivial⟩

private theorem benchInv_record (hi : BenchInv env m s) {start : Nat} (hp : s.phase = .woken start) :
    BenchInv env m (s.record start) := by
  have hin : InTime s.marks s.iteration := hi.woken start hp
  obtain ⟨t, ht⟩ := hin.received
  refine ⟨hi.foreign, fun ha => ha.elim, (fun _ hstart => nomatch hstart), fun i t ht => ?_, ?_⟩
  · exact hi.past i t (received_of_concat (fun _ => Mark.noConfusion) ht)
  · exact lawful_concat.mpr ⟨hi.own, hin, t, ht, hi.past _ t ht⟩

theorem benchInv_step {a : BenchAct} {s' : Bench} (hi : BenchInv env m s) (hg : OwnFirst env m s a)
    (h : (bench env m me).step s a s') : BenchInv env m s' := by
  cases a with
  | pass time =>
    obtain rfl := h
    exact benchInv_moved hi rfl rfl (Nat.le_add_right _ _) (fun ha hr => ⟨ha, hr, rfl⟩) (fun _ hp => ⟨hp, rfl⟩)
  | clear =>
    obtain ⟨_, rfl⟩ := h
    exact benchInv_moved hi rfl rfl le_rfl (fun _ hr => nomatch hr) (fun _ hp => nomatch hp)
  | begin =>
    obtain ⟨hp, rfl⟩ := h
    exact benchInv_moved hi rfl rfl le_rfl (fun _ hr => ⟨hp ▸ trivial, hr, rfl⟩) (fun _ hp => nomatch hp)
  | send d =>
    obtain ⟨start, hp, rfl⟩ := h
    exact benchInv_moved hi rfl rfl le_rfl (fun _ hr => ⟨hp ▸ trivial, hr, rfl⟩) (fun _ hp => nomatch hp)
  | fail =>
    obtain ⟨start, _, rfl⟩ := h
    exact benchInv_moved hi rfl rfl le_rfl (fun ha => ha.elim) (fun _ hp => nomatch hp)
  | await =>
    obtain ⟨start, hp, rfl⟩ := h
    exact benchInv_moved hi rfl rfl le_rfl (fun _ hr => ⟨hp ▸ trivial, hr, rfl⟩) (fun _ hp => nomatch hp)
  | wake =>
    obtain ⟨start, deadline, hp, hr, rfl⟩ := h
    exact benchInv_waited hi id (fun _ _ => hi.flag (hp ▸ trivial) hr)
  | giveUp =>
    obtain ⟨start, deadline, _, _, _, rfl⟩ := h
    exact benchInv_waited hi id (fun _ hp => nomatch hp)
  | record =>
    obtain ⟨start, hp, rfl⟩ := h
    exact benchInv_record hi hp
  | serve x w =>
    obtain ⟨before, after, _, rfl⟩ := h
    exact benchInv_down hi (fun y hy => takes_arriving hy)
  | cast p =>
    obtain ⟨hp, rfl⟩ := h
    exact benchInv_down hi (List.forall_mem_singleton.mpr (fun _ => takes_broadcast hp))
  | deliver x =>
    obtain ⟨before, after, hd, rfl⟩ := h
    refine benchInv_deliver hi (fun y hy => ?_) ?_ hg
    · rw [hd]
      exact List.mem_append.mpr ((List.mem_append.mp hy).imp_right (List.mem_cons_of_mem x))
    · rw [hd]
      exact List.mem_append_right _ List.mem_cons_self

/-- When no other reply comes first, every recorded interval ends after the reply
to the message of its own iteration, in every run. -/
theorem intervals_end_after_own_reply {as : List BenchAct} (r : (bench env m me).Run (OwnFirst env m) as s) :
    RecordsOwn s.marks := by
  have hi : BenchInv env m s := by
    refine r.invariant (BenchInv env m) (fun s h => ?_) (fun s a s' hi hg h => benchInv_step hi hg h)
    obtain ⟨clock, rfl⟩ := h
    exact ⟨by simp, fun ha => ha.elim, (fun _ hp => nomatch hp), by simp, lawful_nil⟩
  exact recordsOwn_of_lawful hi.own

end Invariant

section Late
variable {env : Externals} {m : Measure} {me : Hdl} {s : Bench} {as : List BenchAct}

/-- The run can go on to an interval that ends without its own reply. -/
def Miscredits (env : Externals) (m : Measure) (me : Hdl) (as : List BenchAct) : Prop :=
  ∃ bs s, (bench env m me).Run Transition.anyStep (as ++ bs) s ∧ ¬ RecordsOwn s.marks

private theorem miscredits_of_next {a : BenchAct} (h : Miscredits env m me (as ++ [a])) : Miscredits env m me as := by
  obtain ⟨bs, s, r, hn⟩ := h
  rw [List.append_assoc] at r
  exact ⟨_, s, r, hn⟩

/-- The flag is up, and not for the iteration that waits for it. -/
structure Misled (s : Bench) : Prop where
  flag : s.received = true
  none : ∀ t, .received s.iteration t ∉ s.marks

private theorem miscredits_waiting (r : (bench env m me).Run Transition.anyStep as s) (hs : Misled s)
    {start deadline : Nat} (hp : s.phase = .waiting start deadline) : Miscredits env m me as := by
  have r1 := r.next .wake trivial ⟨start, deadline, hp, hs.flag, rfl⟩
  have r2 := r1.next .record trivial ⟨start, rfl, rfl⟩
  rw [List.append_assoc] at r2
  refine ⟨_, _, r2, fun hown => ?_⟩
  obtain ⟨t, ht, _⟩ := hown.ended _ _ _ _ [] rfl
  exact hs.none t (received_of_concat (fun _ => Mark.noConfusion) ht)

private theorem miscredits_sent (r : (bench env m me).Run Transition.anyStep as s) (hs : Misled s) {start : Nat}
    (hp : s.phase = .sent start) : Miscredits env m me as := by
  have r1 := r.next .await trivial ⟨start, hp, rfl⟩
  exact miscredits_of_next (miscredits_waiting r1 ⟨hs.flag, hs.none⟩ rfl)

/-- Ten contracts bought at the lowest price. -/
def someDraw : Draw := ⟨1, Numeral.ofNat 20000, true, by decide⟩

private theorem miscredits_timed (r : (bench env m me).Run Transition.anyStep as s) (hs : Misled s) {start : Nat}
    (hp : s.phase = .timed start) : Miscredits env m me as := by
  have r1 := r.next (.send someDraw) trivial ⟨start, hp, rfl⟩
  exact miscredits_of_next (miscredits_sent r1 ⟨hs.flag, hs.none⟩ rfl)

private theorem miscredits_cleared (r : (bench env m me).Run Transition.anyStep as s) (hs : Misled s)
    (hp : s.phase = .cleared) : Miscredits env m me as := by
  have r1 := r.next .begin trivial ⟨hp, rfl⟩
  exact miscredits_of_next (miscredits_timed r1 ⟨hs.flag, hs.none⟩ rfl)

private theorem misled_deliver {x : Letter} (rest : List Letter) (hg : ¬ OwnFirst env m s (.deliver x)) :
    s.phase.Armed ∧ Misled (s.deliver env m x rest) := by
  simp only [OwnFirst, not_forall, not_or, not_exists] at hg
  obtain ⟨ha, htake, i, hx, hne, hnone⟩ := hg
  refine ⟨ha, by simp [Bench.deliver, htake], fun t ht => ?_⟩
  rcases List.mem_append.mp ht with ht | ht
  · exact hnone t ht
  · rw [taken, if_pos htake, hx] at ht
    cases List.mem_singleton.mp ht
    exact hne rfl

/-- Once another reply has come first, nothing keeps the run from crediting it. -/
theorem late_reply_credited {x : Letter} (r : (bench env m me).Run Transition.anyStep as s) (hx : x ∈ s.down)
    (hg : ¬ OwnFirst env m s (.deliver x)) : Miscredits env m me (as ++ [.deliver x]) := by
  obtain ⟨before, after, hd⟩ := List.append_of_mem hx
  obtain ⟨ha, hmis⟩ := misled_deliver (before ++ after) hg
  have r1 := r.next (.deliver x) trivial ⟨before, after, hd, rfl⟩
  cases hp : s.phase with
  | top | woken start =>
    rw [hp] at ha
    exact ha.elim
  | cleared => exact miscredits_cleared r1 hmis hp
  | timed start => exact miscredits_timed r1 hmis hp
  | sent start => exact miscredits_sent r1 hmis hp
  | waiting start deadline => exact miscredits_waiting r1 hmis hp

end Late

section Echo
variable {env : Externals} {me : Hdl}

private theorem kindOf_echoMessage : kindOf env (env.dump echoMessage) = .echo := by
  have hc : (echoMessage.stored env.spelling).canon.get? "type" = some (.str "echo") := (get?_dumped_str_iff env).mpr rfl
  have hs : stringMember env (echoMessage.stored env.spelling).canon "type" = .ok "echo" := stringMember_ok_iff.mpr hc
  rw [kindOf, parseJson_dump]
  simp only [hs]
  rfl

/-- The server sends an echo back to its sender, and nothing else. -/
theorem arriving_echo {w : World} (i : Nat) (ho : w.sender.head = .opened) :
    arriving env me ⟨i, env.dump echoMessage⟩ w = [⟨some i, env.dump echoMessage⟩] := by
  have hq : queues w.sender.head (env.dump echoMessage) .text = true :=
    (queues_iff _ _ _).mpr ⟨ho, fun _ => decode_dump_ne env echoMessage⟩
  have hframes := @frames_echo env ⟨me, env.dump echoMessage, .text⟩ w kindOf_echoMessage hq
  rw [arriving, hframes]
  simp [replyFrame, hq]

/-- An echo is taken by the benchmark that waits for it. -/
theorem takes_echo : Measure.websocketPropagationDelay.takes env (env.dump echoMessage) = true :=
  (takes_dumped ⟨echoMessage, rfl, rfl⟩).mpr rfl

theorem serve_echo {w : World} (s : Bench) (i : Nat) (rest : List Sent) (ho : w.sender.head = .opened) :
    s.serve env me ⟨i, env.dump echoMessage⟩ rest w =
      { s with up := rest, down := s.down ++ [⟨some i, env.dump echoMessage⟩] } := by
  rw [Bench.serve, arriving_echo i ho]

theorem deliver_echo (s : Bench) (i : Nat) (rest : List Letter) :
    s.deliver env .websocketPropagationDelay ⟨some i, env.dump echoMessage⟩ rest =
      { s with down := rest, received := true, marks := s.marks ++ [.received i s.clock] } := by
  rw [Bench.deliver, taken, if_pos takes_echo, takes_echo, Bool.or_true]
  rfl

end Echo

section Runs
variable {env : Externals} {guard : Bench → BenchAct → Prop}

/-- An echo has been sent at this time and is waited for. -/
def Bench.echoing (env : Externals) (s : Bench) : Bench :=
  { s with iteration := s.iteration + 1, received := false,
           phase := .waiting s.clock (s.clock + Measure.websocketPropagationDelay.patience),
           up := s.up ++ [⟨s.iteration + 1, env.dump echoMessage⟩] }

/-- The loop's way from its head to the wait. -/
theorem echoing_run {as : List BenchAct} {s : Bench} (hg : ∀ s a, (∀ x, a ≠ .deliver x) → guard s a)
    (hp : s.phase = .top) (r : (bench env .websocketPropagationDelay 1).Run guard as s) :
    (bench env .websocketPropagationDelay 1).Run guard (as ++ [.clear] ++ [.begin] ++ [.send someDraw] ++ [.await])
      (s.echoing env) := by
  have r1 := r.next .clear (hg _ _ (fun _ => BenchAct.noConfusion)) ⟨hp, rfl⟩
  have r2 := r1.next .begin (hg _ _ (fun _ => BenchAct.noConfusion)) ⟨rfl, rfl⟩
  have r3 := r2.next (.send someDraw) (hg _ _ (fun _ => BenchAct.noConfusion)) ⟨_, rfl, rfl⟩
  exact r3.next .await (hg _ _ (fun _ => BenchAct.noConfusion)) ⟨_, rfl, rfl⟩

/-- Nothing has been sent yet. -/
def atStart : Bench := ⟨0, 0, .top, false, [], [], []⟩

/-- The first echo is back in time, and its interval is recorded. -/
theorem first_echo_own : RecordsOwn [.received 1 0, .waited 1 0, .recorded 1 0 0] := by
  have hfree : ∀ s a, (∀ x, a ≠ .deliver x) → OwnFirst grammarExternals .websocketPropagationDelay s a := by
    intro s a ha
    cases a with
    | deliver x => exact absurd rfl (ha x)
    | _ => trivial
  have r0 : (bench grammarExternals .websocketPropagationDelay 1).Run
      (OwnFirst grammarExternals .websocketPropagationDelay) [] atStart := .start ⟨0, rfl⟩
  have r1 := echoing_run hfree rfl r0
  have r2 := r1.next (.serve ⟨1, grammarExternals.dump echoMessage⟩ idleWorld) trivial
    ⟨[], [], rfl, (serve_echo _ 1 _ rfl).symm⟩
  have r3 := r2.next (.deliver ⟨some 1, grammarExternals.dump echoMessage⟩)
    (fun _ _ i hi => .inl (Option.some_inj.mp hi).symm) ⟨[], [], rfl, (deliver_echo _ 1 _).symm⟩
  have r4 := r3.next .wake trivial ⟨_, _, rfl, rfl, rfl⟩
  exact intervals_end_after_own_reply (r4.next .record trivial ⟨_, rfl, rfl⟩)

/-- The first wait times out, and its echo ends the interval of the second. -/
theorem late_echo_recorded : ¬ ∀ (env : Externals) (m : Measure) (me : Hdl) as s,
    (bench env m me).Run Transition.anyStep as s → RecordsOwn s.marks := by
  intro h
  have r0 : (bench grammarExternals .websocketPropagationDelay 1).Run Transition.anyStep [] atStart := .start ⟨0, rfl⟩
  have r1 := echoing_run (fun _ _ _ => trivial) rfl r0
  have r2 := r1.next (.pass Measure.websocketPropagationDelay.patience) trivial rfl
  have r3 := r2.next .giveUp trivial ⟨_, _, rfl, le_rfl, rfl, rfl⟩
  have r4 := echoing_run (fun _ _ _ => trivial) rfl r3
  have r5 := r4.next (.serve ⟨1, grammarExternals.dump echoMessage⟩ idleWorld) trivial
    ⟨[], _, rfl, (serve_echo _ 1 _ rfl).symm⟩
  have r6 := r5.next (.deliver ⟨some 1, grammarExternals.dump echoMessage⟩) trivial
    ⟨[], [], rfl, (deliver_echo _ 1 _).symm⟩
  have r7 := r6.next .wake trivial ⟨_, _, rfl, rfl, rfl⟩
  obtain ⟨t, ht, _⟩ := (h _ _ _ _ _ (r7.next .record trivial ⟨_, rfl, rfl⟩)).ended _ 2 _ _ [] rfl
  simp [Bench.echoing, Bench.waited, atStart] at ht

end Runs
end DeribitClientServer.Benchmark
