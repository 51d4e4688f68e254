import Mathlib.Data.List.Infix

/-! Items queued by many callers and written in batches, one batch at a time. An
item may end everything: the batch it is in is the last. -/
namespace DeribitClientServer.Library
variable {α : Type}

/-- What a writer takes at once: all there is, up to an item that ends everything. -/
def batch (ends : α → Bool) : List α → List α × List α
  | [] => ([], [])
  | x :: q => if ends x then ([x], q) else (x :: (batch ends q).1, (batch ends q).2)

section Batch
variable {ends : α → Bool} {a b l : List α} {x : α}

theorem batch_cons_of_ends (h : ends x = true) : batch ends (x :: l) = ([x], l) := if_pos h

theorem batch_cons_of_not (h : ends x = false) : batch ends (x :: l) = (x :: (batch ends l).1, (batch ends l).2) :=
  if_neg (by rw [h]; decide)

theorem batch_append_batch : (batch ends l).1 ++ (batch ends l).2 = l := by
  induction l with
  | nil => rfl
  | cons x l ih =>
    cases h : ends x with
    | true => rw [batch_cons_of_ends h, List.singleton_append]
    | false => rw [batch_cons_of_not h, List.cons_append, ih]

/-- Without an item that ends everything, all before is taken too. -/
theorem batch_append (h : ∀ x ∈ a, ends x = false) : batch ends (a ++ b) = (a ++ (batch ends b).1, (batch ends b).2) := by
  induction a with
  | nil => rfl
  | cons x a ih =>
    rw [List.cons_append, batch_cons_of_not (h x List.mem_cons_self), ih fun y hy => h y (List.mem_cons_of_mem x hy)]
    rfl

theorem batch_all (h : ∀ x ∈ a, ends x = false) : (batch ends a).1 = a := by
  have hb := batch_append (b := []) h
  rw [List.append_nil] at hb
  rw [hb]
  exact List.append_nil a

/-- After an item that ends everything, nothing is taken. -/
theorem batch_append_of_ends (h : ∃ x ∈ a, ends x = true) : (batch ends (a ++ b)).1 = (batch ends a).1 := by
  induction a with
  | nil =>
    obtain ⟨x, hx, _⟩ := h
    cases hx
  | cons y a ih =>
    rw [List.cons_append]
    cases hy : ends y with
    | true => rw [batch_cons_of_ends hy, batch_cons_of_ends hy]
    | false =>
      obtain ⟨x, hx, he⟩ := h
      rcases List.mem_cons.mp hx with rfl | hx
      · exact absurd (he.symm.trans hy) (by decide)
      · rw [batch_cons_of_not hy, batch_cons_of_not hy, ih ⟨x, hx, he⟩]

theorem batch_prefix_append : (batch ends a).1 <+: (batch ends (a ++ b)).1 := by
  by_cases h : ∃ x ∈ a, ends x = true
  · rw [batch_append_of_ends h]
  · have hn : ∀ x ∈ a, ends x = false := fun x hx => Bool.eq_false_iff.mpr fun he => h ⟨x, hx, he⟩
    rw [batch_append hn, batch_all hn]
    exact List.prefix_append _ _

theorem batch_ne_nil (h : l ≠ []) : (batch ends l).1 ≠ [] := by
  cases l with
  | nil => exact absurd rfl h
  | cons x l =>
    cases hx : ends x with
    | true => rw [batch_cons_of_ends hx]; exact List.cons_ne_nil _ _
    | false => rw [batch_cons_of_not hx]; exact List.cons_ne_nil _ _

theorem batch_batch : (batch ends (batch ends l).1).1 = (batch ends l).1 := by
  induction l with
  | nil => rfl
  | cons x l ih =>
    cases hx : ends x with
    | true => rw [batch_cons_of_ends hx, batch_cons_of_ends hx]
    | false => rw [batch_cons_of_not hx, batch_cons_of_not hx, ih]

/-- A batch whose last item ends nothing holds no item that does. -/
theorem batch_of_getLast (h : (batch ends l).1.getLast?.any ends = false) : ∀ x ∈ (batch ends l).1, ends x = false := by
  induction l with
  | nil => exact fun x hx => (List.not_mem_nil hx).elim
  | cons y l ih =>
    cases hy : ends y with
    | true =>
      rw [batch_cons_of_ends hy, List.getLast?_singleton, Option.any_some] at h
      exact absurd (hy.symm.trans h) (by decide)
    | false =>
      rw [batch_cons_of_not hy] at h ⊢
      intro x hx
      rcases List.mem_cons.mp hx with rfl | hx
      · exact hy
      · refine ih ?_ x hx
        cases hb : (batch ends l).1 with
        | nil => rfl
        | cons z t =>
          rw [hb, List.getLast?_cons_cons] at h
          exact h

theorem batch_map {β : Type} {f : β → α} {l : List β} :
    (batch ends (l.map f)).1 = (batch (fun x => ends (f x)) l).1.map f := by
  induction l with
  | nil => rfl
  | cons x l ih =>
    rw [List.map_cons]
    cases hx : ends (f x) with
    | true => rw [batch_cons_of_ends hx, @batch_cons_of_ends _ (fun x => ends (f x)) _ _ hx, List.map_singleton]
    | false => rw [batch_cons_of_not hx, @batch_cons_of_not _ (fun x => ends (f x)) _ _ hx, ih, List.map_cons]

/-- Only the last of a batch can end everything. -/
theorem batch_dropLast : ∀ x ∈ (batch ends l).1.dropLast, ends x = false := by
  induction l with
  | nil => exact fun x hx => (List.not_mem_nil hx).elim
  | cons y l ih =>
    intro x hx
    cases hy : ends y with
    | true =>
      rw [batch_cons_of_ends hy, List.dropLast_singleton] at hx
      cases hx
    | false =>
      rw [batch_cons_of_not hy] at hx
      cases hb : (batch ends l).1 with
      | nil =>
        rw [hb] at hx
        cases hx
      | cons z t =>
        rw [hb, List.dropLast_cons_cons] at hx
        rcases List.mem_cons.mp hx with rfl | hx
        · exact hy
        · exact ih x (by rw [hb]; exact hx)

theorem getLast_ends (h : l.getLast?.any ends = true) : ∃ x ∈ l, ends x = true := by
  cases hl : l.getLast? with
  | none =>
    rw [hl] at h
    cases h
  | some x =>
    rw [hl] at h
    exact ⟨x, List.mem_of_getLast? hl, h⟩

end Batch

/-- The queue with the batch being written, the wake-ups that are due, and what was
ever pushed and written. -/
structure Outbox (α : Type) where
  queue : List α
  current : List α
  busy : Bool
  wakes : Nat
  pushed : List α
  written : List α
  broken : Bool

namespace Outbox
variable (ends : α → Bool) (o : Outbox α)

def empty : Outbox α := ⟨[], [], false, 0, [], [], false⟩

def push (x : α) : Outbox α where
  __ := o
  queue := o.queue ++ [x]
  pushed := o.pushed ++ [x]
  wakes := if o.busy then o.wakes else o.wakes + 1

/-- A wake-up takes the next batch unless one is being written. -/
def wake : Outbox α :=
  if o.busy ∨ o.queue = [] then { o with wakes := o.wakes - 1 }
  else { o with
    wakes := o.wakes - 1
    busy := true
    current := (batch ends o.queue).1
    queue := (batch ends o.queue).2 }

/-- The batch is written. The writer goes on unless the batch ended everything. -/
def finish : Outbox α :=
  if o.current.getLast?.any ends then { o with written := o.written ++ o.current, current := [] }
  else { o with
    written := o.written ++ o.current
    current := []
    busy := false
    wakes := if o.queue = [] then o.wakes else o.wakes + 1 }

/-- The batch could not be written. The writer never goes on. -/
def fail : Outbox α := { o with current := [], broken := true }

/-- Nothing is lost, doubled or overtaken, one batch at most is being written, nothing
follows what ends everything, and a queue that waits has a wake-up due. -/
inductive Sound (ends : α → Bool) (o : Outbox α) : Prop where
  | idle (hbusy : o.busy = false) (hcurrent : o.current = []) (hbroken : o.broken = false)
      (hwritten : ∀ x ∈ o.written, ends x = false) (hsplit : o.pushed = o.written ++ o.queue)
      (hwake : o.queue ≠ [] → 0 < o.wakes)
  | writing (hbusy : o.busy = true) (hcurrent : o.current ≠ []) (hbroken : o.broken = false)
      (hwritten : ∀ x ∈ o.written, ends x = false) (hsplit : o.pushed = o.written ++ o.current ++ o.queue)
      (hbatch : (batch ends o.current).1 = o.current)
  | ended (hbusy : o.busy = true) (hcurrent : o.current = []) (hbroken : o.broken = false)
      (hends : ∃ x ∈ o.written, ends x = true) (hall : o.written = (batch ends o.pushed).1)
  | failed (hbusy : o.busy = true) (hcurrent : o.current = []) (hbroken : o.broken = true)
      (hfront : o.written <+: (batch ends o.pushed).1)

variable {ends o}

theorem sound_empty : (empty : Outbox α).Sound ends :=
  .idle rfl rfl rfl (fun _ hx => (List.not_mem_nil hx).elim) rfl (absurd rfl)

theorem Sound.push (h : o.Sound ends) (x : α) : (o.push x).Sound ends := by
  cases h with
  | idle hbusy hcurrent hbroken hwritten hsplit hwake =>
    refine .idle hbusy hcurrent hbroken hwritten ?_ fun _ => ?_
    · rw [Outbox.push, hsplit, List.append_assoc]
    · simp only [Outbox.push, hbusy, Bool.false_eq_true, if_false]
      exact Nat.succ_pos _
  | writing hbusy hcurrent hbroken hwritten hsplit hbatch =>
    refine .writing hbusy hcurrent hbroken hwritten ?_ hbatch
    rw [Outbox.push, hsplit, List.append_assoc _ o.queue]
  | ended hbusy hcurrent hbroken hends hall =>
    refine .ended hbusy hcurrent hbroken hends ?_
    have hmem : ∃ y ∈ o.pushed, ends y = true := by
      obtain ⟨y, hy, he⟩ := hends
      rw [hall] at hy
      refine ⟨y, ?_, he⟩
      rw [← batch_append_batch (l := o.pushed)]
      exact List.mem_append_left _ hy
    exact hall.trans (batch_append_of_ends hmem).symm
  | failed hbusy hcurrent hbroken hfront =>
    exact .failed hbusy hcurrent hbroken (hfront.trans batch_prefix_append)

theorem Sound.wake (h : o.Sound ends) : (o.wake ends).Sound ends := by
  unfold Outbox.wake
  by_cases hidle : o.busy = true ∨ o.queue = []
  · rw [if_pos hidle]
    cases h with
    | idle hbusy hcurrent hbroken hwritten hsplit hwake =>
      have hq : o.queue = [] := hidle.resolve_left (by rw [hbusy]; decide)
      exact .idle hbusy hcurrent hbroken hwritten hsplit fun hne => absurd hq hne
    | writing hbusy hcurrent hbroken hwritten hsplit hbatch => exact .writing hbusy hcurrent hbroken hwritten hsplit hbatch
    | ended hbusy hcurrent hbroken hends hall => exact .ended hbusy hcurrent hbroken hends hall
    | failed hbusy hcurrent hbroken hfront => exact .failed hbusy hcurrent hbroken hfront
  · rw [if_neg hidle]
    rw [not_or] at hidle
    obtain ⟨hbusy', hq⟩ := hidle
    cases h with
    | idle hbusy hcurrent hbroken hwritten hsplit hwake =>
      refine .writing rfl (batch_ne_nil hq) hbroken hwritten ?_ batch_batch
      dsimp only
      rw [hsplit, List.append_assoc, batch_append_batch]
    | writing hbusy | ended hbusy | failed hbusy => exact absurd hbusy hbusy'

theorem Sound.finish (h : o.Sound ends) (hne : o.current ≠ []) : (o.finish ends).Sound ends := by
  cases h with
  | writing hbusy hcurrent hbroken hwritten hsplit hbatch =>
    unfold Outbox.finish
    by_cases hl : o.current.getLast?.any ends = true
    · rw [if_pos hl]
      obtain ⟨x, hx, he⟩ := getLast_ends hl
      refine .ended hbusy rfl hbroken ⟨x, List.mem_append_right _ hx, he⟩ ?_
      dsimp only
      rw [hsplit, List.append_assoc, batch_append hwritten, batch_append_of_ends ⟨x, hx, he⟩, hbatch]
    · rw [if_neg hl]
      have hcur : ∀ x ∈ o.current, ends x = false := by
        rw [← hbatch]
        exact batch_of_getLast (by rw [hbatch]; exact Bool.eq_false_iff.mpr hl)
      refine .idle rfl rfl hbroken (fun x hx => ?_) hsplit fun hq => ?_
      · rcases List.mem_append.mp hx with hx | hx
        · exact hwritten x hx
        · exact hcur x hx
      · dsimp only at hq ⊢
        rw [if_neg hq]
        exact Nat.succ_pos _
  | idle _ hcurrent | ended _ hcurrent | failed _ hcurrent => exact absurd hcurrent hne

theorem Sound.busy (h : o.Sound ends) (hne : o.current ≠ []) : o.busy = true := by
  cases h with
  | writing hbusy => exact hbusy
  | idle _ hcurrent | ended _ hcurrent | failed _ hcurrent => exact absurd hcurrent hne

/-- Whether written or being written, it is the start of what was pushed, up to what
ends everything. -/
theorem Sound.front (h : o.Sound ends) : o.written ++ o.current <+: (batch ends o.pushed).1 := by
  cases h with
  | idle hbusy hcurrent hbroken hwritten hsplit hwake =>
    rw [hcurrent, List.append_nil, hsplit, batch_append hwritten]
    exact List.prefix_append _ _
  | writing hbusy hcurrent hbroken hwritten hsplit hbatch =>
    rw [hsplit, List.append_assoc, batch_append hwritten]
    have hp : (batch ends o.current).1 <+: (batch ends (o.current ++ o.queue)).1 := batch_prefix_append
    rw [hbatch] at hp
    exact (List.prefix_append_right_inj _).mpr hp
  | ended hbusy hcurrent hbroken hends hall =>
    rw [hcurrent, List.append_nil, hall]
  | failed hbusy hcurrent hbroken hfront =>
    rw [hcurrent, List.append_nil]
    exact hfront

theorem Sound.fail (h : o.Sound ends) (hne : o.current ≠ []) : o.fail.Sound ends := by
  have hf : o.written <+: (batch ends o.pushed).1 := (List.prefix_append _ _).trans h.front
  cases h with
  | writing hbusy => exact .failed hbusy rfl rfl hf
  | idle _ hcurrent | ended _ hcurrent | failed _ hcurrent => exact absurd hcurrent hne

/-- The batch being written is finished, and after a wake-up the next one. -/
def settle (ends : α → Bool) (o : Outbox α) : Outbox α :=
  let o := if o.current = [] then o else o.finish ends
  let o := o.wake ends
  if o.current = [] then o else o.finish ends

theorem finish_written : (o.finish ends).written = o.written ++ o.current ∧ (o.finish ends).pushed = o.pushed ∧
    (o.finish ends).current = [] ∧ (o.finish ends).broken = o.broken := by
  unfold finish
  split_ifs <;> exact ⟨rfl, rfl, rfl, rfl⟩

theorem settle_broken : (o.settle ends).broken = o.broken := by
  have hf : ∀ o : Outbox α, (if o.current = [] then o else o.finish ends).broken = o.broken := by
    intro o
    split_ifs
    · rfl
    · exact finish_written.2.2.2
  have hw : ∀ o : Outbox α, (o.wake ends).broken = o.broken := by
    intro o
    rw [wake]
    split_ifs <;> rfl
  rw [settle, hf, hw, hf]

private theorem wake_settles (h : o.Sound ends) (hb : o.broken = false) (hc : o.current = []) :
    (if (o.wake ends).current = [] then o.wake ends else (o.wake ends).finish ends).written = (batch ends o.pushed).1 := by
  have hkeep : o.busy = true ∨ o.queue = [] → (o.wake ends).current = [] ∧ (o.wake ends).written = o.written := by
    intro hk
    rw [Outbox.wake, if_pos hk]
    exact ⟨hc, rfl⟩
  cases h with
  | idle hbusy hcurrent hbroken hwritten hsplit hwake =>
    rw [hsplit, batch_append hwritten]
    by_cases hq : o.queue = []
    · obtain ⟨hcur, hw⟩ := hkeep (.inr hq)
      rw [if_pos hcur, hw, hq]
      exact (List.append_nil _).symm
    · have hn : ¬ (o.busy = true ∨ o.queue = []) := fun h => h.elim (by rw [hbusy]; decide) hq
      have hcur : (o.wake ends).current = (batch ends o.queue).1 := by rw [Outbox.wake, if_neg hn]
      have hw : (o.wake ends).written = o.written := by rw [Outbox.wake, if_neg hn]
      rw [if_neg (by rw [hcur]; exact batch_ne_nil hq), finish_written.1, hcur, hw]
  | ended hbusy hcurrent hbroken hends hall =>
    obtain ⟨hcur, hw⟩ := hkeep (.inl hbusy)
    rw [if_pos hcur, hw]
    exact hall
  | writing _ hcurrent => exact absurd hc hcurrent
  | failed _ _ hbroken => exact absurd (hb.symm.trans hbroken) (by decide)

/-- A writer that meets no failure writes everything there is to write. -/
theorem Sound.settles (h : o.Sound ends) (hb : o.broken = false) : (o.settle ends).written = (batch ends o.pushed).1 := by
  unfold settle
  by_cases hc : o.current = []
  · rw [if_pos hc]
    exact wake_settles h hb hc
  · obtain ⟨_, hp, hc', hb'⟩ := finish_written (o := o)
    rw [if_neg hc, ← hp]
    exact wake_settles (h.finish hc) (hb'.trans hb) hc'

end Outbox
end DeribitClientServer.Library
