import DeribitClientServer.Library.Exec

/-! Two executions side by side. Programs that agree keep a relation of states,
return matching values or both raise, and show an observer the same effects. -/
namespace DeribitClientServer.Library
variable {σ ω ε α β γ δ ο : Type}

/-- Two executions that end alike in related states, with the same effects in view. -/
inductive Ran.Agree (R : σ → σ → Prop) (view : ω → Option ο) (V : α → β → Prop) :
    Ran σ ω ε α → Ran σ ω ε β → Prop where
  | returned {a : α} {b : β} {s s' : σ} {t t' : List ω} (hv : V a b) (hs : R s s')
      (ht : t.filterMap view = t'.filterMap view) : Agree R view V ⟨.ok a, s, t⟩ ⟨.ok b, s', t'⟩
  | raised {e e' : ε} {s s' : σ} {t t' : List ω} (hs : R s s')
      (ht : t.filterMap view = t'.filterMap view) : Agree R view V ⟨.error e, s, t⟩ ⟨.error e', s', t'⟩

/-- From related states the two programs run to executions that agree. -/
def Exec.Relates (R : σ → σ → Prop) (view : ω → Option ο) (V : α → β → Prop) (m : Exec σ ω ε α)
    (m' : Exec σ ω ε β) : Prop :=
  ∀ s s', R s s' → Ran.Agree R view V (m s) (m' s')

section Executions
variable {R : σ → σ → Prop} {view : ω → Option ο} {V : α → β → Prop} {W : γ → δ → Prop}
  {r : Ran σ ω ε α} {r' : Ran σ ω ε β}

theorem Ran.Agree.state (h : r.Agree R view V r') : R r.state r'.state := by
  cases h with
  | returned _ hs _ => exact hs
  | raised hs _ => exact hs

theorem Ran.Agree.trace (h : r.Agree R view V r') : r.trace.filterMap view = r'.trace.filterMap view := by
  cases h with
  | returned _ _ ht => exact ht
  | raised _ ht => exact ht

theorem Ran.Agree.isOk (h : r.Agree R view V r') : r.result.isOk = r'.result.isOk := by
  cases h <;> rfl

theorem Ran.Agree.weaken {V' : α → β → Prop} (h : r.Agree R view V r') (hV : ∀ a b, V a b → V' a b) :
    r.Agree R view V' r' := by
  cases h with
  | returned hv hs ht => exact .returned (hV _ _ hv) hs ht
  | raised hs ht => exact .raised hs ht

theorem Ran.Agree.after {t t' : List ω} (ht : t.filterMap view = t'.filterMap view) (h : r.Agree R view V r') :
    (r.after t).Agree R view V (r'.after t') := by
  have happend {u u' : List ω} (hu : u.filterMap view = u'.filterMap view) :
      (t ++ u).filterMap view = (t' ++ u').filterMap view := by
    rw [List.filterMap_append, List.filterMap_append, ht, hu]
  cases h with
  | returned hv hs hu => exact .returned hv hs (happend hu)
  | raised hs hu => exact .raised hs (happend hu)

theorem Ran.Agree.andThen {f : α → Exec σ ω ε γ} {f' : β → Exec σ ω ε δ} (h : r.Agree R view V r')
    (hf : ∀ a b, V a b → Exec.Relates R view W (f a) (f' b)) : (r.andThen f).Agree R view W (r'.andThen f') := by
  cases h with
  | returned hv hs ht => exact (hf _ _ hv _ _ hs).after ht
  | raised hs ht => exact .raised hs ht

theorem Ran.Agree.orElse {k : ε → Exec σ ω ε α} {k' : ε → Exec σ ω ε β} (h : r.Agree R view V r')
    (hk : ∀ e e', Exec.Relates R view V (k e) (k' e')) : (r.orElse k).Agree R view V (r'.orElse k') := by
  cases h with
  | returned hv hs ht => exact .returned hv hs ht
  | raised hs ht => exact (hk _ _ _ _ hs).after ht

end Executions

namespace Exec.Relates
variable {R : σ → σ → Prop} {view : ω → Option ο} {V : α → β → Prop} {W : γ → δ → Prop}

theorem pure {a : α} {b : β} (h : V a b) : Relates R view V (pure a : Exec σ ω ε α) (pure b) :=
  fun _ _ hs => .returned h hs rfl

theorem throw (e e' : ε) : Relates R view V (throw e : Exec σ ω ε α) (throw e') :=
  fun _ _ hs => .raised hs rfl

theorem ofExcept (x : Except ε α) : Relates R view (fun a b => a = b) (ofExcept x : Exec σ ω ε α) (ofExcept x) := by
  cases x with
  | ok a => exact pure rfl
  | error e => exact throw e e

theorem get : Relates R view R (get : Exec σ ω ε σ) get :=
  fun _ _ hs => .returned hs hs rfl

theorem modify {f f' : σ → σ} (h : ∀ s s', R s s' → R (f s) (f' s')) :
    Relates R view (fun _ _ => True) (modify f : Exec σ ω ε Unit) (modify f') :=
  fun _ _ hs => .returned trivial (h _ _ hs) rfl

theorem weaken {V' : α → β → Prop} {m : Exec σ ω ε α} {m' : Exec σ ω ε β} (h : Relates R view V m m')
    (hV : ∀ a b, V a b → V' a b) : Relates R view V' m m' :=
  fun _ _ hs => (h _ _ hs).weaken hV

theorem bind {m : Exec σ ω ε α} {m' : Exec σ ω ε β} {f : α → Exec σ ω ε γ} {f' : β → Exec σ ω ε δ}
    (h : Relates R view V m m') (hf : ∀ a b, V a b → Relates R view W (f a) (f' b)) :
    Relates R view W (m >>= f) (m' >>= f') :=
  fun _ _ hs => (h _ _ hs).andThen hf

theorem tryCatch {m : Exec σ ω ε α} {m' : Exec σ ω ε β} {k : ε → Exec σ ω ε α} {k' : ε → Exec σ ω ε β}
    (h : Relates R view V m m') (hk : ∀ e e', Relates R view V (k e) (k' e')) :
    Relates R view V (tryCatch m k : Exec σ ω ε α) (tryCatch m' k' : Exec σ ω ε β) :=
  fun _ _ hs => (h _ _ hs).orElse hk

/-- Loops over one list agree when their bodies do. -/
theorem forM {ι : Type} {f f' : ι → Exec σ ω ε PUnit} (xs : List ι)
    (hf : ∀ x, Relates R view (fun _ _ => True) (f x) (f' x)) :
    Relates R view (fun _ _ => True) (xs.forM f) (xs.forM f') := by
  induction xs with
  | nil => exact pure trivial
  | cons x xs ih => exact bind (hf x) (fun _ _ _ => ih)

end Exec.Relates
end DeribitClientServer.Library
