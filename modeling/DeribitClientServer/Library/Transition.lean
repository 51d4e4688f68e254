import Mathlib.Logic.Relation

/-! Labelled transition systems and their runs. A guarded run takes only steps
that meet a condition on the state before the step; an unguarded run is a run
under the condition that always holds. -/
namespace DeribitClientServer.Library
variable {σ α : Type}

structure Transition (σ α : Type) where
  initial : σ → Prop
  step : σ → α → σ → Prop

namespace Transition

/-- The states reached and the labels taken, oldest first, by guarded steps. -/
inductive Run (S : Transition σ α) (guard : σ → α → Prop) : List α → σ → Prop where
  | start {s : σ} (h : S.initial s) : Run S guard [] s
  | next {as : List α} {s s' : σ} (r : Run S guard as s) (a : α) (hg : guard s a) (h : S.step s a s') :
      Run S guard (as ++ [a]) s'

def anyStep : σ → α → Prop := fun _ _ => True

variable {S : Transition σ α} {guard : σ → α → Prop}

/-- What holds initially and is kept by every guarded step holds in every run. -/
theorem Run.invariant {as : List α} {s : σ} (r : Run S guard as s) (I : σ → Prop) (h0 : ∀ s, S.initial s → I s)
    (hstep : ∀ s a s', I s → guard s a → S.step s a s' → I s') : I s := by
  induction r with
  | start h => exact h0 _ h
  | next _ a hg h ih => exact hstep _ a _ ih hg h

/-- A run under a stronger condition is a run under a weaker one. -/
theorem Run.weaken {guard' : σ → α → Prop} (h : ∀ s a, guard s a → guard' s a) {as : List α} {s : σ}
    (r : Run S guard as s) : Run S guard' as s := by
  induction r with
  | start h0 => exact .start h0
  | next _ a hg hs ih => exact .next ih a (h _ _ hg) hs

/-- The same steps, from one state on. -/
def startingAt (S : Transition σ α) (s : σ) : Transition σ α where
  initial t := t = s
  step := S.step

/-- A run goes on with a run from the state it reached. -/
theorem Run.append {as bs : List α} {s s' : σ} (r : Run S guard as s) (r' : Run (S.startingAt s) guard bs s') :
    Run S guard (as ++ bs) s' := by
  induction r' with
  | start h =>
    obtain rfl := h
    rw [List.append_nil]
    exact r
  | next _ a hg h ih =>
    rw [← List.append_assoc]
    exact ih.next a hg h

/-- A system whose guarded steps are each answered by a step of another, or by
none, runs only to states that the other matches. -/
theorem Run.simulated {τ β : Type} {T : Transition τ β} (R : σ → τ → Prop)
    (h0 : ∀ s, S.initial s → ∃ t, T.initial t ∧ R s t)
    (hstep : ∀ s t a s', R s t → guard s a → S.step s a s' → R s' t ∨ ∃ b t', T.step t b t' ∧ R s' t')
    {as : List α} {s : σ} (r : Run S guard as s) : ∃ bs t, Run T anyStep bs t ∧ R s t := by
  induction r with
  | start h =>
    obtain ⟨t, ht, hr⟩ := h0 _ h
    exact ⟨[], t, .start ht, hr⟩
  | next _ a hg h ih =>
    obtain ⟨bs, t, rt, hr⟩ := ih
    rcases hstep _ t a _ hr hg h with hr' | ⟨b, t', ht, hr'⟩
    · exact ⟨bs, t, rt, hr'⟩
    · exact ⟨_, t', rt.next b trivial ht, hr'⟩

end Transition
end DeribitClientServer.Library
