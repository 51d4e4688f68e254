import Mathlib.Data.List.Basic

/-! Programs with state, exceptions and a trace of outside effects. A raised
exception keeps the state and the effects that came before it. -/
namespace DeribitClientServer.Library
variable {σ ω ε α β : Type}

/-- One execution: how it ended, the state it left and the effects it had. -/
structure Ran (σ ω ε α : Type) where
  result : Except ε α
  state : σ
  trace : List ω

def Exec (σ ω ε α : Type) : Type := σ → Ran σ ω ε α

namespace Ran

def after (t : List ω) (r : Ran σ ω ε α) : Ran σ ω ε α := ⟨r.result, r.state, t ++ r.trace⟩

def andThen (r : Ran σ ω ε α) (f : α → Exec σ ω ε β) : Ran σ ω ε β :=
  match r with
  | ⟨.ok a, s, t⟩ => (f a s).after t
  | ⟨.error e, s, t⟩ => ⟨.error e, s, t⟩

def orElse (r : Ran σ ω ε α) (h : ε → Exec σ ω ε α) : Ran σ ω ε α :=
  match r with
  | ⟨.ok a, s, t⟩ => ⟨.ok a, s, t⟩
  | ⟨.error e, s, t⟩ => (h e s).after t

@[simp] theorem after_result (t : List ω) (r : Ran σ ω ε α) : (r.after t).result = r.result := rfl
@[simp] theorem after_state (t : List ω) (r : Ran σ ω ε α) : (r.after t).state = r.state := rfl
@[simp] theorem after_trace (t : List ω) (r : Ran σ ω ε α) : (r.after t).trace = t ++ r.trace := rfl
@[simp] theorem after_mk (t u : List ω) (x : Except ε α) (s : σ) :
    (Ran.mk x s u).after t = ⟨x, s, t ++ u⟩ := rfl
@[simp] theorem after_nil (r : Ran σ ω ε α) : r.after [] = r := rfl
@[simp] theorem andThen_ok (a : α) (s : σ) (t : List ω) (f : α → Exec σ ω ε β) :
    (Ran.mk (.ok a) s t).andThen f = (f a s).after t := rfl
@[simp] theorem andThen_error (e : ε) (s : σ) (t : List ω) (f : α → Exec σ ω ε β) :
    (Ran.mk (.error e) s t).andThen f = ⟨.error e, s, t⟩ := rfl
@[simp] theorem orElse_ok (a : α) (s : σ) (t : List ω) (h : ε → Exec σ ω ε α) :
    (Ran.mk (.ok a) s t).orElse h = ⟨.ok a, s, t⟩ := rfl
@[simp] theorem orElse_error (e : ε) (s : σ) (t : List ω) (h : ε → Exec σ ω ε α) :
    (Ran.mk (.error e) s t).orElse h = (h e s).after t := rfl

@[simp] theorem after_after (t u : List ω) (r : Ran σ ω ε α) : (r.after u).after t = r.after (t ++ u) := by
  simp [after]

@[simp] theorem andThen_after (r : Ran σ ω ε α) (t : List ω) (f : α → Exec σ ω ε β) :
    (r.after t).andThen f = (r.andThen f).after t := by
  rcases r with ⟨x, s, u⟩
  cases x with
  | ok a => simp [after, andThen]
  | error e => rfl

@[simp] theorem orElse_after (r : Ran σ ω ε α) (t : List ω) (h : ε → Exec σ ω ε α) :
    (r.after t).orElse h = (r.orElse h).after t := by
  rcases r with ⟨x, s, u⟩
  cases x with
  | ok a => rfl
  | error e => simp [after, orElse]

/-- What a continuation does not do, the program does only before it. -/
theorem filterMap_andThen {γ : Type} {g : ω → Option γ} (r : Ran σ ω ε α) {f : α → Exec σ ω ε β}
    (hf : ∀ a s, (f a s).trace.filterMap g = []) : (r.andThen f).trace.filterMap g = r.trace.filterMap g := by
  rcases r with ⟨x, s, t⟩
  cases x with
  | ok a => simp [hf]
  | error e => rfl

theorem filterMap_orElse {γ : Type} {g : ω → Option γ} (r : Ran σ ω ε α) {h : ε → Exec σ ω ε α}
    (hh : ∀ e s, (h e s).trace.filterMap g = []) : (r.orElse h).trace.filterMap g = r.trace.filterMap g := by
  rcases r with ⟨x, s, t⟩
  cases x with
  | ok a => rfl
  | error e => simp [hh]

end Ran

namespace Exec

instance : Monad (Exec σ ω ε) where
  pure a := fun s => ⟨.ok a, s, []⟩
  bind m f := fun s => (m s).andThen f

instance : MonadExcept ε (Exec σ ω ε) where
  throw e := fun s => ⟨.error e, s, []⟩
  tryCatch m h := fun s => (m s).orElse h

def emit (e : ω) : Exec σ ω ε Unit := fun s => ⟨.ok (), s, [e]⟩

def get : Exec σ ω ε σ := fun s => ⟨.ok s, s, []⟩

def modify (f : σ → σ) : Exec σ ω ε Unit := fun s => ⟨.ok (), f s, []⟩

def ofExcept (x : Except ε α) : Exec σ ω ε α := fun s => ⟨x, s, []⟩

@[simp] theorem run_pure (a : α) (s : σ) : (pure a : Exec σ ω ε α) s = ⟨.ok a, s, []⟩ := rfl
@[simp] theorem run_bind (m : Exec σ ω ε α) (f : α → Exec σ ω ε β) (s : σ) :
    (m >>= f) s = (m s).andThen f := rfl
@[simp] theorem run_throw (e : ε) (s : σ) : (throw e : Exec σ ω ε α) s = ⟨.error e, s, []⟩ := rfl
@[simp] theorem run_tryCatch (m : Exec σ ω ε α) (h : ε → Exec σ ω ε α) (s : σ) :
    (tryCatch m h : Exec σ ω ε α) s = (m s).orElse h := rfl
@[simp] theorem run_emit (e : ω) (s : σ) : (emit e : Exec σ ω ε Unit) s = ⟨.ok (), s, [e]⟩ := rfl
@[simp] theorem run_get (s : σ) : (get : Exec σ ω ε σ) s = ⟨.ok s, s, []⟩ := rfl
@[simp] theorem run_modify (f : σ → σ) (s : σ) : (modify f : Exec σ ω ε Unit) s = ⟨.ok (), f s, []⟩ := rfl
@[simp] theorem run_ofExcept (x : Except ε α) (s : σ) : (ofExcept x : Exec σ ω ε α) s = ⟨x, s, []⟩ := rfl

@[simp] theorem ofExcept_ok (a : α) : (ofExcept (.ok a) : Exec σ ω ε α) = pure a := rfl

@[simp] theorem bind_pure_unit (m : Exec σ ω ε PUnit) : (m >>= fun _ => pure ()) = m := by
  funext s
  rw [run_bind]
  rcases m s with ⟨x, s', t⟩
  cases x <;> simp

/-- A catch that only returns leaves the state where the exception left it. -/
theorem orElse_pure_state (r : Ran σ ω ε α) (a : α) : (r.orElse (fun _ => pure a)).state = r.state := by
  rcases r with ⟨x, s, t⟩
  cases x <;> rfl

/-- From a state with I the program ends in one, has only effects in P, and
returns only values in Q. -/
def Keeps (I : σ → Prop) (P : ω → Prop) (Q : α → Prop) (m : Exec σ ω ε α) : Prop :=
  ∀ s, I s → I (m s).state ∧ (∀ e ∈ (m s).trace, P e) ∧ ∀ a, (m s).result = .ok a → Q a

/-- No execution ends with an exception. -/
def Total (m : Exec σ ω ε α) : Prop := ∀ s, ∃ a, (m s).result = .ok a

section Rules
variable {I : σ → Prop} {P : ω → Prop} {Q : α → Prop} {R : β → Prop}

theorem Keeps.pure {a : α} (h : Q a) : Keeps I P Q (pure a : Exec σ ω ε α) := by
  intro s hs
  exact ⟨hs, by simp, fun b hb => by cases hb; exact h⟩

theorem Keeps.ofExcept {x : Except ε α} (h : ∀ a, x = .ok a → Q a) : Keeps I P Q (ofExcept x : Exec σ ω ε α) :=
  fun _ hs => ⟨hs, by simp, h⟩

theorem Keeps.get : Keeps I P I (get : Exec σ ω ε σ) := by
  intro s hs
  exact ⟨hs, by simp, fun b hb => by cases hb; exact hs⟩

theorem Keeps.modify {f : σ → σ} (h : ∀ s, I s → I (f s)) : Keeps I P (fun _ => True) (modify f : Exec σ ω ε Unit) :=
  fun s hs => ⟨h s hs, by simp, fun _ _ => trivial⟩

theorem Keeps.bind {m : Exec σ ω ε α} {f : α → Exec σ ω ε β} (hm : Keeps I P Q m) (hf : ∀ a, Q a → Keeps I P R (f a)) :
    Keeps I P R (m >>= f) := by
  intro s hs
  obtain ⟨hi, hp, hq⟩ := hm s hs
  rw [run_bind]
  rcases hr : m s with ⟨x, s', t⟩
  rw [hr] at hi hp hq
  cases x with
  | error e => exact ⟨hi, hp, fun b hb => nomatch hb⟩
  | ok a =>
    obtain ⟨hi', hp', hq'⟩ := hf a (hq a rfl) s' hi
    refine ⟨hi', fun e he => ?_, hq'⟩
    rcases List.mem_append.mp he with ht | ht
    · exact hp e ht
    · exact hp' e ht

theorem Keeps.tryCatch {m : Exec σ ω ε α} {h : ε → Exec σ ω ε α} (hm : Keeps I P Q m) (hh : ∀ e, Keeps I P Q (h e)) :
    Keeps I P Q (tryCatch m h : Exec σ ω ε α) := by
  intro s hs
  obtain ⟨hi, hp, hq⟩ := hm s hs
  rw [run_tryCatch]
  rcases hr : m s with ⟨x, s', t⟩
  rw [hr] at hi hp hq
  cases x with
  | ok a => exact ⟨hi, hp, hq⟩
  | error e =>
    obtain ⟨hi', hp', hq'⟩ := hh e s' hi
    refine ⟨hi', fun o ho => ?_, hq'⟩
    rcases List.mem_append.mp ho with ht | ht
    · exact hp o ht
    · exact hp' o ht

theorem Keeps.forM {γ : Type} {xs : List γ} {f : γ → Exec σ ω ε PUnit}
    (hf : ∀ x ∈ xs, Keeps I P (fun _ => True) (f x)) : Keeps I P (fun _ => True) (xs.forM f) := by
  induction xs with
  | nil => exact Keeps.pure trivial
  | cons x xs ih =>
    exact Keeps.bind (hf x (by simp)) (fun _ _ => ih (fun y hy => hf y (by simp [hy])))

/-- A handler that cannot fail makes the guarded program safe. -/
theorem Total.tryCatch {m : Exec σ ω ε α} {h : ε → Exec σ ω ε α} (hh : ∀ e, Total (h e)) :
    Total (tryCatch m h : Exec σ ω ε α) := by
  intro s
  rw [run_tryCatch]
  rcases m s with ⟨x, s', t⟩
  cases x with
  | ok a => exact ⟨a, rfl⟩
  | error e => exact hh e s'

theorem Total.pure (a : α) : Total (pure a : Exec σ ω ε α) := fun _ => ⟨a, rfl⟩

end Rules
end Exec
end DeribitClientServer.Library
