import Mathlib.Data.List.Basic

/-! Readers whose input arrives in pieces. A reader that treats its first element
as it would alone, and the rest from where that left it, makes the same of any
pieces as of the whole input. -/
namespace DeribitClientServer.Library.Chunked
variable {σ β ο ε : Type}

/-- What was put out, and the state after it or the error that stopped it. -/
abbrev Reading (σ ο ε : Type) := List ο × Except ε σ

abbrev Reader (σ β ο ε : Type) := σ → List β → Reading σ ο ε

def andThen (r : Reading σ ο ε) (next : σ → Reading σ ο ε) : Reading σ ο ε :=
  match r.2 with
  | .error e => (r.1, .error e)
  | .ok s => (r.1 ++ (next s).1, (next s).2)

section Then
variable {out : List ο} {e : ε} {s : σ} {next next' : σ → Reading σ ο ε} {r : Reading σ ο ε}

@[simp] theorem andThen_error : andThen (out, .error e) next = (out, .error e) := rfl

@[simp] theorem andThen_ok : andThen (out, .ok s) next = (out ++ (next s).1, (next s).2) := rfl

theorem andThen_assoc : andThen (andThen r next) next' = andThen r (fun s => andThen (next s) next') := by
  obtain ⟨out, _ | s⟩ := r
  · rfl
  · rw [andThen_ok, andThen_ok]
    generalize next s = r'
    obtain ⟨out', _ | s'⟩ := r'
    · rfl
    · rw [andThen_ok, andThen_ok, List.append_assoc]

theorem andThen_congr (h : ∀ s, r.2 = .ok s → next s = next' s) : andThen r next = andThen r next' := by
  obtain ⟨out, _ | s⟩ := r
  · rfl
  · rw [andThen_ok, andThen_ok, h s rfl]

end Then

/-- One piece after the other, until an error. -/
def pieces (reader : Reader σ β ο ε) : σ → List (List β) → Reading σ ο ε
  | s, [] => ([], .ok s)
  | s, b :: bs => andThen (reader s b) fun s' => pieces reader s' bs

/-- The first element is treated as it would be alone, and states from an invariant
lead to states in it. -/
structure Elementwise (reader : Reader σ β ο ε) (I : σ → Prop) : Prop where
  nil : ∀ s, I s → reader s [] = ([], .ok s)
  cons : ∀ s x b, I s → reader s (x :: b) = andThen (reader s [x]) fun s' => reader s' b
  keeps : ∀ s x s', I s → (reader s [x]).2 = .ok s' → I s'

namespace Elementwise
variable {reader : Reader σ β ο ε} {I : σ → Prop} {s s' : σ} {a b : List β}

theorem invariant (h : Elementwise reader I) (hs : I s) (hr : (reader s b).2 = .ok s') : I s' := by
  induction b generalizing s with
  | nil =>
    rw [h.nil s hs] at hr
    cases hr
    exact hs
  | cons x b ih =>
    rw [h.cons s x b hs] at hr
    generalize hx : reader s [x] = r at hr
    obtain ⟨out, _ | s₁⟩ := r
    · cases hr
    · exact ih (h.keeps s x s₁ hs (by rw [hx])) hr

theorem append (h : Elementwise reader I) (hs : I s) :
    reader s (a ++ b) = andThen (reader s a) fun s' => reader s' b := by
  induction a generalizing s with
  | nil => rw [List.nil_append, h.nil s hs, andThen_ok, List.nil_append]
  | cons x a ih =>
    rw [List.cons_append, h.cons s x (a ++ b) hs, h.cons s x a hs, andThen_assoc]
    exact andThen_congr fun s₁ hs₁ => ih (h.keeps s x s₁ hs hs₁)

/-- However the input is cut up, its pieces give what the whole gives. -/
theorem pieces_eq (h : Elementwise reader I) (hs : I s) (bs : List (List β)) :
    pieces reader s bs = reader s bs.flatten := by
  induction bs generalizing s with
  | nil => rw [pieces, List.flatten_nil, h.nil s hs]
  | cons b bs ih =>
    rw [pieces, List.flatten_cons, h.append hs]
    exact andThen_congr fun s₁ hs₁ => ih (h.invariant hs hs₁)

end Elementwise
end DeribitClientServer.Library.Chunked
