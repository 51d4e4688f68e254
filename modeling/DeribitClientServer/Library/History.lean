import Mathlib.Data.List.Basic

/-! Histories that grow at the end. A condition on an event and on what came
before it holds of a whole history when it held of each event as it was added. -/
namespace DeribitClientServer.Library.History
variable {ε : Type} {allowed : List ε → ε → Prop} {l : List ε} {e : ε}

/-- What came before each event allows it. -/
def Lawful (allowed : List ε → ε → Prop) (l : List ε) : Prop :=
  ∀ before e after, l = before ++ e :: after → allowed before e

theorem lawful_nil : Lawful allowed [] := by
  intro before e after h
  exact absurd h (by simp)

theorem lawful_concat : Lawful allowed (l ++ [e]) ↔ Lawful allowed l ∧ allowed l e := by
  constructor
  · intro h
    refine ⟨fun before d after hl => h before d (after ++ [e]) ?_, h l e [] rfl⟩
    rw [hl, List.append_assoc, List.cons_append]
  · rintro ⟨hl, he⟩ before d after h
    rcases List.eq_nil_or_concat' after with rfl | ⟨after, d', rfl⟩
    · obtain ⟨rfl, hd⟩ := List.append_inj' h rfl
      cases hd
      exact he
    · rw [← List.cons_append, ← List.append_assoc] at h
      obtain ⟨rfl, _⟩ := List.append_inj' h rfl
      exact hl before d after rfl

/-- An event of a lawful history was allowed where it was added. -/
theorem Lawful.of_mem (h : Lawful allowed l) (he : e ∈ l) : ∃ before after, l = before ++ e :: after ∧ allowed before e := by
  obtain ⟨before, after, rfl⟩ := List.append_of_mem he
  exact ⟨before, after, rfl, h before e after rfl⟩

end DeribitClientServer.Library.History
