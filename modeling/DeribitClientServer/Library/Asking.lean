import DeribitClientServer.Library.Transition
import Mathlib.Data.List.Basic

/-! Questions asked in one order and answered in the same. Whoever asks holds an
answer to the last question whenever none is outstanding. -/
namespace DeribitClientServer.Library
variable {α β : Type}

structure Asking (α β : Type) where
  wanted : Option α
  pending : List α
  held : Option β

inductive AskAct (α β : Type) where
  | ask (question : α)
  | answer (answer : β)

namespace Asking

def asked (s : Asking α β) (a : α) : Asking α β := { s with wanted := some a, pending := s.pending ++ [a] }

def answered (s : Asking α β) (rest : List α) (b : β) : Asking α β := { s with pending := rest, held := some b }

/-- The oldest question is answered first. -/
def system (answers : α → β → Prop) : Transition (Asking α β) (AskAct α β) where
  initial s := s = ⟨none, [], none⟩
  step s act s' :=
    match act with
    | .ask a => s' = s.asked a
    | .answer b => ∃ a rest, s.pending = a :: rest ∧ answers a b ∧ s' = s.answered rest b

def Settled (answers : α → β → Prop) (s : Asking α β) : Prop :=
  s.pending = [] → ∀ a, s.wanted = some a → ∃ b, s.held = some b ∧ answers a b

structure Inv (answers : α → β → Prop) (s : Asking α β) : Prop where
  last : ∀ a, s.pending.getLast? = some a → s.wanted = some a
  settled : s.Settled answers

variable {answers : α → β → Prop} {s s' : Asking α β}

theorem inv_step {act : AskAct α β} (hs : Inv answers s) (h : (system answers).step s act s') : Inv answers s' := by
  cases act with
  | ask a =>
    obtain rfl := h
    refine ⟨fun b hb => ?_, fun hp => ?_⟩
    · simpa [asked] using hb
    · simp [asked] at hp
  | answer b =>
    obtain ⟨a, rest, hp, hab, rfl⟩ := h
    refine ⟨fun c hc => hs.last c ?_, fun hrest c hw => ⟨b, rfl, ?_⟩⟩
    · rw [hp]
      exact List.getLast?_cons_of_ne_nil (fun hn => by simp [answered, hn] at hc) |>.trans hc
    · have hlast : s.wanted = some a := hs.last a (by rw [hp, show rest = [] from hrest]; rfl)
      rw [show s.wanted = some c from hw, Option.some_inj] at hlast
      exact hlast ▸ hab

theorem settled {acts : List (AskAct α β)} (r : (system answers).Run Transition.anyStep acts s) : s.Settled answers := by
  have hs : Inv answers s := by
    apply r.invariant (Inv answers)
    · rintro s rfl
      exact ⟨by simp, by simp [Settled]⟩
    · exact fun s act s' hs _ h => inv_step hs h
  exact hs.settled

end Asking
end DeribitClientServer.Library
