import DeribitClientServer.Client.Script
import DeribitClientServer.Server.FrameOrigins
import DeribitClientServer.Server.WireFormat

/-! The types that a client reads in the frames of the server, and those that no
frame of a kind can have. -/
namespace DeribitClientServer.System
open Library Library.JsonText Library.Utf8 Server Client

section Types
variable {env : Externals} {p : Bytes} {t u : String}

theorem strictEq_typeOf (p : Bytes) (t : String) : strictEq (typeOf p) t = true ↔ HasType p t := by
  unfold strictEq typeOf HasType
  cases readText p with
  | none => simp
  | some j => simp [Option.any_eq_true_iff_get, Json.isStr_iff, Option.eq_some_iff_get_eq]

/-- A frame has one type. -/
theorem strictEq_of_hasType (h : HasType p t) (hu : t ≠ u) : strictEq (typeOf p) u = false := by
  rw [Bool.eq_false_iff, ne_eq, strictEq_typeOf]
  intro h'
  exact hu (h.inj h')

theorem typeOf_of_hasType (h : HasType p t) : typeOf p ≠ none := by
  obtain ⟨j, hj, ht⟩ := h
  simp [typeOf, hj, ht]

theorem strictEq_error (t : String) : strictEq (typeOf (encode "Internal server error")) t = false := by
  rw [Bool.eq_false_iff, ne_eq, strictEq_typeOf]
  intro h
  exact not_wireFrame_error ⟨t, h⟩

/-- A frame that answers an order without glued text, or with a text that does
not splice to another type, is of no other type. -/
theorem strictEq_place {payload : Bytes} {w : World} (h : Operation.place.result env payload w = .ok p)
    (hs : ∀ text, gluedText env payload w = some text → ¬ Splices text t) (ht : t ≠ "order_response") :
    strictEq (typeOf p) t = false := by
  rcases place_result env payload w with ⟨text, hg, hp⟩ | ⟨j, _, hp, hj⟩
  · rw [h, Except.ok.injEq] at hp
    subst hp
    rw [Bool.eq_false_iff, ne_eq, strictEq_typeOf, hasType_orderError]
    exact hs text hg
  · rw [h, Except.ok.injEq] at hp
    subst hp
    exact strictEq_of_hasType (hasType_dump hj) (Ne.symm ht)

theorem strictEq_edit {op : Operation} {payload : Bytes} {w : World} (hop : op ≠ .place)
    (h : op.result env payload w = .ok p) (ht : op.replyType ≠ t) : strictEq (typeOf p) t = false := by
  rcases edit_result env payload w hop with ⟨q, hq, hd, _⟩ | ⟨e, e', he, _⟩
  · rw [h, Except.ok.injEq] at hq
    subst hq
    exact strictEq_of_hasType hd.hasType ht
  · rw [h] at he
    cases he

/-- A text that the server and a client both read has one type for both. -/
def ReadersAgree (env : Externals) : Prop :=
  ∀ b j v t, parseJson env b = .ok j → readText b = some v → v.get? "type" = some (.str t) → j.get? "type" = some (.str t)

theorem readersAgree_grammar : ReadersAgree grammarExternals := by
  intro b j v t hj hv ht
  simp only [parseJson, grammarExternals, hv] at hj
  cases hj
  exact Json.get?_canon_str_iff.mpr ht

private theorem type_of_echo (h : kindOf env p = .echo) :
    ∃ j, parseJson env p = .ok j ∧ j.get? "type" = some (.str "echo") := by
  unfold kindOf at h
  cases hp : parseJson env p with
  | error e =>
    rw [hp] at h
    cases h
  | ok j =>
    rw [hp] at h
    cases ht : stringMember env j "type" with
    | error e =>
      simp only [ht] at h
      cases h
    | ok type =>
      simp only [ht] at h
      split_ifs at h with he
      exact ⟨j, rfl, he ▸ stringMember_ok_iff.mp ht⟩

/-- An echoed message can only be read as an echo. -/
theorem strictEq_echo (ha : ReadersAgree env) (h : kindOf env p = .echo) (ht : t ≠ "echo") :
    strictEq (typeOf p) t = false := by
  obtain ⟨j, hj, hecho⟩ := type_of_echo h
  rw [Bool.eq_false_iff, ne_eq, strictEq_typeOf]
  rintro ⟨v, hv, hvt⟩
  have hjt := ha p j v t hj hv hvt
  rw [hecho, Option.some_inj, Json.str.injEq] at hjt
  exact ht hjt.symm

end Types
end DeribitClientServer.System
