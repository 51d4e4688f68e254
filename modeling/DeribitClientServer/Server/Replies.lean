import DeribitClientServer.Library.JsonSplice
import DeribitClientServer.Server.MessageRuns

/-! What a client reads in a reply. Dumped replies always carry their type; a
glued one does when its text leaves the reader inside the same object. -/
namespace DeribitClientServer.Server
open Library Library.JsonText Library.Utf8

/-- The frame is one JSON object with this type. -/
def HasType (p : Bytes) (t : String) : Prop := ∃ j, readText p = some j ∧ j.get? "type" = some (.str t)

def WireFrame (p : Bytes) : Prop := ∃ t, HasType p t

theorem HasType.inj {p : Bytes} {t u : String} (ht : HasType p t) (hu : HasType p u) : t = u := by
  obtain ⟨j, hj, hjt⟩ := ht
  obtain ⟨j', hj', hju⟩ := hu
  rw [hj, Option.some_inj] at hj'
  rw [← hj', hjt] at hju
  simpa using hju

theorem HasType.decode_ne {p : Bytes} {t : String} (h : HasType p t) : decode p ≠ none := by
  obtain ⟨j, hj, _⟩ := h
  intro hd
  simp [readText, hd] at hj

theorem hasType_dump {env : Externals} {j : Json} {t : String} (h : j.get? "type" = some (.str t)) :
    HasType (env.dump j) t := by
  exact ⟨_, env.dump_reads j, (get?_dumped_str_iff env).mpr h⟩

theorem not_wireFrame_error : ¬ WireFrame (encode "Internal server error") := by
  rintro ⟨t, j, hj, _⟩
  rw [readText_encode] at hj
  cases hj

section Glue

/-- Read after the fixed beginning of an order's error, the text ends inside a
string member of the same object, whose type is then t. -/
def Splices (text : Bytes) (t : String) : Prop :=
  ∃ s ms k acc, decode text = some s ∧
    (inMember [("type", .str "order_response")] "error" []).run s.toList = some (inMember ms k acc) ∧
    (closeMember ms k acc).get? "type" = some (.str t)

private theorem run_orderError : start.run ("\x7b\"type\": \"order_response\", \"error\": \"").toList =
    some (inMember [("type", .str "order_response")] "error" []) := rfl

private theorem decode_orderError (text : Bytes) :
    decode (orderError text) =
      (decode text).map (fun s => "\x7b\"type\": \"order_response\", \"error\": \"" ++ (s ++ "\"\x7d")) := by
  have hq : ∀ x ∈ encode "\"\x7d", x &&& 128 = 0 := by
    rw [show encode "\"\x7d" = [34, 125] from by decide]
    simp only [List.forall_mem_cons, List.not_mem_nil, false_implies, implies_true, and_true]
    exact ⟨rfl, rfl⟩
  rw [orderError, List.append_assoc, decode_encode_append, decode_append_ascii text _ hq, Option.map_map]
  rfl

theorem decode_orderError_ne (text : Bytes) : decode (orderError text) ≠ none ↔ decode text ≠ none := by
  rw [decode_orderError]
  simp

/-- The object that a reader makes of a reply with this text glued into it. -/
def SplicesAs (text : Bytes) (j : Json) : Prop :=
  ∃ s ms k acc, decode text = some s ∧
    (inMember [("type", .str "order_response")] "error" []).run s.toList = some (inMember ms k acc) ∧
    closeMember ms k acc = j

theorem readText_orderError (text : Bytes) (j : Json) : readText (orderError text) = some j ↔ SplicesAs text j := by
  unfold SplicesAs readText
  rw [decode_orderError]
  cases decode text with
  | none => simp
  | some s =>
    simp only [Option.map_some, Option.bind_some, Option.some_inj, String.toList_append]
    rw [← List.append_assoc]
    constructor
    · intro hj
      obtain ⟨ms, k, acc, hr, rfl⟩ := (read_splice _ j).mp hj
      rw [Reader.run_append, run_orderError, Option.bind_some] at hr
      exact ⟨s, ms, k, acc, rfl, hr, rfl⟩
    · rintro ⟨_, ms, k, acc, rfl, hr, rfl⟩
      refine (read_splice _ _).mpr ⟨ms, k, acc, ?_, rfl⟩
      rw [Reader.run_append, run_orderError, Option.bind_some, hr]

theorem hasType_orderError (text : Bytes) (t : String) : HasType (orderError text) t ↔ Splices text t := by
  unfold HasType Splices
  simp only [readText_orderError]
  constructor
  · rintro ⟨_, ⟨s, ms, k, acc, hs, hr, rfl⟩, ht⟩
    exact ⟨s, ms, k, acc, hs, hr, ht⟩
  · rintro ⟨s, ms, k, acc, hs, hr, ht⟩
    exact ⟨_, ⟨s, ms, k, acc, hs, hr, rfl⟩, ht⟩

end Glue

section Results
variable (env : Externals) (payload : Bytes) (w : World)

def processingError (e : Exn) : Bytes := encode "Error processing order: " ++ e.what

def upstreamText (res : Outcome) : Option Bytes :=
  match res with
  | none => some (encode "No response from Deribit API")
  | some r =>
      if r.status = 200 then
        match typed env "order_response" r.body with
        | .ok _ => none
        | .error e => some (processingError e)
      else some (encode "Failed to process order: " ++ r.body)

/-- The text an order's reply glues into its frame, unless it dumps the answer. -/
def gluedText : Option Bytes :=
  match parseJson env payload with
  | .error e => some (processingError e)
  | .ok order =>
      match checkOrder env order with
      | .error text => some (encode text)
      | .ok _ =>
          match tokenResult env w with
          | .error e => some (processingError e)
          | .ok _ => upstreamText env w.api.head

/-- An accepted order with a token is answered from its POST's outcome. -/
theorem gluedText_submitted {order orderData : Json} {token : String} (hp : parseJson env payload = .ok order)
    (hc : checkOrder env order = .ok orderData) (ht : tokenResult env w = .ok token) :
    gluedText env payload w = upstreamText env w.api.head := by
  simp only [gluedText, hp, hc, ht]

theorem world_submitted {order orderData : Json} (hp : parseJson env payload = .ok order)
    (hc : checkOrder env order = .ok orderData) : Operation.place.world env payload w = submitWorld env w := by
  simp only [Operation.world, Operation.intake, orderIntake, hp, hc, Intake.world]

/-- An order is always answered: with a glued error, or with the typed answer. -/
theorem place_result :
    (∃ text, gluedText env payload w = some text ∧ Operation.place.result env payload w = .ok (orderError text)) ∨
      ∃ j, gluedText env payload w = none ∧ Operation.place.result env payload w = .ok (env.dump j) ∧
        j.get? "type" = some (.str "order_response") := by
  unfold Operation.result gluedText
  simp only [Operation.intake, orderIntake, Operation.recover]
  cases parseJson env payload with
  | error e => exact .inl ⟨_, rfl, rfl⟩
  | ok order =>
    simp only
    cases checkOrder env order with
    | error text => exact .inl ⟨_, rfl, rfl⟩
    | ok orderData =>
      simp only [Intake.result, submitResult]
      cases tokenResult env w with
      | error e => exact .inl ⟨_, rfl, rfl⟩
      | ok token =>
        simp only [Except.bind, orderOutcome, upstreamText]
        cases w.api.head with
        | none => exact .inl ⟨_, rfl, rfl⟩
        | some r =>
          by_cases hs : r.status = 200
          · simp only [if_pos hs]
            cases ht : typed env "order_response" r.body with
            | error e => exact .inl ⟨_, rfl, rfl⟩
            | ok j => exact .inr ⟨j, rfl, rfl, get?_typed env ht⟩
          · simp only [if_neg hs]
            exact .inl ⟨_, rfl, rfl⟩

/-- An order whose error is glued is answered with that. -/
theorem result_glued {env : Externals} {payload : Bytes} {w : World} {text : Bytes}
    (h : gluedText env payload w = some text) : Operation.place.result env payload w = .ok (orderError text) := by
  rcases place_result env payload w with ⟨text', ht, hp⟩ | ⟨j, ht, _, _⟩
  · rw [h, Option.some_inj] at ht
    rw [hp, ← ht]
  · rw [h] at ht
    cases ht

/-- What is submitted with a token is answered from its POST's outcome. -/
theorem result_submitted {op : Operation} {path token : String} {body : Json} {outcome : Outcome → Except Exn Bytes}
    {p : Bytes} (hi : op.intake env payload = .submitted path body outcome) (ht : tokenResult env w = .ok token)
    (ho : outcome w.api.head = .ok p) : op.result env payload w = .ok p := by
  simp only [Operation.result, hi, Intake.result, submitResult, ht, Except.bind, ho]

/-- The exception an operation's handler catches, if one is raised. -/
def Operation.raised (op : Operation) : Option Exn :=
  match (op.intake env payload).result env w with
  | .ok _ => none
  | .error e => some e

def Operation.replyType : Operation → String
  | .place => "order_response"
  | .modify => "modify_response"
  | .cancel => "cancel_response"

/-- A value dumped with this type. -/
def DumpedAs (p : Bytes) (t : String) : Prop := ∃ j, p = env.dump j ∧ j.get? "type" = some (.str t)

theorem DumpedAs.hasType {p : Bytes} {t : String} (h : DumpedAs env p t) : HasType p t := by
  obtain ⟨j, rfl, ht⟩ := h
  exact hasType_dump ht

theorem DumpedAs.decode_ne {p : Bytes} {t : String} (h : DumpedAs env p t) : decode p ≠ none := by
  obtain ⟨j, rfl, _⟩ := h
  exact decode_dump_ne env j

private theorem dumpError_ok {t : String} {text p : Bytes} (h : dumpError env t text = .ok p) : DumpedAs env p t := by
  unfold dumpError at h
  split at h
  · cases h
    exact ⟨_, rfl, by simp [Json.get?]⟩
  · cases h

theorem typed_ok {t : String} {body p : Bytes} (h : (typed env t body).map env.dump = .ok p) :
    DumpedAs env p t := by
  cases ht : typed env t body with
  | error e => rw [ht] at h; cases h
  | ok j =>
    rw [ht] at h
    cases h
    exact ⟨j, rfl, get?_typed env ht⟩

private theorem editOutcome_ok {t : String} {res : Outcome} {p : Bytes} (h : editOutcome env t res = .ok p) :
    DumpedAs env p t := by
  unfold editOutcome at h
  cases hb : okBody res with
  | none =>
    rw [hb] at h
    cases h
    exact ⟨_, rfl, by simp [Json.get?]⟩
  | some body =>
    rw [hb] at h
    exact typed_ok env h

private theorem submitResult_ok {outcome : Outcome → Except Exn Bytes} {p : Bytes}
    (h : submitResult env w outcome = .ok p) : outcome w.api.head = .ok p := by
  unfold submitResult at h
  cases ht : tokenResult env w with
  | error e => rw [ht] at h; cases h
  | ok token => rwa [ht] at h

private theorem edit_intake_ok {op : Operation} (hop : op ≠ .place) {p : Bytes}
    (h : (op.intake env payload).result env w = .ok p) : DumpedAs env p op.replyType := by
  cases op with
  | place => exact absurd rfl hop
  | modify =>
    simp only [Operation.intake, modifyIntake] at h
    split at h
    · cases h
    · split at h
      · exact dumpError_ok env h
      · exact editOutcome_ok env (submitResult_ok env w h)
  | cancel =>
    simp only [Operation.intake, cancelIntake] at h
    split at h
    · cases h
    · split at h
      · exact dumpError_ok env h
      · split at h
        · cases h
        · exact editOutcome_ok env (submitResult_ok env w h)

/-- Modify and cancel fail to reply only when the exception's text cannot be dumped. -/
theorem edit_result {op : Operation} (hop : op ≠ .place) :
    (∃ p, op.result env payload w = .ok p ∧ DumpedAs env p op.replyType ∧
        ∀ e, op.raised env payload w = some e → decode e.what ≠ none) ∨
      ∃ e e', op.result env payload w = .error e' ∧ op.raised env payload w = some e ∧ decode e.what = none := by
  unfold Operation.result Operation.raised
  cases hi : (op.intake env payload).result env w with
  | ok p => exact .inl ⟨p, rfl, edit_intake_ok env payload w hop hi, by simp⟩
  | error e =>
    have hrec : ∃ pre, op.recover env e = dumpError env op.replyType (encode pre ++ e.what) := by
      cases op with
      | place => exact absurd rfl hop
      | modify => exact ⟨_, rfl⟩
      | cancel => exact ⟨_, rfl⟩
    obtain ⟨pre, hrec⟩ := hrec
    simp only [hrec]
    cases hd : decode e.what with
    | some s =>
      have ht : decode (encode pre ++ e.what) = some (pre ++ s) := by rw [decode_encode_append, hd, Option.map_some]
      refine .inl ⟨_, by rw [dumpError, ht], dumpError_ok env (by rw [dumpError, ht]), ?_⟩
      rintro e' he
      cases he
      simp [hd]
    | none =>
      have ht : decode (encode pre ++ e.what) = none := by rw [decode_encode_append, hd, Option.map_none]
      exact .inr ⟨e, _, by rw [dumpError, ht], rfl, hd⟩

end Results
end DeribitClientServer.Server
