import DeribitClientServer.Client.Responses
import DeribitClientServer.Server.OrderGate
import DeribitClientServer.Server.WireFormat
import DeribitClientServer.System.FrameTypes

/-! The outcome of an order's POST as the user reads it. It passes through the
server's rewrap and its exception texts, and then through a test on the error. -/
namespace DeribitClientServer.System
open Library Library.JsonText Library.Utf8 Server Client

section Outcomes
variable (env : Externals) (sc : Script)

/-- The POST was answered with status 200 and an object that has a result and no error. -/
def Accepted (res : Outcome) : Prop :=
  ∃ body ms, okBody res = some body ∧ parseJson env body = .ok (.obj ms) ∧
    (Json.obj ms).contains "result" = true ∧ (Json.obj ms).contains "error" = false

/-- Whatever it showed before, the operation's component shows this kind of
message after the frame. -/
def Displays (p : Bytes) (kind : NoticeKind) : Operation → Prop
  | .place => ∀ f, ∃ text, (OrderForm.handleMessage sc p f).state.message = some ⟨kind, text⟩
  | .modify => ∀ f, ∃ text, (ModifyOrderForm.handleMessage sc p f).state.message = some ⟨kind, text⟩
  | .cancel => ∀ o, ∃ text, (OpenOrdersList.handleMessage sc p o).state.message = some ⟨kind, text⟩

/-- The frame shows a success for an accepted order operation, and a failure otherwise. -/
def Reports (op : Operation) (res : Outcome) (p : Bytes) : Prop :=
  (Accepted env res → Displays sc p .success op) ∧ (¬ Accepted env res → Displays sc p .error op)

/-- The message is an order operation that reaches its POST, whose outcome the
first frame of the answer reports. -/
def OutcomeReported (msg : Message) (w : World) (op : Operation) : Prop :=
  ∃ f rest, frames (processMessage env msg w).trace = f :: rest ∧ f.via = .reply ∧ f.hdl = msg.hdl ∧
    Reports env sc op w.api.head f.payload

/-- The text glued into an order's reply leaves it a response whose error shows. -/
def SplicesError (text : Bytes) : Prop :=
  ∃ j, SplicesAs text j ∧ j.get? "type" = some (.str "order_response") ∧ ShowsError sc (j.get? "error")

/-- The text of the exception can be passed on. -/
def LegibleException (e : Exn) : Operation → Prop
  | .place => SplicesError sc (processingError e)
  | .modify | .cancel => decode e.what ≠ none

/-- The answer has an error that shows, or a result and no error. -/
def LegibleAnswer (data : Json) (op : Operation) : Prop :=
  match data.get? "error" with
  | some error => ShowsError sc (some error)
  | none => data.contains "result" = true ∧ (op = .place → ∃ text, template sc (shownOrderId sc data) = .ok text)

/-- An outcome whose reply the client reads as what it is. -/
def Legible (op : Operation) (res : Outcome) : Prop :=
  match okBody res with
  | none => op = .place → ∀ r, res = some r → SplicesError sc (encode "Failed to process order: " ++ r.body)
  | some body =>
      match parseJson env body with
      | .error e => LegibleException sc e op
      | .ok .null => False
      | .ok (.obj ms) => LegibleAnswer sc (Json.obj ms).canon op
      | .ok v => LegibleException sc ⟨encode (env.indexError v)⟩ op

end Outcomes

section Display
variable {sc : Script} {p : Bytes} {kind : NoticeKind}

def noticeOf (sc : Script) (data : Json) : Operation → Except Thrown Notice
  | .place => OrderForm.notice sc data
  | .modify => ModifyOrderForm.notice sc data
  | .cancel => OpenOrdersList.notice sc data

/-- A component that keeps its message, or takes the notice of a frame of its type,
shows a kind of message on the frames whose notice is of this kind. -/
private theorem shows_iff {σ : Type} (before : σ → Option Notice) {after : σ → Option Notice} {t : String}
    {notice : Json → Except Thrown Notice} (hs : ∃ s, before s = none)
    (hignored : strictEq (typeOf p) t = false → ∀ s, after s = before s)
    (htaken : ∀ data, readText p = some data → data.get? "type" = some (.str t) →
      ∀ s, after s = (notice data).toOption.or (before s)) :
    (∀ s, ∃ text, after s = some ⟨kind, text⟩) ↔ ∃ data, readText p = some data ∧
      data.get? "type" = some (.str t) ∧ ∃ text, notice data = .ok ⟨kind, text⟩ := by
  obtain ⟨s, hs⟩ := hs
  constructor
  · intro h
    obtain ⟨text, ht⟩ := h s
    cases hty : strictEq (typeOf p) t with
    | false =>
      rw [hignored hty s, hs] at ht
      cases ht
    | true =>
      obtain ⟨data, hd, htype⟩ := (strictEq_typeOf p t).mp hty
      refine ⟨data, hd, htype, text, ?_⟩
      rw [htaken data hd htype, hs] at ht
      cases hn : notice data with
      | ok n => simpa [hn, Except.toOption] using ht
      | error e => simp [hn, Except.toOption] at ht
  · rintro ⟨data, hd, htype, text, hn⟩ s
    refine ⟨text, ?_⟩
    rw [htaken data hd htype, hn]
    rfl

theorem displays_iff (op : Operation) : Displays sc p kind op ↔ ∃ data, readText p = some data ∧
    data.get? "type" = some (.str op.replyType) ∧ ∃ text, noticeOf sc data op = .ok ⟨kind, text⟩ := by
  cases op with
  | place =>
    apply shows_iff OrderForm.message ⟨OrderForm.initial, rfl⟩
    · exact fun h f => by rw [OrderForm.handleMessage_ignored h]
    · exact fun data hd ht f => OrderForm.handleMessage_message hd ht f
  | modify =>
    apply shows_iff ModifyOrderForm.message ⟨⟨none, "", "", false, none⟩, rfl⟩
    · exact fun h f => by rw [ModifyOrderForm.handleMessage_ignored h]
    · exact fun data hd ht f => ModifyOrderForm.handleMessage_message hd ht f
  | cancel =>
    apply shows_iff OpenOrdersList.message ⟨OpenOrdersList.initial, rfl⟩
    · exact fun h o => OpenOrdersList.handleMessage_quiet h o
    · exact fun data hd ht o => OpenOrdersList.handleMessage_message hd ht o

theorem noticeOf_error_iff (op : Operation) (data : Json) :
    (∃ text, noticeOf sc data op = .ok ⟨.error, text⟩) ↔ ShowsError sc (data.get? "error") := by
  cases op <;> exact responseNotice_error_iff

theorem noticeOf_success_iff (op : Operation) (data : Json) : (∃ text, noticeOf sc data op = .ok ⟨.success, text⟩) ↔
    truthy sc (data.get? "error") = false ∧ (op = .place → ∃ text, template sc (shownOrderId sc data) = .ok text) := by
  have hid : (∃ text, (template sc (shownOrderId sc data)).map ("Order placed successfully. Order ID: " ++ ·) = .ok text) ↔
      ∃ text, template sc (shownOrderId sc data) = .ok text := by
    cases template sc (shownOrderId sc data) <;> simp [Except.map]
  cases op with
  | place => exact responseNotice_success_iff.trans (and_congr_right' (by simpa using hid))
  | modify | cancel => exact responseNotice_success_iff.trans (and_congr_right' (by simp))

end Display

section Replies
variable {env : Externals} {sc : Script} {op : Operation}

/-- A dumped reply shows what its notice is. -/
private theorem displays_dump {j : Json} (ht : j.get? "type" = some (.str op.replyType)) (kind : NoticeKind) :
    Displays sc (env.dump j) kind op ↔ ∃ text, noticeOf sc (j.stored env.spelling).canon op = .ok ⟨kind, text⟩ := by
  rw [displays_iff, env.dump_reads]
  simp [(get?_dumped_str_iff env).mpr ht]

private theorem displays_orderError (text : Bytes) :
    Displays sc (orderError text) .error .place ↔ SplicesError sc text := by
  rw [displays_iff]
  simp only [readText_orderError, noticeOf_error_iff]
  rfl

/-- An error text that is not empty is shown. -/
private theorem displays_errorText {text : String} (h : text ≠ "") :
    Displays sc (env.dump (.obj [("type", .str op.replyType), ("error", .str text)])) .error op := by
  have he : (Json.obj [("type", .str op.replyType), ("error", .str text)]).get? "error" = some (.str text) := by
    simp [Json.get?_obj]
  rw [displays_dump (by simp [Json.get?_obj]), noticeOf_error_iff, (get?_dumped_str_iff env).mpr he]
  exact ⟨by simpa [truthy] using h, text, rfl⟩

private theorem not_displays_internalError (kind : NoticeKind) :
    ¬ Displays sc (encode "Internal server error") kind op := by
  rw [displays_iff]
  rintro ⟨data, hd, ht, _⟩
  exact not_wireFrame_error ⟨_, data, hd, ht⟩

private theorem not_reports_internalError {res : Outcome} :
    ¬ Reports env sc op res (encode "Internal server error") := by
  intro h
  by_cases ha : Accepted env res
  · exact not_displays_internalError _ (h.1 ha)
  · exact not_displays_internalError _ (h.2 ha)

private theorem reports_iff_error {res : Outcome} {p : Bytes} (h : ¬ Accepted env res) :
    Reports env sc op res p ↔ Displays sc p .error op := by
  simp [Reports, h]

end Replies

section Replied
variable (env : Externals) (sc : Script)

/-- What an operation makes of the outcome of its POST. -/
def outcomeOf : Operation → Outcome → Except Exn Bytes
  | .place => orderOutcome env
  | .modify => editOutcome env "modify_response"
  | .cancel => editOutcome env "cancel_response"

/-- The same with the catch around it. -/
def replied (op : Operation) (res : Outcome) : Except Exn Bytes :=
  match outcomeOf env op res with
  | .ok p => .ok p
  | .error e => op.recover env e

/-- The reply reports the outcome. -/
def ReplyReports (op : Operation) (res : Outcome) : Prop := ∃ p, replied env op res = .ok p ∧ Reports env sc op res p

variable {env sc} {op : Operation} {res : Outcome} {body : Bytes}

private theorem replyReports_iff {p : Bytes} (h : replied env op res = .ok p) :
    ReplyReports env sc op res ↔ Reports env sc op res p := by
  simp [ReplyReports, h]

private theorem outcomeOf_answered (hb : okBody res = some body) :
    outcomeOf env op res = (typed env op.replyType body).map env.dump := by
  cases op with
  | place =>
    obtain ⟨r, rfl, hr⟩ := Option.bind_eq_some_iff.mp hb
    split_ifs at hr with hs
    rw [← Option.some_inj.mp hr]
    simp only [outcomeOf, orderOutcome, if_pos hs]
    rfl
  | modify | cancel => simp only [outcomeOf, editOutcome, hb]; rfl

/-- An answer that raises an exception is reported when its text can be passed on. -/
private theorem replyReports_raised {e : Exn} (hb : okBody res = some body)
    (he : typed env op.replyType body = .error e) (hn : ¬ Accepted env res) :
    ReplyReports env sc op res ↔ LegibleException sc e op := by
  have hr : replied env op res = op.recover env e := by
    rw [replied, outcomeOf_answered hb, he]
    rfl
  have hedit {pre : String} (hpre : pre ≠ "")
      (hrec : op.recover env e = dumpError env op.replyType (encode pre ++ e.what)) :
      ReplyReports env sc op res ↔ decode e.what ≠ none := by
    rw [dumpError, decode_encode_append] at hrec
    cases hd : decode e.what with
    | none =>
      rw [hd, Option.map_none] at hrec
      rw [hrec] at hr
      simp [ReplyReports, hr]
    | some s =>
      rw [hd, Option.map_some] at hrec
      rw [replyReports_iff (hr.trans hrec), reports_iff_error hn]
      exact iff_of_true (displays_errorText (by simp [hpre])) (by simp)
  cases op with
  | place =>
    rw [replyReports_iff hr, reports_iff_error hn]
    exact displays_orderError _
  | modify => exact hedit (by simp) rfl
  | cancel => exact hedit (by simp) rfl

private theorem not_accepted_of_parse (hb : okBody res = some body) (hp : ∀ ms, parseJson env body ≠ .ok (.obj ms)) :
    ¬ Accepted env res := by
  rintro ⟨body', ms, hb', hms, _⟩
  rw [hb, Option.some_inj] at hb'
  exact hp ms (hb' ▸ hms)

private theorem httpError_ne (res : Outcome) : httpError res ≠ "" := by
  cases res <;> simp [httpError]

private theorem splicesError_noResponse : SplicesError sc (encode "No response from Deribit API") := by
  refine ⟨_, ⟨_, _, _, _, decode_encode _, rfl, rfl⟩, rfl, ?_, _, rfl⟩
  rfl

/-- A call that brings no answer to parse fails, and a glued body has to read as a failure. -/
private theorem replyReports_unanswered (hb : okBody res = none) : ReplyReports env sc op res ↔
    (op = .place → ∀ r, res = some r → SplicesError sc (encode "Failed to process order: " ++ r.body)) := by
  have hn : ¬ Accepted env res := by
    rintro ⟨body, ms, hb', _⟩
    rw [hb] at hb'
    cases hb'
  have hedit (hop : op ≠ .place) (h : replied env op res =
      .ok (env.dump (.obj [("type", .str op.replyType), ("error", .str (httpError res))]))) :
      ReplyReports env sc op res := by
    rw [replyReports_iff h, reports_iff_error hn]
    exact displays_errorText (httpError_ne res)
  cases op with
  | place =>
    cases res with
    | none =>
      have h : replied env .place none = .ok (orderError (encode "No response from Deribit API")) := rfl
      rw [replyReports_iff h, reports_iff_error hn, displays_orderError]
      exact iff_of_true splicesError_noResponse (by simp)
    | some r =>
      have hs : r.status ≠ 200 := by
        intro hs
        simp [okBody, hs] at hb
      have h : replied env .place (some r) = .ok (orderError (encode "Failed to process order: " ++ r.body)) := by
        simp only [replied, outcomeOf, orderOutcome, if_neg hs]
        rfl
      rw [replyReports_iff h, reports_iff_error hn, displays_orderError]
      simp
  | modify | cancel =>
    refine iff_of_true (hedit (by decide) ?_) (by simp)
    simp only [replied, outcomeOf, editOutcome, hb]
    rfl

/-- A null becomes an object with nothing but a type, which passes for a success. -/
private theorem not_replyReports_null (hb : okBody res = some body) (hp : parseJson env body = .ok .null) :
    ¬ ReplyReports env sc op res := by
  have hn : ¬ Accepted env res := not_accepted_of_parse hb (by simp [hp])
  have h : replied env op res = .ok (env.dump (.obj [("type", .str op.replyType)])) := by
    rw [replied, outcomeOf_answered hb, typed, hp]
    rfl
  rw [replyReports_iff h, reports_iff_error hn, displays_dump (by simp [Json.get?_obj]), noticeOf_error_iff,
    Json.get?_canon, Json.get?_stored]
  rintro ⟨ht, _⟩
  simp [Json.get?_obj, truthy] at ht

private theorem accepted_object {ms : List (String × Json)} (hb : okBody res = some body)
    (hp : parseJson env body = .ok (.obj ms)) : Accepted env res ↔
      (Json.obj ms).canon.contains "result" = true ∧ (Json.obj ms).canon.get? "error" = none := by
  have hcontains (k : String) : (Json.obj ms).canon.contains k = (Json.obj ms).contains k := by
    simp [Json.contains, Json.get?_canon]
  have herror : (Json.obj ms).canon.get? "error" = none ↔ (Json.obj ms).contains "error" = false := by
    rw [← hcontains, Json.contains, Option.isSome_eq_false_iff, Option.isNone_iff_eq_none]
  rw [hcontains, herror]
  constructor
  · rintro ⟨body', ms', hb', hp', h⟩
    rw [hb, Option.some_inj] at hb'
    rw [← hb', hp, Except.ok.injEq, Json.obj.injEq] at hp'
    exact hp' ▸ h
  · exact fun h => ⟨body, ms, hb, hp, h⟩

/-- An object keeps its error and its result under the type it is given. -/
private theorem replyReports_object {ms : List (String × Json)} (hb : okBody res = some body)
    (hp : parseJson env body = .ok (.obj ms)) :
    ReplyReports env sc op res ↔ LegibleAnswer sc (Json.obj ms).canon op := by
  have h : replied env op res = .ok (env.dump ((Json.obj ms).set "type" (.str op.replyType))) := by
    rw [replied, outcomeOf_answered hb, typed, hp]
    rfl
  have hkept {k : String} (hk : "type" ≠ k) :
      (((Json.obj ms).set "type" (.str op.replyType)).stored env.spelling).canon.get? k = (Json.obj ms).canon.get? k := by
    have hset := Json.get?_set_ne hk (.obj ms) (.str op.replyType)
    rw [get?_dumped_kept env fun v hv => Json.stored_of_get? (stored_of_parsed env hp) (hset.symm.trans hv),
      Json.get?_canon, Json.get?_canon, hset]
  have hid : shownOrderId sc (((Json.obj ms).set "type" (.str op.replyType)).stored env.spelling).canon =
      shownOrderId sc (Json.obj ms).canon := by
    unfold shownOrderId
    rw [hkept (by decide)]
  have ht := @Json.get?_set_self (Json.obj ms) "type" (.str op.replyType) ⟨ms, rfl⟩
  have hacc := accepted_object hb hp
  rw [replyReports_iff h, LegibleAnswer]
  cases he : (Json.obj ms).canon.get? "error" with
  | some error =>
    rw [reports_iff_error (by simp [hacc, he]), displays_dump ht, noticeOf_error_iff, hkept (by decide), he]
  | none =>
    cases hr : (Json.obj ms).canon.contains "result" with
    | true =>
      have ha : Accepted env res := hacc.mpr ⟨hr, he⟩
      have hs := (@displays_dump env sc op _ ht .success).trans (noticeOf_success_iff op _)
      rw [hkept (by decide), he, hid] at hs
      simp only [Reports, ha, not_true_eq_false, false_implies, and_true, true_implies, hs]
      simp [truthy]
    | false =>
      rw [reports_iff_error (by simp [hacc, hr]), displays_dump ht, noticeOf_error_iff, hkept (by decide), he]
      simp [ShowsError, truthy]

/-- The reply reports the outcome exactly when the outcome is legible. -/
theorem replyReports_iff_legible : ReplyReports env sc op res ↔ Legible env sc op res := by
  cases hb : okBody res with
  | none =>
    simp only [Legible, hb]
    exact replyReports_unanswered hb
  | some body =>
    cases hp : parseJson env body with
    | error e =>
      simp only [Legible, hb, hp]
      have he : typed env op.replyType body = .error e := by
        rw [typed, hp]
        rfl
      exact replyReports_raised hb he (not_accepted_of_parse hb (by simp [hp]))
    | ok v =>
      have hscalar (hv : ∀ ms, v ≠ .obj ms)
          (he : assign env v "type" (.str op.replyType) = .error ⟨encode (env.indexError v)⟩) :
          ReplyReports env sc op res ↔ LegibleException sc ⟨encode (env.indexError v)⟩ op := by
        refine replyReports_raised hb ?_ (not_accepted_of_parse hb (by simpa [hp] using hv))
        rw [typed, hp]
        exact he
      cases v with
      | null =>
        simp only [Legible, hb, hp]
        exact iff_of_false (not_replyReports_null hb hp) id
      | obj ms =>
        simp only [Legible, hb, hp]
        exact replyReports_object hb hp
      | bool _ | num _ | str _ | arr _ =>
        simp only [Legible, hb, hp]
        exact hscalar (by simp) rfl

end Replied

section Reported
variable (env : Externals) (sc : Script) (msg : Message) (w : World)

private theorem outcome_of_submitted {payload : Bytes} {op : Operation} {path : String} {body : Json}
    {outcome : Outcome → Except Exn Bytes} (h : op.intake env payload = .submitted path body outcome) :
    outcome = outcomeOf env op := by
  cases op with
  | place =>
    simp only [Operation.intake, orderIntake] at h
    split at h
    · cases h
    · split at h
      · cases h
      · exact (Intake.submitted.inj h).2.2.symm
  | modify =>
    simp only [Operation.intake, modifyIntake] at h
    split at h
    · cases h
    · split at h
      · cases h
      · exact (Intake.submitted.inj h).2.2.symm
  | cancel =>
    simp only [Operation.intake, cancelIntake] at h
    split at h
    · cases h
    · split at h
      · cases h
      · split at h
        · cases h
        · exact (Intake.submitted.inj h).2.2.symm

/-- An operation that posts is answered from the outcome of its post. -/
private theorem result_posted {payload : Bytes} {op : Operation} (h : orderPosts (op.trace env payload w) ≠ []) :
    op.result env payload w = replied env op w.api.head := by
  unfold Operation.trace at h
  unfold Operation.result replied
  cases hi : op.intake env payload with
  | answered x =>
    rw [hi] at h
    exact absurd rfl h
  | submitted path body outcome =>
    rw [hi, Intake.trace, orderPosts, apiRequests_submitTrace] at h
    rw [Intake.result, submitResult, ← outcome_of_submitted env hi]
    cases ht : tokenResult env w with
    | error e =>
      rw [ht] at h
      exact absurd rfl h
    | ok token => rfl

/-- The frame that answers an operation is what was made of its outcome. -/
private theorem outcomeReported_iff {op : Operation} (hk : kindOf env msg.payload = .order op)
    (hp : orderPosts (processMessage env msg w).trace ≠ []) :
    OutcomeReported env sc msg w op ↔ ReplyReports env sc op w.api.head := by
  rw [orderPosts_order env msg w hk] at hp
  rw [ReplyReports, ← result_posted env w hp]
  obtain ⟨f, rest, hfs, hv, hh, hpay⟩ := first_frame env msg w hk
  constructor
  · rintro ⟨f', rest', hfs', _, _, hrep⟩
    rw [hfs] at hfs'
    obtain ⟨rfl, rfl⟩ := List.cons.inj hfs'
    rcases hpay with ⟨p, hp, rfl⟩ | ⟨⟨e, he⟩, hp⟩
    · exact ⟨_, hp, hrep⟩
    · rw [hp] at hrep
      exact absurd hrep not_reports_internalError
  · rintro ⟨p, hp, hrep⟩
    rcases hpay with ⟨p', hp', rfl⟩ | ⟨⟨e, he⟩, _⟩
    · rw [hp, Except.ok.injEq] at hp'
      exact ⟨f, rest, hfs, hv, hh, hp' ▸ hrep⟩
    · rw [hp] at he
      cases he

/-- The outcome of an order operation's POST is shown as what it is exactly when
it is legible: when the text glued into the reply still reads as an error, or the
answer is an object with an error that shows or with a result and no error. -/
theorem outcome_reported_iff {op : Operation} (hk : kindOf env msg.payload = .order op)
    (hp : orderPosts (processMessage env msg w).trace ≠ []) :
    OutcomeReported env sc msg w op ↔ Legible env sc op w.api.head :=
  (outcomeReported_iff env sc msg w hk hp).trans replyReports_iff_legible

end Reported

section Sale

def saleMessage : Message := ⟨1, printText sellOrder, .text⟩

private theorem kindOf_saleMessage : kindOf grammarExternals saleMessage.payload = .order .place := by
  simp only [saleMessage, kindOf_sellOrder]

private theorem intake_saleMessage : ∃ orderData, orderIntake grammarExternals saleMessage.payload =
    .submitted "/api/v2/private/buy" (orderRequest orderData) (orderOutcome grammarExternals) := by
  obtain ⟨orderData, hc, _⟩ := checkOrder_sellOrder
  simp only [saleMessage]
  exact ⟨orderData, orderIntake_checked parse_sellOrder hc⟩

/-- An order that passes its checks is posted with the cached token. -/
theorem posts_order {env : Externals} {msg : Message} {w : World} {body : Json}
    {outcome : Outcome → Except Exn Bytes} (hk : kindOf env msg.payload = .order .place)
    (hi : orderIntake env msg.payload = .submitted "/api/v2/private/buy" body outcome) (hf : TokenFresh w) :
    orderPosts (processMessage env msg w).trace ≠ [] := by
  have ht : tokenResult env w = .ok w.accessToken := by rw [tokenResult, if_pos hf]
  rw [orderPosts_order env msg w hk, Operation.trace, Operation.intake, hi, Intake.trace, orderPosts,
    apiRequests_submitTrace, ht]
  simp [Request.isOrderPost, orderEndpoints]

private theorem posts_saleMessage {w : World} (hf : TokenFresh w) :
    orderPosts (processMessage grammarExternals saleMessage w).trace ≠ [] := by
  obtain ⟨orderData, hi⟩ := intake_saleMessage
  exact posts_order kindOf_saleMessage hi hf

/-- An order without an answer is shown as failed. -/
theorem unanswered_sale_reported : OutcomeReported grammarExternals plainScript saleMessage tokenCached .place := by
  have hp : orderPosts (processMessage grammarExternals saleMessage tokenCached).trace ≠ [] :=
    posts_saleMessage tokenCached_fresh
  rw [outcome_reported_iff grammarExternals plainScript saleMessage tokenCached kindOf_saleMessage hp]
  rintro _ r ⟨⟩

/-- The rejection of an order is a JSON body, glued into a reply that no client
can read: neither a success nor a failure is shown. -/
theorem rejected_sale_unreported : ¬ ∀ (env : Externals) (sc : Script) (msg : Message) (w : World) (op : Operation),
    kindOf env msg.payload = .order op → orderPosts (processMessage env msg w).trace ≠ [] →
    OutcomeReported env sc msg w op := by
  intro h
  have hp : orderPosts (processMessage grammarExternals saleMessage rejecting).trace ≠ [] :=
    posts_saleMessage tokenCached_fresh
  have hrep := h grammarExternals plainScript saleMessage rejecting .place kindOf_saleMessage hp
  rw [outcomeReported_iff _ _ _ _ kindOf_saleMessage hp, replyReports_iff_legible] at hrep
  have hb : okBody (some rejection) = none := by simp [okBody, rejection]
  have hl : Legible grammarExternals plainScript .place (some rejection) := hrep
  simp only [Legible, hb] at hl
  obtain ⟨j, ⟨s, ms, k, acc, hs, hr, rfl⟩, ht, _⟩ := hl trivial rejection rfl
  exact not_splices_rejected _ ⟨s, ms, k, acc, hs, hr, ht⟩

end Sale
end DeribitClientServer.System
