import DeribitClientServer.Client.Forms
import DeribitClientServer.Server.SingleReply
import DeribitClientServer.System.ListState

/-! The dialogs that modify orders, behind the one connection of their client.
Every mounted form hears every response, and none looks for the order that a
response is about. -/
namespace DeribitClientServer.System
open Library Library.JsonText Library.Utf8 Server Client

/-- A mounted form; a dialog that is opened again mounts another. -/
structure Dialog where
  id : Nat
  form : ModifyOrderForm

/-- A request on its way, with the dialog and the order it was sent for. -/
structure ModifyRequest where
  dialog : Nat
  orderId : Value
  payload : Bytes

/-- A form showed something new on a frame, which answered a request or none. -/
structure Change where
  dialog : Nat
  orderId : Value
  cause : Option ModifyRequest

structure Dialogs where
  next : Nat
  mounted : List Dialog
  pending : List ModifyRequest
  changes : List Change

inductive DialogAct where
  | «open» (orderId currentAmount currentPrice : Value)
  | close (id : Nat)
  | edit (id : Nat) (amount price : String)
  | submit (id : Nat)
  | respond (w : World)
  | frame (src : Source) (payload : Bytes)

section Steps
variable (env : Externals) (sc : Script) (supported : List String) (me : Hdl)

def Dialogs.opened (s : Dialogs) (f : ModifyOrderForm) : Dialogs :=
  { s with next := s.next + 1, mounted := s.mounted ++ [⟨s.next, f⟩] }

def Dialogs.closed (s : Dialogs) (id : Nat) : Dialogs := { s with mounted := s.mounted.filter (fun d => d.id ≠ id) }

/-- Replace the form of one dialog. -/
def Dialogs.revised (s : Dialogs) (id : Nat) (f : ModifyOrderForm) : Dialogs :=
  { s with mounted := s.mounted.map (fun d => if d.id = id then ⟨id, f⟩ else d) }

def Dialogs.submitted (s : Dialogs) (d : Dialog) : Dialogs :=
  let r := ModifyOrderForm.handleSubmit sc d.form
  { s.revised d.id r.state with pending := s.pending ++ r.trace.map (fun m => ⟨d.id, d.form.orderId, m⟩) }

def Dialog.heard (d : Dialog) (payload : Bytes) : Dialog :=
  { d with form := (ModifyOrderForm.handleMessage sc payload d.form).state }

/-- The form shows another state of submission or another outcome. -/
def Dialog.reacts (d : Dialog) (payload : Bytes) : Bool :=
  (d.heard sc payload).form.isSubmitting ≠ d.form.isSubmitting || (d.heard sc payload).form.message ≠ d.form.message

def Dialogs.delivered (s : Dialogs) (payload : Bytes) (cause : Option ModifyRequest) : Dialogs :=
  { s with
    mounted := s.mounted.map (fun d => d.heard sc payload)
    changes := s.changes ++
      (s.mounted.filter (fun d => d.reacts sc payload)).map (fun d => ⟨d.id, d.form.orderId, cause⟩) }

/-- What a request is answered with: the first frame queued while it is handled,
a response or the error text. -/
def answerTo (q : ModifyRequest) (w : World) : Option Frame :=
  (frames (processMessage env ⟨me, q.payload, .text⟩ w).trace).find? Frame.queued

/-- The first request is answered, or nothing could be queued for it. -/
def Dialogs.responded (s : Dialogs) (q : ModifyRequest) (rest : List ModifyRequest) : Option Frame → Dialogs
  | none => { s with pending := rest }
  | some f => { s.delivered sc f.payload (some q) with pending := rest }

def Reaches (p : Bytes) (f : Frame) : Prop := f.hdl = me ∧ f.queued = true ∧ f.payload = p

/-- What else reaches the connection: anything sent for other messages and in the
turns of the threads, and what is sent for a modify request after its answer. -/
def Source.Brings (p : Bytes) : Source → Prop
  | .message msg w => ∃ f ∈ frames (processMessage env msg w).trace, Reaches me p f ∧
      (kindOf env msg.payload = .order .modify → f ∈ (frames (processMessage env msg w).trace).tail)
  | .turn l s => (∃ as, (updateLoops env supported).Run Transition.anyStep as s) ∧
      ∃ f ∈ frames (l.turn env supported s.world).trace, Reaches me p f

/-- Requests are answered in the order in which they were sent. -/
def dialogs : Transition Dialogs DialogAct where
  initial s := s = ⟨0, [], [], []⟩
  step s a s' :=
    match a with
    | .open orderId currentAmount currentPrice =>
        ∃ f, ModifyOrderForm.mount sc orderId currentAmount currentPrice = .ok f ∧ s' = s.opened f
    | .close id => s' = s.closed id
    | .edit id amount price =>
        ∃ d ∈ s.mounted, d.id = id ∧ s' = s.revised id { d.form with amount := amount, price := price }
    | .submit id => ∃ d ∈ s.mounted, d.id = id ∧ d.form.isSubmitting = false ∧ s' = s.submitted sc d
    | .respond w => ∃ q rest, s.pending = q :: rest ∧ s' = s.responded sc q rest (answerTo env me q w)
    | .frame src p => src.Brings env supported me p ∧ s' = s.delivered sc p none

/-- Dialogs are opened only while no response is outstanding, and a form is
submitted only while no other dialog is mounted. -/
def OneAtATime (s : Dialogs) : DialogAct → Prop
  | .open _ _ _ => s.pending = []
  | .submit id => ∀ d ∈ s.mounted, d.id = id
  | .close _ | .edit _ _ _ | .respond _ | .frame _ _ => True

/-- No text glued into the reply to an order makes a response to a modify request of it. -/
def Unspliced : DialogAct → Prop
  | .frame (.message msg w) _ => kindOf env msg.payload = .order .place →
      ∀ text, gluedText env msg.payload w = some text → ¬ Splices text "modify_response"
  | .frame (.turn _ _) _ | .open _ _ _ | .close _ | .edit _ _ _ | .submit _ | .respond _ => True

end Steps

/-- The frame answered a request that this dialog sent for its order. -/
def Change.Own (c : Change) : Prop := ∃ q, c.cause = some q ∧ q.dialog = c.dialog ∧ q.orderId = c.orderId

def Dialogs.Attributed (s : Dialogs) : Prop := ∀ c ∈ s.changes, c.Own

/-- Whoever is mounted while a response is outstanding asked for it. -/
structure DialogsInv (s : Dialogs) : Prop where
  asked : ∀ q ∈ s.pending, ∀ d ∈ s.mounted, q.dialog = d.id ∧ q.orderId = d.form.orderId
  own : ∀ c ∈ s.changes, c.Own

section Frames
variable {env : Externals} {supported : List String} {me : Hdl} {p : Bytes}

/-- Besides the answers, nothing that reaches the connection is a response to a modify request. -/
private theorem foreign_brought (ha : ReadersAgree env) {src : Source} (hb : src.Brings env supported me p)
    (hu : Unspliced env (.frame src p)) : strictEq (typeOf p) "modify_response" = false := by
  cases src with
  | turn l s =>
    obtain ⟨⟨as, r⟩, f, hf, _, _, rfl⟩ := hb
    apply strictEq_of_hasType (turn_frames (template_typed r) hf).2.hasType
    cases l <;> decide
  | message msg w =>
    obtain ⟨f, hf, ⟨_, _, rfl⟩, hlater⟩ := hb
    cases frame_origin hf with
    | failed state => exact strictEq_error _
    | echoed state hk => exact strictEq_echo ha hk (by decide)
    | instruments state hk h => exact strictEq_of_hasType (instrumentsReply_typed h).hasType (by decide)
    | updated hk hd hv hp =>
      rw [hp]
      exact strictEq_of_hasType (hasType_dump (get?_openOrdersUpdate _)) (by decide)
    | @operation op q state hk h =>
      cases op with
      | place => exact strictEq_place h (hu hk) (by decide)
      | cancel => exact strictEq_edit (by decide) h (by decide)
      | modify =>
        rcases frame_later hk (hlater hk) with he | hd
        · rw [he]
          exact strictEq_error _
        · exact strictEq_of_hasType hd.hasType (by decide)

end Frames

section Invariant
variable {env : Externals} {sc : Script} {supported : List String} {me : Hdl} {s : Dialogs}

private theorem reacts_foreign {p : Bytes} (h : strictEq (typeOf p) "modify_response" = false) (d : Dialog) :
    d.reacts sc p = false := by
  simp [Dialog.reacts, Dialog.heard, ModifyOrderForm.handleMessage_ignored h]

private theorem heard_orderId (p : Bytes) (d : Dialog) : (d.heard sc p).form.orderId = d.form.orderId :=
  ModifyOrderForm.handleMessage_orderId p d.form

/-- Dialogs keep their order when the form of one is replaced by one for its order. -/
private theorem mem_revised {id : Nat} {f : ModifyOrderForm} {d d' : Dialog} (hd : d ∈ s.mounted) (hid : d.id = id)
    (hf : f.orderId = d.form.orderId) (h : d' ∈ (s.revised id f).mounted) :
    ∃ e ∈ s.mounted, e.id = d'.id ∧ e.form.orderId = d'.form.orderId := by
  obtain ⟨e, he, rfl⟩ := List.mem_map.mp h
  by_cases hi : e.id = id
  · rw [if_pos hi]
    exact ⟨d, hd, hid, hf.symm⟩
  · rw [if_neg hi]
    exact ⟨e, he, rfl, rfl⟩

private theorem asked_revised (hs : DialogsInv s) {id : Nat} {f : ModifyOrderForm} {d : Dialog} (hd : d ∈ s.mounted)
    (hid : d.id = id) (hf : f.orderId = d.form.orderId) :
    ∀ q ∈ s.pending, ∀ d' ∈ (s.revised id f).mounted, q.dialog = d'.id ∧ q.orderId = d'.form.orderId := by
  intro q hq d' hd'
  obtain ⟨e, he, hi, ho⟩ := mem_revised hd hid hf hd'
  rw [← hi, ← ho]
  exact hs.asked q hq e he

private theorem dialogsInv_submitted (hs : DialogsInv s) {d : Dialog} (hd : d ∈ s.mounted)
    (honly : ∀ e ∈ s.mounted, e.id = d.id) : DialogsInv (s.submitted sc d) := by
  unfold Dialogs.submitted
  rw [ModifyOrderForm.handleSubmit_run]
  refine ⟨fun q hq d' hd' => ?_, hs.own⟩
  rcases List.mem_append.mp hq with hq | hq
  · refine asked_revised hs hd rfl ?_ q hq d' hd'
    rfl
  · obtain rfl := List.mem_singleton.mp hq
    obtain ⟨e, he, rfl⟩ := List.mem_map.mp hd'
    rw [if_pos (honly e he)]
    exact ⟨rfl, rfl⟩

private theorem asked_heard {q : ModifyRequest} {p : Bytes}
    (h : ∀ d ∈ s.mounted, q.dialog = d.id ∧ q.orderId = d.form.orderId) :
    ∀ d ∈ s.mounted.map (fun d => d.heard sc p), q.dialog = d.id ∧ q.orderId = d.form.orderId := by
  rw [List.forall_mem_map]
  intro d hd
  rw [heard_orderId]
  exact h d hd

private theorem dialogsInv_respond (hs : DialogsInv s) {q : ModifyRequest} {rest : List ModifyRequest}
    (answer : Option Frame) (hq : s.pending = q :: rest) : DialogsInv (s.responded sc q rest answer) := by
  have hrest : ∀ r ∈ rest, r ∈ s.pending := fun r hr => hq ▸ List.mem_cons_of_mem q hr
  cases answer with
  | none => exact ⟨fun r hr => hs.asked r (hrest r hr), hs.own⟩
  | some f =>
    have hmem : q ∈ s.pending := hq ▸ List.mem_cons_self
    refine ⟨fun r hr => asked_heard (hs.asked r (hrest r hr)), fun c hc => ?_⟩
    rcases List.mem_append.mp hc with hc | hc
    · exact hs.own c hc
    · obtain ⟨d, hd, rfl⟩ := List.mem_map.mp hc
      exact ⟨q, rfl, hs.asked q hmem d (List.mem_of_mem_filter hd)⟩

private theorem dialogsInv_frame (hs : DialogsInv s) {p : Bytes}
    (h : strictEq (typeOf p) "modify_response" = false) : DialogsInv (s.delivered sc p none) := by
  refine ⟨fun q hq => asked_heard (hs.asked q hq), fun c hc => ?_⟩
  rcases List.mem_append.mp hc with hc | hc
  · exact hs.own c hc
  · simp [reacts_foreign h] at hc

theorem dialogsInv_step (ha : ReadersAgree env) {a : DialogAct} {s' : Dialogs} (hs : DialogsInv s)
    (hg : OneAtATime s a ∧ Unspliced env a) (h : (dialogs env sc supported me).step s a s') : DialogsInv s' := by
  obtain ⟨hg, hu⟩ := hg
  cases a with
  | «open» orderId currentAmount currentPrice =>
    obtain ⟨f, _, rfl⟩ := h
    refine ⟨fun q hq => ?_, hs.own⟩
    rw [Dialogs.opened, hg] at hq
    cases hq
  | close id =>
    obtain rfl := h
    exact ⟨fun q hq d hd => hs.asked q hq d (List.mem_of_mem_filter hd), hs.own⟩
  | edit id amount price =>
    obtain ⟨d, hd, hid, rfl⟩ := h
    exact ⟨asked_revised hs hd hid rfl, hs.own⟩
  | submit id =>
    obtain ⟨d, hd, rfl, _, rfl⟩ := h
    exact dialogsInv_submitted hs hd hg
  | respond w =>
    obtain ⟨q, rest, hq, rfl⟩ := h
    exact dialogsInv_respond hs _ hq
  | frame src p =>
    obtain ⟨hb, rfl⟩ := h
    exact dialogsInv_frame hs (foreign_brought ha hb hu)

/-- When dialogs are opened and submitted one at a time and no reply to an order
is read as a response, a form shows an outcome only on the answer to a request
that it sent itself. -/
theorem outcomes_are_own (ha : ReadersAgree env) {as : List DialogAct}
    (r : (dialogs env sc supported me).Run (fun s a => OneAtATime s a ∧ Unspliced env a) as s) : s.Attributed := by
  have hs : DialogsInv s := by
    refine r.invariant DialogsInv (fun s h => ?_) (fun s a s' hs hg h => dialogsInv_step ha hs hg h)
    obtain rfl := h
    exact ⟨by simp, by simp⟩
  exact hs.own

end Invariant

section Outcomes

/-- The form of an order for ten, as it is mounted. -/
def tenForm (orderId : String) : ModifyOrderForm := ⟨some (.str orderId), "10", "", false, none⟩

private theorem mount_ten (orderId : String) :
    ModifyOrderForm.mount plainScript (some (.str orderId)) (some (numberOf 10)) (some .null) = .ok (tenForm orderId) :=
  rfl

/-- What the form of the first order sends. -/
def firstRequest : Bytes := printText ((tenForm "ETH-1").request plainScript)

def firstAsked : ModifyRequest := ⟨0, some (.str "ETH-1"), firstRequest⟩

def modified : Json := (Json.obj [("result", .arr [])]).set "type" (.str "modify_response")

def noOrders : Json := openOrdersUpdate (.obj [("result", .arr [])])

private theorem kindOf_firstRequest : kindOf grammarExternals firstRequest = .order .modify :=
  kindOf_printed (Json.respell_some _) (by simp [tenForm, ModifyOrderForm.request, object, Json.get?, Operation.type])

private theorem intake_firstRequest : ∃ orderData, Operation.modify.intake grammarExternals firstRequest =
    .submitted "/api/v2/private/edit" orderData (editOutcome grammarExternals "modify_response") := by
  have hp : parseJson grammarExternals firstRequest = .ok ((tenForm "ETH-1").request plainScript).canon :=
    parseJson_printed _ (Json.respell_some _)
  rw [Operation.intake, modifyIntake, hp]
  exact ⟨_, rfl⟩

private theorem world_firstRequest : Operation.modify.world grammarExternals firstRequest answering = answering := by
  obtain ⟨orderData, hi⟩ := intake_firstRequest
  exact world_answering hi

private theorem result_firstRequest :
    Operation.modify.result grammarExternals firstRequest answering = .ok (grammarExternals.dump modified) := by
  obtain ⟨orderData, hi⟩ := intake_firstRequest
  exact result_answering hi

private theorem frames_firstRequest : frames (processMessage grammarExternals ⟨1, firstRequest, .text⟩ answering).trace =
    [⟨.reply, 1, grammarExternals.dump modified, true⟩, ⟨.broadcast, 1, grammarExternals.dump noOrders, true⟩] := by
  have hr : RefreshOk grammarExternals (Operation.modify.world grammarExternals firstRequest answering) := by
    rw [world_firstRequest]
    exact refreshOk_answering
  have hd : Fetched grammarExternals (Operation.modify.world grammarExternals firstRequest answering)
      (.obj [("result", .arr [])]) := by
    rw [world_firstRequest]
    exact ⟨.inl answering_fresh, parse_emptyListing⟩
  have hm : (Operation.modify.world grammarExternals firstRequest answering).members.head = [(1, .opened)] := by
    rw [world_firstRequest]
    rfl
  exact @frames_oneMember grammarExternals answering 1 1 firstRequest _ _ _ kindOf_firstRequest result_firstRequest
    (decode_dump_ne _ _) rfl hr hd hm

private theorem answerTo_firstAsked : answerTo grammarExternals 1 firstAsked answering =
    some ⟨.reply, 1, grammarExternals.dump modified, true⟩ := by
  have hframes : frames (processMessage grammarExternals ⟨1, firstAsked.payload, .text⟩ answering).trace = _ :=
    frames_firstRequest
  rw [answerTo, hframes]
  rfl

private theorem heard_modified (d : Dialog) : d.heard plainScript (grammarExternals.dump modified) =
    ⟨d.id, { d.form with isSubmitting := false, message := some ⟨.success, "Order modified successfully"⟩ }⟩ := by
  have ht : HasType (grammarExternals.dump modified) "modify_response" := hasType_dump (by rfl)
  have he : (modified.stored grammarExternals.spelling).canon.get? "error" = none := by
    rw [Json.get?_canon, Json.get?_stored]
    rfl
  exact congrArg (Dialog.mk d.id) (ModifyOrderForm.handleMessage_success ((strictEq_typeOf _ _).mpr ht)
    (grammarExternals.dump_reads modified) he d.form)

/-- The first order's dialog is open and has sent its request. -/
def firstSubmitted : Dialogs := ⟨1, [⟨0, { tenForm "ETH-1" with isSubmitting := true }⟩], [firstAsked], []⟩

/-- Its request has been answered, and the form shows a success. -/
def firstModified : Dialogs :=
  ⟨1, [⟨0, { tenForm "ETH-1" with message := some ⟨.success, "Order modified successfully"⟩ }⟩], [],
    [⟨0, some (.str "ETH-1"), some firstAsked⟩]⟩

private theorem firstSubmitted_run {guard : Dialogs → DialogAct → Prop}
    (hopen : ∀ s : Dialogs, s.pending = [] → ∀ o a p, guard s (.open o a p))
    (hsubmit : ∀ s : Dialogs, (∀ d ∈ s.mounted, d.id = 0) → guard s (.submit 0)) :
    (dialogs grammarExternals plainScript [] 1).Run guard
      [.open (some (.str "ETH-1")) (some (numberOf 10)) (some .null), .submit 0] firstSubmitted := by
  have r0 : (dialogs grammarExternals plainScript [] 1).Run guard [] ⟨0, [], [], []⟩ := .start rfl
  have r1 := r0.next (.open (some (.str "ETH-1")) (some (numberOf 10)) (some .null)) (hopen _ rfl _ _ _)
    ⟨_, mount_ten "ETH-1", rfl⟩
  refine r1.next (.submit 0) (hsubmit _ ?_) ⟨⟨0, tenForm "ETH-1"⟩, by simp [Dialogs.opened], rfl, rfl, rfl⟩
  simp [Dialogs.opened]

private theorem responded_firstSubmitted : firstSubmitted.responded plainScript firstAsked []
    (answerTo grammarExternals 1 firstAsked answering) = firstModified := by
  rw [answerTo_firstAsked]
  simp [Dialogs.responded, Dialogs.delivered, firstSubmitted, firstModified, Dialog.reacts, heard_modified, tenForm]

private theorem delivered_update :
    firstModified.delivered plainScript (grammarExternals.dump noOrders) none = firstModified := by
  have ht : strictEq (typeOf (grammarExternals.dump noOrders)) "modify_response" = false :=
    strictEq_of_hasType (hasType_dump (get?_openOrdersUpdate _)) (by decide)
  simp [Dialogs.delivered, firstModified, reacts_foreign ht, Dialog.heard, ModifyOrderForm.handleMessage_ignored ht]

private theorem update_brought : (Source.message ⟨1, firstRequest, .text⟩ answering).Brings grammarExternals [] 1
    (grammarExternals.dump noOrders) := by
  refine ⟨⟨.broadcast, 1, grammarExternals.dump noOrders, true⟩, ?_, ⟨rfl, rfl, rfl⟩, fun _ => ?_⟩
  · rw [frames_firstRequest]
    exact .tail _ (.head _)
  · rw [frames_firstRequest]
    exact .head _

/-- The response to a dialog's request reaches that dialog, and the update after
it changes nothing. -/
theorem first_outcome_own : ∃ as s,
    (dialogs grammarExternals plainScript [] 1).Run (fun s a => OneAtATime s a ∧ Unspliced grammarExternals a) as s ∧
      s.changes = [⟨0, some (.str "ETH-1"), some firstAsked⟩] ∧ s.Attributed := by
  have r0 := @firstSubmitted_run (fun s a => OneAtATime s a ∧ Unspliced grammarExternals a)
    (fun s h o a p => ⟨h, trivial⟩) (fun s h => ⟨h, trivial⟩)
  have r1 := r0.next (.respond answering) ⟨trivial, trivial⟩ ⟨firstAsked, [], rfl, responded_firstSubmitted.symm⟩
  have r2 := r1.next (.frame (.message ⟨1, firstRequest, .text⟩ answering) (grammarExternals.dump noOrders))
    ⟨trivial, fun hk => by simp [kindOf_firstRequest] at hk⟩ ⟨update_brought, delivered_update.symm⟩
  exact ⟨_, _, r2, rfl, outcomes_are_own readersAgree_grammar r2⟩

end Outcomes

section Swapped

private theorem outcome_taken_over : ∃ as s,
    (dialogs grammarExternals plainScript [] 1).Run (fun _ a => Unspliced grammarExternals a) as s ∧ ¬ s.Attributed := by
  have r0 := @firstSubmitted_run (fun _ a => Unspliced grammarExternals a) (fun _ _ _ _ _ => trivial) (fun _ _ => trivial)
  have r1 := r0.next (.close 0) trivial rfl
  have r2 := r1.next (.open (some (.str "ETH-2")) (some (numberOf 10)) (some .null)) trivial ⟨_, mount_ten "ETH-2", rfl⟩
  have r3 := r2.next (.respond answering) trivial ⟨firstAsked, [], rfl, rfl⟩
  refine ⟨_, _, r3, fun h => ?_⟩
  have hc := h ⟨1, some (.str "ETH-2"), some firstAsked⟩ ?_
  · obtain ⟨q, hq, hd, _⟩ := hc
    rw [Option.some_inj] at hq
    subst hq
    cases hd
  · rw [answerTo_firstAsked]
    simp [Dialogs.responded, Dialogs.delivered, Dialogs.opened, Dialogs.closed, firstSubmitted, Dialog.reacts,
      heard_modified, tenForm]

def forgedText : String := "\",\"error\":\"\",\"type\":\"modify_response"

/-- Orders are refused with a body that closes the quotes it is glued between. -/
def forging : World := { tokenCached with api := .const (some ⟨400, encode forgedText⟩) }

def forgedReply : Bytes := orderError (encode "Failed to process order: " ++ encode forgedText)

def forgedMembers : List (String × Json) :=
  [("type", .str "order_response"), ("error", .str "Failed to process order: "), ("error", .str ""),
    ("type", .str "modify_response")]

private theorem readText_forgedReply : readText forgedReply = some (.obj forgedMembers) := by
  have henc : forgedReply = encode ("\x7b\"type\": \"order_response\", \"error\": \"" ++
      ("Failed to process order: " ++ forgedText) ++ "\"\x7d") := by
    simp only [forgedReply, orderError, encode_append, List.append_assoc]
  rw [henc, readText_encode]
  rfl

private theorem forgedReply_typed : HasType forgedReply "modify_response" := ⟨_, readText_forgedReply, rfl⟩

private theorem heard_forgedReply (d : Dialog) : (d.heard plainScript forgedReply).form.isSubmitting = false := by
  have ht : strictEq (typeOf forgedReply) "modify_response" = true := (strictEq_typeOf _ _).mpr forgedReply_typed
  rw [Dialog.heard, ModifyOrderForm.handleMessage, onType_read ht readText_forgedReply]
  rfl

private theorem forgedReply_brought : (Source.message ⟨1, printText sellOrder, .text⟩ forging).Brings grammarExternals [] 1
    forgedReply := by
  have ha : Operation.place.result grammarExternals (printText sellOrder) forging = .ok forgedReply :=
    result_glued (gluedText_refused (by decide))
  have hq : queues forging.sender.head forgedReply .text = true :=
    (queues_iff _ _ _).mpr ⟨rfl, fun _ => forgedReply_typed.decode_ne⟩
  obtain ⟨rest, hframes, _⟩ := @frames_order grammarExternals ⟨1, printText sellOrder, .text⟩ forging _ _
    kindOf_sellOrder ha hq
  refine ⟨replyFrame ⟨1, printText sellOrder, .text⟩ forgedReply forging.sender.head, ?_, ⟨rfl, hq, rfl⟩, fun hk => ?_⟩
  · rw [hframes]
    exact .head _
  · simp [kindOf_sellOrder] at hk

private theorem outcome_forged : ∃ as s,
    (dialogs grammarExternals plainScript [] 1).Run OneAtATime as s ∧ ¬ s.Attributed := by
  have r0 := @firstSubmitted_run OneAtATime (fun s h o a p => h) (fun s h => h)
  have r1 := r0.next (.frame _ forgedReply) trivial ⟨forgedReply_brought, rfl⟩
  refine ⟨_, _, r1, fun h => ?_⟩
  have hc := h ⟨0, some (.str "ETH-1"), none⟩ ?_
  · obtain ⟨q, hq, _⟩ := hc
    cases hq
  · simp [Dialogs.delivered, firstSubmitted, Dialog.reacts, heard_forgedReply, tenForm]

/-- The response for an order whose dialog was closed is shown by the dialog of the
order opened next, and the reply to a refused order can be read as a response. -/
theorem outcome_swapped :
    (¬ ∀ (env : Externals) (sc : Script) (supported : List String) (me : Hdl), ReadersAgree env → ∀ as s,
      (dialogs env sc supported me).Run (fun _ a => Unspliced env a) as s → s.Attributed) ∧
    ¬ ∀ (env : Externals) (sc : Script) (supported : List String) (me : Hdl), ReadersAgree env → ∀ as s,
      (dialogs env sc supported me).Run OneAtATime as s → s.Attributed := by
  obtain ⟨as, s, r, hs⟩ := outcome_taken_over
  obtain ⟨as', s', r', hs'⟩ := outcome_forged
  exact ⟨fun h => hs (h _ _ _ _ readersAgree_grammar _ _ r), fun h => hs' (h _ _ _ _ readersAgree_grammar _ _ r')⟩

end Swapped
end DeribitClientServer.System
