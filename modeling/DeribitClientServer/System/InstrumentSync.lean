import DeribitClientServer.Client.Instruments
import DeribitClientServer.Library.Asking
import DeribitClientServer.Server.SingleReply
import DeribitClientServer.System.ListState

/-! The instruments of the panel against what the user has chosen. Requests and
replies keep their order, and no reply says which request it answers. -/
namespace DeribitClientServer.System
open Library Library.JsonText Library.Utf8 Server Client

/-- A message or frame on its way; a request for instruments, or the reply to
one, is marked with the choice it is for. -/
structure Parcel where
  choice : Option Choice
  bytes : Bytes

structure Session where
  view : ChoicePanel
  up : List Parcel
  down : List Parcel

inductive SessionAct where
  | opened
  | setCurrency (currency : Currency)
  | setInstrumentType (instrumentType : InstrumentType)
  | selectInstrument (name : Value)
  | other (message : Bytes)
  | cast (payload : Bytes)
  | serve (w : World)
  | receive

section Steps
variable (env : Externals) (sc : Script) (me : Hdl) (upstream : String → List Json → Prop)

/-- What a handler of the panel sends asks for the choice it leaves. -/
def Session.ran (s : Session) (r : Ran ChoicePanel Bytes Thrown Unit) : Session :=
  { s with view := r.state, up := s.up ++ r.trace.map (Parcel.mk (some r.state.choice)) }

/-- The frames that reach the client while one of its messages is handled. -/
def Parcel.served (x : Parcel) (w : World) : List Parcel :=
  ((frames (processMessage env ⟨me, x.bytes, .text⟩ w).trace).filter (fun f => f.hdl = me && f.queued)).map
    (fun f => ⟨if f.via = .reply then x.choice else none, f.payload⟩)

def Session.received (s : Session) (x : Parcel) (rest : List Parcel) : Session :=
  { s with view := { s.view with panel := (TradingPanel.onmessage sc x.bytes s.view.panel).state }, down := rest }

/-- The call for a list is answered with status 200 and an array that upstream
has for its path. -/
def ListsAnswered (x : Parcel) (w : World) : Prop :=
  ∀ j, kindOf env x.bytes = .instruments j →
    ∀ q ∈ apiRequests (processMessage env ⟨me, x.bytes, .text⟩ w).trace,
      ∃ body data xs, okBody w.api.head = some body ∧ parseJson env body = .ok data ∧
        data.get? "result" = some (.arr xs) ∧ upstream q.path xs

/-- The connection is opened once and stays open. What else the client sends is
neither a request for instruments nor an echo. -/
def session : Transition Session SessionAct where
  initial s := s = ⟨.initial, [], []⟩
  step s a s' :=
    match a with
    | .opened => s.view.panel.isConnected = false ∧ s' = s.ran (ChoicePanel.onopen s.view)
    | .setCurrency currency =>
        s.view.panel.isConnected = true ∧ s' = s.ran (ChoicePanel.setCurrency currency s.view)
    | .setInstrumentType instrumentType =>
        s.view.panel.isConnected = true ∧ s' = s.ran (ChoicePanel.setInstrumentType instrumentType s.view)
    | .selectInstrument name => s.view.panel.Offers name ∧
        s' = { s with view := { s.view with panel := { s.view.panel with selectedInstrument := name } } }
    | .other m => (∀ j, kindOf env m ≠ .instruments j) ∧ kindOf env m ≠ .echo ∧
        s' = { s with up := s.up ++ [⟨none, m⟩] }
    | .cast p => Broadcasts env p ∧ s' = { s with down := s.down ++ [⟨none, p⟩] }
    | .serve w => SenderOpen w ∧ ∃ x rest, s.up = x :: rest ∧ ListsAnswered env me upstream x w ∧
        s' = { s with up := rest, down := s.down ++ x.served env me w }
    | .receive => ∃ x rest, s.down = x :: rest ∧ s' = s.received sc x rest

/-- No text glued into an order's reply makes a list of it. -/
def OrdersNoLists (s : Session) : SessionAct → Prop
  | .serve w => ∀ x ∈ s.up.head?, kindOf env x.bytes = .order .place →
      ∀ text, gluedText env x.bytes w = some text → ¬ Splices text "instruments"
  | _ => True

end Steps

/-- The choices whose request or reply is on its way, oldest first. -/
def Session.inFlight (s : Session) : List Choice := (s.down ++ s.up).filterMap Parcel.choice

def choicePath (c : Choice) : String := instrumentsPath c.currency.text c.instrumentType.text

/-- With no request or reply in flight, the instruments are what upstream has for
the choice. -/
def Session.Converged (upstream : String → List Json → Prop) (s : Session) : Prop :=
  s.view.panel.isConnected = true → s.inFlight = [] →
    ∃ xs, upstream (choicePath s.view.choice) xs ∧ s.view.panel.instruments = some (.arr (xs.map Json.canon))

section Requests
variable {env : Externals} {me : Hdl} {w : World}

/-- The server takes what the panel sends for a request for its choice. -/
theorem kindOf_request (env : Externals) (c : Choice) :
    ∃ j, kindOf env (printText c.request) = .instruments j ∧
      instrumentsQuery env j = .ok (c.currency.text, c.instrumentType.text) := by
  have hv : c.request.respell env.spelling = some c.request := by
    simp [Choice.request, object, Json.respell, Json.respellMembers]
  have hmember {k s : String} (h : c.request.get? k = some (.str s)) : stringMember env c.request.canon k = .ok s :=
    stringMember_ok_iff.mpr (Json.get?_canon_str_iff.mpr h)
  have ht : stringMember env c.request.canon "type" = .ok "get_instruments" :=
    hmember (by simp [Choice.request, object, Json.get?_obj])
  have hc : stringMember env c.request.canon "currency" = .ok c.currency.text :=
    hmember (by simp [Choice.request, object, Json.get?_obj])
  have hk : stringMember env c.request.canon "kind" = .ok c.instrumentType.text :=
    hmember (by simp [Choice.request, object, Json.get?_obj])
  refine ⟨c.request.canon, ?_, ?_⟩
  · rw [kindOf, parseJson_printed env hv]
    simp only [ht]
    rfl
  · rw [instrumentsQuery, hc, hk]
    rfl

private theorem notMem_append {c : Char} {s t : String} (hs : c ∉ s.toList) (ht : c ∉ t.toList) :
    c ∉ (s ++ t).toList := by
  rw [String.toList_append, List.mem_append]
  exact not_or.mpr ⟨hs, ht⟩

theorem cStr_path (c : Choice) : cStr (choicePath c) = choicePath c := by
  have hroot : '\x00' ∉ "/api/v2/public/get_instruments?currency=".toList := by decide
  have hcurrency : '\x00' ∉ c.currency.text.toList := by cases c.currency <;> decide
  have hname : '\x00' ∉ "&kind=".toList := by decide
  have hkind : '\x00' ∉ c.instrumentType.text.toList := by cases c.instrumentType <;> decide
  exact cStr_of_notMem (notMem_append (notMem_append (notMem_append hroot hcurrency) hname) hkind)

private theorem apiRequests_reply (hdl : Hdl) (p : Bytes) (op : Opcode) (w : World) :
    (reply hdl p op w).trace.filterMap Event.apiRequest? = [] := by
  rw [reply_run]
  rfl

/-- A request for instruments makes one call. -/
theorem apiRequests_request {c : Choice} {j : Json} {msg : Message} (hk : kindOf env msg.payload = .instruments j)
    (hq : instrumentsQuery env j = .ok (c.currency.text, c.instrumentType.text)) :
    apiRequests (processMessage env msg w).trace = [⟨.get, choicePath c, none, []⟩] := by
  have hserve : serve env msg (.instruments j) w =
      (Server.fetchInstruments env c.currency.text c.instrumentType.text w).andThen
        (fun r => reply msg.hdl r msg.opcode) := by
    simp only [serve, Exec.run_bind, Exec.run_ofExcept, hq, Ran.andThen_ok, Ran.after_nil]
  have herror (_ : Exn) (w : World) : (internalError msg w).trace.filterMap Event.apiRequest? = [] :=
    apiRequests_reply _ _ _ w
  rw [processMessage_eq, hk, apiRequests, Ran.filterMap_orElse _ herror, hserve,
    Ran.filterMap_andThen _ (fun p w => apiRequests_reply _ p _ w), ← apiRequests, apiRequests_fetchInstruments,
    ← choicePath, cStr_path]

/-- The reply to a request is all that is sent for it. -/
theorem frames_request {j : Json} {p : Bytes} {msg : Message} (hk : kindOf env msg.payload = .instruments j)
    (ha : answer env msg w (.instruments j) = .ok p) (hq : queues w.sender.head p msg.opcode = true) :
    frames (processMessage env msg w).trace = [replyFrame msg p w.sender.head] := by
  have hans : answer env msg w (kindOf env msg.payload) = .ok p := by
    rw [hk]
    exact ha
  have hh := processMessage_handled env msg w
  generalize frames (processMessage env msg w).trace = fs at hh
  cases hh with
  | ignored hk' => simp [hk] at hk'
  | failed e _ he => simp [hans] at he
  | refused ha' hq' =>
    rw [hans, Except.ok.injEq] at ha'
    subst ha'
    simp [hq] at hq'
  | answered _ ha' _ =>
    rw [hans, Except.ok.injEq] at ha'
    rw [ha']
  | updated hk' _ _ _ _ | unrefreshed hk' _ _ _ _ => simp [hk] at hk'

/-- An array is passed on under the type of a list. -/
theorem instrumentsReply_listing {res : Outcome} {body : Bytes} {data : Json} {xs : List Json}
    (hb : okBody res = some body) (hd : parseJson env body = .ok data) (hr : data.get? "result" = some (.arr xs)) :
    ∃ j, instrumentsReply env res = .ok (env.dump j) ∧ InstrumentsFrame (env.dump j) (xs.map Json.canon) := by
  cases data with
  | obj ms =>
    have ht : typed env "instruments" body = .ok ((Json.obj ms).set "type" (.str "instruments")) := by
      rw [typed, hd]
      rfl
    refine ⟨(Json.obj ms).set "type" (.str "instruments"), ?_, _, env.dump_reads _, ?_, ?_⟩
    · simp only [instrumentsReply, hb, ht]
      rfl
    · exact (get?_dumped_str_iff env).mpr (Json.get?_set_self ⟨ms, rfl⟩)
    · have hset : ((Json.obj ms).set "type" (.str "instruments")).get? "result" = (Json.obj ms).get? "result" :=
        Json.get?_set_ne (by decide) _ _
      rw [get?_dumped_kept env fun v hv => Json.stored_of_get? (stored_of_parsed env hd) (hset.symm.trans hv),
        Json.get?_canon, hset, hr, Option.map_some, Json.canon_arr]
  | null | bool _ | num _ | str _ | arr _ => cases hr

/-- The reply to a request is what reaches the client. -/
theorem served_reply {c : Choice} {m p : Bytes} (hm : m = printText c.request) (ho : SenderOpen w)
    (hr : instrumentsReply env w.api.head = .ok p) (hd : decode p ≠ none) :
    Parcel.served env me ⟨some c, m⟩ w = [⟨some c, p⟩] := by
  obtain ⟨j, hk, hq⟩ := kindOf_request env c
  rw [← hm] at hk
  have ha : answer env ⟨me, m, .text⟩ w (.instruments j) = .ok p := by
    simp only [answer, hq]
    exact hr
  have hopen : w.sender.head = .opened := ho 0
  have hqueue : queues w.sender.head p .text = true := (queues_iff _ _ _).mpr ⟨hopen, fun _ => hd⟩
  have hframes : frames (processMessage env ⟨me, m, .text⟩ w).trace = [⟨.reply, me, p, true⟩] := by
    rw [frames_request hk ha hqueue, replyFrame, hqueue]
  rw [Parcel.served, hframes]
  simp

variable {upstream : String → List Json → Prop}

/-- A request brings its reply, with what upstream has for its choice. -/
theorem served_request {c : Choice} {m : Bytes} (hm : m = printText c.request) (ho : SenderOpen w)
    (hl : ListsAnswered env me upstream ⟨some c, m⟩ w) :
    ∃ p xs, Parcel.served env me ⟨some c, m⟩ w = [⟨some c, p⟩] ∧
      upstream (choicePath c) xs ∧ InstrumentsFrame p (xs.map Json.canon) := by
  obtain ⟨j, hk, hq⟩ := kindOf_request env c
  rw [← hm] at hk
  have hrequests : apiRequests (processMessage env ⟨me, m, .text⟩ w).trace = [⟨.get, choicePath c, none, []⟩] :=
    apiRequests_request hk hq
  have hanswer := hl j hk
  rw [hrequests, List.forall_mem_singleton] at hanswer
  obtain ⟨body, data, xs, hb, hd, hr, hu⟩ := hanswer
  obtain ⟨r, hreply, hframe⟩ := instrumentsReply_listing hb hd hr
  exact ⟨_, xs, served_reply hm ho hreply (decode_dump_ne env r), hu, hframe⟩

/-- What is sent for another message is no list. -/
theorem served_other {m : Bytes} (hi : ∀ j, kindOf env m ≠ .instruments j) (he : kindOf env m ≠ .echo)
    (hs : kindOf env m = .order .place → ∀ text, gluedText env m w = some text → ¬ Splices text "instruments") :
    ∀ y ∈ Parcel.served env me ⟨none, m⟩ w, y.choice = none ∧ strictEq (typeOf y.bytes) "instruments" = false := by
  intro y hy
  obtain ⟨f, hf, rfl⟩ := List.mem_map.mp hy
  refine ⟨by simp, ?_⟩
  cases frame_origin (List.mem_of_mem_filter hf) with
  | failed state => exact strictEq_error _
  | echoed state hk => exact absurd hk he
  | instruments state hk _ => exact absurd hk (hi _)
  | @operation op p state hk h =>
    cases op with
    | place => exact strictEq_place h (hs hk) (by decide)
    | modify | cancel => exact strictEq_edit (by decide) h (by decide)
  | updated hk hd hv hp =>
    change strictEq (typeOf f.payload) "instruments" = false
    rw [hp]
    exact strictEq_of_hasType (hasType_dump (get?_openOrdersUpdate _)) (by decide)

private theorem broadcast_no_list {p : Bytes} (h : Broadcasts env p) : strictEq (typeOf p) "instruments" = false := by
  obtain ⟨l, hl⟩ := h.dumpedAs
  apply strictEq_of_hasType hl.hasType
  cases l <;> decide

end Requests

/-- The session is in step with an asking party: its questions are the choices in
flight, and what the party holds is what the panel shows. -/
structure Follows (env : Externals) (upstream : String → List Json → Prop) (s : Session)
    (t : Asking Choice (List Json)) : Prop where
  unopened : s.view.panel.isConnected = false → s.view.choice = .initial
  wanted : s.view.panel.isConnected = true → t.wanted = some s.view.choice
  pending : t.pending = s.inFlight
  held : ∀ xs, t.held = some xs → s.view.panel.instruments = some (.arr (xs.map Json.canon))
  requests : ∀ x ∈ s.up, ∀ c, x.choice = some c → x.bytes = printText c.request
  others : ∀ x ∈ s.up, x.choice = none → (∀ j, kindOf env x.bytes ≠ .instruments j) ∧ kindOf env x.bytes ≠ .echo
  replies : ∀ x ∈ s.down, ∀ c, x.choice = some c →
    ∃ xs, upstream (choicePath c) xs ∧ InstrumentsFrame x.bytes (xs.map Json.canon)
  foreign : ∀ x ∈ s.down, x.choice = none → strictEq (typeOf x.bytes) "instruments" = false

section Simulation
variable {env : Externals} {sc : Script} {me : Hdl} {upstream : String → List Json → Prop}
  {s : Session} {t : Asking Choice (List Json)}

private theorem inFlight_eq (s : Session) :
    s.inFlight = s.down.filterMap Parcel.choice ++ s.up.filterMap Parcel.choice :=
  List.filterMap_append ..

/-- A handler that leaves the list alone and sends a request asks a question. -/
private theorem follows_asked (hs : Follows env upstream s t) {r : Ran ChoicePanel Bytes Thrown Unit}
    (htrace : r.trace = [printText r.state.choice.request]) (hconn : r.state.panel.isConnected = true)
    (hlist : r.state.panel.instruments = s.view.panel.instruments) :
    Follows env upstream (s.ran r) (t.asked r.state.choice) := by
  unfold Session.ran
  rw [htrace]
  refine ⟨fun hn => ?_, fun _ => rfl, ?_, fun xs hx => hlist.trans (hs.held xs hx), ?_, ?_, hs.replies, hs.foreign⟩
  · simp [hconn] at hn
  · simp [Asking.asked, hs.pending, inFlight_eq]
  · refine List.forall_mem_append.mpr ⟨hs.requests, List.forall_mem_singleton.mpr (fun c hc => ?_)⟩
    rw [Option.some_inj.mp hc]
  · exact List.forall_mem_append.mpr ⟨hs.others, List.forall_mem_singleton.mpr (by rintro ⟨⟩)⟩

/-- The same choice asks nothing, and another asks for it. -/
private theorem follows_chosen (hs : Follows env upstream s t) (hconn : s.view.panel.isConnected = true) (c : Choice) :
    Follows env upstream (s.ran (ChoicePanel.choose c s.view)) t ∨
      Follows env upstream (s.ran (ChoicePanel.choose c s.view)) (t.asked c) := by
  have hrun := ChoicePanel.choose_run s.view c
  by_cases hc : c = s.view.choice
  · rw [if_pos hc] at hrun
    rw [hrun, Session.ran, List.map_nil, List.append_nil]
    exact .inl hs
  · rw [if_neg hc, if_pos hconn] at hrun
    rw [hrun]
    exact .inr (follows_asked hs rfl hconn rfl)

private theorem follows_served (hs : Follows env upstream s t) {w : World} {x : Parcel} {rest : List Parcel}
    (hup : s.up = x :: rest) (ho : SenderOpen w) (hl : ListsAnswered env me upstream x w)
    (hg : OrdersNoLists env s (.serve w)) :
    Follows env upstream { s with up := rest, down := s.down ++ x.served env me w } t := by
  have hx : x ∈ s.up := hup ▸ List.mem_cons_self
  have hrest {y : Parcel} (hy : y ∈ rest) : y ∈ s.up := hup ▸ List.mem_cons_of_mem x hy
  have hp := hs.pending
  rw [inFlight_eq, hup] at hp
  rcases x with ⟨choice, m⟩
  cases choice with
  | some c =>
    obtain ⟨p, xs, hserved, hu, hframe⟩ := @served_request env me w upstream c m (hs.requests _ hx c rfl) ho hl
    rw [hserved]
    refine ⟨hs.unopened, hs.wanted, ?_, hs.held, fun y hy => hs.requests y (hrest hy),
      fun y hy => hs.others y (hrest hy), ?_, ?_⟩
    · simpa [inFlight_eq] using hp
    · refine List.forall_mem_append.mpr ⟨hs.replies, List.forall_mem_singleton.mpr (fun c' hc' => ?_)⟩
      rw [← Option.some_inj.mp hc']
      exact ⟨xs, hu, hframe⟩
    · exact List.forall_mem_append.mpr ⟨hs.foreign, List.forall_mem_singleton.mpr (by rintro ⟨⟩)⟩
  | none =>
    obtain ⟨hi, he⟩ := hs.others _ hx rfl
    have hserved := @served_other env me w m hi he (hg ⟨none, m⟩ (by rw [hup]; rfl))
    have hnone : (Parcel.served env me ⟨none, m⟩ w).filterMap Parcel.choice = [] :=
      List.filterMap_eq_nil_iff.mpr (fun y hy => (hserved y hy).1)
    refine ⟨hs.unopened, hs.wanted, ?_, hs.held, fun y hy => hs.requests y (hrest hy),
      fun y hy => hs.others y (hrest hy), ?_, ?_⟩
    · simpa [inFlight_eq, hnone] using hp
    · refine List.forall_mem_append.mpr ⟨hs.replies, fun y hy c hc => ?_⟩
      rw [(hserved y hy).1] at hc
      cases hc
    · exact List.forall_mem_append.mpr ⟨hs.foreign, fun y hy _ => (hserved y hy).2⟩

private theorem follows_received (hs : Follows env upstream s t) {x : Parcel} {rest : List Parcel}
    (hdown : s.down = x :: rest) :
    Follows env upstream (s.received sc x rest) t ∨
      ∃ c pending xs, t.pending = c :: pending ∧ upstream (choicePath c) xs ∧
        Follows env upstream (s.received sc x rest) (t.answered pending xs) := by
  have hx : x ∈ s.down := hdown ▸ List.mem_cons_self
  have hrest {y : Parcel} (hy : y ∈ rest) : y ∈ s.down := hdown ▸ List.mem_cons_of_mem x hy
  have hp := hs.pending
  rw [inFlight_eq, hdown] at hp
  rcases x with ⟨choice, p⟩
  unfold Session.received
  cases choice with
  | none =>
    rw [TradingPanel.onmessage_ignored (hs.foreign _ hx rfl)]
    refine .inl ⟨hs.unopened, hs.wanted, ?_, hs.held, hs.requests, hs.others, fun y hy => hs.replies y (hrest hy),
      fun y hy => hs.foreign y (hrest hy)⟩
    simpa [inFlight_eq] using hp
  | some c =>
    obtain ⟨xs, hu, hframe⟩ := hs.replies _ hx c rfl
    refine .inr ⟨c, _, xs, hp, hu, ?_⟩
    rw [TradingPanel.onmessage_frame hframe]
    refine ⟨hs.unopened, hs.wanted, ?_, fun ys hy => ?_, hs.requests, hs.others, fun y hy => hs.replies y (hrest hy),
      fun y hy => hs.foreign y (hrest hy)⟩
    · simp [Asking.answered, inFlight_eq]
    · rw [Option.some_inj.mp hy]

/-- Every guarded step of the session is a question, an answer, or neither. -/
theorem session_simulated {a : SessionAct} {s' : Session} (hs : Follows env upstream s t) (hg : OrdersNoLists env s a)
    (h : (session env sc me upstream).step s a s') :
    Follows env upstream s' t ∨ ∃ act t', (Asking.system (fun c => upstream (choicePath c))).step t act t' ∧
      Follows env upstream s' t' := by
  have hchosen (hconn : s.view.panel.isConnected = true) (c : Choice) :
      Follows env upstream (s.ran (ChoicePanel.choose c s.view)) t ∨ ∃ act t',
        (Asking.system (fun c => upstream (choicePath c))).step t act t' ∧
          Follows env upstream (s.ran (ChoicePanel.choose c s.view)) t' :=
    (follows_chosen hs hconn c).imp_right (fun hf => ⟨.ask c, _, rfl, hf⟩)
  cases a with
  | opened =>
    obtain ⟨hconn, rfl⟩ := h
    refine .inr ⟨.ask s.view.choice, _, rfl, ?_⟩
    rw [ChoicePanel.onopen_run]
    refine follows_asked hs ?_ rfl rfl
    rw [hs.unopened hconn]
  | setCurrency currency =>
    obtain ⟨hconn, rfl⟩ := h
    exact hchosen hconn _
  | setInstrumentType instrumentType =>
    obtain ⟨hconn, rfl⟩ := h
    exact hchosen hconn _
  | selectInstrument name =>
    obtain ⟨_, rfl⟩ := h
    exact .inl ⟨hs.unopened, hs.wanted, hs.pending, hs.held, hs.requests, hs.others, hs.replies, hs.foreign⟩
  | other m =>
    obtain ⟨hi, he, rfl⟩ := h
    refine .inl ⟨hs.unopened, hs.wanted, ?_, hs.held,
      List.forall_mem_append.mpr ⟨hs.requests, List.forall_mem_singleton.mpr (by rintro c ⟨⟩)⟩,
      List.forall_mem_append.mpr ⟨hs.others, List.forall_mem_singleton.mpr (fun _ => ⟨hi, he⟩)⟩, hs.replies, hs.foreign⟩
    simpa [inFlight_eq] using hs.pending
  | cast p =>
    obtain ⟨hp, rfl⟩ := h
    refine .inl ⟨hs.unopened, hs.wanted, ?_, hs.held, hs.requests, hs.others,
      List.forall_mem_append.mpr ⟨hs.replies, List.forall_mem_singleton.mpr (by rintro c ⟨⟩)⟩,
      List.forall_mem_append.mpr ⟨hs.foreign, List.forall_mem_singleton.mpr (fun _ => broadcast_no_list hp)⟩⟩
    simpa [inFlight_eq] using hs.pending
  | serve w =>
    obtain ⟨ho, x, rest, hup, hl, rfl⟩ := h
    exact .inl (follows_served hs hup ho hl hg)
  | receive =>
    obtain ⟨x, rest, hdown, rfl⟩ := h
    apply (follows_received hs hdown).imp_right
    rintro ⟨c, pending, xs, hp, hu, hf⟩
    exact ⟨.answer xs, _, ⟨c, pending, hp, hu, rfl⟩, hf⟩

/-- As long as no text glued into an order's reply makes a list of it, the
instruments are those of the choice whenever no request or reply is in flight. -/
theorem instruments_converge {as : List SessionAct} (r : (session env sc me upstream).Run (OrdersNoLists env) as s) :
    s.Converged upstream := by
  have hsim : ∃ acts t, (Asking.system (fun c => upstream (choicePath c))).Run Transition.anyStep acts t ∧
      Follows env upstream s t := by
    refine r.simulated (Follows env upstream) ?_ (fun s t a s' hs hg h => session_simulated hs hg h)
    rintro s rfl
    exact ⟨_, rfl, fun _ => rfl, by rintro ⟨⟩, rfl, by simp, by simp, by simp, by simp, by simp⟩
  obtain ⟨acts, t, rt, hs⟩ := hsim
  intro hconn hquiet
  obtain ⟨xs, hx, hu⟩ := Asking.settled rt (hs.pending.trans hquiet) s.view.choice (hs.wanted hconn)
  exact ⟨xs, hu, hs.held xs hx⟩

end Simulation

section Spliced

/-- What upstream has for any path. -/
def futuresListed (_ : String) (xs : List Json) : Prop := futures.canon.get? "result" = some (.arr xs)

/-- The connection has been opened and the first request is on its way. -/
def openedSession : Session := (⟨.initial, [], []⟩ : Session).ran (ChoicePanel.onopen .initial)

/-- The first list has been delivered. -/
def listedSession : Session :=
  ({ openedSession with up := [] }).received plainScript ⟨some .initial, grammarExternals.dump futuresReply⟩ []

private theorem listsAnswered_trading (x : Parcel) : ListsAnswered grammarExternals 1 futuresListed x trading := by
  obtain ⟨xs, hxs, _⟩ := entries_futures
  exact fun _ _ _ _ => ⟨_, _, xs, rfl, parse_futures, hxs, hxs⟩

private theorem noLists_request {s : Session} {c : Choice} {m : Bytes} (hm : m = printText c.request)
    (hup : s.up = [⟨some c, m⟩]) (w : World) : OrdersNoLists grammarExternals s (.serve w) := by
  intro x hx hk
  rw [hup, List.head?_cons, Option.mem_some_iff] at hx
  have hb : x.bytes = printText c.request := by
    rw [← hx]
    exact hm
  obtain ⟨j, hj, _⟩ := kindOf_request grammarExternals c
  rw [hb, hj] at hk
  cases hk

private theorem listedSession_run : (session grammarExternals plainScript 1 futuresListed).Run
    (OrdersNoLists grammarExternals) [.opened, .serve trading, .receive] listedSession := by
  have hserved : Parcel.served grammarExternals 1 ⟨some .initial, printText Choice.initial.request⟩ trading =
      [⟨some .initial, grammarExternals.dump futuresReply⟩] :=
    served_reply rfl (fun _ => rfl) reply_futures (decode_dump_ne _ _)
  have r0 : (session grammarExternals plainScript 1 futuresListed).Run (OrdersNoLists grammarExternals) []
      ⟨.initial, [], []⟩ := .start rfl
  have r1 := r0.next .opened trivial ⟨rfl, rfl⟩
  have hup : openedSession.up = [⟨some .initial, printText Choice.initial.request⟩] := rfl
  have r2 := r1.next (.serve trading) (noLists_request rfl hup trading)
    ⟨fun _ => rfl, _, [], hup, listsAnswered_trading _, rfl⟩
  rw [hserved] at r2
  exact r2.next .receive trivial ⟨_, [], List.nil_append _, rfl⟩

/-- The first list is that of the first choice. -/
theorem first_list_converged : listedSession.Converged futuresListed := instruments_converge listedSession_run

def spliceText : String := "\",\"type\":\"instruments\",\"result\":[],\"x\":\""

/-- Orders are refused with a body that closes the quotes it is glued between. -/
def splicing : World := { tokenCached with api := .const (some ⟨400, encode spliceText⟩) }

def splicedReply : Bytes := orderError (encode "Failed to process order: " ++ encode spliceText)

private theorem instrumentsFrame_spliced : InstrumentsFrame splicedReply [] := by
  have henc : splicedReply = encode ("\x7b\"type\": \"order_response\", \"error\": \"" ++
      ("Failed to process order: " ++ spliceText) ++ "\"\x7d") := by
    simp only [splicedReply, orderError, encode_append, List.append_assoc]
  refine ⟨.obj [("type", .str "order_response"), ("error", .str "Failed to process order: "),
    ("type", .str "instruments"), ("result", .arr []), ("x", .str "")], ?_, rfl, rfl⟩
  rw [henc, readText_encode]
  rfl

private theorem result_splicing :
    Operation.place.result grammarExternals (printText sellOrder) splicing = .ok splicedReply :=
  result_glued (gluedText_refused (by decide))

private theorem served_splicing : ∃ l, Parcel.served grammarExternals 1 ⟨none, printText sellOrder⟩ splicing =
    ⟨none, splicedReply⟩ :: l ∧ l.filterMap Parcel.choice = [] := by
  have hd : decode splicedReply ≠ none := by
    obtain ⟨j, hj, _⟩ := instrumentsFrame_spliced
    intro hn
    simp [readText, hn] at hj
  have hqueue : queues splicing.sender.head splicedReply .text = true := (queues_iff _ _ _).mpr ⟨rfl, fun _ => hd⟩
  obtain ⟨rest, hframes, _⟩ := @frames_order grammarExternals ⟨1, printText sellOrder, .text⟩ splicing _ _
    kindOf_sellOrder result_splicing hqueue
  refine ⟨(rest.filter (fun f => f.hdl = 1 && f.queued)).map (fun f => ⟨if f.via = .reply then none else none, f.payload⟩),
    ?_, ?_⟩
  · rw [Parcel.served, hframes, List.filter_cons_of_pos (by simp [replyFrame, hqueue]), List.map_cons]
    rfl
  · simp [List.filterMap_map]

/-- An order and its reply leave nothing in flight that was not before. -/
private theorem order_run {s : Session} {as : List SessionAct} {m p : Bytes} {w : World} {l : List Parcel}
    (r : (session grammarExternals plainScript 1 futuresListed).Run Transition.anyStep as s) (hup : s.up = [])
    (hdown : s.down = []) (hk : kindOf grammarExternals m = .order .place) (ho : SenderOpen w)
    (hserved : Parcel.served grammarExternals 1 ⟨none, m⟩ w = ⟨none, p⟩ :: l) (hl : l.filterMap Parcel.choice = []) :
    ∃ as' s', (session grammarExternals plainScript 1 futuresListed).Run Transition.anyStep as' s' ∧
      s'.view.panel = (TradingPanel.onmessage plainScript p s.view.panel).state ∧ s'.inFlight = [] := by
  have hlists : ListsAnswered grammarExternals 1 futuresListed ⟨none, m⟩ w := by
    intro j hj
    have hj' := hk.symm.trans hj
    cases hj'
  have r1 := r.next (.other m) trivial ⟨by simp [hk], by simp [hk], rfl⟩
  have r2 := r1.next (.serve w) trivial ⟨ho, ⟨none, m⟩, [], congrArg (fun up => up ++ _) hup, hlists, rfl⟩
  refine ⟨_, _, r2.next .receive trivial ⟨⟨none, p⟩, l, ?_, rfl⟩, rfl, ?_⟩
  · rw [hdown, hserved, List.nil_append]
  · simp [Session.received, inFlight_eq, hl]

private theorem listedSession_quiet : listedSession.up = [] ∧ listedSession.down = [] := ⟨rfl, rfl⟩

private theorem received_isConnected {sc : Script} (s : Session) (x : Parcel) (rest : List Parcel) :
    (s.received sc x rest).view.panel.isConnected = s.view.panel.isConnected :=
  TradingPanel.onmessage_isConnected _ _ _

private theorem listedSession_connected : listedSession.view.panel.isConnected = true :=
  (received_isConnected _ _ _).trans rfl

private theorem not_futuresListed_nil (path : String) : ¬ futuresListed path [] := by
  simp [futuresListed, futures, Json.get?_canon, Json.get?_obj]

/-- The reply to a refused order is taken for a list, and empties the panel. -/
theorem refused_order_empties_list : ¬ ∀ (env : Externals) (sc : Script) (me : Hdl) (upstream : String → List Json → Prop)
    as s, (session env sc me upstream).Run Transition.anyStep as s → s.Converged upstream := by
  intro h
  have r : (session grammarExternals plainScript 1 futuresListed).Run Transition.anyStep _ listedSession :=
    listedSession_run.weaken (fun _ _ _ => trivial)
  obtain ⟨l, hserved, hl⟩ := served_splicing
  obtain ⟨as, s, rs, hpanel, hquiet⟩ := order_run r listedSession_quiet.1 listedSession_quiet.2 kindOf_sellOrder
    (fun _ => rfl) hserved hl
  have hconn : s.view.panel.isConnected = true := by
    rw [hpanel, TradingPanel.onmessage_isConnected, listedSession_connected]
  obtain ⟨xs, hxs, hlist⟩ := h _ _ _ _ _ _ rs hconn hquiet
  rw [hpanel, TradingPanel.onmessage_frame instrumentsFrame_spliced, Option.some_inj, Json.arr.injEq, eq_comm,
    List.map_eq_nil_iff] at hlist
  exact not_futuresListed_nil _ (hlist ▸ hxs)

end Spliced
end DeribitClientServer.System
