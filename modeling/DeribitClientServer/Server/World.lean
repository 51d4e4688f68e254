import DeribitClientServer.Server.Externals
import Mathlib.Data.Stream.Init

/-! The server's surroundings as it meets them in time: outcomes of HTTP calls,
clock readings and connection states come from unknown streams. -/
namespace DeribitClientServer.Server
open Library Library.Utf8

structure Response where
  status : Nat
  body : Bytes

/-- A null result is a call without response. -/
abbrev Outcome := Option Response

/-- The body when the call was answered with status 200. -/
def okBody (res : Outcome) : Option Bytes := res.bind (fun r => if r.status = 200 then some r.body else none)

def httpError (res : Outcome) : String :=
  match res with
  | some r => "HTTP Error: " ++ toString r.status
  | none => "Failed to send request"

abbrev Hdl := Nat

inductive SessionState where
  | connecting | opened | closing | closed
  deriving DecidableEq, Repr

inductive Opcode where
  | text | binary
  deriving DecidableEq, Repr

inductive Method where
  | get | post
  deriving DecidableEq, Repr

structure Request where
  method : Method
  path : String
  bearer : Option String
  body : Bytes

inductive Via where
  | reply | broadcast
  deriving DecidableEq, Repr

/-- Effects seen from outside: HTTP requests and payloads handed to send, with
whether the frame was queued. -/
inductive Event where
  | auth (r : Request)
  | api (r : Request)
  | send (via : Via) (hdl : Hdl) (payload : Bytes) (queued : Bool)

/-- A payload handed to send, and whether the connection took it. -/
structure Frame where
  via : Via
  hdl : Hdl
  payload : Bytes
  queued : Bool
  deriving DecidableEq

def Event.frame? : Event → Option Frame
  | .send via hdl payload queued => some ⟨via, hdl, payload, queued⟩
  | .auth _ | .api _ => none

def frames (t : List Event) : List Frame := t.filterMap Event.frame?

@[simp] theorem frames_nil : frames [] = [] := rfl

@[simp] theorem frames_send (via : Via) (hdl : Hdl) (payload : Bytes) (queued : Bool) (t : List Event) :
    frames (.send via hdl payload queued :: t) = ⟨via, hdl, payload, queued⟩ :: frames t := rfl

@[simp] theorem frames_auth (r : Request) (t : List Event) : frames (.auth r :: t) = frames t := rfl

@[simp] theorem frames_api (r : Request) (t : List Event) : frames (.api r :: t) = frames t := rfl

@[simp] theorem frames_append (t u : List Event) : frames (t ++ u) = frames t ++ frames u := by
  simp [frames]

def payloads (t : List Event) : List Bytes := (frames t).map Frame.payload

def Event.apiRequest? : Event → Option Request
  | .api r => some r
  | .auth _ | .send _ _ _ _ => none

/-- The requests of a trace other than those for a token. -/
def apiRequests (t : List Event) : List Request := t.filterMap Event.apiRequest?

/-- Streams still to come and the state the server keeps. The sender's state is
read at each reply, the registered connections with theirs at each broadcast. -/
structure World where
  auth : Stream' Outcome
  api : Stream' Outcome
  steady : Stream' Nat
  system : Stream' Nat
  sender : Stream' SessionState
  members : Stream' (List (Hdl × SessionState))
  noneConnected : Stream' Bool
  accessToken : String
  tokenExpiry : Nat
  pathBuffer : String
  updateTemplate : Json
  lastUpdate : Nat

/-- Nothing answers, nobody is connected and no token is cached. -/
def idleWorld : World where
  auth := .const none
  api := .const none
  steady := .const 0
  system := .const 0
  sender := .const .opened
  members := .const []
  noneConnected := .const true
  accessToken := ""
  tokenExpiry := 0
  pathBuffer := ""
  updateTemplate := .null
  lastUpdate := 0

abbrev Program := Exec World Event Exn

section Primitives

def authCall (r : Request) : Program Outcome := fun w =>
  ⟨.ok w.auth.head, { w with auth := w.auth.tail }, [.auth r]⟩

def apiCall (r : Request) : Program Outcome := fun w =>
  ⟨.ok w.api.head, { w with api := w.api.tail }, [.api r]⟩

def steadyNow : Program Nat := fun w => ⟨.ok w.steady.head, { w with steady := w.steady.tail }, []⟩

def systemNow : Program Nat := fun w => ⟨.ok w.system.head, { w with system := w.system.tail }, []⟩

def connectionsEmpty : Program Bool := fun w =>
  ⟨.ok w.noneConnected.head, { w with noneConnected := w.noneConnected.tail }, []⟩

def senderState : Program SessionState := fun w =>
  ⟨.ok w.sender.head, { w with sender := w.sender.tail }, []⟩

def connections : Program (List (Hdl × SessionState)) := fun w =>
  ⟨.ok w.members.head, { w with members := w.members.tail }, []⟩

/-- The error code of connection::send: the state is checked first, then the
payload of a text frame for UTF-8. -/
def sendCode (state : SessionState) (payload : Bytes) (op : Opcode) : Option String :=
  if state ≠ .opened then some "invalid state"
  else if op = .text ∧ decode payload = none then some "A payload contained invalid data"
  else none

/-- endpoint::send without an error code raises it. -/
def sendTo (via : Via) (hdl : Hdl) (state : SessionState) (payload : Bytes) (op : Opcode) : Program Unit := do
  match sendCode state payload op with
  | none => Exec.emit (.send via hdl payload true)
  | some code => do
      Exec.emit (.send via hdl payload false)
      throw ⟨encode code⟩

end Primitives

section Running
variable (w : World)

@[simp] theorem run_authCall (r : Request) :
    authCall r w = ⟨.ok w.auth.head, { w with auth := w.auth.tail }, [.auth r]⟩ := rfl

@[simp] theorem run_apiCall (r : Request) :
    apiCall r w = ⟨.ok w.api.head, { w with api := w.api.tail }, [.api r]⟩ := rfl

@[simp] theorem run_steadyNow : steadyNow w = ⟨.ok w.steady.head, { w with steady := w.steady.tail }, []⟩ := rfl

@[simp] theorem run_systemNow : systemNow w = ⟨.ok w.system.head, { w with system := w.system.tail }, []⟩ := rfl

@[simp] theorem run_connectionsEmpty :
    connectionsEmpty w = ⟨.ok w.noneConnected.head, { w with noneConnected := w.noneConnected.tail }, []⟩ := rfl

@[simp] theorem run_senderState :
    senderState w = ⟨.ok w.sender.head, { w with sender := w.sender.tail }, []⟩ := rfl

@[simp] theorem run_connections :
    connections w = ⟨.ok w.members.head, { w with members := w.members.tail }, []⟩ := rfl

end Running

/-- m_server.send to the sender of the message being handled. -/
def reply (hdl : Hdl) (payload : Bytes) (op : Opcode) : Program Unit := do
  let state ← senderState
  sendTo .reply hdl state payload op

def sendAll (message : Bytes) (members : List (Hdl × SessionState)) : Program Unit :=
  members.forM (fun member => sendTo .broadcast member.1 member.2 message .text)

def broadcast (message : Bytes) : Program Unit := do
  let members ← connections
  sendAll message members

/-- The connection of the message's sender is open whenever the server sends on it. -/
def SenderOpen (w : World) : Prop := ∀ n, w.sender.get n = .opened

section Sending
variable (w : World)

/-- Whether send takes the payload. -/
def queues (state : SessionState) (payload : Bytes) (op : Opcode) : Bool := (sendCode state payload op).isNone

theorem queues_iff (state : SessionState) (payload : Bytes) (op : Opcode) :
    queues state payload op = true ↔ state = .opened ∧ (op = .text → decode payload ≠ none) := by
  unfold queues sendCode
  split_ifs <;> simp_all

theorem queues_encode (s : String) (op : Opcode) : queues .opened (encode s) op = true := by
  simp [queues_iff]

def sendResult (state : SessionState) (payload : Bytes) (op : Opcode) : Except Exn Unit :=
  match sendCode state payload op with
  | none => .ok ()
  | some code => .error ⟨encode code⟩

theorem sendResult_ok (state : SessionState) (payload : Bytes) (op : Opcode) :
    sendResult state payload op = .ok () ↔ queues state payload op = true := by
  unfold sendResult queues
  cases sendCode state payload op <;> simp

theorem sendTo_run (via : Via) (hdl : Hdl) (state : SessionState) (payload : Bytes) (op : Opcode) :
    sendTo via hdl state payload op w =
      ⟨sendResult state payload op, w, [.send via hdl payload (queues state payload op)]⟩ := by
  unfold sendTo sendResult queues
  cases sendCode state payload op <;> rfl

theorem reply_run (hdl : Hdl) (payload : Bytes) (op : Opcode) :
    reply hdl payload op w =
      ⟨sendResult w.sender.head payload op, { w with sender := w.sender.tail },
        [.send .reply hdl payload (queues w.sender.head payload op)]⟩ := by
  simp [reply, sendTo_run]

/-- Every registered connection is open. -/
def AllOpened (members : List (Hdl × SessionState)) : Prop := ∀ member ∈ members, member.2 = .opened

/-- The sends of one broadcast, which ends at the first that fails. -/
def sends (message : Bytes) : List (Hdl × SessionState) → List Event
  | [] => []
  | (hdl, state) :: members =>
      .send .broadcast hdl message (queues state message .text) ::
        if queues state message .text then sends message members else []

private theorem sendAll_run (message : Bytes) (members : List (Hdl × SessionState)) :
    ∃ x, sendAll message members w = ⟨x, w, sends message members⟩ ∧
      (x = .ok () ↔ ∀ member ∈ members, queues member.2 message .text = true) := by
  induction members with
  | nil => exact ⟨.ok (), rfl, by simp⟩
  | cons member members ih =>
    obtain ⟨hdl, state⟩ := member
    obtain ⟨x, hx, hok⟩ := ih
    have hstep : sendAll message ((hdl, state) :: members) w =
        (sendTo .broadcast hdl state message .text w).andThen (fun _ => sendAll message members) := rfl
    rw [hstep, sendTo_run]
    cases hq : queues state message .text with
    | true =>
      rw [(sendResult_ok state message .text).mpr hq, Ran.andThen_ok, hx]
      exact ⟨x, by simp [sends, hq], by simp [hok, hq]⟩
    | false =>
      cases hr : sendResult state message .text with
      | ok u => simp [(sendResult_ok state message .text).mp hr] at hq
      | error e => exact ⟨.error e, by simp [sends, hq], by simp [hq]⟩

/-- A broadcast of UTF-8 text succeeds exactly when every member is open. -/
theorem broadcast_run {message : Bytes} (hm : decode message ≠ none) :
    ∃ x, broadcast message w = ⟨x, { w with members := w.members.tail }, sends message w.members.head⟩ ∧
      (x = .ok () ↔ AllOpened w.members.head) := by
  obtain ⟨x, hx, hok⟩ := sendAll_run { w with members := w.members.tail } message w.members.head
  refine ⟨x, by simp [broadcast, hx], ?_⟩
  rw [hok]
  simp [queues_iff, hm, AllOpened]

/-- A broadcast makes no request. -/
theorem apiRequests_sends (message : Bytes) (members : List (Hdl × SessionState)) :
    apiRequests (sends message members) = [] := by
  induction members with
  | nil => rfl
  | cons member members ih =>
    rw [sends]
    split
    · exact ih
    · rfl

theorem of_mem_sends {message : Bytes} {f : Frame} {members : List (Hdl × SessionState)}
    (h : f ∈ frames (sends message members)) : f.via = .broadcast ∧ f.payload = message := by
  induction members with
  | nil => simp [sends] at h
  | cons member members ih =>
    obtain ⟨hdl, state⟩ := member
    rw [sends, frames_send] at h
    rcases List.mem_cons.mp h with rfl | h
    · exact ⟨rfl, rfl⟩
    · split at h
      · exact ih h
      · cases h

end Sending
end DeribitClientServer.Server
