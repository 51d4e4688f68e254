import DeribitClientServer.Library.Exec
import DeribitClientServer.Library.JsonText

/-! The language of the client's components, as far as they use it on what
frames bring: member access, truth, text, and handlers that may throw midway. -/
namespace DeribitClientServer.Client
open Library Library.JsonText Library.Utf8

/-- Undefined, or a value that JSON can carry. -/
abbrev Value := Option Json

inductive Thrown where
  | syntaxError | typeError | notRenderable
  deriving DecidableEq, Repr

/-- A value that is neither an object nor an array. -/
def plain : Value → Bool
  | some (.arr _) | some (.obj _) => false
  | _ => true

/-- Conversions of the language: the number a text begins with when it is finite,
the texts of numbers, of composite values and of dates, and tests on numbers. -/
structure Script where
  parseFloat : String → Option Numeral
  numeral : Numeral → String
  composite : Json → Except Thrown String
  date : Value → Except Thrown String
  upper : String → String
  zero : Numeral → Bool
  positive : Json → Bool
  date_plain : ∀ v, plain v = true → ∃ s, date v = .ok s

/-- A reading of the conversions that is right on plain values without dates. -/
def plainScript : Script where
  parseFloat s := if h : isNumeral s.toList then some ⟨s.toList, h⟩ else none
  numeral n := String.ofList n.1
  composite _ := .ok "[object Object]"
  date _ := .ok "Invalid Date"
  upper := String.toUpper
  zero n := n.1.all (fun c => c = '-' ∨ c = '.' ∨ c = '0')
  positive
    | .num n => n.1.head? ≠ some '-' ∧ n.1.any (fun c => c ≠ '.' ∧ c ≠ '0')
    | _ => false
  date_plain _ _ := ⟨_, rfl⟩

/-- A handler keeps the states it set before it threw; its trace is what it sent. -/
abbrev Handler (σ : Type) : Type → Type := Exec σ Bytes Thrown

section Values
variable (sc : Script)

/-- JSON.parse of the data of an event. -/
def parseData (event : Bytes) : Except Thrown Value :=
  match readText event with
  | some j => .ok (some j)
  | none => .error .syntaxError

def nullish : Value → Bool
  | none | some .null => true
  | _ => false

def prop (v : Value) (k : String) : Except Thrown Value :=
  match v with
  | none | some .null => .error .typeError
  | some j => .ok (j.get? k)

theorem prop_ok {j : Json} (h : j ≠ .null) (k : String) : prop (some j) k = .ok (j.get? k) := by
  cases j with
  | null => exact absurd rfl h
  | bool _ | num _ | str _ | arr _ | obj _ => rfl

theorem prop_of_get? {j v : Json} {k : String} (h : j.get? k = some v) : prop (some j) k = .ok (some v) := by
  rw [← h]
  apply prop_ok
  rintro rfl
  cases h

/-- Optional chaining. -/
def prop? (v : Value) (k : String) : Value := v.bind (fun j => j.get? k)

def strictEq (v : Value) (s : String) : Bool := v.any (fun j => j.isStr s)

def truthy : Value → Bool
  | none | some .null => false
  | some (.bool b) => b
  | some (.num n) => !sc.zero n
  | some (.str s) => s ≠ ""
  | some (.arr _) | some (.obj _) => true

/-- A value inside a template literal. -/
def template : Value → Except Thrown String
  | none => .ok "undefined"
  | some .null => .ok "null"
  | some (.bool b) => .ok (toString b)
  | some (.num n) => .ok (sc.numeral n)
  | some (.str s) => .ok s
  | some (.arr xs) => sc.composite (.arr xs)
  | some (.obj ms) => sc.composite (.obj ms)

theorem template_plain {v : Value} (h : plain v = true) : ∃ s, template sc v = .ok s := by
  match v with
  | none | some .null | some (.bool _) | some (.num _) | some (.str _) => exact ⟨_, rfl⟩
  | some (.arr _) | some (.obj _) => cases h

theorem strictEq_iff {v : Value} {s : String} : strictEq v s = true ↔ v = some (.str s) := by
  unfold strictEq
  cases v with
  | none => simp
  | some j => simp [Json.isStr_iff]

/-- What JSON.stringify writes of a number. -/
def number (s : String) : Json :=
  match sc.parseFloat s with
  | some n => .num n
  | none => .null

/-- data.type of the frame an event carries. -/
def typeOf (event : Bytes) : Value := (readText event).bind (fun j => j.get? "type")

/-- Members whose value is undefined are left out. -/
def object (ms : List (String × Value)) : Json :=
  .obj (ms.filterMap (fun m => m.2.map (fun v => (m.1, v))))

/-- A handler of frames, given the type of each and its data. -/
def onMessage {σ : Type} (event : Bytes) (body : Value → Value → Handler σ Unit) : Handler σ Unit := do
  let data ← Exec.ofExcept (parseData event)
  let t ← Exec.ofExcept (prop data "type")
  body t data

/-- A handler that looks at frames of one type only. -/
def onType {σ : Type} (type : String) (event : Bytes) (body : Value → Handler σ Unit) : Handler σ Unit :=
  onMessage event (fun t data => if strictEq t type then body data else pure ())

section Handlers
variable {σ : Type} {event : Bytes}

/-- A handler sees the members of an object, and otherwise throws or sees no type. -/
theorem onMessage_cases (event : Bytes) (body : Value → Value → Handler σ Unit) (s : σ) :
    (typeOf event = none ∧ ∃ e, onMessage event body s = ⟨.error e, s, []⟩) ∨
      ∃ j, readText event = some j ∧ onMessage event body s = body (typeOf event) (some j) s := by
  unfold onMessage parseData typeOf
  cases readText event with
  | none => exact .inl ⟨rfl, _, rfl⟩
  | some j =>
    cases j with
    | null => exact .inl ⟨rfl, _, rfl⟩
    | bool _ | num _ | str _ | arr _ | obj _ => exact .inr ⟨_, rfl, rfl⟩

theorem onType_ignored {type : String} {body : Value → Handler σ Unit}
    (h : strictEq (typeOf event) type = false) (s : σ) :
    (onType type event body s).state = s ∧ (onType type event body s).trace = [] := by
  unfold onType
  rcases onMessage_cases event (fun t data => if strictEq t type then body data else pure ()) s with
    ⟨_, e, hr⟩ | ⟨j, _, hr⟩
  · rw [hr]
    exact ⟨rfl, rfl⟩
  · rw [hr, h]
    exact ⟨rfl, rfl⟩

/-- A frame of another type is read and left alone. -/
theorem onType_passed {type : String} {body : Value → Handler σ Unit} (ht : typeOf event ≠ none)
    (h : strictEq (typeOf event) type = false) (s : σ) : onType type event body s = ⟨.ok (), s, []⟩ := by
  unfold onType
  rcases onMessage_cases event (fun t data => if strictEq t type then body data else pure ()) s with
    ⟨hn, _⟩ | ⟨j, _, hr⟩
  · exact absurd hn ht
  · rw [hr, h]
    rfl

theorem onType_taken {type : String} {body : Value → Handler σ Unit}
    (h : strictEq (typeOf event) type = true) (s : σ) :
    ∃ j, readText event = some j ∧ onType type event body s = body (some j) s := by
  unfold onType
  rcases onMessage_cases event (fun t data => if strictEq t type then body data else pure ()) s with
    ⟨ht, _⟩ | ⟨j, hj, hr⟩
  · rw [ht] at h
    cases h
  · exact ⟨j, hj, by rw [hr, h, if_pos rfl]⟩

theorem onType_read {type : String} {body : Value → Handler σ Unit} {j : Json}
    (h : strictEq (typeOf event) type = true) (hj : readText event = some j) (s : σ) :
    onType type event body s = body (some j) s := by
  obtain ⟨j', hj', hr⟩ := @onType_taken σ event type body h s
  rw [hj, Option.some_inj] at hj'
  rw [hr, hj']

end Handlers

end Values

inductive NoticeKind where
  | success | error
  deriving DecidableEq, Repr

structure Notice where
  kind : NoticeKind
  text : String
  deriving DecidableEq

end DeribitClientServer.Client
