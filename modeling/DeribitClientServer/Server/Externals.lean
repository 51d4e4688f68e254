import DeribitClientServer.Library.Exec
import DeribitClientServer.Library.JsonRoundTrip

/-! What the server takes from outside the repository, and the JSON operations
of server.cpp over it. -/
namespace DeribitClientServer.Server
open Library Library.JsonText Library.Utf8

/-- The JSON library and the walking order of an unordered set. A failed parse
gives the text of its exception; a number is kept as the library stores it, in the spelling of its dump. -/
structure Externals where
  parse : Bytes → Except Bytes Json
  dump : Json → Bytes
  conversionError : Json → String
  indexError : Json → String
  utf8Error : Bytes → String
  spelling : Numeral → Option Numeral
  requiredFields : List String
  dump_reads : ∀ j, readText (dump j) = some (j.stored spelling).canon
  parse_dump : ∀ j, parse (dump j) = .ok (j.stored spelling).canon
  parse_stored : ∀ b j, parse b = .ok j → j.stored spelling = j
  parse_printed : ∀ j v, j.respell spelling = some v → parse (printText j) = .ok v.canon
  requiredFields_perm : requiredFields.Perm ["instrument_name", "amount", "type", "direction"]

/-- A reading of the externals that parses and prints by the JSON grammar. -/
def grammarExternals : Externals where
  parse b := match readText b with
    | some j => .ok j.canon
    | none => .error (encode "[json.exception.parse_error.101] parse error")
  dump j := printText j.canon
  conversionError _ := "[json.exception.type_error.302] type must be string"
  indexError _ := "[json.exception.type_error.305] cannot use operator[] with a string argument"
  utf8Error _ := "[json.exception.type_error.316] invalid UTF-8 byte"
  spelling := some
  requiredFields := ["instrument_name", "amount", "type", "direction"]
  dump_reads j := by rw [readText_printText, Json.stored_some]
  parse_dump j := by simp only [readText_printText, Json.canon_canon, Json.stored_some]
  parse_stored _ j _ := Json.stored_some j
  parse_printed j v h := by
    rw [Json.respell_some, Option.some_inj] at h
    subst h
    rw [readText_printText]
  requiredFields_perm := .rfl

/-- An exception derived from std::exception, known by its text. -/
structure Exn where
  what : Bytes

def parseJson (env : Externals) (text : Bytes) : Except Exn Json := (env.parse text).mapError Exn.mk

/-- operator[] with a key, read as a value. -/
def index (env : Externals) (j : Json) (k : String) : Except Exn Json :=
  match j with
  | .obj ms => .ok ((Json.obj ms).get? k |>.getD .null)
  | .null => .ok .null
  | j => .error ⟨encode (env.indexError j)⟩

/-- Assignment through operator[]: null becomes an object first. -/
def assign (env : Externals) (j : Json) (k : String) (v : Json) : Except Exn Json :=
  match j with
  | .obj ms => .ok ((Json.obj ms).set k v)
  | .null => .ok (.obj [(k, v)])
  | j => .error ⟨encode (env.indexError j)⟩

def getString (env : Externals) : Json → Except Exn String
  | .str s => .ok s
  | j => .error ⟨encode (env.conversionError j)⟩

/-- operator[] on a value known to hold the key. -/
def member (j : Json) (k : String) : Json := (j.get? k).getD .null

/-- An answered body, parsed and given a type. -/
def typed (env : Externals) (type : String) (body : Bytes) : Except Exn Json := do
  let response ← parseJson env body
  assign env response "type" (.str type)

/-- json of a type and an error text, dumped. Only an exception text can fail
to be UTF-8, and dump refuses such a string. -/
def dumpError (env : Externals) (type : String) (text : Bytes) : Except Exn Bytes :=
  match decode text with
  | some s => .ok (env.dump (.obj [("type", .str type), ("error", .str s)]))
  | none => .error ⟨encode (env.utf8Error text)⟩

def numberOf (n : Nat) : Json := .num (Numeral.ofNat n)

section Facts
variable (env : Externals)

/-- What dump writes is always UTF-8. -/
theorem decode_dump (j : Json) : ∃ s, decode (env.dump j) = some s := by
  have h := env.dump_reads j
  unfold readText at h
  obtain ⟨s, hs, _⟩ := Option.bind_eq_some_iff.mp h
  exact ⟨s, hs⟩

theorem parseJson_dump (j : Json) : parseJson env (env.dump j) = .ok (j.stored env.spelling).canon := by
  simp [parseJson, env.parse_dump, Except.mapError]

/-- A string member of a value is a member of what its dump reads as. -/
theorem get?_dumped_str_iff {j : Json} {k s : String} :
    (j.stored env.spelling).canon.get? k = some (.str s) ↔ j.get? k = some (.str s) :=
  Json.get?_canon_str_iff.trans Json.get?_stored_str_iff

/-- A member whose numbers are spelled as they are stored comes back from a dump. -/
theorem get?_dumped_kept {j : Json} {k : String} (h : ∀ v, j.get? k = some v → v.stored env.spelling = v) :
    (j.stored env.spelling).canon.get? k = j.canon.get? k := by
  rw [Json.get?_canon, Json.get?_canon, Json.get?_stored]
  cases hk : j.get? k with
  | none => rfl
  | some v => rw [Option.map_some, h v hk]

theorem parseJson_ok_iff {text : Bytes} {j : Json} : parseJson env text = .ok j ↔ env.parse text = .ok j := by
  unfold parseJson
  cases env.parse text with
  | error e => exact iff_of_false nofun nofun
  | ok v => simp [Except.mapError]

/-- What was parsed is stored as it is. -/
theorem stored_of_parsed {text : Bytes} {j : Json} (h : parseJson env text = .ok j) : j.stored env.spelling = j :=
  env.parse_stored text j ((parseJson_ok_iff env).mp h)

/-- What a client prints is parsed, as long as its numbers have a spelling. -/
theorem parseJson_printed {j v : Json} (h : j.respell env.spelling = some v) :
    parseJson env (printText j) = .ok v.canon := by
  simp [parseJson, env.parse_printed j v h, Except.mapError]

theorem member_eq_of_get? {j v : Json} {k : String} (h : j.get? k = some v) : member j k = v := by
  simp [member, h]

theorem isObj_of_contains {j : Json} {k : String} (h : j.contains k = true) : ∃ ms, j = .obj ms := by
  cases j with
  | obj ms => exact ⟨ms, rfl⟩
  | null | bool b | num n | str s | arr xs => cases h

theorem contains_of_get? {j v : Json} {k : String} (h : j.get? k = some v) : j.contains k = true := by
  rw [Json.contains, h, Option.isSome_some]

theorem index_of_get? {j v : Json} {k : String} (h : j.get? k = some v) : index env j k = .ok v := by
  obtain ⟨ms, rfl⟩ := isObj_of_contains (contains_of_get? h)
  rw [index, h]
  rfl

theorem get?_assign {j j' : Json} {k : String} {v : Json} (h : assign env j k v = .ok j') : j'.get? k = some v := by
  cases j with
  | obj ms =>
    cases h
    exact Json.get?_set_self ⟨ms, rfl⟩
  | null =>
    cases h
    simp [Json.get?]
  | bool b | num n | str s | arr xs => cases h

theorem get?_typed {type : String} {body : Bytes} {j : Json} (h : typed env type body = .ok j) :
    j.get? "type" = some (.str type) := by
  unfold typed at h
  cases hp : parseJson env body with
  | error e => rw [hp] at h; cases h
  | ok response =>
    rw [hp] at h
    exact get?_assign env h

end Facts

end DeribitClientServer.Server
