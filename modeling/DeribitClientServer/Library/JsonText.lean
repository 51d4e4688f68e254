import DeribitClientServer.Library.Json
import DeribitClientServer.Library.Utf8

/-! A reader of JSON texts that takes one character at a time and keeps an
explicit stack, and the compact printer. Reading is a fold over the text, so
what a text does inside another is what it does from the state reached there. -/
namespace DeribitClientServer.Library.JsonText
open Utf8

/-- What a string literal has collected: a character, or a lone half of a pair. -/
inductive Piece where
  | char (c : Char)
  | half (n : Nat)

def isHigh (n : Nat) : Bool := 0xD800 ≤ n && n < 0xDC00
def isLow (n : Nat) : Bool := 0xDC00 ≤ n && n < 0xE000

def unitPiece (n : Nat) : Piece := if isHigh n || isLow n then .half n else .char (Char.ofNat n)

/-- Halves that meet in order make one character; any other half is replaced. -/
def joinPieces : List Piece → List Char
  | [] => []
  | .char c :: ps => c :: joinPieces ps
  | .half hi :: .half lo :: ps =>
      if isHigh hi && isLow lo then
        Char.ofNat (0x10000 + (hi - 0xD800) * 0x400 + (lo - 0xDC00)) :: joinPieces ps
      else '\uFFFD' :: joinPieces (.half lo :: ps)
  | .half _ :: ps => '\uFFFD' :: joinPieces ps

def literal (acc : List Piece) : String := String.ofList (joinPieces acc.reverse)

/-- Position inside a string literal: in plain text, after a backslash, or
inside the four digits of a code unit. -/
inductive Quoted where
  | plain
  | escape
  | unit (value : Nat) (left : Nat)
  deriving DecidableEq, Repr

inductive QuotedStep where
  | more (q : Quoted) (acc : List Piece)
  | closed
  | bad

def hexValue (c : Char) : Option Nat :=
  if '0' ≤ c ∧ c ≤ '9' then some (c.toNat - '0'.toNat)
  else if 'a' ≤ c ∧ c ≤ 'f' then some (c.toNat - 'a'.toNat + 10)
  else if 'A' ≤ c ∧ c ≤ 'F' then some (c.toNat - 'A'.toNat + 10)
  else none

def escaped (c : Char) : Option Char :=
  if c = '"' ∨ c = '\\' ∨ c = '/' then some c
  else if c = 'b' then some '\x08'
  else if c = 'f' then some '\x0c'
  else if c = 'n' then some '\n'
  else if c = 'r' then some '\r'
  else if c = 't' then some '\t'
  else none

def Quoted.step (q : Quoted) (acc : List Piece) (c : Char) : QuotedStep :=
  match q with
  | .plain =>
      if c = '"' then .closed
      else if c = '\\' then .more .escape acc
      else if c.toNat < 0x20 then .bad
      else .more .plain (.char c :: acc)
  | .escape =>
      if c = 'u' then .more (.unit 0 3) acc
      else match escaped c with
        | some d => .more .plain (.char d :: acc)
        | none => .bad
  | .unit v left =>
      match hexValue c, left with
      | some d, 0 => .more .plain (unitPiece (v * 16 + d) :: acc)
      | some d, n + 1 => .more (.unit (v * 16 + d) n) acc
      | none, _ => .bad

/-- The part of a literal name read so far. -/
inductive Word where
  | t | tr | tru | f | fa | fal | fals | n | nu | nul
  deriving DecidableEq, Repr

def Word.step (w : Word) (c : Char) : Option (Word ⊕ Json) :=
  match w with
  | .t => if c = 'r' then some (.inl .tr) else none
  | .tr => if c = 'u' then some (.inl .tru) else none
  | .tru => if c = 'e' then some (.inr (.bool true)) else none
  | .f => if c = 'a' then some (.inl .fa) else none
  | .fa => if c = 'l' then some (.inl .fal) else none
  | .fal => if c = 's' then some (.inl .fals) else none
  | .fals => if c = 'e' then some (.inr (.bool false)) else none
  | .n => if c = 'u' then some (.inl .nu) else none
  | .nu => if c = 'l' then some (.inl .nul) else none
  | .nul => if c = 'l' then some (.inr .null) else none

/-- An enclosing value still open: the items or members read so far, newest first. -/
inductive Layer where
  | items (xs : List Json)
  | members (ms : List (String × Json)) (key : String)

inductive Mode where
  | value
  | firstItem
  | firstKey
  | nextKey (ms : List (String × Json))
  | key (ms : List (String × Json)) (q : Quoted) (acc : List Piece)
  | colon (ms : List (String × Json)) (k : String)
  | quoted (q : Quoted) (acc : List Piece)
  | word (w : Word)
  | number (d : Digits) (acc : List Char)
  | done (v : Json)

structure Reader where
  stack : List Layer
  mode : Mode

def start : Reader := ⟨[], .value⟩

def isSpace (c : Char) : Bool := c = ' ' || c = '\t' || c = '\n' || c = '\r'

def beginValue (st : List Layer) (c : Char) : Option Reader :=
  if isSpace c then some ⟨st, .value⟩
  else if c = '"' then some ⟨st, .quoted .plain []⟩
  else if c = '\x7b' then some ⟨st, .firstKey⟩
  else if c = '[' then some ⟨st, .firstItem⟩
  else if c = 't' then some ⟨st, .word .t⟩
  else if c = 'f' then some ⟨st, .word .f⟩
  else if c = 'n' then some ⟨st, .word .n⟩
  else (Digits.start.step c).map (fun d => ⟨st, .number d [c]⟩)

/-- A complete value meets a separator, a closing bracket or white space. -/
def afterValue (st : List Layer) (v : Json) (c : Char) : Option Reader :=
  if isSpace c then some ⟨st, .done v⟩
  else match st with
    | [] => none
    | .items xs :: st =>
        if c = ',' then some ⟨.items (v :: xs) :: st, .value⟩
        else if c = ']' then some ⟨st, .done (.arr (v :: xs).reverse)⟩
        else none
    | .members ms k :: st =>
        if c = ',' then some ⟨st, .nextKey ((k, v) :: ms)⟩
        else if c = '\x7d' then some ⟨st, .done (.obj ((k, v) :: ms).reverse)⟩
        else none

def toNumeral (acc : List Char) : Option Numeral :=
  if h : isNumeral acc.reverse then some ⟨acc.reverse, h⟩ else none

def Reader.step (r : Reader) (c : Char) : Option Reader :=
  match r.mode with
  | .value => beginValue r.stack c
  | .firstItem =>
      if isSpace c then some r
      else if c = ']' then some ⟨r.stack, .done (.arr [])⟩
      else beginValue (.items [] :: r.stack) c
  | .firstKey =>
      if isSpace c then some r
      else if c = '"' then some ⟨r.stack, .key [] .plain []⟩
      else if c = '\x7d' then some ⟨r.stack, .done (.obj [])⟩
      else none
  | .nextKey ms =>
      if isSpace c then some r
      else if c = '"' then some ⟨r.stack, .key ms .plain []⟩
      else none
  | .key ms q acc =>
      match q.step acc c with
      | .more q acc => some ⟨r.stack, .key ms q acc⟩
      | .closed => some ⟨r.stack, .colon ms (literal acc)⟩
      | .bad => none
  | .colon ms k =>
      if isSpace c then some r
      else if c = ':' then some ⟨.members ms k :: r.stack, .value⟩
      else none
  | .quoted q acc =>
      match q.step acc c with
      | .more q acc => some ⟨r.stack, .quoted q acc⟩
      | .closed => some ⟨r.stack, .done (.str (literal acc))⟩
      | .bad => none
  | .word w =>
      match w.step c with
      | some (.inl w) => some ⟨r.stack, .word w⟩
      | some (.inr v) => some ⟨r.stack, .done v⟩
      | none => none
  | .number d acc =>
      match d.step c with
      | some d => some ⟨r.stack, .number d (c :: acc)⟩
      | none => (toNumeral acc).bind (fun n => afterValue r.stack (.num n) c)
  | .done v => afterValue r.stack v c

def Reader.run (r : Reader) : List Char → Option Reader
  | [] => some r
  | c :: cs => (r.step c).bind (fun r' => r'.run cs)

/-- The value read when the text ends here, if it may end here. -/
def Reader.finish (r : Reader) : Option Json :=
  match r.stack, r.mode with
  | [], .done v => some v
  | [], .number _ acc => (toNumeral acc).map .num
  | _, _ => none

def read (cs : List Char) : Option Json := (start.run cs).bind Reader.finish

/-- The value a byte string denotes: it must be UTF-8 and a JSON text. -/
def readText (b : Bytes) : Option Json := (decode b).bind (fun s => read s.toList)

@[simp] theorem Reader.run_nil (r : Reader) : r.run [] = some r := rfl

theorem Reader.run_cons (r : Reader) (c : Char) (cs : List Char) :
    r.run (c :: cs) = (r.step c).bind (fun r' => r'.run cs) := rfl

theorem Reader.run_append (r : Reader) (as bs : List Char) :
    r.run (as ++ bs) = (r.run as).bind (fun r' => r'.run bs) := by
  induction as generalizing r with
  | nil => rfl
  | cons a as ih =>
    rw [List.cons_append, run_cons, run_cons, Option.bind_assoc]
    exact congrArg (r.step a).bind (funext fun r' => ih r')

@[simp] theorem readText_encode (s : String) : readText (encode s) = read s.toList := by
  simp [readText]

section Printer

def escapeChar (c : Char) : List Char :=
  if c = '"' then ['\\', '"']
  else if c = '\\' then ['\\', '\\']
  else if c = '\x08' then ['\\', 'b']
  else if c = '\x0c' then ['\\', 'f']
  else if c = '\n' then ['\\', 'n']
  else if c = '\r' then ['\\', 'r']
  else if c = '\t' then ['\\', 't']
  else if c.toNat < 0x20 then
    ['\\', 'u', '0', '0', Nat.digitChar (c.toNat / 16), Nat.digitChar (c.toNat % 16)]
  else [c]

def printString (s : String) : List Char := '"' :: (s.toList.flatMap escapeChar ++ ['"'])

mutual
def print : Json → List Char
  | .null => ['n', 'u', 'l', 'l']
  | .bool true => ['t', 'r', 'u', 'e']
  | .bool false => ['f', 'a', 'l', 's', 'e']
  | .num n => n.val
  | .str s => printString s
  | .arr [] => ['[', ']']
  | .arr (x :: xs) => '[' :: (print x ++ printItems xs)
  | .obj [] => ['\x7b', '\x7d']
  | .obj ((k, v) :: ms) => '\x7b' :: (printString k ++ ':' :: (print v ++ printMembers ms))

/-- The items after the first, each led by its comma, and the closing bracket. -/
def printItems : List Json → List Char
  | [] => [']']
  | x :: xs => ',' :: (print x ++ printItems xs)

def printMembers : List (String × Json) → List Char
  | [] => ['\x7d']
  | (k, v) :: ms => ',' :: (printString k ++ ':' :: (print v ++ printMembers ms))
end

def printText (j : Json) : Bytes := encode (String.ofList (print j))

end Printer
end DeribitClientServer.Library.JsonText
