import DeribitClientServer.Library.Members
import Mathlib.Data.String.Basic

/-! JSON values. A number is kept as its numeral, the text that denotes it; an
object is its member list, read with last-write-wins lookup. -/
namespace DeribitClientServer.Library
open Members

/-- Position inside a numeral of the JSON grammar. -/
inductive Digits where
  | start | minus | zero | whole | point | fraction | exponent | sign | power
  deriving DecidableEq, Repr

def Digits.step (m : Digits) (c : Char) : Option Digits :=
  match m with
  | .start => if c = '-' then some .minus else if c = '0' then some .zero
      else if c.isDigit then some .whole else none
  | .minus => if c = '0' then some .zero else if c.isDigit then some .whole else none
  | .zero => if c = '.' then some .point else if c = 'e' ∨ c = 'E' then some .exponent else none
  | .whole => if c.isDigit then some .whole else if c = '.' then some .point
      else if c = 'e' ∨ c = 'E' then some .exponent else none
  | .point => if c.isDigit then some .fraction else none
  | .fraction => if c.isDigit then some .fraction
      else if c = 'e' ∨ c = 'E' then some .exponent else none
  | .exponent => if c = '+' ∨ c = '-' then some .sign else if c.isDigit then some .power else none
  | .sign => if c.isDigit then some .power else none
  | .power => if c.isDigit then some .power else none

def Digits.complete : Digits → Bool
  | .zero | .whole | .fraction | .power => true
  | .start | .minus | .point | .exponent | .sign => false

def Digits.run (m : Digits) : List Char → Option Digits
  | [] => some m
  | c :: cs => (m.step c).bind (fun m' => m'.run cs)

def isNumeral (cs : List Char) : Bool := (Digits.start.run cs).any Digits.complete

abbrev Numeral := { cs : List Char // isNumeral cs }

theorem Digits.run_append (m : Digits) (as bs : List Char) :
    m.run (as ++ bs) = (m.run as).bind (fun m' => m'.run bs) := by
  induction as generalizing m with
  | nil => rfl
  | cons a as ih =>
    rw [List.cons_append, run, run, Option.bind_assoc]
    exact congrArg (m.step a).bind (funext fun m' => ih m')

private theorem run_digitChar : ∀ d < 10, 0 < d → Digits.start.run [Nat.digitChar d] = some .whole := by decide

private theorem whole_digitChar : ∀ d < 10, Digits.whole.run [Nat.digitChar d] = some .whole := by decide

private theorem run_toDigits (n : Nat) (h : 0 < n) : Digits.start.run (Nat.toDigits 10 n) = some .whole := by
  induction n using Nat.strong_induction_on with
  | _ n ih =>
    by_cases hn : n < 10
    · rw [Nat.toDigits_of_lt_base hn]
      exact run_digitChar n hn h
    · rw [Nat.toDigits_of_base_le (by decide) (by omega), Digits.run_append,
        ih (n / 10) (by omega) (by omega), Option.bind_some]
      exact whole_digitChar (n % 10) (by omega)

theorem isNumeral_toDigits (n : Nat) : isNumeral (Nat.toDigits 10 n) = true := by
  rcases Nat.eq_zero_or_pos n with rfl | h
  · rfl
  · simp [isNumeral, run_toDigits n h, Digits.complete]

def Numeral.ofNat (n : Nat) : Numeral := ⟨Nat.toDigits 10 n, isNumeral_toDigits n⟩

inductive Json where
  | null
  | bool (b : Bool)
  | num (n : Numeral)
  | str (s : String)
  | arr (items : List Json)
  | obj (members : List (String × Json))

namespace Json

def get? (j : Json) (k : String) : Option Json :=
  match j with
  | .obj ms => lookup k ms
  | _ => none

def contains (j : Json) (k : String) : Bool := (j.get? k).isSome

/-- Write a member of an object; any other value is left alone. -/
def set (j : Json) (k : String) (v : Json) : Json :=
  match j with
  | .obj ms => .obj (put k v ms)
  | j => j

def isStr (s : String) : Json → Bool
  | .str t => t = s
  | _ => false

mutual
/-- Every object in key order with one entry for each key. -/
def canon : Json → Json
  | .null => .null
  | .bool b => .bool b
  | .num n => .num n
  | .str s => .str s
  | .arr xs => .arr (canonItems xs)
  | .obj ms => .obj (normal (canonMembers ms))

def canonItems : List Json → List Json
  | [] => []
  | x :: xs => canon x :: canonItems xs

def canonMembers : List (String × Json) → List (String × Json)
  | [] => []
  | (k, v) :: ms => (k, canon v) :: canonMembers ms
end

mutual
/-- Respell every number; undefined when one numeral has no spelling. -/
def respell (f : Numeral → Option Numeral) : Json → Option Json
  | .null => some .null
  | .bool b => some (.bool b)
  | .num n => (f n).map .num
  | .str s => some (.str s)
  | .arr xs => (respellItems f xs).map .arr
  | .obj ms => (respellMembers f ms).map .obj

def respellItems (f : Numeral → Option Numeral) : List Json → Option (List Json)
  | [] => some []
  | x :: xs => (respell f x).bind (fun y => (respellItems f xs).map (y :: ·))

def respellMembers (f : Numeral → Option Numeral) : List (String × Json) → Option (List (String × Json))
  | [] => some []
  | (k, v) :: ms => (respell f v).bind (fun w => (respellMembers f ms).map ((k, w) :: ·))
end

mutual
/-- A value as it is once stored: every number respelled, and null where a number has no spelling. -/
def stored (f : Numeral → Option Numeral) : Json → Json
  | .null => .null
  | .bool b => .bool b
  | .num n => ((f n).map .num).getD .null
  | .str s => .str s
  | .arr xs => .arr (storedItems f xs)
  | .obj ms => .obj (storedMembers f ms)

def storedItems (f : Numeral → Option Numeral) : List Json → List Json
  | [] => []
  | x :: xs => stored f x :: storedItems f xs

def storedMembers (f : Numeral → Option Numeral) : List (String × Json) → List (String × Json)
  | [] => []
  | (k, v) :: ms => (k, stored f v) :: storedMembers f ms
end

theorem canonItems_eq_map (xs : List Json) : canonItems xs = xs.map canon := by
  induction xs with
  | nil => rfl
  | cons x xs ih => rw [canonItems, ih, List.map_cons]

theorem canonMembers_eq_map (ms : List (String × Json)) :
    canonMembers ms = ms.map (fun m => (m.1, m.2.canon)) := by
  induction ms with
  | nil => rfl
  | cons m ms ih =>
    obtain ⟨k, v⟩ := m
    rw [canonMembers, ih, List.map_cons]

theorem storedItems_eq_map (f : Numeral → Option Numeral) (xs : List Json) : storedItems f xs = xs.map (stored f) := by
  induction xs with
  | nil => rfl
  | cons x xs ih => rw [storedItems, ih, List.map_cons]

theorem storedMembers_eq_map (f : Numeral → Option Numeral) (ms : List (String × Json)) :
    storedMembers f ms = ms.map (fun m => (m.1, m.2.stored f)) := by
  induction ms with
  | nil => rfl
  | cons m ms ih =>
    obtain ⟨k, v⟩ := m
    rw [storedMembers, ih, List.map_cons]

@[simp] theorem stored_str (f : Numeral → Option Numeral) (s : String) : stored f (.str s) = .str s := rfl

@[simp] theorem stored_arr (f : Numeral → Option Numeral) (xs : List Json) :
    stored f (.arr xs) = .arr (xs.map (stored f)) := by
  rw [stored, storedItems_eq_map]

@[simp] theorem stored_obj (f : Numeral → Option Numeral) (ms : List (String × Json)) :
    stored f (.obj ms) = .obj (ms.map (fun m => (m.1, m.2.stored f))) := by
  rw [stored, storedMembers_eq_map]

@[simp] theorem canon_str (s : String) : canon (.str s) = .str s := by rw [canon]

@[simp] theorem canon_arr (xs : List Json) : canon (.arr xs) = .arr (xs.map canon) := by
  rw [canon, canonItems_eq_map]

/-- An object with one member is in normal form when its value is. -/
theorem canon_single (k : String) (v : Json) : canon (.obj [(k, v)]) = .obj [(k, v.canon)] := by
  rw [canon, canonMembers, canonMembers]
  rfl

mutual
/-- Numbers spelled as they are leave the value as it is. -/
theorem respell_some (j : Json) : j.respell some = some j := by
  match j with
  | .null | .bool _ | .num _ | .str _ => rfl
  | .arr xs => rw [respell, respellItems_some xs, Option.map_some]
  | .obj ms => rw [respell, respellMembers_some ms, Option.map_some]

private theorem respellItems_some (xs : List Json) : respellItems some xs = some xs := by
  match xs with
  | [] => rfl
  | x :: xs => simp [respellItems, respell_some x, respellItems_some xs]

private theorem respellMembers_some (ms : List (String × Json)) : respellMembers some ms = some ms := by
  match ms with
  | [] => rfl
  | (k, v) :: ms => simp [respellMembers, respell_some v, respellMembers_some ms]
end

mutual
/-- Nothing changes when every number is stored as it is spelled. -/
@[simp] theorem stored_some (j : Json) : j.stored some = j := by
  match j with
  | .null | .bool _ | .num _ | .str _ => rfl
  | .arr xs => rw [stored, storedItems_some xs]
  | .obj ms => rw [stored, storedMembers_some ms]

private theorem storedItems_some (xs : List Json) : storedItems some xs = xs := by
  match xs with
  | [] => rfl
  | x :: xs => rw [storedItems, stored_some x, storedItems_some xs]

private theorem storedMembers_some (ms : List (String × Json)) : storedMembers some ms = ms := by
  match ms with
  | [] => rfl
  | (k, v) :: ms => rw [storedMembers, stored_some v, storedMembers_some ms]
end

mutual
/-- The normal form is its own normal form. -/
theorem canon_canon (j : Json) : j.canon.canon = j.canon := by
  match j with
  | .null | .bool _ | .num _ | .str _ => simp [canon]
  | .arr xs => rw [canon, canon, canonItems_canon xs]
  | .obj ms =>
    rw [canon, canon, canonMembers_eq_map, ← normal_map, ← canonMembers_eq_map, canonMembers_canon ms]
    rw [normal_of_ascending (ascending_normal _)]

private theorem canonItems_canon (xs : List Json) : canonItems (canonItems xs) = canonItems xs := by
  match xs with
  | [] => rfl
  | x :: xs => rw [canonItems, canonItems, canon_canon x, canonItems_canon xs]

private theorem canonMembers_canon (ms : List (String × Json)) :
    canonMembers (canonMembers ms) = canonMembers ms := by
  match ms with
  | [] => rfl
  | (k, v) :: ms => rw [canonMembers, canonMembers, canon_canon v, canonMembers_canon ms]
end

/-- Reading a member commutes with the normal form. -/
theorem get?_canon (j : Json) (k : String) : j.canon.get? k = (j.get? k).map canon := by
  cases j with
  | obj ms => rw [canon, get?, lookup_normal, canonMembers_eq_map, lookup_map, get?]
  | null | bool b | num n | str s | arr xs => simp [canon, get?]

/-- A string member is kept as it is. -/
theorem get?_canon_str_iff {j : Json} {k s : String} : j.canon.get? k = some (.str s) ↔ j.get? k = some (.str s) := by
  rw [get?_canon]
  cases j.get? k with
  | none => simp
  | some v => cases v <;> simp [canon]

private theorem respell_of_mem {f : Numeral → Option Numeral} {k : String} {u : Json} {ms vs : List (String × Json)}
    (h : respellMembers f ms = some vs) (hu : (k, u) ∈ ms) : ∃ u', respell f u = some u' := by
  induction ms generalizing vs with
  | nil => cases hu
  | cons m ms ih =>
    obtain ⟨k', v⟩ := m
    rw [respellMembers, Option.bind_eq_some_iff] at h
    obtain ⟨w, hw, h⟩ := h
    obtain ⟨ws, hws, rfl⟩ := Option.map_eq_some_iff.mp h
    rcases List.mem_cons.mp hu with hm | hm
    · obtain ⟨rfl, rfl⟩ := Prod.mk.inj hm
      exact ⟨w, hw⟩
    · exact ih hws hm

private theorem lookup_respellMembers (f : Numeral → Option Numeral) (k : String) (ms vs : List (String × Json))
    (h : respellMembers f ms = some vs) : lookup k vs = (lookup k ms).bind (respell f) := by
  induction ms generalizing vs with
  | nil =>
    cases h
    rfl
  | cons m ms ih =>
    obtain ⟨k', v⟩ := m
    rw [respellMembers, Option.bind_eq_some_iff] at h
    obtain ⟨w, hw, h⟩ := h
    obtain ⟨ws, hws, rfl⟩ := Option.map_eq_some_iff.mp h
    rw [lookup_cons, lookup_cons, ih ws hws]
    cases hl : lookup k ms with
    | none => by_cases hk : k' = k <;> simp [hk, hw]
    | some u =>
      obtain ⟨u', hu'⟩ := respell_of_mem hws (mem_of_lookup hl)
      simp [hu']

/-- Reading a member commutes with respelling. -/
theorem get?_respell {f : Numeral → Option Numeral} {j v : Json} (h : j.respell f = some v) (k : String) :
    v.get? k = (j.get? k).bind (respell f) := by
  cases j with
  | obj ms =>
    rw [respell, Option.map_eq_some_iff] at h
    obtain ⟨vs, hvs, rfl⟩ := h
    exact lookup_respellMembers f k ms vs hvs
  | arr xs =>
    rw [respell, Option.map_eq_some_iff] at h
    obtain ⟨ys, _, rfl⟩ := h
    rfl
  | num n =>
    rw [respell, Option.map_eq_some_iff] at h
    obtain ⟨m, _, rfl⟩ := h
    rfl
  | null | bool b | str s =>
    cases h
    rfl

/-- Reading a member commutes with storing. -/
theorem get?_stored (f : Numeral → Option Numeral) (j : Json) (k : String) :
    (j.stored f).get? k = (j.get? k).map (stored f) := by
  cases j with
  | obj ms => rw [stored_obj, get?, lookup_map, get?]
  | num n => cases h : f n <;> simp [stored, get?, h]
  | null | bool b | str s | arr xs => simp [stored, get?]

/-- A string member is stored as it is. -/
theorem get?_stored_str_iff {f : Numeral → Option Numeral} {j : Json} {k s : String} :
    (j.stored f).get? k = some (.str s) ↔ j.get? k = some (.str s) := by
  rw [get?_stored]
  cases j.get? k with
  | none => simp
  | some v =>
    cases v with
    | num n => cases h : f n <;> simp [stored, h]
    | null | bool b | str s | arr xs | obj ms => simp [stored]

/-- A member of a value that is stored as it is. -/
theorem stored_of_get? {f : Numeral → Option Numeral} {j v : Json} {k : String} (h : j.stored f = j) (hk : j.get? k = some v) :
    v.stored f = v := by
  have hg := get?_stored f j k
  rw [h, hk, Option.map_some, Option.some_inj] at hg
  exact hg.symm

theorem get?_obj (ms : List (String × Json)) (k : String) : (Json.obj ms).get? k = lookup k ms := rfl

theorem get?_set_self {j : Json} {k : String} {v : Json} (h : ∃ ms, j = .obj ms) :
    (j.set k v).get? k = some v := by
  obtain ⟨ms, rfl⟩ := h
  simp [set, get?]

theorem get?_set_ne {k k' : String} (h : k' ≠ k) (j v : Json) : (j.set k' v).get? k = j.get? k := by
  cases j with
  | obj ms => simp [set, get?, lookup_put_ne h]
  | null | bool b | num n | str s | arr xs => rfl

theorem isStr_iff {s : String} {j : Json} : j.isStr s = true ↔ j = .str s := by
  cases j <;> simp [isStr]

end Json
end DeribitClientServer.Library
