import DeribitClientServer.Library.JsonText

/-! Printed values read back as themselves. A printed value takes the reader
from awaiting a value to having read it, under any stack of open values. -/
namespace DeribitClientServer.Library.JsonText
open Utf8

/-- What the rest of a text makes of a reader. -/
def Reader.outcome (r : Reader) (cs : List Char) : Option Json := (r.run cs).bind Reader.finish

theorem Reader.outcome_cons (r : Reader) (c : Char) (cs : List Char) :
    r.outcome (c :: cs) = (r.step c).bind (fun r' => r'.outcome cs) := by
  simp only [outcome, run_cons, Option.bind_assoc]

theorem Reader.outcome_append {r r' : Reader} {as : List Char} (h : r.run as = some r') (bs : List Char) :
    r.outcome (as ++ bs) = r'.outcome bs := by
  simp only [outcome, run_append, h, Option.bind_some]

theorem Reader.outcome_step {r r' : Reader} {c : Char} (h : r.step c = some r') (cs : List Char) :
    r.outcome (c :: cs) = r'.outcome cs := by
  rw [outcome_cons, h, Option.bind_some]

section Strings

/-- String content read so far, when none of it closes the literal. -/
def Quoted.collect (q : Quoted) (acc : List Piece) : List Char → Option (Quoted × List Piece)
  | [] => some (q, acc)
  | c :: cs =>
    match q.step acc c with
    | .more q' acc' => q'.collect acc' cs
    | .closed => none
    | .bad => none

theorem Reader.run_quoted (st : List Layer) (q q' : Quoted) (acc acc' : List Piece) (cs : List Char)
    (h : q.collect acc cs = some (q', acc')) :
    (Reader.mk st (.quoted q acc)).run cs = some ⟨st, .quoted q' acc'⟩ := by
  induction cs generalizing q acc with
  | nil => cases h; rfl
  | cons c cs ih =>
    rw [Quoted.collect] at h
    cases hs : q.step acc c with
    | more q₁ acc₁ =>
      rw [hs] at h
      rw [run_cons]
      simp only [step, hs, Option.bind_some]
      exact ih q₁ acc₁ h
    | closed | bad => simp [hs] at h

theorem Reader.run_key (st : List Layer) (ms : List (String × Json)) (q q' : Quoted) (acc acc' : List Piece)
    (cs : List Char) (h : q.collect acc cs = some (q', acc')) :
    (Reader.mk st (.key ms q acc)).run cs = some ⟨st, .key ms q' acc'⟩ := by
  induction cs generalizing q acc with
  | nil => cases h; rfl
  | cons c cs ih =>
    rw [Quoted.collect] at h
    cases hs : q.step acc c with
    | more q₁ acc₁ =>
      rw [hs] at h
      rw [run_cons]
      simp only [step, hs, Option.bind_some]
      exact ih q₁ acc₁ h
    | closed | bad => simp [hs] at h

private theorem hexValue_digitChar : ∀ d < 16, hexValue (Nat.digitChar d) = some d := by decide

private theorem unitPiece_control {c : Char} (h : c.toNat < 0x20) :
    unitPiece (c.toNat / 16 * 16 + c.toNat % 16) = .char c := by
  have hn : c.toNat / 16 * 16 + c.toNat % 16 = c.toNat := by omega
  rw [hn, unitPiece]
  have hh : isHigh c.toNat = false := by simp [isHigh]; omega
  have hl : isLow c.toNat = false := by simp [isLow]; omega
  rw [hh, hl, Char.ofNat_toNat]
  rfl

private theorem collect_escapeChar (acc : List Piece) (c : Char) (cs : List Char) :
    Quoted.plain.collect acc (escapeChar c ++ cs) = Quoted.plain.collect (.char c :: acc) cs := by
  unfold escapeChar
  split_ifs with h1 h2 h3 h4 h5 h6 h7 h8
  · subst h1; rfl
  · subst h2; rfl
  · subst h3; rfl
  · subst h4; rfl
  · subst h5; rfl
  · subst h6; rfl
  · subst h7; rfl
  · have hi := hexValue_digitChar (c.toNat / 16) (by omega)
    have hlo := hexValue_digitChar (c.toNat % 16) (by omega)
    have h0 : hexValue '0' = some 0 := by decide
    have hp := unitPiece_control h8
    simp [Quoted.collect, Quoted.step, h0, hi, hlo, hp]
  · simp [Quoted.collect, Quoted.step, h1, h2, h8]

theorem collect_escaped (cs : List Char) (acc : List Piece) :
    Quoted.plain.collect acc (cs.flatMap escapeChar) = some (.plain, (cs.map Piece.char).reverse ++ acc) := by
  induction cs generalizing acc with
  | nil => rfl
  | cons c cs ih =>
    rw [List.flatMap_cons, collect_escapeChar, ih]
    simp

theorem joinPieces_chars (cs : List Char) : joinPieces (cs.map Piece.char) = cs := by
  induction cs with
  | nil => rfl
  | cons c cs ih => rw [List.map_cons, joinPieces, ih]

theorem literal_chars (s : String) : literal ((s.toList.map Piece.char).reverse ++ []) = s := by
  simp [literal, joinPieces_chars]

private theorem outcome_printString (st : List Layer) (s : String) (rest : List Char) :
    (Reader.mk st .value).outcome (printString s ++ rest) = (Reader.mk st (.done (.str s))).outcome rest := by
  have hopen : (Reader.mk st .value).step '"' = some ⟨st, .quoted .plain []⟩ := rfl
  have hbody := Reader.run_quoted st _ _ _ _ _ (collect_escaped s.toList [])
  rw [printString, List.cons_append, Reader.outcome_step hopen, List.append_assoc,
    Reader.outcome_append hbody, List.singleton_append]
  apply Reader.outcome_step
  simp only [Reader.step, Quoted.step, if_true, literal_chars]

private theorem outcome_printKey (st : List Layer) (m : Mode) (ms : List (String × Json)) (k : String)
    (rest : List Char) (hm : (Reader.mk st m).step '"' = some ⟨st, .key ms .plain []⟩) :
    (Reader.mk st m).outcome (printString k ++ ':' :: rest) =
      (Reader.mk (.members ms k :: st) .value).outcome rest := by
  have hbody := Reader.run_key st ms _ _ _ _ _ (collect_escaped k.toList [])
  have hclose : (Reader.mk st (.key ms .plain ((k.toList.map Piece.char).reverse ++ []))).step '"' =
      some ⟨st, .colon ms k⟩ := by
    simp only [Reader.step, Quoted.step, if_true, literal_chars]
  have hcolon : (Reader.mk st (.colon ms k)).step ':' = some ⟨.members ms k :: st, .value⟩ := by
    simp [Reader.step, isSpace]
  rw [printString, List.cons_append, Reader.outcome_step hm, List.append_assoc,
    Reader.outcome_append hbody, List.singleton_append, Reader.outcome_step hclose,
    Reader.outcome_step hcolon]

end Strings

section Numbers

/-- A text that cannot continue a numeral. -/
def Delimited (rest : List Char) : Prop := ∀ c cs, rest = c :: cs → ∀ d : Digits, d.step c = none

theorem delimited_nil : Delimited [] := by
  intro c cs h
  cases h

theorem delimited_cons {c : Char} (hc : c = ',' ∨ c = ']' ∨ c = '\x7d') (cs : List Char) :
    Delimited (c :: cs) := by
  intro c' cs' h d
  cases h
  rcases hc with rfl | rfl | rfl <;> cases d <;> decide

private theorem run_number (st : List Layer) (d d' : Digits) (acc cs : List Char) (h : d.run cs = some d') :
    (Reader.mk st (.number d acc)).run cs = some ⟨st, .number d' (cs.reverse ++ acc)⟩ := by
  induction cs generalizing d acc with
  | nil => cases h; rfl
  | cons c cs ih =>
    rw [Digits.run] at h
    cases hd : d.step c with
    | none => simp [hd] at h
    | some d₁ =>
      rw [hd, Option.bind_some] at h
      rw [Reader.run_cons]
      simp only [Reader.step, hd, Option.bind_some, ih d₁ (c :: acc) h, List.reverse_cons,
        List.append_assoc, List.singleton_append]

private theorem beginValue_digit {c : Char} {d : Digits} (h : Digits.start.step c = some d) (st : List Layer) :
    beginValue st c = some ⟨st, .number d [c]⟩ := by
  have hne : ∀ c', Digits.start.step c' = none → c ≠ c' := by
    rintro c' hn rfl
    simp [hn] at h
  have hs : isSpace c = false := by
    simp [isSpace, hne ' ' (by decide), hne '\t' (by decide), hne '\n' (by decide), hne '\r' (by decide)]
  simp [beginValue, hs, hne '"' (by decide), hne '\x7b' (by decide), hne '[' (by decide),
    hne 't' (by decide), hne 'f' (by decide), hne 'n' (by decide), h]

private theorem numeral_head (n : Numeral) :
    ∃ c cs d d', n.val = c :: cs ∧ Digits.start.step c = some d ∧ d.run cs = some d' := by
  obtain ⟨l, hl⟩ := n
  unfold isNumeral at hl
  cases l with
  | nil => cases hl
  | cons c cs =>
    rw [Digits.run] at hl
    cases hd : Digits.start.step c with
    | none => simp [hd] at hl
    | some d =>
      cases hr : d.run cs with
      | none => simp [hd, hr] at hl
      | some d' => exact ⟨c, cs, d, d', rfl, hd, hr⟩

private theorem toNumeral_reverse (n : Numeral) : toNumeral n.val.reverse = some n := by
  unfold toNumeral
  rw [dif_pos (by simpa using n.property)]
  simp

private theorem outcome_number (st : List Layer) (n : Numeral) (rest : List Char) (hr : Delimited rest) :
    (Reader.mk st .value).outcome (n.val ++ rest) = (Reader.mk st (.done (.num n))).outcome rest := by
  obtain ⟨c, cs, d, d', hv, hd, hrun⟩ := numeral_head n
  have hfirst : (Reader.mk st .value).step c = some ⟨st, .number d [c]⟩ := beginValue_digit hd st
  have htext : (Reader.mk st .value).run n.val = some ⟨st, .number d' n.val.reverse⟩ := by
    rw [hv, Reader.run_cons, hfirst, Option.bind_some, run_number st d d' [c] cs hrun]
    simp
  rw [Reader.outcome_append htext]
  cases rest with
  | nil => cases st <;> simp [Reader.outcome, Reader.finish, toNumeral_reverse]
  | cons x xs =>
    have hx := hr x xs rfl d'
    rw [Reader.outcome_cons, Reader.outcome_cons, Reader.step, Reader.step]
    simp only [hx, toNumeral_reverse, Option.bind_some]

end Numbers

section Values

private theorem print_head (j : Json) : ∃ c cs, print j = c :: cs ∧ isSpace c = false ∧ c ≠ ']' := by
  cases j with
  | null => exact ⟨'n', _, by rw [print], by decide, by decide⟩
  | bool b => cases b <;> exact ⟨_, _, by rw [print], by decide, by decide⟩
  | num n =>
    obtain ⟨c, cs, d, _, hv, hd, _⟩ := numeral_head n
    refine ⟨c, cs, by rw [print, hv], ?_, ?_⟩
    · cases hs : isSpace c with
      | false => rfl
      | true =>
        simp only [isSpace, Bool.or_eq_true, decide_eq_true_eq] at hs
        rcases hs with ((rfl | rfl) | rfl) | rfl <;> simp [Digits.step] at hd
    · rintro rfl
      simp [Digits.step] at hd
  | str s => exact ⟨'"', _, by rw [print, printString], by decide, by decide⟩
  | arr xs => cases xs <;> exact ⟨'[', _, by rw [print], by decide, by decide⟩
  | obj ms =>
    cases ms with
    | nil => exact ⟨'\x7b', _, by rw [print], by decide, by decide⟩
    | cons m ms => exact ⟨'\x7b', _, by rw [print], by decide, by decide⟩

private theorem outcome_firstItem (st : List Layer) (x : Json) (rest : List Char) :
    (Reader.mk st .firstItem).outcome (print x ++ rest) =
      (Reader.mk (.items [] :: st) .value).outcome (print x ++ rest) := by
  obtain ⟨c, cs, hp, hs, hb⟩ := print_head x
  rw [hp, List.cons_append, Reader.outcome_cons, Reader.outcome_cons]
  simp [Reader.step, hs, hb]

private theorem delimited_items (xs : List Json) (rest : List Char) : Delimited (printItems xs ++ rest) := by
  cases xs with
  | nil => rw [printItems]; exact delimited_cons (by simp) _
  | cons x xs => rw [printItems]; exact delimited_cons (by simp) _

private theorem delimited_members (ms : List (String × Json)) (rest : List Char) :
    Delimited (printMembers ms ++ rest) := by
  cases ms with
  | nil => rw [printMembers]; exact delimited_cons (by simp) _
  | cons m ms => rw [printMembers]; exact delimited_cons (by simp) _

mutual
/-- Under any stack, a printed value is read as that value. -/
theorem outcome_print (st : List Layer) (j : Json) (rest : List Char) (hr : Delimited rest) :
    (Reader.mk st .value).outcome (print j ++ rest) = (Reader.mk st (.done j)).outcome rest := by
  match j with
  | .null => rw [print]; rfl
  | .bool true => rw [print]; rfl
  | .bool false => rw [print]; rfl
  | .num n => rw [print]; exact outcome_number st n rest hr
  | .str s => rw [print]; exact outcome_printString st s rest
  | .arr [] => rw [print]; rfl
  | .arr (x :: xs) =>
    have hopen : (Reader.mk st .value).step '[' = some ⟨st, .firstItem⟩ := rfl
    rw [print, List.cons_append, Reader.outcome_step hopen, List.append_assoc, outcome_firstItem,
      outcome_print (.items [] :: st) x _ (delimited_items xs rest), outcome_printItems _ _ _ _ _ hr]
    rfl
  | .obj [] => rw [print]; rfl
  | .obj ((k, v) :: ms) =>
    have hopen : (Reader.mk st .value).step '\x7b' = some ⟨st, .firstKey⟩ := rfl
    rw [print, List.cons_append, Reader.outcome_step hopen, List.append_assoc, List.cons_append,
      List.append_assoc, outcome_printKey st .firstKey [] k _ rfl,
      outcome_print (.members [] k :: st) v _ (delimited_members ms rest), outcome_printMembers _ _ _ _ _ _ hr]
    rfl

private theorem outcome_printItems (st : List Layer) (x : Json) (xs ys : List Json) (rest : List Char)
    (hr : Delimited rest) :
    (Reader.mk (.items xs :: st) (.done x)).outcome (printItems ys ++ rest) =
      (Reader.mk st (.done (.arr ((x :: xs).reverse ++ ys)))).outcome rest := by
  match ys with
  | [] =>
    rw [printItems, List.append_nil]
    rfl
  | y :: ys =>
    have hcomma : (Reader.mk (.items xs :: st) (.done x)).step ',' = some ⟨.items (x :: xs) :: st, .value⟩ := rfl
    rw [printItems, List.cons_append, Reader.outcome_step hcomma, List.append_assoc,
      outcome_print _ y _ (delimited_items ys rest), outcome_printItems st y (x :: xs) ys rest hr]
    simp

private theorem outcome_printMembers (st : List Layer) (v : Json) (k : String) (ms ns : List (String × Json))
    (rest : List Char) (hr : Delimited rest) :
    (Reader.mk (.members ms k :: st) (.done v)).outcome (printMembers ns ++ rest) =
      (Reader.mk st (.done (.obj (((k, v) :: ms).reverse ++ ns)))).outcome rest := by
  match ns with
  | [] =>
    rw [printMembers, List.append_nil]
    rfl
  | (k', v') :: ns =>
    have hcomma : (Reader.mk (.members ms k :: st) (.done v)).step ',' = some ⟨st, .nextKey ((k, v) :: ms)⟩ := rfl
    rw [printMembers, List.cons_append, Reader.outcome_step hcomma, List.append_assoc, List.cons_append,
      List.append_assoc, outcome_printKey st (.nextKey ((k, v) :: ms)) ((k, v) :: ms) k' _ rfl,
      outcome_print _ v' _ (delimited_members ns rest), outcome_printMembers st v' k' ((k, v) :: ms) ns rest hr]
    simp
end

/-- A printed value reads back as itself. -/
theorem read_print (j : Json) : read (print j) = some j := by
  have h := outcome_print [] j [] delimited_nil
  rw [List.append_nil] at h
  exact h

@[simp] theorem readText_printText (j : Json) : readText (printText j) = some j := by
  simp [printText, read_print]

end Values
end DeribitClientServer.Library.JsonText
