import DeribitClientServer.Library.JsonRoundTrip

/-! Raw text put inside a string literal of an object under construction. The
closing quote and brace complete the object exactly when the spliced text
leaves the reader inside a string member of that same object. -/
namespace DeribitClientServer.Library.JsonText
open Utf8

/-- Inside a string that is a member of the outermost object. -/
def inMember (ms : List (String × Json)) (k : String) (acc : List Piece) : Reader :=
  ⟨[.members ms k], .quoted .plain acc⟩

def closeMember (ms : List (String × Json)) (k : String) (acc : List Piece) : Json :=
  .obj ((k, .str (literal acc)) :: ms).reverse

private theorem afterValue_quote (st : List Layer) (v : Json) : afterValue st v '"' = none := by
  match st with
  | [] | .items _ :: _ | .members _ _ :: _ => simp [afterValue, isSpace]

private theorem afterValue_brace {st : List Layer} {v j : Json}
    (h : (afterValue st v '\x7d').bind Reader.finish = some j) :
    ∃ ms k, st = [.members ms k] ∧ j = .obj ((k, v) :: ms).reverse := by
  match st with
  | [] => simp [afterValue, isSpace] at h
  | .items _ :: _ => simp [afterValue, isSpace] at h
  | .members ms k :: st =>
    cases st with
    | nil =>
      refine ⟨ms, k, rfl, ?_⟩
      simpa [afterValue, isSpace, Reader.finish] using h.symm
    | cons layer st => simp [afterValue, isSpace, Reader.finish] at h

private theorem outcome_two (r : Reader) (a b : Char) :
    r.outcome [a, b] = (r.step a).bind (fun r' => (r'.step b).bind Reader.finish) := by
  rw [Reader.outcome_cons]
  congr 1
  funext r'
  rw [Reader.outcome_cons]
  rfl

/-- A quote and a brace end a text only from inside a member of its outermost object. -/
theorem outcome_quote_brace (r : Reader) (j : Json) :
    r.outcome ['"', '\x7d'] = some j ↔ ∃ ms k acc, r = inMember ms k acc ∧ j = closeMember ms k acc := by
  rw [outcome_two]
  constructor
  · intro h
    obtain ⟨st, m⟩ := r
    cases m with
    | quoted q acc =>
      cases q with
      | plain =>
        have h' : (afterValue st (.str (literal acc)) '\x7d').bind Reader.finish = some j := h
        obtain ⟨ms, k, rfl, hj⟩ := afterValue_brace h'
        exact ⟨ms, k, acc, rfl, hj⟩
      | escape => cases st <;> simp [Reader.step, Quoted.step, escaped, Reader.finish] at h
      | unit v n => simp [Reader.step, Quoted.step, hexValue] at h
    | key ms q acc =>
      cases q with
      | plain => simp [Reader.step, Quoted.step, isSpace] at h
      | escape => cases st <;> simp [Reader.step, Quoted.step, escaped, Reader.finish] at h
      | unit v n => simp [Reader.step, Quoted.step, hexValue] at h
    | value => cases st <;> simp [Reader.step, beginValue, isSpace, Quoted.step, Reader.finish] at h
    | firstItem => cases st <;> simp [Reader.step, beginValue, isSpace, Quoted.step, Reader.finish] at h
    | firstKey => cases st <;> simp [Reader.step, isSpace, Quoted.step, Reader.finish] at h
    | nextKey ms => cases st <;> simp [Reader.step, isSpace, Quoted.step, Reader.finish] at h
    | colon ms k => simp [Reader.step, isSpace] at h
    | word w => cases w <;> simp [Reader.step, Word.step] at h
    | number d acc =>
      have hd : d.step '"' = none := by cases d <;> decide
      simp [Reader.step, hd, afterValue_quote] at h
    | done v => simp [Reader.step, afterValue_quote] at h
  · rintro ⟨ms, k, acc, rfl, rfl⟩
    rfl

/-- When a spliced text is read in place, the frame completes exactly if the
reader is then inside a string member of the outermost object. -/
theorem read_splice (cs : List Char) (j : Json) :
    read (cs ++ ['"', '\x7d']) = some j ↔
      ∃ ms k acc, start.run cs = some (inMember ms k acc) ∧ j = closeMember ms k acc := by
  have h : read (cs ++ ['"', '\x7d']) = (start.run cs).bind (fun r => r.outcome ['"', '\x7d']) := by
    rw [read, Reader.run_append, Option.bind_assoc]
    rfl
  rw [h, Option.bind_eq_some_iff]
  constructor
  · rintro ⟨r, hr, hj⟩
    obtain ⟨ms, k, acc, rfl, rfl⟩ := (outcome_quote_brace r j).mp hj
    exact ⟨ms, k, acc, hr, rfl⟩
  · rintro ⟨ms, k, acc, hr, rfl⟩
    exact ⟨_, hr, (outcome_quote_brace _ _).mpr ⟨ms, k, acc, rfl, rfl⟩⟩

/-- Characters a string literal holds as they are. -/
def PlainText (cs : List Char) : Prop := ∀ c ∈ cs, c ≠ '"' ∧ c ≠ '\\' ∧ 0x20 ≤ c.toNat

theorem plainText_of_all {cs : List Char} (h : cs.all (fun c => c ≠ '"' ∧ c ≠ '\\' ∧ 0x20 ≤ c.toNat) = true) :
    PlainText cs := by
  intro c hc
  exact of_decide_eq_true (List.all_eq_true.mp h c hc)

theorem collect_plain (cs : List Char) (acc : List Piece) (h : PlainText cs) :
    Quoted.plain.collect acc cs = some (.plain, (cs.map Piece.char).reverse ++ acc) := by
  induction cs generalizing acc with
  | nil => rfl
  | cons c cs ih =>
    obtain ⟨hq, hb, hc⟩ := h c (by simp)
    have hstep : Quoted.plain.step acc c = .more .plain (.char c :: acc) := by
      simp [Quoted.step, hq, hb, Nat.not_lt.mpr hc]
    rw [Quoted.collect, hstep]
    simp only [ih (.char c :: acc) (fun d hd => h d (by simp [hd])), List.map_cons, List.reverse_cons,
      List.append_assoc, List.singleton_append]

/-- Plain text stays inside the literal it was put in. -/
theorem run_plain (ms : List (String × Json)) (k : String) (acc : List Piece) (cs : List Char)
    (h : PlainText cs) : (inMember ms k acc).run cs = some (inMember ms k ((cs.map Piece.char).reverse ++ acc)) :=
  Reader.run_quoted _ _ _ _ _ _ (collect_plain cs acc h)

/-- A quote closes the literal, and only a separator or white space may follow. -/
theorem run_broken (ms : List (String × Json)) (k : String) (acc : List Piece) (cs rest : List Char) (c : Char)
    (h : PlainText cs) (hc : isSpace c = false ∧ c ≠ ',' ∧ c ≠ '\x7d') :
    (inMember ms k acc).run (cs ++ '"' :: c :: rest) = none := by
  rw [Reader.run_append, run_plain ms k acc cs h, Option.bind_some]
  have hclose (u : List Piece) : (inMember ms k u).step '"' =
      some ⟨[.members ms k], .done (.str (literal u))⟩ := rfl
  rw [Reader.run_cons, hclose, Option.bind_some, Reader.run_cons]
  simp [Reader.step, afterValue, hc.1, hc.2.1, hc.2.2]

end DeribitClientServer.Library.JsonText
