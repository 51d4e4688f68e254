import DeribitClientServer.Library.JsonText

/-! How the text of an object begins. The bottom of the stack, or the mode over
an empty one, tells what kind of value is being read, and no step changes that. -/
namespace DeribitClientServer.Library.JsonText
open Utf8

/-- With nothing open, what is being read will not be an object. -/
def Mode.NoObject : Mode → Prop
  | .firstItem | .quoted _ _ | .word _ | .number _ _ => True
  | .done v => ∀ ms, v ≠ .obj ms
  | .value | .firstKey | .nextKey _ | .key _ _ _ | .colon _ _ => False

/-- An open list is no object, whatever its items. -/
def Layer.NoObject : Layer → Prop
  | .items _ => True
  | .members _ _ => False

def Reader.NoObject (r : Reader) : Prop := r.stack.getLast?.elim r.mode.NoObject Layer.NoObject

section Stacks
variable {st : List Layer} {m m' : Mode}

/-- Over an open value the mode does not matter. -/
private theorem noObject_mode (hm : st = [] → m'.NoObject) (hr : (Reader.mk st m).NoObject) :
    (Reader.mk st m').NoObject := by
  cases st with
  | nil => exact hm rfl
  | cons l st =>
    unfold Reader.NoObject at hr ⊢
    rw [List.getLast?_cons, Option.elim_some] at hr ⊢
    exact hr

/-- An open list is on its way to the same value as at its beginning. -/
private theorem noObject_items {xs : List Json} :
    (Reader.mk (.items xs :: st) m).NoObject ↔ (Reader.mk st .firstItem).NoObject := by
  cases st with
  | nil => exact Iff.rfl
  | cons l st =>
    unfold Reader.NoObject
    rw [List.getLast?_cons_cons, List.getLast?_cons]
    rfl

private theorem noObject_members {ms : List (String × Json)} {k : String} :
    (Reader.mk (.members ms k :: st) m).NoObject ↔ st ≠ [] ∧ (Reader.mk st m).NoObject := by
  cases st with
  | nil => exact iff_of_false id (fun h => h.1 rfl)
  | cons l st =>
    unfold Reader.NoObject
    rw [List.getLast?_cons_cons]
    exact (and_iff_right (List.cons_ne_nil l st)).symm

end Stacks

section Steps
variable {st : List Layer} {v : Json} {m : Mode} {c : Char} {r r' : Reader}

private theorem beginValue_stack (h : beginValue st c = some r') : r'.stack = st := by
  unfold beginValue at h
  split_ifs at h
  all_goals first
    | exact congrArg Reader.stack (Option.some.inj h).symm
    | skip
  obtain ⟨d, _, rfl⟩ := Option.map_eq_some_iff.mp h
  rfl

private theorem noObject_beginValue (hr : (Reader.mk st .value).NoObject) (h : beginValue st c = some r') :
    r'.NoObject := by
  have hstack := beginValue_stack h
  obtain ⟨st', m'⟩ := r'
  obtain rfl : st' = st := hstack
  refine noObject_mode (fun hst => ?_) hr
  subst hst
  exact absurd hr id

private theorem noObject_afterValue (hr : (Reader.mk st (.done v)).NoObject) (h : afterValue st v c = some r') :
    r'.NoObject := by
  unfold afterValue at h
  by_cases hc : isSpace c = true
  · rw [if_pos hc, Option.some_inj] at h
    exact h ▸ hr
  · rw [if_neg hc] at h
    match st with
    | [] => cases h
    | .items xs :: st =>
      simp only at h
      split_ifs at h with hcomma hclose <;> cases h
      · exact noObject_items.mpr (noObject_items.mp hr)
      · exact noObject_mode (fun _ ms => Json.noConfusion) (noObject_items.mp hr)
    | .members ms k :: st =>
      obtain ⟨hst, hrest⟩ := noObject_members.mp hr
      simp only at h
      split_ifs at h with hcomma hclose <;> cases h
      · exact noObject_mode (fun hn => absurd hn hst) hrest
      · exact noObject_mode (fun hn => absurd hn hst) hrest

private theorem word_value {w : Word} (h : w.step c = some (.inr v)) (ms : List (String × Json)) : v ≠ .obj ms := by
  cases w <;> simp only [Word.step] at h <;> split_ifs at h <;> cases h <;> exact Json.noConfusion

/-- Between the members of an object the reader is at work on no object only
inside a list. -/
private theorem noObject_inside (hm : ¬ m.NoObject) (hr : (Reader.mk st m).NoObject)
    (h : (Reader.mk st m).step c = some r') : r'.NoObject := by
  have hst : st ≠ [] := by
    rintro rfl
    exact hm hr
  have hmode (m' : Mode) : (Reader.mk st m').NoObject := noObject_mode (fun hn => absurd hn hst) hr
  cases m with
  | value => exact noObject_beginValue hr h
  | firstKey | nextKey ms =>
    simp only [Reader.step] at h
    split_ifs at h <;> cases h <;> exact hmode _
  | colon ms k =>
    simp only [Reader.step] at h
    split_ifs at h with hc hcolon <;> cases h
    · exact hr
    · exact noObject_members.mpr ⟨hst, hmode _⟩
  | key ms q acc =>
    simp only [Reader.step] at h
    split at h <;> cases h <;> exact hmode _
  | done v => exact noObject_afterValue hr h
  | firstItem | quoted q acc | word w | number d acc => exact absurd trivial hm

/-- A reader at work on no object stays so, whatever comes. -/
theorem noObject_step (hr : r.NoObject) (h : r.step c = some r') : r'.NoObject := by
  obtain ⟨st, m⟩ := r
  cases m with
  | value | firstKey | nextKey ms | key ms q acc | colon ms k => exact noObject_inside id hr h
  | done v => exact noObject_afterValue hr h
  | firstItem =>
    simp only [Reader.step] at h
    split_ifs at h with hc hclose
    · exact Option.some_inj.mp h ▸ hr
    · cases h
      exact noObject_mode (fun _ ms => Json.noConfusion) hr
    · exact noObject_beginValue (noObject_items.mpr hr) h
  | quoted q acc =>
    simp only [Reader.step] at h
    split at h <;> cases h
    · exact noObject_mode (fun _ => trivial) hr
    · exact noObject_mode (fun _ ms => Json.noConfusion) hr
  | word w =>
    simp only [Reader.step] at h
    split at h <;> cases h
    · exact noObject_mode (fun _ => trivial) hr
    · rename_i v hw
      exact noObject_mode (fun _ => word_value hw) hr
  | number d acc =>
    simp only [Reader.step] at h
    split at h
    · cases h
      exact noObject_mode (fun _ => trivial) hr
    · obtain ⟨n, _, hn⟩ := Option.bind_eq_some_iff.mp h
      exact noObject_afterValue (noObject_mode (fun _ ms => Json.noConfusion) hr) hn

theorem noObject_run {cs : List Char} (hr : r.NoObject) (h : r.run cs = some r') : r'.NoObject := by
  induction cs generalizing r with
  | nil =>
    cases h
    exact hr
  | cons c cs ih =>
    rw [Reader.run_cons] at h
    obtain ⟨r₁, hstep, hrest⟩ := Option.bind_eq_some_iff.mp h
    exact ih (noObject_step hr hstep) hrest

theorem noObject_finish (hr : r.NoObject) (ms : List (String × Json)) : r.finish ≠ some (.obj ms) := by
  obtain ⟨st, m⟩ := r
  cases st with
  | cons l st => exact fun h => nomatch h
  | nil =>
    cases m with
    | done v => exact fun h => hr ms (Option.some_inj.mp h)
    | number d acc =>
      intro h
      obtain ⟨n, _, hn⟩ := Option.map_eq_some_iff.mp h
      cases hn
    | value | firstItem | firstKey | nextKey _ | key _ _ _ | colon _ _ | quoted _ _ | word _ => exact fun h => nomatch h

end Steps

section Openings
variable {ms : List (String × Json)}

/-- A first character that is neither white space nor a brace begins no object. -/
private theorem start_step {c : Char} {r : Reader} (hs : isSpace c = false) (hb : c ≠ '\x7b')
    (h : start.step c = some r) : r.NoObject := by
  have h' : beginValue [] c = some r := h
  unfold beginValue at h'
  rw [if_neg (by simp [hs])] at h'
  split_ifs at h' <;> try cases h'
  all_goals first
    | trivial
    | skip
  obtain ⟨d, _, rfl⟩ := Option.map_eq_some_iff.mp h'
  trivial

/-- The text of an object opens, after white space, with a brace. -/
theorem read_object {cs : List Char} (h : read cs = some (.obj ms)) :
    ∃ ws rest, cs = ws ++ '\x7b' :: rest ∧ ∀ c ∈ ws, isSpace c = true := by
  induction cs with
  | nil => cases h
  | cons c cs ih =>
    cases hs : isSpace c with
    | true =>
      have hstep : start.step c = some start := if_pos hs
      have hread : read (c :: cs) = read cs := by
        rw [read, Reader.run_cons, hstep]
        rfl
      obtain ⟨ws, rest, rfl, hws⟩ := ih (hread ▸ h)
      exact ⟨c :: ws, rest, rfl, List.forall_mem_cons.mpr ⟨hs, hws⟩⟩
    | false =>
      by_cases hb : c = '\x7b'
      · exact ⟨[], cs, by rw [hb]; rfl, by simp⟩
      · obtain ⟨r, hrun, hfin⟩ := Option.bind_eq_some_iff.mp h
        rw [Reader.run_cons] at hrun
        obtain ⟨r₁, hstep, hrest⟩ := Option.bind_eq_some_iff.mp hrun
        exact absurd hfin (noObject_finish (noObject_run (start_step hs hb hstep) hrest) ms)

/-- The bytes of JSON's white space. -/
def isSpaceByte (x : UInt8) : Bool := x = 0x20 || x = 0x09 || x = 0x0A || x = 0x0D

theorem utf8_space {c : Char} (h : isSpace c = true) : ∃ x, String.utf8EncodeChar c = [x] ∧ isSpaceByte x = true := by
  simp only [isSpace, Bool.or_eq_true, decide_eq_true_eq] at h
  obtain ((rfl | rfl) | rfl) | rfl := h
  all_goals exact ⟨_, rfl, rfl⟩

/-- So do its bytes. -/
theorem head_object {b : Bytes} (h : readText b = some (.obj ms)) :
    b.head? = some '\x7b'.toUInt8 ∨ ∃ x, b.head? = some x ∧ isSpaceByte x = true := by
  obtain ⟨s, hs, hread⟩ := Option.bind_eq_some_iff.mp h
  obtain rfl := decode_eq_some_iff.mp hs
  obtain ⟨ws, rest, hcs, hws⟩ := read_object hread
  rw [encode, hcs]
  cases ws with
  | nil => exact .inl rfl
  | cons c ws =>
    obtain ⟨x, hx, hspace⟩ := utf8_space (hws c List.mem_cons_self)
    refine .inr ⟨x, ?_, hspace⟩
    rw [List.cons_append, List.flatMap_cons, hx]
    rfl

end Openings

section Marks

/-- No step takes a null character. -/
private theorem step_null (r : Reader) : r.step '\x00' = none := by
  obtain ⟨st, m⟩ := r
  have hafter (v : Json) : afterValue st v '\x00' = none := by
    match st with
    | [] | .items _ :: _ | .members _ _ :: _ => rfl
  cases m with
  | value | firstItem | firstKey | nextKey _ | colon _ _ => rfl
  | key ms q acc | quoted q acc =>
    cases q with
    | plain | escape => rfl
    | unit v n => cases n <;> rfl
  | word w => cases w <;> rfl
  | number d acc =>
    have hd : d.step '\x00' = none := by cases d <;> rfl
    simp [Reader.step, hd, hafter]
  | done v => exact hafter v

theorem run_null {cs : List Char} {r r' : Reader} (h : r.run cs = some r') : '\x00' ∉ cs := by
  induction cs generalizing r with
  | nil => exact List.not_mem_nil
  | cons c cs ih =>
    rw [Reader.run_cons] at h
    obtain ⟨r₁, hstep, hrest⟩ := Option.bind_eq_some_iff.mp h
    intro hmem
    rcases List.mem_cons.mp hmem with rfl | hmem
    · rw [step_null] at hstep
      cases hstep
    · exact ih hrest hmem

/-- A JSON text holds no null byte. -/
theorem zero_notMem_text {b : Bytes} {v : Json} (h : readText b = some v) : (0 : UInt8) ∉ b := by
  obtain ⟨s, hs, hread⟩ := Option.bind_eq_some_iff.mp h
  obtain ⟨r, hrun, _⟩ := Option.bind_eq_some_iff.mp hread
  obtain rfl := decode_eq_some_iff.mp hs
  intro hmem
  obtain ⟨c, hc, hx⟩ := List.mem_flatMap.mp hmem
  have hnull : c = '\x00' := eq_of_ascii_mem rfl rfl hx
  exact run_null hrun (hnull ▸ hc)

/-- The bytes of a byte order mark. -/
def byteOrderMark : Bytes := [0xEF, 0xBB, 0xBF]

/-- A JSON text does not begin with a byte order mark. -/
theorem no_mark_text {b : Bytes} {v : Json} (h : readText b = some v) : byteOrderMark.isPrefixOf b = false := by
  rw [Bool.eq_false_iff]
  intro hm
  obtain ⟨rest, rfl⟩ := List.isPrefixOf_iff_prefix.mp hm
  have hmark : byteOrderMark = encode "\uFEFF" := by decide
  obtain ⟨s, hs, hread⟩ := Option.bind_eq_some_iff.mp h
  rw [hmark, decode_encode_append] at hs
  obtain ⟨t, _, rfl⟩ := Option.map_eq_some_iff.mp hs
  rw [String.toList_append] at hread
  cases hread

end Marks
end DeribitClientServer.Library.JsonText
