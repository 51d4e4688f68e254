import Mathlib.Data.List.Nodup

/-! Records: one entry for each key, kept in the order in which the keys were
first written. Writing a key again replaces its value in place. -/
namespace DeribitClientServer.Library
variable {κ α : Type}

structure Record (κ α : Type) where
  entries : List (κ × α)
  nodup : (entries.map Prod.fst).Nodup

namespace Record

def empty : Record κ α := ⟨[], List.nodup_nil⟩

def keys (r : Record κ α) : List κ := r.entries.map Prod.fst

@[simp] theorem keys_empty : (empty : Record κ α).keys = [] := rfl

theorem nodup_keys (r : Record κ α) : r.keys.Nodup := r.nodup

variable [DecidableEq κ]

def readEntries (k : κ) : List (κ × α) → Option α
  | [] => none
  | m :: ms => if m.1 = k then some m.2 else readEntries k ms

def read (r : Record κ α) (k : κ) : Option α := readEntries k r.entries

def writeEntries (k : κ) (v : α) : List (κ × α) → List (κ × α)
  | [] => [(k, v)]
  | m :: ms => if m.1 = k then (k, v) :: ms else m :: writeEntries k v ms

private theorem keys_writeEntries (k : κ) (v : α) (ms : List (κ × α)) :
    (writeEntries k v ms).map Prod.fst =
      if k ∈ ms.map Prod.fst then ms.map Prod.fst else ms.map Prod.fst ++ [k] := by
  induction ms with
  | nil => rfl
  | cons m ms ih =>
    by_cases h : m.1 = k
    · simp [writeEntries, h]
    · rw [writeEntries, if_neg h, List.map_cons, List.map_cons, ih]
      by_cases hk : k ∈ ms.map Prod.fst
      · rw [if_pos hk, if_pos (List.mem_cons_of_mem _ hk)]
      · have hm : k ∉ m.1 :: ms.map Prod.fst := by
          rw [List.mem_cons, not_or]
          exact ⟨Ne.symm h, hk⟩
        rw [if_neg hk, if_neg hm, List.cons_append]

private theorem nodup_writeEntries (k : κ) (v : α) {ms : List (κ × α)} (h : (ms.map Prod.fst).Nodup) :
    ((writeEntries k v ms).map Prod.fst).Nodup := by
  rw [keys_writeEntries]
  split
  · exact h
  · next hk =>
    refine List.nodup_append.mpr ⟨h, List.nodup_singleton k, fun a ha b hb hab => ?_⟩
    rw [List.mem_singleton] at hb
    exact hk (hb ▸ hab ▸ ha)

def write (r : Record κ α) (k : κ) (v : α) : Record κ α :=
  ⟨writeEntries k v r.entries, nodup_writeEntries k v r.nodup⟩

variable (r : Record κ α)

@[simp] theorem read_empty (k : κ) : (empty : Record κ α).read k = none := rfl

private theorem readEntries_writeEntries (k k' : κ) (v : α) (ms : List (κ × α)) :
    readEntries k (writeEntries k' v ms) = if k' = k then some v else readEntries k ms := by
  induction ms with
  | nil => rfl
  | cons m ms ih =>
    by_cases hm : m.1 = k'
    · by_cases hk : k' = k <;> simp [writeEntries, readEntries, hm, hk]
    · rw [writeEntries, if_neg hm, readEntries, ih, readEntries]
      by_cases hk : k' = k
      · subst hk
        simp [hm]
      · simp [hk]

/-- A write is read back at its key, and leaves every other key as it was. -/
theorem read_write (k k' : κ) (v : α) : (r.write k' v).read k = if k' = k then some v else r.read k :=
  readEntries_writeEntries k k' v r.entries

theorem keys_write (k : κ) (v : α) : (r.write k v).keys = if k ∈ r.keys then r.keys else r.keys ++ [k] :=
  keys_writeEntries k v r.entries

theorem mem_keys_write (k k' : κ) (v : α) : k ∈ (r.write k' v).keys ↔ k ∈ r.keys ∨ k = k' := by
  rw [keys_write]
  split
  · next h =>
    constructor
    · exact Or.inl
    · rintro (hk | rfl)
      · exact hk
      · exact h
  · rw [List.mem_append, List.mem_singleton]

end Record
end DeribitClientServer.Library
