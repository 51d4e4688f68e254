import Mathlib.Data.List.Sort

/-! Member lists with last-write-wins lookup, and their ordered normal form:
one entry for each key, in key order, as an ordered map keeps them. -/
namespace DeribitClientServer.Library.Members
variable {κ α β : Type} [DecidableEq κ]

/-- The last entry for a key wins, so a repeated key hides the earlier ones. -/
def lookup (k : κ) : List (κ × α) → Option α
  | [] => none
  | (k', v) :: ms => (lookup k ms).or (if k' = k then some v else none)

def erase (k : κ) (ms : List (κ × α)) : List (κ × α) := ms.filter (fun m => m.1 ≠ k)

def put [LE κ] [DecidableLE κ] (k : κ) (v : α) (ms : List (κ × α)) : List (κ × α) :=
  (erase k ms).orderedInsert (fun a b => a.1 ≤ b.1) (k, v)

def normal [LE κ] [DecidableLE κ] (ms : List (κ × α)) : List (κ × α) :=
  ms.foldl (fun acc m => put m.1 m.2 acc) []

@[simp] theorem lookup_nil (k : κ) : lookup k ([] : List (κ × α)) = none := rfl

@[simp] theorem lookup_cons (k : κ) (m : κ × α) (ms : List (κ × α)) :
    lookup k (m :: ms) = (lookup k ms).or (if m.1 = k then some m.2 else none) := rfl

theorem lookup_map (f : α → β) (k : κ) (ms : List (κ × α)) :
    lookup k (ms.map (fun m => (m.1, f m.2))) = (lookup k ms).map f := by
  induction ms with
  | nil => rfl
  | cons m ms ih =>
    obtain ⟨k', v⟩ := m
    rw [List.map_cons, lookup_cons, lookup_cons, ih]
    cases lookup k ms <;> by_cases h : k' = k <;> simp [h]

theorem lookup_eq_none {k : κ} {ms : List (κ × α)} (h : ∀ m ∈ ms, m.1 ≠ k) : lookup k ms = none := by
  induction ms with
  | nil => rfl
  | cons m ms ih =>
    have hm := h m (by simp)
    simp [lookup_cons, ih (fun m' h' => h m' (by simp [h'])), hm]

theorem mem_of_lookup {k : κ} {v : α} {ms : List (κ × α)} (h : lookup k ms = some v) : (k, v) ∈ ms := by
  induction ms with
  | nil => cases h
  | cons m ms ih =>
    obtain ⟨k', v'⟩ := m
    rw [lookup_cons, Option.or_eq_some_iff] at h
    rcases h with h | ⟨_, h⟩
    · exact List.mem_cons_of_mem _ (ih h)
    · by_cases hk : k' = k
      · rw [if_pos hk, Option.some_inj] at h
        subst hk h
        exact List.mem_cons_self
      · rw [if_neg hk] at h
        cases h

/-- What is appended wins. -/
theorem lookup_concat (k k' : κ) (v : α) (ms : List (κ × α)) :
    lookup k (ms ++ [(k', v)]) = if k' = k then some v else lookup k ms := by
  induction ms with
  | nil => simp
  | cons m ms ih =>
    rw [List.cons_append, lookup_cons, ih, lookup_cons]
    by_cases hk : k' = k <;> simp [hk]

private theorem lookup_erase_self (k : κ) (ms : List (κ × α)) : lookup k (erase k ms) = none :=
  lookup_eq_none (fun m hm => by simpa [erase] using (List.mem_filter.mp hm).2)

private theorem lookup_erase_ne {k k' : κ} (h : k' ≠ k) (ms : List (κ × α)) :
    lookup k (erase k' ms) = lookup k ms := by
  induction ms with
  | nil => rfl
  | cons m ms ih =>
    obtain ⟨a, v⟩ := m
    by_cases ha : a = k'
    · subst ha
      simpa [erase, h] using ih
    · have he : erase k' ((a, v) :: ms) = (a, v) :: erase k' ms := by simp [erase, ha]
      rw [he, lookup_cons, lookup_cons, ih]

private theorem lookup_orderedInsert [LE κ] [DecidableLE κ] (k k' : κ) (v : α) (ms : List (κ × α))
    (h : lookup k' ms = none) :
    lookup k (ms.orderedInsert (fun a b => a.1 ≤ b.1) (k', v)) =
      if k' = k then some v else lookup k ms := by
  induction ms with
  | nil => simp
  | cons m ms ih =>
    obtain ⟨a, u⟩ := m
    rw [lookup_cons, Option.or_eq_none_iff] at h
    have ha : a ≠ k' := fun he => by simp [he] at h
    rw [List.orderedInsert]
    split
    · rw [lookup_cons, lookup_cons]
      by_cases hk : k' = k
      · subst hk
        simp [h.1, ha]
      · simp [hk]
    · rw [lookup_cons, ih h.1, lookup_cons]
      by_cases hk : k' = k <;> simp [hk]

/-- Writing a key changes what that key reads as and nothing else. -/
theorem lookup_put [LE κ] [DecidableLE κ] (k k' : κ) (v : α) (ms : List (κ × α)) :
    lookup k (put k' v ms) = if k' = k then some v else lookup k ms := by
  rw [put, lookup_orderedInsert k k' v _ (lookup_erase_self k' ms)]
  by_cases h : k' = k
  · simp [h]
  · simp [h, lookup_erase_ne h]

@[simp] theorem lookup_put_self [LE κ] [DecidableLE κ] (k : κ) (v : α) (ms : List (κ × α)) :
    lookup k (put k v ms) = some v := by
  simp [lookup_put]

theorem lookup_put_ne [LE κ] [DecidableLE κ] {k k' : κ} (h : k' ≠ k) (v : α) (ms : List (κ × α)) :
    lookup k (put k' v ms) = lookup k ms := by
  simp [lookup_put, h]

private theorem lookup_foldl_put [LE κ] [DecidableLE κ] (k : κ) (ms acc : List (κ × α)) :
    lookup k (ms.foldl (fun acc m => put m.1 m.2 acc) acc) = (lookup k ms).or (lookup k acc) := by
  induction ms generalizing acc with
  | nil => simp
  | cons m ms ih =>
    obtain ⟨k', v⟩ := m
    rw [List.foldl_cons, ih, lookup_put, lookup_cons]
    by_cases h : k' = k <;> simp [h]

/-- The normal form reads the same at every key. -/
@[simp] theorem lookup_normal [LE κ] [DecidableLE κ] (k : κ) (ms : List (κ × α)) :
    lookup k (normal ms) = lookup k ms := by
  simp [normal, lookup_foldl_put]

section Order
variable {κ : Type} [LinearOrder κ]

def Ascending (ms : List (κ × α)) : Prop := ms.Pairwise (fun a b => a.1 < b.1)

private theorem erase_of_ascending {k : κ} {ms : List (κ × α)} (h : ∀ m ∈ ms, m.1 < k) : erase k ms = ms :=
  List.filter_eq_self.mpr (fun m hm => by simpa using (h m hm).ne)

private theorem orderedInsert_last {k : κ} {v : α} {ms : List (κ × α)} (h : ∀ m ∈ ms, m.1 < k) :
    ms.orderedInsert (fun a b => a.1 ≤ b.1) (k, v) = ms ++ [(k, v)] := by
  induction ms with
  | nil => rfl
  | cons m ms ih =>
    have hm : ¬ k ≤ m.1 := not_le.mpr (h m (by simp))
    rw [List.orderedInsert, if_neg hm, ih (fun m' h' => h m' (by simp [h']))]
    rfl

private theorem ascending_orderedInsert {k : κ} {v : α} {ms : List (κ × α)} (hs : Ascending ms)
    (hk : ∀ m ∈ ms, m.1 ≠ k) : Ascending (ms.orderedInsert (fun a b => a.1 ≤ b.1) (k, v)) := by
  induction ms with
  | nil => exact List.pairwise_singleton _ _
  | cons m ms ih =>
    obtain ⟨hm, hms⟩ := List.pairwise_cons.mp hs
    have hne := hk m (by simp)
    rw [List.orderedInsert]
    split
    · rename_i hle
      have hlt : k < m.1 := lt_of_le_of_ne hle (Ne.symm hne)
      refine List.pairwise_cons.mpr ⟨?_, hs⟩
      intro m' hm'
      rcases List.mem_cons.mp hm' with rfl | hm'
      · exact hlt
      · exact hlt.trans (hm m' hm')
    · rename_i hle
      refine List.pairwise_cons.mpr ⟨?_, ih hms (fun m' h' => hk m' (by simp [h']))⟩
      intro m' hm'
      rcases (List.mem_orderedInsert _).mp hm' with rfl | hm'
      · exact not_le.mp hle
      · exact hm m' hm'

private theorem ascending_put {k : κ} {v : α} {ms : List (κ × α)} (hs : Ascending ms) : Ascending (put k v ms) := by
  apply ascending_orderedInsert
  · exact List.Pairwise.sublist List.filter_sublist hs
  · intro m hm
    simpa using (List.mem_filter.mp hm).2

theorem ascending_normal (ms : List (κ × α)) : Ascending (normal ms) := by
  have h (acc : List (κ × α)) (ha : Ascending acc) :
      Ascending (ms.foldl (fun acc m => put m.1 m.2 acc) acc) := by
    induction ms generalizing acc with
    | nil => exact ha
    | cons m ms ih => exact ih _ (ascending_put ha)
  exact h [] List.Pairwise.nil

private theorem foldl_put_ascending (acc ms : List (κ × α)) (h : Ascending (acc ++ ms)) :
    ms.foldl (fun acc m => put m.1 m.2 acc) acc = acc ++ ms := by
  induction ms generalizing acc with
  | nil => simp
  | cons m ms ih =>
    have hlt : ∀ a ∈ acc, a.1 < m.1 := fun a ha =>
      (List.pairwise_append.mp h).2.2 a ha m (by simp)
    have hput : put m.1 m.2 acc = acc ++ [m] := by
      rw [put, erase_of_ascending hlt, orderedInsert_last hlt]
    rw [List.foldl_cons, hput, ih _ (by simpa using h)]
    simp

theorem normal_of_ascending {ms : List (κ × α)} (h : Ascending ms) : normal ms = ms :=
  foldl_put_ascending [] ms h

private theorem orderedInsert_map (f : α → β) (k : κ) (v : α) (ms : List (κ × α)) :
    (ms.orderedInsert (fun a b => a.1 ≤ b.1) (k, v)).map (fun m => (m.1, f m.2)) =
      (ms.map (fun m => (m.1, f m.2))).orderedInsert (fun a b => a.1 ≤ b.1) (k, f v) :=
  List.map_orderedInsert _ _ (fun m : κ × α => (m.1, f m.2)) ms (k, v) (fun _ _ => Iff.rfl) (fun _ _ => Iff.rfl)

theorem normal_map (f : α → β) (ms : List (κ × α)) :
    normal (ms.map (fun m => (m.1, f m.2))) = (normal ms).map (fun m => (m.1, f m.2)) := by
  have herase (k : κ) (acc : List (κ × α)) :
      (erase k acc).map (fun m => (m.1, f m.2)) = erase k (acc.map (fun m => (m.1, f m.2))) := by
    simp [erase, List.filter_map, Function.comp_def]
  have hfold (acc : List (κ × α)) :
      (ms.map (fun m => (m.1, f m.2))).foldl (fun acc m => put m.1 m.2 acc) (acc.map (fun m => (m.1, f m.2))) =
        (ms.foldl (fun acc m => put m.1 m.2 acc) acc).map (fun m => (m.1, f m.2)) := by
    induction ms generalizing acc with
    | nil => rfl
    | cons m ms ih =>
      rw [List.map_cons, List.foldl_cons, List.foldl_cons, ← ih]
      simp only [put, orderedInsert_map, herase]
  exact hfold []

end Order
end DeribitClientServer.Library.Members
