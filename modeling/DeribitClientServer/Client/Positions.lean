import DeribitClientServer.Client.Script
import DeribitClientServer.Library.Record
import Mathlib.Data.List.Dedup
import Mathlib.Data.List.Induction
import Mathlib.Data.List.Sort

/-! The positions table: a record of records that updates rebuild by spreading,
and the rows it shows for one currency or for all of them. -/
namespace DeribitClientServer.Client
open Library Library.JsonText Library.Utf8 Library.Members

/-- The number of a key that objects list before the others, by number. -/
def arrayIndex (k : String) : Option Nat :=
  k.toNat?.bind (fun n => if toString n = k ∧ n < 2 ^ 32 - 1 then some n else none)

section Objects
variable {α : Type}

def ownKeys (r : Record String α) : List String :=
  (r.keys.filter (fun k => (arrayIndex k).isSome)).insertionSort
      (fun a b => (arrayIndex a).getD 0 ≤ (arrayIndex b).getD 0) ++
    r.keys.filter (fun k => !(arrayIndex k).isSome)

/-- Object.values -/
def objectValues (r : Record String α) : List α := (ownKeys r).filterMap r.read

theorem ownKeys_perm (r : Record String α) : (ownKeys r).Perm r.keys :=
  ((List.perm_insertionSort _ _).append_right _).trans (List.filter_append_perm _ _)

end Objects

section PositionsTable
variable (sc : Script)

def currencies : List String := ["BTC", "ETH", "USDC", "USDT", "EURR", "any"]

def types : List String := ["future", "option", "spot", "future_combo", "option_combo"]

/-- Only the listed currencies and types can be selected. -/
structure PositionsTable where
  positionsData : Record String (Record String Value)
  selectedCurrency : { c // c ∈ currencies }
  selectedType : { k // k ∈ types }

def PositionsTable.initial : PositionsTable := ⟨.empty, ⟨"BTC", by decide⟩, ⟨"future", by decide⟩⟩

/-- The updater spreads what is stored and what the currency has, if anything. -/
def storePositions (currency kind : String) (data : Value) (positionsData : Record String (Record String Value)) :
    Record String (Record String Value) :=
  positionsData.write currency (((positionsData.read currency).getD .empty).write kind data)

def PositionsTable.update (data : Value) : Handler PositionsTable Unit := do
  let currency ← Exec.ofExcept (template sc (prop? data "currency"))
  let kind ← Exec.ofExcept (template sc (prop? data "kind"))
  Exec.modify (fun t => { t with positionsData := storePositions currency kind (prop? data "data") t.positionsData })

def PositionsTable.handleMessage (event : Bytes) : Handler PositionsTable Unit :=
  tryCatch (onType "positions_update" event (PositionsTable.update sc)) (fun _ => pure ())

/-- value || [] -/
def orEmpty (v : Value) : Value := if truthy sc v then v else some (.arr [])

/-- What a callback of flatMap returns: an array is spread, another value is kept. -/
def flattened : Value → List Json
  | some (.arr xs) => xs
  | v => v.toList

def PositionsTable.displayedPositions (t : PositionsTable) : Value :=
  if t.selectedCurrency.1 = "any" then
    some (.arr ((objectValues t.positionsData).flatMap
      (fun currencyData => flattened (orEmpty sc ((currencyData.read t.selectedType.1).getD none)))))
  else orEmpty sc (((t.positionsData.read t.selectedCurrency.1).bind
    (fun currencyData => currencyData.read t.selectedType.1)).getD none)

/-- positionsData[c][k], if it has been set. -/
def PositionsTable.stored (t : PositionsTable) (c k : String) : Option Value :=
  (t.positionsData.read c).bind (fun currencyData => currencyData.read k)

def PositionsTable.receive (t : PositionsTable) (event : Bytes) : PositionsTable :=
  (PositionsTable.handleMessage sc event t).state

end PositionsTable

section Frames
variable (sc : Script)

/-- The pair a frame updates, with its data; none for every other frame. -/
def positionsIn (event : Bytes) : Option ((String × String) × Value) :=
  (readText event).bind (fun j =>
    if strictEq (j.get? "type") "positions_update" then
      (template sc (j.get? "currency")).toOption.bind (fun currency =>
        (template sc (j.get? "kind")).toOption.map (fun kind => ((currency, kind), j.get? "data")))
    else none)

def updatesIn (fs : List Bytes) : List ((String × String) × Value) := fs.filterMap (positionsIn sc)

/-- The data of the last update for a pair. -/
def latest (fs : List Bytes) (c k : String) : Option Value := lookup (c, k) (updatesIn sc fs)

def currenciesSeen (fs : List Bytes) : List String := ((updatesIn sc fs).map (fun u => u.1.1)).dedup

end Frames
section Reading
variable {sc : Script} {event : Bytes} {j : Json}

/-- Text that cannot be parsed and frames of other types update nothing. -/
theorem positionsIn_other (h : strictEq (typeOf event) "positions_update" = false) : positionsIn sc event = none := by
  unfold typeOf at h
  unfold positionsIn
  cases hj : readText event with
  | none => rfl
  | some j =>
    rw [hj, Option.bind_some] at h
    rw [Option.bind_some, if_neg (by simp [h])]

end Reading

section Receiving
variable {sc : Script} {event : Bytes} {t : PositionsTable}

/-- A frame stores the pair it updates; one that updates none changes nothing. -/
theorem PositionsTable.receive_eq (sc : Script) (event : Bytes) (t : PositionsTable) :
    t.receive sc event = match positionsIn sc event with
      | some ((c, k), data) => { t with positionsData := storePositions c k data t.positionsData }
      | none => t := by
  unfold PositionsTable.receive PositionsTable.handleMessage
  rw [Exec.run_tryCatch, Exec.orElse_pure_state]
  cases h : strictEq (typeOf event) "positions_update" with
  | false => rw [(onType_ignored h t).1, positionsIn_other h]
  | true =>
    have ht : ∃ j, readText event = some j ∧ onType "positions_update" event (PositionsTable.update sc) t =
        PositionsTable.update sc (some j) t := onType_taken h t
    obtain ⟨j, hj, hr⟩ := ht
    rw [typeOf, hj, Option.bind_some] at h
    rw [hr, positionsIn, hj, Option.bind_some, if_pos h]
    simp only [PositionsTable.update, prop?, Option.bind_some, Exec.run_bind, Exec.run_ofExcept]
    cases template sc (j.get? "currency") with
    | error e => rfl
    | ok currency => cases template sc (j.get? "kind") <;> rfl

theorem PositionsTable.stored_store (t : PositionsTable) (c k c' k' : String) (data : Value) :
    PositionsTable.stored { t with positionsData := storePositions c' k' data t.positionsData } c k =
      if (c', k') = (c, k) then some data else t.stored c k := by
  unfold PositionsTable.stored storePositions
  rw [Record.read_write]
  by_cases hc : c' = c
  · subst hc
    rw [if_pos rfl, Option.bind_some, Record.read_write]
    by_cases hk : k' = k
    · simp [hk]
    · cases t.positionsData.read c' <;> simp [hk]
  · simp [hc]

/-- A frame that updates no pair, unparseable text among them, changes nothing. -/
theorem PositionsTable.receive_other (h : positionsIn sc event = none) : t.receive sc event = t := by
  rw [PositionsTable.receive_eq, h]

theorem PositionsTable.stored_receive {p : String × String} {data : Value} (h : positionsIn sc event = some (p, data))
    (c k : String) : (t.receive sc event).stored c k = if p = (c, k) then some data else t.stored c k := by
  rw [PositionsTable.receive_eq, h]
  exact t.stored_store c k p.1 p.2 data

/-- Updates of different pairs may be taken in either order. -/
theorem PositionsTable.stored_comm {event event' : Bytes} {p q : String × String} {data data' : Value}
    (hp : positionsIn sc event = some (p, data)) (hq : positionsIn sc event' = some (q, data')) (h : p ≠ q)
    (c k : String) :
    ((t.receive sc event).receive sc event').stored c k = ((t.receive sc event').receive sc event).stored c k := by
  rw [PositionsTable.stored_receive hq, PositionsTable.stored_receive hp, PositionsTable.stored_receive hp,
    PositionsTable.stored_receive hq]
  by_cases hpc : p = (c, k)
  · have hqc : q ≠ (c, k) := fun hqc => h (hpc.trans hqc.symm)
    rw [if_neg hqc, if_pos hpc, if_pos hpc]
  · rw [if_neg hpc, if_neg hpc]

end Receiving

/-- What happens to a table: a frame, or a choice in one of its selects. -/
inductive TableAct where
  | frame (event : Bytes)
  | currency (c : { c // c ∈ currencies })
  | type (k : { k // k ∈ types })

section Runs
variable (sc : Script)

def PositionsTable.act (t : PositionsTable) : TableAct → PositionsTable
  | .frame event => t.receive sc event
  | .currency c => { t with selectedCurrency := c }
  | .type k => { t with selectedType := k }

def PositionsTable.after (acts : List TableAct) : PositionsTable := acts.foldl (PositionsTable.act sc) .initial

def framesOf (acts : List TableAct) : List Bytes :=
  acts.filterMap (fun | .frame event => some event | .currency _ | .type _ => none)

/-- The rows that the data of a pair make: the entries of an array, and nothing when there are no
data. What is no array is one row, unless it is falsy. -/
def rowsOf : Option Value → List Json
  | some (some (.arr xs)) => xs
  | some (some v) => if truthy sc (some v) then [v] else []
  | some none | none => []

@[simp] theorem rowsOf_none : rowsOf sc none = [] := rfl

@[simp] theorem rowsOf_arr (xs : List Json) : rowsOf sc (some (some (.arr xs))) = xs := rfl

/-- The table spreads what is stored, or an empty array, into these rows. -/
theorem flattened_orEmpty (data : Option Value) : flattened (orEmpty sc (data.getD none)) = rowsOf sc data := by
  match data with
  | none | some none | some (some (.arr xs)) => rfl
  | some (some .null) => rfl
  | some (some (.bool b)) => cases b <;> rfl
  | some (some (.obj ms)) => rfl
  | some (some (.num n)) =>
    cases h : truthy sc (some (.num n)) <;> simp [orEmpty, rowsOf, flattened, h]
  | some (some (.str s)) =>
    cases h : truthy sc (some (.str s)) <;> simp [orEmpty, rowsOf, flattened, h]

private theorem after_concat (acts : List TableAct) (a : TableAct) :
    PositionsTable.after sc (acts ++ [a]) = (PositionsTable.after sc acts).act sc a := by
  simp [PositionsTable.after]

private theorem updatesIn_concat (acts : List TableAct) (event : Bytes) :
    updatesIn sc (framesOf (acts ++ [.frame event])) =
      updatesIn sc (framesOf acts) ++ (positionsIn sc event).toList := by
  rw [framesOf, List.filterMap_append, updatesIn, List.filterMap_append]
  cases hu : positionsIn sc event <;> simp [updatesIn, framesOf, hu]

private theorem framesOf_select (acts : List TableAct) {a : TableAct} (h : ∀ event, a ≠ .frame event) :
    framesOf (acts ++ [a]) = framesOf acts := by
  cases a with
  | frame event => exact absurd rfl (h event)
  | currency c | type k => simp [framesOf]

/-- What is stored for a pair is the data of its last update. -/
theorem stored_after (acts : List TableAct) (c k : String) :
    (PositionsTable.after sc acts).stored c k = latest sc (framesOf acts) c k := by
  induction acts using List.reverseRecOn with
  | nil => rfl
  | append_singleton acts a ih =>
    rw [after_concat]
    cases a with
    | frame event =>
      rw [PositionsTable.act, latest, updatesIn_concat]
      cases hu : positionsIn sc event with
      | none => rw [PositionsTable.receive_other hu, ih, Option.toList_none, List.append_nil, latest]
      | some u =>
        obtain ⟨p, data⟩ := u
        rw [PositionsTable.stored_receive hu, ih, Option.toList_some, lookup_concat, latest]
    | currency c' | type k' =>
      rw [framesOf_select acts (by simp)]
      exact ih

/-- The currencies stored are those seen. -/
theorem mem_keys_after (acts : List TableAct) (c : String) :
    c ∈ (PositionsTable.after sc acts).positionsData.keys ↔ c ∈ currenciesSeen sc (framesOf acts) := by
  unfold currenciesSeen
  rw [List.mem_dedup]
  induction acts using List.reverseRecOn with
  | nil => exact iff_of_false List.not_mem_nil List.not_mem_nil
  | append_singleton acts a ih =>
    rw [after_concat]
    cases a with
    | frame event =>
      rw [PositionsTable.act, updatesIn_concat, PositionsTable.receive_eq]
      cases hu : positionsIn sc event with
      | none => simpa using ih
      | some u =>
        obtain ⟨⟨c', k'⟩, data⟩ := u
        simp only [storePositions, Record.mem_keys_write, ih, Option.toList_some, List.map_append, List.map_cons,
          List.map_nil, List.mem_append, List.mem_singleton]
    | currency c' | type k' =>
      rw [framesOf_select acts (by simp)]
      exact ih

private theorem flatMap_values {α β : Type} (r : Record String α) (f : Option α → List β) (h : f none = []) :
    ((objectValues r).flatMap (fun v => f (some v))) = (ownKeys r).flatMap (fun c => f (r.read c)) := by
  unfold objectValues
  induction ownKeys r with
  | nil => rfl
  | cons c cs ih =>
    rw [List.filterMap_cons, List.flatMap_cons, ← ih]
    cases r.read c with
    | none => simp [h]
    | some v => simp

/-- All currencies together show the latest data of each one seen, once. -/
theorem displayedPositions_any (acts : List TableAct)
    (h : (PositionsTable.after sc acts).selectedCurrency.1 = "any") :
    ∃ rows, (PositionsTable.after sc acts).displayedPositions sc = some (.arr rows) ∧
      rows.Perm ((currenciesSeen sc (framesOf acts)).flatMap
        (fun c => rowsOf sc (latest sc (framesOf acts) c (PositionsTable.after sc acts).selectedType.1))) := by
  set t := PositionsTable.after sc acts with ht
  have hrows := flatMap_values t.positionsData
    (fun data => rowsOf sc (data.bind (fun currencyData => currencyData.read t.selectedType.1))) rfl
  refine ⟨_, if_pos h, ?_⟩
  have hkeys : (ownKeys t.positionsData).Perm (currenciesSeen sc (framesOf acts)) :=
    (ownKeys_perm t.positionsData).trans ((List.perm_ext_iff_of_nodup (Record.nodup_keys _) (List.nodup_dedup _)).mpr
      (mem_keys_after sc acts))
  have hlatest (c : String) : latest sc (framesOf acts) c t.selectedType.1 = t.stored c t.selectedType.1 :=
    (stored_after sc acts c _).symm
  simp only [hlatest]
  have hperm := hkeys.flatMap_right (fun c => rowsOf sc (t.stored c t.selectedType.1))
  simp only [flattened_orEmpty]
  exact (List.Perm.of_eq hrows).trans hperm

/-- One currency shows the latest data of its pair, or nothing. -/
theorem displayedPositions_one (acts : List TableAct)
    (h : (PositionsTable.after sc acts).selectedCurrency.1 ≠ "any") :
    (PositionsTable.after sc acts).displayedPositions sc =
      orEmpty sc ((latest sc (framesOf acts) (PositionsTable.after sc acts).selectedCurrency.1
        (PositionsTable.after sc acts).selectedType.1).getD none) := by
  rw [← stored_after]
  exact if_neg h

/-- The table as a map from pairs to data, after these frames and choices. -/
structure LastWriteWins (acts : List TableAct) (t : PositionsTable) : Prop where
  stored : ∀ c k, t.stored c k = latest sc (framesOf acts) c k
  ignored : ∀ event, positionsIn sc event = none → t.receive sc event = t
  untouched : ∀ event p data, positionsIn sc event = some (p, data) →
    ∀ c k, p ≠ (c, k) → (t.receive sc event).stored c k = t.stored c k
  commute : ∀ event event' p q data data', positionsIn sc event = some (p, data) →
    positionsIn sc event' = some (q, data') → p ≠ q → ∀ c k,
      ((t.receive sc event).receive sc event').stored c k = ((t.receive sc event').receive sc event).stored c k
  any : t.selectedCurrency.1 = "any" → ∃ rows, t.displayedPositions sc = some (.arr rows) ∧
    rows.Perm ((currenciesSeen sc (framesOf acts)).flatMap
      (fun c => rowsOf sc (latest sc (framesOf acts) c t.selectedType.1)))

/-- After any frames and choices the table holds the last data of each pair, and
shows all currencies without losing or repeating a row. -/
theorem positions_last_write_wins (acts : List TableAct) : LastWriteWins sc acts (PositionsTable.after sc acts) := by
  refine ⟨stored_after sc acts, fun event h => PositionsTable.receive_other h, ?_, ?_, displayedPositions_any sc acts⟩
  · intro event p data h c k hne
    rw [PositionsTable.stored_receive h, if_neg hne]
  · intro event event' p q data data' hp hq hne c k
    exact PositionsTable.stored_comm hp hq hne c k

end Runs
end DeribitClientServer.Client
