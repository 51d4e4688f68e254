import DeribitClientServer.Client.OrderBook

/-! The rows shown of an order book. Each side is filled up to ten with hidden rows,
and the asks are turned round. -/
namespace DeribitClientServer.Client
open Library Library.JsonText Library.Utf8

structure BookRow where
  hidden : Bool
  price : String
  amount : String
  deriving DecidableEq

section Rendering
variable (sc : Script) (toFixed : Numeral → Nat → String)

def maxRows : Nat := 10

/-- [...v] -/
def spread : Value → Except Thrown (List Json)
  | some (.arr xs) => .ok xs
  | some (.str s) => .ok (s.toList.map fun c => .str (String.singleton c))
  | _ => .error .typeError

/-- entry[i] -/
def item (entry : Json) (i : Nat) : Except Thrown Value :=
  match entry with
  | .null => .error .typeError
  | .arr xs => .ok xs[i]?
  | .str s => .ok (s.toList[i]?.map fun c => .str (String.singleton c))
  | .obj ms => .ok ((Json.obj ms).get? (toString i))
  | .bool _ | .num _ => .ok none

/-- v?.toFixed(digits) in a cell. Only numbers have the method. -/
def fixedText (v : Value) (digits : Nat) : Except Thrown String :=
  match v with
  | none | some .null => .ok ""
  | some (.num n) => .ok (toFixed n digits)
  | some _ => .error .typeError

/-- v === 0 -/
def isZero : Value → Bool
  | some (.num n) => sc.zero n
  | _ => false

def bookRow (entry : Json) : Except Thrown BookRow := do
  let price ← item entry 0
  let priceText ← fixedText toFixed price 2
  let amount ← item entry 1
  let amountText ← fixedText toFixed amount 4
  pure ⟨isZero sc price, priceText, amountText⟩

/-- [0, 0] -/
def noEntry : Json := .arr [.num (Numeral.ofNat 0), .num (Numeral.ofNat 0)]

/-- The loop that fills the entries up. -/
def filledEntries (entries : List Json) : List Json :=
  if entries.length < maxRows then filledEntries (entries ++ [noEntry]) else entries
termination_by maxRows - entries.length

def renderOrderBookSide (entries : Value) (reverse : Bool) : Except Thrown (List BookRow) := do
  let entries ← spread entries
  let rows ← ((filledEntries entries).take maxRows).mapM (bookRow sc toFixed)
  pure (if reverse then rows.reverse else rows)

/-- The rows of the bids and of the asks, once there is a book. -/
def OrderBook.render (b : OrderBook) : Except Thrown (Option (List BookRow × List BookRow)) :=
  if truthy sc b.orderBookData then do
    let bids ← prop b.orderBookData "bids"
    let bidRows ← renderOrderBookSide sc toFixed bids false
    let asks ← prop b.orderBookData "asks"
    let askRows ← renderOrderBookSide sc toFixed asks true
    pure (some (bidRows, askRows))
  else pure none

end Rendering

section Exceptions
variable {sc : Script} {toFixed : Numeral → Nat → String}

/-- A value whose cell can be shown: absent, or a number. -/
def Fixed (v : Value) : Prop := nullish v = true ∨ ∃ n, v = some (.num n)

/-- An entry that has a row. -/
def Shown (entry : Json) : Prop :=
  ∃ price amount, item entry 0 = .ok price ∧ item entry 1 = .ok amount ∧ Fixed price ∧ Fixed amount

/-- A side that can be shown: entries can be counted off, and the first ten have rows. -/
def SideShown (v : Value) : Prop := ∃ entries, spread v = .ok entries ∧ ∀ entry ∈ entries.take 10, Shown entry

theorem fixedText_ok_iff (v : Value) (digits : Nat) : (∃ text, fixedText toFixed v digits = .ok text) ↔ Fixed v := by
  cases v with
  | none => exact iff_of_true ⟨_, rfl⟩ (.inl rfl)
  | some j =>
    cases j with
    | null => exact iff_of_true ⟨_, rfl⟩ (.inl rfl)
    | num n => exact iff_of_true ⟨_, rfl⟩ (.inr ⟨n, rfl⟩)
    | bool _ | str _ | arr _ | obj _ => simp [fixedText, Fixed, nullish]

theorem bookRow_ok_iff (entry : Json) : (∃ row, bookRow sc toFixed entry = .ok row) ↔ Shown entry := by
  unfold bookRow Shown
  cases hp : item entry 0 with
  | error e => simp [bind, Except.bind]
  | ok price =>
    have hprice := @fixedText_ok_iff toFixed price 2
    cases hpt : fixedText toFixed price 2 with
    | error e =>
      rw [hpt] at hprice
      have hn : ¬ Fixed price := fun h => by simpa using hprice.mpr h
      simp [bind, Except.bind, hpt, hn]
    | ok priceText =>
      have hfixed : Fixed price := hprice.mp ⟨_, hpt⟩
      cases ha : item entry 1 with
      | error e => simp [bind, Except.bind, hpt]
      | ok amount =>
        have hamount := @fixedText_ok_iff toFixed amount 4
        cases hat : fixedText toFixed amount 4 with
        | error e =>
          rw [hat] at hamount
          have hn : ¬ Fixed amount := fun h => by simpa using hamount.mpr h
          simp [bind, Except.bind, hpt, hat, hn]
        | ok amountText =>
          have hfixed' : Fixed amount := hamount.mp ⟨_, hat⟩
          simp [bind, Except.bind, pure, Except.pure, hpt, hat, hfixed, hfixed']

private theorem rows_ok_iff (entries : List Json) :
    (∃ rows, entries.mapM (bookRow sc toFixed) = .ok rows) ↔ ∀ entry ∈ entries, Shown entry := by
  induction entries with
  | nil => exact iff_of_true ⟨[], rfl⟩ (by simp)
  | cons entry entries ih =>
    rw [List.forall_mem_cons, ← ih, ← @bookRow_ok_iff sc toFixed entry, List.mapM_cons]
    cases bookRow sc toFixed entry with
    | error e => simp [bind, Except.bind]
    | ok row => cases entries.mapM (bookRow sc toFixed) <;> simp [bind, Except.bind, pure, Except.pure]

private theorem length_rows {entries : List Json} {rows : List BookRow}
    (h : entries.mapM (bookRow sc toFixed) = .ok rows) : rows.length = entries.length := by
  induction entries generalizing rows with
  | nil =>
    cases h
    rfl
  | cons entry entries ih =>
    rw [List.mapM_cons] at h
    cases hb : bookRow sc toFixed entry with
    | error e => simp [hb, bind, Except.bind] at h
    | ok row =>
      cases hr : entries.mapM (bookRow sc toFixed) with
      | error e => simp [hb, hr, bind, Except.bind] at h
      | ok rest =>
        simp only [hb, hr, bind, Except.bind, pure, Except.pure, Except.ok.injEq] at h
        rw [← h, List.length_cons, List.length_cons, ih hr]

theorem filledEntries_eq (entries : List Json) :
    filledEntries entries = entries ++ List.replicate (maxRows - entries.length) noEntry := by
  fun_induction filledEntries entries with
  | case1 entries h ih =>
    have hn : maxRows - entries.length = (maxRows - (entries ++ [noEntry]).length) + 1 := by
      rw [List.length_append, List.length_singleton]
      omega
    rw [ih, hn, List.append_assoc, List.replicate_succ, List.singleton_append]
  | case2 entries h => rw [Nat.sub_eq_zero_of_le (Nat.le_of_not_lt h), List.replicate_zero, List.append_nil]

private theorem shown_noEntry : Shown noEntry := ⟨_, _, rfl, rfl, .inr ⟨_, rfl⟩, .inr ⟨_, rfl⟩⟩

private theorem shown_filled (entries : List Json) : (∀ entry ∈ (filledEntries entries).take maxRows, Shown entry) ↔
    ∀ entry ∈ entries.take maxRows, Shown entry := by
  rw [filledEntries_eq, List.take_append, List.forall_mem_append, and_iff_left]
  intro entry h
  rw [List.eq_of_mem_replicate (List.mem_of_mem_take h)]
  exact shown_noEntry

/-- A side is shown exactly when its first ten entries can be. -/
theorem renderSide_ok_iff (v : Value) (reverse : Bool) :
    (∃ rows, renderOrderBookSide sc toFixed v reverse = .ok rows) ↔ SideShown v := by
  unfold renderOrderBookSide SideShown
  change _ ↔ ∃ entries, spread v = .ok entries ∧ ∀ entry ∈ entries.take maxRows, Shown entry
  cases hs : spread v with
  | error e => simp [bind, Except.bind]
  | ok entries =>
    simp only [Except.ok.injEq, exists_eq_left']
    rw [← shown_filled, ← @rows_ok_iff sc toFixed]
    cases hr : ((filledEntries entries).take maxRows).mapM (bookRow sc toFixed) with
    | error e => simp [bind, Except.bind, hr]
    | ok rows =>
      refine iff_of_true ⟨if reverse then rows.reverse else rows, ?_⟩ ⟨rows, rfl⟩
      simp only [bind, Except.bind, hr, pure, Except.pure]

/-- A side that is shown has ten rows. -/
theorem length_renderSide {v : Value} {reverse : Bool} {rows : List BookRow}
    (h : renderOrderBookSide sc toFixed v reverse = .ok rows) : rows.length = maxRows := by
  unfold renderOrderBookSide at h
  cases hs : spread v with
  | error e => simp [hs, bind, Except.bind] at h
  | ok entries =>
    cases hr : ((filledEntries entries).take maxRows).mapM (bookRow sc toFixed) with
    | error e => simp [hs, hr, bind, Except.bind] at h
    | ok shown =>
      have hlen : shown.length = maxRows := by
        rw [length_rows hr, filledEntries_eq, List.length_take, List.length_append, List.length_replicate]
        omega
      simp only [hs, hr, bind, Except.bind, pure, Except.pure, Except.ok.injEq] at h
      rw [← h]
      split
      · rw [List.length_reverse, hlen]
      · exact hlen

private theorem render_falsy {b : OrderBook} (h : truthy sc b.orderBookData = false) :
    b.render sc toFixed = .ok none := by
  rw [OrderBook.render, h]
  rfl

/-- A book is rendered from its two sides. -/
private theorem render_truthy {b : OrderBook} (h : truthy sc b.orderBookData = true) : b.render sc toFixed =
    (do
      let bidRows ← renderOrderBookSide sc toFixed (prop? b.orderBookData "bids") false
      let askRows ← renderOrderBookSide sc toFixed (prop? b.orderBookData "asks") true
      pure (some (bidRows, askRows))) := by
  obtain ⟨j, hj, hn⟩ : ∃ j, b.orderBookData = some j ∧ j ≠ .null := by
    cases hd : b.orderBookData with
    | none =>
      rw [hd] at h
      cases h
    | some j =>
      refine ⟨j, rfl, ?_⟩
      rintro rfl
      rw [hd] at h
      cases h
  rw [OrderBook.render, if_pos h, hj, prop_ok hn, prop_ok hn]
  rfl

/-- The page renders exactly when it is loading or both sides can be shown, and throws otherwise;
without a book it is loading, and with one it shows ten rows a side. -/
theorem render_ok_iff (b : OrderBook) :
    ((∃ shown, b.render sc toFixed = .ok shown) ↔
      (truthy sc b.orderBookData = true →
        SideShown (prop? b.orderBookData "bids") ∧ SideShown (prop? b.orderBookData "asks"))) ∧
      (b.render sc toFixed = .ok none ↔ truthy sc b.orderBookData = false) ∧
        ∀ sides, b.render sc toFixed = .ok (some sides) → sides.1.length = 10 ∧ sides.2.length = 10 := by
  cases ht : truthy sc b.orderBookData with
  | false =>
    rw [render_falsy ht]
    exact ⟨iff_of_true ⟨none, rfl⟩ fun h => absurd h Bool.false_ne_true, iff_of_true rfl rfl, fun _ h => by cases h⟩
  | true =>
    rw [render_truthy ht]
    have hb := @renderSide_ok_iff sc toFixed (prop? b.orderBookData "bids") false
    have ha := @renderSide_ok_iff sc toFixed (prop? b.orderBookData "asks") true
    simp only [true_imp_iff, ← hb, ← ha, bind, Except.bind, pure, Except.pure]
    cases hbids : renderOrderBookSide sc toFixed (prop? b.orderBookData "bids") false with
    | error e => simp
    | ok bidRows =>
      cases hasks : renderOrderBookSide sc toFixed (prop? b.orderBookData "asks") true with
      | error e => simp
      | ok askRows =>
        refine ⟨iff_of_true ⟨_, rfl⟩ ⟨⟨_, rfl⟩, _, rfl⟩, by simp, fun sides h => ?_⟩
        obtain rfl : (bidRows, askRows) = sides := by simpa using h
        exact ⟨length_renderSide hbids, length_renderSide hasks⟩

end Exceptions

/-- A price and the amount asked or bid at it. -/
structure Level where
  price : Numeral
  amount : Numeral

def Level.json (l : Level) : Json := .arr [.num l.price, .num l.amount]

/-- The two sides of a book. -/
structure IsBook (data : Json) (bids asks : List Level) : Prop where
  bids : data.get? "bids" = some (.arr (bids.map Level.json))
  asks : data.get? "asks" = some (.arr (asks.map Level.json))

section Sides
variable (sc : Script) (toFixed : Numeral → Nat → String)

def Level.row (l : Level) : BookRow := ⟨sc.zero l.price, toFixed l.price 2, toFixed l.amount 4⟩

def noLevel : Level := ⟨Numeral.ofNat 0, Numeral.ofNat 0⟩

/-- The best ten levels, and rows without a level after them. -/
def sideRows (levels : List Level) : List BookRow :=
  (levels.take maxRows).map (Level.row sc toFixed) ++ List.replicate (maxRows - levels.length) (noLevel.row sc toFixed)

variable {sc toFixed}

theorem bookRow_json (l : Level) : bookRow sc toFixed l.json = .ok (l.row sc toFixed) := rfl

theorem rows_json (levels : List Level) :
    (levels.map Level.json).mapM (bookRow sc toFixed) = .ok (levels.map (Level.row sc toFixed)) := by
  induction levels with
  | nil => rfl
  | cons l levels ih => simp only [List.map_cons, List.mapM_cons, bookRow_json, ih]; rfl

/-- The entries of a side that is made of levels, filled up and cut. -/
theorem entries_json (levels : List Level) : (filledEntries (levels.map Level.json)).take maxRows =
    (levels.take maxRows ++ List.replicate (maxRows - levels.length) noLevel).map Level.json := by
  have hn : noLevel.json = noEntry := rfl
  rw [filledEntries_eq, List.take_append, List.length_map, List.map_append, List.map_replicate, hn, List.map_take,
    List.take_of_length_le (Nat.le_of_eq (List.length_replicate ..))]

theorem renderSide_levels (levels : List Level) (reverse : Bool) :
    renderOrderBookSide sc toFixed (some (.arr (levels.map Level.json))) reverse =
      .ok (if reverse then (sideRows sc toFixed levels).reverse else sideRows sc toFixed levels) := by
  have hrows := @rows_json sc toFixed (levels.take maxRows ++ List.replicate (maxRows - levels.length) noLevel)
  rw [← entries_json, List.map_append, List.map_replicate, ← sideRows] at hrows
  unfold renderOrderBookSide spread
  simp only [hrows, Except.bind, bind, pure, Except.pure]

/-- A book with levels on both sides is shown, whatever its levels are. -/
theorem render_book {b : OrderBook} {data : Json} {bids asks : List Level} (hb : b.orderBookData = some data)
    (hd : IsBook data bids asks) :
    b.render sc toFixed = .ok (some (sideRows sc toFixed bids, (sideRows sc toFixed asks).reverse)) := by
  have ht : truthy sc (some data) = true := by
    cases data with
    | obj ms | arr xs => rfl
    | null | bool _ | num _ | str _ => cases hd.bids
  rw [OrderBook.render, hb, if_pos ht, prop_of_get? hd.bids, prop_of_get? hd.asks]
  simp only [renderSide_levels, Except.bind, bind, pure, Except.pure]
  rfl

/-- Before the first update nothing is shown but that the book is loading. -/
theorem render_loading {b : OrderBook} (hb : b.orderBookData = some .null) : b.render sc toFixed = .ok none := by
  rw [OrderBook.render, hb]
  rfl

end Sides
end DeribitClientServer.Client
