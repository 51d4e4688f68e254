import DeribitClientServer.Client.Script
import DeribitClientServer.Library.JsonRoundTrip
import DeribitClientServer.Library.Transition

/-! The order book shown for the selected instrument. The effect that listens to
frames is renewed with the instrument, but the book in the state is not. -/
namespace DeribitClientServer.Client
open Library Library.JsonText Library.Utf8

structure OrderBook where
  orderBookData : Value
  lastUpdate : String

def OrderBook.initial : OrderBook := ⟨some .null, ""⟩

/-- The listener that the effect registers for an instrument. -/
def OrderBook.handleMessage (instrument time : String) (event : Bytes) : Handler OrderBook Unit :=
  tryCatch (onType "orderbook_update" event (fun data => do
      let updated ← Exec.ofExcept (prop data "instrument")
      if strictEq updated instrument then do
        let book ← Exec.ofExcept (prop data "data")
        Exec.modify (fun b => { b with orderBookData := book })
        Exec.modify (fun b => { b with lastUpdate := time })
      else pure ()))
    (fun _ => pure ())

/-- The instrument and the data of an order book update. -/
def bookUpdate (event : Bytes) : Option (String × Value) :=
  (readText event).bind (fun j =>
    if strictEq (j.get? "type") "orderbook_update" then
      match j.get? "instrument" with
      | some (.str instrument) => some (instrument, j.get? "data")
      | _ => none
    else none)

section Listener
variable {event : Bytes} {instrument time : String}

theorem bookUpdate_iff (event : Bytes) (instrument : String) (book : Value) :
    bookUpdate event = some (instrument, book) ↔ strictEq (typeOf event) "orderbook_update" = true ∧
      ∃ j, readText event = some j ∧ j.get? "instrument" = some (.str instrument) ∧ j.get? "data" = book := by
  unfold bookUpdate typeOf
  cases readText event with
  | none => simp
  | some j =>
    simp only [Option.bind_some, Option.some_inj, exists_eq_left']
    by_cases ht : strictEq (j.get? "type") "orderbook_update" = true
    · rw [if_pos ht]
      cases hi : j.get? "instrument" with
      | none => simp
      | some v =>
        cases v with
        | str i => simp [ht]
        | null | bool _ | num _ | arr _ | obj _ => simp
    · simp [ht]

theorem OrderBook.handleMessage_taken {book : Value} (h : bookUpdate event = some (instrument, book)) (b : OrderBook) :
    (OrderBook.handleMessage instrument time event b).state = ⟨book, time⟩ := by
  obtain ⟨ht, j, hj, hi, rfl⟩ := (bookUpdate_iff _ _ _).mp h
  have hn : j ≠ .null := by
    rintro rfl
    cases hi
  have hs : strictEq (some (.str instrument)) instrument = true := strictEq_iff.mpr rfl
  rw [OrderBook.handleMessage, Exec.run_tryCatch, onType_read ht hj]
  simp [prop_ok hn, hi, hs]

theorem OrderBook.handleMessage_ignored (h : ∀ book, bookUpdate event ≠ some (instrument, book)) (b : OrderBook) :
    (OrderBook.handleMessage instrument time event b).state = b := by
  unfold OrderBook.handleMessage
  rw [Exec.run_tryCatch, Exec.orElse_pure_state]
  cases ht : strictEq (typeOf event) "orderbook_update" with
  | false => exact (onType_ignored ht b).1
  | true =>
    obtain ⟨j, hj, hrun⟩ := @onType_taken _ event _ _ ht b
    rw [hrun]
    by_cases hn : j = .null
    · subst hn
      rfl
    · have hi : strictEq (j.get? "instrument") instrument = false := by
        rw [Bool.eq_false_iff, ne_eq, strictEq_iff]
        intro hi
        exact h _ ((bookUpdate_iff _ _ _).mpr ⟨ht, j, hj, hi, rfl⟩)
      simp [prop_ok hn, hi]

end Listener

section View

/-- The component, with the instrument its listener was registered for, and the
data of the last update of each instrument among the frames so far. -/
structure BookView where
  instrument : String
  subscribed : Option String
  book : OrderBook
  latest : String → Option Value

inductive BookAct where
  | show (instrument : String)
  | effects
  | frame (event : Bytes) (time : String)

def BookView.noted (s : BookView) (event : Bytes) : String → Option Value :=
  match bookUpdate event with
  | some (instrument, book) => Function.update s.latest instrument (some book)
  | none => s.latest

def BookView.heard (s : BookView) (event : Bytes) (time : String) : OrderBook :=
  match s.subscribed with
  | some instrument => (OrderBook.handleMessage instrument time event s.book).state
  | none => s.book

/-- Frames may arrive between a change of the instrument and the effect that
renews the listener. -/
def bookView : Transition BookView BookAct where
  initial s := ∃ instrument, s = ⟨instrument, none, .initial, fun _ => none⟩
  step s a s' :=
    match a with
    | .show instrument => s' = { s with instrument := instrument }
    | .effects => s' = { s with subscribed := some s.instrument }
    | .frame event time => s' = { s with book := s.heard event time, latest := s.noted event }

/-- The book is loading, or it is the last one of the instrument in the header. -/
def BookView.Belongs (s : BookView) : Prop :=
  s.book.orderBookData = some .null ∨ s.latest s.instrument = some s.book.orderBookData

/-- The instrument changes only while the book is loading, and no update for the
old one comes before the listener is renewed. -/
def SwitchedWhileLoading (s : BookView) : BookAct → Prop
  | .show instrument => s.book.orderBookData = some .null ∨ instrument = s.instrument
  | .effects => True
  | .frame event _ => ∀ instrument book, s.subscribed = some instrument →
      bookUpdate event = some (instrument, book) → instrument = s.instrument

/-- Unless it is loading, the listener is the shown instrument's and the book is
its last. -/
def BookInv (s : BookView) : Prop :=
  s.book.orderBookData = some .null ∨
    s.subscribed = some s.instrument ∧ s.latest s.instrument = some s.book.orderBookData

private theorem noted_of_ne {s : BookView} {event : Bytes} {instrument : String}
    (h : ∀ book, bookUpdate event ≠ some (instrument, book)) : s.noted event instrument = s.latest instrument := by
  unfold BookView.noted
  cases hb : bookUpdate event with
  | none => rfl
  | some u =>
    obtain ⟨i, book⟩ := u
    apply Function.update_of_ne
    rintro rfl
    exact h book hb

private theorem bookInv_frame {s : BookView} {event : Bytes} (time : String) (hs : BookInv s)
    (hg : ∀ instrument book, s.subscribed = some instrument →
      bookUpdate event = some (instrument, book) → instrument = s.instrument) :
    BookInv { s with book := s.heard event time, latest := s.noted event } := by
  unfold BookInv BookView.heard
  cases hsub : s.subscribed with
  | none =>
    left
    rcases hs with hs | ⟨hs, _⟩
    · exact hs
    · rw [hsub] at hs
      cases hs
  | some i =>
    by_cases hb : ∃ book, bookUpdate event = some (i, book)
    · obtain ⟨book, hb⟩ := hb
      obtain rfl := hg i book hsub hb
      right
      simp only [OrderBook.handleMessage_taken hb, BookView.noted, hb, Function.update_self, and_self]
    · have hno (book : Value) : bookUpdate event ≠ some (i, book) := fun h => hb ⟨book, h⟩
      simp only [OrderBook.handleMessage_ignored hno]
      rcases hs with hs | ⟨hs, hl⟩
      · exact .inl hs
      · rw [hsub, Option.some_inj] at hs
        subst hs
        exact .inr ⟨rfl, (noted_of_ne hno).trans hl⟩

theorem bookInv_step {s s' : BookView} {a : BookAct} (hs : BookInv s) (hg : SwitchedWhileLoading s a)
    (h : bookView.step s a s') : BookInv s' := by
  cases a with
  | «show» instrument =>
    obtain rfl := h
    rcases hg with hg | rfl
    · exact .inl hg
    · exact hs
  | effects =>
    obtain rfl := h
    rcases hs with hs | ⟨_, hs⟩
    · exact .inl hs
    · exact .inr ⟨rfl, hs⟩
  | frame event time =>
    obtain rfl := h
    exact bookInv_frame time hs hg

/-- An update of the instrument listened for is shown and noted. -/
theorem step_heard {s : BookView} {event : Bytes} {instrument : String} {book : Value} (time : String)
    (hs : s.subscribed = some instrument) (h : bookUpdate event = some (instrument, book)) :
    bookView.step s (.frame event time)
      { s with book := ⟨book, time⟩, latest := Function.update s.latest instrument (some book) } := by
  simp only [bookView, BookView.heard, hs, OrderBook.handleMessage_taken h, BookView.noted, h]

/-- When the instrument changes only while the book is loading, the book shown
belongs to the instrument shown. -/
theorem shown_book_belongs {as : List BookAct} {s : BookView} (r : bookView.Run SwitchedWhileLoading as s) :
    s.Belongs := by
  have hs : BookInv s := by
    refine r.invariant BookInv (fun s h => ?_) (fun s a s' hs hg h => bookInv_step hs hg h)
    obtain ⟨instrument, rfl⟩ := h
    exact .inl rfl
  exact hs.imp id And.right

end View

section Switch

def emptyBook : Json := .obj [("bids", .arr []), ("asks", .arr [])]

def perpetualUpdate : Bytes :=
  printText (.obj [("type", .str "orderbook_update"), ("instrument", .str "BTC-PERPETUAL"), ("data", emptyBook)])

private theorem bookUpdate_perpetual : bookUpdate perpetualUpdate = some ("BTC-PERPETUAL", some emptyBook) := by
  rw [bookUpdate, perpetualUpdate, readText_printText]
  rfl

private theorem listening_run (guard : BookView → BookAct → Prop) (hg : ∀ s, guard s .effects) :
    bookView.Run guard [.effects] ⟨"BTC-PERPETUAL", some "BTC-PERPETUAL", .initial, fun _ => none⟩ := by
  have r0 : bookView.Run guard [] ⟨"BTC-PERPETUAL", none, .initial, fun _ => none⟩ := .start ⟨_, rfl⟩
  exact r0.next .effects (hg _) rfl

/-- The view once it has heard the update. -/
def perpetualView : BookView where
  instrument := "BTC-PERPETUAL"
  subscribed := some "BTC-PERPETUAL"
  book := ⟨some emptyBook, "12:00:00"⟩
  latest := Function.update (fun _ => none) "BTC-PERPETUAL" (some (some emptyBook))

theorem perpetualView_belongs : perpetualView.Belongs := by
  have r := listening_run SwitchedWhileLoading (fun _ => trivial)
  refine shown_book_belongs (r.next (.frame perpetualUpdate "12:00:00") ?_ (step_heard _ rfl bookUpdate_perpetual))
  intro instrument book hs _
  exact (Option.some.inj hs).symm

/-- After a switch the book of the instrument before stays under the header of
the instrument after. -/
theorem switched_book_stays : ¬ ∀ as s, bookView.Run Transition.anyStep as s → s.subscribed = some s.instrument →
    s.Belongs := by
  intro h
  have r1 := (listening_run Transition.anyStep (fun _ => trivial)).next (.frame perpetualUpdate "12:00:00") trivial
    (step_heard _ rfl bookUpdate_perpetual)
  have r2 := r1.next (.show "ETH-PERPETUAL") trivial rfl
  have r3 := r2.next .effects trivial rfl
  rcases h _ _ r3 rfl with hn | hl
  · cases hn
  · simp at hl

end Switch
end DeribitClientServer.Client
