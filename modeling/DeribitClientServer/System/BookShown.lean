import DeribitClientServer.Client.BookRows
import DeribitClientServer.Server.Books
import DeribitClientServer.System.FrameTypes

/-! An order book on its way from the exchange's answer to the rows shown. The page
shows what a thread of the server asked for and was answered with. -/
namespace DeribitClientServer.System
open Library Library.JsonText Library.Utf8 Server Client

section Arrival
variable (env : Externals) (supported : List String) (turns : Threads → Prop)

/-- The book is the answer to a request for this instrument in one of these turns, and has
levels on both sides. -/
def Answered (instrument : String) (book : Value) : Prop :=
  ∃ s data bids asks, turns s ∧ BookFrom env supported s instrument data ∧ IsBook data.canon bids asks ∧
    book = some data.canon

/-- Updates of the order book come from these turns, and have levels on both sides. -/
def BooksArrive (_ : BookView) : BookAct → Prop
  | .frame event _ => ∀ instrument book, bookUpdate event = some (instrument, book) →
      (∃ s, turns s ∧ TurnCasts env supported s event) ∧ ∃ j bids asks, book = some j ∧ IsBook j bids asks
  | .show _ | .effects => True

/-- Whatever was heard last of an instrument, and whatever is kept, was answered. -/
structure BookSound (s : BookView) : Prop where
  latest : ∀ instrument book, s.latest instrument = some book → Answered env supported turns instrument book
  kept : s.book.orderBookData = some .null ∨ ∃ instrument, Answered env supported turns instrument s.book.orderBookData

variable {env supported turns} {event : Bytes} {instrument : String} {book : Value}

/-- An update that a turn broadcasts carries the turn's answer to a request for its instrument. -/
theorem bookFrom_of_update {s : Threads} (hc : TurnCasts env supported s event)
    (hu : bookUpdate event = some (instrument, book)) :
    ∃ data, BookFrom env supported s instrument data ∧ book = some data.canon := by
  obtain ⟨ht, j, hj, hi, hd⟩ := (bookUpdate_iff _ _ _).mp hu
  have hdumped : DumpedAs env event "orderbook_update" := by
    obtain ⟨⟨as, r⟩, l, f, hf, rfl⟩ := hc
    have hl : l.updateType = "orderbook_update" := updateType_of_frame r hf ((strictEq_typeOf _ _).mp ht)
    exact hl ▸ (turn_frames (template_typed r) hf).2
  obtain ⟨i, timestamp, data, hfrom, rfl⟩ := book_of_turnCasts hc hdumped
  rw [env.dump_reads, Option.some_inj] at hj
  subst hj
  have hi' : some (Json.str i) = some (.str instrument) := (get?_dumped_str_iff env).mp hi
  obtain rfl := Json.str.inj (Option.some.inj hi')
  have hkept (v : Json) (hv : (orderbookUpdate i timestamp data).get? "data" = some v) : v.stored env.spelling = v := by
    obtain rfl := Option.some.inj hv
    exact hfrom.stored
  rw [get?_dumped_kept env hkept, Json.get?_canon] at hd
  exact ⟨data, hfrom, hd.symm⟩

private theorem answered_of_update (h : (∃ s, turns s ∧ TurnCasts env supported s event) ∧
      ∃ j bids asks, book = some j ∧ IsBook j bids asks)
    (hu : bookUpdate event = some (instrument, book)) : Answered env supported turns instrument book := by
  obtain ⟨⟨s, hs, hc⟩, j, bids, asks, rfl, hbook⟩ := h
  obtain ⟨data, hfrom, hdata⟩ := bookFrom_of_update hc hu
  obtain rfl := Option.some.inj hdata
  exact ⟨s, data, bids, asks, hs, hfrom, hbook, rfl⟩

end Arrival

section Runs
variable {env : Externals} {supported : List String} {turns : Threads → Prop} {s s' : BookView} {a : BookAct}
  {as : List BookAct}

private theorem bookSound_frame {event : Bytes} (time : String) (hs : BookSound env supported turns s)
    (hg : ∀ instrument book, bookUpdate event = some (instrument, book) →
      Answered env supported turns instrument book) :
    BookSound env supported turns { s with book := s.heard event time, latest := s.noted event } := by
  constructor
  · intro instrument book hl
    unfold BookView.noted at hl
    cases hu : bookUpdate event with
    | none =>
      simp only [hu] at hl
      exact hs.latest instrument book hl
    | some u =>
      obtain ⟨i, b⟩ := u
      simp only [hu] at hl
      by_cases hi : instrument = i
      · subst hi
        rw [Function.update_self, Option.some_inj] at hl
        exact hl ▸ hg instrument b hu
      · rw [Function.update_of_ne hi] at hl
        exact hs.latest instrument book hl
  · unfold BookView.heard
    cases hsub : s.subscribed with
    | none => exact hs.kept
    | some i =>
      by_cases hb : ∃ book, bookUpdate event = some (i, book)
      · obtain ⟨book, hu⟩ := hb
        right
        simp only [OrderBook.handleMessage_taken hu]
        exact ⟨i, hg i book hu⟩
      · have hno (book : Value) : bookUpdate event ≠ some (i, book) := fun h => hb ⟨book, h⟩
        simp only [OrderBook.handleMessage_ignored hno]
        exact hs.kept

theorem bookSound_step (hs : BookSound env supported turns s) (hg : BooksArrive env supported turns s a)
    (h : bookView.step s a s') : BookSound env supported turns s' := by
  cases a with
  | «show» instrument | effects =>
    obtain rfl := h
    exact ⟨hs.latest, hs.kept⟩
  | frame event time =>
    obtain rfl := h
    exact bookSound_frame time hs fun instrument book hu => answered_of_update (hg instrument book hu) hu

theorem bookSound (r : bookView.Run (BooksArrive env supported turns) as s) : BookSound env supported turns s := by
  refine r.invariant (BookSound env supported turns) (fun s h => ?_) fun s a s' hs hg h => bookSound_step hs hg h
  obtain ⟨instrument, rfl⟩ := h
  refine ⟨fun i book hl => ?_, .inl rfl⟩
  cases hl

variable (sc : Script) (toFixed : Numeral → Nat → String)

/-- What the page shows of a book that was answered: ten rows a side, the levels in the
exchange's order from the middle outwards. -/
def ShowsAnswer (env : Externals) (supported : List String) (turns : Threads → Prop) (b : OrderBook)
    (instrument : String) : Prop :=
  ∃ s data bids asks, turns s ∧ BookFrom env supported s instrument data ∧ IsBook data.canon bids asks ∧
    b.render sc toFixed = .ok (some (sideRows sc toFixed bids, (sideRows sc toFixed asks).reverse))

private theorem showsAnswer {b : OrderBook} {instrument : String}
    (h : Answered env supported turns instrument b.orderBookData) :
    ShowsAnswer sc toFixed env supported turns b instrument := by
  obtain ⟨s, data, bids, asks, hs, hfrom, hbook, hdata⟩ := h
  exact ⟨s, data, bids, asks, hs, hfrom, hbook, render_book hdata hbook⟩

/-- In every run the page is shown without an exception: it is loading, or shows the levels
that one of the turns was answered with, ten rows a side. -/
theorem book_shown_answered (r : bookView.Run (BooksArrive env supported turns) as s) :
    s.book.render sc toFixed = .ok none ∨ ∃ instrument, ShowsAnswer sc toFixed env supported turns s.book instrument := by
  rcases (bookSound r).kept with hn | ⟨instrument, h⟩
  · exact .inl (render_loading hn)
  · exact .inr ⟨instrument, showsAnswer sc toFixed h⟩

/-- When the instrument changes only while the book is loading, the levels shown are those
answered for the instrument in the header. -/
theorem header_book_answered
    (r : bookView.Run (fun s a => SwitchedWhileLoading s a ∧ BooksArrive env supported turns s a) as s) :
    s.book.render sc toFixed = .ok none ∨ ShowsAnswer sc toFixed env supported turns s.book s.instrument := by
  have hsound : BookSound env supported turns s := bookSound (r.weaken fun _ _ h => h.2)
  have hinv : BookInv s := by
    refine r.invariant BookInv (fun s h => ?_) fun s a s' hs hg h => bookInv_step hs hg.1 h
    obtain ⟨instrument, rfl⟩ := h
    exact .inl rfl
  rcases hinv with hn | ⟨_, hl⟩
  · exact .inl (render_loading hn)
  · exact .inr (showsAnswer sc toFixed (hsound.latest _ _ hl))

end Runs

section OneLevel

def oneLevel : List Level := [⟨Numeral.ofNat 1, Numeral.ofNat 2⟩]

def levelBook : Json := .obj [("asks", .arr (oneLevel.map Level.json)), ("bids", .arr (oneLevel.map Level.json))]

def levelUpdate : Bytes := grammarExternals.dump (orderbookUpdate "BTC-PERPETUAL" 0 levelBook.canon)

private theorem canon_levels : (Json.arr (oneLevel.map Level.json)).canon = .arr (oneLevel.map Level.json) := by
  simp [oneLevel, Level.json, Json.canon, Json.canonItems]

private theorem isBook_levelBook : IsBook levelBook.canon.canon oneLevel oneLevel := by
  rw [Json.canon_canon]
  refine ⟨?_, ?_⟩
  · rw [Json.get?_canon]
    exact congrArg some canon_levels
  · rw [Json.get?_canon]
    exact congrArg some canon_levels

/-- The process whose exchange answers with this book. -/
def levelThreads : Threads := pollingThreads (printText (.obj [("result", levelBook)]))

private theorem casts_levelUpdate : TurnCasts grammarExternals ["BTC-PERPETUAL"] levelThreads levelUpdate := by
  have hp : parseJson grammarExternals (printText (.obj [("result", levelBook)])) = .ok (.obj [("result", levelBook.canon)]) := by
    rw [parseJson_printed grammarExternals (Json.respell_some _), Json.canon_single]
  exact turnCasts_book ⟨printText (.obj [("result", levelBook)]), _, rfl, rfl, hp, rfl, rfl⟩

private theorem bookUpdate_levelUpdate : bookUpdate levelUpdate = some ("BTC-PERPETUAL", some levelBook.canon.canon) := by
  refine (bookUpdate_iff _ _ _).mpr ⟨?_, _, grammarExternals.dump_reads _, ?_, ?_⟩
  · rw [typeOf, levelUpdate, grammarExternals.dump_reads, Option.bind_some]
    exact strictEq_iff.mpr (Json.get?_canon_str_iff.mpr rfl)
  · exact Json.get?_canon_str_iff.mpr rfl
  · rw [Json.get?_canon]
    rfl

def levelView : BookView where
  instrument := "BTC-PERPETUAL"
  subscribed := some "BTC-PERPETUAL"
  book := ⟨some levelBook.canon.canon, "12:00:00"⟩
  latest := Function.update (fun _ => none) "BTC-PERPETUAL" (some (some levelBook.canon.canon))

private theorem levelView_run {guard : BookView → BookAct → Prop} (he : ∀ s, guard s .effects)
    (hf : guard ⟨"BTC-PERPETUAL", some "BTC-PERPETUAL", .initial, fun _ => none⟩ (.frame levelUpdate "12:00:00")) :
    bookView.Run guard [.effects, .frame levelUpdate "12:00:00"] levelView := by
  have r0 : bookView.Run guard [] ⟨"BTC-PERPETUAL", none, .initial, fun _ => none⟩ := .start ⟨_, rfl⟩
  exact (r0.next .effects (he _) rfl).next (.frame levelUpdate "12:00:00") hf (step_heard _ rfl bookUpdate_levelUpdate)

private theorem levelUpdate_arrives (s : BookView) : BooksArrive grammarExternals ["BTC-PERPETUAL"] (· = levelThreads) s
    (.frame levelUpdate "12:00:00") := by
  intro instrument book hu
  obtain ⟨_, rfl⟩ := Prod.mk.inj (Option.some.inj (bookUpdate_levelUpdate.symm.trans hu))
  exact ⟨⟨levelThreads, rfl, casts_levelUpdate⟩, _, _, _, rfl, isBook_levelBook⟩

/-- One update of one level a side. -/
theorem levelView_shown : levelView.book.render plainScript (fun n _ => String.ofList n.1) = .ok none ∨
    ∃ instrument, ShowsAnswer plainScript (fun n _ => String.ofList n.1) grammarExternals ["BTC-PERPETUAL"] (· = levelThreads)
      levelView.book instrument :=
  book_shown_answered _ _ (levelView_run (fun _ => trivial) (levelUpdate_arrives _))

theorem levelView_header_shown : levelView.book.render plainScript (fun n _ => String.ofList n.1) = .ok none ∨
    ShowsAnswer plainScript (fun n _ => String.ofList n.1) grammarExternals ["BTC-PERPETUAL"] (· = levelThreads)
      levelView.book levelView.instrument := by
  refine header_book_answered _ _ (levelView_run (fun _ => ⟨trivial, trivial⟩) ⟨?_, levelUpdate_arrives _⟩)
  intro instrument book hs _
  exact (Option.some.inj hs).symm

end OneLevel
end DeribitClientServer.System
