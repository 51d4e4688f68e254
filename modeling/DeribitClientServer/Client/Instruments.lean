import DeribitClientServer.Client.Forms
import DeribitClientServer.Client.Lists
import DeribitClientServer.Library.JsonRoundTrip
import DeribitClientServer.Library.Transition

/-! What the user chooses in the trading panel: a currency and a type, which ask
for a list, and one instrument of the list, which orders are placed on. -/
namespace DeribitClientServer.Client
open Library Library.JsonText Library.Utf8

inductive Currency where
  | btc | eth
  deriving DecidableEq, Repr

def Currency.text : Currency → String
  | .btc => "BTC"
  | .eth => "ETH"

inductive InstrumentType where
  | future | option | spot
  deriving DecidableEq, Repr

def InstrumentType.text : InstrumentType → String
  | .future => "future"
  | .option => "option"
  | .spot => "spot"

structure Choice where
  currency : Currency
  instrumentType : InstrumentType
  deriving DecidableEq, Repr

def Choice.initial : Choice := ⟨.btc, .future⟩

def Choice.request (c : Choice) : Json :=
  object [("type", some (.str "get_instruments")), ("currency", some (.str c.currency.text)),
    ("kind", some (.str c.instrumentType.text))]

structure ChoicePanel where
  panel : TradingPanel
  choice : Choice

def ChoicePanel.initial : ChoicePanel := ⟨.initial, .initial⟩

/-- The choice is the one of the rendering that the closure belongs to. -/
def fetchInstruments (wsOpen : Bool) (closure : Choice) : Handler ChoicePanel Unit :=
  if wsOpen then Exec.emit (printText closure.request) else pure ()

/-- The socket is opened by the first rendering. -/
def ChoicePanel.onopen : Handler ChoicePanel Unit := do
  Exec.modify (fun v => { v with panel := { v.panel with isConnected := true } })
  fetchInstruments true .initial

/-- A choice, and the effect that follows when it is another. -/
def ChoicePanel.choose (c : Choice) : Handler ChoicePanel Unit := do
  let v ← Exec.get
  if c = v.choice then pure ()
  else do
    Exec.modify (fun v => { v with choice := c })
    fetchInstruments v.panel.isConnected c

def ChoicePanel.setCurrency (currency : Currency) : Handler ChoicePanel Unit := do
  let v ← Exec.get
  ChoicePanel.choose { v.choice with currency := currency }

def ChoicePanel.setInstrumentType (instrumentType : InstrumentType) : Handler ChoicePanel Unit := do
  let v ← Exec.get
  ChoicePanel.choose { v.choice with instrumentType := instrumentType }

section Runs
variable (v : ChoicePanel)

theorem ChoicePanel.onopen_run :
    ChoicePanel.onopen v =
      ⟨.ok (), { v with panel := { v.panel with isConnected := true } }, [printText Choice.initial.request]⟩ := rfl

theorem ChoicePanel.choose_run (c : Choice) :
    ChoicePanel.choose c v = if c = v.choice then ⟨.ok (), v, []⟩
      else ⟨.ok (), { v with choice := c }, if v.panel.isConnected then [printText c.request] else []⟩ := by
  unfold ChoicePanel.choose fetchInstruments
  by_cases hc : c = v.choice
  · simp [hc]
  · cases hw : v.panel.isConnected <;> simp [hc, hw]

theorem ChoicePanel.choose_panel (c : Choice) : (ChoicePanel.choose c v).state.panel = v.panel := by
  rw [ChoicePanel.choose_run]
  split <;> rfl

end Runs

/-- The names of the options that are shown for the list. -/
def TradingPanel.Offers (p : TradingPanel) (name : Value) : Prop :=
  ∃ xs, p.instruments = some (.arr xs) ∧ ∃ x ∈ xs, prop (some x) "instrument_name" = .ok name

def TradingPanel.Listed (p : TradingPanel) : Prop :=
  p.selectedInstrument = some (.str "") ∨ p.Offers p.selectedInstrument

/-- A frame that the panel takes for a list, with the entries of its result. -/
def InstrumentsFrame (event : Bytes) (xs : List Json) : Prop :=
  ∃ j, readText event = some j ∧ j.get? "type" = some (.str "instruments") ∧ j.get? "result" = some (.arr xs)

inductive PanelAct where
  | opened
  | closed
  | setCurrency (currency : Currency)
  | setInstrumentType (instrumentType : InstrumentType)
  | selectInstrument (name : Value)
  | frame (event : Bytes)

section Steps
variable (sc : Script)

/-- The panel chooses among what it shows, and hears frames of any kind whose
result, if they are lists, is an array. -/
def instrumentPanel : Transition ChoicePanel PanelAct where
  initial v := v = .initial
  step v a v' :=
    match a with
    | .opened => v' = (ChoicePanel.onopen v).state
    | .closed => v' = { v with panel := { v.panel with isConnected := false } }
    | .setCurrency currency => v' = (ChoicePanel.setCurrency currency v).state
    | .setInstrumentType instrumentType => v' = (ChoicePanel.setInstrumentType instrumentType v).state
    | .selectInstrument name =>
        v.panel.Offers name ∧ v' = { v with panel := { v.panel with selectedInstrument := name } }
    | .frame event => (strictEq (typeOf event) "instruments" = true → ∃ xs, InstrumentsFrame event xs) ∧
        v' = { v with panel := (TradingPanel.onmessage sc event v.panel).state }

/-- A list that brings an instrument to select, or one without which nothing
selected is lost. -/
def KeepsSelection (p : TradingPanel) (xs : List Json) : Prop :=
  (∃ x ∈ xs.head?, x ≠ .null) ∨ p.selectedInstrument = some (.str "") ∨
    ∃ x ∈ xs, prop (some x) "instrument_name" = .ok p.selectedInstrument

def ListsKeepSelection (v : ChoicePanel) : PanelAct → Prop
  | .frame event => ∀ xs, InstrumentsFrame event xs → KeepsSelection v.panel xs
  | _ => True

/-- What the form sends is an order on no instrument, or on one that is offered. -/
def OrdersOffered (p : TradingPanel) : Prop :=
  ∀ (f : OrderForm) (instrument : String), p.selectedInstrument = some (.str instrument) →
    ∀ m ∈ (OrderForm.handleSubmit sc true instrument f).trace, ∃ order data name, readText m = some order ∧
      order.get? "data" = some data ∧ data.get? "instrument_name" = some (.str name) ∧
      (name = "" ∨ p.Offers (some (.str name)))

structure SelectionSound (p : TradingPanel) : Prop where
  listed : p.Listed
  orders : OrdersOffered sc p

end Steps

section Invariant
variable {sc : Script} {p : TradingPanel} {event : Bytes} {xs : List Json}

private theorem strictEq_of_frame (h : InstrumentsFrame event xs) : strictEq (typeOf event) "instruments" = true := by
  obtain ⟨j, hj, ht, _⟩ := h
  rw [strictEq_iff, typeOf, hj]
  exact ht

/-- What is selected once the list has been taken. -/
def TradingPanel.selectedFrom (p : TradingPanel) : List Json → Value
  | [] | .null :: _ => p.selectedInstrument
  | x :: _ => x.get? "instrument_name"

private theorem selectedFrom_cons {x : Json} (hx : x ≠ .null) (xs : List Json) :
    p.selectedFrom (x :: xs) = x.get? "instrument_name" := by
  cases x with
  | null => exact absurd rfl hx
  | bool _ | num _ | str _ | arr _ | obj _ => rfl

/-- A list is taken whole; its first entry, when there is one to read, is selected. -/
theorem TradingPanel.onmessage_frame (h : InstrumentsFrame event xs) (p : TradingPanel) :
    (TradingPanel.onmessage sc event p).state = ⟨p.isConnected, some (.arr xs), p.selectedFrom xs⟩ := by
  have ht := strictEq_of_frame h
  obtain ⟨j, hj, _, hr⟩ := h
  rw [TradingPanel.onmessage, onType_read ht hj, TradingPanel.showInstruments, prop_of_get? hr]
  cases xs with
  | nil => rfl
  | cons x xs => cases x <;> rfl

private theorem showInstruments_keeps (connected : Bool) (data : Value) :
    Exec.Keeps (fun p : TradingPanel => p.isConnected = connected) (fun _ => True) (fun _ => True)
      (TradingPanel.showInstruments sc data) := by
  refine .bind (.ofExcept (fun _ _ => trivial)) (fun result _ => .bind (.modify (fun p hp => hp)) (fun _ _ => ?_))
  refine .bind (.ofExcept (fun _ _ => trivial)) (fun nonempty _ => ?_)
  split
  · exact .bind (.ofExcept (fun _ _ => trivial)) (fun name _ => .modify (fun p hp => hp))
  · exact .pure trivial

theorem TradingPanel.onmessage_isConnected (sc : Script) (event : Bytes) (p : TradingPanel) :
    (TradingPanel.onmessage sc event p).state.isConnected = p.isConnected := by
  cases h : strictEq (typeOf event) "instruments" with
  | false => rw [TradingPanel.onmessage_ignored h]
  | true =>
    have ht : ∃ j, readText event = some j ∧
        TradingPanel.onmessage sc event p = TradingPanel.showInstruments sc (some j) p := onType_taken h p
    obtain ⟨j, _, hr⟩ := ht
    rw [hr]
    exact (showInstruments_keeps p.isConnected (some j) p rfl).1

/-- After a list the selection is listed exactly when the list keeps it. -/
theorem TradingPanel.listed_iff_keeps (h : InstrumentsFrame event xs) :
    (TradingPanel.onmessage sc event p).state.Listed ↔ KeepsSelection p xs := by
  rw [TradingPanel.onmessage_frame h]
  have hkept (hn : ¬ ∃ x ∈ xs.head?, x ≠ .null) :
      TradingPanel.Listed ⟨p.isConnected, some (.arr xs), p.selectedInstrument⟩ ↔ KeepsSelection p xs := by
    rw [KeepsSelection, or_iff_right hn]
    simp [TradingPanel.Listed, TradingPanel.Offers]
  have hnamed {x : Json} {rest : List Json} (hx : x ≠ .null) :
      TradingPanel.Listed ⟨p.isConnected, some (.arr (x :: rest)), x.get? "instrument_name"⟩ ↔
        KeepsSelection p (x :: rest) := by
    refine iff_of_true (.inr ⟨_, rfl, x, List.mem_cons_self, prop_ok hx _⟩) (.inl ⟨x, rfl, hx⟩)
  cases xs with
  | nil => exact hkept (by simp)
  | cons x xs =>
    by_cases hx : x = .null
    · subst hx
      exact hkept (by simp)
    · rw [selectedFrom_cons hx]
      exact hnamed hx

private theorem listed_choose {v : ChoicePanel} (h : v.panel.Listed) (c : Choice) :
    (ChoicePanel.choose c v).state.panel.Listed := by
  rw [ChoicePanel.choose_panel]
  exact h

theorem listed_step {v v' : ChoicePanel} {a : PanelAct} (hv : v.panel.Listed) (hg : ListsKeepSelection v a)
    (h : (instrumentPanel sc).step v a v') : v'.panel.Listed := by
  cases a with
  | opened | closed =>
    obtain rfl := h
    exact hv
  | setCurrency currency =>
    obtain rfl := h
    exact listed_choose hv _
  | setInstrumentType instrumentType =>
    obtain rfl := h
    exact listed_choose hv _
  | selectInstrument name =>
    obtain ⟨hname, rfl⟩ := h
    exact .inr hname
  | frame event =>
    obtain ⟨hlist, rfl⟩ := h
    cases ht : strictEq (typeOf event) "instruments" with
    | false =>
      rw [TradingPanel.onmessage_ignored ht]
      exact hv
    | true =>
      obtain ⟨xs, hxs⟩ := hlist ht
      exact (TradingPanel.listed_iff_keeps hxs).mpr (hg xs hxs)

private theorem data_order (f : OrderForm) (instrument : String) : ∃ data,
    (f.order sc instrument).get? "data" = some data ∧ data.get? "instrument_name" = some (.str instrument) := by
  refine ⟨_, rfl, ?_⟩
  by_cases hl : f.orderType = "limit" <;> simp [object, Json.get?_obj, hl]

/-- Orders go to the instrument that is selected. -/
private theorem ordersOffered (h : p.Listed) : OrdersOffered sc p := by
  intro f instrument hs m hm
  rw [OrderForm.handleSubmit_run, List.mem_singleton] at hm
  rw [hm]
  obtain ⟨data, hd, hi⟩ := @data_order sc f instrument
  refine ⟨f.order sc instrument, data, instrument, readText_printText _, hd, hi, ?_⟩
  rw [TradingPanel.Listed, hs] at h
  rcases h with h | h
  · exact .inl (by simpa using h)
  · exact .inr h

/-- As long as no list drops what is selected without bringing an instrument to
select, the selected instrument is a listed one, and so is that of every order. -/
theorem selection_sound {as : List PanelAct} {v : ChoicePanel}
    (r : (instrumentPanel sc).Run ListsKeepSelection as v) : SelectionSound sc v.panel := by
  have hv : v.panel.Listed := by
    apply r.invariant (fun v => v.panel.Listed)
    · rintro v rfl
      exact .inl rfl
    · exact fun v a v' hv hg h => listed_step hv hg h
  exact ⟨hv, ordersOffered hv⟩

end Invariant

section Dropped

def listFrame (xs : List Json) : Bytes := printText (.obj [("type", .str "instruments"), ("result", .arr xs)])

theorem instrumentsFrame_listFrame (xs : List Json) : InstrumentsFrame (listFrame xs) xs :=
  ⟨_, readText_printText _, by simp [Json.get?_obj], by simp [Json.get?_obj]⟩

def perpetual : Json := .obj [("instrument_name", .str "BTC-PERPETUAL"), ("kind", .str "future")]

/-- The panel after a list with one future, which is then selected. -/
def perpetualSelected : ChoicePanel :=
  { ChoicePanel.initial with panel := (TradingPanel.onmessage plainScript (listFrame [perpetual]) .initial).state }

private theorem perpetualSelected_run :
    (instrumentPanel plainScript).Run ListsKeepSelection [.frame (listFrame [perpetual])] perpetualSelected := by
  have r0 : (instrumentPanel plainScript).Run ListsKeepSelection [] .initial := .start rfl
  apply r0.next (.frame (listFrame [perpetual]))
  · exact fun xs _ => .inr (.inl rfl)
  · exact ⟨fun _ => ⟨_, instrumentsFrame_listFrame _⟩, rfl⟩

theorem perpetual_sound : SelectionSound plainScript perpetualSelected.panel := selection_sound perpetualSelected_run

/-- A list without entries leaves the future selected that it does not hold. -/
theorem empty_list_keeps_selection : ¬ ∀ (sc : Script) as v,
    (instrumentPanel sc).Run Transition.anyStep as v → SelectionSound sc v.panel := by
  intro h
  have r : (instrumentPanel plainScript).Run Transition.anyStep _ perpetualSelected :=
    perpetualSelected_run.weaken (fun _ _ _ => trivial)
  have hs := h _ _ _ (r.next (.frame (listFrame [])) trivial ⟨fun _ => ⟨_, instrumentsFrame_listFrame _⟩, rfl⟩)
  have hk : KeepsSelection perpetualSelected.panel [] :=
    (@TradingPanel.listed_iff_keeps plainScript _ _ _ (instrumentsFrame_listFrame [])).mp hs.listed
  rw [KeepsSelection, perpetualSelected, TradingPanel.onmessage_frame (instrumentsFrame_listFrame [perpetual])] at hk
  simp [TradingPanel.selectedFrom, perpetual, Json.get?_obj] at hk

end Dropped
end DeribitClientServer.Client
