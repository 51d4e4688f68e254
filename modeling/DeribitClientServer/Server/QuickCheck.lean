import DeribitClientServer.Library.JsonOpening
import DeribitClientServer.Server.OrderbookCycle

/-! The order book loop's test of a body's first character, against the check of
the parsed body that follows it. -/
namespace DeribitClientServer.Server
open Library Library.JsonText Library.Utf8

section Parsing

/-- What json::parse reads of a byte string: it passes over a byte order mark,
and a null byte ends its input. -/
def significant (b : Bytes) : Bytes :=
  (if byteOrderMark.isPrefixOf b then b.drop byteOrderMark.length else b).takeWhile (fun x => x ≠ 0)

/-- json::parse accepts JSON texts only, and its value is what the text denotes. -/
def ParsesGrammar (env : Externals) : Prop :=
  ∀ b j, env.parse b = .ok j →
    ∃ v u, readText (significant b) = some v ∧ v.respell env.spelling = some u ∧ j = u.canon

/-- A body that begins with white space or with a byte order mark. -/
def Padded (body : Bytes) : Prop := body.head?.any isSpaceByte = true ∨ byteOrderMark.isPrefixOf body = true

instance (body : Bytes) : Decidable (Padded body) := inferInstanceAs (Decidable (_ ∨ _))

/-- json::parse gives an object that has a result and no error. -/
def PlainAccepts (env : Externals) (body : Bytes) : Prop :=
  ∃ ms, parseJson env body = .ok (.obj ms) ∧
    (Json.obj ms).contains "result" = true ∧ (Json.obj ms).contains "error" = false

variable {env : Externals} {body : Bytes}

private theorem obj_of_denoted {v u : Json} {ms : List (String × Json)} (hu : v.respell env.spelling = some u)
    (hj : .obj ms = u.canon) : ∃ ns, v = .obj ns := by
  cases v with
  | obj ns => exact ⟨ns, rfl⟩
  | arr xs =>
    obtain ⟨ys, _, rfl⟩ := Option.map_eq_some_iff.mp hu
    rw [Json.canon_arr] at hj
    cases hj
  | num n =>
    obtain ⟨m, _, rfl⟩ := Option.map_eq_some_iff.mp hu
    cases hj
  | null | bool b | str s =>
    cases hu
    cases hj

private theorem head_significant {x : UInt8} (hm : byteOrderMark.isPrefixOf body = false)
    (hx : (significant body).head? = some x) : body.head? = some x := by
  rw [significant, hm, if_neg Bool.false_ne_true, List.head?_takeWhile] at hx
  exact (Option.filter_eq_some_iff.mp hx).1

/-- Nothing is passed over in a JSON text. -/
theorem significant_text {v : Json} (h : readText body = some v) : significant body = body := by
  have hall : ∀ x ∈ body, decide (x ≠ 0) = true := fun x hx => decide_eq_true (fun hz => zero_notMem_text h (hz ▸ hx))
  rw [significant, no_mark_text h, if_neg Bool.false_ne_true, List.takeWhile_eq_self_iff.mpr hall]

/-- Without padding, a body that is parsed as an object opens with its brace. -/
theorem head_of_parse (hg : ParsesGrammar env) {ms : List (String × Json)} (hp : parseJson env body = .ok (.obj ms))
    (hb : ¬ Padded body) : body.head? = some '\x7b'.toUInt8 := by
  have hm : byteOrderMark.isPrefixOf body = false := Bool.eq_false_iff.mpr (fun h => hb (.inr h))
  obtain ⟨v, u, hv, hu, hj⟩ := hg body _ ((parseJson_ok_iff env).mp hp)
  obtain ⟨ns, rfl⟩ := obj_of_denoted hu hj
  rcases head_object hv with h | ⟨x, h, hspace⟩
  · exact head_significant hm h
  · refine absurd (.inl ?_) hb
    rw [head_significant hm h]
    exact hspace

private theorem padded_head (hb : Padded body) : body.head? ≠ some '\x7b'.toUInt8 := by
  intro hh
  rcases hb with hb | hb
  · rw [hh] at hb
    exact absurd hb (by decide)
  · cases body with
    | nil => cases hh
    | cons x body =>
      obtain rfl := Option.some_inj.mp hh
      exact Bool.false_ne_true hb

end Parsing

section Broadcasting
variable {env : Externals} {timestamp : Nat} {instrument : String} {w : World} {body : Bytes}

/-- The step hands one payload to broadcast, which sends it to whoever is
connected. -/
def AttemptsBroadcast (env : Externals) (timestamp : Nat) (instrument : String) (w : World) : Prop :=
  ∃ p, ∀ members : Stream' (List (Hdl × SessionState)),
    (orderbookStep env timestamp instrument { w with members := members }).trace =
      .api (bookRequest instrument) :: sends p members.head

private theorem bookAnswer_unique {res : Outcome} {d d' : Json} (h : BookAnswer env res d) (h' : BookAnswer env res d') :
    d = d' := by
  obtain ⟨body, orderbook, hb, _, hp, _, hd⟩ := h
  obtain ⟨_, _, hb', _, hp', _, hd'⟩ := h'
  obtain rfl := Option.some_inj.mp (hb.symm.trans hb')
  obtain rfl := Except.ok.inj (hp.symm.trans hp')
  exact Option.some_inj.mp (hd.symm.trans hd')

theorem attemptsBroadcast_iff :
    AttemptsBroadcast env timestamp instrument w ↔ ∃ data, BookAnswer env w.api.head data := by
  constructor
  · rintro ⟨p, hp⟩
    -- One open connection makes any attempt visible.
    have hone := hp (.const [(1, .opened)])
    rcases @orderbookStep_cases env timestamp instrument { w with members := .const [(1, .opened)] } with
      ⟨data, hd, _⟩ | ⟨_, hrun⟩
    · exact ⟨data, hd⟩
    · rw [hrun] at hone
      cases hone
  · rintro ⟨data, hd⟩
    refine ⟨env.dump (fillTemplate instrument timestamp data w.updateTemplate), fun members => ?_⟩
    rcases @orderbookStep_cases env timestamp instrument { w with members := members } with ⟨data', hd', hrun⟩ | ⟨hn, _⟩
    · rw [hrun, bookAnswer_unique hd hd']
    · exact absurd hd (hn data)

/-- A good answer is a body that passes the test and is accepted without it. -/
theorem bookAnswer_iff : (∃ data, BookAnswer env (some ⟨200, body⟩) data) ↔
    body.head? = some '\x7b'.toUInt8 ∧ PlainAccepts env body := by
  constructor
  · rintro ⟨data, _, orderbook, hb, hh, hp, he, hr⟩
    obtain rfl := Option.some_inj.mp hb
    have hc : orderbook.contains "result" = true := contains_of_get? hr
    obtain ⟨ms, rfl⟩ := isObj_of_contains hc
    exact ⟨hh, ms, hp, hc, by rw [Json.contains, he, Option.isSome_none]⟩
  · rintro ⟨hh, ms, hp, hr, he⟩
    obtain ⟨data, hd⟩ := Option.isSome_iff_exists.mp hr
    exact ⟨data, body, _, rfl, hh, hp, Option.isSome_eq_false_iff.mp he |> Option.isNone_iff_eq_none.mp, hd⟩

/-- A body is broadcast exactly when the plain check accepts it, and the test of
its first character turns away nothing that is accepted. -/
structure QuickCheckAgrees (env : Externals) (timestamp : Nat) (instrument : String) (body : Bytes) (w : World) :
    Prop where
  attempts : AttemptsBroadcast env timestamp instrument w ↔ PlainAccepts env body
  passes : body.head? ≠ some '\x7b'.toUInt8 → ¬ PlainAccepts env body

/-- The test agrees with the plain check on every body but those that are
accepted behind padding. -/
theorem quickCheck_agrees_iff (hg : ParsesGrammar env) (hb : w.api.head = some ⟨200, body⟩) :
    QuickCheckAgrees env timestamp instrument body w ↔ ¬ (Padded body ∧ PlainAccepts env body) := by
  have hattempt : AttemptsBroadcast env timestamp instrument w ↔
      body.head? = some '\x7b'.toUInt8 ∧ PlainAccepts env body := by
    rw [attemptsBroadcast_iff, hb, bookAnswer_iff]
  constructor
  · rintro ⟨_, hpass⟩ ⟨hpad, hacc⟩
    exact hpass (padded_head hpad) hacc
  · intro hn
    have hhead (hacc : PlainAccepts env body) : body.head? = some '\x7b'.toUInt8 := by
      obtain ⟨ms, hp, hr, he⟩ := hacc
      exact head_of_parse hg hp (fun hpad => hn ⟨hpad, ms, hp, hr, he⟩)
    exact ⟨hattempt.trans ⟨fun h => h.2, fun hacc => ⟨hhead hacc, hacc⟩⟩, fun hne hacc => hne (hhead hacc)⟩

end Broadcasting

section Bodies

/-- What the grammar reads has neither a mark nor a null byte to pass over. -/
theorem parsesGrammar_grammar : ParsesGrammar grammarExternals := by
  intro b j hj
  simp only [grammarExternals] at hj
  cases hv : readText b with
  | none =>
    rw [hv] at hj
    cases hj
  | some v =>
    rw [hv] at hj
    cases hj
    have hall : ∀ x ∈ b, decide (x ≠ 0) = true :=
      fun x hx => decide_eq_true (fun hz => zero_notMem_text hv (hz ▸ hx))
    have hb : significant b = b := by
      rw [significant, no_mark_text hv, if_neg Bool.false_ne_true, List.takeWhile_eq_self_iff.mpr hall]
    refine ⟨v, v, ?_, Json.respell_some v, rfl⟩
    rw [hb]
    exact hv

def emptyBook : Bytes := encode "\x7b\"result\":\x7b\x7d\x7d"

def paddedBook : Bytes := encode " \x7b\"result\":\x7b\x7d\x7d"

/-- Every call is answered with this body. -/
def bookWorld (body : Bytes) : World := { idleWorld with api := .const (some ⟨200, body⟩) }

/-- A body without padding is broadcast. -/
theorem emptyBook_agrees : QuickCheckAgrees grammarExternals 0 "BTC-PERPETUAL" emptyBook (bookWorld emptyBook) :=
  (quickCheck_agrees_iff parsesGrammar_grammar rfl).mpr (fun h => absurd h.1 (by decide))

private theorem accepts_paddedBook : PlainAccepts grammarExternals paddedBook := by
  have hread : readText paddedBook = some (.obj [("result", .obj [])]) := by
    rw [paddedBook, readText_encode]
    rfl
  have hcanon : Json.canon (.obj [("result", .obj [])]) = .obj [("result", .obj [])] := by
    rw [Json.canon_single]
    rfl
  refine ⟨[("result", .obj [])], (parseJson_ok_iff _).mpr ?_, rfl, rfl⟩
  simp only [grammarExternals, hread, hcanon]

/-- One space before the brace, and a good answer is dropped. -/
theorem paddedBook_dropped : ¬ ∀ (env : Externals), ParsesGrammar env → ∀ timestamp instrument body w,
    w.api.head = some ⟨200, body⟩ → QuickCheckAgrees env timestamp instrument body w := by
  intro h
  have hagrees := h grammarExternals parsesGrammar_grammar 0 "BTC-PERPETUAL" paddedBook (bookWorld paddedBook) rfl
  obtain ⟨data, hd⟩ := attemptsBroadcast_iff.mp (hagrees.attempts.mpr accepts_paddedBook)
  exact absurd (bookAnswer_iff.mp ⟨data, hd⟩).1 (by decide)

end Bodies
end DeribitClientServer.Server
