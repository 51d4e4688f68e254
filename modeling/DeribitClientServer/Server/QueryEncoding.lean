import DeribitClientServer.Library.Query
import DeribitClientServer.Server.Updates

/-! The query that the request for instruments carries. The client's strings are
set into the path as they are, and the HTTP library escapes only some bytes. -/
namespace DeribitClientServer.Server
open Library Library.Utf8 Library.Query

section EncodeUrl

def hexDigit (d : UInt8) : UInt8 := if d < 10 then '0'.toUInt8 + d else 'A'.toUInt8 + (d - 10)

/-- One turn of the switch in encode_url. -/
def encodeUrlByte (c : UInt8) : Bytes :=
  if c = ' '.toUInt8 then ['%', '2', '0'].map Char.toUInt8
  else if c = '+'.toUInt8 then ['%', '2', 'B'].map Char.toUInt8
  else if c = '\r'.toUInt8 then ['%', '0', 'D'].map Char.toUInt8
  else if c = '\n'.toUInt8 then ['%', '0', 'A'].map Char.toUInt8
  else if c = '\''.toUInt8 then ['%', '2', '7'].map Char.toUInt8
  else if c = ','.toUInt8 then ['%', '2', 'C'].map Char.toUInt8
  else if c = ';'.toUInt8 then ['%', '3', 'B'].map Char.toUInt8
  else if 0x80 ≤ c then ['%'.toUInt8, hexDigit (c / 16), hexDigit (c % 16)]
  else [c]

/-- detail::encode_url, which stops at a null byte. -/
def encodeUrl : Bytes → Bytes
  | [] => []
  | c :: cs => if c = 0 then [] else encodeUrlByte c ++ encodeUrl cs

/-- How a byte is encoded: as it stands, or as an escape of it. A percent sign and
hexadecimal digits stand as they are. -/
private def encodedWell (c : UInt8) : Bool :=
  match encodeUrlByte c with
  | [b] => b = c
  | [p, x, y] => p = '%'.toUInt8 && escapedByte p x y = some c && c ≠ '%'.toUInt8 && (hexValue c).isNone
  | _ => false

private theorem encodedWell_ofNat : ∀ n < 256, encodedWell (UInt8.ofNat n) = true := by decide +kernel

theorem encodeUrlByte_cases (c : UInt8) : encodeUrlByte c = [c] ∨
    (c ≠ '%'.toUInt8 ∧ hexValue c = none ∧
      ∃ x y, encodeUrlByte c = ['%'.toUInt8, x, y] ∧ escapedByte '%'.toUInt8 x y = some c) := by
  have h := encodedWell_ofNat c.toNat c.toNat_lt
  rw [UInt8.ofNat_toNat] at h
  unfold encodedWell at h
  split at h
  · next b hb => exact .inl (hb.trans (by simpa using h))
  · next p x y he =>
    simp only [Bool.and_eq_true, decide_eq_true_eq, Option.isNone_iff_eq_none] at h
    obtain ⟨⟨⟨rfl, hv⟩, hc⟩, hn⟩ := h
    exact .inr ⟨hc, hn, x, y, he, hv⟩
  · cases h

theorem encodeUrl_cons {c : UInt8} (hc : c ≠ 0) (cs : Bytes) : encodeUrl (c :: cs) = encodeUrlByte c ++ encodeUrl cs := by
  rw [encodeUrl, if_neg hc]

theorem encodeUrl_append {a : Bytes} (ha : 0 ∉ a) (b : Bytes) : encodeUrl (a ++ b) = encodeUrl a ++ encodeUrl b := by
  induction a with
  | nil => rfl
  | cons c cs ih =>
    rw [List.mem_cons, not_or] at ha
    rw [List.cons_append, encodeUrl_cons (Ne.symm ha.1), ih ha.2, encodeUrl_cons (Ne.symm ha.1), List.append_assoc]

private theorem encodeUrl_digit {c : UInt8} (hc : c ≠ 0) (h : hexValue c ≠ none) (cs : Bytes) :
    encodeUrl (c :: cs) = c :: encodeUrl cs := by
  rw [encodeUrl_cons hc]
  rcases encodeUrlByte_cases c with he | ⟨_, hn, _⟩
  · rw [he, List.singleton_append]
  · exact absurd hn h

private theorem head_encodeUrl {c x : UInt8} {cs s : Bytes} (hc : c ≠ 0) (h : hexValue c = none)
    (he : encodeUrl (c :: cs) = x :: s) : hexValue x = none := by
  rw [encodeUrl_cons hc] at he
  rcases encodeUrlByte_cases c with hk | ⟨_, _, y, z, hk, _⟩
  · rw [hk, List.singleton_append] at he
    exact (List.cons.inj he).1 ▸ h
  · rw [hk, List.cons_append] at he
    exact (List.cons.inj he).1 ▸ rfl

private theorem escapedByte_none_iff {b x y : UInt8} :
    escapedByte b x y = none ↔ (b = '%'.toUInt8 → hexValue x = none ∨ hexValue y = none) := by
  unfold escapedByte
  by_cases hb : b = '%'.toUInt8
  · cases hexValue x <;> cases hexValue y <;> simp [hb]
  · simp [hb]

/-- Encoding what follows a byte makes no escape of it. -/
private theorem escapedByte_encodeUrl {b : UInt8} {rest : Bytes} (h0 : 0 ∉ rest)
    (h : ∀ x y s, rest = x :: y :: s → escapedByte b x y = none) {x y : UInt8} {s : Bytes}
    (he : encodeUrl rest = x :: y :: s) : escapedByte b x y = none := by
  rw [escapedByte_none_iff]
  intro hb
  cases rest with
  | nil => cases he
  | cons c cs =>
    rw [List.mem_cons, not_or] at h0
    by_cases hc : hexValue c = none
    · exact .inl (head_encodeUrl (Ne.symm h0.1) hc he)
    · rw [encodeUrl_digit (Ne.symm h0.1) hc] at he
      obtain ⟨rfl, htail⟩ := List.cons.inj he
      cases cs with
      | nil => cases htail
      | cons d ds =>
        rw [List.mem_cons, not_or] at h0
        have hd := escapedByte_none_iff.mp (h c d ds rfl) hb
        exact .inr (head_encodeUrl (Ne.symm h0.2.1) (hd.resolve_left hc) htail)

private theorem percentDecode_encodeUrl_cons {b : UInt8} {rest : Bytes} (h0 : 0 ∉ b :: rest)
    (h : ∀ x y s, rest = x :: y :: s → escapedByte b x y = none) :
    percentDecode (encodeUrl (b :: rest)) = b :: percentDecode (encodeUrl rest) := by
  rw [List.mem_cons, not_or] at h0
  rw [encodeUrl_cons (Ne.symm h0.1)]
  rcases encodeUrlByte_cases b with hk | ⟨_, _, x, y, hk, hv⟩
  · rw [hk, List.singleton_append]
    exact percentDecode_cons (fun x y s he => escapedByte_encodeUrl h0.2 h he)
  · rw [hk]
    exact percentDecode_escape hv _

/-- What the library encodes is decoded as if it had not been encoded. -/
theorem percentDecode_encodeUrl {b : Bytes} (h0 : 0 ∉ b) : percentDecode (encodeUrl b) = percentDecode b := by
  fun_induction percentDecode b with
  | case1 => rfl
  | case2 b x y rest v hv ih =>
    have hb : b = '%'.toUInt8 ∧ hexValue x ≠ none ∧ hexValue y ≠ none := by
      have hn : escapedByte b x y ≠ none := by simp [hv]
      rw [ne_eq, escapedByte_none_iff] at hn
      simpa only [Classical.not_imp, not_or] using hn
    obtain ⟨rfl, hx, hy⟩ := hb
    simp only [List.mem_cons, not_or] at h0
    obtain ⟨_, hx0, hy0, hr0⟩ := h0
    rw [encodeUrl_cons (by decide), encodeUrl_digit (Ne.symm hx0) hx, encodeUrl_digit (Ne.symm hy0) hy]
    exact (percentDecode_escape hv _).trans (congrArg _ (ih hr0))
  | case3 b x y rest hv ih =>
    rw [percentDecode_encodeUrl_cons h0 (by rintro _ _ _ ⟨⟩; exact hv), ih (fun h => h0 (List.mem_cons_of_mem _ h))]
  | case4 b rest hne ih =>
    rw [percentDecode_encodeUrl_cons h0 (fun x y s hs => absurd hs (hne x y s)),
      ih (fun h => h0 (List.mem_cons_of_mem _ h))]

end EncodeUrl

section Pieces

/-- The bytes that end a value: the null byte, the fragment sign and the ampersand. -/
def isStop (b : UInt8) : Bool := b = 0 || b = '#'.toUInt8 || b = '&'.toUInt8

/-- The pieces of an encoded query. -/
def pieces (query : Bytes) : List Bytes :=
  ((encodeUrl query).takeWhile (fun b => b ≠ '#'.toUInt8)).splitOnP (fun b => b = '&'.toUInt8)

variable {y : Bytes} (hy : ∀ b ∈ y, isStop b = false)
include hy

private theorem zero_notMem : 0 ∉ y := fun h => nomatch hy 0 h

private theorem encodeUrl_clean : ∀ b ∈ encodeUrl y, b ≠ '#'.toUInt8 ∧ b ≠ '&'.toUInt8 := by
  have hhex {x z v : UInt8} (h : escapedByte '%'.toUInt8 x z = some v) (b : UInt8) (hb : b = x ∨ b = z) :
      hexValue b ≠ none := by
    have hn : escapedByte '%'.toUInt8 x z ≠ none := by simp [h]
    rw [ne_eq, escapedByte_none_iff] at hn
    simp only [true_implies, not_or] at hn
    rcases hb with rfl | rfl
    · exact hn.1
    · exact hn.2
  induction y with
  | nil => intro b hb; cases hb
  | cons c cs ih =>
    have hc := hy c List.mem_cons_self
    simp only [isStop, Bool.or_eq_false_iff, decide_eq_false_iff_not] at hc
    intro b hb
    rw [encodeUrl_cons hc.1.1, List.mem_append] at hb
    rcases hb with hb | hb
    · rcases encodeUrlByte_cases c with hk | ⟨_, _, x, z, hk, hv⟩
      · rw [hk, List.mem_singleton] at hb
        exact hb ▸ ⟨hc.1.2, hc.2⟩
      · rw [hk, List.mem_cons, List.mem_cons, List.mem_singleton] at hb
        rcases hb with rfl | hb
        · decide
        · have hx := hhex hv b hb
          refine ⟨?_, ?_⟩ <;> rintro rfl <;> exact hx rfl
    · exact ih (fun d hd => hy d (List.mem_cons_of_mem _ hd)) b hb

private theorem takeWhile_clean (t : Bytes) :
    (encodeUrl y ++ t).takeWhile (fun b => b ≠ '#'.toUInt8) = encodeUrl y ++ t.takeWhile (fun b => b ≠ '#'.toUInt8) :=
  List.takeWhile_append_of_pos (fun b hb => by simpa using (encodeUrl_clean hy b hb).1)

private theorem splitOnP_clean : (encodeUrl y).splitOnP (fun b => b = '&'.toUInt8) = [encodeUrl y] :=
  List.splitOnP_eq_singleton (fun b hb => by simpa using (encodeUrl_clean hy b hb).2)

/-- Text without a stop is one piece. -/
theorem pieces_clean : pieces y = [encodeUrl y] := by
  have h := takeWhile_clean hy []
  rw [List.append_nil, List.takeWhile_nil, List.append_nil] at h
  rw [pieces, h, splitOnP_clean hy]

/-- An ampersand ends a piece. -/
theorem pieces_amp (z : Bytes) : pieces (y ++ '&'.toUInt8 :: z) = encodeUrl y :: pieces z := by
  have hamp : encodeUrl ('&'.toUInt8 :: z) = '&'.toUInt8 :: encodeUrl z := by
    rw [encodeUrl_cons (by decide)]
    rfl
  rw [pieces, encodeUrl_append (zero_notMem hy), hamp, takeWhile_clean hy, List.takeWhile_cons_of_pos (by decide)]
  exact List.splitOnP_append_cons_of_forall_mem (fun b hb => by simpa using (encodeUrl_clean hy b hb).2) _ (by decide) _

/-- A piece ends at any stop, whatever follows it. -/
theorem pieces_stop {s : UInt8} (hs : isStop s = true) (t : Bytes) :
    ∃ rest, pieces (y ++ s :: t) = encodeUrl y :: rest := by
  simp only [isStop, Bool.or_eq_true, decide_eq_true_eq] at hs
  rcases hs with (rfl | rfl) | rfl
  · refine ⟨[], ?_⟩
    rw [← pieces_clean hy, pieces, pieces, encodeUrl_append (zero_notMem hy)]
    simp [encodeUrl]
  · have hsharp : encodeUrl ('#'.toUInt8 :: t) = '#'.toUInt8 :: encodeUrl t := by
      rw [encodeUrl_cons (by decide)]
      rfl
    refine ⟨[], ?_⟩
    rw [pieces, encodeUrl_append (zero_notMem hy), hsharp, takeWhile_clean hy, List.takeWhile_cons_of_neg (by decide),
      List.append_nil, splitOnP_clean hy]
  · exact ⟨_, pieces_amp hy t⟩

end Pieces

section Query

/-- A string that the path carries over: no null byte, no fragment sign, no
ampersand, and nothing that reads as an escape. -/
structure Clean (b : Bytes) : Prop where
  stops : ∀ x ∈ b, isStop x = false
  escapes : ¬ HasEscape b

private theorem clean_or_stop (b : Bytes) : (∀ x ∈ b, isStop x = false) ∨
    ∃ y s t, b = y ++ s :: t ∧ (∀ x ∈ y, isStop x = false) ∧ isStop s = true := by
  induction b with
  | nil => exact .inl (fun x hx => nomatch hx)
  | cons c cs ih =>
    cases hc : isStop c with
    | true => exact .inr ⟨[], c, cs, rfl, fun x hx => (nomatch hx), hc⟩
    | false =>
      rcases ih with h | ⟨y, s, t, rfl, hy, hs⟩
      · exact .inl (List.forall_mem_cons.mpr ⟨hc, h⟩)
      · exact .inr ⟨c :: y, s, t, rfl, List.forall_mem_cons.mpr ⟨hc, hy⟩, hs⟩

/-- The name of a parameter: letters that stand for themselves. -/
private structure Name (n : Bytes) : Prop where
  stops : ∀ x ∈ n, isStop x = false
  plain : encodeUrl n = n
  equals : ∀ x ∈ n, x ≠ '='.toUInt8
  decodes : percentDecode n = n

private theorem param_encodeUrl {n v : Bytes} (hn : Name n) (hv : 0 ∉ v) :
    param (encodeUrl (n ++ '='.toUInt8 :: v)) = (n, percentDecode v) := by
  have heq : encodeUrl ('='.toUInt8 :: v) = '='.toUInt8 :: encodeUrl v := by
    rw [encodeUrl_cons (by decide)]
    rfl
  have hpos : ∀ x ∈ n, decide (x ≠ '='.toUInt8) = true := fun x hx => by simpa using hn.equals x hx
  rw [encodeUrl_append (zero_notMem hn.stops), hn.plain, heq, param, List.takeWhile_append_of_pos hpos,
    List.dropWhile_append_of_pos hpos, List.takeWhile_cons_of_neg (by decide), List.dropWhile_cons_of_neg (by decide),
    List.append_nil, hn.decodes, List.drop_one, List.tail_cons, percentDecode_encodeUrl hv]

private theorem stops_param {n v : Bytes} (hn : Name n) (hv : ∀ x ∈ v, isStop x = false) :
    ∀ x ∈ n ++ '='.toUInt8 :: v, isStop x = false := by
  intro x hx
  rcases List.mem_append.mp hx with hx | hx
  · exact hn.stops x hx
  · rcases List.mem_cons.mp hx with rfl | hx
    · decide
    · exact hv x hx

/-- The first parameter read is the one written only if its value is clean. -/
private theorem clean_of_head {n v t : Bytes} (hn : Name n) {p : Bytes × Bytes} {rest : List (Bytes × Bytes)}
    (h : (pieces (n ++ '='.toUInt8 :: (v ++ t))).map param = p :: rest) (hp : p.2 = v)
    (ht : t = [] ∨ ∃ z, t = '&'.toUInt8 :: z) : Clean v := by
  rcases clean_or_stop v with hv | ⟨y, s, u, rfl, hy, hs⟩
  · refine ⟨hv, (percentDecode_eq_self_iff v).mp ?_⟩
    have hhead : ∃ rest', pieces (n ++ '='.toUInt8 :: (v ++ t)) = encodeUrl (n ++ '='.toUInt8 :: v) :: rest' := by
      rcases ht with rfl | ⟨z, rfl⟩
      · rw [List.append_nil]
        exact ⟨[], pieces_clean (stops_param hn hv)⟩
      · rw [← List.cons_append, ← List.append_assoc]
        exact ⟨_, pieces_amp (stops_param hn hv) z⟩
    obtain ⟨rest', hhead⟩ := hhead
    rw [hhead, List.map_cons, param_encodeUrl hn (zero_notMem hv)] at h
    rw [← (List.cons.inj h).1] at hp
    exact hp
  · exfalso
    obtain ⟨rest', hhead⟩ := pieces_stop (stops_param hn hy) hs (u ++ t)
    have happ : n ++ '='.toUInt8 :: (y ++ s :: u ++ t) = n ++ '='.toUInt8 :: y ++ s :: (u ++ t) := by simp
    rw [happ, hhead, List.map_cons, param_encodeUrl hn (zero_notMem hy)] at h
    rw [← (List.cons.inj h).1] at hp
    have hlen := length_percentDecode y
    simp only at hp
    rw [hp, List.length_append, List.length_cons] at hlen
    omega

private theorem name_currency : Name (encode "currency") :=
  ⟨by decide +kernel, by decide +kernel, by decide +kernel, by decide +kernel⟩

private theorem name_kind : Name (encode "kind") := ⟨by decide +kernel, by decide +kernel, by decide +kernel, by decide +kernel⟩

private theorem zero_notMem_char {c : Char} (h : c ≠ '\x00') : 0 ∉ String.utf8EncodeChar c :=
  fun hm => h (eq_of_ascii_mem rfl (by decide) hm)

/-- A path cut at its first null character is encoded as the whole path is. -/
private theorem encodeUrl_cStr (s : String) : encodeUrl (encode (cStr s)) = encodeUrl (encode s) := by
  rw [cStr, encode, String.toList_ofList, encode]
  induction s.toList with
  | nil => rfl
  | cons c cs ih =>
    by_cases hc : c = '\x00'
    · subst hc
      rfl
    · rw [List.takeWhile_cons_of_pos (by simpa using hc), List.flatMap_cons, List.flatMap_cons,
        encodeUrl_append (zero_notMem_char hc), encodeUrl_append (zero_notMem_char hc), ih]

def pathRoot : Bytes := encode "/api/v2/public/get_instruments?"

/-- The query set into the path. -/
def instrumentsQueryText (currency kind : Bytes) : Bytes :=
  encode "currency" ++ '='.toUInt8 :: (currency ++ '&'.toUInt8 :: (encode "kind" ++ '='.toUInt8 :: kind))

private theorem encode_instrumentsPath (currency kind : String) :
    encode (instrumentsPath currency kind) = pathRoot ++ instrumentsQueryText (encode currency) (encode kind) := by
  have hroot : "/api/v2/public/get_instruments?currency=" = "/api/v2/public/get_instruments?" ++ "currency" ++ "=" := by
    simp
  have hkind : "&kind=" = "&" ++ "kind" ++ "=" := by simp
  have heq : encode "=" = ['='.toUInt8] := by decide
  have hamp : encode "&" = ['&'.toUInt8] := by decide
  unfold instrumentsPath instrumentsQueryText pathRoot
  simp only [hroot, hkind, encode_append, heq, hamp, List.append_assoc, List.cons_append, List.nil_append]

private theorem params_pathRoot (query : Bytes) :
    params (encodeUrl (pathRoot ++ query)) = (pieces query).map param := by
  have hroot : encodeUrl pathRoot = pathRoot := by decide
  rw [encodeUrl_append (by decide), hroot, params, queryPart]
  rfl

private theorem params_clean {currency kind : Bytes} (hc : Clean currency) (hk : Clean kind) :
    (pieces (instrumentsQueryText currency kind)).map param = [(encode "currency", currency), (encode "kind", kind)] := by
  rw [instrumentsQueryText, ← List.cons_append, ← List.append_assoc, pieces_amp (stops_param name_currency hc.stops),
    pieces_clean (stops_param name_kind hk.stops), List.map_cons, List.map_cons, List.map_nil,
    param_encodeUrl name_currency (zero_notMem hc.stops), param_encodeUrl name_kind (zero_notMem hk.stops),
    (percentDecode_eq_self_iff currency).mpr hc.escapes, (percentDecode_eq_self_iff kind).mpr hk.escapes]

private theorem clean_of_params {currency kind : Bytes}
    (h : (pieces (instrumentsQueryText currency kind)).map param = [(encode "currency", currency), (encode "kind", kind)]) :
    Clean currency ∧ Clean kind := by
  have hc : Clean currency := clean_of_head name_currency h rfl (.inr ⟨_, rfl⟩)
  refine ⟨hc, ?_⟩
  rw [instrumentsQueryText, ← List.cons_append, ← List.append_assoc, pieces_amp (stops_param name_currency hc.stops),
    List.map_cons] at h
  have htail : (pieces (encode "kind" ++ '='.toUInt8 :: (kind ++ []))).map param = [(encode "kind", kind)] := by
    rw [List.append_nil]
    exact (List.cons.inj h).2
  exact clean_of_head name_kind htail rfl (.inl rfl)

/-- The request that is made for these strings is read as them. -/
def RoundTrips (env : Externals) (currency kind : String) (w : World) : Prop :=
  ∀ r ∈ apiRequests (fetchInstruments env currency kind w).trace,
    params (encodeUrl (encode r.path)) = [(encode "currency", encode currency), (encode "kind", encode kind)]

private theorem roundTrips_params (env : Externals) (currency kind : String) (w : World) :
    RoundTrips env currency kind w ↔ (pieces (instrumentsQueryText (encode currency) (encode kind))).map param =
      [(encode "currency", encode currency), (encode "kind", encode kind)] := by
  rw [RoundTrips, apiRequests_fetchInstruments, List.forall_mem_singleton, encodeUrl_cStr, encode_instrumentsPath,
    params_pathRoot]

/-- The strings of a message reach the exchange as they are exactly when both are
clean: delimiters, null characters and escapes in them change the request. -/
theorem query_roundTrips_iff (env : Externals) (currency kind : String) (w : World) :
    RoundTrips env currency kind w ↔ Clean (encode currency) ∧ Clean (encode kind) := by
  rw [roundTrips_params]
  exact ⟨clean_of_params, fun h => params_clean h.1 h.2⟩

/-- A currency with an ampersand in it adds a parameter to the request. -/
theorem ampersand_adds_parameter : ¬ ∀ env currency kind w, RoundTrips env currency kind w := by
  intro h
  have hr := h grammarExternals "BTC&expired=true" "future" idleWorld
  rw [roundTrips_params] at hr
  have hc := (clean_of_params hr).1
  have hamp : '&'.toUInt8 ∈ encode "BTC&expired=true" := by decide
  exact nomatch hc.stops _ hamp

end Query
end DeribitClientServer.Server
