import DeribitClientServer.Server.World

/-! The cached access token. Both cells are written only after a response has
yielded a token. -/
namespace DeribitClientServer.Server
open Library Library.JsonText Library.Utf8

def authRequest : Json :=
  .obj [("jsonrpc", .str "2.0"), ("id", numberOf 9929), ("method", .str "public/auth"),
    ("params", .obj [("grant_type", .str "client_credentials"), ("client_id", .str ""),
      ("client_secret", .str "")])]

/-- Fifteen minutes in nanoseconds. -/
def tokenLifetime : Nat := 15 * 60 * 10 ^ 9

/-- The clock is read only when a token is cached. -/
def tokenStale : Program Bool := do
  let w ← Exec.get
  if w.accessToken = "" then pure true
  else do
    let now ← steadyNow
    pure (decide (w.tokenExpiry ≤ now))

def responseToken (env : Externals) (body : Bytes) : Except Exn String := do
  let response ← parseJson env body
  let result ← index env response "result"
  let token ← index env result "access_token"
  getString env token

/-- What an authentication grants: the string under access_token in the result that a
response with status 200 holds. -/
def authGrant (env : Externals) : Outcome → Option String
  | none => none
  | some r =>
      if r.status = 200 then
        match parseJson env r.body with
        | .error _ => none
        | .ok response =>
            match (response.get? "result").bind (fun result => result.get? "access_token") with
            | some (.str token) => some token
            | _ => none
      else none

def getAccessToken (env : Externals) : Program String := do
  let stale ← tokenStale
  if stale then do
    let res ← authCall ⟨.post, "/api/v2/public/auth", none, env.dump authRequest⟩
    match okBody res with
    | some body => do
        let token ← Exec.ofExcept (responseToken env body)
        Exec.modify (fun w => { w with accessToken := token })
        let now ← steadyNow
        Exec.modify (fun w => { w with tokenExpiry := now + tokenLifetime })
    | none => throw ⟨encode "Failed to obtain access token"⟩
  else pure ()
  let w ← Exec.get
  pure w.accessToken

section Outcome
variable (env : Externals) (w : World)

/-- A cached token that has not reached its expiry. -/
def TokenFresh : Prop := w.accessToken ≠ "" ∧ w.steady.head < w.tokenExpiry

instance : Decidable (TokenFresh w) := inferInstanceAs (Decidable (_ ∧ _))

/-- The token an auth response with status 200 carries. -/
def grantedToken : Except Exn String :=
  match okBody w.auth.head with
  | some body => responseToken env body
  | none => .error ⟨encode "Failed to obtain access token"⟩

def tokenResult : Except Exn String := if TokenFresh w then .ok w.accessToken else grantedToken env w

/-- A token is cached, or would be granted. -/
def TokenAvailable : Prop := TokenFresh w ∨ ∃ token, authGrant env w.auth.head = some token

def authPost : Request := ⟨.post, "/api/v2/public/auth", none, env.dump authRequest⟩

def tokenTrace : List Event := if TokenFresh w then [] else [.auth (authPost env)]

/-- The clock readings left once the cache was found stale. -/
def staleSteady : Stream' Nat := if w.accessToken = "" then w.steady else w.steady.tail

def tokenWorld : World :=
  if TokenFresh w then { w with steady := w.steady.tail }
  else match grantedToken env w with
    | .ok token =>
        { w with auth := w.auth.tail, steady := (staleSteady w).tail, accessToken := token,
                 tokenExpiry := (staleSteady w).head + tokenLifetime }
    | .error _ => { w with auth := w.auth.tail, steady := staleSteady w }

/-- Everything but the token cache and the clock and auth streams is kept. -/
structure TokenFrame (w w' : World) : Prop where
  api : w'.api = w.api
  system : w'.system = w.system
  sender : w'.sender = w.sender
  members : w'.members = w.members
  noneConnected : w'.noneConnected = w.noneConnected
  pathBuffer : w'.pathBuffer = w.pathBuffer
  updateTemplate : w'.updateTemplate = w.updateTemplate
  lastUpdate : w'.lastUpdate = w.lastUpdate

private theorem index_member {j v : Json} {k : String} (h : index env j k = .ok v) (hv : v ≠ .null) : j.get? k = some v := by
  cases j with
  | obj ms =>
    simp only [index, Except.ok.injEq] at h
    cases hk : (Json.obj ms).get? k with
    | none =>
      rw [hk] at h
      exact absurd h.symm hv
    | some u =>
      rw [hk] at h
      exact congrArg some h
  | null =>
    simp only [index, Except.ok.injEq] at h
    exact absurd h.symm hv
  | bool b | num n | str s | arr xs => cases h

private theorem responseToken_ok_iff {body : Bytes} {token : String} : responseToken env body = .ok token ↔
    ∃ response result, parseJson env body = .ok response ∧ response.get? "result" = some result ∧
      result.get? "access_token" = some (.str token) := by
  constructor
  · intro h
    unfold responseToken at h
    cases hp : parseJson env body with
    | error e =>
      rw [hp] at h
      cases h
    | ok response =>
      cases hr : index env response "result" with
      | error e => simp [hp, hr, bind, Except.bind] at h
      | ok result =>
        cases ht : index env result "access_token" with
        | error e => simp [hp, hr, ht, bind, Except.bind] at h
        | ok v =>
          have hv : getString env v = .ok token := by simpa [hp, hr, ht, bind, Except.bind] using h
          obtain rfl : v = .str token := by
            cases v with
            | str s => exact congrArg Json.str (Except.ok.inj hv)
            | null | bool b | num n | arr xs | obj ms => cases hv
          have hn : result ≠ .null := by
            rintro rfl
            cases ht
          exact ⟨response, result, rfl, index_member env hr hn, index_member env ht (by simp)⟩
  · rintro ⟨response, result, hp, hr, ht⟩
    simp only [responseToken, hp, bind, Except.bind, index_of_get? env hr, index_of_get? env ht]
    rfl

/-- The code takes the token that is granted. -/
theorem grantedToken_ok_iff {token : String} : grantedToken env w = .ok token ↔ authGrant env w.auth.head = some token := by
  unfold grantedToken
  cases hres : w.auth.head with
  | none => simp [okBody, authGrant]
  | some r =>
    by_cases hs : r.status = 200
    · simp only [okBody, Option.bind_some, if_pos hs, authGrant, responseToken_ok_iff]
      cases hp : parseJson env r.body with
      | error e => simp
      | ok response =>
        cases hr : response.get? "result" with
        | none => simp [hr]
        | some result =>
          cases ht : result.get? "access_token" with
          | none => simp [hr, ht]
          | some v => cases v <;> simp [hr, ht]
    · simp [okBody, authGrant, hs]

private theorem tokenStale_stale (h : ¬ TokenFresh w) :
    tokenStale w = ⟨.ok true, { w with steady := staleSteady w }, []⟩ := by
  unfold staleSteady
  by_cases he : w.accessToken = ""
  · simp only [tokenStale, Exec.run_bind, Exec.run_get, Ran.andThen_ok, if_pos he, Exec.run_pure, Ran.after_nil]
  · have hx : w.tokenExpiry ≤ w.steady.head := not_lt.mp (fun hlt => h ⟨he, hlt⟩)
    simp [tokenStale, he, hx]

/-- A fresh token is used; otherwise one is asked for, and cached only when granted. -/
theorem getAccessToken_run : getAccessToken env w = ⟨tokenResult env w, tokenWorld env w, tokenTrace env w⟩ := by
  unfold tokenResult tokenWorld tokenTrace
  by_cases h : TokenFresh w
  · obtain ⟨hne, hlt⟩ := h
    rw [if_pos ⟨hne, hlt⟩, if_pos ⟨hne, hlt⟩, if_pos ⟨hne, hlt⟩]
    simp [getAccessToken, tokenStale, hne, not_le.mpr hlt]
  · rw [if_neg h, if_neg h, if_neg h]
    have hs := tokenStale_stale w h
    unfold grantedToken
    cases hb : okBody w.auth.head with
    | none => simp [getAccessToken, hs, hb, authPost]
    | some body =>
      cases ht : responseToken env body with
      | error e => simp [getAccessToken, hs, hb, ht, authPost]
      | ok token => simp [getAccessToken, hs, hb, ht, authPost]

theorem tokenFrame : TokenFrame w (tokenWorld env w) := by
  unfold tokenWorld
  by_cases h : TokenFresh w
  · rw [if_pos h]
    exact ⟨rfl, rfl, rfl, rfl, rfl, rfl, rfl, rfl⟩
  · rw [if_neg h]
    cases grantedToken env w <;> exact ⟨rfl, rfl, rfl, rfl, rfl, rfl, rfl, rfl⟩

theorem tokenAvailable_iff : TokenAvailable env w ↔ ∃ token, tokenResult env w = .ok token := by
  unfold TokenAvailable tokenResult
  by_cases h : TokenFresh w <;> simp [h, grantedToken_ok_iff]

theorem not_tokenAvailable_iff : ¬ TokenAvailable env w ↔ ∃ e, tokenResult env w = .error e := by
  rw [tokenAvailable_iff]
  cases tokenResult env w <;> simp

/-- No token is had when none is cached and the auth call goes unanswered. -/
theorem not_tokenAvailable (hc : w.accessToken = "") (ha : okBody w.auth.head = none) : ¬ TokenAvailable env w := by
  rintro (⟨hne, _⟩ | ⟨token, ht⟩)
  · exact hne hc
  · rw [← grantedToken_ok_iff, grantedToken, ha] at ht
    cases ht

end Outcome

section Granted

/-- An answer that grants this token. -/
def grantText (token : String) : Bytes := printText (.obj [("result", .obj [("access_token", .str token)])])

private theorem parse_grantText (token : String) : parseJson grammarExternals (grantText token) =
    .ok (.obj [("result", .obj [("access_token", .str token)])]) := by
  have hc : Json.canon (.obj [("result", .obj [("access_token", .str token)])]) =
      .obj [("result", .obj [("access_token", .str token)])] := by
    rw [Json.canon_single, Json.canon_single, Json.canon_str]
  rw [grantText, parseJson_printed grammarExternals (Json.respell_some _), hc]

theorem responseToken_grantText (token : String) : responseToken grammarExternals (grantText token) = .ok token :=
  (responseToken_ok_iff _).mpr ⟨_, _, parse_grantText token, rfl, rfl⟩

end Granted
end DeribitClientServer.Server
