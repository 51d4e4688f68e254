import DeribitClientServer.Library.Transition
import DeribitClientServer.Server.Token

/-! The token cache against the history of its authentications. Calls follow one
another on a clock that never goes back. -/
namespace DeribitClientServer.Server
open Library Library.Utf8

/-- An authentication that yielded a token, with the clock reading after it. -/
structure Grant where
  token : String
  time : Nat

/-- The world and the latest successful authentication. -/
structure TokenHistory where
  world : World
  latest : Option Grant

inductive TokenAct where
  | call
  | outside (w : World)

section History
variable (env : Externals)

def NonDecreasing (clock : Stream' Nat) : Prop := ∀ n m, n ≤ m → clock.get n ≤ clock.get m

def authRequests (t : List Event) : List Request := t.filterMap (fun | .auth r => some r | .api _ | .send _ _ _ _ => none)

/-- The grant that the auth response of a call from this world makes; the clock is read before the
request only when a token is cached. -/
def World.grant (w : World) : Option Grant :=
  (authGrant env w.auth.head).map fun token => ⟨token, (if w.accessToken = "" then w.steady else w.steady.tail).head⟩

/-- A call, with what it adds to the history when it makes an auth request. -/
def TokenHistory.called (s : TokenHistory) : TokenHistory :=
  let r := getAccessToken env s.world
  ⟨r.state, if authRequests r.trace = [] then s.latest else (s.world.grant env).or s.latest⟩

/-- Between calls the cache is kept, while the clock and the auth outcomes go on. -/
structure TokenKept (w w' : World) : Prop where
  accessToken : w'.accessToken = w.accessToken
  tokenExpiry : w'.tokenExpiry = w.tokenExpiry
  steady : ∃ n, w'.steady = w.steady.drop n

def tokenCalls : Transition TokenHistory TokenAct where
  initial s := s.world.accessToken = "" ∧ NonDecreasing s.world.steady ∧ s.latest = none
  step s a s' :=
    match a with
    | .call => s' = s.called env
    | .outside w => TokenKept s.world w ∧ s' = { s with world := w }

/-- The cached token has reached its expiry, or there is none. -/
def TokenExpired (w : World) : Prop := w.accessToken = "" ∨ w.tokenExpiry ≤ w.steady.head

/-- What a call does in a state of the history. -/
structure CallDisciplined (s : TokenHistory) : Prop where
  asks : authRequests (getAccessToken env s.world).trace ≠ [] ↔ TokenExpired s.world
  once : authRequests (getAccessToken env s.world).trace ≠ [] →
    authRequests (getAccessToken env s.world).trace = [authPost env]
  returned : ∀ token, (getAccessToken env s.world).result = .ok token →
    ∃ g, (s.called env).latest = some g ∧ g.token = token ∧
      (authRequests (getAccessToken env s.world).trace ≠ [] ∧ s.world.grant env = some g ∨
        g.time ≤ s.world.steady.head ∧ s.world.steady.head < g.time + 15 * 60 * 10 ^ 9)
  kept : ∀ e, (getAccessToken env s.world).result = .error e →
    (getAccessToken env s.world).state.accessToken = s.world.accessToken ∧
      (getAccessToken env s.world).state.tokenExpiry = s.world.tokenExpiry

/-- The cache is empty, or holds the latest grant and its expiry; no reading to
come is before it. -/
structure CacheInv (s : TokenHistory) : Prop where
  clock : NonDecreasing s.world.steady
  never : s.latest = none → s.world.accessToken = ""
  cached : ∀ g, s.latest = some g → s.world.accessToken = g.token ∧
    s.world.tokenExpiry = g.time + tokenLifetime ∧ ∀ n, g.time ≤ s.world.steady.get n

end History

section Calls
variable {env : Externals} {w : World} {s : TokenHistory}

theorem tokenExpired_iff : TokenExpired w ↔ ¬ TokenFresh w := by
  unfold TokenExpired TokenFresh
  rw [not_and_or, not_not, not_lt]

private theorem authRequests_tokenTrace :
    authRequests (tokenTrace env w) = if TokenFresh w then [] else [authPost env] := by
  unfold tokenTrace
  split <;> rfl

private theorem nonDecreasing_drop {clock : Stream' Nat} (h : NonDecreasing clock) (n : Nat) :
    NonDecreasing (clock.drop n) := by
  intro i j hij
  rw [Stream'.get_drop, Stream'.get_drop]
  exact h _ _ (by omega)

private theorem nonDecreasing_tail {clock : Stream' Nat} (h : NonDecreasing clock) : NonDecreasing clock.tail :=
  nonDecreasing_drop h 1

private theorem nonDecreasing_staleSteady (h : NonDecreasing w.steady) : NonDecreasing (staleSteady w) := by
  unfold staleSteady
  split
  · exact h
  · exact nonDecreasing_tail h

private theorem grant_eq : w.grant env = (grantedToken env w).toOption.map fun token => ⟨token, (staleSteady w).head⟩ := by
  have hg : authGrant env w.auth.head = (grantedToken env w).toOption := by
    cases ht : grantedToken env w with
    | ok token => exact (grantedToken_ok_iff env w).mp ht
    | error e =>
      rw [Except.toOption, Option.eq_none_iff_forall_ne_some]
      intro token hs
      rw [(grantedToken_ok_iff env w).mpr hs] at ht
      cases ht
  rw [World.grant, hg, staleSteady]

theorem called_eq : s.called env = ⟨tokenWorld env s.world, if TokenFresh s.world then s.latest
    else (s.world.grant env).or s.latest⟩ := by
  simp only [TokenHistory.called, getAccessToken_run, authRequests_tokenTrace]
  by_cases h : TokenFresh s.world <;> simp [h]

private theorem cacheInv_fresh (hs : CacheInv s) (h : TokenFresh s.world) : CacheInv (s.called env) := by
  rw [called_eq, tokenWorld, if_pos h, if_pos h]
  refine ⟨nonDecreasing_tail hs.clock, hs.never, fun g hg => ?_⟩
  obtain ⟨htoken, hexpiry, hclock⟩ := hs.cached g hg
  exact ⟨htoken, hexpiry, fun n => hclock (n + 1)⟩

private theorem staleSteady_drop (w : World) : ∃ k, staleSteady w = w.steady.drop k := by
  unfold staleSteady
  split
  · exact ⟨0, rfl⟩
  · exact ⟨1, rfl⟩

private theorem cacheInv_stale (hs : CacheInv s) (h : ¬ TokenFresh s.world) : CacheInv (s.called env) := by
  have hclock := nonDecreasing_staleSteady hs.clock
  rw [called_eq, tokenWorld, if_neg h, if_neg h, grant_eq]
  cases hg : grantedToken env s.world with
  | error e =>
    refine ⟨hclock, hs.never, fun g hg => ?_⟩
    obtain ⟨htoken, hexpiry, hlater⟩ := hs.cached g hg
    obtain ⟨k, hk⟩ := staleSteady_drop s.world
    refine ⟨htoken, hexpiry, fun n => ?_⟩
    simp only [hk, Stream'.get_drop]
    exact hlater _
  | ok token =>
    refine ⟨nonDecreasing_tail hclock, fun hn => (nomatch hn), fun g hg => ?_⟩
    obtain rfl := Option.some.inj hg
    exact ⟨rfl, rfl, fun n => hclock 0 (n + 1) (Nat.zero_le _)⟩

theorem cacheInv_step {a : TokenAct} {s' : TokenHistory} (hs : CacheInv s) (h : (tokenCalls env).step s a s') :
    CacheInv s' := by
  cases a with
  | call =>
    obtain rfl := h
    by_cases hf : TokenFresh s.world
    · exact cacheInv_fresh hs hf
    · exact cacheInv_stale hs hf
  | outside w =>
    obtain ⟨⟨htoken, hexpiry, n, hsteady⟩, rfl⟩ := h
    refine ⟨?_, fun hn => htoken.trans (hs.never hn), fun g hg => ?_⟩
    · simp only [hsteady]
      exact nonDecreasing_drop hs.clock n
    · obtain ⟨ht, he, hlater⟩ := hs.cached g hg
      refine ⟨htoken.trans ht, hexpiry.trans he, fun k => ?_⟩
      simp only [hsteady, Stream'.get_drop]
      exact hlater _

private theorem returned_latest (hs : CacheInv s) {token : String} (h : tokenResult env s.world = .ok token) :
    ∃ g, (s.called env).latest = some g ∧ g.token = token ∧
      (¬ TokenFresh s.world ∧ s.world.grant env = some g ∨
        g.time ≤ s.world.steady.head ∧ s.world.steady.head < g.time + tokenLifetime) := by
  rw [called_eq]
  by_cases hf : TokenFresh s.world
  · rw [tokenResult, if_pos hf, Except.ok.injEq] at h
    simp only [if_pos hf]
    cases hl : s.latest with
    | none => exact absurd (hs.never hl) hf.1
    | some g =>
      obtain ⟨htoken, hexpiry, hlater⟩ := hs.cached g hl
      exact ⟨g, rfl, htoken.symm.trans h, .inr ⟨hlater 0, hexpiry ▸ hf.2⟩⟩
  · rw [tokenResult, if_neg hf] at h
    have hg : s.world.grant env = some ⟨token, (staleSteady s.world).head⟩ := by
      rw [grant_eq, h]
      rfl
    exact ⟨_, by rw [if_neg hf, hg, Option.some_or], rfl, .inl ⟨hf, hg⟩⟩

private theorem kept_of_error {e : Exn} (h : tokenResult env w = .error e) :
    (tokenWorld env w).accessToken = w.accessToken ∧ (tokenWorld env w).tokenExpiry = w.tokenExpiry := by
  unfold tokenResult at h
  by_cases hf : TokenFresh w
  · rw [if_pos hf] at h
    cases h
  · rw [if_neg hf] at h
    rw [tokenWorld, if_neg hf, h]
    exact ⟨rfl, rfl⟩

theorem callDisciplined (hs : CacheInv s) : CallDisciplined env s := by
  have hasks : authRequests (getAccessToken env s.world).trace ≠ [] ↔ ¬ TokenFresh s.world := by
    rw [getAccessToken_run, authRequests_tokenTrace]
    by_cases h : TokenFresh s.world <;> simp [h]
  refine ⟨hasks.trans tokenExpired_iff.symm, fun h => ?_, fun token h => ?_, fun e h => ?_⟩
  · rw [getAccessToken_run, authRequests_tokenTrace, if_neg (hasks.mp h)]
  · rw [hasks]
    rw [getAccessToken_run] at h
    exact returned_latest hs h
  · rw [getAccessToken_run] at h ⊢
    exact kept_of_error h

/-- In every history each call asks for a token exactly when the cached one is
missing or expired, returns the latest granted one while it is less than fifteen
minutes old, and leaves the cache alone when it throws. -/
theorem token_cache_disciplined {as : List TokenAct} (r : (tokenCalls env).Run Transition.anyStep as s) :
    CallDisciplined env s := by
  refine callDisciplined (r.invariant CacheInv (fun s h => ?_) (fun s a s' hs _ h => cacheInv_step hs h))
  obtain ⟨hempty, hclock, hnone⟩ := h
  exact ⟨hclock, fun _ => hempty, fun g hg => by rw [hnone] at hg; cases hg⟩

end Calls

section Renewal

/-- A clock that is read every ten minutes, and auth calls that grant a token and then another. -/
def renewing : TokenHistory :=
  ⟨{ idleWorld with auth := .cons (some ⟨200, grantText "first"⟩) (.const (some ⟨200, grantText "second"⟩)),
                    steady := fun n => n * (10 * 60 * 10 ^ 9) }, none⟩

/-- The first token is cached for fifteen minutes. -/
def firstCached (n : Nat) : TokenHistory :=
  ⟨{ renewing.world with auth := renewing.world.auth.tail, steady := renewing.world.steady.drop n,
                         accessToken := "first", tokenExpiry := 15 * 60 * 10 ^ 9 }, some ⟨"first", 0⟩⟩

private theorem called_renewing : renewing.called grammarExternals = firstCached 1 := by
  have hstale : ¬ TokenFresh renewing.world := fun h => h.1 rfl
  have hg : grantedToken grammarExternals renewing.world = .ok "first" := responseToken_grantText "first"
  rw [called_eq, if_neg hstale, grant_eq, tokenWorld, if_neg hstale, hg]
  rfl

private theorem firstCached_fresh : TokenFresh (firstCached 1).world := ⟨by simp [firstCached], by decide⟩

private theorem firstCached_stale : ¬ TokenFresh (firstCached 2).world := fun h => absurd h.2 (by decide)

private theorem called_firstCached : (firstCached 1).called grammarExternals = firstCached 2 := by
  rw [called_eq, if_pos firstCached_fresh, tokenWorld, if_pos firstCached_fresh]
  rfl

/-- A call is granted a token, the next one finds it cached, and the third finds it expired. -/
theorem granted_cached_renewed :
    (CallDisciplined grammarExternals renewing ∧ TokenExpired renewing.world) ∧
      (CallDisciplined grammarExternals (firstCached 1) ∧ ¬ TokenExpired (firstCached 1).world) ∧
        CallDisciplined grammarExternals (firstCached 2) ∧ TokenExpired (firstCached 2).world ∧
          (getAccessToken grammarExternals (firstCached 2).world).result = .ok "second" := by
  have r0 : (tokenCalls grammarExternals).Run Transition.anyStep [] renewing :=
    .start ⟨rfl, fun n m h => Nat.mul_le_mul_right _ h, rfl⟩
  have r1 := r0.next .call trivial called_renewing.symm
  have r2 := r1.next .call trivial called_firstCached.symm
  have hsecond : (getAccessToken grammarExternals (firstCached 2).world).result = .ok "second" := by
    rw [getAccessToken_run, tokenResult, if_neg firstCached_stale]
    exact responseToken_grantText "second"
  exact ⟨⟨token_cache_disciplined r0, .inl rfl⟩,
    ⟨token_cache_disciplined r1, fun h => tokenExpired_iff.mp h firstCached_fresh⟩,
    token_cache_disciplined r2, tokenExpired_iff.mpr firstCached_stale, hsecond⟩

end Renewal

end DeribitClientServer.Server
