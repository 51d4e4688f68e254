import DeribitClientServer.Server.FrameOrigins
import DeribitClientServer.Server.OrderbookCycle

/-! A turn of the positions' thread: one request for each pair of currency and kind, and
an update for each answer with a result. -/
namespace DeribitClientServer.Server
open Library Library.JsonText Library.Utf8

/-- A call for positions was answered with status 200 and a result. -/
def PositionsAnswer (env : Externals) (res : Outcome) (data : Json) : Prop :=
  ∃ body response, okBody res = some body ∧ parseJson env body = .ok response ∧ response.get? "result" = some data

def positionsPost (env : Externals) (accessToken : String) (pair : String × String) : Request :=
  ⟨.post, "/api/v2/private/get_positions", some accessToken, env.dump (positionsRequest pair.1 pair.2)⟩

/-- The frame is the update for a pair with the answer to the request that was made for it. -/
def PairUpdate (env : Externals) (accessToken : String) (pairs : List (String × String)) (api : Stream' Outcome)
    (requests : List Request) (f : Frame) : Prop :=
  ∃ n pair data, pair ∈ pairs ∧ requests[n]? = some (positionsPost env accessToken pair) ∧
    PositionsAnswer env (api.get n) data ∧ f.payload = env.dump (positionsUpdate pair.1 pair.2 data)

section Steps
variable {env : Externals} {accessToken : String} {w : World} {f : Frame}

/-- A pair takes one call; its result, if there is one, is broadcast. -/
theorem positionsStep_cases (env : Externals) (accessToken : String) (pair : String × String) (w : World) :
    (∃ x, (∀ data, ¬ PositionsAnswer env w.api.head data) ∧ positionsStep env accessToken pair w =
      ⟨x, { w with api := w.api.tail }, [.api (positionsPost env accessToken pair)]⟩) ∨
    ∃ x data, PositionsAnswer env w.api.head data ∧ positionsStep env accessToken pair w =
      ⟨x, { w with api := w.api.tail, members := w.members.tail }, .api (positionsPost env accessToken pair) ::
        sends (env.dump (positionsUpdate pair.1 pair.2 data)) w.members.head⟩ := by
  unfold positionsStep
  simp only [Exec.run_bind, run_apiCall, Ran.andThen_ok]
  cases hb : okBody w.api.head with
  | none => exact .inl ⟨_, by simp [PositionsAnswer, hb], rfl⟩
  | some body =>
    cases hp : parseJson env body with
    | error e => exact .inl ⟨.error e, by simp [PositionsAnswer, hb, hp], by simp [hp, positionsPost]⟩
    | ok response =>
      cases hr : response.get? "result" with
      | none =>
        exact .inl ⟨.ok (), by simp [PositionsAnswer, hb, hp, hr], by simp [hp, Json.contains, hr, positionsPost]⟩
      | some data =>
        obtain ⟨x, hx, _⟩ := broadcast_run { w with api := w.api.tail }
          (decode_dump_ne env (positionsUpdate pair.1 pair.2 data))
        refine .inr ⟨x, data, ⟨body, response, hb, hp, hr⟩, ?_⟩
        simp [hp, contains_of_get? hr, member_eq_of_get? hr, hx, positionsPost]

private theorem positionsStep_state (pair : String × String) (w : World) :
    (positionsStep env accessToken pair w).state.api = w.api.tail ∧
      apiRequests (positionsStep env accessToken pair w).trace = [positionsPost env accessToken pair] := by
  rcases positionsStep_cases env accessToken pair w with ⟨x, _, h⟩ | ⟨x, data, _, h⟩
  · rw [h]
    exact ⟨rfl, rfl⟩
  · rw [h]
    refine ⟨rfl, ?_⟩
    change positionsPost env accessToken pair :: apiRequests (sends _ _) = _
    rw [apiRequests_sends]

private theorem positionsStep_frame {pair : String × String} (hf : f ∈ frames (positionsStep env accessToken pair w).trace) :
    ∃ data, PositionsAnswer env w.api.head data ∧ f.payload = env.dump (positionsUpdate pair.1 pair.2 data) := by
  rcases positionsStep_cases env accessToken pair w with ⟨x, _, h⟩ | ⟨x, data, hd, h⟩
  · rw [h] at hf
    cases hf
  · rw [h, frames_api] at hf
    exact ⟨data, hd, (of_mem_sends hf).2⟩

/-- The pairs are asked for in turn, until a step fails. -/
theorem positionsSteps_frame (pairs : List (String × String)) (w : World) {f : Frame}
    (hf : f ∈ frames (pairs.forM (positionsStep env accessToken) w).trace) :
    PairUpdate env accessToken pairs w.api (apiRequests (pairs.forM (positionsStep env accessToken) w).trace) f := by
  induction pairs generalizing w with
  | nil => cases hf
  | cons pair pairs ih =>
    have hrun : (pair :: pairs).forM (positionsStep env accessToken) w =
        (positionsStep env accessToken pair w).andThen (fun _ => pairs.forM (positionsStep env accessToken)) := rfl
    obtain ⟨hapi, hreq⟩ := @positionsStep_state env accessToken pair w
    have hstep := @positionsStep_frame env accessToken w f pair
    rw [hrun] at hf ⊢
    -- The rest runs where the pair's step ends well, on the answers that are left.
    generalize positionsStep env accessToken pair w = r at hapi hreq hstep hf
    obtain ⟨x, s, t⟩ := r
    cases x with
    | error e =>
      obtain ⟨data, hd, hp⟩ := hstep hf
      exact ⟨0, pair, data, List.mem_cons_self, by rw [Ran.andThen_error, hreq]; rfl, hd, hp⟩
    | ok u =>
      rw [Ran.andThen_ok, Ran.after_trace] at hf ⊢
      rw [frames_append, List.mem_append] at hf
      rw [apiRequests_append, hreq]
      rcases hf with hf | hf
      · obtain ⟨data, hd, hp⟩ := hstep hf
        exact ⟨0, pair, data, List.mem_cons_self, rfl, hd, hp⟩
      · obtain ⟨n, pair', data, hmem, hn, hd, hp⟩ := ih s hf
        have htail : s.api = w.api.tail := hapi
        rw [htail] at hd
        exact ⟨n + 1, pair', data, List.mem_cons_of_mem _ hmem, hn, hd, hp⟩

/-- A turn of the positions' thread sends nothing but the results it was answered with. -/
theorem positionsTurn_frame (hf : f ∈ frames (positionsTurn env w).trace) :
    ∃ accessToken, PairUpdate env accessToken positionPairs w.api (apiRequests (positionsTurn env w).trace) f := by
  unfold positionsTurn at hf ⊢
  rw [Exec.run_bind, getAccessToken_run] at hf ⊢
  cases ht : tokenResult env w with
  | error e =>
    rw [ht, Ran.andThen_error, frames_tokenTrace] at hf
    cases hf
  | ok token =>
    rw [ht, Ran.andThen_ok, Ran.after_trace, frames_append, frames_tokenTrace, List.nil_append] at hf
    rw [Ran.andThen_ok, Ran.after_trace, apiRequests_append, apiRequests_tokenTrace, List.nil_append]
    have h := positionsSteps_frame positionPairs (tokenWorld env w) hf
    rw [(tokenFrame env w).api] at h
    exact ⟨token, h⟩

theorem PositionsAnswer.inj {res : Outcome} {data data' : Json} (h : PositionsAnswer env res data)
    (h' : PositionsAnswer env res data') : data = data' := by
  obtain ⟨body, response, hb, hp, hr⟩ := h
  obtain ⟨body', response', hb', hp', hr'⟩ := h'
  obtain rfl := Option.some.inj (hb.symm.trans hb')
  obtain rfl := Except.ok.inj (hp.symm.trans hp')
  exact Option.some.inj (hr.symm.trans hr')

/-- With a token, the result for the first pair is broadcast. -/
theorem positionsTurn_first {data : Json} (ht : TokenAvailable env w) (hd : PositionsAnswer env w.api.head data)
    (hf : f ∈ frames (sends (env.dump (positionsUpdate "BTC" "future" data)) w.members.head)) :
    f ∈ frames (positionsTurn env w).trace := by
  obtain ⟨token, htoken⟩ := (tokenAvailable_iff env w).mp ht
  have hrun : positionPairs.forM (positionsStep env token) (tokenWorld env w) =
      (positionsStep env token ("BTC", "future") (tokenWorld env w)).andThen
        (fun _ => positionPairs.tail.forM (positionsStep env token)) := rfl
  unfold positionsTurn
  rw [Exec.run_bind, getAccessToken_run, htoken, Ran.andThen_ok, Ran.after_trace, frames_append, hrun]
  refine List.mem_append_right _ ?_
  rw [← (tokenFrame env w).api] at hd
  rw [← (tokenFrame env w).members] at hf
  rcases positionsStep_cases env token ("BTC", "future") (tokenWorld env w) with ⟨x, hno, _⟩ | ⟨x, data', hd', h⟩
  · exact absurd hd (hno data)
  · obtain rfl := hd.inj hd'
    rw [h]
    cases x with
    | error e => exact hf
    | ok u =>
      rw [Ran.andThen_ok, Ran.after_trace, frames_append]
      exact List.mem_append_left _ hf

end Steps
end DeribitClientServer.Server
