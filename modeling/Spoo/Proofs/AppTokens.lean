import Spoo.Proofs.DeviceCodes

/-!
# What an app can do with its tokens

Tokens that go back to a code of an app are followed through the log: what is made of them is again
bound to the app, and the surfaces that are for interactive sessions refuse all of it.
-/

namespace Spoo

open Agents Mongo DeviceAuthService

variable {ι : Type}

/-- Tokens are asked for with one of the pair. -/
def MintSource.Presents (pair : TokenPair) : MintSource → Prop
  | .code .. => False
  | .refresh claims => claims = pair.access ∨ claims = pair.refresh
  | .session claims => claims = pair.access ∨ claims = pair.refresh

/-- The pairs that go back to a code of the app, each with its client, what it was minted for, and the
log before it. -/
inductive Obtained (appId : String) (log : DeviceLog ι) :
    ι → MintSource → TokenPair → DeviceLog ι → Prop
  | exchanged {who doc codeVerifier pair older} (happ : doc.appId = some appId)
      (hmint : .minted who (.code doc codeVerifier) pair :: older <:+ log) :
      Obtained appId log who (.code doc codeVerifier) pair older
  | rotated {first source₁ pair₁ older₁ who source pair older}
      (hobtained : Obtained appId log first source₁ pair₁ older₁) (hpresents : source.Presents pair₁)
      (hmint : .minted who source pair :: older <:+ log) : Obtained appId log who source pair older

section

variable [DecidableEq ι]

/-- What a pair of an app is good for. -/
structure Confined (lib : DeviceLib) (cfg : DeviceConfig) (begun : GrantStore) (appId : String) (who : ι)
    (source : MintSource) (pair : TokenPair) (older : DeviceLog ι) : Prop where
  bound : pair.access.appId = some appId ∧ pair.refresh.appId = some appId
  /-- The scopes are those of the grant, as it was stored when the client looked it up. -/
  scopes : ∃ user grant rest, AppGrantRepository.isActive source.userId appId grant = true ∧
    pair.access.scp = resolveEffectiveScopes cfg grant ∧
    older.of who = .grantIs who (some grant) :: .userIs who (some user) :: sourceTrail who source ++ rest
  noSession : ∀ token, token = pair.access ∨ token = pair.refresh →
    ∀ now user, requireJwt (getCurrentUser cfg.jwt now token) ≠ .ok user
  noSessionRefresh : ∀ last s, act lib cfg (.sessionRefresh pair.refresh) (.idle last) s =
    (.idle (some (.refused .invalidToken)), s)
  notRevoked : ¬ RevokedBefore begun who source.userId appId older

end

theorem truthy_truthy (value : Option String) : truthy (truthy value) = truthy value := by
  cases value with
  | none => rfl
  | some text => by_cases h : text = "" <;> simp [truthy, h]

/-- No source asks for tokens of an app without a name. -/
theorem truthy_appId (source : MintSource) : truthy source.appId = source.appId := by
  cases source with
  | code doc codeVerifier => exact truthy_truthy _
  | refresh claims => exact truthy_truthy _
  | session claims => rfl

/-- What carries an app does not pass for an interactive session. -/
theorem requireJwt_of_appId {token : JwtClaims} (happ : token.appId.isSome = true)
    (settings : JwtSettings) (now : Int) (user : ResolvedUser) :
    requireJwt (getCurrentUser settings now token) ≠ .ok user := by
  unfold getCurrentUser
  split_ifs
  · rintro ⟨⟩
  · rintro ⟨⟩
  · simp [requireJwt, requireAuth, happ, bind, Except.bind]

theorem act_sessionRefresh_of_appId (lib : DeviceLib) {cfg : DeviceConfig} {token : JwtClaims}
    (happ : truthy token.appId ≠ none) (last : Option DeviceOutcome) (s : DeviceWorld) :
    act lib cfg (.sessionRefresh token) (.idle last) s = (.idle (some (.refused .invalidToken)), s) := by
  simp [act, move, happ]

section

variable [DecidableEq ι] {lib : DeviceLib} {cfg : DeviceConfig} {begun : GrantStore} {appId : String}
  {who : ι} {source : MintSource} {pair : TokenPair} {older log : DeviceLog ι}

/-- Tokens that are asked for on behalf of an app are confined to it. -/
theorem Backed.confined (h : Backed lib cfg begun who source pair older)
    (happ : source.appId = some appId) : Confined lib cfg begun appId who source pair older := by
  cases h with
  | withoutApp user rest now hchecked hnone => cases hnone.symm.trans happ
  | withApp user app grant rest now hchecked happ' hid hactive hgrant htrail hrevoked hpair =>
    cases happ'.symm.trans happ
    have htruthy : truthy source.appId = some appId := (truthy_appId source).trans happ
    have haccess : pair.access.appId = some appId := by
      rw [hpair]
      exact htruthy
    have hrefresh : pair.refresh.appId = some appId := by
      rw [hpair]
      exact htruthy
    have hname : truthy (some appId) ≠ none := by
      rw [← happ, htruthy]
      exact Option.some_ne_none appId
    rw [hid] at hgrant hrevoked
    constructor
    · exact ⟨haccess, hrefresh⟩
    · refine ⟨user, grant, rest, hgrant, ?_, htrail⟩
      rw [hpair]
      rfl
    · rintro token (rfl | rfl) now user
      · exact requireJwt_of_appId (by rw [haccess]; rfl) cfg.jwt now user
      · exact requireJwt_of_appId (by rw [hrefresh]; rfl) cfg.jwt now user
    · exact fun last s => act_sessionRefresh_of_appId lib (hrefresh ▸ hname) last s
    · exact hrevoked

/-- What goes back to a code of the app is asked for on behalf of the app. -/
theorem Obtained.source_appId (h : Obtained appId log who source pair older)
    (hbacked : MintsBacked lib cfg begun log) :
    .minted who source pair :: older <:+ log ∧ source.appId = some appId := by
  induction h with
  | exchanged happ hmint =>
    rename_i who doc codeVerifier pair older
    refine ⟨hmint, ?_⟩
    cases hbacked who _ pair older hmint with
    | withoutApp user rest now hchecked hnone hcode => cases hcode
    | withApp user app grant rest now hchecked happ' =>
      have hstored : doc.appId = some app := (Option.filter_eq_some_iff.1 happ').1
      rw [happ', ← hstored, happ]
  | rotated hobtained hpresents hmint ih =>
    rename_i first source₁ pair₁ older₁ who source pair older
    refine ⟨hmint, ?_⟩
    obtain ⟨hmint₁, happ₁⟩ := ih
    have hconfined := (hbacked first source₁ pair₁ older₁ hmint₁).confined happ₁
    have htruthy : truthy (some appId) = some appId := by rw [← happ₁, truthy_appId]
    have hclaims {claims : JwtClaims} (hpair : claims = pair₁.access ∨ claims = pair₁.refresh) :
        truthy claims.appId = some appId := by
      rcases hpair with rfl | rfl
      · rw [hconfined.bound.1, htruthy]
      · rw [hconfined.bound.2, htruthy]
    cases source with
    | code => exact hpresents.elim
    | refresh claims => exact hclaims hpresents
    | session claims =>
      -- A session refresh does not get this far with a token of an app.
      have hnone : truthy claims.appId = none := by
        cases hbacked who _ pair older hmint with
        | withoutApp user rest now hchecked => exact hchecked
        | withApp user app grant rest now hchecked => exact hchecked
      cases hnone.symm.trans (hclaims hpresents)

end

/-- In every run, all that is obtained from a code of an app is confined to the app. -/
theorem app_tokens_confined [DecidableEq ι] (lib : DeviceLib) (cfg : DeviceConfig)
    (pool : Pool ι DeviceAgent (DeviceWorld × DeviceLog ι)) (events : List (ι × DeviceAnswer))
    (hidle : ∀ who, (pool.agents who).IsIdle) (hlog : pool.shared.2 = [])
    (hbegin : CanBegin pool.shared.1) :
    ∀ t ∈ List.scanl (Pool.step (recorded recordDevice (DeviceAgent.move lib cfg))) pool events,
      ∀ appId who source pair older, Obtained appId t.shared.2 who source pair older →
        Confined lib cfg pool.shared.1.grants appId who source pair older := by
  intro t ht appId who source pair older hobtained
  have hbacked := (deviceKept_of_mem_scanl hidle hlog hbegin ht).backed
  obtain ⟨hmint, happ⟩ := hobtained.source_appId hbacked
  exact (hbacked who source pair older hmint).confined happ

theorem app_tokens_confined_bothExchange :
    (mintedCodes (bothExchange.foldl
      (Pool.step (recorded recordDevice (DeviceAgent.move plainDevice oneApp))) codeStored).shared.2) = [0] ∧
    ∀ t ∈ List.scanl (Pool.step (recorded recordDevice (DeviceAgent.move plainDevice oneApp))) codeStored
        bothExchange,
      ∀ appId who source pair older, Obtained appId t.shared.2 who source pair older →
        Confined plainDevice oneApp codeStored.shared.1.grants appId who source pair older :=
  ⟨by decide +kernel, app_tokens_confined _ _ _ _ (fun _ => .inl ⟨none, rfl⟩) rfl
    canBegin_codeStored⟩

/-- A client and an owner, whose grant has more scopes than the app has now. -/
def grantedWide : Pool Bool DeviceAgent (DeviceWorld × DeviceLog Bool) where
  agents who := if who then .client (.idle none) else .owner .idle
  shared := ({ codeStored.shared.1 with
    grants := .single {
      id := 0
      userId := 1
      appId := "app"
      grantedAt := 0
      scopes := some ["links:read", "links:write"] } }, [])

/-- The owner consents to the scopes of now after the client has read the grant. -/
def narrowedMeanwhile : List (Bool × DeviceAnswer) :=
  [(true, ⟨0, .exchange "code" "verifier"⟩), (true, ⟨0, .go⟩), (true, ⟨0, .go⟩), (true, ⟨0, .go⟩),
    (false, ⟨1000, .consent 1 "someone@example.com" "app" "verifier"⟩), (true, ⟨0, .go⟩)]

/-- What the client of the run asks with, and what it is given. -/
def wideSource : MintSource :=
  .code {
    id := 0
    userId := 1
    email := "someone@example.com"
    tokenHash := "code"
    tokenType := .deviceAuth
    expiresAt := 300000
    codeChallenge := some "verifier"
    appId := some "app" } "verifier"

def widePair : TokenPair :=
  TokenFactory.issueTokens {} { id := 1, email := "someone@example.com" } "ext" (some "app")
    (some ["links:read", "links:write"]) 1

/-- The tokens have the scopes from before, and the grant that is stored has fewer. -/
theorem scopes_of_earlier_grant :
    (narrowedMeanwhile.foldl (Pool.step (recorded recordDevice (DeviceAgent.move plainDevice oneApp)))
      grantedWide).shared.2.head? = some (.minted true wideSource widePair) ∧
    (AppGrantRepository.findActiveGrant (narrowedMeanwhile.foldl
      (Pool.step (recorded recordDevice (DeviceAgent.move plainDevice oneApp)))
      grantedWide).shared.1.grants 1 "app").any
        (fun grant => widePair.access.scp ≠ resolveEffectiveScopes oneApp grant) = true := by
  decide +kernel

end Spoo
