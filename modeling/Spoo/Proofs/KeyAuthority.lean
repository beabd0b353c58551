import Spoo.Lib.Histories
import Spoo.Routes.ApiV1.Keys

/-!
# What an API key may do comes from a session

A key is created by a session of its user, for scopes that do not include the management of keys. What is let through
for a key was asked of one that was found before, neither revoked nor expired by then, and that has a scope for it. A
key that was revoked or deleted is not found again, and it takes a session, or an app with the scope for it, to do
that.
-/

namespace Spoo

open Agents Mongo Mongo.Collection KeyRoutes

variable {ι : Type} {cfg : KeyConfig}

/-- A session: no API key, and no app. -/
def ResolvedUser.IsSession (user : ResolvedUser) : Prop := user.apiKeyDoc = none ∧ user.appId = none

/-- The same key, but for its use and its end. -/
structure ApiKeyDoc.SameKey (doc key : ApiKeyDoc) : Prop where
  id : doc.id = key.id
  userId : doc.userId = key.userId
  tokenHash : doc.tokenHash = key.tokenHash
  scopes : doc.scopes = key.scopes
  expiresAt : doc.expiresAt = key.expiresAt

/-- The user may end keys: in a session, or as an app with the scope for it. -/
def ResolvedUser.ManagesKeys (user : ResolvedUser) : Prop :=
  user.IsSession ∨ user.apiKeyDoc = none ∧ ∃ scopes, user.scopes = some scopes ∧ "keys:manage" ∈ scopes

/-- What is known of an entry from the ones before it. -/
def KeyEntry.BackedBy (earlier : List KeyEntry) : KeyEntry → Prop
  | .created user doc => user.IsSession ∧ user.emailVerified = true ∧ doc.userId = user.userId ∧
      (∀ scope ∈ doc.scopes, scope ∈ allowedScopes) ∧
      ∀ owner made, .created owner made ∈ earlier → made.id ≠ doc.id
  | .retired user keyId => user.ManagesKeys ∧
      ∃ owner made, .created owner made ∈ earlier ∧ made.id = keyId ∧ made.userId = user.userId
  | .resolved key now => (∃ owner made, .created owner made ∈ earlier ∧ made.SameKey key) ∧
      (∀ user, .retired user key.id ∉ earlier) ∧ ∀ expiry ∈ key.expiresAt, now < expiry
  | .granted user required =>
      (∀ scopes ∈ user.apiKeyDoc, ∃ key now, .resolved key now ∈ earlier ∧ key.userId = user.userId ∧
        key.scopes = scopes) ∧ ∀ granted ∈ grantedScopes user, ∃ scope ∈ granted, scope ∈ required

variable {s s' : KeyWorld} {user : ResolvedUser} {key doc : ApiKeyDoc} {call : KeyCall}

/-- The user of a request, where it comes with a key: the key was found. -/
def KeyWorld.Credits (s : KeyWorld) (user : ResolvedUser) : Prop :=
  ∀ scopes ∈ user.apiKeyDoc, ∃ key now, .resolved key now ∈ s.log ∧ key.userId = user.userId ∧ key.scopes = scopes

/-- The log is backed, and says all of the stored keys. -/
structure KeyWorld.Ok (s : KeyWorld) : Prop where
  backed : BackedLog KeyEntry.BackedBy s.log
  stored : ∀ doc ∈ s.store.keys.docs, ∃ owner made, .created owner made ∈ s.log ∧ made.SameKey doc
  live : ∀ doc ∈ s.store.keys.docs, doc.revoked = false → ∀ user, .retired user doc.id ∉ s.log
  bounded : ∀ owner made, .created owner made ∈ s.log → made.id < s.store.issued

/-- What a request has made sure of by where it stands. -/
def KeyPhase.Assured (phase : KeyPhase) (s : KeyWorld) : Prop :=
  match phase with
  | .findingUser key _ _ => ∃ now, .resolved key now ∈ s.log
  | .touching key _ _ => ∃ now, .resolved key now ∈ s.log
  | .creating user (.counting request) => user.IsSession ∧ user.emailVerified = true ∧
      request.userId = user.userId ∧ ∀ scope ∈ request.scopes, scope ∈ allowedScopes
  | .creating user (.inserting request) => user.IsSession ∧ user.emailVerified = true ∧
      request.userId = user.userId ∧ ∀ scope ∈ request.scopes, scope ∈ allowedScopes
  | .creating _ (.created _ _) => False
  | .retiring user _ _ => user.ManagesKeys
  | _ => True

theorem KeyPhase.Assured.grows {phase : KeyPhase} (h : phase.Assured s) (hgrows : s.log ⊆ s'.log) :
    phase.Assured s' := by
  cases phase with
  | findingUser key now call => exact h.imp fun _ hmem => hgrows hmem
  | touching key user call => exact h.imp fun _ hmem => hgrows hmem
  | creating user phase => cases phase <;> exact h
  | retiring user keyId revoke => exact h
  | _ => trivial

/-- A move keeps the world in order, takes nothing from the log, and makes sure of what its next phase needs. -/
structure KeyAdvances (s : KeyWorld) (moved : KeyPhase × KeyWorld) : Prop where
  ok : moved.2.Ok
  grows : s.log ⊆ moved.2.log
  assured : moved.1.Assured moved.2

namespace KeyWorld.Ok

theorem reads {phase : KeyPhase} (h : s.Ok) (hassured : phase.Assured s) : KeyAdvances s (phase, s) :=
  ⟨h, List.Subset.refl _, hassured⟩

/-- An entry that is backed, and that neither creates nor ends a key. -/
theorem log (h : s.Ok) {entry : KeyEntry} (hbacked : entry.BackedBy s.log)
    (hcreates : ∀ owner made, .created owner made ≠ entry) (hretires : ∀ user id, .retired user id ≠ entry) :
    KeyWorld.Ok { s with log := entry :: s.log } where
  backed := ⟨hbacked, h.backed⟩
  stored doc hdoc := by
    obtain ⟨owner, made, hmem, hsame⟩ := h.stored doc hdoc
    exact ⟨owner, made, List.mem_cons_of_mem _ hmem, hsame⟩
  live doc hdoc hlive user hmem := by
    rcases List.mem_cons.1 hmem with heq | hold
    · exact hretires _ _ heq
    · exact h.live doc hdoc hlive user hold
  bounded owner made hmem := by
    rcases List.mem_cons.1 hmem with heq | hold
    · exact absurd heq (hcreates _ _)
    · exact h.bounded owner made hold

/-- A key that was found was created for scopes that are allowed. -/
theorem scopes_of_resolved (h : s.Ok) {now : Int} (hmem : .resolved key now ∈ s.log) :
    ∀ scope ∈ key.scopes, scope ∈ allowedScopes := by
  obtain ⟨later, earlier, hlog, ⟨owner, made, hmade, hsame⟩, -⟩ := h.backed.exists_of_mem hmem
  have hcreated : .created owner made ∈ s.log := by simp [hlog, hmade]
  obtain ⟨-, earlier', -, -, -, -, hscopes, -⟩ := h.backed.exists_of_mem hcreated
  exact hsame.scopes ▸ hscopes

theorem not_manages_of_credits (h : s.Ok) (hcredits : s.Credits user) {scopes : List String}
    (hkey : user.apiKeyDoc = some scopes) : "keys:manage" ∉ scopes := by
  intro hmanage
  obtain ⟨key, now, hmem, -, hscopes⟩ := hcredits scopes hkey
  exact absurd (h.scopes_of_resolved hmem _ (hscopes.symm ▸ hmanage)) (by decide)

end KeyWorld.Ok

/-! ## Guards -/

theorem requireUser_ok {found : Option ResolvedUser} (h : requireUser found = .ok user) : found = some user := by
  cases found with
  | none => cases h
  | some other => exact congrArg some (Except.ok.inj h)

theorem requireJwtVerified_ok {found : Option ResolvedUser} (h : requireJwtVerified found = .ok user) :
    found = some user ∧ user.IsSession ∧ user.emailVerified = true := by
  cases found with
  | none => cases h
  | some other =>
    unfold requireJwtVerified requireJwt requireAuth at h
    simp only [bind, Except.bind] at h
    by_cases hkey : other.apiKeyDoc.isSome = true
    · rw [if_pos hkey] at h
      cases h
    by_cases happ : other.appId.isSome = true
    · rw [if_neg hkey, if_pos happ] at h
      cases h
    rw [if_neg hkey, if_neg happ] at h
    dsimp only at h
    split at h
    · rename_i hverified
      obtain rfl := Except.ok.inj h
      exact ⟨rfl, ⟨by simpa using hkey, by simpa using happ⟩, hverified⟩
    · cases h

theorem requireScopes_ok {found : Option ResolvedUser} {required : List String}
    (h : requireScopes required found = .ok user) :
    found = some user ∧ ∀ granted ∈ grantedScopes user, ∃ scope ∈ granted, scope ∈ required := by
  unfold requireScopes at h
  simp only [bind, Except.bind, pure, Except.pure] at h
  split at h
  · cases h
  rename_i other hother
  split at h
  · cases h
  rename_i hchecked
  obtain rfl := Except.ok.inj h
  refine ⟨requireUser_ok hother, fun granted hgranted => ?_⟩
  unfold checkCredentialScopes at hchecked
  rw [Option.mem_def.1 hgranted] at hchecked
  dsimp only at hchecked
  split at hchecked
  · rename_i hany
    simpa using hany
  · cases hchecked

theorem requireSessionOrScopes_ok {found : Option ResolvedUser} {scopes : List String}
    (h : requireSessionOrScopes scopes found = .ok user) :
    found = some user ∧ (user.IsSession ∨ ∃ granted, grantedScopes user = some granted ∧
      ∃ scope ∈ granted, scope ∈ scopes) := by
  unfold requireSessionOrScopes at h
  simp only [bind, Except.bind, pure, Except.pure] at h
  split at h
  · cases h
  rename_i other hother
  split at h
  · rename_i hsession
    obtain rfl := Except.ok.inj h
    exact ⟨requireUser_ok hother, .inl (by simpa [ResolvedUser.IsSession] using hsession)⟩
  split at h
  · rename_i hany
    obtain rfl := Except.ok.inj h
    refine ⟨requireUser_ok hother, .inr ?_⟩
    cases hgranted : grantedScopes other with
    | none => simp [hgranted] at hany
    | some granted => exact ⟨granted, rfl, by simpa [hgranted] using hany⟩
  · cases h

/-! ## What a move does to the keys -/

/-- Every key is one that was there, and none is taken back that was revoked. -/
def Retains (keys keys' : ApiKeyStore) : Prop :=
  ∀ doc' ∈ keys'.docs, ∃ doc ∈ keys.docs, doc.SameKey doc' ∧ (doc'.revoked = false → doc.revoked = false)

theorem keeps_deleteMany {keys : ApiKeyStore} {q : ApiKeyDoc → Bool} : Retains keys (keys.deleteMany q) :=
  fun doc hdoc => ⟨doc, (List.mem_filter.1 hdoc).1, ⟨rfl, rfl, rfl, rfl, rfl⟩, id⟩

theorem keeps_updateOne {keys : ApiKeyStore} {keyId : ObjectId} {q : ApiKeyDoc → Bool}
    {ops : KeyedUpdate ApiKeyDoc} (hsame : ∀ doc : ApiKeyDoc, doc.SameKey (ops.apply doc))
    (hrevoked : ∀ doc, (ops.apply doc).revoked = false → doc.revoked = false) :
    Retains keys (keys.updateOne keyId q ops) := by
  intro doc' hdoc'
  obtain ⟨doc, hdoc, ⟨-, rfl⟩ | ⟨-, rfl⟩⟩ := mem_updateOne hdoc'
  · exact ⟨doc, hdoc, hsame doc, hrevoked doc⟩
  · exact ⟨doc', hdoc, ⟨rfl, rfl, rfl, rfl, rfl⟩, id⟩

theorem ApiKeyDoc.SameKey.trans {doc' doc'' : ApiKeyDoc} (h : doc.SameKey doc') (h' : doc'.SameKey doc'') :
    doc.SameKey doc'' :=
  ⟨h.id.trans h'.id, h.userId.trans h'.userId, h.tokenHash.trans h'.tokenHash, h.scopes.trans h'.scopes,
    h.expiresAt.trans h'.expiresAt⟩

namespace KeyWorld.Ok

theorem keeps (h : s.Ok) {keys : ApiKeyStore} (hkeeps : Retains s.store.keys keys) :
    KeyWorld.Ok { s with store := { s.store with keys } } where
  backed := h.backed
  stored doc' hdoc' := by
    obtain ⟨doc, hdoc, hsame, -⟩ := hkeeps doc' hdoc'
    obtain ⟨owner, made, hmade, hmadeSame⟩ := h.stored doc hdoc
    exact ⟨owner, made, hmade, hmadeSame.trans hsame⟩
  live doc' hdoc' hlive := by
    obtain ⟨doc, hdoc, hsame, hrevoked⟩ := hkeeps doc' hdoc'
    rw [← hsame.id]
    exact h.live doc hdoc (hrevoked hlive)
  bounded := h.bounded

theorem touch (h : s.Ok) (key : ApiKeyDoc) : (KeyRoutes.touch key s).Ok :=
  h.keeps (keeps_updateOne (fun _ => ⟨rfl, rfl, rfl, rfl, rfl⟩) fun _ => id)

/-- The keys that are stored after a revocation or a deletion, with the entry of it. -/
theorem retire (h : s.Ok) {keyId : ObjectId} {hardDelete : Bool} (hmanages : user.ManagesKeys)
    (hmatched : (ApiKeyRepository.revoke s.store.keys user.userId keyId hardDelete).1 = true) :
    KeyWorld.Ok { s with
      store := { s.store with keys := (ApiKeyRepository.revoke s.store.keys user.userId keyId hardDelete).2 }
      log := .retired user keyId :: s.log } := by
  have hkeeps : Retains s.store.keys (ApiKeyRepository.revoke s.store.keys user.userId keyId hardDelete).2 := by
    unfold ApiKeyRepository.revoke
    cases hardDelete with
    | true => exact keeps_deleteMany
    | false => exact keeps_updateOne (fun _ => ⟨rfl, rfl, rfl, rfl, rfl⟩) fun _ hfalse => by cases hfalse
  -- No key with this id is left that is not revoked.
  have hgone : ∀ doc ∈ (ApiKeyRepository.revoke s.store.keys user.userId keyId hardDelete).2.docs,
      doc.revoked = false → doc.id ≠ keyId := by
    intro doc hdoc hlive hid
    rw [ApiKeyRepository.revoke, Option.any_eq_true] at hmatched
    obtain ⟨found, hfound, howner⟩ := hmatched
    rw [decide_eq_true_eq] at howner
    cases hardDelete with
    | true =>
      have hdeleted : doc ∈ (s.store.keys.deleteMany fun doc => doc.id = keyId && doc.userId = user.userId).docs :=
        hdoc
      obtain ⟨hmem, hnot⟩ := List.mem_filter.1 hdeleted
      have hlookup : s.store.keys.lookup keyId = some doc := lookup_eq_some_iff.2 ⟨hmem, hid⟩
      obtain rfl := Option.some.inj (hlookup.symm.trans hfound)
      simp [hid, howner] at hnot
    | false =>
      obtain ⟨old, hold, ⟨-, rfl⟩ | ⟨hnot, rfl⟩⟩ := mem_updateOne hdoc
      · cases hlive
      · have hlookup : s.store.keys.lookup keyId = some doc := lookup_eq_some_iff.2 ⟨hold, hid⟩
        obtain rfl := Option.some.inj (hlookup.symm.trans hfound)
        exact hnot ⟨hid, decide_eq_true howner⟩
  constructor
  · refine ⟨⟨hmanages, ?_⟩, h.backed⟩
    rw [ApiKeyRepository.revoke, Option.any_eq_true] at hmatched
    obtain ⟨found, hfound, howner⟩ := hmatched
    obtain ⟨hmem, hid⟩ := lookup_eq_some_iff.1 hfound
    obtain ⟨owner, made, hmade, hsame⟩ := h.stored found hmem
    exact ⟨owner, made, hmade, hsame.id.trans hid, hsame.userId.trans (of_decide_eq_true howner)⟩
  · intro doc hdoc
    obtain ⟨owner, made, hmade, hsame⟩ := (h.keeps hkeeps).stored doc hdoc
    exact ⟨owner, made, List.mem_cons_of_mem _ hmade, hsame⟩
  · intro doc hdoc hlive other hmem
    rcases List.mem_cons.1 hmem with heq | hold
    · injection heq with _ hid
      exact hgone doc hdoc hlive hid
    · exact (h.keeps hkeeps).live doc hdoc hlive other hold
  · intro owner made hmem
    rcases List.mem_cons.1 hmem with heq | hold
    · cases heq
    · exact h.bounded owner made hold

/-- A key is inserted under a new id. -/
theorem create (h : s.Ok) {request : CreateApiKey} {keys : ApiKeyStore} {lib : ApiKeyLib}
    (hinsert : s.store.keys.insertOne (ApiKeyService.apiKeyDoc lib request s.store) = some keys)
    (hassured : (KeyPhase.creating user (.inserting request)).Assured s) :
    KeyWorld.Ok { s with
      store := { s.store with keys, issued := s.store.issued + 1 }
      log := .created user (ApiKeyService.apiKeyDoc lib request s.store) :: s.log } := by
  obtain ⟨hsession, hverified, huser, hscopes⟩ := hassured
  have hdocs := (insertOne_eq_some hinsert).2.2
  constructor
  · refine ⟨⟨hsession, hverified, huser, hscopes, fun owner made hmade hid => ?_⟩, h.backed⟩
    exact absurd hid (Nat.ne_of_lt (h.bounded owner made hmade))
  · intro doc hdoc
    rw [hdocs, List.mem_append, List.mem_singleton] at hdoc
    rcases hdoc with hold | rfl
    · obtain ⟨owner, made, hmade, hsame⟩ := h.stored doc hold
      exact ⟨owner, made, List.mem_cons_of_mem _ hmade, hsame⟩
    · exact ⟨user, _, List.mem_cons_self .., ⟨rfl, rfl, rfl, rfl, rfl⟩⟩
  · intro doc hdoc hlive other hmem
    have hretired := List.mem_of_ne_of_mem (by intro heq; cases heq) hmem
    rw [hdocs, List.mem_append, List.mem_singleton] at hdoc
    rcases hdoc with hold | rfl
    · exact h.live doc hold hlive other hretired
    · -- What was retired has an older id.
      obtain ⟨later, earlier, hlog, -, owner, made, hmade, hid, -⟩ := h.backed.exists_of_mem hretired
      have hlt := h.bounded owner made (by simp [hlog, hmade])
      rw [hid] at hlt
      exact lt_irrefl _ hlt
  · intro owner made hmem
    rcases List.mem_cons.1 hmem with heq | hold
    · injection heq with _ hdoc
      rw [hdoc]
      exact Nat.lt_succ_self _
    · exact Nat.lt_succ_of_lt (h.bounded owner made hold)

end KeyWorld.Ok

/-! ## The moves of a request -/

theorem keyAdvances_begin (h : s.Ok) {found : Option ResolvedUser} (hcredits : ∀ user ∈ found, s.Credits user) :
    KeyAdvances s (begin cfg found call s) := by
  cases call with
  | create body =>
    unfold begin
    dsimp only
    split
    · exact h.reads trivial
    rename_i user huser
    obtain ⟨-, hsession, hverified⟩ := requireJwtVerified_ok huser
    split
    · exact h.reads trivial
    rename_i hvalid
    split
    · exact h.reads trivial
    rename_i request hrequest
    have hfields : request.userId = user.userId ∧ request.scopes = body.scopes := by
      unfold createRequest at hrequest
      dsimp only at hrequest
      split at hrequest
      · obtain rfl := Except.ok.inj hrequest
        exact ⟨rfl, rfl⟩
      · cases hrequest
      · split at hrequest
        · cases hrequest
        · obtain rfl := Except.ok.inj hrequest
          exact ⟨rfl, rfl⟩
    have hallowed : body.scopes.all (allowedScopes.contains ·) = true := by
      rw [Bool.not_eq_false, validBody, Bool.and_eq_true] at hvalid
      exact hvalid.2
    refine h.reads ⟨hsession, hverified, hfields.1, fun scope hscope => ?_⟩
    rw [hfields.2] at hscope
    simpa using List.all_eq_true.1 hallowed scope hscope
  | delete keyId revoke =>
    unfold begin
    dsimp only
    split
    · exact h.reads trivial
    rename_i user huser
    obtain ⟨hfound, hmay⟩ := requireSessionOrScopes_ok huser
    refine h.reads ?_
    rcases hmay with hsession | ⟨granted, hgranted, scope, hscope, hmanage⟩
    · exact .inl hsession
    · obtain rfl := List.mem_singleton.1 hmanage
      cases hkey : user.apiKeyDoc with
      | some scopes =>
        rw [grantedScopes, hkey] at hgranted
        obtain rfl := Option.some.inj hgranted
        exact absurd hscope (h.not_manages_of_credits (hcredits user hfound) hkey)
      | none =>
        rw [grantedScopes, hkey] at hgranted
        exact .inr ⟨hkey, granted, hgranted, hscope⟩
  | act required =>
    unfold begin
    dsimp only
    split
    · exact h.reads trivial
    rename_i user huser
    obtain ⟨hfound, hgranted⟩ := requireScopes_ok huser
    have hbacked : (KeyEntry.granted user required).BackedBy s.log := ⟨hcredits user hfound, hgranted⟩
    exact ⟨h.log hbacked (fun _ _ heq => by cases heq) (fun _ _ heq => by cases heq),
      List.subset_cons_self .., trivial⟩

theorem KeyAdvances.of_log {moved : KeyPhase × KeyWorld} (h : KeyAdvances s' moved) (hlog : s.log ⊆ s'.log) :
    KeyAdvances s moved := ⟨h.ok, List.Subset.trans hlog h.grows, h.assured⟩

theorem keyAdvances_anonymous (h : s.Ok) : KeyAdvances s (begin cfg none call s) :=
  keyAdvances_begin h fun _ hfound => by cases hfound

theorem keyAdvances_withKey (h : s.Ok) {now : Int} (hmem : .resolved key now ∈ s.log) {user : Option UserDoc} :
    KeyAdvances s (begin cfg (some (apiKeyUser cfg key user)) call s) := by
  refine keyAdvances_begin h fun found hfound => ?_
  obtain rfl := Option.some.inj hfound
  intro scopes hscopes
  exact ⟨key, now, hmem, rfl, Option.some.inj hscopes⟩

theorem keyAdvances_finding (h : s.Ok) {raw : String} : KeyAdvances s (finding cfg raw call s) := by
  unfold finding
  split
  · exact keyAdvances_anonymous h
  rename_i key hfind
  split
  · exact keyAdvances_anonymous h
  rename_i hrevoked
  split
  · exact keyAdvances_anonymous h
  rename_i hexpired
  have hmem : key ∈ s.store.keys.docs := List.mem_of_find?_eq_some hfind
  have hbacked : (KeyEntry.resolved key s.store.clock).BackedBy s.log := by
    refine ⟨h.stored key hmem, h.live key hmem (Bool.eq_false_of_not_eq_true hrevoked), fun expiry hexpiry => ?_⟩
    rw [Option.mem_def.1 hexpiry] at hexpired
    simpa using hexpired
  exact ⟨h.log hbacked (fun _ _ heq => by cases heq) (fun _ _ heq => by cases heq),
    List.subset_cons_self .., s.store.clock, List.mem_cons_self ..⟩

theorem keyAdvances_findingUser (h : s.Ok) {now now' : Int} (hmem : .resolved key now ∈ s.log) :
    KeyAdvances s (findingUser cfg key now' call s) := by
  unfold findingUser
  dsimp only
  split
  · exact h.reads trivial
  split
  · exact h.reads ⟨now, hmem⟩
  · exact keyAdvances_withKey h hmem

theorem move_counting (lib : ApiKeyLib) (maxActiveKeys : Nat) (request : CreateApiKey) (store : ApiKeyWorld) :
    ApiKeyService.move lib maxActiveKeys (.counting request) store = (.inserting request, store) ∨
      ∃ error, ApiKeyService.move lib maxActiveKeys (.counting request) store = (.refused error, store) := by
  simp only [ApiKeyService.move]
  split
  · exact .inr ⟨_, rfl⟩
  split
  · exact .inr ⟨_, rfl⟩
  · exact .inl rfl

theorem keyAdvances_creating (h : s.Ok) {phase : ApiKeyPhase} (hassured : (KeyPhase.creating user phase).Assured s) :
    KeyAdvances s (creating cfg user phase s) := by
  unfold creating
  cases phase with
  | counting request =>
    rcases move_counting cfg.lib cfg.maxActiveKeys request s.store with heq | ⟨error, heq⟩
    · rw [heq]
      exact h.reads hassured
    · rw [heq]
      exact h.reads trivial
  | inserting request =>
    simp only [ApiKeyService.move]
    cases hinsert : ApiKeyRepository.insert s.store.keys (ApiKeyService.apiKeyDoc cfg.lib request s.store) with
    | none => exact h.reads trivial
    | some keys => exact ⟨h.create hinsert hassured, List.subset_cons_self .., trivial⟩
  | created doc raw => exact hassured.elim
  | refused error => exact h.reads trivial
  | raised => exact h.reads trivial

theorem keyAdvances_retiring (h : s.Ok) {keyId : ObjectId} {revoke : Bool} (hmanages : user.ManagesKeys) :
    KeyAdvances s (retiring user keyId revoke s) := by
  unfold retiring
  dsimp only
  split
  · rename_i hmatched
    exact ⟨h.retire hmanages hmatched, List.subset_cons_self .., trivial⟩
  · refine ⟨h.keeps ?_, List.Subset.refl _, trivial⟩
    cases revoke with
    | true => exact keeps_updateOne (fun _ => ⟨rfl, rfl, rfl, rfl, rfl⟩) fun _ hfalse => by cases hfalse
    | false => exact keeps_deleteMany

theorem keyAdvances_failed (h : s.Ok) {outcome : Redis.Outcome} {phase : KeyPhase} (hassured : phase.Assured s) :
    KeyAdvances s (failed cfg outcome phase s) := by
  cases phase with
  | idle last => exact h.reads trivial
  | finding raw call => exact (keyAdvances_anonymous h : KeyAdvances s (begin cfg none call s))
  | findingUser key now call => exact (keyAdvances_anonymous h : KeyAdvances s (begin cfg none call s))
  | touching key user call =>
    obtain ⟨now, hmem⟩ := hassured
    unfold failed
    dsimp only
    split
    · exact (keyAdvances_withKey (h.touch key) hmem).of_log (List.Subset.refl _)
    · exact keyAdvances_withKey h hmem
  | creating user phase =>
    unfold failed
    dsimp only
    split
    · exact ⟨(keyAdvances_creating h hassured).ok, (keyAdvances_creating h hassured).grows, trivial⟩
    · exact h.reads trivial
  | retiring user keyId revoke =>
    unfold failed
    dsimp only
    split
    · exact ⟨(keyAdvances_retiring h hassured).ok, (keyAdvances_retiring h hassured).grows, trivial⟩
    · exact h.reads trivial

theorem keyAdvances_beside (h : s.Ok) {choice : KeyChoice} : (beside choice s).Ok ∧ s.log ⊆ (beside choice s).log := by
  cases choice with
  | users users => exact ⟨⟨h.backed, h.stored, h.live, h.bounded⟩, List.Subset.refl _⟩
  | eraseKeys userId => exact ⟨h.keeps keeps_deleteMany, List.Subset.refl _⟩
  | expire => exact ⟨h.keeps keeps_deleteMany, List.Subset.refl _⟩
  | _ => exact ⟨h, List.Subset.refl _⟩

theorem keyAdvances_move (h : s.Ok) {choice : KeyChoice} {phase : KeyPhase} (hassured : phase.Assured s) :
    KeyAdvances s (KeyRoutes.move cfg choice phase s) := by
  unfold KeyRoutes.move
  split
  · exact keyAdvances_failed h hassured
  split
  · split
    · exact h.reads trivial
    · refine keyAdvances_begin h fun user huser scopes hscopes => ?_
      unfold getCurrentUser at huser
      split at huser
      · cases huser
      split at huser
      · cases huser
      · obtain rfl := Option.some.inj huser
        cases hscopes
    · exact keyAdvances_anonymous h
    · exact ⟨(keyAdvances_beside h).1, (keyAdvances_beside h).2, trivial⟩
  · exact keyAdvances_finding h
  · exact keyAdvances_findingUser h hassured.choose_spec
  · rename_i key user call
    exact (keyAdvances_withKey (h.touch key) hassured.choose_spec).of_log (List.Subset.refl _)
  · exact keyAdvances_creating h hassured
  · exact keyAdvances_retiring h hassured

/-! ## Runs -/

/-- No keys, some accounts. -/
def KeyWorld.start (users : UserStore) (clock : Int) : KeyWorld := { store := ⟨Collection.empty, clock, 0⟩, users }

theorem KeyWorld.ok_start (users : UserStore) (clock : Int) : (KeyWorld.start users clock).Ok where
  backed := trivial
  stored := by simp [KeyWorld.start, Collection.empty]
  live := by simp [KeyWorld.start, Collection.empty]
  bounded := by simp [KeyWorld.start]

theorem KeyWorld.Ok.wait (h : s.Ok) (delay : Nat) : (s.wait delay).Ok := ⟨h.backed, h.stored, h.live, h.bounded⟩

variable [DecidableEq ι]

/-- In whatever order requests with keys, tokens and nothing come, and whatever fails in them, the log of the keys is
backed: what a key may do, a session of its user has allowed, and no key is found after its end. -/
theorem keys_backed (users : UserStore) (clock : Int) (events : List (ι × KeyAnswer)) :
    ∀ pool ∈ List.scanl (Pool.step (KeyPhase.step cfg)) ⟨fun _ => .idle none, KeyWorld.start users clock⟩ events,
      BackedLog KeyEntry.BackedBy pool.shared.log := by
  intro pool hpool
  refine (Pool.Sound.forall_mem_scanl_of_step (I := KeyWorld.Ok)
    (L := fun _ phase s => KeyPhase.Assured phase s) ?_ ?_ pool hpool).shared.backed
  · intro pool event hsound
    have hmove : KeyAdvances (pool.shared.wait event.2.delay)
        (KeyPhase.step cfg event.1 event.2 (pool.agents event.1) pool.shared) :=
      keyAdvances_move (hsound.shared.wait _) ((hsound.agents event.1).grows (List.Subset.refl _))
    exact ⟨hmove.ok, hmove.assured, fun _ _ _ hother => hother.grows hmove.grows⟩
  · exact ⟨KeyWorld.ok_start users clock, fun _ => trivial⟩

/-- A key is made in a session, used, and revoked in the session, and who comes with it then is nobody. -/
theorem keys_backed_revoked :
    let cfg : KeyConfig := { lib := ⟨toString, id⟩, strip := id, lower := id }
    let session : Credential := .jwt ⟨"spoo.me", "spoo.me.api", 1, 0, 900, "pwd", none, true, none, none, none⟩
    let reads : KeyAnswer := { choice := .request (.apiKey "0") (.act ["stats:read"]) }
    let start : Pool (Fin 2) KeyPhase KeyWorld := ⟨fun _ => .idle none, KeyWorld.start .empty 0⟩
    let events : List (Fin 2 × KeyAnswer) :=
      [(0, { choice := .request session (.create { name := "ci", scopes := ["stats:read"] }) }), (0, {}), (0, {}),
        (1, reads), (1, {}), (1, {}), (1, {}), (0, { choice := .request session (.delete 0 true) }), (0, {}),
        (1, reads), (1, {})]
    ((events.foldl (Pool.step (KeyPhase.step cfg)) start).shared.log.length = 4 ∧
      (events.foldl (Pool.step (KeyPhase.step cfg)) start).agents 1 =
        .idle (some (.error (.auth .authenticationRequired)))) ∧
      ∀ pool ∈ List.scanl (Pool.step (KeyPhase.step cfg)) start events,
        BackedLog KeyEntry.BackedBy pool.shared.log :=
  ⟨by decide +kernel, keys_backed _ _ _⟩

end Spoo
