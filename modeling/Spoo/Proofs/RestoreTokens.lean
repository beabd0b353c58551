import Mathlib.Data.Fintype.Basic
import Spoo.Services.AccountDeletionService

/-!
# The way back from a deletion

An account without a password that waits for its deletion must have a restore token to the end. The
token is stored before the account is turned, and a request whose turn fails takes its own token away
again. What goes wrong is a turn that has had its effect and is reported as failed.
-/

namespace Spoo

open Agents Mongo Mongo.Collection AccountDeletionService

/-- The token lets the owner of the account back in until the purge. -/
def Covers (token : VerificationTokenDoc) (doc : UserDoc) : Prop :=
  token.userId = doc.id ∧ token.tokenType = .deletionRestore ∧ token.usedAt = none ∧
    doc.purgeAfter.any (· ≤ token.expiresAt) = true

instance (token : VerificationTokenDoc) (doc : UserDoc) : Decidable (Covers token doc) :=
  inferInstanceAs (Decidable (_ ∧ _))

/-- No account without a password waits for its deletion without such a token. -/
def NoLockout (s : DeletionWorld) : Prop :=
  ∀ doc ∈ s.users.docs, doc.status = .pendingDeletion → doc.hasPasswordHash = false →
    ∃ token ∈ s.tokens.docs, Covers token doc

instance (s : DeletionWorld) : Decidable (NoLockout s) :=
  inferInstanceAs (Decidable (∀ doc ∈ s.users.docs, _))

/-- The token that a request has stored and not yet let go of. -/
def DeletionPhase.held : DeletionPhase → Option String
  | .flippingMinted _ _ tokenHash => some tokenHash
  | .discarding _ _ tokenHash _ => some tokenHash
  | _ => none

/-- The account and the time of a turn that raised. -/
def DeletionPhase.raised : DeletionPhase → Option (ObjectId × Int)
  | .discarding user now _ true => some (user.id, now)
  | _ => none

variable {ι : Type}

/-- A request whose turn raised takes its token away only if the account does not wait under the very
deadline of that request, or has a token besides that no request holds. -/
def DiscardsSpare (cfg : DeletionConfig) (pool : Pool ι DeletionPhase DeletionWorld)
    (event : ι × DeletionAnswer) : Prop :=
  ∀ turn ∈ (pool.agents event.1).raised, ∀ tokenHash ∈ (pool.agents event.1).held,
    event.2.choice.takesEffect = true → ∀ doc ∈ pool.shared.users.lookup turn.1,
      doc.status = .pendingDeletion → doc.purgeAfter = some (deadline cfg turn.2) →
        ∃ token ∈ pool.shared.tokens.docs, Covers token doc ∧ token.tokenHash ≠ tokenHash ∧
          ∀ who, (pool.agents who).held ≠ some token.tokenHash

instance [Fintype ι] (cfg : DeletionConfig) (pool : Pool ι DeletionPhase DeletionWorld)
    (event : ι × DeletionAnswer) : Decidable (DiscardsSpare cfg pool event) :=
  inferInstanceAs (Decidable (∀ turn ∈ (pool.agents event.1).raised, _))

/-! ## What a move does -/

section

variable {lib : DeletionLib} {cfg : DeletionConfig}

/-- The hash of a token that is drawn. -/
def drawnHash (lib : DeletionLib) (n : Nat) : String := lib.hashToken (lib.generateSecureToken n)

/-- The accounts after a turn. -/
def turned (cfg : DeletionConfig) (s : DeletionWorld) (user : ObjectId) (now : Int) : DeletionWorld :=
  { s with users := (UserRepository.markPendingDeletion s.users user cfg.graceDays now).2 }

/-- The account is stored, with a password or without. -/
def StandsAs (s : DeletionWorld) (user : UserDoc) (hasPassword : Bool) : Prop :=
  ∃ doc, s.users.lookup user.id = some doc ∧ doc.hasPasswordHash = hasPassword

/-- What a request knows of the account that it has read. -/
def KnowsAccount (phase : DeletionPhase) (s : DeletionWorld) : Prop :=
  match phase with
  | .idle _ => True
  | .finding .. => True
  | .flipping user => StandsAs s user true
  | .readingDeadline user => StandsAs s user true
  | .superseding user _ => StandsAs s user true
  | .creating user _ => StandsAs s user true
  | .minting user _ => StandsAs s user false
  | .flippingMinted user _ _ => StandsAs s user false
  | .discarding user _ _ _ => StandsAs s user false

/-- What a move can do. -/
inductive DeletionMoved (lib : DeletionLib) (cfg : DeletionConfig) (takesEffect : Bool) :
    DeletionPhase → DeletionWorld → DeletionPhase → DeletionWorld → Prop
  | reads {phase phase' s} (hheld : phase.held = none) (hheld' : phase'.held = none)
      (hknows : KnowsAccount phase s → KnowsAccount phase' s) :
      DeletionMoved lib cfg takesEffect phase s phase' s
  | turns {phase phase' s} (user : UserDoc) (now : Int) (hheld : phase.held = none)
      (hheld' : phase'.held = none) (huser : KnowsAccount phase s → StandsAs s user true)
      (hknows : ∀ s', StandsAs s' user true → KnowsAccount phase' s') :
      DeletionMoved lib cfg takesEffect phase s phase' (turned cfg s user.id now)
  | supersedes {phase phase' s} (user : UserDoc) (hheld : phase.held = none)
      (hheld' : phase'.held = none) (huser : KnowsAccount phase s → StandsAs s user true)
      (hknows : ∀ s', StandsAs s' user true → KnowsAccount phase' s') :
      DeletionMoved lib cfg takesEffect phase s phase'
        { s with tokens := TokenRepository.deleteByUser s.tokens user.id (some .deletionRestore) }
  | mints {phase phase' s s'} (user : UserDoc) (purgeAfter : Int) (hheld : phase.held = none)
      (hheld' : phase'.held = none) (hmint : mint lib user purgeAfter s = some s')
      (hknows : KnowsAccount phase' s') : DeletionMoved lib cfg takesEffect phase s phase' s'
  | mintsFirst {s s'} (user : UserDoc) (now : Int)
      (hmint : mint lib user (deadline cfg now) s = some s') :
      DeletionMoved lib cfg takesEffect (.minting user now) s
        (.flippingMinted user now (drawnHash lib s.issued)) s'
  | turnsMinted {phase' s} (user : UserDoc) (now : Int) (tokenHash : String)
      (hphase' : (∃ last, phase' = .idle last) ∨ phase' = .discarding user now tokenHash true) :
      DeletionMoved lib cfg takesEffect (.flippingMinted user now tokenHash) s phase'
        (turned cfg s user.id now)
  | fails {s} (user : UserDoc) (now : Int) (tokenHash : String) (raised : Bool) :
      DeletionMoved lib cfg takesEffect (.flippingMinted user now tokenHash) s
        (.discarding user now tokenHash raised) s
  | discards {s} (user : UserDoc) (now : Int) (tokenHash : String) (raised : Bool)
      (last : Option DeletionOutcome) (heffect : takesEffect = true) :
      DeletionMoved lib cfg takesEffect (.discarding user now tokenHash raised) s (.idle last)
        { s with tokens := TokenRepository.deleteByHash s.tokens tokenHash .deletionRestore }
  | leaves {s} (user : UserDoc) (now : Int) (tokenHash : String) (raised : Bool)
      (last : Option DeletionOutcome) :
      DeletionMoved lib cfg takesEffect (.discarding user now tokenHash raised) s (.idle last) s

theorem turned_of_markPendingDeletion {s : DeletionWorld} {user : ObjectId} {now : Int} {users : UserStore}
    {flipped : Bool}
    (h : UserRepository.markPendingDeletion s.users user cfg.graceDays now = (flipped, users)) :
    turned cfg s user now = { s with users } := by
  rw [turned, h]

/-- A turn that finds no active account writes nothing. -/
theorem turned_of_not_flipped {s : DeletionWorld} {user : ObjectId} {now : Int} {users : UserStore}
    (h : UserRepository.markPendingDeletion s.users user cfg.graceDays now = (false, users)) :
    turned cfg s user now = s := by
  have hnone : (s.users.lookup user).any (·.status = .active) = false := congrArg Prod.fst h
  rw [turned, UserRepository.markPendingDeletion, updateOne_of_not_matches]
  intro doc hdoc
  rw [hdoc] at hnone
  exact hnone

theorem standsAs_of_lookup {s : DeletionWorld} {userId : ObjectId} {user : UserDoc}
    {hasPassword : Bool} (h : s.users.lookup userId = some user)
    (hpassword : user.hasPasswordHash = hasPassword) : StandsAs s user hasPassword := by
  have hid : user.id = userId := (lookup_eq_some_iff.1 h).2
  exact ⟨user, by rw [hid, h], hpassword⟩

/-- A call that has its effect. -/
theorem deletionMoved_move (choice : DeletionChoice) (phase : DeletionPhase) (s : DeletionWorld) :
    DeletionMoved lib cfg true phase s (move lib cfg choice phase s).1
      (move lib cfg choice phase s).2 := by
  cases phase with
  | idle last => cases choice <;> exact .reads rfl rfl fun _ => trivial
  | finding userId password confirmEmail =>
    simp only [move]
    split
    · exact .reads rfl rfl fun _ => trivial
    · rename_i user hfound
      split_ifs with _ _ hpassword
      · exact .reads rfl rfl fun _ => trivial
      · exact .reads rfl rfl fun _ => trivial
      · exact .reads rfl rfl fun _ => standsAs_of_lookup hfound hpassword
      · have hnone : user.hasPasswordHash = false := by simpa using hpassword
        exact .reads rfl rfl fun _ => standsAs_of_lookup hfound hnone
      · exact .reads rfl rfl fun _ => trivial
  | flipping user =>
    simp only [move]
    split
    · rename_i users hmark
      rw [← turned_of_markPendingDeletion hmark]
      exact .turns user s.clock rfl rfl id fun _ h => h
    · exact .reads rfl rfl fun _ => trivial
  | readingDeadline user =>
    simp only [move]
    split_ifs
    · exact .reads rfl rfl id
    · exact .reads rfl rfl fun _ => trivial
  | superseding user purgeAfter => exact .supersedes user rfl rfl id fun _ h => h
  | creating user purgeAfter =>
    simp only [move]
    cases hmint : mint lib user purgeAfter s with
    | none => exact .reads rfl rfl fun _ => trivial
    | some s' => exact .mints user purgeAfter rfl rfl hmint trivial
  | minting user now =>
    simp only [move]
    split
    · exact .reads rfl rfl fun _ => trivial
    · rename_i s' hmint
      exact .mintsFirst user now hmint
  | flippingMinted user now tokenHash =>
    simp only [move]
    split
    · rename_i users hmark
      rw [← turned_of_markPendingDeletion hmark]
      exact .turnsMinted user now tokenHash (.inl ⟨_, rfl⟩)
    · exact .fails user now tokenHash false
  | discarding user now tokenHash raised => exact .discards user now tokenHash raised _ rfl

/-- A call that fails without an effect. -/
theorem deletionMoved_afterFailure {takesEffect : Bool} (phase : DeletionPhase) (s : DeletionWorld) :
    DeletionMoved lib cfg takesEffect phase s (afterFailure phase) s := by
  cases phase with
  | flippingMinted user now tokenHash => exact .fails user now tokenHash true
  | discarding user now tokenHash raised => exact .leaves user now tokenHash raised _
  | _ => exact .reads rfl rfl fun _ => trivial

theorem turned_eq_move (choice : DeletionChoice) (user : UserDoc) (now : Int) (tokenHash : String)
    (s : DeletionWorld) :
    (move lib cfg choice (.flippingMinted user now tokenHash) s).2 = turned cfg s user.id now := by
  simp only [move]
  split
  · rename_i users hmark
    exact (turned_of_markPendingDeletion hmark).symm
  · rename_i users hmark
    exact (turned_of_not_flipped hmark).symm

/-- A call that fails after its effect. -/
theorem deletionMoved_failAfter (phase : DeletionPhase) (s : DeletionWorld) :
    DeletionMoved lib cfg true phase s (afterFailure phase) (move lib cfg .go phase s).2 := by
  have hmoved : DeletionMoved lib cfg true phase s (move lib cfg .go phase s).1
      (move lib cfg .go phase s).2 := deletionMoved_move .go phase s
  cases phase with
  | idle last => exact .reads rfl rfl fun _ => trivial
  | finding userId password confirmEmail =>
    have hsame : (move lib cfg .go (.finding userId password confirmEmail) s).2 = s := by
      simp only [move]
      split
      · rfl
      · split_ifs <;> rfl
    rw [hsame]
    exact .reads rfl rfl fun _ => trivial
  | flipping user =>
    simp only [move]
    split
    · rename_i users hmark
      rw [← turned_of_markPendingDeletion hmark]
      exact .turns user s.clock rfl rfl id fun _ _ => trivial
    · exact .reads rfl rfl fun _ => trivial
  | readingDeadline user =>
    have hsame : (move lib cfg .go (.readingDeadline user) s).2 = s := by
      simp only [move]
      split_ifs <;> rfl
    rw [hsame]
    exact .reads rfl rfl fun _ => trivial
  | superseding user purgeAfter => exact .supersedes user rfl rfl id fun _ _ => trivial
  | creating user purgeAfter => exact hmoved
  | minting user now =>
    simp only [move]
    split
    · exact .reads rfl rfl fun _ => trivial
    · rename_i s' hmint
      exact .mints user _ rfl rfl hmint trivial
  | flippingMinted user now tokenHash =>
    rw [turned_eq_move]
    exact .turnsMinted user now tokenHash (.inr rfl)
  | discarding user now tokenHash raised => exact .discards user now tokenHash raised _ rfl

theorem deletionMoved_act (choice : DeletionChoice) (phase : DeletionPhase) (s : DeletionWorld) :
    DeletionMoved lib cfg choice.takesEffect phase s (act lib cfg choice phase s).1
      (act lib cfg choice phase s).2 := by
  cases choice with
  | failBefore => exact deletionMoved_afterFailure phase s
  | failAfter => exact deletionMoved_failAfter phase s
  | go => exact deletionMoved_move .go phase s
  | request userId password confirmEmail => exact deletionMoved_move _ phase s

/-- The token that a request has stored before it turns the account. -/
def IsMinted (cfg : DeletionConfig) (user : UserDoc) (now : Int) (tokenHash : String)
    (token : VerificationTokenDoc) : Prop :=
  token.tokenHash = tokenHash ∧ token.userId = user.id ∧ token.tokenType = .deletionRestore ∧
    token.usedAt = none ∧ token.expiresAt = deadline cfg now

theorem docs_of_mint {user : UserDoc} {purgeAfter : Int} {s s' : DeletionWorld}
    (h : mint lib user purgeAfter s = some s') :
    s'.tokens.docs = s.tokens.docs ++ [restoreToken lib user purgeAfter s] ∧
      s'.users = s.users ∧ s'.issued = s.issued + 1 := by
  obtain ⟨tokens, hcreate, rfl⟩ := Option.map_eq_some_iff.1 h
  exact ⟨(insertOne_eq_some hcreate).2.2, rfl, rfl⟩

/-- An account after a turn: it was like this, or it was active and is the one that was turned. -/
theorem lookup_turned {s : DeletionWorld} {userId i : ObjectId} {now : Int} {doc : UserDoc}
    (h : (turned cfg s userId now).users.lookup i = some doc) :
    ∃ old, s.users.lookup i = some old ∧ doc.hasPasswordHash = old.hasPasswordHash ∧
      (doc = old ∨ i = userId ∧ doc.purgeAfter = some (deadline cfg now)) := by
  by_cases hi : i = userId
  · subst hi
    obtain ⟨old, hold, rfl⟩ := Option.map_eq_some_iff.1 ((lookup_updateOne_self ..).symm.trans h)
    refine ⟨old, hold, ?_⟩
    unfold applyWhere
    split
    · exact ⟨rfl, .inr ⟨rfl, rfl⟩⟩
    · exact ⟨rfl, .inl rfl⟩
  · exact ⟨doc, (lookup_updateOne_of_ne _ _ _ hi).symm.trans h, rfl, .inl rfl⟩

theorem StandsAs.turned {s : DeletionWorld} {user : UserDoc} {hasPassword : Bool}
    (h : StandsAs s user hasPassword) (userId : ObjectId) (now : Int) :
    StandsAs (turned cfg s userId now) user hasPassword := by
  obtain ⟨old, hold, hpassword⟩ := h
  have hsome : ((Spoo.turned cfg s userId now).users.lookup user.id).isSome := by
    unfold Spoo.turned UserRepository.markPendingDeletion updateOne
    rw [lookup_updateMany, hold]
    rfl
  obtain ⟨doc, hdoc⟩ := Option.isSome_iff_exists.1 hsome
  obtain ⟨old', hold', hsame, -⟩ := lookup_turned hdoc
  rw [hold] at hold'
  cases hold'
  exact ⟨doc, hdoc, hsame.trans hpassword⟩

section

variable {takesEffect : Bool} {phase phase' : DeletionPhase} {s s' : DeletionWorld}

theorem KnowsAccount.mono (h : KnowsAccount phase s)
    (hstands : ∀ user hasPassword, StandsAs s user hasPassword → StandsAs s' user hasPassword) :
    KnowsAccount phase s' := by
  cases phase with
  | idle | finding => trivial
  | _ => exact hstands _ _ h

theorem DeletionMoved.standsAs (hm : DeletionMoved lib cfg takesEffect phase s phase' s')
    {user : UserDoc} {hasPassword : Bool} (h : StandsAs s user hasPassword) :
    StandsAs s' user hasPassword := by
  cases hm with
  | turns other now => exact h.turned _ _
  | turnsMinted other now => exact h.turned _ _
  | mints other purgeAfter _ _ hmint =>
    rw [StandsAs, (docs_of_mint hmint).2.1]
    exact h
  | mintsFirst other now hmint =>
    rw [StandsAs, (docs_of_mint hmint).2.1]
    exact h
  | _ => exact h

/-- What a request knows of its account goes on with it. -/
theorem DeletionMoved.knows (hm : DeletionMoved lib cfg takesEffect phase s phase' s')
    (h : KnowsAccount phase s) : KnowsAccount phase' s' := by
  cases hm with
  | reads _ _ hknows => exact hknows h
  | turns user now _ _ huser hknows => exact hknows _ ((huser h).turned _ _)
  | supersedes user _ _ huser hknows => exact hknows _ (huser h)
  | mints _ _ _ _ _ hknows => exact hknows
  | mintsFirst user now hmint =>
    have hstands : StandsAs s' user false := by
      rw [StandsAs, (docs_of_mint hmint).2.1]
      exact h
    exact hstands
  | turnsMinted user now tokenHash hphase' =>
    obtain ⟨last, rfl⟩ | rfl := hphase'
    · trivial
    · exact StandsAs.turned h _ _
  | fails => exact h
  | discards => trivial
  | leaves => trivial

theorem DeletionMoved.issued_le (hm : DeletionMoved lib cfg takesEffect phase s phase' s') :
    s.issued ≤ s'.issued := by
  cases hm with
  | mints user purgeAfter _ _ hmint => exact (docs_of_mint hmint).2.2 ▸ Nat.le_succ _
  | mintsFirst user now hmint => exact (docs_of_mint hmint).2.2 ▸ Nat.le_succ _
  | _ => exact Nat.le_refl _

/-- Where a stored token comes from. -/
theorem DeletionMoved.mem_tokens (hm : DeletionMoved lib cfg takesEffect phase s phase' s')
    {token : VerificationTokenDoc} (h : token ∈ s'.tokens.docs) :
    token ∈ s.tokens.docs ∨
      token.tokenHash = drawnHash lib s.issued ∧ s'.issued = s.issued + 1 := by
  have hminted {user : UserDoc} {purgeAfter : Int} (hmint : mint lib user purgeAfter s = some s') :
      token ∈ s.tokens.docs ∨
        token.tokenHash = drawnHash lib s.issued ∧ s'.issued = s.issued + 1 := by
    obtain ⟨hdocs, -, hissued⟩ := docs_of_mint hmint
    rw [hdocs, List.mem_append, List.mem_singleton] at h
    refine h.imp_right ?_
    rintro rfl
    exact ⟨rfl, hissued⟩
  cases hm with
  | mints user purgeAfter _ _ hmint => exact hminted hmint
  | mintsFirst user now hmint => exact hminted hmint
  | supersedes => exact .inl (List.mem_filter.1 h).1
  | discards => exact .inl (List.mem_filter.1 h).1
  | _ => exact .inl h

/-- Where a token that a request holds comes from. -/
theorem DeletionMoved.held (hm : DeletionMoved lib cfg takesEffect phase s phase' s')
    {tokenHash : String} (h : phase'.held = some tokenHash) :
    phase.held = some tokenHash ∧ phase.raised = none ∨
      tokenHash = drawnHash lib s.issued ∧ s'.issued = s.issued + 1 := by
  cases hm with
  | reads _ hheld' => cases hheld'.symm.trans h
  | turns _ _ _ hheld' => cases hheld'.symm.trans h
  | supersedes _ _ hheld' => cases hheld'.symm.trans h
  | mints _ _ _ hheld' => cases hheld'.symm.trans h
  | mintsFirst user now hmint =>
    cases h
    exact .inr ⟨rfl, (docs_of_mint hmint).2.2⟩
  | turnsMinted user now tokenHash hphase' =>
    obtain ⟨last, rfl⟩ | rfl := hphase'
    · cases h
    · exact .inl ⟨h, rfl⟩
  | fails => exact .inl ⟨h, rfl⟩
  | discards => cases h
  | leaves => cases h

/-- What becomes of a stored token. -/
theorem DeletionMoved.kept (hm : DeletionMoved lib cfg takesEffect phase s phase' s')
    (hknows : KnowsAccount phase s) {token : VerificationTokenDoc} (h : token ∈ s.tokens.docs) :
    token ∈ s'.tokens.docs ∨
      (∃ doc, s.users.lookup token.userId = some doc ∧ doc.hasPasswordHash = true) ∨
      phase.held = some token.tokenHash ∧ takesEffect = true ∧
        ∀ user now tokenHash, phase ≠ .flippingMinted user now tokenHash := by
  cases hm with
  | mints user purgeAfter _ _ hmint =>
    rw [(docs_of_mint hmint).1]
    exact .inl (List.mem_append_left _ h)
  | mintsFirst user now hmint =>
    rw [(docs_of_mint hmint).1]
    exact .inl (List.mem_append_left _ h)
  | supersedes user _ _ huser =>
    by_cases howner : token.userId = user.id
    · obtain ⟨doc, hdoc, hpassword⟩ := huser hknows
      exact .inr (.inl ⟨doc, howner ▸ hdoc, hpassword⟩)
    · exact .inl (List.mem_filter.2 ⟨h, by simp [howner]⟩)
  | discards user now tokenHash raised last heffect =>
    by_cases hhash : token.tokenHash = tokenHash
    · exact .inr (.inr ⟨congrArg some hhash.symm, heffect, by rintro _ _ _ ⟨⟩⟩)
    · exact .inl (List.mem_filter.2 ⟨h, by simp [hhash]⟩)
  | _ => exact .inl h

/-- Where an account comes from that waits for its deletion and has no password. -/
theorem DeletionMoved.lookup (hm : DeletionMoved lib cfg takesEffect phase s phase' s')
    (hknows : KnowsAccount phase s) {i : ObjectId} {doc : UserDoc}
    (h : s'.users.lookup i = some doc) (hpassword : doc.hasPasswordHash = false) :
    s.users.lookup i = some doc ∨
      ∃ user now tokenHash, phase = .flippingMinted user now tokenHash ∧ i = user.id ∧
        doc.purgeAfter = some (deadline cfg now) ∧
        (phase'.held = none ∨ phase' = .discarding user now tokenHash true) := by
  cases hm with
  | turns user now _ _ huser =>
    obtain ⟨old, hold, hsame, rfl | ⟨rfl, -⟩⟩ := lookup_turned h
    · exact .inl hold
    · obtain ⟨stored, hstored, hhas⟩ := huser hknows
      rw [hold] at hstored
      cases hstored
      rw [hsame, hhas] at hpassword
      cases hpassword
  | turnsMinted user now tokenHash hphase' =>
    obtain ⟨old, hold, -, rfl | ⟨hi, hpurge⟩⟩ := lookup_turned h
    · exact .inl hold
    · refine .inr ⟨user, now, tokenHash, rfl, hi, hpurge, hphase'.imp_left ?_⟩
      rintro ⟨last, rfl⟩
      rfl
  | mints user purgeAfter _ _ hmint =>
    rw [(docs_of_mint hmint).2.1] at h
    exact .inl h
  | mintsFirst user now hmint =>
    rw [(docs_of_mint hmint).2.1] at h
    exact .inl h
  | _ => exact .inl h

/-- A request that is about to turn the account has stored its token. -/
theorem DeletionMoved.minted (hm : DeletionMoved lib cfg takesEffect phase s phase' s')
    {user : UserDoc} {now : Int} {tokenHash : String}
    (h : phase' = .flippingMinted user now tokenHash) :
    ∃ token ∈ s'.tokens.docs, IsMinted cfg user now tokenHash token := by
  cases hm with
  | reads _ hheld' => subst h; cases hheld'
  | turns _ _ _ hheld' => subst h; cases hheld'
  | supersedes _ _ hheld' => subst h; cases hheld'
  | mints _ _ _ hheld' => subst h; cases hheld'
  | mintsFirst user' now' hmint =>
    cases h
    refine ⟨restoreToken lib user (deadline cfg now) s, ?_, rfl, rfl, rfl, rfl, rfl⟩
    rw [(docs_of_mint hmint).1]
    exact List.mem_append_right _ (List.mem_singleton_self _)
  | turnsMinted _ _ _ hphase' => obtain ⟨last, rfl⟩ | rfl := hphase' <;> cases h
  | fails => cases h
  | discards => cases h
  | leaves => cases h

end

/-! ## Runs -/

/-- No two requests hold one token. -/
def HeldApart (a b : DeletionPhase) : Prop := ∀ tokenHash, a.held = some tokenHash → b.held ≠ some tokenHash

/-- A token covers the account that is in no one's hands, or in those of a request whose turn raised
and set this very deadline. -/
def IsCovered (cfg : DeletionConfig) (pool : Pool ι DeletionPhase DeletionWorld) (i : ObjectId)
    (doc : UserDoc) : Prop :=
  ∃ token ∈ pool.shared.tokens.docs, Covers token doc ∧
    ∀ who, (pool.agents who).held = some token.tokenHash →
      ∃ now, (pool.agents who).raised = some (i, now) ∧ doc.purgeAfter = some (deadline cfg now)

/-- What holds between the moves. -/
structure LinksKept (lib : DeletionLib) (cfg : DeletionConfig)
    (pool : Pool ι DeletionPhase DeletionWorld) : Prop where
  fresh : ∀ token ∈ pool.shared.tokens.docs, ∀ n, pool.shared.issued ≤ n →
    token.tokenHash ≠ drawnHash lib n
  heldFresh : ∀ who tokenHash, (pool.agents who).held = some tokenHash →
    ∀ n, pool.shared.issued ≤ n → tokenHash ≠ drawnHash lib n
  apart : pool.Pairwise HeldApart
  knows : ∀ who, KnowsAccount (pool.agents who) pool.shared
  stored : ∀ who user now tokenHash, pool.agents who = .flippingMinted user now tokenHash →
    ∃ token ∈ pool.shared.tokens.docs, IsMinted cfg user now tokenHash token
  covered : ∀ i doc, pool.shared.users.lookup i = some doc → doc.status = .pendingDeletion →
    doc.hasPasswordHash = false → IsCovered cfg pool i doc

theorem LinksKept.noLockout {pool : Pool ι DeletionPhase DeletionWorld}
    (h : LinksKept lib cfg pool) : NoLockout pool.shared := by
  intro doc hdoc hpending hpassword
  obtain ⟨token, htoken, hcovers, -⟩ :=
    h.covered doc.id doc (lookup_eq_some_iff.2 ⟨hdoc, rfl⟩) hpending hpassword
  exact ⟨token, htoken, hcovers⟩

/-- An account that stands without a password is not one with a password. -/
theorem StandsAs.no_password {s : DeletionWorld} {user : UserDoc} (h : StandsAs s user false) :
    ¬ ∃ doc, s.users.lookup user.id = some doc ∧ doc.hasPasswordHash = true := by
  rintro ⟨doc, hdoc, hpassword⟩
  obtain ⟨doc', hdoc', hnone⟩ := h
  rw [hdoc] at hdoc'
  cases hdoc'
  rw [hpassword] at hnone
  cases hnone

variable [DecidableEq ι]

omit [DecidableEq ι] in
theorem deletionMoved_move_agent (lib : DeletionLib) (cfg : DeletionConfig) (who : ι)
    (answer : DeletionAnswer) (phase : DeletionPhase) (s : DeletionWorld) :
    DeletionMoved lib cfg answer.choice.takesEffect phase (s.wait answer.delay)
      (DeletionPhase.move lib cfg who answer phase s).1
      (DeletionPhase.move lib cfg who answer phase s).2 :=
  deletionMoved_act answer.choice phase (s.wait answer.delay)

/-- Whoever holds a stored token after a step has held it before it, and has not drawn it there. -/
theorem LinksKept.held_before {pool : Pool ι DeletionPhase DeletionWorld} {event : ι × DeletionAnswer}
    (h : LinksKept lib cfg pool) {token : VerificationTokenDoc} (htoken : token ∈ pool.shared.tokens.docs)
    {who : ι}
    (hheld : ((pool.step (DeletionPhase.move lib cfg) event).agents who).held = some token.tokenHash) :
    (pool.agents who).held = some token.tokenHash ∧ (who = event.1 → (pool.agents who).raised = none) := by
  have hm := deletionMoved_move_agent lib cfg event.1 event.2 (pool.agents event.1) pool.shared
  by_cases hwho : who = event.1
  · subst hwho
    rw [Pool.agents_step_same] at hheld
    rcases hm.held hheld with ⟨hbefore, hraised⟩ | ⟨hdrawn, -⟩
    · exact ⟨hbefore, fun _ => hraised⟩
    · exact absurd hdrawn (h.fresh token htoken _ (Nat.le_refl _))
  · rw [Pool.agents_step_of_ne hwho] at hheld
    exact ⟨hheld, fun heq => absurd heq hwho⟩

/-- A token that covers a stored account without a password stays, unless it is the one of the step's own
turn. -/
theorem LinksKept.token_stays {pool : Pool ι DeletionPhase DeletionWorld} {event : ι × DeletionAnswer}
    (h : LinksKept lib cfg pool) {token : VerificationTokenDoc} (htoken : token ∈ pool.shared.tokens.docs)
    {doc : UserDoc} (hdoc : pool.shared.users.lookup doc.id = some doc)
    (hpassword : doc.hasPasswordHash = false) (hcovers : Covers token doc)
    (hspare : ¬((pool.agents event.1).held = some token.tokenHash ∧ event.2.choice.takesEffect = true ∧
      ∀ user now tokenHash, pool.agents event.1 ≠ .flippingMinted user now tokenHash)) :
    token ∈ (pool.step (DeletionPhase.move lib cfg) event).shared.tokens.docs := by
  have hm := deletionMoved_move_agent lib cfg event.1 event.2 (pool.agents event.1) pool.shared
  have hknows : KnowsAccount (pool.agents event.1) (pool.shared.wait event.2.delay) := h.knows event.1
  rcases hm.kept hknows htoken with hkept | ⟨doc', hdoc', hhas⟩ | hgone
  · exact hkept
  · rw [hcovers.1] at hdoc'
    cases hdoc.symm.trans hdoc'
    rw [hpassword] at hhas
    cases hhas
  · exact absurd hgone hspare

/-- An account that waits for its deletion is covered after every move. -/
theorem covered_step {pool : Pool ι DeletionPhase DeletionWorld} {event : ι × DeletionAnswer}
    (h : LinksKept lib cfg pool) (hguard : DiscardsSpare cfg pool event) {i : ObjectId} {doc : UserDoc}
    (hdoc : (pool.step (DeletionPhase.move lib cfg) event).shared.users.lookup i = some doc)
    (hpending : doc.status = .pendingDeletion) (hpassword : doc.hasPasswordHash = false) :
    IsCovered cfg (pool.step (DeletionPhase.move lib cfg) event) i doc := by
  have hm := deletionMoved_move_agent lib cfg event.1 event.2
    (pool.agents event.1) pool.shared
  have hknows : KnowsAccount (pool.agents event.1) (pool.shared.wait event.2.delay) :=
    h.knows event.1
  rcases hm.lookup hknows hdoc hpassword with hbefore |
    ⟨user, now, tokenHash, hphase, rfl, hpurge, hphase'⟩
  · obtain rfl : doc.id = i := (lookup_eq_some_iff.1 hbefore).2
    obtain ⟨token, htoken, hcovers, hhands⟩ := h.covered doc.id doc hbefore hpending hpassword
    by_cases hgone : (pool.agents event.1).held = some token.tokenHash ∧
        event.2.choice.takesEffect = true ∧
          ∀ user now tokenHash, pool.agents event.1 ≠ .flippingMinted user now tokenHash
    · -- The request takes away the token of its own turn, so another one is there.
      obtain ⟨now, hraised, hpurge⟩ := hhands event.1 hgone.1
      obtain ⟨other, hother, hcovers', hne, hfree⟩ := hguard (doc.id, now) hraised token.tokenHash
        hgone.1 hgone.2.1 doc hbefore hpending hpurge
      refine ⟨other, h.token_stays hother hbefore hpassword hcovers' fun hheld => hfree _ hheld.1, hcovers',
        fun who hheld => ?_⟩
      exact absurd (h.held_before hother hheld).1 (hfree who)
    · refine ⟨token, h.token_stays htoken hbefore hpassword hcovers hgone, hcovers, fun who hheld => ?_⟩
      obtain ⟨hbeforeHeld, hself⟩ := h.held_before htoken hheld
      obtain ⟨now, hraised, hpurge⟩ := hhands who hbeforeHeld
      by_cases hwho : who = event.1
      · rw [hself hwho] at hraised
        cases hraised
      · refine ⟨now, ?_, hpurge⟩
        rw [Pool.agents_step_of_ne hwho]
        exact hraised
  · obtain ⟨token, htoken, hhash, howner, htype, hunused, hexpires⟩ := h.stored _ _ _ _ hphase
    have hid : doc.id = user.id := (lookup_eq_some_iff.1 hdoc).2
    have hstays : token ∈ (pool.step (DeletionPhase.move lib cfg) event).shared.tokens.docs := by
      rcases hm.kept hknows htoken with hkept | hhas | ⟨-, -, hnot⟩
      · exact hkept
      · rw [hphase] at hknows
        exact absurd (howner ▸ hhas) hknows.no_password
      · exact absurd hphase (hnot _ _ _)
    refine ⟨token, hstays, ⟨howner.trans hid.symm, htype, hunused, ?_⟩, fun who hheld => ?_⟩
    · rw [hpurge, hexpires]
      simp
    · obtain ⟨hbeforeHeld, -⟩ := h.held_before htoken hheld
      by_cases hwho : who = event.1
      · subst hwho
        rw [Pool.agents_step_same] at hheld ⊢
        rcases hphase' with hnone | hraised
        · rw [hnone] at hheld
          cases hheld
        · rw [hraised]
          exact ⟨now, rfl, hpurge⟩
      · refine absurd hbeforeHeld (h.apart event.1 who (Ne.symm hwho) token.tokenHash ?_)
        rw [hphase, hhash]
        rfl

theorem linksKept_step {pool : Pool ι DeletionPhase DeletionWorld} {event : ι × DeletionAnswer}
    (hdraws : Function.Injective (drawnHash lib)) (h : LinksKept lib cfg pool)
    (hguard : DiscardsSpare cfg pool event) :
    LinksKept lib cfg (pool.step (DeletionPhase.move lib cfg) event) := by
  have hm := deletionMoved_move_agent lib cfg event.1 event.2
    (pool.agents event.1) pool.shared
  have hknows : KnowsAccount (pool.agents event.1) (pool.shared.wait event.2.delay) :=
    h.knows event.1
  have hle : pool.shared.issued ≤ (pool.step (DeletionPhase.move lib cfg) event).shared.issued :=
    hm.issued_le
  have hnew {n issued : Nat} (hissued : issued = (pool.shared.wait event.2.delay).issued + 1)
      (hn : issued ≤ n) : drawnHash lib (pool.shared.wait event.2.delay).issued ≠ drawnHash lib n := by
    intro heq
    have := hdraws heq
    omega
  constructor
  · intro token htoken n hn
    rcases hm.mem_tokens htoken with hbefore | ⟨hdrawn, hissued⟩
    · exact h.fresh token hbefore n (hle.trans hn)
    · rw [hdrawn]
      exact hnew hissued hn
  · intro who tokenHash hheld n hn
    by_cases hwho : who = event.1
    · subst hwho
      rw [Pool.agents_step_same] at hheld
      rcases hm.held hheld with ⟨hbefore, -⟩ | ⟨rfl, hissued⟩
      · exact h.heldFresh _ tokenHash hbefore n (hle.trans hn)
      · exact hnew hissued hn
    · rw [Pool.agents_step_of_ne hwho] at hheld
      exact h.heldFresh who tokenHash hheld n (hle.trans hn)
  · refine h.apart.step (fun a b hab tokenHash hb ha => hab tokenHash ha hb) fun other hother => ?_
    intro tokenHash hheld hheld'
    rcases hm.held hheld with ⟨hbefore, -⟩ | ⟨rfl, -⟩
    · exact h.apart event.1 other (Ne.symm hother) tokenHash hbefore hheld'
    · exact h.heldFresh other _ hheld' _ (Nat.le_refl _) rfl
  · exact Pool.forall_agents_step (Q := fun _ phase => KnowsAccount phase _) (hm.knows hknows)
      fun who _ => (h.knows who).mono fun user hasPassword hstands => hm.standsAs hstands
  · intro who user now tokenHash hphase
    by_cases hwho : who = event.1
    · subst hwho
      rw [Pool.agents_step_same] at hphase
      exact hm.minted hphase
    · rw [Pool.agents_step_of_ne hwho] at hphase
      obtain ⟨token, htoken, hminted⟩ := h.stored who user now tokenHash hphase
      refine ⟨token, ?_, hminted⟩
      rcases hm.kept hknows htoken with hkept | hhas | ⟨hheld, -, -⟩
      · exact hkept
      · have hother : StandsAs pool.shared user false := by
          have := h.knows who
          rwa [hphase] at this
        exact absurd (hminted.2.1 ▸ hhas) hother.no_password
      · refine absurd ?_ (h.apart event.1 who (Ne.symm hwho) token.tokenHash hheld)
        rw [hphase, hminted.1]
        rfl
  · exact fun i doc hdoc hpending hpassword =>
      covered_step h hguard hdoc hpending hpassword

end

/-- In every run whose requests take only spare tokens away, no account without a password waits for
its deletion without a restore token that lasts to the purge. -/
theorem no_lockout [DecidableEq ι] (lib : DeletionLib) (cfg : DeletionConfig)
    (pool : Pool ι DeletionPhase DeletionWorld) (events : List (ι × DeletionAnswer))
    (hdraws : Function.Injective fun n => lib.hashToken (lib.generateSecureToken n))
    (hunused : ∀ token ∈ pool.shared.tokens.docs, ∀ n, pool.shared.issued ≤ n →
      token.tokenHash ≠ lib.hashToken (lib.generateSecureToken n))
    (hidle : ∀ who, ∃ last, pool.agents who = .idle last) (hstart : NoLockout pool.shared)
    (hspare : Run.Guarded (Pool.step (DeletionPhase.move lib cfg)) (DiscardsSpare cfg) pool events) :
    ∀ t ∈ List.scanl (Pool.step (DeletionPhase.move lib cfg)) pool events, NoLockout t.shared := by
  intro t ht
  have hfree (who : ι) : (pool.agents who).held = none := by
    obtain ⟨last, hlast⟩ := hidle who
    rw [hlast]
    rfl
  have hkept : LinksKept lib cfg pool := by
    constructor
    · exact hunused
    · intro who tokenHash hheld
      cases (hfree who).symm.trans hheld
    · intro i j _ tokenHash hheld
      cases (hfree i).symm.trans hheld
    · intro who
      obtain ⟨last, hlast⟩ := hidle who
      rw [hlast]
      trivial
    · intro who user now tokenHash hphase
      obtain ⟨last, hlast⟩ := hidle who
      rw [hlast] at hphase
      cases hphase
    · intro i doc hdoc hpending hpassword
      obtain ⟨token, htoken, hcovers⟩ :=
        hstart doc (lookup_eq_some_iff.1 hdoc).1 hpending hpassword
      refine ⟨token, htoken, hcovers, fun who hheld => ?_⟩
      cases (hfree who).symm.trans hheld
  exact (Run.forall_mem_scanl (fun pool event h hguard => linksKept_step hdraws h hguard) hkept
    hspare t ht).noLockout

/-- Tokens that grow, and are stored as they are. -/
def growingTokens : DeletionLib where
  generateSecureToken n := String.ofList (List.replicate n 't')
  hashToken := id
  verifyPassword password passwordHash := password = passwordHash

theorem injective_growingTokens :
    Function.Injective fun n => growingTokens.hashToken (growingTokens.generateSecureToken n) := by
  intro m n h
  simpa [growingTokens] using congrArg String.length h

/-- An account that has signed in by a provider alone. -/
def providerAccount : UserDoc where
  id := 1
  email := "someone@example.com"

/-- Two requests that have not begun. -/
def twoRequests : Pool Bool DeletionPhase DeletionWorld where
  agents _ := .idle none
  shared := { users := .single providerAccount, tokens := .empty, clock := 0, issued := 0 }

/-- Both are made at once, and the turn of the one that comes too late fails as well. -/
def bothRequested : List (Bool × DeletionAnswer) :=
  [(true, ⟨0, .request 1 none (some "someone@example.com")⟩),
    (false, ⟨0, .request 1 none (some "someone@example.com")⟩),
    (true, ⟨0, .go⟩), (false, ⟨1, .go⟩), (true, ⟨0, .go⟩), (false, ⟨0, .go⟩), (true, ⟨0, .go⟩),
    (false, ⟨0, .failBefore⟩), (false, ⟨0, .go⟩)]

theorem no_lockout_bothRequested :
    NoLockout twoRequests.shared ∧
    ∀ t ∈ List.scanl (Pool.step (DeletionPhase.move growingTokens {})) twoRequests bothRequested,
      NoLockout t.shared :=
  ⟨by decide, no_lockout _ _ _ _ injective_growingTokens (fun _ h => (List.not_mem_nil h).elim)
    (fun _ => ⟨none, rfl⟩) (by decide) (by decide +kernel)⟩

/-- The turn takes effect and is reported as failed, and the token goes. -/
theorem lockout_turnUnreported :
    ∃ t ∈ List.scanl (Pool.step (DeletionPhase.move growingTokens {})) twoRequests
      [(true, ⟨0, .request 1 none (some "someone@example.com")⟩), (true, ⟨0, .go⟩), (true, ⟨0, .go⟩),
        (true, ⟨0, .failAfter⟩), (true, ⟨0, .go⟩)], ¬ NoLockout t.shared := by
  decide +kernel

end Spoo
