import Spoo.Services.OauthService

/-!
# Ways to sign in

The guard of `unlink_provider` is asked about an account that was read before, and what it has found out
holds until another call writes the account. Whether there was anything to unlink is not asked at all.
-/

namespace Spoo

open Agents Mongo Mongo.Collection OAuthService

variable {ι : Type}

/-- A password, or a linked provider. -/
def UserDoc.CanSignIn (user : UserDoc) : Prop := user.passwordSet = true ∨ user.authProviders ≠ []

instance (user : UserDoc) : Decidable user.CanSignIn := inferInstanceAs (Decidable (_ ∨ _))

/-- The provider is linked to the account. -/
def UserDoc.isLinked (user : UserDoc) (providerName : String) : Bool :=
  user.authProviders.any (·.provider.value = providerName)

/-- How a call was answered, and how the account was when that was decided. -/
structure UnlinkReport where
  userId : ObjectId
  providerName : String
  linked : Bool
  changed : Bool
  outcome : Except UnlinkError Unit
  deriving DecidableEq

/-- The report of a call that is answered. -/
def unlinkReport (userId : ObjectId) (providerName : String) (s s' : AccountWorld)
    (outcome : Except UnlinkError Unit) : UnlinkReport where
  userId
  providerName
  linked := (s.users.lookup userId).any (·.isLinked providerName)
  changed := s.users.lookup userId ≠ s'.users.lookup userId
  outcome

/-- What a move adds to the reports. A call that the collection fails is not answered. -/
def recordReports (answer : UnlinkAnswer) (phase : UnlinkPhase) (s : AccountWorld)
    (moved : UnlinkPhase × AccountWorld) (reports : List UnlinkReport) : List UnlinkReport :=
  if answer.choice = .failBefore ∨ answer.choice = .failAfter then reports
  else match phase, moved.1 with
    | .finding userId providerName, .idle (some outcome) =>
      unlinkReport userId providerName s moved.2 outcome :: reports
    | .updating userId providerName, .idle (some outcome) =>
      unlinkReport userId providerName s moved.2 outcome :: reports
    | _, _ => reports

/-- The account that a move pulls a provider from, as it is stored. -/
def pulledFrom (userId : ObjectId) (choice : UnlinkChoice) (phase : UnlinkPhase) (users : UserStore) :
    Option (UserDoc × String) :=
  match phase with
  | .updating user providerName =>
    if user = userId ∧ choice ≠ .failBefore then (users.lookup user).map (·, providerName) else none
  | _ => none

/-- The call has read the account and not written it yet. -/
def UnlinkPhase.hasRead : UnlinkPhase → Bool
  | .updating .. => true
  | _ => false

/-- The reports, and which accounts have been written by others since a call read. -/
structure UnlinkHistory (ι : Type) where
  reports : List UnlinkReport := []
  unseen : Unseen ι ObjectId := fun _ _ => false

/-- What a move adds to the history. -/
def recordUnlink [DecidableEq ι] (who : ι) (answer : UnlinkAnswer) (phase : UnlinkPhase) (s : AccountWorld)
    (moved : UnlinkPhase × AccountWorld) (history : UnlinkHistory ι) : UnlinkHistory ι where
  reports := recordReports answer phase s moved history.reports
  unseen := history.unseen.after who (!phase.hasRead) fun userId =>
    (pulledFrom userId answer.choice phase s.users).isSome

/-- The user can sign in, and the calls for a provider that was not linked changed nothing and reported
that it was not found. -/
structure SignInKept (userId : ObjectId) (s : AccountWorld × List UnlinkReport) : Prop where
  method : ∀ user ∈ s.1.users.lookup userId, user.CanSignIn
  reports : ∀ report ∈ s.2, report.userId = userId → report.linked = false →
    report.changed = false ∧ (report.outcome = .error userNotFound ∨ report.outcome = .error notLinked)

instance (userId : ObjectId) (s : AccountWorld × List UnlinkReport) : Decidable (SignInKept userId s) :=
  decidable_of_iff ((∀ user ∈ s.1.users.lookup userId, user.CanSignIn) ∧
    ∀ report ∈ s.2, report.userId = userId → report.linked = false → report.changed = false ∧
      (report.outcome = .error userNotFound ∨ report.outcome = .error notLinked))
    ⟨fun h => ⟨h.1, h.2⟩, fun h => ⟨h.method, h.reports⟩⟩

/-- Where the user's account is written, a password or another provider is there, and unless the write
is reported as failed, so is the provider. -/
def SparesMethod (userId : ObjectId) (choice : UnlinkChoice) (phase : UnlinkPhase) (users : UserStore) :
    Prop :=
  ∀ pulled ∈ pulledFrom userId choice phase users,
    (pulled.1.passwordSet = true ∨ remaining pulled.1 pulled.2 ≠ []) ∧
      (choice ≠ .failAfter → pulled.1.isLinked pulled.2 = true)

/-- Where the user's account is written after another call has written it since this one read it, a
password or another provider is there. Where the write is not reported as failed, the provider is. -/
def PullsSpare (userId : ObjectId) (pool : Pool ι UnlinkPhase (AccountWorld × UnlinkHistory ι))
    (event : ι × UnlinkAnswer) : Prop :=
  ∀ pulled ∈ pulledFrom userId event.2.choice (pool.agents event.1) pool.shared.1.users,
    (pool.shared.2.unseen event.1 userId = true →
      pulled.1.passwordSet = true ∨ remaining pulled.1 pulled.2 ≠ []) ∧
    (event.2.choice ≠ .failAfter → pulled.1.isLinked pulled.2 = true)

instance (userId : ObjectId) (pool : Pool ι UnlinkPhase (AccountWorld × UnlinkHistory ι))
    (event : ι × UnlinkAnswer) : Decidable (PullsSpare userId pool event) :=
  inferInstanceAs (Decidable (∀ pulled ∈ pulledFrom userId event.2.choice _ _, (_ → _ ∨ _) ∧ (_ → _)))

/-! ## What a move does -/

/-- What a call can do. -/
inductive UnlinkMoved (s : AccountWorld) (reports : List UnlinkReport) (choice : UnlinkChoice) :
    UnlinkPhase → UserStore → List UnlinkReport → Prop
  | rests (phase : UnlinkPhase) (hphase : ∀ userId, pulledFrom userId choice phase s.users = none) :
      UnlinkMoved s reports choice phase s.users reports
  | misses (phase : UnlinkPhase) (report : UnlinkReport)
      (hphase : ∀ userId, pulledFrom userId choice phase s.users = none)
      (hunchanged : report.changed = false)
      (houtcome : report.outcome = .error userNotFound ∨ report.outcome = .error notLinked) :
      UnlinkMoved s reports choice phase s.users (report :: reports)
  | refuses (userId : ObjectId) (providerName : String) (user : UserDoc) (report : UnlinkReport)
      (huser : s.users.lookup userId = some user) (hpassword : user.passwordSet = false)
      (hremaining : remaining user providerName = []) (hid : report.userId = userId)
      (hlinked : report.linked = user.isLinked providerName) :
      UnlinkMoved s reports choice (.finding userId providerName) s.users (report :: reports)
  | pulls (userId : ObjectId) (providerName : String) (user : UserDoc)
      (huser : s.users.lookup userId = some user) (hchoice : choice = .failAfter) :
      UnlinkMoved s reports choice (.updating userId providerName)
        (s.users.updateOne userId (fun _ => true) (unlinkOps providerName s.clock)) reports
  | unlinks (userId : ObjectId) (providerName : String) (user : UserDoc) (report : UnlinkReport)
      (huser : s.users.lookup userId = some user)
      (hchoice : choice ≠ .failBefore ∧ choice ≠ .failAfter) (hid : report.userId = userId)
      (hlinked : report.linked = user.isLinked providerName) (houtcome : report.outcome = .ok ()) :
      UnlinkMoved s reports choice (.updating userId providerName)
        (s.users.updateOne userId (fun _ => true) (unlinkOps providerName s.clock)) (report :: reports)

theorem updateOne_of_lookup_eq_none {users : UserStore} {userId : ObjectId}
    (h : users.lookup userId = none) (ops : KeyedUpdate UserDoc) :
    users.updateOne userId (fun _ => true) ops = users := by
  apply updateOne_of_not_matches
  intro user huser
  cases h.symm.trans huser

theorem unlinkMoved_updating (answer : UnlinkAnswer) (userId : ObjectId)
    (providerName : String) (s : AccountWorld) (reports : List UnlinkReport) :
    UnlinkMoved (s.wait answer.delay) reports answer.choice (.updating userId providerName)
      (unlinkProvider answer.choice (.updating userId providerName) (s.wait answer.delay)).2.users
      (recordReports answer (.updating userId providerName) s
        (unlinkProvider answer.choice (.updating userId providerName) (s.wait answer.delay)) reports) := by
  obtain ⟨delay, choice⟩ := answer
  simp only [unlinkProvider, UserRepository.update]
  by_cases hbefore : choice = .failBefore
  · subst hbefore
    exact .rests _ fun user => by simp [pulledFrom]
  cases huser : s.users.lookup userId with
  | none =>
    have hwaited : (s.wait delay).users.lookup userId = none := huser
    have hphase (user : ObjectId) : pulledFrom user choice (.updating userId providerName)
        (s.wait delay).users = none := by
      simp [pulledFrom, hwaited]
    simp only [hbefore, if_false, hwaited, updateOne_of_lookup_eq_none hwaited, Option.isSome_none,
      Bool.false_eq_true]
    split_ifs with hafter
    · subst hafter
      exact .rests _ hphase
    · simp only [recordReports, hbefore, hafter, or_self, if_false]
      refine .misses _ _ hphase ?_ (.inr rfl)
      simp [unlinkReport, AccountWorld.wait]
  | some user =>
    have hwaited : (s.wait delay).users.lookup userId = some user := huser
    simp only [hbefore, if_false, hwaited, Option.isSome_some, if_true]
    split_ifs with hafter
    · subst hafter
      exact .pulls userId providerName user hwaited rfl
    · simp only [recordReports, hbefore, hafter, or_self, if_false]
      exact .unlinks userId providerName user _ hwaited ⟨hbefore, hafter⟩ rfl
        (congrArg (Option.any _) huser) rfl

theorem unlinkMoved_move (answer : UnlinkAnswer) (phase : UnlinkPhase) (s : AccountWorld)
    (reports : List UnlinkReport) :
    UnlinkMoved (s.wait answer.delay) reports answer.choice phase
      (unlinkProvider answer.choice phase (s.wait answer.delay)).2.users
      (recordReports answer phase s (unlinkProvider answer.choice phase (s.wait answer.delay)) reports) := by
  cases phase with
  | idle last =>
    obtain ⟨delay, choice⟩ := answer
    cases choice <;> exact .rests _ fun _ => rfl
  | updating userId providerName => exact unlinkMoved_updating answer userId providerName s reports
  | finding userId providerName =>
    obtain ⟨delay, choice⟩ := answer
    have hphase (user : ObjectId) : pulledFrom user choice (.finding userId providerName)
        (s.wait delay).users = none := rfl
    simp only [unlinkProvider]
    split_ifs with hfail
    · simp only [recordReports, hfail, if_true]
      exact .rests _ hphase
    · simp only [recordReports, hfail, if_false]
      split
      · refine .misses _ _ hphase ?_ (.inl rfl)
        simp [unlinkReport, AccountWorld.wait]
      · rename_i user huser
        split_ifs with hlast
        · exact .refuses userId providerName user _ huser hlast.1 (List.length_eq_zero_iff.1 hlast.2) rfl
            (congrArg (Option.any _) huser)
        · exact .rests _ hphase

/-! ## Runs -/

section

variable {s : AccountWorld} {reports reports' : List UnlinkReport} {choice : UnlinkChoice}
  {phase : UnlinkPhase} {users' : UserStore} {userId : ObjectId} {clock : Int}

theorem SignInKept.cons (h : SignInKept userId (s, reports)) {report : UnlinkReport}
    (hreport : report.userId = userId → report.linked = false → report.changed = false ∧
      (report.outcome = .error userNotFound ∨ report.outcome = .error notLinked)) :
    SignInKept userId (s, report :: reports) where
  method := h.method
  reports := by
    intro other hother
    rcases List.mem_cons.1 hother with rfl | hother
    · exact hreport
    · exact h.reports other hother

/-- What is left of an account that a provider is pulled from can sign in, if there is a password or
another provider. -/
theorem canSignIn_unlinkOps {user : UserDoc} {providerName : String} {now : Int} :
    ((unlinkOps providerName now).apply user).CanSignIn ↔
      user.passwordSet = true ∨ remaining user providerName ≠ [] := Iff.rfl

theorem canSignIn_of_unlinkOps {user : UserDoc} {providerName : String} {now : Int}
    (h : ((unlinkOps providerName now).apply user).CanSignIn) : user.CanSignIn := by
  rcases h with hpassword | hremaining
  · exact .inl hpassword
  · refine .inr fun hnone => hremaining ?_
    show remaining user providerName = []
    rw [remaining, hnone]
    rfl

/-- An account whose providers are all of one name has that provider, if it has any. -/
theorem isLinked_of_remaining_eq_nil {user : UserDoc} {providerName : String}
    (h : remaining user providerName = []) (hsome : user.authProviders ≠ []) :
    user.isLinked providerName = true := by
  obtain ⟨entry, hentry⟩ := List.exists_mem_of_ne_nil _ hsome
  have hname := List.filter_eq_nil_iff.1 h entry hentry
  exact List.any_eq_true.2 ⟨entry, hentry, by simpa using hname⟩

theorem pulledFrom_updating {users : UserStore} {providerName : String} {user : UserDoc}
    (huser : users.lookup userId = some user) (hchoice : choice ≠ .failBefore) :
    pulledFrom userId choice (.updating userId providerName) users = some (user, providerName) := by
  simp [pulledFrom, hchoice, huser]

/-- A write to another account spares the user. -/
theorem sparesMethod_of_ne {users : UserStore} {id : ObjectId} {providerName : String}
    (hid : id ≠ userId) : SparesMethod userId choice (.updating id providerName) users := by
  intro pulled hpulled
  simp [pulledFrom, hid] at hpulled

theorem lookup_unlinkOps {users : UserStore} {user : UserDoc}
    (huser : users.lookup userId = some user) (providerName : String) (now : Int) :
    (users.updateOne userId (fun _ => true) (unlinkOps providerName now)).lookup userId =
      some ((unlinkOps providerName now).apply user) := by
  rw [lookup_updateOne_self, huser]
  rfl

/-- A pull from the user leaves a method where there is a password or another provider. -/
theorem SignInKept.pull {user : UserDoc} {providerName : String} (h : SignInKept userId (s, reports))
    (huser : s.users.lookup userId = some user)
    (hleft : user.passwordSet = true ∨ remaining user providerName ≠ []) :
    SignInKept userId
      (⟨s.users.updateOne userId (fun _ => true) (unlinkOps providerName s.clock), clock⟩, reports) := by
  refine ⟨fun now hstored => ?_, h.reports⟩
  rw [lookup_unlinkOps huser providerName s.clock] at hstored
  cases hstored
  exact canSignIn_unlinkOps.2 hleft

/-- A pull from another account leaves the user as it is. -/
theorem SignInKept.pull_of_ne {id : ObjectId} {providerName : String} (h : SignInKept userId (s, reports))
    (hid : id ≠ userId) : SignInKept userId
      (⟨s.users.updateOne id (fun _ => true) (unlinkOps providerName s.clock), clock⟩, reports) := by
  refine ⟨?_, h.reports⟩
  rw [lookup_updateOne_of_ne _ _ _ (Ne.symm hid)]
  exact h.method

/-- What a move leaves the user of, exactly when it spares a method. -/
theorem UnlinkMoved.signInKept_iff (hm : UnlinkMoved s reports choice phase users' reports')
    (h : SignInKept userId (s, reports)) :
    SignInKept userId (⟨users', clock⟩, reports') ↔ SparesMethod userId choice phase s.users := by
  have hsame : SignInKept userId (⟨s.users, clock⟩, reports) := ⟨h.method, h.reports⟩
  cases hm with
  | rests _ hphase =>
    refine iff_of_true hsame ?_
    intro pulled hpulled
    rw [hphase userId] at hpulled
    cases hpulled
  | misses _ report hphase hunchanged houtcome =>
    refine iff_of_true (hsame.cons fun _ _ => ⟨hunchanged, houtcome⟩) ?_
    intro pulled hpulled
    rw [hphase userId] at hpulled
    cases hpulled
  | refuses id providerName user report huser hpassword hremaining hid hlinked =>
    refine iff_of_true (hsame.cons fun hreport hnot => ?_) (fun pulled hpulled => by cases hpulled)
    -- The guard only refuses a provider that is linked.
    have hsome : user.authProviders ≠ [] := by
      refine (h.method user ?_).resolve_left (by simp [hpassword])
      rw [← hreport, hid]
      exact huser
    rw [hlinked, isLinked_of_remaining_eq_nil hremaining hsome] at hnot
    cases hnot
  | pulls id providerName user huser hchoice =>
    subst hchoice
    by_cases hid : id = userId
    · subst hid
      have hnow := lookup_unlinkOps huser providerName s.clock
      constructor
      · intro hafter pulled hpulled
        rw [pulledFrom_updating huser (by simp)] at hpulled
        cases hpulled
        exact ⟨canSignIn_unlinkOps.1 (hafter.method _ hnow), fun hne => absurd rfl hne⟩
      · intro hspares
        have hspared := hspares _ (pulledFrom_updating huser (by simp))
        exact h.pull huser hspared.1
    · exact iff_of_true (h.pull_of_ne hid) (sparesMethod_of_ne hid)
  | unlinks id providerName user report huser hchoice hreport hlinked houtcome =>
    by_cases hid : id = userId
    · subst hid
      have hnow := lookup_unlinkOps huser providerName s.clock
      constructor
      · intro hafter pulled hpulled
        rw [pulledFrom_updating huser hchoice.1] at hpulled
        cases hpulled
        refine ⟨canSignIn_unlinkOps.1 (hafter.method _ hnow), fun _ => ?_⟩
        -- An update that matches reports success, whether or not there was anything to pull.
        have hfound := hafter.reports report List.mem_cons_self hreport
        rw [houtcome] at hfound
        simpa [hlinked] using hfound
      · intro hspares
        have hspared := hspares _ (pulledFrom_updating huser hchoice.1)
        refine (h.pull huser hspared.1).cons fun _ hnot => ?_
        rw [hlinked, hspared.2 hchoice.2] at hnot
        cases hnot
    · refine iff_of_true ((h.pull_of_ne hid).cons fun hsame => ?_) (sparesMethod_of_ne hid)
      exact absurd (hreport.symm.trans hsame) hid

/-- What is lost is not regained by unlinking. -/
theorem UnlinkMoved.signInKept_of (hm : UnlinkMoved s reports choice phase users' reports')
    (h : SignInKept userId (⟨users', clock⟩, reports')) : SignInKept userId (s, reports) := by
  have hback {id : ObjectId} {providerName : String} {user : UserDoc}
      (huser : s.users.lookup id = some user)
      (hafter : ∀ now ∈ (s.users.updateOne id (fun _ => true)
        (unlinkOps providerName s.clock)).lookup userId, now.CanSignIn) :
      ∀ now ∈ s.users.lookup userId, now.CanSignIn := by
    intro now hstored
    by_cases hid : id = userId
    · subst hid
      rw [huser] at hstored
      cases hstored
      exact canSignIn_of_unlinkOps (hafter _ (lookup_unlinkOps huser _ _))
    · rw [lookup_updateOne_of_ne _ _ _ (Ne.symm hid)] at hafter
      exact hafter now hstored
  have htail {report : UnlinkReport} (hall : ∀ each ∈ report :: reports, each.userId = userId →
      each.linked = false → each.changed = false ∧
        (each.outcome = .error userNotFound ∨ each.outcome = .error notLinked)) :
      ∀ each ∈ reports, each.userId = userId → each.linked = false → each.changed = false ∧
        (each.outcome = .error userNotFound ∨ each.outcome = .error notLinked) :=
    fun each heach => hall each (List.mem_cons_of_mem _ heach)
  cases hm with
  | rests => exact ⟨h.method, h.reports⟩
  | misses => exact ⟨h.method, htail h.reports⟩
  | refuses => exact ⟨h.method, htail h.reports⟩
  | pulls id providerName user huser => exact ⟨hback huser h.method, h.reports⟩
  | unlinks id providerName user report huser => exact ⟨hback huser h.method, htail h.reports⟩

end

/-! ## What a call has read -/

/-- What a call that is about to write has found out of the account. -/
def GuardHolds (userId : ObjectId) (phase : UnlinkPhase) (s : AccountWorld) : Prop :=
  ∀ providerName, phase = .updating userId providerName → ∀ user ∈ s.users.lookup userId,
    user.passwordSet = true ∨ remaining user providerName ≠ []

section

variable {choice : UnlinkChoice} {phase : UnlinkPhase} {s : AccountWorld} {userId : ObjectId}

theorem eq_updating_of_pulledFrom {users : UserStore} {pulled : UserDoc × String}
    (h : pulledFrom userId choice phase users = some pulled) :
    phase = .updating userId pulled.2 ∧ users.lookup userId = some pulled.1 := by
  cases phase with
  | updating id providerName =>
    simp only [pulledFrom, Option.ite_none_right_eq_some, Option.map_eq_some_iff] at h
    obtain ⟨⟨rfl, -⟩, user, huser, rfl⟩ := h
    exact ⟨rfl, huser⟩
  | _ => cases h

/-- A call goes on to its write where the account that it reads has a password or another provider. -/
theorem guardHolds_unlinkProvider :
    GuardHolds userId (unlinkProvider choice phase s).1 (unlinkProvider choice phase s).2 := by
  intro name hphase
  cases phase with
  | idle last => cases choice <;> cases hphase
  | updating id providerName =>
    simp only [unlinkProvider] at hphase
    split_ifs at hphase
  | finding id providerName =>
    simp only [unlinkProvider] at hphase ⊢
    split_ifs at hphase ⊢ with hfail
    split at hphase
    · cases hphase
    · rename_i found hfound
      split_ifs at hphase with hlast
      cases hphase
      intro user huser
      simp only [hfound, if_neg hlast, Option.mem_def, Option.some.injEq] at huser
      subst huser
      rw [not_and_or, Bool.not_eq_false, ← ne_eq, List.length_eq_zero_iff.ne] at hlast
      exact hlast

/-- A move that pulls nothing from an account leaves it as it is. -/
theorem lookup_unlinkProvider (h : pulledFrom userId choice phase s.users = none) :
    (unlinkProvider choice phase s).2.users.lookup userId = s.users.lookup userId := by
  cases phase with
  | idle last => cases choice <;> rfl
  | finding id providerName =>
    simp only [unlinkProvider]
    split_ifs
    · rfl
    · split
      · rfl
      · split_ifs <;> rfl
  | updating id providerName =>
    simp only [unlinkProvider, UserRepository.update]
    by_cases hbefore : choice = .failBefore
    · rw [if_pos hbefore]
    have hsame : (s.users.updateOne id (fun _ => true) (unlinkOps providerName s.clock)).lookup userId =
        s.users.lookup userId := by
      by_cases hid : id = userId
      · subst hid
        simp only [pulledFrom, hbefore, ne_eq, not_false_eq_true, and_self, if_true,
          Option.map_eq_none_iff] at h
        rw [updateOne_of_lookup_eq_none h]
      · exact lookup_updateOne_of_ne _ _ _ (Ne.symm hid)
    rw [if_neg hbefore]
    by_cases hfound : (s.users.lookup id).isSome = true
    · simp only [hfound, if_true]
      split_ifs <;> exact hsame
    · simp only [hfound]
      split_ifs <;> exact hsame

end

/-- What a call has found out holds where no write of another has gone unseen. -/
theorem relies_unlink [DecidableEq ι] (pool : Pool ι UnlinkPhase (AccountWorld × UnlinkHistory ι))
    (event : ι × UnlinkAnswer)
    (h : ∀ who, Relies GuardHolds pool.shared.2.unseen who (pool.agents who) pool.shared.1) (who : ι) :
    Relies GuardHolds (pool.step (recorded recordUnlink UnlinkPhase.move) event).shared.2.unseen who
      ((pool.step (recorded recordUnlink UnlinkPhase.move) event).agents who)
      (pool.step (recorded recordUnlink UnlinkPhase.move) event).shared.1 := by
  by_cases hwho : who = event.1
  · subst hwho
    rw [Pool.agents_step_same]
    exact (h event.1).after (fun _ key => guardHolds_unlinkProvider) fun key _ =>
      guardHolds_unlinkProvider
  · rw [Pool.agents_step_of_ne hwho]
    refine (h who).after_of_ne hwho fun key hwrites hguard name hphase user huser => ?_
    rw [Option.isSome_eq_false_iff, Option.isNone_iff_eq_none] at hwrites
    refine hguard name hphase user ?_
    exact (lookup_unlinkProvider (s := pool.shared.1.wait event.2.delay) hwrites).symm.trans huser

/-- A pull from an account that no other call has written since it was read spares a method. -/
theorem sparesMethod_iff_pullsSpare {pool : Pool ι UnlinkPhase (AccountWorld × UnlinkHistory ι)}
    {event : ι × UnlinkAnswer} {userId : ObjectId}
    (h : ∀ who, Relies GuardHolds pool.shared.2.unseen who (pool.agents who) pool.shared.1) :
    SparesMethod userId event.2.choice (pool.agents event.1) pool.shared.1.users ↔
      PullsSpare userId pool event := by
  constructor
  · intro hspares pulled hpulled
    have hpull := hspares pulled hpulled
    exact ⟨fun _ => hpull.1, hpull.2⟩
  · intro hspares pulled hpulled
    have hpull := hspares pulled hpulled
    refine ⟨?_, hpull.2⟩
    cases hunseen : pool.shared.2.unseen event.1 userId with
    | true => exact hpull.1 hunseen
    | false =>
      obtain ⟨hphase, huser⟩ := eq_updating_of_pulledFrom hpulled
      exact h event.1 userId hunseen pulled.2 hphase pulled.1 huser

/-- In every run of calls, the user keeps a way to sign in and every call for a provider that is not
linked reports so and changes nothing, exactly if every update that another one has overtaken finds a
password or another provider on the stored account, and every update finds the provider. -/
theorem signIn_kept_iff_spared [DecidableEq ι] (userId : ObjectId)
    (pool : Pool ι UnlinkPhase (AccountWorld × UnlinkHistory ι)) (events : List (ι × UnlinkAnswer))
    (hbegins : ∀ who, (pool.agents who).hasRead = false) (hreports : pool.shared.2.reports = [])
    (hstart : ∀ user ∈ pool.shared.1.users.lookup userId, user.CanSignIn) :
    let t := events.foldl (Pool.step (recorded recordUnlink UnlinkPhase.move)) pool
    SignInKept userId (t.shared.1, t.shared.2.reports) ↔
      Run.Guarded (Pool.step (recorded recordUnlink UnlinkPhase.move)) (PullsSpare userId) pool
        events := by
  have hspared : SignInKept userId
      ((events.foldl (Pool.step (recorded recordUnlink UnlinkPhase.move)) pool).shared.1,
        (events.foldl (Pool.step (recorded recordUnlink UnlinkPhase.move)) pool).shared.2.reports) ↔
      Run.Guarded (Pool.step (recorded recordUnlink UnlinkPhase.move)) (fun pool event =>
        SparesMethod userId event.2.choice (pool.agents event.1) pool.shared.1.users) pool events := by
    refine Run.foldl_iff (P := fun pool : Pool ι UnlinkPhase (AccountWorld × UnlinkHistory ι) =>
      SignInKept userId (pool.shared.1, pool.shared.2.reports)) (fun pool event h => ?_)
      (fun pool event h => ?_) ⟨hstart, ?_⟩
    · have hm := unlinkMoved_move event.2 (pool.agents event.1) pool.shared.1 pool.shared.2.reports
      have hwaited : SignInKept userId (pool.shared.1.wait event.2.delay, pool.shared.2.reports) :=
        ⟨h.method, h.reports⟩
      exact hm.signInKept_iff hwaited
    · have hm := unlinkMoved_move event.2 (pool.agents event.1) pool.shared.1 pool.shared.2.reports
      have hwaited : SignInKept userId (pool.shared.1.wait event.2.delay, pool.shared.2.reports) :=
        hm.signInKept_of h
      exact ⟨hwaited.method, hwaited.reports⟩
    · rw [hreports]
      exact fun report hreport => absurd hreport List.not_mem_nil
  refine hspared.trans (Run.guarded_congr relies_unlink (fun _ _ => sparesMethod_iff_pullsSpare)
    fun who key _ name hphase => ?_)
  have hread := hbegins who
  rw [hphase] at hread
  cases hread

/-- Two calls that have not begun, and an account with two providers and no password. -/
def twoProviders : Pool Bool UnlinkPhase (AccountWorld × UnlinkHistory Bool) where
  agents _ := .idle none
  shared := ({
    users := .single {
      id := 1
      email := "someone@example.com"
      authProviders := [⟨.google, "g123"⟩, ⟨.github, "h456"⟩] }
    clock := 0 }, {})

/-- The second call comes when the first has finished. -/
def unlinkedInTurn : List (Bool × UnlinkAnswer) :=
  [(true, ⟨0, .unlink 1 "google"⟩), (true, ⟨0, .go⟩), (true, ⟨0, .go⟩),
    (false, ⟨0, .unlink 1 "github"⟩), (false, ⟨0, .go⟩)]

theorem signIn_kept_unlinkedInTurn :
    let t := unlinkedInTurn.foldl (Pool.step (recorded recordUnlink UnlinkPhase.move)) twoProviders
    Run.Guarded (Pool.step (recorded recordUnlink UnlinkPhase.move)) (PullsSpare 1) twoProviders
      unlinkedInTurn ∧
    (SignInKept 1 (t.shared.1, t.shared.2.reports) ↔
      Run.Guarded (Pool.step (recorded recordUnlink UnlinkPhase.move)) (PullsSpare 1) twoProviders
        unlinkedInTurn) :=
  ⟨by decide +kernel, signIn_kept_iff_spared _ _ _ (fun _ => rfl) rfl (by decide +kernel)⟩

/-- Both calls are let pass on the account as it was, and no way to sign in is left. -/
theorem no_method_unlinkedAtOnce :
    let t := List.foldl (Pool.step (recorded recordUnlink UnlinkPhase.move)) twoProviders
      [(true, ⟨0, .unlink 1 "google"⟩), (false, ⟨0, .unlink 1 "github"⟩), (true, ⟨0, .go⟩),
        (false, ⟨0, .go⟩), (true, ⟨0, .go⟩), (false, ⟨0, .go⟩)]
    ¬ SignInKept 1 (t.shared.1, t.shared.2.reports) := by
  decide +kernel

end Spoo
