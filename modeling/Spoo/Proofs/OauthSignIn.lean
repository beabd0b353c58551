import Spoo.Proofs.OauthStates
import Spoo.Services.OauthService

/-!
# Whom a provider signs in

Tokens that a callback issues are for an identity that was linked to the account, and a link has one of three
reasons: the account was created with it, the provider has verified the e-mail of the account, or the e-mails are the
same and the state asked for the account. A state that asks for an account is one that a session of the account has
begun, or one that a sign-in has begun and whose destination asks for it behind an ampersand.
-/

namespace Spoo

open Agents Mongo Mongo.Collection OAuthService PyDict

variable {ι : Type} {lib : OauthLib} {cfg : OauthConfig}

/-! ## What a state asks for -/

/-- An authenticated request of the account has begun the flow, or the destination of a sign-in names the
account. -/
def OauthBegin.AsksFor (lib : OauthLib) (begun : OauthBegin) (userId : ObjectId) : Prop :=
  (∃ provider, begun = ⟨provider, .link, some userId, none⟩) ∨
    ∃ provider next text, begun = ⟨provider, .login, none, some next⟩ ∧ ("action", "link") ∈ smuggledItems next ∧
      ("user_id", text) ∈ smuggledItems next ∧ lib.objectId text = some userId

/-- The two ways to begin a flow. -/
def OauthBegin.Initiated (begun : OauthBegin) : Prop :=
  (∃ provider next, begun = ⟨provider, .login, none, next⟩) ∨
    ∃ provider userId, begun = ⟨provider, .link, some userId, none⟩

theorem mem_of_lastValue {κ α : Type} [DecidableEq κ] {items : List (κ × α)} {key : κ} {value : α}
    (h : lastValue items key = some value) : (key, value) ∈ items := by
  rw [lastValue, Option.map_eq_some_iff] at h
  obtain ⟨item, hfind, rfl⟩ := h
  have hkey : item.1 = key := by simpa using List.find?_some hfind
  rw [← hkey]
  exact List.mem_reverse.1 (List.mem_of_find?_eq_some hfind)

theorem lastValue_stateItems {begun : OauthBegin} {nonce : Nat} {now : Int} :
    lastValue (stateItems lib begun nonce now) "action" = some begun.action.value ∧
      lastValue (stateItems lib begun nonce now) "user_id" = begun.userId.map lib.objectIdText := by
  unfold stateItems
  cases begun.userId <;> simp [lastValue]

/-- A state that is read as asking for an account was begun for it, or its destination asks for it. -/
theorem asksFor_of_stateData (hlib : lib.Lawful) {begun : OauthBegin} {nonce : Nat} {now : Int} {state : List Char} {text : String}
    {userId : ObjectId} (hbegun : begun.Initiated) (hstate : state = generateOauthState lib begun nonce now)
    (haction : (stateData state).get? "action" = some "link")
    (huser : (stateData state).get? "user_id" = some text) (hid : lib.objectId text = some userId) :
    begun.AsksFor lib userId := by
  rw [hstate, stateData_generate hlib, get?_ofList_eq, lastValue_append,
    lastValue_intendedItems (by decide)] at haction huser
  rw [lastValue_stateItems.1] at haction
  rw [lastValue_stateItems.2] at huser
  rcases hbegun with ⟨provider, next, rfl⟩ | ⟨provider, asker, rfl⟩
  · cases hasked : OauthBegin.asked ⟨provider, .login, none, next⟩ with
    | none =>
      -- Nothing but what a sign-in is begun with is read.
      simp only [OauthBegin.smuggled, hasked] at haction
      exact absurd haction (by decide)
    | some place =>
      obtain rfl : next = some place := (Option.filter_eq_some_iff.1 hasked).1
      simp only [OauthBegin.smuggled, hasked, Option.map_some, Option.getD_some] at haction huser
      refine .inr ⟨provider, place, text, rfl, ?_, ?_, hid⟩
      · cases hlast : lastValue (smuggledItems place) "action" with
        | none =>
          rw [hlast] at haction
          exact absurd haction (by decide)
        | some value =>
          rw [hlast] at haction
          obtain rfl := Option.some.inj haction
          exact mem_of_lastValue hlast
      · rw [Option.map_none, Option.or_none] at huser
        exact mem_of_lastValue huser
  · have hlast : lastValue (OauthBegin.smuggled ⟨provider, .link, some asker, none⟩) "user_id" = none := rfl
    rw [hlast] at huser
    obtain rfl := Option.some.inj huser
    rw [hlib.objectId_text] at hid
    exact .inl ⟨provider, by rw [Option.some.inj hid]⟩

/-! ## Links and tokens -/

/-- The account was created with an e-mail that is the provider's but for the case. -/
def OauthWorld.SameEmail (lib : OauthLib) (s : OauthWorld) (userId : ObjectId) (info : ProviderInfo) : Prop :=
  ∃ email, (userId, email) ∈ s.accounts ∧ lib.lower email = lib.lower info.email

/-- A flow with this state was begun, and it asks for the account. -/
def OauthWorld.Asks (lib : OauthLib) (s : OauthWorld) (state : List Char) (userId : ObjectId) : Prop :=
  ∃ begun, (begun, state) ∈ s.flows ∧ begun.AsksFor lib userId

/-- The account has or had the identity. -/
def OauthWorld.Linked (s : OauthWorld) (userId : ObjectId) (entry : AuthProviderEntry) : Prop :=
  ∃ link ∈ s.links, link.userId = userId ∧ link.entry = entry

/-- Why an account has a provider. -/
def OauthLink.Justified (lib : OauthLib) (s : OauthWorld) (link : OauthLink) : Prop :=
  match link.path with
  | .created => (link.userId, link.info.email) ∈ s.accounts
  | .sameEmail => link.info.emailVerified = true ∧ s.SameEmail lib link.userId link.info
  | .asked state => s.SameEmail lib link.userId link.info ∧ s.Asks lib state link.userId

/-- What is true of the accounts and the tokens: an account keeps its e-mail, its providers were linked to it, the links
have their reasons, and tokens are for identities that were linked to the account. -/
structure OauthWorld.Accounted (lib : OauthLib) (s : OauthWorld) : Prop where
  known : ∀ user ∈ s.users.docs, (user.id, user.email) ∈ s.accounts
  once : (s.accounts.map Prod.fst).Nodup
  entries : ∀ user ∈ s.users.docs, ∀ entry ∈ user.authProviders, s.Linked user.id entry
  justified : ∀ link ∈ s.links, link.Justified lib s
  issued : ∀ issue ∈ s.issued, s.Linked issue.result.tokens.access.sub issue.entry ∧
    s.Linked issue.result.tokens.refresh.sub issue.entry

/-- With how ids are given out, and how flows are begun. -/
structure OauthWorld.Ok (lib : OauthLib) (s : OauthWorld) : Prop extends s.Accounted lib where
  bounded : ∀ account ∈ s.accounts, account.1 < s.accounts.length
  flows : ∀ flow ∈ s.flows, flow.1.Initiated ∧ ∃ nonce now, flow.2 = generateOauthState lib flow.1 nonce now

/-- What was written along stays. -/
structure OauthWorld.Grows (s s' : OauthWorld) : Prop where
  accounts : s.accounts ⊆ s'.accounts
  flows : s.flows ⊆ s'.flows
  links : s.links ⊆ s'.links

variable {s s' : OauthWorld} {userId : ObjectId} {info : ProviderInfo} {entry : AuthProviderEntry}
  {req : CallbackRequest} {state : List Char} {text : String} {user : UserDoc}

namespace OauthWorld

theorem Grows.refl (s : OauthWorld) : s.Grows s := ⟨List.Subset.refl _, List.Subset.refl _, List.Subset.refl _⟩

/-- Only the accounts are written to. -/
theorem grows_users (users : UserStore) : s.Grows { s with users } :=
  ⟨List.Subset.refl _, List.Subset.refl _, List.Subset.refl _⟩

theorem SameEmail.grows (h : s.SameEmail lib userId info) (hgrows : s.Grows s') : s'.SameEmail lib userId info :=
  h.imp fun _ hemail => ⟨hgrows.accounts hemail.1, hemail.2⟩

theorem Asks.grows (h : s.Asks lib state userId) (hgrows : s.Grows s') : s'.Asks lib state userId :=
  h.imp fun _ hflow => ⟨hgrows.flows hflow.1, hflow.2⟩

theorem Linked.grows (h : s.Linked userId entry) (hgrows : s.Grows s') : s'.Linked userId entry :=
  h.imp fun _ hlink => ⟨hgrows.links hlink.1, hlink.2⟩

end OauthWorld

theorem OauthLink.Justified.grows {link : OauthLink} (h : link.Justified lib s) (hgrows : s.Grows s') :
    link.Justified lib s' := by
  unfold OauthLink.Justified at h ⊢
  split at h
  · exact hgrows.accounts h
  · exact ⟨h.1, h.2.grows hgrows⟩
  · exact ⟨h.1.grows hgrows, h.2.grows hgrows⟩

/-! ## What a move does to the world -/

/-- Every account is one that was there, with no more providers. -/
def Shrinks (users users' : UserStore) : Prop :=
  ∀ user' ∈ users'.docs, ∃ user ∈ users.docs, user.id = user'.id ∧ user.email = user'.email ∧
    user'.authProviders ⊆ user.authProviders

theorem shrinks_updateOne {users : UserStore} {q : UserDoc → Bool} {ops : KeyedUpdate UserDoc}
    (h : ∀ user, (ops.apply user).authProviders ⊆ user.authProviders) :
    Shrinks users (users.updateOne userId q ops) := by
  intro user' huser'
  obtain ⟨user, huser, ⟨-, rfl⟩ | ⟨-, rfl⟩⟩ := mem_updateOne huser'
  · exact ⟨user, huser, (ops.id_apply user).symm, (ops.key_apply user).symm, h user⟩
  · exact ⟨user', huser, rfl, rfl, List.Subset.refl _⟩

theorem shrinks_deleteMany {users : UserStore} {q : UserDoc → Bool} : Shrinks users (users.deleteMany q) :=
  fun user huser => ⟨user, (List.mem_filter.1 huser).1, rfl, rfl, List.Subset.refl _⟩

theorem OauthWorld.Ok.shrinks (h : s.Ok lib) {users : UserStore} (hshrinks : Shrinks s.users users) :
    OauthWorld.Ok lib { s with users } where
  known user' huser' := by
    obtain ⟨user, huser, hid, hemail, -⟩ := hshrinks user' huser'
    rw [← hid, ← hemail]
    exact h.known user huser
  once := h.once
  entries user' huser' entry hentry := by
    obtain ⟨user, huser, hid, -, hsub⟩ := hshrinks user' huser'
    rw [← hid]
    exact h.entries user huser entry (hsub hentry)
  justified := h.justified
  issued := h.issued
  bounded := h.bounded
  flows := h.flows

/-- A pushed entry is a link. -/
theorem OauthWorld.Ok.linkProvider (h : s.Ok lib) {path : LinkPath} {matched : Bool}
    (hlink : OAuthService.linkProvider userId req path s = some (matched, s'))
    (hjust : OauthLink.Justified lib s ⟨userId, req.provider, req.info, path⟩) :
    s'.Ok lib ∧ s.Grows s' ∧ (matched = true → s'.Linked userId req.entry) := by
  unfold OAuthService.linkProvider at hlink
  split at hlink
  swap
  · cases hlink
  obtain ⟨hmatched, hs'⟩ := Prod.mk.inj (Option.some.inj hlink)
  rw [hmatched] at hs'
  cases matched with
  | false =>
    obtain rfl : s = s' := hs'
    exact ⟨h, .refl s, fun hfalse => by cases hfalse⟩
  | true =>
    obtain rfl := hs'
    have hgrows : s.Grows { s with
        users := s.users.updateOne userId (fun _ => true) (linkOps req s.clock)
        links := ⟨userId, req.provider, req.info, path⟩ :: s.links } :=
      ⟨List.Subset.refl _, List.Subset.refl _, List.subset_cons_self ..⟩
    have hnew : OauthWorld.Linked { s with
        users := s.users.updateOne userId (fun _ => true) (linkOps req s.clock)
        links := ⟨userId, req.provider, req.info, path⟩ :: s.links } userId req.entry :=
      ⟨_, List.mem_cons_self .., rfl, rfl⟩
    refine ⟨?_, hgrows, fun _ => hnew⟩
    constructor
    · constructor
      · intro user' huser'
        obtain ⟨user, huser, ⟨-, rfl⟩ | ⟨-, rfl⟩⟩ := mem_updateOne huser'
        · exact h.known user huser
        · exact h.known user' huser
      · exact h.once
      · intro user' huser' entry hentry
        obtain ⟨user, huser, ⟨⟨hid, -⟩, rfl⟩ | ⟨-, rfl⟩⟩ := mem_updateOne huser'
        · rcases List.mem_append.1 hentry with hold | hadded
          · exact (h.entries user huser entry hold).grows hgrows
          · rw [List.mem_singleton.1 hadded]
            change OauthWorld.Linked _ user.id _
            rw [show user.id = userId from hid]
            exact hnew
        · exact (h.entries user' huser entry hentry).grows hgrows
      · intro link hmem
        rcases List.mem_cons.1 hmem with rfl | hold
        · exact hjust.grows hgrows
        · exact (h.justified link hold).grows hgrows
      · exact fun issue hissue => ⟨(h.issued issue hissue).1.grows hgrows, (h.issued issue hissue).2.grows hgrows⟩
    · exact h.bounded
    · exact h.flows

/-- An account that is inserted has a new id, and was linked to the providers that it comes with. -/
theorem OauthWorld.Ok.insert (h : s.Ok lib) {users : UserStore} (created : List OauthLink)
    (hinsert : s.users.insertOne user = some users) (hid : user.id = s.accounts.length)
    (hcreated : ∀ link ∈ created, link.path = .created ∧ link.userId = user.id ∧ link.info.email = user.email)
    (hentries : ∀ entry ∈ user.authProviders, ∃ link ∈ created, link.userId = user.id ∧ link.entry = entry) :
    OauthWorld.Ok lib { s with
      users, accounts := (user.id, user.email) :: s.accounts, links := created ++ s.links } := by
  have hgrows : s.Grows { s with
      users, accounts := (user.id, user.email) :: s.accounts, links := created ++ s.links } :=
    ⟨List.subset_cons_self .., List.Subset.refl _, List.subset_append_right ..⟩
  have hdocs : users.docs = s.users.docs ++ [user] := (insertOne_eq_some hinsert).2.2
  have hnew : user.id ∉ s.accounts.map Prod.fst := by
    rw [List.mem_map]
    rintro ⟨account, hmem, heq⟩
    have hlt : account.1 < s.accounts.length := h.bounded account hmem
    rw [heq, hid] at hlt
    exact lt_irrefl _ hlt
  constructor
  · constructor
    · intro other hother
      rw [hdocs, List.mem_append, List.mem_singleton] at hother
      rcases hother with hold | rfl
      · exact hgrows.accounts (h.known other hold)
      · exact List.mem_cons_self ..
    · exact List.nodup_cons.2 ⟨hnew, h.once⟩
    · intro other hother entry hentry
      rw [hdocs, List.mem_append, List.mem_singleton] at hother
      rcases hother with hold | rfl
      · exact (h.entries other hold entry hentry).grows hgrows
      · exact (hentries entry hentry).imp fun link hlink => ⟨List.mem_append_left _ hlink.1, hlink.2⟩
    · intro link hlink
      rcases List.mem_append.1 hlink with hfresh | hold
      · obtain ⟨hpath, huser, hemail⟩ := hcreated link hfresh
        rw [OauthLink.Justified, hpath, huser, hemail]
        exact List.mem_cons_self ..
      · exact (h.justified link hold).grows hgrows
    · exact fun issue hissue => ⟨(h.issued issue hissue).1.grows hgrows, (h.issued issue hissue).2.grows hgrows⟩
  · intro account hmem
    rw [List.length_cons]
    rcases List.mem_cons.1 hmem with rfl | hold
    · exact Nat.lt_succ_of_le (le_of_eq hid)
    · exact Nat.lt_succ_of_lt (h.bounded account hold)
  · exact h.flows

theorem exists_of_insertUser (h : insertUser user s = some s') : ∃ users, s.users.insertOne user = some users ∧
    s' = { s with users, accounts := (user.id, user.email) :: s.accounts } := by
  unfold insertUser at h
  split at h
  · rw [Option.map_eq_some_iff] at h
    exact h.imp fun users husers => ⟨husers.1, husers.2.symm⟩
  · cases h

theorem OauthWorld.Ok.createOauthUser (h : s.Ok lib) (hcreate : OAuthService.createOauthUser req s = some s') :
    s'.Ok lib ∧ s.Grows s' ∧ s'.Linked s.accounts.length req.entry := by
  rw [OAuthService.createOauthUser, Option.map_eq_some_iff] at hcreate
  obtain ⟨s'', hinsert, rfl⟩ := hcreate
  obtain ⟨users, husers, rfl⟩ := exists_of_insertUser hinsert
  refine ⟨?_, ⟨List.subset_cons_self .., List.Subset.refl _, List.subset_cons_self ..⟩,
    _, List.mem_cons_self .., rfl, rfl⟩
  refine h.insert [⟨s.accounts.length, req.provider, req.info, .created⟩] husers rfl ?_ ?_
  · intro link hlink
    rw [List.mem_singleton.1 hlink]
    exact ⟨rfl, rfl, rfl⟩
  · intro entry hentry
    rw [List.mem_singleton.1 hentry]
    exact ⟨_, List.mem_singleton_self _, rfl, rfl⟩

variable (cfg s) in
/-- A registration is refused, or inserts an account without providers. -/
theorem run_register (email passwordHash : String) : (AccountWrite.register email passwordHash).run cfg s = s ∨
    ∃ users, s.users.insertOne
        { id := s.accounts.length, email, passwordHash := some passwordHash, passwordSet := true } = some users ∧
      (AccountWrite.register email passwordHash).run cfg s =
        { s with users, accounts := (s.accounts.length, email) :: s.accounts } := by
  simp only [AccountWrite.run]
  cases hinsert : insertUser _ s with
  | none => exact .inl rfl
  | some s' => exact .inr (exists_of_insertUser hinsert)

theorem OauthWorld.Ok.write (h : s.Ok lib) (write : AccountWrite) : (write.run cfg s).Ok lib := by
  cases write with
  | register email passwordHash =>
    rcases run_register cfg s email passwordHash with heq | ⟨users, husers, heq⟩
    · rw [heq]
      exact h
    · rw [heq]
      exact h.insert [] husers rfl (fun _ hlink => absurd hlink List.not_mem_nil)
        fun _ hentry => (List.not_mem_nil hentry).elim
  | verifyEmail userId => exact h.shrinks (shrinks_updateOne fun _ => List.Subset.refl _)
  | setPassword userId passwordHash => exact h.shrinks (shrinks_updateOne fun _ => List.Subset.refl _)
  | unlink userId providerName => exact h.shrinks (shrinks_updateOne fun user => List.filter_subset_self _)
  | markPendingDeletion userId => exact h.shrinks (shrinks_updateOne fun _ => List.Subset.refl _)
  | claimForErasure userId => exact h.shrinks (shrinks_updateOne fun _ => List.Subset.refl _)
  | restore userId => exact h.shrinks (shrinks_updateOne fun _ => List.Subset.refl _)
  | deleteHard userId => exact h.shrinks shrinks_deleteMany

theorem grows_write (write : AccountWrite) : s.Grows (write.run cfg s) := by
  cases write with
  | register email passwordHash =>
    rcases run_register cfg s email passwordHash with heq | ⟨users, -, heq⟩
    · rw [heq]
      exact .refl s
    · rw [heq]
      exact ⟨List.subset_cons_self .., List.Subset.refl _, List.Subset.refl _⟩
  | _ => exact OauthWorld.grows_users _

/-- A flow is begun, in one of the two ways. -/
theorem OauthWorld.Ok.initiate (h : s.Ok lib) {begun : OauthBegin} (nonce : Nat) (hbegun : begun.Initiated) :
    (OAuthService.initiate lib begun nonce s).Ok lib ∧ s.Grows (OAuthService.initiate lib begun nonce s) := by
  have hgrows : s.Grows (OAuthService.initiate lib begun nonce s) :=
    ⟨List.Subset.refl _, List.subset_cons_self .., List.Subset.refl _⟩
  refine ⟨⟨⟨h.known, h.once, h.entries, fun link hlink => (h.justified link hlink).grows hgrows, h.issued⟩,
    h.bounded, fun flow hflow => ?_⟩, hgrows⟩
  rcases List.mem_cons.1 hflow with rfl | hold
  · exact ⟨hbegun, nonce, s.clock, rfl⟩
  · exact h.flows flow hold

/-! ## The moves of a callback -/

/-- What a callback has made sure of by where it stands. -/
def CallbackPhase.Assured (lib : OauthLib) (phase : CallbackPhase) (s : OauthWorld) : Prop :=
  match phase with
  | .linkFinding req _ userId => s.Asks lib req.state userId
  | .linkOwner req _ user => s.Asks lib req.state user.id ∧ (user.id, user.email) ∈ s.accounts
  | .linking req userId => s.Asks lib req.state userId ∧ s.SameEmail lib userId req.info
  | .autoLinking req userId => req.info.emailVerified = true ∧ s.SameEmail lib userId req.info
  | .touching req user => s.Linked user.id req.entry
  | .reloading req userId _ => s.Linked userId req.entry
  | _ => True

theorem CallbackPhase.Assured.grows {phase : CallbackPhase} (h : phase.Assured lib s) (hgrows : s.Grows s') :
    phase.Assured lib s' := by
  cases phase with
  | linkFinding req text userId => exact OauthWorld.Asks.grows h hgrows
  | linkOwner req text user => exact ⟨h.1.grows hgrows, hgrows.accounts h.2⟩
  | linking req userId => exact ⟨h.1.grows hgrows, h.2.grows hgrows⟩
  | autoLinking req userId => exact ⟨h.1, h.2.grows hgrows⟩
  | touching req user => exact OauthWorld.Linked.grows h hgrows
  | reloading req userId isNew => exact OauthWorld.Linked.grows h hgrows
  | _ => trivial

/-- A move keeps the accounts in order and takes nothing back, and makes sure of what its next phase needs. -/
structure Advances (lib : OauthLib) (s : OauthWorld) (moved : CallbackPhase × OauthWorld) : Prop where
  ok : moved.2.Ok lib
  grows : s.Grows moved.2
  assured : moved.1.Assured lib moved.2

/-- A move that reads. -/
theorem OauthWorld.Ok.reads {phase : CallbackPhase} (h : s.Ok lib) (hassured : phase.Assured lib s) :
    Advances lib s (phase, s) := ⟨h, .refl s, hassured⟩

theorem OauthWorld.Ok.issue (h : s.Ok lib) {isNew : Bool} (hlinked : s.Linked user.id req.entry) :
    Advances lib s (OAuthService.issue cfg req user isNew s) where
  ok := {
    known := h.known
    once := h.once
    entries := h.entries
    justified := h.justified
    issued := by
      intro issue hissue
      rcases List.mem_cons.1 hissue with rfl | hold
      · exact ⟨hlinked, hlinked⟩
      · exact h.issued issue hold
    bounded := h.bounded
    flows := h.flows }
  grows := ⟨List.Subset.refl _, List.Subset.refl _, List.Subset.refl _⟩
  assured := trivial

theorem advances_linking (h : s.Ok lib) {path : LinkPath} {failure : String} {choice : OauthChoice}
    (hjust : OauthLink.Justified lib s ⟨userId, req.provider, req.info, path⟩) :
    Advances lib s (linking choice req userId path failure s) := by
  unfold linking
  split
  · exact h.reads trivial
  split
  · exact h.reads trivial
  rename_i matched s' hlink
  obtain ⟨hok, hgrows, hlinked⟩ := h.linkProvider hlink hjust
  split
  · exact ⟨hok, hgrows, trivial⟩
  split
  · rename_i hmatched
    exact ⟨hok, hgrows, hlinked hmatched⟩
  · exact ⟨hok, hgrows, trivial⟩

theorem advances_creating (h : s.Ok lib) {choice : OauthChoice} : Advances lib s (creating choice req s) := by
  unfold creating
  split
  · exact h.reads trivial
  split
  · exact h.reads trivial
  rename_i s' hcreate
  obtain ⟨hok, hgrows, hlinked⟩ := h.createOauthUser hcreate
  split
  · exact ⟨hok, hgrows, trivial⟩
  · exact ⟨hok, hgrows, hlinked⟩

/-- Who is found by a provider's user has it as a link. -/
theorem linked_of_findByOauthProvider (h : s.Ok lib)
    (hfind : UserRepository.findByOauthProvider s.users entry = some user) : s.Linked user.id entry := by
  have hmem : user ∈ s.users.docs := List.mem_of_find?_eq_some hfind
  have hany := List.find?_some hfind
  obtain ⟨other, hother, heq⟩ := List.any_eq_true.1 hany
  rw [decide_eq_true_eq] at heq
  exact heq ▸ h.entries user hmem other hother

theorem advances_finding (h : s.Ok lib) : Advances lib s (finding req s) := by
  unfold finding
  split
  · rename_i user hfind
    split
    · exact h.reads trivial
    · exact h.reads (linked_of_findByOauthProvider h hfind)
  · split <;> exact h.reads trivial

theorem advances_findingEmail (h : s.Ok lib) : Advances lib s (findingEmail lib req s) := by
  unfold findingEmail
  split
  · exact h.reads trivial
  rename_i user hfind
  split
  · rename_i hauto
    split
    · exact h.reads trivial
    · simp only [canAutoLink, Bool.and_eq_true, decide_eq_true_eq] at hauto
      exact h.reads ⟨hauto.1.1, user.email, h.known user (List.mem_of_find?_eq_some hfind), hauto.1.2⟩
  · exact h.reads trivial

theorem advances_linkFinding (h : s.Ok lib) (hasks : s.Asks lib req.state userId) :
    Advances lib s (linkFinding req text userId s) := by
  unfold linkFinding
  split
  · exact h.reads trivial
  rename_i user hlookup
  obtain ⟨hmem, rfl⟩ := lookup_eq_some_iff.1 hlookup
  split
  · exact h.reads trivial
  split
  · exact h.reads trivial
  · exact h.reads ⟨hasks, h.known user hmem⟩

theorem advances_linkOwner (h : s.Ok lib) (hasks : s.Asks lib req.state user.id)
    (hknown : (user.id, user.email) ∈ s.accounts) : Advances lib s (linkOwner lib req text user s) := by
  unfold linkOwner
  split
  · exact h.reads trivial
  split
  · exact h.reads trivial
  · rename_i hemail
    exact h.reads ⟨hasks, user.email, hknown, Classical.not_not.1 hemail⟩

theorem advances_handleCallback (hlib : lib.Lawful) (h : s.Ok lib) (hflow : s.flows.any (·.2 = req.state) = true) :
    Advances lib s (handleCallback lib req s) := by
  unfold handleCallback
  split
  swap
  · exact h.reads trivial
  rename_i haction
  split
  · exact h.reads trivial
  split
  · exact h.reads trivial
  rename_i text htext
  split
  · exact h.reads trivial
  rename_i userId hid
  obtain ⟨flow, hmem, hstate⟩ := List.any_eq_true.1 hflow
  obtain ⟨hbegun, nonce, now, hgenerated⟩ := h.flows flow hmem
  have hlink : (stateData req.state).get? "action" = some "link" := by
    cases hget : req.data.get? "action" with
    | none =>
      rw [hget] at haction
      exact absurd haction (by decide)
    | some value =>
      rw [hget] at haction
      exact hget.trans (congrArg some haction)
  rw [decide_eq_true_eq] at hstate
  refine h.reads ⟨flow.1, hstate ▸ hmem, ?_⟩
  exact asksFor_of_stateData hlib hbegun (hstate ▸ hgenerated) hlink (Option.filter_eq_some_iff.1 htext).1 hid

theorem advances_oauthCallback (hlib : lib.Lawful) (h : s.Ok lib) {provider : OAuthProvider} {reply : ProviderReply} :
    Advances lib s (oauthCallback lib provider state reply s) := by
  unfold oauthCallback
  split
  · exact h.reads trivial
  split
  · exact h.reads trivial
  split
  · exact h.reads trivial
  · exact h.reads trivial
  split
  · rename_i hflow
    exact advances_handleCallback hlib h hflow
  · exact h.reads trivial

theorem advances_move (hlib : lib.Lawful) (h : s.Ok lib) {answer : OauthAnswer} {phase : CallbackPhase}
    (hassured : phase.Assured lib s) : Advances lib s (OAuthService.move lib cfg answer phase s) := by
  have hfails {read : CallbackPhase × OauthWorld} (hread : Advances lib s read) :
      Advances lib s (if answer.choice.fails then crash s else read) := by
    split
    · exact h.reads trivial
    · exact hread
  cases phase with
  | idle last =>
    cases hchoice : answer.choice with
    | login provider next =>
      have := h.initiate answer.nonce (.inl ⟨provider, next, rfl⟩)
      simp only [OAuthService.move, hchoice]
      exact ⟨this.1, this.2, trivial⟩
    | link provider userId =>
      have := h.initiate answer.nonce (.inr ⟨provider, userId, rfl⟩)
      simp only [OAuthService.move, hchoice]
      exact ⟨this.1, this.2, trivial⟩
    | callback provider state reply =>
      simp only [OAuthService.move, hchoice]
      exact advances_oauthCallback hlib h
    | write write =>
      simp only [OAuthService.move, hchoice]
      exact ⟨h.write write, grows_write write, trivial⟩
    | go =>
      simp only [OAuthService.move, hchoice]
      exact h.reads trivial
    | failBefore =>
      simp only [OAuthService.move, hchoice]
      exact h.reads trivial
    | failAfter =>
      simp only [OAuthService.move, hchoice]
      exact h.reads trivial
  | linkFinding req text userId => exact hfails (advances_linkFinding h hassured)
  | linkOwner req text user => exact hfails (advances_linkOwner h hassured.1 hassured.2)
  | linking req userId => exact advances_linking h ⟨hassured.2, hassured.1⟩
  | finding req => exact hfails (advances_finding h)
  | touching req user => exact h.issue hassured
  | findingEmail req => exact hfails (advances_findingEmail h)
  | autoLinking req userId => exact advances_linking h hassured
  | creating req => exact advances_creating h
  | reloading req userId isNew =>
    refine hfails ?_
    unfold reloading
    split
    · exact h.reads trivial
    · rename_i user hlookup
      obtain ⟨-, rfl⟩ := lookup_eq_some_iff.1 hlookup
      exact h.issue hassured

/-! ## Runs -/

theorem OauthWorld.Ok.wait (h : s.Ok lib) (delay : Nat) : (s.wait delay).Ok lib :=
  ⟨⟨h.known, h.once, h.entries, h.justified, h.issued⟩, h.bounded, h.flows⟩

/-- The world before anyone came. -/
def OauthWorld.start (clock : Int) : OauthWorld := { users := Collection.empty, clock }

theorem OauthWorld.ok_start (clock : Int) : (OauthWorld.start clock).Ok lib where
  known := by simp [OauthWorld.start, Collection.empty]
  once := List.nodup_nil
  entries := by simp [OauthWorld.start, Collection.empty]
  justified := by simp [OauthWorld.start]
  issued := by simp [OauthWorld.start]
  bounded := by simp [OauthWorld.start]
  flows := by simp [OauthWorld.start]

variable [DecidableEq ι]

/-- In whatever order sign-ins, links, unlinks, failures and the rest of an account's life come, tokens are for
identities that were linked, and links have their reasons. -/
theorem oauth_accounted (hlib : lib.Lawful) (clock : Int) (events : List (ι × OauthAnswer)) :
    ∀ pool ∈ List.scanl (Pool.step (OauthPhase.step lib cfg))
        ⟨fun _ => .idle none, OauthWorld.start clock⟩ events,
      pool.shared.Accounted lib := by
  intro pool hpool
  refine (Pool.Sound.forall_mem_scanl_of_step (I := OauthWorld.Ok lib)
    (L := fun _ phase s => CallbackPhase.Assured lib phase s) ?_ ?_ pool hpool).shared.toAccounted
  · intro pool event hsound
    have hwait : pool.shared.Grows (pool.shared.wait event.2.delay) :=
      ⟨List.Subset.refl _, List.Subset.refl _, List.Subset.refl _⟩
    have hmove : Advances lib (pool.shared.wait event.2.delay)
        (OauthPhase.step lib cfg event.1 event.2 (pool.agents event.1) pool.shared) :=
      advances_move hlib (hsound.shared.wait _) ((hsound.agents event.1).grows hwait)
    exact ⟨hmove.ok, hmove.assured, fun _ _ _ hother => (hother.grows hwait).grows hmove.grows⟩
  · exact ⟨OauthWorld.ok_start clock, fun _ => trivial⟩

/-- A browser that signs in asks to be sent to a place with an account in it, and is signed in to that account, with
an e-mail that the provider has not verified. -/
theorem oauth_accounted_smuggled :
    let begun : OauthBegin :=
      ⟨.discord, .login, none, some "/&action=link&user_id=000000000000000000000000"⟩
    let state := generateOauthState hexLib begun 0 1767225600000
    let events : List (Fin 2 × OauthAnswer) :=
      [(0, { choice := .write (.register "someone@example.com" "hash") }),
        (1, { choice := .login .discord begun.nextUrl }),
        (1, { choice := .callback .discord state (.info ⟨"42", "someone@example.com", false⟩) }),
        (1, {}), (1, {}), (1, {}), (1, {})]
    let start : Pool (Fin 2) CallbackPhase OauthWorld :=
      ⟨fun _ => .idle none, OauthWorld.start 1767225600000⟩
    (events.foldl (Pool.step (OauthPhase.step hexLib {})) start).shared.issued.map
        (·.result.tokens.access.sub) = [0] ∧
      ∀ pool ∈ List.scanl (Pool.step (OauthPhase.step hexLib {})) start events,
        pool.shared.Accounted hexLib :=
  ⟨by decide +kernel, oauth_accounted lawful_hexLib _ _⟩

end Spoo
