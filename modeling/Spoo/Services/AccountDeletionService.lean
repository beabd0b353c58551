import Spoo.Lib.Agents
import Spoo.Repositories.TokenRepository
import Spoo.Repositories.UserRepository

/-!
# Account deletion requests (`services/account_deletion_service.py`)

A request proves that it comes from the owner and turns the account to `PENDING_DELETION`. An account
without a password gets its restore token first, because the link that is mailed is the only way back.
Each call of a repository is a move of its own, and a call that fails has had either no effect or its
whole effect.
-/

namespace Spoo

open Agents

/-- What the service is built on. -/
structure DeletionLib where
  /-- The tokens that `generate_secure_token` yields. -/
  generateSecureToken : Nat → String
  hashToken : String → String
  verifyPassword : String → String → Bool

/-- How the service is set up. -/
structure DeletionConfig where
  graceDays : Nat := 7
  tokenRepo : Bool := true
  deriving DecidableEq, Repr

/-- The accounts, the tokens, the clock, and how many ids and tokens have been drawn. -/
structure DeletionWorld where
  users : UserStore
  tokens : TokenStore
  clock : Int
  issued : Nat

/-- What `request_deletion` raises. -/
inductive DeletionError where
  | userNotFound
  | alreadyRequested
  | reauthFailed
  | noRestoreLink
  /-- The exception of a repository. -/
  | repository
  deriving DecidableEq, Repr

/-- What a request is answered. -/
inductive DeletionOutcome where
  | accepted (purgeAfter : Int)
  | refused (error : DeletionError)
  deriving DecidableEq, Repr

/-- Where a request stands. -/
inductive DeletionPhase where
  | idle (last : Option DeletionOutcome)
  | finding (userId : ObjectId) (password confirmEmail : Option String)
  | flipping (user : UserDoc)
  | readingDeadline (user : UserDoc)
  | superseding (user : UserDoc) (purgeAfter : Int)
  | creating (user : UserDoc) (purgeAfter : Int)
  | minting (user : UserDoc) (now : Int)
  | flippingMinted (user : UserDoc) (now : Int) (tokenHash : String)
  /-- `raised`: the flip raised, and did not merely find no active account. -/
  | discarding (user : UserDoc) (now : Int) (tokenHash : String) (raised : Bool)
  deriving DecidableEq, Repr

/-- What comes with a move. -/
inductive DeletionChoice where
  | go
  | request (userId : ObjectId) (password confirmEmail : Option String)
  /-- The call fails and has had no effect. -/
  | failBefore
  /-- The call fails and has had its effect. -/
  | failAfter
  deriving DecidableEq, Repr

/-- The call of the move has its effect. -/
def DeletionChoice.takesEffect : DeletionChoice → Bool
  | .failBefore => false
  | _ => true

/-- The time since the last move of anyone, and what comes with this one. -/
structure DeletionAnswer where
  delay : Nat
  choice : DeletionChoice
  deriving DecidableEq, Repr

/-- `password_hash` is neither missing nor empty. -/
def UserDoc.hasPasswordHash (user : UserDoc) : Bool := user.passwordHash.any (· ≠ "")

namespace AccountDeletionService

variable (lib : DeletionLib) (cfg : DeletionConfig)

/-- The deadline of a request that is made at a time. -/
def deadline (now : Int) : Int := now + cfg.graceDays * 86400000

/-- `_verify_reauth`, with whether it passes (`account_deletion_service.py:264-291`). -/
def verifyReauth (user : UserDoc) (password confirmEmail : Option String) : Bool :=
  match user.passwordHash with
  | none => !user.passwordSet && (confirmEmail.getD "") = user.email
  | some passwordHash =>
    if passwordHash = "" then !user.passwordSet && (confirmEmail.getD "") = user.email
    else password.any fun password => password ≠ "" && lib.verifyPassword password passwordHash

/-- The restore token of an account. -/
def restoreToken (user : UserDoc) (purgeAfter : Int) (s : DeletionWorld) : VerificationTokenDoc where
  id := s.issued
  userId := user.id
  email := user.email
  tokenHash := lib.hashToken (lib.generateSecureToken s.issued)
  tokenType := .deletionRestore
  expiresAt := purgeAfter
  createdAt := some s.clock

/-- The insert of a restore token, `none` where it raises. -/
def mint (user : UserDoc) (purgeAfter : Int) (s : DeletionWorld) : Option DeletionWorld :=
  (TokenRepository.create s.tokens (restoreToken lib user purgeAfter s)).map fun tokens =>
    { s with tokens, issued := s.issued + 1 }

/-- One move of a request (`account_deletion_service.py:83-262`, `293-402`). -/
def move (choice : DeletionChoice) (phase : DeletionPhase) (s : DeletionWorld) :
    DeletionPhase × DeletionWorld :=
  match phase with
  | .idle last =>
    match choice with
    | .request userId password confirmEmail => (.finding userId password confirmEmail, s)
    | _ => (.idle last, s)
  | .finding userId password confirmEmail =>
    match s.users.lookup userId with
    | none => (.idle (some (.refused .userNotFound)), s)
    | some user =>
      if user.status = .pendingDeletion ∨ user.status = .erasing then
        (.idle (some (.refused .alreadyRequested)), s)
      else if verifyReauth lib user password confirmEmail = false then
        (.idle (some (.refused .reauthFailed)), s)
      else if user.hasPasswordHash then (.flipping user, s)
      else if cfg.tokenRepo then (.minting user s.clock, s)
      else (.idle (some (.refused .noRestoreLink)), s)
  | .flipping user =>
    match UserRepository.markPendingDeletion s.users user.id cfg.graceDays s.clock with
    | (true, users) => (.readingDeadline user, { s with users })
    | (false, _) => (.idle (some (.refused .alreadyRequested)), s)
  | .readingDeadline user =>
    let purgeAfter := ((s.users.lookup user.id).bind (·.purgeAfter)).getD (deadline cfg s.clock)
    if cfg.tokenRepo then (.superseding user purgeAfter, s)
    else (.idle (some (.accepted purgeAfter)), s)
  | .superseding user purgeAfter =>
    (.creating user purgeAfter,
      { s with tokens := TokenRepository.deleteByUser s.tokens user.id (some .deletionRestore) })
  | .creating user purgeAfter =>
    (.idle (some (.accepted purgeAfter)), (mint lib user purgeAfter s).getD s)
  | .minting user now =>
    match mint lib user (deadline cfg now) s with
    | none => (.idle (some (.refused .noRestoreLink)), s)
    | some s' =>
      (.flippingMinted user now (lib.hashToken (lib.generateSecureToken s.issued)), s')
  | .flippingMinted user now tokenHash =>
    match UserRepository.markPendingDeletion s.users user.id cfg.graceDays now with
    | (true, users) => (.idle (some (.accepted (deadline cfg now))), { s with users })
    | (false, _) => (.discarding user now tokenHash false, s)
  | .discarding _ _ tokenHash raised =>
    (.idle (some (.refused (if raised then .repository else .alreadyRequested))),
      { s with tokens := TokenRepository.deleteByHash s.tokens tokenHash .deletionRestore })

/-- Where a request stands after the call of its move has failed. -/
def afterFailure (phase : DeletionPhase) : DeletionPhase :=
  match phase with
  | .idle last => .idle last
  -- A password account gets its link at best.
  | .superseding _ purgeAfter => .idle (some (.accepted purgeAfter))
  | .creating _ purgeAfter => .idle (some (.accepted purgeAfter))
  | .minting _ _ => .idle (some (.refused .noRestoreLink))
  | .flippingMinted user now tokenHash => .discarding user now tokenHash true
  | .discarding _ _ _ raised =>
    .idle (some (.refused (if raised then .repository else .alreadyRequested)))
  | .finding .. => .idle (some (.refused .repository))
  | .flipping _ => .idle (some (.refused .repository))
  | .readingDeadline _ => .idle (some (.refused .repository))

/-- One move, with the failures of its call. -/
def act (choice : DeletionChoice) (phase : DeletionPhase) (s : DeletionWorld) :
    DeletionPhase × DeletionWorld :=
  match choice with
  | .failBefore => (afterFailure phase, s)
  | .failAfter => (afterFailure phase, (move lib cfg .go phase s).2)
  | choice => move lib cfg choice phase s

end AccountDeletionService

/-- The clock goes on. -/
def DeletionWorld.wait (s : DeletionWorld) (delay : Nat) : DeletionWorld :=
  { s with clock := s.clock + delay }

/-- One move of a request. -/
def DeletionPhase.move {ι : Type} (lib : DeletionLib) (cfg : DeletionConfig) :
    Move ι DeletionAnswer DeletionPhase DeletionWorld :=
  fun _ answer phase s => AccountDeletionService.act lib cfg answer.choice phase (s.wait answer.delay)

end Spoo
