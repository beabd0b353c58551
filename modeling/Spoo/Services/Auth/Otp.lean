import Spoo.Lib.Agents
import Spoo.Repositories.TokenRepository

/-!
# One-time codes (`services/auth/otp.py`)

A code is issued when few enough were of late, and is verified in two accesses to the collection: the
token is read, and then either the wrong guess is counted or the token is consumed.
-/

namespace Spoo

open Agents

/-- `OTP_EXPIRY_SECONDS`. -/
def otpExpirySeconds : Nat := 600

/-- `MAX_TOKENS_PER_HOUR`. -/
def maxTokensPerHour : Nat := 3

/-- `MAX_VERIFICATION_ATTEMPTS`. -/
def maxVerificationAttempts : Nat := 5

/-- What the service is built on. -/
structure OtpLib where
  /-- The codes that `generate_otp_code` yields. -/
  generateOtpCode : Nat → String
  hashToken : String → String

/-- The tokens, the clock, and how many codes and ids have been drawn. -/
structure OtpWorld where
  tokens : TokenStore
  clock : Int
  issued : Nat := 0

/-- The clock goes on. -/
def OtpWorld.wait (s : OtpWorld) (delay : Nat) : OtpWorld := { s with clock := s.clock + delay }

/-- A request for a code. -/
structure OtpRequest where
  userId : ObjectId
  email : String
  tokenType : TokenType
  deleteExisting : Bool := false
  /-- The time between the count and the insert. -/
  latency : Nat := 0
  deriving DecidableEq, Repr

/-- What a request for a code raises. -/
inductive OtpError where
  | rateLimit (message : String)
  | repository
  deriving DecidableEq, Repr

/-- What a verification answers. -/
inductive OtpVerdict where
  | verified
  /-- `ValidationError`. -/
  | refused (message : String)
  deriving DecidableEq, Repr

/-- A call of `verify_otp`. -/
inductive VerifyPhase where
  | idle (last : Option OtpVerdict)
  | finding (userId : ObjectId) (otpCode : String) (tokenType : TokenType)
  | incrementing (tokenId : ObjectId)
  | consuming (tokenId : ObjectId)
  deriving DecidableEq, Repr

/-- What comes with a move. -/
inductive VerifyChoice where
  | go
  | verify (userId : ObjectId) (otpCode : String) (tokenType : TokenType)
  deriving DecidableEq, Repr

/-- The time since the last move of anyone, and what comes with this one. -/
structure VerifyAnswer where
  delay : Nat
  choice : VerifyChoice
  deriving DecidableEq, Repr

namespace OtpService

variable (lib : OtpLib)

/-- The message of a refused request. -/
def rateLimitMessage (tokenType : TokenType) : String :=
  if tokenType = .passwordReset then "Too many password reset attempts. Please try again later."
  else "Too many verification attempts. Please try again later."

/-- The token of a code. -/
def otpToken (request : OtpRequest) (s : OtpWorld) : VerificationTokenDoc where
  id := s.issued
  userId := request.userId
  email := request.email
  tokenHash := lib.hashToken (lib.generateOtpCode s.issued)
  tokenType := request.tokenType
  expiresAt := s.clock + request.latency + otpExpirySeconds * 1000
  createdAt := some (s.clock + request.latency)

/-- The tokens are many enough that no code is issued. -/
def isLimited (request : OtpRequest) (s : OtpWorld) : Bool :=
  maxTokensPerHour ≤ TokenRepository.countRecent s.tokens request.userId request.tokenType 60 s.clock

/-- `create_otp`, with the code (`otp.py:41-92`). -/
def createOtp (request : OtpRequest) (s : OtpWorld) : Except OtpError String × OtpWorld :=
  if isLimited request s then (.error (.rateLimit (rateLimitMessage request.tokenType)), s)
  else
    let tokens := if request.deleteExisting then
      TokenRepository.deleteByUser s.tokens request.userId (some request.tokenType) else s.tokens
    match TokenRepository.create tokens (otpToken lib request s) with
    | none => (.error .repository, { s.wait request.latency with tokens })
    | some tokens =>
      (.ok (lib.generateOtpCode s.issued),
        { s.wait request.latency with tokens, issued := s.issued + 1 })

/-- The guess is compared with the hash of the token: what was found is neither expired nor worn
out. -/
def isCompared (now : Int) (doc : VerificationTokenDoc) : Bool :=
  now < doc.expiresAt && doc.attempts < maxVerificationAttempts

/-- One move of a call of `verify_otp` (`otp.py:94-167`). -/
def move (choice : VerifyChoice) (phase : VerifyPhase) (s : OtpWorld) : VerifyPhase × OtpWorld :=
  match phase with
  | .idle last =>
    match choice with
    | .verify userId otpCode tokenType => (.finding userId otpCode tokenType, s)
    | .go => (.idle last, s)
  | .finding userId otpCode tokenType =>
    match TokenRepository.findLatestByUser s.tokens userId tokenType with
    | none => (.idle (some (.refused "Invalid or expired verification code")), s)
    | some doc =>
      if doc.expiresAt ≤ s.clock then
        (.idle (some (.refused "Verification code has expired")), s)
      else if maxVerificationAttempts ≤ doc.attempts then
        (.idle (some (.refused "Too many failed attempts. Please request a new code.")), s)
      else if doc.tokenHash ≠ lib.hashToken otpCode then (.incrementing doc.id, s)
      else (.consuming doc.id, s)
  | .incrementing tokenId =>
    (.idle (some (.refused "Invalid or expired verification code")),
      { s with tokens := TokenRepository.incrementAttempts s.tokens tokenId })
  | .consuming tokenId =>
    match TokenRepository.consumeIfUnused s.tokens tokenId s.clock with
    | (true, tokens) => (.idle (some .verified), { s with tokens })
    | (false, _) => (.idle (some (.refused "Invalid or expired verification code")), s)

end OtpService

/-- One move of a call. -/
def VerifyPhase.move {ι : Type} (lib : OtpLib) : Move ι VerifyAnswer VerifyPhase OtpWorld :=
  fun _ answer phase s => OtpService.move lib answer.choice phase (s.wait answer.delay)

end Spoo
