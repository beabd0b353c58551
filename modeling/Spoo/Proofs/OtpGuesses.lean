import Spoo.Services.Auth.Otp

/-!
# How many one-time codes are issued, and how often they are guessed

The limit is on the stored tokens that were created within the last hour, and holds as long as these are stored. A
token that is deleted, by a request that replaces it or by the TTL index ten minutes after it was issued, is not
counted any more. A wrong guess counts against a token some time after it was compared, and a call that reads the token
in between takes it for one that has been tried less often. A token is accepted once, however many calls have the right
code, because it is consumed by a guarded write.
-/

namespace Spoo

open Agents Mongo Mongo.Collection OtpService

/-! ## Guessing a one-time code -/

section

variable {ι : Type}

/-- The wrong guesses at tokens, those that are not yet counted, and the tokens that were accepted. -/
structure GuessHistory (ι : Type) where
  wrong : List ObjectId := []
  uncounted : List (ι × ObjectId) := []
  accepted : List ObjectId := []

/-- The guesses at a token that the token does not count. -/
def GuessHistory.uncountedOf (history : GuessHistory ι) (tokenId : ObjectId) : Nat :=
  history.uncounted.countP (·.2 = tokenId)

/-- What a move adds to the history. -/
def recordGuesses [DecidableEq ι] (who : ι) (_ : VerifyAnswer) (phase : VerifyPhase) (_ : OtpWorld)
    (moved : VerifyPhase × OtpWorld) (history : GuessHistory ι) : GuessHistory ι :=
  match phase, moved.1 with
  | .finding .., .incrementing tokenId => { history with
      wrong := tokenId :: history.wrong
      uncounted := (who, tokenId) :: history.uncounted }
  | .incrementing tokenId, _ => { history with
      uncounted := history.uncounted.erase (who, tokenId) }
  | .consuming tokenId, .idle (some .verified) => { history with
      accepted := tokenId :: history.accepted }
  | _, _ => history

/-- At most five wrong guesses were compared with the token, and it was accepted at most once. -/
def GuessesBounded (tokenId : ObjectId) (history : GuessHistory ι) : Prop :=
  history.wrong.count tokenId ≤ maxVerificationAttempts ∧ history.accepted.count tokenId ≤ 1

instance (tokenId : ObjectId) (history : GuessHistory ι) : Decidable (GuessesBounded tokenId history) :=
  inferInstanceAs (Decidable (_ ∧ _))

/-- A call that looks for its token. -/
def VerifyPhase.finds : VerifyPhase → Option (ObjectId × String × TokenType)
  | .finding userId otpCode tokenType => some (userId, otpCode, tokenType)
  | _ => none

/-- The token that a call is about to compare with a wrong guess. -/
def wrongGuess (lib : OtpLib) (phase : VerifyPhase) (s : OtpWorld) : Option VerificationTokenDoc :=
  phase.finds.bind fun call =>
    (TokenRepository.findLatestByUser s.tokens call.1 call.2.2).filter fun doc =>
      isCompared s.clock doc && doc.tokenHash ≠ lib.hashToken call.2.1

/-- Where a wrong guess is compared with the token while others are still to be counted, the count of the
token and the guesses that it does not count leave room for one. -/
def GuessesCounted (lib : OtpLib) (tokenId : ObjectId)
    (pool : Pool ι VerifyPhase (OtpWorld × GuessHistory ι)) (event : ι × VerifyAnswer) : Prop :=
  ∀ doc ∈ wrongGuess lib (pool.agents event.1) (pool.shared.1.wait event.2.delay), doc.id = tokenId →
    pool.shared.2.uncountedOf tokenId ≠ 0 →
      doc.attempts + pool.shared.2.uncountedOf tokenId < maxVerificationAttempts

instance (lib : OtpLib) (tokenId : ObjectId) (pool : Pool ι VerifyPhase (OtpWorld × GuessHistory ι))
    (event : ι × VerifyAnswer) : Decidable (GuessesCounted lib tokenId pool event) :=
  inferInstanceAs (Decidable (∀ doc ∈ wrongGuess lib _ _, _))

/-! ## What a move does -/

section

/-- What a move can do. -/
inductive VerifyMoved [DecidableEq ι] (lib : OtpLib) (who : ι) (s : OtpWorld)
    (history : GuessHistory ι) :
    VerifyPhase → VerifyPhase → TokenStore → GuessHistory ι → Prop
  | rests {phase phase'} (hnone : wrongGuess lib phase s = none)
      (hphase' : ∀ tokenId, phase' ≠ .incrementing tokenId) :
      VerifyMoved lib who s history phase phase' s.tokens history
  | guesses {phase} (doc : VerificationTokenDoc) (hwrong : wrongGuess lib phase s = some doc) :
      VerifyMoved lib who s history phase (.incrementing doc.id) s.tokens { history with
        wrong := doc.id :: history.wrong
        uncounted := (who, doc.id) :: history.uncounted }
  | counts (tokenId : ObjectId) (last : Option OtpVerdict) :
      VerifyMoved lib who s history (.incrementing tokenId) (.idle last)
        (TokenRepository.incrementAttempts s.tokens tokenId)
        { history with uncounted := history.uncounted.erase (who, tokenId) }
  | accepts (tokenId : ObjectId) (last : Option OtpVerdict)
      (hlive : (s.tokens.lookup tokenId).any (TokenRepository.isLive s.clock) = true) :
      VerifyMoved lib who s history (.consuming tokenId) (.idle last)
        (TokenRepository.consumeIfUnused s.tokens tokenId s.clock).2
        { history with accepted := tokenId :: history.accepted }

variable [DecidableEq ι] {lib : OtpLib} {who : ι} {phase : VerifyPhase} {s : OtpWorld}
  {history : GuessHistory ι}

theorem wrongGuess_finding {userId : ObjectId} {otpCode : String} {tokenType : TokenType} :
    wrongGuess lib (.finding userId otpCode tokenType) s =
      (TokenRepository.findLatestByUser s.tokens userId tokenType).filter fun doc =>
        isCompared s.clock doc && doc.tokenHash ≠ lib.hashToken otpCode := rfl

theorem verifyMoved_move (choice : VerifyChoice) (answer : VerifyAnswer) (before : OtpWorld) :
    VerifyMoved lib who s history phase (move lib choice phase s).1
      (move lib choice phase s).2.tokens
      (recordGuesses who answer phase before (move lib choice phase s) history) := by
  cases phase with
  | idle last =>
    cases choice <;> exact .rests rfl (by rintro tokenId ⟨⟩)
  | finding userId otpCode tokenType =>
    simp only [move]
    split
    · rename_i hfound
      exact .rests (by rw [wrongGuess_finding, hfound]; rfl) (by rintro tokenId ⟨⟩)
    · rename_i doc hfound
      split_ifs with hexpired hworn hwrong
      · exact .rests (by simp [wrongGuess_finding, hfound, isCompared, hexpired])
          (by rintro tokenId ⟨⟩)
      · exact .rests (by simp [wrongGuess_finding, hfound, isCompared, hworn])
          (by rintro tokenId ⟨⟩)
      · refine .guesses doc ?_
        rw [wrongGuess_finding, hfound]
        simp only [Option.filter_some, isCompared]
        simp [hwrong, Int.not_le.1 hexpired, Nat.not_le.1 hworn]
      · have hright : doc.tokenHash = lib.hashToken otpCode := not_not.1 hwrong
        exact .rests (by simp [wrongGuess_finding, hfound, hright]) (by rintro tokenId ⟨⟩)
  | incrementing tokenId => exact .counts tokenId _
  | consuming tokenId =>
    simp only [move]
    split
    · rename_i tokens hconsume
      have htokens : tokens = (TokenRepository.consumeIfUnused s.tokens tokenId s.clock).2 :=
        (congrArg Prod.snd hconsume).symm
      subst htokens
      exact .accepts tokenId _ (congrArg Prod.fst hconsume)
    · exact .rests rfl (by rintro tokenId ⟨⟩)

/-! ## Runs -/

/-- What holds of the token between the moves. -/
structure GuessesTied (tokenId : ObjectId) (s : OtpWorld × GuessHistory ι) : Prop where
  counted : ∃ doc, s.1.tokens.lookup tokenId = some doc ∧
    s.2.wrong.count tokenId = doc.attempts + s.2.uncountedOf tokenId
  accepted : s.2.accepted.count tokenId = 0 ∨ s.2.accepted.count tokenId = 1 ∧
    ∀ doc, s.1.tokens.lookup tokenId = some doc → doc.usedAt ≠ none

/-- A call that has compared a wrong guess is among those that are not yet counted. -/
def OwesCount (who : ι) (phase : VerifyPhase) (s : OtpWorld × GuessHistory ι) : Prop :=
  ∀ tokenId, phase = .incrementing tokenId → (who, tokenId) ∈ s.2.uncounted

omit [DecidableEq ι] in
theorem countP_erase_of_mem [DecidableEq ι] {uncounted : List (ι × ObjectId)} {tokenId : ObjectId}
    (h : (who, tokenId) ∈ uncounted) (other : ObjectId) :
    uncounted.countP (·.2 = other) =
      (uncounted.erase (who, tokenId)).countP (·.2 = other) + if tokenId = other then 1 else 0 := by
  rw [(List.perm_cons_erase h).countP_eq, List.countP_cons]
  simp

/-- A move of a call keeps what is tied to the token, as long as it compares no wrong guess with it. -/
theorem VerifyMoved.tied {tokenId : ObjectId} {phase' : VerifyPhase} {tokens : TokenStore}
    {history' : GuessHistory ι} {clock : Int} {issued : Nat}
    (hm : VerifyMoved lib who s history phase phase' tokens history')
    (htied : GuessesTied tokenId (s, history)) (howes : OwesCount who phase (s, history)) :
    GuessesTied tokenId (⟨tokens, clock, issued⟩, history') := by
  obtain ⟨⟨doc, hdoc, hcount⟩, haccepted⟩ := htied
  cases hm with
  | rests => exact ⟨⟨doc, hdoc, hcount⟩, haccepted⟩
  | guesses found =>
    refine ⟨⟨doc, hdoc, ?_⟩, haccepted⟩
    simp only [GuessHistory.uncountedOf, List.count_cons, List.countP_cons] at hcount ⊢
    by_cases hid : found.id = tokenId
    · simp only [hid, beq_self_eq_true, if_true, decide_true]
      omega
    · simp only [hid, beq_iff_eq, if_false, decide_false, Bool.false_eq_true]
      omega
  | counts id last =>
    have howed : (who, id) ∈ history.uncounted := howes id rfl
    have hcountP := countP_erase_of_mem howed tokenId
    by_cases hid : id = tokenId
    · subst hid
      constructor
      · refine ⟨{ doc with attempts := doc.attempts + 1 }, ?_, ?_⟩
        · rw [TokenRepository.incrementAttempts, lookup_updateOne_self, hdoc]
          rfl
        · simp only [GuessHistory.uncountedOf, if_true] at hcount hcountP ⊢
          omega
      · refine haccepted.imp_right (And.imp_right fun hused other hother => ?_)
        rw [TokenRepository.incrementAttempts, lookup_updateOne_self, hdoc] at hother
        cases hother
        exact hused doc hdoc
    · have hsame : (TokenRepository.incrementAttempts s.tokens id).lookup tokenId =
          s.tokens.lookup tokenId := lookup_updateOne_of_ne _ _ _ (Ne.symm hid)
      constructor
      · refine ⟨doc, hsame.trans hdoc, ?_⟩
        simp only [GuessHistory.uncountedOf, hid, if_false] at hcount hcountP ⊢
        omega
      · exact haccepted.imp_right (And.imp_right fun hused other hother => hused other (hsame ▸ hother))
  | accepts id last hlive =>
    obtain ⟨found, hfound, hpasses, hnow, hothers⟩ := exists_of_updateOne {
      apply := TokenRepository.withUse s.clock
      id_apply := fun _ => rfl
      key_apply := fun _ => rfl } hlive
    by_cases hid : id = tokenId
    · subst hid
      rw [hdoc] at hfound
      cases hfound
      refine ⟨⟨_, hnow, hcount⟩, .inr ⟨?_, fun other hother => ?_⟩⟩
      · rcases haccepted with hnone | ⟨-, hused⟩
        · simpa using hnone
        · -- A live token has not been consumed.
          have hunused : doc.usedAt = none := by
            simp only [TokenRepository.isLive, Bool.and_eq_true, decide_eq_true_eq] at hpasses
            exact hpasses.1
          exact absurd hunused (hused doc hdoc)
      · cases hnow.symm.trans hother
        exact fun hnone => by cases hnone
    · have hsame := hothers tokenId (Ne.symm hid)
      refine ⟨⟨doc, hsame.trans hdoc, hcount⟩, ?_⟩
      have hcons : (id :: history.accepted).count tokenId = history.accepted.count tokenId :=
        List.count_cons_of_ne hid
      rw [hcons]
      exact haccepted.imp_right (And.imp_right fun hused other hother => hused other (hsame ▸ hother))

theorem VerifyMoved.owes {phase' : VerifyPhase} {tokens : TokenStore} {history' : GuessHistory ι}
    {t : OtpWorld} (hm : VerifyMoved lib who s history phase phase' tokens history') :
    OwesCount who phase' (t, history') := by
  intro tokenId hphase'
  cases hm with
  | rests _ hnot => exact absurd hphase' (hnot tokenId)
  | guesses doc =>
    cases hphase'
    exact List.mem_cons_self
  | counts => cases hphase'
  | accepts => cases hphase'

theorem VerifyMoved.owes_other {phase' : VerifyPhase} {tokens : TokenStore}
    {history' : GuessHistory ι} {t : OtpWorld}
    (hm : VerifyMoved lib who s history phase phase' tokens history') {other : ι}
    {otherPhase : VerifyPhase} (hother : other ≠ who) (h : OwesCount other otherPhase (s, history)) :
    OwesCount other otherPhase (t, history') := by
  intro tokenId hphase
  have howed : (other, tokenId) ∈ history.uncounted := h tokenId hphase
  cases hm with
  | rests => exact howed
  | guesses doc => exact List.mem_cons_of_mem _ howed
  | counts id last => exact (List.mem_erase_of_ne (by simp [hother])).2 howed
  | accepts => exact howed

theorem VerifyMoved.wrong_of_wrongGuess {phase' : VerifyPhase} {tokens : TokenStore}
    {history' : GuessHistory ι} (hm : VerifyMoved lib who s history phase phase' tokens history')
    {doc : VerificationTokenDoc} (hwrong : wrongGuess lib phase s = some doc) :
    history'.wrong = doc.id :: history.wrong := by
  cases hm with
  | rests hnone => cases hnone.symm.trans hwrong
  | guesses found hfound =>
    cases hfound.symm.trans hwrong
    rfl
  | counts => cases hwrong
  | accepts => cases hwrong

theorem VerifyMoved.wrong_of_none {phase' : VerifyPhase} {tokens : TokenStore}
    {history' : GuessHistory ι} (hm : VerifyMoved lib who s history phase phase' tokens history')
    (hwrong : wrongGuess lib phase s = none) : history'.wrong = history.wrong := by
  cases hm with
  | guesses found hfound => cases hfound.symm.trans hwrong
  | _ => rfl

omit [DecidableEq ι] in
/-- What is tied to a token does not depend on the clock. -/
theorem GuessesTied.wait {tokenId : ObjectId} {s : OtpWorld × GuessHistory ι}
    (h : GuessesTied tokenId s) (delay : Nat) : GuessesTied tokenId (s.1.wait delay, s.2) :=
  ⟨h.counted, h.accepted⟩

omit [DecidableEq ι] in
theorem GuessesTied.accepted_le {tokenId : ObjectId} {s : OtpWorld × GuessHistory ι}
    (h : GuessesTied tokenId s) : s.2.accepted.count tokenId ≤ 1 := by
  rcases h.accepted with hnone | ⟨hone, -⟩ <;> omega

/-- The token that a call finds is the stored one. -/
theorem lookup_of_wrongGuess {doc : VerificationTokenDoc} (h : wrongGuess lib phase s = some doc) :
    s.tokens.lookup doc.id = some doc := by
  obtain ⟨call, -, hfound⟩ := Option.bind_eq_some_iff.1 h
  obtain ⟨hleast, -⟩ := Option.filter_eq_some_iff.1 hfound
  exact lookup_eq_some_iff.2 ⟨(mem_of_findLeast hleast).1, rfl⟩

omit [DecidableEq ι] in
/-- A guess is only compared with a token that counts fewer than five. -/
theorem attempts_lt_of_wrongGuess {doc : VerificationTokenDoc} (h : wrongGuess lib phase s = some doc) :
    doc.attempts < maxVerificationAttempts := by
  obtain ⟨call, -, hfound⟩ := Option.bind_eq_some_iff.1 h
  obtain ⟨-, hcompared⟩ := Option.filter_eq_some_iff.1 hfound
  simp only [isCompared, Bool.and_eq_true, decide_eq_true_eq] at hcompared
  exact hcompared.1.2

variable {tokenId : ObjectId} {pool : Pool ι VerifyPhase (OtpWorld × GuessHistory ι)}
  {event : ι × VerifyAnswer}

theorem verifyMoved_step (lib : OtpLib) (pool : Pool ι VerifyPhase (OtpWorld × GuessHistory ι))
    (event : ι × VerifyAnswer) :
    VerifyMoved lib event.1 (pool.shared.1.wait event.2.delay) pool.shared.2
      (pool.agents event.1) (VerifyPhase.move lib event.1 event.2 (pool.agents event.1) pool.shared.1).1
      (VerifyPhase.move lib event.1 event.2 (pool.agents event.1) pool.shared.1).2.tokens
      (pool.step (recorded recordGuesses (VerifyPhase.move lib)) event).shared.2 :=
  verifyMoved_move event.2.choice event.2 pool.shared.1

theorem guessesTied_step (lib : OtpLib) (event : ι × VerifyAnswer)
    (h : pool.Sound (GuessesTied tokenId) OwesCount) :
    (pool.step (recorded recordGuesses (VerifyPhase.move lib)) event).Sound (GuessesTied tokenId)
      OwesCount := by
  have hm := verifyMoved_step lib pool event
  refine h.step ⟨hm.tied (h.shared.wait _) (h.agents event.1), hm.owes, ?_⟩
  exact fun other phase hother howes => hm.owes_other hother howes

omit [DecidableEq ι] in
/-- How many wrong guesses there are at a token, before a wrong guess at it. -/
theorem count_of_wrongGuess (h : GuessesTied tokenId pool.shared) {doc : VerificationTokenDoc}
    (hwrong : wrongGuess lib (pool.agents event.1) (pool.shared.1.wait event.2.delay) = some doc)
    (hid : doc.id = tokenId) :
    pool.shared.2.wrong.count tokenId = doc.attempts + pool.shared.2.uncountedOf tokenId := by
  obtain ⟨stored, hstored, hcount⟩ := h.counted
  have hfound : pool.shared.1.tokens.lookup doc.id = some doc :=
    lookup_of_wrongGuess (s := pool.shared.1.wait event.2.delay) hwrong
  rw [hid, hstored] at hfound
  cases hfound
  exact hcount

/-- A wrong guess that leaves at most five of them has found room for one. -/
theorem guessesCounted_of_bounded (h : GuessesTied tokenId pool.shared)
    (hnext : GuessesBounded tokenId
      (pool.step (recorded recordGuesses (VerifyPhase.move lib)) event).shared.2) :
    GuessesCounted lib tokenId pool event := by
  intro doc hwrong hid _
  have hnew := (verifyMoved_step lib pool event).wrong_of_wrongGuess hwrong
  have hcount := count_of_wrongGuess h hwrong hid
  have hbound := hnext.1
  rw [hnew, hid, List.count_cons_self] at hbound
  omega

theorem bounded_of_guessesCounted (h : GuessesTied tokenId pool.shared)
    (hbounded : GuessesBounded tokenId pool.shared.2) (hcounted : GuessesCounted lib tokenId pool event) :
    (pool.step (recorded recordGuesses (VerifyPhase.move lib)) event).shared.2.wrong.count tokenId ≤
      maxVerificationAttempts := by
  have hm := verifyMoved_step lib pool event
  cases hwrong : wrongGuess lib (pool.agents event.1) (pool.shared.1.wait event.2.delay) with
  | none =>
    rw [hm.wrong_of_none hwrong]
    exact hbounded.1
  | some doc =>
    rw [hm.wrong_of_wrongGuess hwrong]
    by_cases hid : doc.id = tokenId
    · have hroom : doc.attempts + pool.shared.2.uncountedOf tokenId < maxVerificationAttempts := by
        by_cases hsettled : pool.shared.2.uncountedOf tokenId = 0
        · rw [hsettled]
          exact attempts_lt_of_wrongGuess hwrong
        · exact hcounted doc hwrong hid hsettled
      have hcount := count_of_wrongGuess h hwrong hid
      rw [hid, List.count_cons_self]
      omega
    · rw [List.count_cons_of_ne hid]
      exact hbounded.1

/-- At most five wrong guesses are compared with a token that was issued, and it is accepted at most
once, in the runs in which a wrong guess that is compared while others are still to be counted finds
room for all of them. -/
theorem guesses_bounded_iff_counted (lib : OtpLib)
    (pool : Pool ι VerifyPhase (OtpWorld × GuessHistory ι)) (events : List (ι × VerifyAnswer))
    (token : VerificationTokenDoc) (hidle : ∀ who, ∃ last, pool.agents who = .idle last)
    (hhistory : pool.shared.2 = {}) (hissued : pool.shared.1.tokens.lookup token.id = some token)
    (hattempts : token.attempts = 0) :
    (∀ t ∈ List.scanl (Pool.step (recorded recordGuesses (VerifyPhase.move lib))) pool events,
      GuessesBounded token.id t.shared.2) ↔
      Run.Guarded (Pool.step (recorded recordGuesses (VerifyPhase.move lib)))
        (GuessesCounted lib token.id) pool events := by
  refine Run.forall_mem_scanl_iff_of_invariant
    (fun pool : Pool ι VerifyPhase (OtpWorld × GuessHistory ι) =>
      pool.Sound (GuessesTied token.id) OwesCount)
    (fun pool event h _ hnext => guessesCounted_of_bounded h.shared hnext)
    (fun pool event h hbounded hcounted => ?_) ?_ ?_
  · have hnext := guessesTied_step lib event h
    exact ⟨hnext, bounded_of_guessesCounted h.shared hbounded hcounted, hnext.shared.accepted_le⟩
  · refine ⟨⟨⟨token, hissued, ?_⟩, .inl ?_⟩, fun who tokenId hphase => ?_⟩
    · rw [hhistory, hattempts]
      rfl
    · rw [hhistory]
      rfl
    · obtain ⟨last, hlast⟩ := hidle who
      cases hlast.symm.trans hphase
  · rw [hhistory]
    exact ⟨Nat.zero_le _, Nat.zero_le _⟩

end

/-- Codes that are stored as they are. -/
def plainCodes : OtpLib where
  generateOtpCode n := String.ofList (Nat.toDigits 10 n)
  hashToken := id

/-- A token that has just been issued. -/
def issuedToken : VerificationTokenDoc where
  id := 7
  userId := 1
  email := "someone@example.com"
  tokenHash := "418000"
  tokenType := .passwordReset
  expiresAt := 600000
  createdAt := some 0

/-- Calls that have not begun. -/
def verifiers : Pool Nat VerifyPhase (OtpWorld × GuessHistory Nat) where
  agents _ := .idle none
  shared := ({ tokens := .single issuedToken, clock := 0 }, {})

/-- A call with a guess, up to where it has compared it. -/
def guess (who : Nat) (otpCode : String) : List (Nat × VerifyAnswer) :=
  [(who, ⟨10, .verify 1 otpCode .passwordReset⟩), (who, ⟨10, .go⟩)]

theorem guesses_bounded_iff_counted_inTurn :
    (∀ t ∈ List.scanl (Pool.step (recorded recordGuesses (VerifyPhase.move plainCodes))) verifiers
      (guess 0 "1" ++ guess 1 "418000" ++ [(0, ⟨0, .go⟩), (1, ⟨0, .go⟩)]),
      GuessesBounded issuedToken.id t.shared.2) ↔
      Run.Guarded (Pool.step (recorded recordGuesses (VerifyPhase.move plainCodes)))
        (GuessesCounted plainCodes issuedToken.id) verifiers
        (guess 0 "1" ++ guess 1 "418000" ++ [(0, ⟨0, .go⟩), (1, ⟨0, .go⟩)]) :=
  guesses_bounded_iff_counted _ _ _ issuedToken (fun _ => ⟨none, rfl⟩) rfl (by decide) rfl

/-- Six calls read the token before the first of them is counted. -/
theorem guesses_unbounded_atOnce :
    ∃ t ∈ List.scanl (Pool.step (recorded recordGuesses (VerifyPhase.move plainCodes))) verifiers
      ((List.range 6).flatMap fun who => guess who "1"),
      ¬ GuessesBounded issuedToken.id t.shared.2 := by
  decide +kernel

end

/-! ## How many one-time codes are issued -/

/-- A code that was issued. -/
structure OtpIssue where
  tokenId : ObjectId
  userId : ObjectId
  tokenType : TokenType
  issuedAt : Int
  deriving DecidableEq, Repr

/-- A request for a code, or the TTL monitor at a token, some time after the last event. -/
inductive OtpEvent where
  | request (delay : Nat) (request : OtpRequest)
  | expire (delay : Nat) (tokenId : ObjectId)
  deriving DecidableEq, Repr

/-- One event, with the codes that have been issued. -/
def otpStep (lib : OtpLib) (s : OtpWorld × List OtpIssue) : OtpEvent → OtpWorld × List OtpIssue
  | .request delay request =>
    match createOtp lib request (s.1.wait delay) with
    | (.ok _, s') => (s', ⟨s.1.issued, request.userId, request.tokenType, s'.clock⟩ :: s.2)
    | (.error _, s') => (s', s.2)
  | .expire delay tokenId =>
    let s' := s.1.wait delay
    ({ s' with tokens := s'.tokens.deleteMany fun doc =>
        doc.id = tokenId && TokenRepository.isExpired s'.clock doc }, s.2)

/-- An hour. -/
def hourMs : Int := 3600000

/-- The code is for the user and was issued within the hour after a time. -/
def OtpIssue.isWithin (issue : OtpIssue) (userId : ObjectId) (tokenType : TokenType) (start : Int) : Bool :=
  issue.userId = userId && issue.tokenType = tokenType && start ≤ issue.issuedAt &&
    issue.issuedAt ≤ start + hourMs

/-- The codes of a user that were issued within the hour after a time. -/
def issuedWithin (issues : List OtpIssue) (userId : ObjectId) (tokenType : TokenType) (start : Int) : Nat :=
  issues.countP (·.isWithin userId tokenType start)

/-- The token of a code of the user that was issued within the hour after a time is gone. -/
def GoneWithin (userId : ObjectId) (tokenType : TokenType) (s : OtpWorld × List OtpIssue) (start : Int) :
    Prop :=
  ∃ issue ∈ s.2, issue.isWithin userId tokenType start = true ∧ s.1.tokens.lookup issue.tokenId = none

instance (userId : ObjectId) (tokenType : TokenType) (s : OtpWorld × List OtpIssue) (start : Int) :
    Decidable (GoneWithin userId tokenType s start) :=
  inferInstanceAs (Decidable (∃ issue ∈ s.2, _ ∧ _))

/-- No hour has more codes than the limit. -/
def IssuesLimited (userId : ObjectId) (tokenType : TokenType) (s : OtpWorld × List OtpIssue) : Prop :=
  ∀ start, issuedWithin s.2 userId tokenType start ≤ maxTokensPerHour

/-- A request that the stored tokens let through after one of the last hour is gone finds that fewer codes
than the limit were issued within the hour. -/
def CountsIssues (userId : ObjectId) (tokenType : TokenType) (s : OtpWorld × List OtpIssue) :
    OtpEvent → Prop
  | .request delay request =>
    let start := s.1.clock + delay + request.latency - hourMs
    request.userId = userId → request.tokenType = tokenType → GoneWithin userId tokenType s start →
      isLimited request (s.1.wait delay) = false →
        issuedWithin s.2 userId tokenType start < maxTokensPerHour
  | .expire .. => True

instance (userId : ObjectId) (tokenType : TokenType) (s : OtpWorld × List OtpIssue) :
    (event : OtpEvent) → Decidable (CountsIssues userId tokenType s event)
  | .request _ request => inferInstanceAs (Decidable (request.userId = userId → _))
  | .expire .. => inferInstanceAs (Decidable True)

/-- The token of a code, as long as it is stored, is the one that was issued. -/
def OtpIssue.Stored (issue : OtpIssue) (tokens : TokenStore) : Prop :=
  ∀ token ∈ tokens.lookup issue.tokenId, token.userId = issue.userId ∧
    token.tokenType = issue.tokenType ∧ token.createdAt = some issue.issuedAt

/-- No code comes from the future, each has a token of its own, and the next id is free. -/
structure IssuesDated (s : OtpWorld × List OtpIssue) : Prop where
  past : ∀ issue ∈ s.2, issue.issuedAt ≤ s.1.clock
  fresh : ∀ token ∈ s.1.tokens.docs, token.id < s.1.issued
  stored : ∀ issue ∈ s.2, issue.Stored s.1.tokens
  drawn : ∀ issue ∈ s.2, issue.tokenId < s.1.issued
  nodup : (s.2.map (·.tokenId)).Nodup

variable {lib : OtpLib}

theorem mem_of_deleteExisting {request : OtpRequest} {s : OtpWorld} {token : VerificationTokenDoc}
    (h : token ∈ (if request.deleteExisting then
      TokenRepository.deleteByUser s.tokens request.userId (some request.tokenType)
      else s.tokens).docs) : token ∈ s.tokens.docs := by
  split_ifs at h
  · exact (List.mem_filter.1 h).1
  · exact h

/-- A request that is let through is issued a code. -/
theorem createOtp_of_not_limited (lib : OtpLib) {request : OtpRequest} {s : OtpWorld}
    (hfresh : ∀ token ∈ s.tokens.docs, token.id < s.issued) (h : isLimited request s = false) :
    ∃ s', createOtp lib request s = (.ok (lib.generateOtpCode s.issued), s') ∧
      s'.clock = s.clock + request.latency ∧ s'.issued = s.issued + 1 ∧
      ∀ token ∈ s'.tokens.docs, token ∈ s.tokens.docs ∨ token = otpToken lib request s := by
  have hfree : (otpToken lib request s).id ∉ ((if request.deleteExisting then
      TokenRepository.deleteByUser s.tokens request.userId (some request.tokenType)
      else s.tokens).docs.map (·.id)) := by
    intro hmem
    obtain ⟨token, htoken, hid⟩ := List.mem_map.1 hmem
    have hlt : token.id < s.issued := hfresh token (mem_of_deleteExisting htoken)
    exact absurd hid (Nat.ne_of_lt hlt)
  unfold createOtp
  simp only [h, Bool.false_eq_true, if_false]
  split
  · rename_i hcreate
    unfold TokenRepository.create insertOne at hcreate
    rw [dif_pos ⟨hfree, hfree⟩] at hcreate
    cases hcreate
  · rename_i tokens hcreate
    refine ⟨_, rfl, rfl, rfl, fun token htoken => ?_⟩
    have hdocs := (insertOne_eq_some hcreate).2.2
    rw [show ({ s.wait request.latency with tokens, issued := s.issued + 1 } : OtpWorld).tokens.docs =
      tokens.docs from rfl, hdocs, List.mem_append, List.mem_singleton] at htoken
    exact htoken.imp_left mem_of_deleteExisting

/-- A token that is stored later was stored before, where it has the id of an issued code. -/
theorem OtpIssue.Stored.of_subset {issue : OtpIssue} {tokens tokens' : TokenStore}
    (h : issue.Stored tokens)
    (hsub : ∀ token ∈ tokens'.docs, token.id = issue.tokenId → token ∈ tokens.docs) :
    issue.Stored tokens' := by
  intro token htoken
  obtain ⟨hmem, hid⟩ := lookup_eq_some_iff.1 htoken
  exact h token (lookup_eq_some_iff.2 ⟨hsub token hmem hid, hid⟩)

/-- As long as the tokens of the codes of an hour are stored, they are counted. -/
theorem issuedWithin_le_countRecent {s : OtpWorld × List OtpIssue} (h : IssuesDated s)
    {userId : ObjectId} {tokenType : TokenType} {start now : Int} (hstart : now - hourMs ≤ start)
    (hkept : ¬ GoneWithin userId tokenType s start) :
    issuedWithin s.2 userId tokenType start ≤
      TokenRepository.countRecent s.1.tokens userId tokenType 60 now := by
  rw [issuedWithin, List.countP_eq_length_filter, TokenRepository.countRecent,
    ← List.length_map (f := OtpIssue.tokenId), ← List.length_map (f := VerificationTokenDoc.id)]
  refine (List.subperm_of_subset (h.nodup.sublist (List.filter_sublist.map _)) fun tokenId hid => ?_).length_le
  obtain ⟨issue, hissue, rfl⟩ := List.mem_map.1 hid
  obtain ⟨hmem, hwithin⟩ := List.mem_filter.1 hissue
  cases hlookup : s.1.tokens.lookup issue.tokenId with
  | none => exact absurd ⟨issue, hmem, hwithin, hlookup⟩ hkept
  | some token =>
    obtain ⟨hdoc, htokenId⟩ := lookup_eq_some_iff.1 hlookup
    obtain ⟨huser, htype, hcreated⟩ := h.stored issue hmem token hlookup
    refine List.mem_map.2 ⟨token, List.mem_filter.2 ⟨hdoc, ?_⟩, htokenId⟩
    simp only [OtpIssue.isWithin, Bool.and_eq_true, decide_eq_true_eq] at hwithin
    obtain ⟨⟨⟨hmine, hkind⟩, hlow⟩, -⟩ := hwithin
    have hrecent : now - 3600000 ≤ issue.issuedAt := by
      unfold hourMs at hstart
      omega
    simpa [huser, htype, hcreated, hmine, hkind] using hrecent

/-- One more code. -/
theorem issuedWithin_cons (issue : OtpIssue) (issues : List OtpIssue) (userId : ObjectId)
    (tokenType : TokenType) (start : Int) :
    issuedWithin (issue :: issues) userId tokenType start =
      issuedWithin issues userId tokenType start +
        if issue.isWithin userId tokenType start = true then 1 else 0 := by
  rw [issuedWithin, List.countP_cons, issuedWithin]

/-- An hour that ends later than now has no more codes than the last one. -/
theorem issuedWithin_le {issues : List OtpIssue} {now start : Int}
    (hpast : ∀ issue ∈ issues, issue.issuedAt ≤ now) (hstart : now ≤ start + hourMs)
    (userId : ObjectId) (tokenType : TokenType) :
    issuedWithin issues userId tokenType start ≤
      issuedWithin issues userId tokenType (now - hourMs) := by
  refine List.countP_mono_left fun issue hissue hwithin => ?_
  have hnow := hpast issue hissue
  simp only [OtpIssue.isWithin, Bool.and_eq_true, decide_eq_true_eq] at hwithin ⊢
  obtain ⟨⟨⟨huser, htype⟩, hlow⟩, -⟩ := hwithin
  exact ⟨⟨⟨huser, htype⟩, by omega⟩, by omega⟩

/-- A code that is issued now keeps every hour within the limit if and only if the last one had room. -/
theorem limited_cons_iff {issues : List OtpIssue} {userId : ObjectId} {tokenType : TokenType} {now : Int}
    (tokenId : ObjectId) (hpast : ∀ issue ∈ issues, issue.issuedAt ≤ now)
    (hlimited : ∀ start, issuedWithin issues userId tokenType start ≤ maxTokensPerHour) :
    (∀ start, issuedWithin (⟨tokenId, userId, tokenType, now⟩ :: issues) userId tokenType start ≤
      maxTokensPerHour) ↔
      issuedWithin issues userId tokenType (now - hourMs) < maxTokensPerHour := by
  constructor
  · intro h
    have hlast := h (now - hourMs)
    have hin : OtpIssue.isWithin ⟨tokenId, userId, tokenType, now⟩ userId tokenType (now - hourMs) =
        true := by
      unfold OtpIssue.isWithin hourMs
      simp only [Bool.and_eq_true, decide_eq_true_eq]
      exact ⟨⟨⟨trivial, trivial⟩, by omega⟩, by omega⟩
    rw [issuedWithin_cons, if_pos hin] at hlast
    omega
  · intro h start
    rw [issuedWithin_cons]
    split_ifs with hin
    · simp only [OtpIssue.isWithin, Bool.and_eq_true, decide_eq_true_eq] at hin
      have hle := issuedWithin_le hpast hin.2 userId tokenType
      omega
    · exact hlimited start

/-- The history and the world after an event. -/
theorem otpStep_cases (lib : OtpLib) {s : OtpWorld × List OtpIssue} (h : IssuesDated s) (event : OtpEvent) :
    IssuesDated (otpStep lib s event) ∧
      ((otpStep lib s event).2 = s.2 ∧
          (∀ delay request, event = .request delay request →
            isLimited request (s.1.wait delay) = true) ∨
        ∃ delay request, event = .request delay request ∧
          isLimited request (s.1.wait delay) = false ∧
          (otpStep lib s event).2 =
            ⟨s.1.issued, request.userId, request.tokenType, s.1.clock + delay + request.latency⟩ ::
              s.2) := by
  have hlater (delay : Nat) : ∀ issue ∈ s.2, issue.issuedAt ≤ s.1.clock + delay := by
    intro issue hissue
    have := h.past issue hissue
    omega
  cases event with
  | request delay request =>
    cases hlimited : isLimited request (s.1.wait delay) with
    | true =>
      have hsame : otpStep lib s (.request delay request) = (s.1.wait delay, s.2) := by
        rw [otpStep, createOtp, hlimited]
        rfl
      rw [hsame]
      exact ⟨⟨hlater delay, h.fresh, h.stored, h.drawn, h.nodup⟩,
        .inl ⟨rfl, by rintro _ _ ⟨⟩; exact hlimited⟩⟩
    | false =>
      obtain ⟨s', hcreate, hclock, hissued, hdocs⟩ :=
        createOtp_of_not_limited lib (s := s.1.wait delay) h.fresh hlimited
      have hnext : otpStep lib s (.request delay request) =
          (s', ⟨s.1.issued, request.userId, request.tokenType, s'.clock⟩ :: s.2) := by
        rw [otpStep, hcreate]
      have hclock' : s'.clock = s.1.clock + delay + request.latency := hclock
      have hissued' : s'.issued = s.1.issued + 1 := hissued
      rw [hnext, hclock']
      refine ⟨⟨fun issue hissue => ?_, fun token htoken => ?_, fun issue hissue => ?_,
        fun issue hissue => ?_, ?_⟩, .inr ⟨delay, request, rfl, hlimited, rfl⟩⟩
      · rw [hclock']
        rcases List.mem_cons.1 hissue with rfl | hissue
        · exact le_refl _
        · have := hlater delay issue hissue
          omega
      · rw [hissued']
        rcases hdocs token htoken with hold | rfl
        · exact Nat.lt_succ_of_lt (h.fresh token hold)
        · exact Nat.lt_succ_self _
      · rcases List.mem_cons.1 hissue with rfl | hissue
        · -- Nothing else is stored under an id that has just been drawn.
          intro token htoken
          obtain ⟨hmem, hid⟩ := lookup_eq_some_iff.1 htoken
          rcases hdocs token hmem with hold | rfl
          · exact absurd hid (Nat.ne_of_lt (h.fresh token hold))
          · exact ⟨rfl, rfl, rfl⟩
        · refine (h.stored issue hissue).of_subset fun token hmem hid => ?_
          rcases hdocs token hmem with hold | rfl
          · exact hold
          · exact absurd hid.symm (Nat.ne_of_lt (h.drawn issue hissue))
      · rw [hissued']
        rcases List.mem_cons.1 hissue with rfl | hissue
        · exact Nat.lt_succ_self _
        · exact Nat.lt_succ_of_lt (h.drawn issue hissue)
      · refine List.nodup_cons.2 ⟨fun hmem => ?_, h.nodup⟩
        obtain ⟨issue, hissue, hid⟩ := List.mem_map.1 hmem
        exact absurd hid (Nat.ne_of_lt (h.drawn issue hissue))
  | expire delay tokenId =>
    have hsub {token : VerificationTokenDoc}
        (htoken : token ∈ (otpStep lib s (.expire delay tokenId)).1.tokens.docs) :
        token ∈ s.1.tokens.docs := (List.mem_filter.1 htoken).1
    refine ⟨⟨hlater delay, fun token htoken => h.fresh token (hsub htoken), fun issue hissue => ?_,
      h.drawn, h.nodup⟩, .inl ⟨rfl, by rintro _ _ ⟨⟩⟩⟩
    exact (h.stored issue hissue).of_subset fun token hmem _ => hsub hmem

/-- A request that is let through while all tokens of the last hour are stored finds room. -/
theorem issuedWithin_lt_of_not_limited {s : OtpWorld × List OtpIssue} (h : IssuesDated s)
    {request : OtpRequest} {delay : Nat} (hpassed : isLimited request (s.1.wait delay) = false)
    (hkept : ¬ GoneWithin request.userId request.tokenType s
      (s.1.clock + delay + request.latency - hourMs)) :
    issuedWithin s.2 request.userId request.tokenType (s.1.clock + delay + request.latency - hourMs) <
      maxTokensPerHour := by
  have hstart : s.1.clock + delay - hourMs ≤ s.1.clock + delay + request.latency - hourMs := by omega
  have hcounted := issuedWithin_le_countRecent h hstart hkept
  have hroom := Nat.not_le.1 (of_decide_eq_false hpassed)
  exact lt_of_le_of_lt hcounted hroom

/-- An event keeps every hour within the limit if and only if a request that is let through after a token
of the last one is gone finds room. -/
theorem issuesLimited_step_iff {userId : ObjectId} {tokenType : TokenType}
    {s : OtpWorld × List OtpIssue} (h : IssuesDated s) (hlimited : IssuesLimited userId tokenType s)
    (event : OtpEvent) :
    IssuesLimited userId tokenType (otpStep lib s event) ↔ CountsIssues userId tokenType s event := by
  obtain ⟨-, ⟨hsame, hrefused⟩ | ⟨delay, request, rfl, hpassed, hnew⟩⟩ :=
    otpStep_cases lib h event
  · have hcounts : CountsIssues userId tokenType s event := by
      cases event with
      | request delay request =>
        intro _ _ _ hpassed
        rw [hrefused delay request rfl] at hpassed
        cases hpassed
      | expire => trivial
    rw [IssuesLimited, hsame]
    exact iff_of_true hlimited hcounts
  · have hpast : ∀ issue ∈ s.2, issue.issuedAt ≤ s.1.clock + delay + request.latency := by
      intro issue hissue
      have := h.past issue hissue
      omega
    rw [IssuesLimited, hnew]
    by_cases hmine : request.userId = userId ∧ request.tokenType = tokenType
    · obtain ⟨rfl, rfl⟩ := hmine
      rw [limited_cons_iff _ hpast hlimited]
      refine ⟨fun hroom _ _ _ _ => hroom, fun hcounts => ?_⟩
      by_cases hgone : GoneWithin request.userId request.tokenType s
          (s.1.clock + delay + request.latency - hourMs)
      · exact hcounts rfl rfl hgone hpassed
      · exact issuedWithin_lt_of_not_limited h hpassed hgone
    · refine iff_of_true (fun start => ?_) fun huser htype _ => absurd ⟨huser, htype⟩ hmine
      rw [issuedWithin_cons, if_neg fun hin => ?_]
      · exact hlimited start
      · simp only [OtpIssue.isWithin, Bool.and_eq_true, decide_eq_true_eq] at hin
        exact hmine hin.1.1

/-- At most three codes are issued to a user within any hour, in the runs in which every request that is
let through after a token of the last hour is gone finds fewer than three codes issued within it. -/
theorem issues_limited_iff_counted (lib : OtpLib) (s : OtpWorld) (events : List OtpEvent)
    (userId : ObjectId) (tokenType : TokenType)
    (hfresh : ∀ token ∈ s.tokens.docs, token.id < s.issued) :
    (∀ t ∈ List.scanl (otpStep lib) (s, []) events, IssuesLimited userId tokenType t) ↔
      Run.Guarded (otpStep lib) (CountsIssues userId tokenType) (s, []) events := by
  refine Run.forall_mem_scanl_iff_of_invariant IssuesDated
    (fun t event h hlimited hnext => (issuesLimited_step_iff h hlimited event).1 hnext)
    (fun t event h hlimited hcounts => ?_) ⟨fun _ h => (List.not_mem_nil h).elim, hfresh,
      fun _ h => (List.not_mem_nil h).elim, fun _ h => (List.not_mem_nil h).elim, List.nodup_nil⟩
    fun _ => Nat.zero_le _
  exact ⟨(otpStep_cases lib h event).1, (issuesLimited_step_iff h hlimited event).2 hcounts⟩

/-- Codes that are stored as they are. -/
def numberedCodes : OtpLib where
  generateOtpCode n := String.ofList (Nat.toDigits 10 n)
  hashToken := id

/-- A request for a code to reset the password. -/
def resetRequest : OtpRequest where
  userId := 1
  email := "someone@example.com"
  tokenType := .passwordReset
  deleteExisting := true

/-- A request for a code to verify the address. -/
def verifyRequest : OtpRequest where
  userId := 1
  email := "someone@example.com"
  tokenType := .emailVerify

/-- No token is stored. -/
def noTokens : OtpWorld where
  tokens := .empty
  clock := 0

theorem issues_limited_iff_counted_kept :
    (∀ t ∈ List.scanl (otpStep numberedCodes) (noTokens, [])
      [.request 0 verifyRequest, .request 1000 verifyRequest, .request 1000 verifyRequest,
        .request 1000 verifyRequest], IssuesLimited 1 .emailVerify t) ↔
      Run.Guarded (otpStep numberedCodes) (CountsIssues 1 .emailVerify) (noTokens, [])
        [.request 0 verifyRequest, .request 1000 verifyRequest, .request 1000 verifyRequest,
          .request 1000 verifyRequest] :=
  issues_limited_iff_counted _ _ _ _ _ fun _ h => (List.not_mem_nil h).elim

/-- Every request to reset the password deletes the token of the one before it, and is not limited. -/
theorem issues_unlimited_replaced :
    ∃ t ∈ List.scanl (otpStep numberedCodes) (noTokens, []) (List.replicate 4 (.request 1000 resetRequest)),
      ¬ IssuesLimited 1 .passwordReset t := by
  refine ⟨(List.replicate 4 (.request 1000 resetRequest)).foldl (otpStep numberedCodes) (noTokens, []),
    by simp [List.replicate], fun h => ?_⟩
  exact absurd (h 0) (by decide +kernel)

end Spoo
