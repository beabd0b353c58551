import Spoo.Services.AccountErasureService

/-!
# Restore against erasure

An account is claimed while it is pending deletion and past its deadline, and from then on no restore
finds it. Every deletion comes from a sweep that has won such a claim, or has taken an erasure over
that such a claim began, and the owner has not come in between.
-/

namespace Spoo

open Agents Mongo.Collection

variable {ι : Type}

/-! ## Reading the log -/

/-- The owner asks for the deletion of the account, or takes it back. -/
def ErasureEntry.IsOwners (user : ObjectId) : ErasureEntry ι → Prop
  | .requested asked => asked = user
  | .restored asked => asked = user
  | _ => False

/-- An entry passes, given the ones before it, and the owner has written none since. -/
def SinceOwner (user : ObjectId) (P : ErasureEntry ι → List (ErasureEntry ι) → Prop)
    (log : List (ErasureEntry ι)) : Prop :=
  ∃ newer entry older, log = newer ++ entry :: older ∧ P entry older ∧
    ∀ e ∈ newer, ¬ e.IsOwners user

/-- A claim that was won while the account was pending deletion and past its purge time. -/
def IsFirstClaim (user : ObjectId) (entry : ErasureEntry ι) : Prop :=
  ∃ who purgeAfter now, entry = .claimed who user .pendingDeletion (some purgeAfter) now ∧
    purgeAfter ≤ now

/-- The erasure of the account has begun. -/
def ErasureBegun (user : ObjectId) (log : List (ErasureEntry ι)) : Prop :=
  SinceOwner user (fun entry _ => IsFirstClaim user entry) log

/-- The claim under which a sweep erases: the one that began the erasure, or one that took it over. -/
def ErasesUnderClaim (who : ι) (user : ObjectId) (log : List (ErasureEntry ι)) : Prop :=
  SinceOwner user (fun entry older => ∃ was purgeAfter now,
    entry = .claimed who user was purgeAfter now ∧
      (IsFirstClaim user entry ∨ was = .erasing ∧ ErasureBegun user older)) log

/-- The account has been restored, and no deletion has been requested since. -/
def StandsRestored (user : ObjectId) (log : List (ErasureEntry ι)) : Prop :=
  ∃ newer older, log = newer ++ .restored user :: older ∧ .requested user ∉ newer

section

variable {user : ObjectId} {entry : ErasureEntry ι} {log : List (ErasureEntry ι)}

theorem sinceOwner_cons_iff {P : ErasureEntry ι → List (ErasureEntry ι) → Prop} :
    SinceOwner user P (entry :: log) ↔ P entry log ∨ ¬ entry.IsOwners user ∧ SinceOwner user P log := by
  constructor
  · rintro ⟨newer, found, older, heq, hP, hnewer⟩
    cases newer with
    | nil =>
      cases heq
      exact .inl hP
    | cons e newer =>
      cases heq
      exact .inr ⟨hnewer _ List.mem_cons_self, newer, found, older, rfl, hP,
        fun e he => hnewer e (List.mem_cons_of_mem _ he)⟩
  · rintro (hP | ⟨hentry, newer, found, older, rfl, hP, hnewer⟩)
    · exact ⟨[], entry, log, rfl, hP, fun e he => nomatch he⟩
    · refine ⟨entry :: newer, found, older, rfl, hP, fun e he => ?_⟩
      rcases List.mem_cons.1 he with rfl | he
      · exact hentry
      · exact hnewer e he

theorem standsRestored_cons_iff : StandsRestored user (entry :: log) ↔
    entry = .restored user ∨ entry ≠ .requested user ∧ StandsRestored user log := by
  constructor
  · rintro ⟨newer, older, heq, hnewer⟩
    cases newer with
    | nil =>
      cases heq
      exact .inl rfl
    | cons e newer =>
      cases heq
      rw [List.mem_cons, not_or] at hnewer
      exact .inr ⟨Ne.symm hnewer.1, newer, older, rfl, hnewer.2⟩
  · rintro (rfl | ⟨hentry, newer, older, rfl, hnewer⟩)
    · exact ⟨[], log, rfl, List.not_mem_nil⟩
    · refine ⟨entry :: newer, older, rfl, ?_⟩
      rw [List.mem_cons, not_or]
      exact ⟨Ne.symm hentry, hnewer⟩

/-- A sweep that erases under a claim does so in an erasure that has begun. -/
theorem ErasesUnderClaim.begun {who : ι} :
    ∀ {log : List (ErasureEntry ι)}, ErasesUnderClaim who user log → ErasureBegun user log
  | [], h => by
    obtain ⟨newer, found, older, heq, -, -⟩ := h
    cases newer <;> cases heq
  | entry :: log, h => by
    rcases sinceOwner_cons_iff.1 h with ⟨was, purgeAfter, now, rfl, hfirst | ⟨-, hbegun⟩⟩ | ⟨hentry, h⟩
    · exact sinceOwner_cons_iff.2 (.inl hfirst)
    · exact sinceOwner_cons_iff.2 (.inr ⟨id, hbegun⟩)
    · exact sinceOwner_cons_iff.2 (.inr ⟨hentry, ErasesUnderClaim.begun h⟩)

end

/-! ## What a move can do -/

/-- The account that a sweep has claimed. -/
def ErasureAgent.user : ErasureAgent → Option ObjectId
  | .sweep (.claimed _ user _) => some user
  | .sweep (.erasing _ user _ _) => some user.id
  | _ => none

open AccountErasureService in
/-- The moves, by what they do to the accounts, the data and the log. -/
inductive ErasureStep (cfg : ErasureConfig) (who : ι) (s : ErasureWorld ι) :
    ErasureAgent → ErasureAgent × ErasureWorld ι → Prop
  /-- Nothing of these is written, and no account is held. -/
  | rest {agent agent' : ErasureAgent} {s' : ErasureWorld ι} (hidle : agent'.user = none)
    (husers : s'.users = s.users) (hdata : s'.data = s.data) (hlog : s'.log = s.log) :
    ErasureStep cfg who s agent (agent', s')
  | claim {phase : SweepPhase} {started now : Int} {user : ObjectId} {due : List ObjectId}
    {doc : UserDoc} (hdoc : s.users.lookup user = some doc)
    (hdue : UserRepository.purgeDue now cfg.claimLeaseSeconds doc = true) :
    ErasureStep cfg who s (.sweep phase) (.sweep (.claimed started user due), { s with
      users := (UserRepository.claimForErasure s.users user now cfg.claimLeaseSeconds).2
      log := .claimed who user doc.status doc.purgeAfter now :: s.log })
  | read {started : Int} {doc : UserDoc} {due : List ObjectId}
    (hdoc : s.users.lookup doc.id = some doc) :
    ErasureStep cfg who s (.sweep (.claimed started doc.id due))
      (.sweep (.erasing started doc [.urls] due), s)
  | erase {started : Int} {user : UserDoc} {step : EraseStep} {steps : List EraseStep}
    {due : List ObjectId} :
    ErasureStep cfg who s (.sweep (.erasing started user (step :: steps) due))
      (.sweep (.erasing started user
        (if step = .urls then stepsAfterUrls (urlIds user s.data) else steps) due),
        deleteFrom cfg s user step s.data.length)
  | skip {started : Int} {user : UserDoc} {steps : List EraseStep} {due : List ObjectId} :
    ErasureStep cfg who s (.sweep (.erasing started user (.person :: steps) due))
      (.sweep (.erasing started user steps due), s)
  | halt {started : Int} {user : UserDoc} {step : EraseStep} {steps : List EraseStep}
    {due : List ObjectId} (reached : Nat) :
    ErasureStep cfg who s (.sweep (.erasing started user (step :: steps) due))
      (.sweep (.sweeping started due), deleteFrom cfg s user step reached)
  | remove {started : Int} {user : UserDoc} {due : List ObjectId} :
    ErasureStep cfg who s (.sweep (.erasing started user [] due))
      (.sweep (.mailing started user.email due), { s with
        users := (UserRepository.deleteHard s.users user.id).2 })
  | request {user : ObjectId} {now : Int} {doc : UserDoc} (hdoc : s.users.lookup user = some doc)
    (hactive : doc.status = .active) :
    ErasureStep cfg who s (.owner (some (user, now))) (.owner none, { s with
      users := (UserRepository.markPendingDeletion s.users user cfg.graceDays now).2
      log := .requested user :: s.log })
  | restore {user : ObjectId} {doc : UserDoc} (hdoc : s.users.lookup user = some doc)
    (hpending : doc.status = .pendingDeletion) :
    ErasureStep cfg who s (.owner none) (.owner none, { s with
      users := (UserRepository.restore s.users user).2
      log := .restored user :: s.log })

section

variable {cfg : ErasureConfig} {who : ι} {s : ErasureWorld ι}

theorem ErasureStep.same {agent agent' : ErasureAgent} (hidle : agent'.user = none) :
    ErasureStep cfg who s agent (agent', s) := .rest hidle rfl rfl rfl

theorem AccountErasureService.step_move (choice : ErasureChoice) (phase : SweepPhase) :
    ErasureStep cfg who s (.sweep phase)
      (.sweep (move cfg who choice phase s).1, (move cfg who choice phase s).2) := by
  cases phase with
  | waiting => cases choice <;> exact .same rfl
  | selecting now => exact .same rfl
  | sweeping started due =>
    cases due with
    | nil => exact .same rfl
    | cons user due =>
      simp only [move]
      split <;> exact .same rfl
  | claiming started user now due =>
    simp only [move]
    split
    · rename_i doc users hdoc hwon
      obtain ⟨hmatched, rfl⟩ := Prod.mk.inj hwon
      rw [hdoc] at hmatched
      exact .claim hdoc hmatched
    · exact .same rfl
  | claimed started user due =>
    simp only [move]
    cases hdoc : s.users.lookup user with
    | none => exact .same rfl
    | some doc =>
      obtain rfl := (lookup_eq_some_iff.1 hdoc).2
      exact .read hdoc
  | erasing started user steps due =>
    cases steps with
    | cons step steps => exact .erase
    | nil =>
      simp only [move]
      split
      · rename_i users hdeleted
        obtain ⟨-, rfl⟩ := Prod.mk.inj hdeleted
        exact .remove
      · exact .same rfl
  | mailing started email due => exact .rest rfl rfl rfl rfl

theorem AccountErasureService.step_fail (reached : Nat) (phase : SweepPhase) :
    ErasureStep cfg who s (.sweep phase)
      (.sweep (fail cfg reached phase s).1, (fail cfg reached phase s).2) := by
  cases phase with
  | erasing started user steps due =>
    cases steps with
    | nil => exact .same rfl
    | cons step steps =>
      simp only [fail]
      split
      · rename_i hperson
        subst hperson
        exact .skip
      · exact .halt reached
  | _ => exact .same rfl

theorem ErasureAgent.step_move {answer : ErasureAnswer} {agent : ErasureAgent} :
    ErasureStep cfg who (s.wait answer.delay) agent (ErasureAgent.move cfg who answer agent s) := by
  cases agent with
  | owner request =>
    unfold ErasureAgent.move
    cases request with
    | none =>
      cases answer.choice with
      | restore user =>
        simp only [AccountErasureService.restore]
        split
        · rename_i users hrestored
          obtain ⟨hmatched, rfl⟩ := Prod.mk.inj hrestored
          obtain ⟨doc, hdoc, hpending⟩ := Option.any_eq_true .. |>.1 hmatched
          exact .restore hdoc (of_decide_eq_true hpending)
        · exact .same rfl
      | _ => exact .same rfl
    | some request =>
      cases answer.choice with
      | go =>
        simp only [AccountErasureService.request]
        split
        · rename_i users hflipped
          obtain ⟨hmatched, rfl⟩ := Prod.mk.inj hflipped
          obtain ⟨doc, hdoc, hactive⟩ := Option.any_eq_true .. |>.1 hmatched
          exact .request hdoc (of_decide_eq_true hactive)
        · exact .same rfl
      | _ => exact .same rfl
  | sweep phase =>
    unfold ErasureAgent.move
    cases answer.choice with
    | crash => exact .same rfl
    | fail reached => exact AccountErasureService.step_fail reached phase
    | _ => exact AccountErasureService.step_move _ phase

end

/-! ## The invariant -/

/-- A pending account has not been restored last, and one that is erased has been claimed as it must. -/
structure ErasureSound (s : ErasureWorld ι) : Prop where
  pending : ∀ user doc, s.users.lookup user = some doc → doc.status = .pendingDeletion →
    ¬ StandsRestored user s.log
  erasing : ∀ user doc, s.users.lookup user = some doc → doc.status = .erasing →
    ErasureBegun user s.log
  restored : ∀ user, StandsRestored user s.log → ¬ ErasureBegun user s.log

/-- A sweep erases under a claim, and the account is out of reach of its owner. -/
def ErasesSoundly (who : ι) (agent : ErasureAgent) (s : ErasureWorld ι) : Prop :=
  ∀ user, agent.user = some user → ErasesUnderClaim who user s.log ∧
    ∀ doc, s.users.lookup user = some doc → doc.status = .erasing

/-- What a move has to show. -/
abbrev KeepsErasure (who : ι) (s : ErasureWorld ι) (moved : ErasureAgent × ErasureWorld ι) : Prop :=
  Pool.Keeps ErasureSound ErasesSoundly who s moved

section

variable {who : ι} {s s' : ErasureWorld ι} {agent : ErasureAgent}

/-- A move that writes no account and logs nothing, but for accounts that are deleted. -/
theorem keepsErasure_of_sub (hs : ErasureSound s)
    (husers : ∀ user doc, s'.users.lookup user = some doc → s.users.lookup user = some doc)
    (hlog : s'.log = s.log) (hagent : ErasesSoundly who agent s) :
    KeepsErasure who s (agent, s') := by
  have hsoundly (i : ι) (agent : ErasureAgent) (h : ErasesSoundly i agent s) :
      ErasesSoundly i agent s' := by
    intro user huser
    rw [hlog]
    exact (h user huser).imp id fun herasing doc hdoc => herasing doc (husers user doc hdoc)
  refine ⟨⟨fun user doc hdoc => ?_, fun user doc hdoc => ?_, ?_⟩, hsoundly who agent hagent,
    fun i agent _ => hsoundly i agent⟩ <;> simp only [hlog]
  · exact hs.pending user doc (husers user doc hdoc)
  · exact hs.erasing user doc (husers user doc hdoc)
  · exact hs.restored

theorem keepsErasure_of_same (hs : ErasureSound s) (husers : s'.users = s.users)
    (hlog : s'.log = s.log) (hagent : ErasesSoundly who agent s) :
    KeepsErasure who s (agent, s') :=
  keepsErasure_of_sub hs (fun _ _ hdoc => husers ▸ hdoc) hlog hagent

/-- A claim that is won. -/
theorem keepsErasure_claim {user : ObjectId} {doc : UserDoc} {now : Int} {leaseSeconds : Nat}
    {phase : SweepPhase} (hs : ErasureSound s) (hdoc : s.users.lookup user = some doc)
    (hdue : UserRepository.purgeDue now leaseSeconds doc = true)
    (hphase : (ErasureAgent.sweep phase).user = some user)
    (hself : s'.users.lookup user = some { doc with status := .erasing, erasureClaimedAt := some now })
    (hother : ∀ other, other ≠ user → s'.users.lookup other = s.users.lookup other)
    (hlog : s'.log = .claimed who user doc.status doc.purgeAfter now :: s.log) :
    KeepsErasure who s (.sweep phase, s') := by
  -- Either the account is pending and due, or it is claimed already.
  have hwon : (IsFirstClaim user (.claimed who user doc.status doc.purgeAfter now : ErasureEntry ι) ∧
        ¬ StandsRestored user s.log) ∨ doc.status = .erasing ∧ ErasureBegun user s.log := by
    simp only [UserRepository.purgeDue, Bool.or_eq_true, Bool.and_eq_true, decide_eq_true_eq] at hdue
    rcases hdue with ⟨hpending, hpurge⟩ | ⟨herasing, -⟩
    · obtain ⟨purgeAfter, hpurge, hpast⟩ := Option.any_eq_true .. |>.1 hpurge
      refine .inl ⟨⟨who, purgeAfter, now, by rw [hpending, hpurge], by simpa using hpast⟩, ?_⟩
      exact hs.pending user doc hdoc hpending
    · exact .inr ⟨herasing, hs.erasing user doc hdoc herasing⟩
  have hclaim : ErasesUnderClaim who user s'.log := by
    rw [hlog]
    refine sinceOwner_cons_iff.2 (.inl ⟨_, _, _, rfl, ?_⟩)
    exact hwon.imp (·.1) id
  have hrestored (other : ObjectId) : StandsRestored other s'.log ↔ StandsRestored other s.log := by
    rw [hlog, standsRestored_cons_iff]
    simp
  have hbegun {other : ObjectId} (h : ErasureBegun other s.log) : ErasureBegun other s'.log := by
    rw [hlog]
    exact sinceOwner_cons_iff.2 (.inr ⟨id, h⟩)
  have hsoundly (i : ι) (agent : ErasureAgent) (h : ErasesSoundly i agent s) :
      ErasesSoundly i agent s' := by
    intro other hheld
    obtain ⟨hclaimed, herasing⟩ := h other hheld
    refine ⟨?_, fun found hfound => ?_⟩
    · rw [hlog]
      exact sinceOwner_cons_iff.2 (.inr ⟨id, hclaimed⟩)
    · by_cases hsame : other = user
      · subst hsame
        rw [hself] at hfound
        cases hfound
        rfl
      · rw [hother other hsame] at hfound
        exact herasing found hfound
  refine ⟨⟨fun other found hfound hpending => ?_, fun other found hfound herasing => ?_,
    fun other h hbegan => ?_⟩, fun other hheld => ?_, fun i agent _ => hsoundly i agent⟩
  · rw [hrestored]
    by_cases hsame : other = user
    · subst hsame
      rw [hself] at hfound
      cases hfound
      cases hpending
    · rw [hother other hsame] at hfound
      exact hs.pending other found hfound hpending
  · by_cases hsame : other = user
    · subst hsame
      exact hclaim.begun
    · rw [hother other hsame] at hfound
      exact hbegun (hs.erasing other found hfound herasing)
  · rw [hrestored] at h
    rw [hlog] at hbegan
    rcases sinceOwner_cons_iff.1 hbegan with ⟨i, purgeAfter, at', heq, -⟩ | ⟨-, hbegan⟩
    · injection heq with _ hsame hpending _ _
      rcases hwon with ⟨-, hnot⟩ | ⟨herasing, -⟩
      · exact hnot (hsame ▸ h)
      · rw [hpending] at herasing
        cases herasing
    · exact hs.restored other h hbegan
  · rw [hphase] at hheld
    cases hheld
    refine ⟨hclaim, fun found hfound => ?_⟩
    rw [hself] at hfound
    cases hfound
    rfl

/-- A write of the owner, who finds the account neither claimed nor gone. -/
theorem keepsErasure_owner {user : ObjectId} {doc doc' : UserDoc} {entry : ErasureEntry ι}
    {request : Option (ObjectId × Int)} (hs : ErasureSound s)
    (hdoc : s.users.lookup user = some doc) (hfound : doc.status ≠ .erasing)
    (hself : s'.users.lookup user = some doc')
    (hother : ∀ other, other ≠ user → s'.users.lookup other = s.users.lookup other)
    (hlog : s'.log = entry :: s.log)
    (hentry : entry = .requested user ∧ doc'.status = .pendingDeletion ∨
      entry = .restored user ∧ doc'.status = .active) :
    KeepsErasure who s (.owner request, s') := by
  have howners (other : ObjectId) : entry.IsOwners other ↔ other = user := by
    rcases hentry with ⟨rfl, -⟩ | ⟨rfl, -⟩ <;> exact eq_comm
  have hnot (other : ObjectId) : ¬ IsFirstClaim other entry := by
    rcases hentry with ⟨rfl, -⟩ | ⟨rfl, -⟩ <;> simp [IsFirstClaim]
  have hbegun (other : ObjectId) :
      ErasureBegun other s'.log ↔ other ≠ user ∧ ErasureBegun other s.log := by
    unfold ErasureBegun
    rw [hlog, sinceOwner_cons_iff, howners]
    exact or_iff_right (hnot other)
  have hrestored (other : ObjectId) (hne : other ≠ user) :
      StandsRestored other s'.log ↔ StandsRestored other s.log := by
    rw [hlog, standsRestored_cons_iff]
    rcases hentry with ⟨rfl, -⟩ | ⟨rfl, -⟩ <;> simp [Ne.symm hne]
  refine ⟨⟨fun other found hlookup hpending => ?_, fun other found hlookup herasing => ?_,
    fun other h hbegan => ?_⟩,
    fun other hheld => (nomatch hheld), fun i agent _ h other hheld => ?_⟩
  · by_cases hsame : other = user
    · subst hsame
      rw [hself] at hlookup
      cases hlookup
      rcases hentry with ⟨rfl, -⟩ | ⟨-, hactive⟩
      · rw [hlog, standsRestored_cons_iff]
        simp
      · rw [hactive] at hpending
        cases hpending
    · rw [hrestored other hsame]
      rw [hother other hsame] at hlookup
      exact hs.pending other found hlookup hpending
  · by_cases hsame : other = user
    · subst hsame
      rw [hself] at hlookup
      cases hlookup
      rcases hentry with ⟨-, hstatus⟩ | ⟨-, hstatus⟩ <;> rw [hstatus] at herasing <;> cases herasing
    · rw [hother other hsame] at hlookup
      exact (hbegun other).2 ⟨hsame, hs.erasing other found hlookup herasing⟩
  · obtain ⟨hne, hbegan⟩ := (hbegun other).1 hbegan
    exact hs.restored other ((hrestored other hne).1 h) hbegan
  · obtain ⟨hclaimed, herasing⟩ := h other hheld
    have hne : other ≠ user := by
      rintro rfl
      exact hfound (herasing doc hdoc)
    refine ⟨?_, fun found hlookup => herasing found ((hother other hne).symm.trans hlookup)⟩
    rw [hlog]
    exact sinceOwner_cons_iff.2 (.inr ⟨fun h => hne ((howners other).1 h), hclaimed⟩)

/-- Each move keeps what is asserted of all. -/
theorem keepsErasure_step {cfg : ErasureConfig} {moved : ErasureAgent × ErasureWorld ι}
    (hs : ErasureSound s) (hagent : ErasesSoundly who agent s)
    (hstep : ErasureStep cfg who s agent moved) : KeepsErasure who s moved := by
  cases hstep with
  | rest hidle husers hdata hlog =>
    exact keepsErasure_of_same hs husers hlog fun user hheld => by rw [hidle] at hheld; cases hheld
  | claim hdoc hdue =>
    obtain ⟨found, hfound, -, hself, hother⟩ :=
      exists_of_updateOne _ (Option.any_eq_true .. |>.2 ⟨_, hdoc, hdue⟩)
    cases hdoc.symm.trans hfound
    exact keepsErasure_claim hs hdoc hdue rfl hself hother rfl
  | read hdoc =>
    exact keepsErasure_of_same hs rfl rfl fun other hheld => by cases hheld; exact hagent _ rfl
  | erase => exact keepsErasure_of_same hs rfl rfl hagent
  | skip => exact keepsErasure_of_same hs rfl rfl hagent
  | halt reached => exact keepsErasure_of_same hs rfl rfl fun other hheld => nomatch hheld
  | remove =>
    refine keepsErasure_of_sub hs (fun other doc hdoc => ?_) rfl fun other hheld => nomatch hheld
    rw [UserRepository.deleteHard, lookup_deleteMany, Option.filter_eq_some_iff] at hdoc
    exact hdoc.1
  | @request user now doc hdoc hactive =>
    have hmatched : (s.users.lookup user).any (·.status = .active) = true := by simp [hdoc, hactive]
    obtain ⟨found, hfound, -, hself, hother⟩ := exists_of_updateOne _ hmatched
    cases hdoc.symm.trans hfound
    exact keepsErasure_owner hs hdoc (by simp [hactive]) hself hother rfl (.inl ⟨rfl, rfl⟩)
  | @restore user doc hdoc hpending =>
    have hmatched : (s.users.lookup user).any (·.status = .pendingDeletion) = true := by
      simp [hdoc, hpending]
    obtain ⟨found, hfound, -, hself, hother⟩ := exists_of_updateOne _ hmatched
    cases hdoc.symm.trans hfound
    exact keepsErasure_owner hs hdoc (by simp [hpending]) hself hother rfl (.inr ⟨rfl, rfl⟩)

/-- Nothing that is asserted depends on the clock. -/
theorem keepsErasure_agent {cfg : ErasureConfig} {answer : ErasureAnswer} (hs : ErasureSound s)
    (hagent : ErasesSoundly who agent s) :
    KeepsErasure who s (ErasureAgent.move cfg who answer agent s) := by
  have hwaited : ErasureSound (s.wait answer.delay) := ⟨hs.pending, hs.erasing, hs.restored⟩
  obtain ⟨hshared, hown, hothers⟩ :=
    keepsErasure_step hwaited hagent (@ErasureAgent.step_move ι cfg who s answer agent)
  exact ⟨hshared, hown, hothers⟩

end

/-! ## Whose the data are -/

/-- The item bears a mail address. The allowlists hold an address in small letters too. -/
def DataItem.Bears (item : DataItem) (email : String) : Prop :=
  match item.kind with
  | .verificationToken => email ≠ "" ∧ item.email = some email
  | .reportSubmission => item.email = some email
  | .allowlisted => item.email = some email ∨ item.email = some email.toLower
  | _ => False

/-- The objects of an account lie under the name that its id has now, or under the one that was noted
when they were stored. -/
def UserDoc.StoresUnder (cfg : ErasureConfig) (doc : UserDoc) (name : String) : Prop :=
  name = cfg.ownerKeyPrefix doc.id ∨ name ≠ "" ∧ doc.storagePrefix = some name

/-- The item is the account's own: it names the account, it is a click on one of the account's links,
it bears the account's mail address, or it is an object that lies where the account's objects do. The
links and the account are those of `start`. -/
inductive BelongsTo (cfg : ErasureConfig) (start : ErasureWorld ι) (account : ObjectId)
    (item : DataItem) : Prop
  | owned (howner : item.owner = account)
  | clicked (link : DataItem) (hlink : link ∈ start.data) (hurl : link.kind = .url)
    (howner : link.owner = account) (hkind : item.kind = .click) (hclick : item.urlId = some link.id)
  | mailed (doc : UserDoc) (hdoc : start.users.lookup account = some doc) (hbears : item.Bears doc.email)
  | stored (doc : UserDoc) (name : String) (scope : String)
    (hdoc : start.users.lookup account = some doc) (hname : doc.StoresUnder cfg name)
    (hscope : scope ∈ ["profile-pictures/", "og/"]) (hkind : item.kind = .object)
    (hkey : (scope ++ name ++ "/").toList <+: item.key.toList)

/-- The accounts and the links are among those of `start`, with the mail addresses, the names of their
objects and the owners that they had. -/
structure ComesFrom (start s : ErasureWorld ι) : Prop where
  users : ∀ account doc, s.users.lookup account = some doc →
    ∃ found, start.users.lookup account = some found ∧ doc.email = found.email ∧
      doc.storagePrefix = found.storagePrefix
  links : ∀ item ∈ s.data, item.kind = .url →
    ∃ link ∈ start.data, link.kind = .url ∧ link.owner = item.owner ∧ link.id = item.id

/-- The ids of links that a deletion goes by are those of the account's links. -/
def EraseStep.GoesByLinksOf (start : ErasureWorld ι) (account : ObjectId) : EraseStep → Prop
  | .clicksByUrlIds urlIds => ∀ urlId ∈ urlIds,
      ∃ link ∈ start.data, link.kind = .url ∧ link.owner = account ∧ link.id = urlId
  | _ => True

/-- What a sweep holds of an account that it erases is that account's. -/
structure HoldsOwn (start : ErasureWorld ι) (user : UserDoc) (steps : List EraseStep) : Prop where
  stored : ∃ found, start.users.lookup user.id = some found ∧ user.email = found.email ∧
    user.storagePrefix = found.storagePrefix
  steps : ∀ step ∈ steps, step.GoesByLinksOf start user.id

/-- A sweep that erases holds what is the account's own. -/
def ErasesOwn (start : ErasureWorld ι) (_ : ι) (agent : ErasureAgent) (_ : ErasureWorld ι) : Prop :=
  match agent with
  | .sweep (.erasing _ user steps _) => HoldsOwn start user steps
  | _ => True

section

variable {cfg : ErasureConfig} {who : ι} {start s : ErasureWorld ι}

namespace AccountErasureService

/-- What is left of an item is the item, but for a scrubbed link. -/
theorem eraseItem_eq_some {user : UserDoc} {step : EraseStep} {item left : DataItem}
    (h : eraseItem cfg user step item = some left) :
    left.kind = item.kind ∧ left.owner = item.owner ∧ left.id = item.id := by
  unfold eraseItem at h
  split_ifs at h <;> cases h <;> exact ⟨rfl, rfl, rfl⟩

theorem goesByLinksOf_stepsAfterUrls {user : UserDoc} (hs : ComesFrom start s) :
    ∀ step ∈ stepsAfterUrls (urlIds user s.data), step.GoesByLinksOf start user.id := by
  intro step hstep
  cases step with
  | clicksByUrlIds chunk =>
    intro urlId hurlId
    have hchunk : chunk ∈ PyList.chunks clickIdChunk (urlIds user s.data) := by
      simpa [stepsAfterUrls] using hstep
    have hmem := (PyList.mem_flatten_chunks (by decide)).1 (List.mem_flatten_of_mem hchunk hurlId)
    obtain ⟨item, hitem, rfl⟩ := List.mem_map.1 hmem
    obtain ⟨hitem, hown⟩ := List.mem_filter.1 hitem
    simp only [Bool.and_eq_true, decide_eq_true_eq] at hown
    obtain ⟨link, hlink, hurl, howner, hid⟩ := hs.links item hitem hown.1
    exact ⟨link, hlink, hurl, howner.trans hown.2, hid⟩
  | _ => trivial

/-- The names under which the objects are looked for. -/
theorem storesUnder_of_mem_r2Prefixes {user : UserDoc} {name : String}
    (h : name ∈ r2Prefixes cfg user) : user.StoresUnder cfg name := by
  unfold r2Prefixes at h
  cases hstored : user.storagePrefix with
  | none =>
    rw [hstored] at h
    exact .inl (List.mem_singleton.1 h)
  | some stored =>
    simp only [hstored] at h
    split_ifs at h with hempty hsame
    · exact .inl (List.mem_singleton.1 h)
    · exact .inl ((List.mem_singleton.1 h).trans hsame)
    · rcases List.mem_cons.1 h with rfl | h
      · exact .inr ⟨hempty, hstored⟩
      · exact .inl (List.mem_singleton.1 h)

/-- What a deletion goes for is the account's own. -/
theorem belongsTo_of_hits {user : UserDoc} {step : EraseStep} {steps : List EraseStep}
    {item : DataItem} (hown : HoldsOwn start user (step :: steps))
    (hhit : hits cfg user step item = true) : BelongsTo cfg start user.id item := by
  obtain ⟨doc, hdoc, hemail, hstored⟩ := hown.stored
  have hid : doc.id = user.id := (lookup_eq_some_iff.1 hdoc).2
  have hstep := hown.steps step List.mem_cons_self
  have howned {kind : DataKind} (h : item.kind = kind ∧ item.owner = user.id) :
      BelongsTo cfg start user.id item := .owned h.2
  cases step <;> simp only [hits, Bool.and_eq_true, Bool.or_eq_true, decide_eq_true_eq] at hhit
  case clicksByUrlIds urlIds =>
    obtain ⟨urlId, hclick, hmem⟩ := Option.any_eq_true .. |>.1 hhit.2
    obtain ⟨link, hlink, hurl, howner, rfl⟩ := hstep urlId (by simpa using hmem)
    exact .clicked link hlink hurl howner hhit.1 hclick
  case verificationTokens =>
    split_ifs at hhit with hempty
    · exact howned (by simpa using hhit)
    · simp only [Bool.and_eq_true, Bool.or_eq_true, decide_eq_true_eq] at hhit
      rcases hhit with ⟨hkind, howner | hmail⟩
      · exact .owned howner
      · refine .mailed doc hdoc ?_
        rw [DataItem.Bears, hkind, ← hemail]
        exact ⟨hempty, hmail⟩
  case reportSubmissions =>
    rcases hhit with ⟨hkind, howner | hmail⟩
    · exact .owned howner
    · refine .mailed doc hdoc ?_
      rw [DataItem.Bears, hkind, ← hemail]
      exact hmail
  case allowlists =>
    rcases hhit with hown | ⟨hkind, hmail⟩
    · exact howned hown
    · refine .mailed doc hdoc ?_
      rw [DataItem.Bears, hkind, ← hemail]
      exact hmail
  case objects =>
    obtain ⟨⟨-, hkind⟩, hscope⟩ := hhit
    obtain ⟨name, hname, hany⟩ := List.any_eq_true.1 hscope
    have hunder : doc.StoresUnder cfg name := by
      have h := storesUnder_of_mem_r2Prefixes hname
      rwa [UserDoc.StoresUnder, ← hid, hstored] at h
    simp only [List.any_cons, List.any_nil, Bool.or_false, Bool.or_eq_true,
      List.isPrefixOf_iff_prefix] at hany
    rcases hany with hkey | hkey
    · exact .stored doc name _ hdoc hunder (by simp) hkind hkey
    · exact .stored doc name _ hdoc hunder (by simp) hkind hkey
  all_goals exact howned hhit

end AccountErasureService

theorem ComesFrom.updateOne {s' : ErasureWorld ι} {user : ObjectId} {q : UserDoc → Bool}
    {u : Mongo.KeyedUpdate UserDoc} (hs : ComesFrom start s) (hdata : s'.data = s.data)
    (husers : s'.users = s.users.updateOne user q u)
    (hkept : ∀ doc, (u.apply doc).email = doc.email ∧
      (u.apply doc).storagePrefix = doc.storagePrefix) : ComesFrom start s' where
  users account doc hdoc := by
    rw [husers] at hdoc
    by_cases hsame : account = user
    · subst hsame
      rw [lookup_updateOne_self] at hdoc
      obtain ⟨found, hfound, rfl⟩ := Option.map_eq_some_iff.1 hdoc
      obtain ⟨first, hfirst, hemail, hstored⟩ := hs.users account found hfound
      refine ⟨first, hfirst, ?_⟩
      rw [applyWhere]
      split
      · exact ⟨(hkept found).1.trans hemail, (hkept found).2.trans hstored⟩
      · exact ⟨hemail, hstored⟩
    · rw [lookup_updateOne_of_ne _ _ _ hsame] at hdoc
      exact hs.users account doc hdoc
  links := hdata ▸ hs.links

theorem ComesFrom.deleteFrom {user : UserDoc} {step : EraseStep} {reached : Nat}
    (hs : ComesFrom start s) :
    ComesFrom start (AccountErasureService.deleteFrom cfg s user step reached) where
  users := hs.users
  links item hitem hurl := by
    rcases List.mem_append.1 hitem with hitem | hitem
    · obtain ⟨was, hwas, hleft⟩ := List.mem_filterMap.1 hitem
      obtain ⟨hkind, howner, hid⟩ := AccountErasureService.eraseItem_eq_some hleft
      rw [howner, hid]
      exact hs.links was (List.mem_of_mem_take hwas) (hkind ▸ hurl)
    · exact hs.links item (List.mem_of_mem_drop hitem) hurl

/-- What a move has to show of the data. -/
abbrev KeepsOwn (start : ErasureWorld ι) (who : ι) (s : ErasureWorld ι)
    (moved : ErasureAgent × ErasureWorld ι) : Prop :=
  Pool.Keeps (ComesFrom start) (ErasesOwn start) who s moved

theorem keepsOwn_intro {moved : ErasureAgent × ErasureWorld ι} (hshared : ComesFrom start moved.2)
    (hown : ErasesOwn start who moved.1 moved.2) : KeepsOwn start who s moved :=
  ⟨hshared, hown, fun _ _ _ h => h⟩

theorem erasesOwn_of_idle {agent : ErasureAgent} (hidle : agent.user = none) :
    ErasesOwn start who agent s := by
  cases agent with
  | owner request => trivial
  | sweep phase =>
    cases phase with
    | erasing started user steps due => cases hidle
    | _ => trivial

theorem keepsOwn_step {agent : ErasureAgent} {moved : ErasureAgent × ErasureWorld ι}
    (hs : ComesFrom start s) (hown : ErasesOwn start who agent s)
    (hstep : ErasureStep cfg who s agent moved) : KeepsOwn start who s moved := by
  cases hstep with
  | rest hidle husers hdata hlog =>
    exact keepsOwn_intro ⟨husers ▸ hs.users, hdata ▸ hs.links⟩ (erasesOwn_of_idle hidle)
  | claim hdoc hdue => exact keepsOwn_intro (hs.updateOne rfl rfl fun _ => ⟨rfl, rfl⟩) trivial
  | read hdoc =>
    refine keepsOwn_intro hs ⟨hs.users _ _ hdoc, fun step hstep => ?_⟩
    rw [List.mem_singleton.1 hstep]
    trivial
  | @erase started user step steps due =>
    refine keepsOwn_intro hs.deleteFrom ⟨hown.stored, ?_⟩
    by_cases hurls : step = .urls
    · rw [if_pos hurls]
      exact AccountErasureService.goesByLinksOf_stepsAfterUrls hs
    · rw [if_neg hurls]
      exact fun step hstep => hown.steps step (List.mem_cons_of_mem _ hstep)
  | skip =>
    exact keepsOwn_intro hs
      ⟨hown.stored, fun step hstep => hown.steps step (List.mem_cons_of_mem _ hstep)⟩
  | halt reached => exact keepsOwn_intro hs.deleteFrom trivial
  | remove =>
    refine keepsOwn_intro ⟨fun account doc hdoc => ?_, hs.links⟩ trivial
    rw [UserRepository.deleteHard, lookup_deleteMany, Option.filter_eq_some_iff] at hdoc
    exact hs.users account doc hdoc.1
  | request hdoc hactive => exact keepsOwn_intro (hs.updateOne rfl rfl fun _ => ⟨rfl, rfl⟩) trivial
  | restore hdoc hpending => exact keepsOwn_intro (hs.updateOne rfl rfl fun _ => ⟨rfl, rfl⟩) trivial

theorem keepsOwn_agent {answer : ErasureAnswer} {agent : ErasureAgent} (hs : ComesFrom start s)
    (hown : ErasesOwn start who agent s) :
    KeepsOwn start who s (ErasureAgent.move cfg who answer agent s) := by
  have hwaited : ComesFrom start (s.wait answer.delay) := ⟨hs.users, hs.links⟩
  have hown : ErasesOwn start who agent (s.wait answer.delay) := hown
  obtain ⟨hshared, hown, hothers⟩ :=
    keepsOwn_step hwaited hown (@ErasureAgent.step_move ι cfg who s answer agent)
  exact ⟨hshared, hown, hothers⟩

end

/-! ## What is lost -/

section

variable {cfg : ErasureConfig} {who : ι} {start s : ErasureWorld ι}

theorem hits_of_lost {user : UserDoc} {step : EraseStep} {reached : Nat} {item : DataItem}
    (hmem : item ∈ s.data)
    (hlost : item ∉ (AccountErasureService.deleteFrom cfg s user step reached).data) :
    AccountErasureService.hits cfg user step item = true := by
  simp only [AccountErasureService.deleteFrom, List.mem_append, List.mem_filterMap, not_or,
    not_exists, not_and] at hlost
  rw [← List.take_append_drop reached s.data, List.mem_append] at hmem
  rcases hmem with hmem | hmem
  · by_contra hmiss
    refine hlost.1 item hmem ?_
    rw [AccountErasureService.eraseItem, if_neg hmiss]
  · exact (hlost.2 hmem).elim

/-- Items and accounts are lost to a sweep that has claimed the account they belong to. -/
structure LostToClaim (cfg : ErasureConfig) (start s : ErasureWorld ι)
    (moved : ErasureAgent × ErasureWorld ι) (agent : ErasureAgent) : Prop where
  item : ∀ item ∈ s.data, item ∉ moved.2.data →
    ∃ user, agent.user = some user ∧ BelongsTo cfg start user item
  account : ∀ user, (s.users.lookup user).isSome → moved.2.users.lookup user = none →
    agent.user = some user

theorem lostToClaim_of_kept {agent : ErasureAgent} {moved : ErasureAgent × ErasureWorld ι}
    (hdata : moved.2.data = s.data)
    (husers : ∀ user, (s.users.lookup user).isSome → (moved.2.users.lookup user).isSome) :
    LostToClaim cfg start s moved agent where
  item item hmem hlost := (hlost (hdata ▸ hmem)).elim
  account user hfound hlost := by
    have := husers user hfound
    rw [hlost] at this
    cases this

theorem lostToClaim_deleteFrom {user : UserDoc} {step : EraseStep} {reached : Nat} {started : Int}
    {steps : List EraseStep} {due : List ObjectId} {agent : ErasureAgent}
    (hown : HoldsOwn start user (step :: steps)) :
    LostToClaim cfg start s (agent, AccountErasureService.deleteFrom cfg s user step reached)
      (.sweep (.erasing started user (step :: steps) due)) where
  item _ hmem hlost :=
    ⟨user.id, rfl, AccountErasureService.belongsTo_of_hits hown (hits_of_lost hmem hlost)⟩
  account _ hfound hlost := by
    rw [show s.users.lookup _ = none from hlost] at hfound
    cases hfound

theorem isSome_lookup_updateOne {users : UserStore} {user : ObjectId} {q : UserDoc → Bool}
    {u : Mongo.KeyedUpdate UserDoc} (other : ObjectId) (h : (users.lookup other).isSome) :
    ((users.updateOne user q u).lookup other).isSome := by
  by_cases hsame : other = user
  · subst hsame
    rw [lookup_updateOne_self, Option.isSome_map]
    exact h
  · rwa [lookup_updateOne_of_ne _ _ _ hsame]

/-- Only sweeps delete. -/
theorem lostToClaim_step {agent : ErasureAgent} {moved : ErasureAgent × ErasureWorld ι}
    (hown : ErasesOwn start who agent s) (hstep : ErasureStep cfg who s agent moved) :
    LostToClaim cfg start s moved agent := by
  cases hstep with
  | rest hidle husers hdata hlog => exact lostToClaim_of_kept hdata fun user hfound => by rwa [husers]
  | claim hdoc hdue => exact lostToClaim_of_kept rfl fun other => isSome_lookup_updateOne other
  | read hdoc => exact lostToClaim_of_kept rfl fun _ => id
  | erase => exact lostToClaim_deleteFrom hown
  | skip => exact lostToClaim_of_kept rfl fun _ => id
  | halt reached => exact lostToClaim_deleteFrom hown
  | remove =>
    refine ⟨fun item hmem hlost => (hlost hmem).elim, fun other hfound hlost => ?_⟩
    obtain ⟨doc, hdoc⟩ := Option.isSome_iff_exists.1 hfound
    rw [UserRepository.deleteHard, lookup_deleteMany, hdoc, Option.filter_eq_none_iff] at hlost
    have hgone := hlost doc rfl
    simp only [Bool.not_eq_true, Bool.not_eq_false', Bool.and_eq_true, decide_eq_true_eq] at hgone
    rw [← (lookup_eq_some_iff.1 hdoc).2]
    exact congrArg some hgone.1.symm
  | request hdoc hactive => exact lostToClaim_of_kept rfl fun other => isSome_lookup_updateOne other
  | restore hdoc hpending => exact lostToClaim_of_kept rfl fun other => isSome_lookup_updateOne other

theorem lostToClaim_agent {answer : ErasureAnswer} {agent : ErasureAgent}
    (hown : ErasesOwn start who agent s) :
    LostToClaim cfg start s (ErasureAgent.move cfg who answer agent s) agent := by
  have hown : ErasesOwn start who agent (s.wait answer.delay) := hown
  obtain ⟨hitem, haccount⟩ :=
    lostToClaim_step hown (@ErasureAgent.step_move ι cfg who s answer agent)
  exact ⟨hitem, haccount⟩

end

/-- Sweeps are idle, no erasure is under way, and nothing is logged. -/
structure ErasureAtRest (pool : Pool ι ErasureAgent (ErasureWorld ι)) : Prop where
  idle : ∀ who, (pool.agents who).user = none
  log : pool.shared.log = []
  untouched : ∀ user doc, pool.shared.users.lookup user = some doc → doc.status ≠ .erasing

/-- After any moves, an item that is lost is one of an account, and whoever makes an account lose its
data or its document erases under a claim that was won while the account was pending deletion and past
its purge time, and the account has not been restored without being requested to be deleted since. -/
theorem lost_under_claim [DecidableEq ι] (cfg : ErasureConfig)
    (pool : Pool ι ErasureAgent (ErasureWorld ι)) (events : List (ι × ErasureAnswer))
    (hstart : ErasureAtRest pool) :
    ∀ t ∈ List.scanl (Pool.step (ErasureAgent.move cfg)) pool events, ∀ who answer,
      (∀ item ∈ t.shared.data,
        item ∉ (t.step (ErasureAgent.move cfg) (who, answer)).shared.data →
          ∃ user, BelongsTo cfg pool.shared user item ∧ ErasesUnderClaim who user t.shared.log ∧
            ¬ StandsRestored user t.shared.log) ∧
      ∀ user, (t.shared.users.lookup user).isSome →
        (t.step (ErasureAgent.move cfg) (who, answer)).shared.users.lookup user = none →
          ErasesUnderClaim who user t.shared.log ∧ ¬ StandsRestored user t.shared.log := by
  intro t ht who answer
  have hsound : t.Sound ErasureSound ErasesSoundly := by
    refine Pool.Sound.forall_mem_scanl_of_step (fun pool event h =>
      keepsErasure_agent h.shared (h.agents event.1)) ⟨⟨?_, ?_, ?_⟩, ?_⟩ t ht
    · rintro user doc - - ⟨newer, older, hlog, -⟩
      rw [hstart.log] at hlog
      cases newer <;> cases hlog
    · exact fun user doc hdoc herasing => (hstart.untouched user doc hdoc herasing).elim
    · rintro user ⟨newer, older, hlog, -⟩
      rw [hstart.log] at hlog
      cases newer <;> cases hlog
    · intro who user hheld
      rw [hstart.idle who] at hheld
      cases hheld
  have hclaim {user : ObjectId} (hheld : (t.agents who).user = some user) :
      ErasesUnderClaim who user t.shared.log ∧ ¬ StandsRestored user t.shared.log := by
    obtain ⟨hclaim, -⟩ := hsound.agents who user hheld
    exact ⟨hclaim, fun hrestored => hsound.shared.restored user hrestored hclaim.begun⟩
  have hdata : t.Sound (ComesFrom pool.shared) (ErasesOwn pool.shared) := by
    refine Pool.Sound.forall_mem_scanl_of_step (fun pool event h =>
      keepsOwn_agent h.shared (h.agents event.1)) ⟨⟨?_, ?_⟩, fun i => ?_⟩ t ht
    · exact fun account doc hdoc => ⟨doc, hdoc, rfl, rfl⟩
    · exact fun item hitem hurl => ⟨item, hitem, hurl, rfl, rfl⟩
    · exact erasesOwn_of_idle (hstart.idle i)
  have hlost : LostToClaim cfg pool.shared t.shared
      (ErasureAgent.move cfg who answer (t.agents who) t.shared) (t.agents who) :=
    lostToClaim_agent (hdata.agents who)
  refine ⟨fun item hmem hgone => ?_, fun user hfound hgone => ?_⟩
  · obtain ⟨user, hheld, hbelongs⟩ := hlost.item item hmem hgone
    exact ⟨user, hbelongs, hclaim hheld⟩
  · exact hclaim (hlost.account user hfound hgone)

/-- An account with a link, a sweep and the owner. -/
def accountAndSweep : Pool Bool ErasureAgent (ErasureWorld Bool) where
  agents who := if who then .sweep .waiting else .owner none
  shared := {
    users := ⟨[{ id := 1, email := "someone@example.com" }], by simp, by simp⟩
    data := [{ kind := .url, id := 7, owner := 1 }]
    clock := 0 }

theorem erasureAtRest_accountAndSweep : ErasureAtRest accountAndSweep where
  idle who := by cases who <;> rfl
  log := rfl
  untouched user doc hdoc := by
    obtain ⟨hmem, -⟩ := lookup_eq_some_iff.1 hdoc
    rw [show accountAndSweep.shared.users.docs = [{ id := 1, email := "someone@example.com" }] from
      rfl, List.mem_singleton] at hmem
    rw [hmem]
    exact nofun

/-- The cascade crashes after the claim, the owner comes too late, and the account is taken over. -/
theorem lost_under_claim_of_crash :
    ErasureAtRest accountAndSweep ∧
    ∀ t ∈ List.scanl (Pool.step (ErasureAgent.move { graceDays := 30, ownerKeyPrefix := fun _ => "" }))
        accountAndSweep [(false, ⟨0, .requestDeletion 1⟩), (false, ⟨0, .go⟩),
          (true, ⟨2592000000, .erase 1⟩), (true, ⟨0, .go⟩), (true, ⟨0, .crash⟩),
          (false, ⟨0, .restore 1⟩), (true, ⟨900000, .erase 1⟩), (true, ⟨0, .go⟩),
          (true, ⟨0, .go⟩), (true, ⟨0, .go⟩)], ∀ who answer,
      (∀ item ∈ t.shared.data,
        item ∉ (t.step (ErasureAgent.move { graceDays := 30, ownerKeyPrefix := fun _ => "" })
          (who, answer)).shared.data →
          ∃ user, BelongsTo { graceDays := 30, ownerKeyPrefix := fun _ => "" }
              accountAndSweep.shared user item ∧
            ErasesUnderClaim who user t.shared.log ∧ ¬ StandsRestored user t.shared.log) ∧
      ∀ user, (t.shared.users.lookup user).isSome →
        (t.step (ErasureAgent.move { graceDays := 30, ownerKeyPrefix := fun _ => "" })
          (who, answer)).shared.users.lookup user = none →
          ErasesUnderClaim who user t.shared.log ∧ ¬ StandsRestored user t.shared.log :=
  ⟨erasureAtRest_accountAndSweep, lost_under_claim _ _ _ erasureAtRest_accountAndSweep⟩

end Spoo
