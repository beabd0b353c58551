import Spoo.Proofs.EndpointStates

/-!
# The subscription cache

A match takes a cached count of zero for an answer, and has no look at the endpoints then. A request
that makes an endpoint ACTIVE invalidates the count after its write, and a match that has read the
endpoints before the write can still store its count after the invalidation.
-/

namespace Spoo

open Agents Mongo.Collection

variable {ι : Type}

/-- What a match finds that reads the count in one state, and the endpoints in another. -/
def WebhookWorld.matchFrom (s later : WebhookWorld) (event : Contract.DomainEvent) :
    List WebhookEndpointDoc :=
  if s.subscriptions event.ownerId = some 0 then []
  else (WebhookEndpointRepository.findActiveForOwner later.endpoints event.ownerId).filter
    (covers event)

/-- What a dispatch goes on with. -/
def recordingOf (event : Contract.DomainEvent) (endpoints : List WebhookEndpointDoc) :
    DispatchPhase :=
  if endpoints = [] then .idle else .recording event endpoints

/-- The owner whose count an agent is about to invalidate. -/
def WebhookAgent.invalidating : WebhookAgent → Option ObjectId
  | .owner (.invalidating userId) => some userId
  | _ => none

/-- The requests that have made endpoints ACTIVE and have not invalidated the count yet, with these
endpoints. -/
structure OpeningHistory (ι : Type) where
  opening : List (ι × ObjectId) := []

/-- No request that has made the endpoint ACTIVE is still under way. -/
def OpeningHistory.Finished (h : OpeningHistory ι) (id : ObjectId) : Prop :=
  ∀ entry ∈ h.opening, entry.2 ≠ id

section

variable {lib : WebhookLib} {cfg : WebhookConfig} {s : WebhookWorld} {h : OpeningHistory ι}
  {agent : WebhookAgent}

theorem matched_eq_recordingOf (event : Contract.DomainEvent) (endpoints : List WebhookEndpointDoc) :
    WebhookDispatcher.matched event endpoints =
      recordingOf event (endpoints.filter (covers event)) := by
  unfold WebhookDispatcher.matched recordingOf
  split
  · rename_i hnil
    rw [if_pos hnil]
  · rename_i hcons
    rw [if_neg hcons]

/-- The moves of a match, with the states they find: the one of the cached count, the one of the
endpoints, and, where there was no count, the one it is stored in. -/
theorem foldl_matching (lib : WebhookLib) (cfg : WebhookConfig) (home : Nat)
    (event : Contract.DomainEvent) (s later last : WebhookWorld) :
    (if s.subscriptions event.ownerId = none then [s, later, last] else [s, later]).foldl
        (fun phase world => (WebhookDispatcher.move lib cfg home .go phase world).1)
        (.matching event) = recordingOf event (s.matchFrom later event) := by
  cases hcached : s.subscriptions event.ownerId with
  | none =>
    simp only [if_true, List.foldl_cons, List.foldl_nil, WebhookDispatcher.move, hcached,
      reduceCtorEq, if_false, matched_eq_recordingOf, WebhookWorld.matchFrom]
  | some count =>
    simp only [reduceCtorEq, if_false, List.foldl_cons, List.foldl_nil, WebhookDispatcher.move,
      hcached, WebhookWorld.matchFrom]
    by_cases hzero : count = 0
    · subst hzero
      rfl
    · rw [if_neg (by simpa using hzero), if_neg (by simpa using hzero)]
      exact matched_eq_recordingOf event _

variable (lib cfg)

variable {lib cfg}

end

/-! ## Runs -/

section

variable [DecidableEq ι] {lib : WebhookLib} {cfg : WebhookConfig} {who : ι} {answer : WebhookAnswer}
  {agent : WebhookAgent} {s : WebhookWorld} {moved : WebhookAgent × WebhookWorld}
  {h : OpeningHistory ι} {entry : ι × ObjectId}
  {pool : Pool ι WebhookAgent (WebhookWorld × OpeningHistory ι)} {event : ι × WebhookAnswer}

end

end Spoo
