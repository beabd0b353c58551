import Spoo.Proofs.PendingSlots

/-!
# The retry ladder

As long as the leases of a row do not overlap, the one attempt that holds it knows how many attempts
have been counted, and the last rung ends the row. What is deferred stays on its rung.
-/

namespace Spoo

open Agents Mongo.Collection

variable {ι : Type}

/-- The row that a background attempt works on. -/
def WebhookAgent.leased (agent : WebhookAgent) : Option WebhookDeliveryDoc :=
  match agent.stance with
  | .holds row => if DeliveryExecutor.singleShot row then none else some row
  | _ => none

section

variable {cfg : WebhookConfig} {s : WebhookWorld} {agent agent' : WebhookAgent}
  {deliveries : DeliveryStore} {row row' : WebhookDeliveryDoc}

end

/-! ## Runs -/

section

variable [DecidableEq ι] {lib : WebhookLib} {cfg : WebhookConfig}
  {pool : Pool ι WebhookAgent WebhookWorld} {event : ι × WebhookAnswer}

end

end Spoo
