import Mathlib.Data.Nat.Notation
import Mathlib.Logic.Function.Basic

/-!
# The message relevancy checker

A map from correlation ids to the delivery tag that was seen last.  The source
stores the bare tag number; here a tag is kept together with the channel on
which the broker issued it, so that two deliveries are never confused.  No
branch of the code looks at the channel.
-/

namespace Amq

open Function

structure DeliveryTag where
  channel : ℕ
  deliveryTag : ℕ
  deriving DecidableEq, Repr

/-- `MessageRelevancyChecker`, with `correlationIds` as the content of its map. -/
structure MessageRelevancyChecker (κ : Type) where
  correlationIds : κ → Option DeliveryTag

namespace MessageRelevancyChecker

variable {κ : Type}

def empty : MessageRelevancyChecker κ :=
  ⟨fun _ => none⟩

/-- The tag is stored in any case; the result tells whether the id was free. -/
def lock [DecidableEq κ]
    (checker : MessageRelevancyChecker κ)
    (correlationId : κ) (deliveryTag : DeliveryTag) :
    MessageRelevancyChecker κ × Bool :=
  (⟨update checker.correlationIds correlationId (some deliveryTag)⟩,
    (checker.correlationIds correlationId).isNone)

/-- `this.correlationIds.get(correlationId) || null`: tag zero is read as none. -/
def getDeliveryTag
    (checker : MessageRelevancyChecker κ) (correlationId : κ) :
    Option DeliveryTag :=
  match checker.correlationIds correlationId with
  | some tag => if tag.deliveryTag = 0 then none else some tag
  | none => none

def unlock [DecidableEq κ]
    (checker : MessageRelevancyChecker κ) (correlationId : κ) :
    MessageRelevancyChecker κ :=
  ⟨update checker.correlationIds correlationId none⟩

def unlockAll (_checker : MessageRelevancyChecker κ) :
    MessageRelevancyChecker κ :=
  empty

theorem stored_of_getDeliveryTag
    {checker : MessageRelevancyChecker κ} {correlationId : κ}
    {tag : DeliveryTag}
    (read : checker.getDeliveryTag correlationId = some tag) :
    checker.correlationIds correlationId = some tag := by
  unfold getDeliveryTag at read
  split at read
  · rename_i stored present
    split at read
    · cases read
    · rw [present, read]
  · cases read

end MessageRelevancyChecker

end Amq
