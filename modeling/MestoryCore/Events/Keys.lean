import Mathlib.Tactic.Common

/-!
# Event routing keys

The members of `RoutingKey`, with the strings that the exchange routes by. A
consumer turns the string of a message back into a member.
-/

namespace MestoryCore.Events

def exchangeName : String := "mestory.events"

inductive RoutingKey where
  | userRegistered
  | userVerificationRequested
  | userPasswordResetRequested
  | userVerified
  | userPasswordReset
  | userDeleted
  | profileCreated
  | profileUpdated
  | profileBusinessVerified
  | profileFollowed
  | profileUnfollowed
  | profileBlocked
  | profileUnblocked
  | profileDeleted
  deriving DecidableEq, Repr

namespace RoutingKey

def value : RoutingKey → String
  | .userRegistered => "auth.user.registered"
  | .userVerificationRequested => "auth.user.verification_requested"
  | .userPasswordResetRequested => "auth.user.password_reset_requested"
  | .userVerified => "auth.user.verified"
  | .userPasswordReset => "auth.user.password_reset"
  | .userDeleted => "auth.user.deleted"
  | .profileCreated => "profile.created"
  | .profileUpdated => "profile.updated"
  | .profileBusinessVerified => "profile.business.verified"
  | .profileFollowed => "profile.followed"
  | .profileUnfollowed => "profile.unfollowed"
  | .profileBlocked => "profile.blocked"
  | .profileUnblocked => "profile.unblocked"
  | .profileDeleted => "profile.deleted"

/-- The members in their order of definition. -/
def members : List RoutingKey :=
  [.userRegistered, .userVerificationRequested, .userPasswordResetRequested, .userVerified,
    .userPasswordReset, .userDeleted, .profileCreated, .profileUpdated, .profileBusinessVerified,
    .profileFollowed, .profileUnfollowed, .profileBlocked, .profileUnblocked, .profileDeleted]

/-- `RoutingKey(value)`; `none` is the `ValueError`. -/
def ofValue? (value : String) : Option RoutingKey := members.find? fun key => key.value = value

/-- Every member is read back from its own string. -/
theorem ofValue?_value (key : RoutingKey) : ofValue? key.value = some key := by
  cases key <;> decide

end RoutingKey
end MestoryCore.Events
