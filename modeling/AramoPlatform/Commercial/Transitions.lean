import AramoPlatform.Subscription.PlanVersion

/-!
# The states of a commercial change request

The closed set of actions, the kinds of a request and its states.
-/

namespace AramoPlatform.Commercial

open Js Subscription

/-- `COMMERCIAL_ACTION_TYPES`. -/
inductive ActionType where
  | subscriptionOpen
  | subscriptionChange
  | subscriptionEnd
  | entitlementGrant
  | entitlementRevoke
  | planVersionPublish
  | planRetire
  | policyActivate
  | supportExtension
  | roleGrant
  | roleRevoke
  | credit
  | discount
  | conversion
  | refund
  | paymentRecord
  | planCreate
  deriving DecidableEq

def ActionType.text : ActionType → JsString
  | subscriptionOpen => js "SUBSCRIPTION_OPEN"
  | subscriptionChange => js "SUBSCRIPTION_CHANGE"
  | subscriptionEnd => js "SUBSCRIPTION_END"
  | entitlementGrant => js "ENTITLEMENT_GRANT"
  | entitlementRevoke => js "ENTITLEMENT_REVOKE"
  | planVersionPublish => js "PLAN_VERSION_PUBLISH"
  | planRetire => js "PLAN_RETIRE"
  | policyActivate => js "POLICY_ACTIVATE"
  | supportExtension => js "SUPPORT_EXTENSION"
  | roleGrant => js "ROLE_GRANT"
  | roleRevoke => js "ROLE_REVOKE"
  | credit => js "CREDIT"
  | discount => js "DISCOUNT"
  | conversion => js "CONVERSION"
  | refund => js "REFUND"
  | paymentRecord => js "PAYMENT_RECORD"
  | planCreate => js "PLAN_CREATE"

/-- `COMMERCIAL_CHANGE_REQUEST_STATES`. -/
inductive RequestState where
  | draft
  | pendingApproval
  | approved
  | applying
  | applied
  | applyFailed
  | rejected
  | expired
  | withdrawn
  | applyExpired
  deriving DecidableEq

def RequestState.text : RequestState → JsString
  | draft => js "DRAFT"
  | pendingApproval => js "PENDING_APPROVAL"
  | approved => js "APPROVED"
  | applying => js "APPLYING"
  | applied => js "APPLIED"
  | applyFailed => js "APPLY_FAILED"
  | rejected => js "REJECTED"
  | expired => js "EXPIRED"
  | withdrawn => js "WITHDRAWN"
  | applyExpired => js "APPLY_EXPIRED"

end AramoPlatform.Commercial
