import AramoPlatform.Sign.LedgerRuns
import AramoPlatform.Sign.RefundRuns
import AramoPlatform.Sign.PaymentField
import AramoPlatform.Sign.Immutability
import AramoPlatform.Sign.PurgeQueue
import AramoPlatform.Sign.TurnRuns
import AramoPlatform.Subscription.AllowanceRuns
import AramoPlatform.Billing.ReadOrder
import AramoPlatform.Billing.Outbox
import AramoPlatform.Intelligence.DisputeMachine
import AramoPlatform.Commercial.ReceiptChains
import AramoPlatform.Intelligence.MergeInverse
import AramoPlatform.Consent.CreateDefault
import AramoPlatform.Consent.Reconcile
import AramoPlatform.Consent.Agreement
import AramoPlatform.Policy.Obligations
import AramoPlatform.Intelligence.RebuildTwice
import AramoPlatform.Intelligence.AnchoredLinks
import AramoPlatform.Intelligence.AccessRuns
import AramoPlatform.Identity.ManagementGraph
import AramoPlatform.Placement.OfferHistory
import AramoPlatform.Placement.Capacity
import AramoPlatform.Placement.TermHistory
import AramoPlatform.Placement.Approvals
import AramoPlatform.Billing.Grace
import AramoPlatform.Consent.StaleWindow
import AramoPlatform.Placement.Proration
import AramoPlatform.Intelligence.Reassess
import AramoPlatform.Intelligence.ContradictionCheck
import AramoPlatform.Auth.ReturnPath
import AramoPlatform.Events.DrainRuns
import AramoPlatform.Intelligence.Relinking
import AramoPlatform.Subscription.PinHistory
import AramoPlatform.Commercial.RefundRemainder
import AramoPlatform.Subscription.UsageFits
import AramoPlatform.Subscription.BillingCalendar
import AramoPlatform.Sign.PaymentGuards
import AramoPlatform.Commercial.TermsAmendment
import AramoPlatform.Sign.RedactedChain
import AramoPlatform.Billing.FinanceNoninterference
import AramoPlatform.Commercial.ApprovalChains
import AramoPlatform.Sign.ReminderRuns
import AramoPlatform.Common.RequestHash
import AramoPlatform.Sign.DerValues
import AramoPlatform.Sign.RequestDigest
