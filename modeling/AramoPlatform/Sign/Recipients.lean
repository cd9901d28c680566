import AramoPlatform.Lib.Rows
import AramoPlatform.Sign.HashChain

/-!
# Envelope lifecycle and recipients

The transition table of an envelope and the shared rules about its
recipients: who signs, whose turn it is, who is emailed a link. Every
operation of the engine decides by these.
-/

namespace AramoPlatform.Sign

open Js Lib List

/-! ## The envelope lifecycle -/

inductive EnvelopeStatus where
  | draft
  | sent
  | inProgress
  | completed
  | declined
  | voided
  | expired
  deriving DecidableEq

namespace EnvelopeStatus

def text : EnvelopeStatus → JsString
  | draft => js "DRAFT"
  | sent => js "SENT"
  | inProgress => js "IN_PROGRESS"
  | completed => js "COMPLETED"
  | declined => js "DECLINED"
  | voided => js "VOIDED"
  | expired => js "EXPIRED"

/-- `ENVELOPE_TRANSITIONS`. -/
def transitions : EnvelopeStatus → List EnvelopeStatus
  | draft => [sent, voided]
  | sent => [inProgress, declined, voided, expired]
  | inProgress => [completed, declined, voided, expired]
  | completed | declined | voided | expired => []

/-- The keys of `ENVELOPE_TRANSITIONS`. -/
def all : List EnvelopeStatus := [draft, sent, inProgress, completed, declined, voided, expired]

def isTerminal : EnvelopeStatus → Bool
  | completed | declined | voided | expired => true
  | draft | sent | inProgress => false

def isSignable : EnvelopeStatus → Bool
  | sent | inProgress => true
  | draft | completed | declined | voided | expired => false

/-- The statuses from which `target` is reachable in one step. -/
def predecessorsOf (target : EnvelopeStatus) : List EnvelopeStatus :=
  all.filter fun status => status.transitions.contains target

theorem not_terminal_of_mem_predecessorsOf {status target : EnvelopeStatus}
    (h : status ∈ predecessorsOf target) : status.isTerminal = false := by
  cases status <;> cases target <;> first | rfl | simp [predecessorsOf, transitions] at h

variable {status : EnvelopeStatus}

theorem eq_draft_of_mem_predecessorsOf_sent
    (h : status ∈ predecessorsOf sent) : status = draft := by
  cases status <;> first | rfl | simp [predecessorsOf, transitions] at h

theorem not_terminal_of_signable (h : status.isSignable = true) :
    status.isTerminal = false := by
  cases status <;> simp_all [isSignable, isTerminal]

theorem signable_of_not_terminal (h : status.isTerminal = false)
    (hne : status ≠ draft) : status.isSignable = true := by
  cases status <;> simp_all [isSignable, isTerminal]

end EnvelopeStatus

/-! ## Recipients -/

inductive SignerStatus where
  | pending
  | viewed
  | signed
  | declined
  deriving DecidableEq

/-- `PENDING` or `VIEWED`: still to sign. -/
def SignerStatus.isAwaiting : SignerStatus → Bool
  | pending | viewed => true
  | signed | declined => false

inductive RecipientKind where
  | signer
  | inPersonSigner
  | receivesCopy
  | witness
  deriving DecidableEq

inductive CopyDelivery where
  | onSend
  | onCompletion
  | both
  deriving DecidableEq

def CopyDelivery.text : CopyDelivery → JsString
  | onSend => js "ON_SEND"
  | onCompletion => js "ON_COMPLETION"
  | both => js "BOTH"

inductive RoutingMode where
  | parallel
  | sequential
  deriving DecidableEq

inductive IdentityVerificationMethod where
  | idVerification
  | kba
  deriving DecidableEq

def IdentityVerificationMethod.text : IdentityVerificationMethod → JsString
  | idVerification => js "ID_VERIFICATION"
  | kba => js "KBA"

/-- A row of `Signer`. -/
structure SignerRow where
  id : Uuid
  name : JsString
  email : Option JsString
  signingOrder : Nat
  status : SignerStatus
  recipientKind : RecipientKind
  copyDelivery : Option CopyDelivery
  boundUserId : Option Uuid
  witnessForSignerId : Option Uuid
  delegatedFromName : Option JsString
  delegatedFromEmail : Option JsString
  delegatedAt : Option Nat
  accessCodeHash : Option JsString
  accessCodeFailedCount : Nat
  accessCodeLockedAt : Option Nat
  identityVerificationMethod : Option IdentityVerificationMethod
  identityVerificationLockedAt : Option Nat
  viewedAt : Option Nat
  signedAt : Option Nat
  declinedAt : Option Nat
  declineReason : Option JsString

def isWitness (r : SignerRow) : Bool := r.recipientKind == .witness

/-- A witness may act only once the signer it witnesses has signed. -/
def witnessReady (rows : List SignerRow) (r : SignerRow) : Bool :=
  !isWitness r ||
    ((rows.find? fun x => r.witnessForSignerId == some x.id).any fun x => x.status == .signed)

def isSigningRecipient (r : SignerRow) : Bool := r.recipientKind != .receivesCopy

def isCopyRecipient (r : SignerRow) : Bool := r.recipientKind == .receivesCopy

/-- Only a signer or a witness is emailed a signing link. -/
def isLinkSigner (r : SignerRow) : Bool :=
  r.recipientKind == .signer || r.recipientKind == .witness

def signingRecipients (rows : List SignerRow) : List SignerRow := rows.filter isSigningRecipient

/-- `copyRecipients(rows, 'SEND')`. -/
def copyRecipientsAtSend (rows : List SignerRow) : List SignerRow :=
  rows.filter fun r =>
    isCopyRecipient r && (r.copyDelivery == some .onSend || r.copyDelivery == some .both)

/-- Every signing recipient has signed, and there is one. Copies never block. -/
def allSigningRecipientsSigned (rows : List SignerRow) : Bool :=
  !(signingRecipients rows).isEmpty && (signingRecipients rows).all (·.status == .signed)

/-- `sort((a, b) => a.signing_order - b.signing_order)`. -/
def orderLe (a b : SignerRow) : Prop := a.signingOrder ≤ b.signingOrder

instance : DecidableRel orderLe := fun a b =>
  inferInstanceAs (Decidable (a.signingOrder ≤ b.signingOrder))

instance : Std.Total orderLe := ⟨fun _ _ => Nat.le_total _ _⟩

instance : IsTrans SignerRow orderLe := ⟨fun _ _ _ => Nat.le_trans⟩

/-- The recipient whose turn it is in a sequential envelope. -/
def currentTurnOf (rows : List SignerRow) : Option SignerRow :=
  (((signingRecipients rows).filter (·.status != .signed)).insertionSort orderLe).head?

/-- The same rule read from the database; equal orders keep the table's order. -/
def currentTurnSignerId (rows : List SignerRow) : Option Uuid := (currentTurnOf rows).map (·.id)

/-- The recipients emailed a signing link at send. -/
def invitedAtSend (routingMode : RoutingMode) (rows : List SignerRow) : List SignerRow :=
  match routingMode with
  | .sequential =>
      (currentTurnOf rows).toList.filter fun r => isLinkSigner r && witnessReady rows r
  | .parallel => (signingRecipients rows).filter fun r => isLinkSigner r && witnessReady rows r

/-- The witnesses of `signerId` that are waiting to attest. -/
def pendingWitnessesOf (rows : List SignerRow) (signerId : Uuid) : List SignerRow :=
  rows.filter fun r =>
    isWitness r && r.witnessForSignerId == some signerId && r.status.isAwaiting

variable {rows : List SignerRow}

theorem currentTurnOf_eq_some {r : SignerRow}
    (h : currentTurnOf rows = some r) :
    r ∈ rows ∧ isSigningRecipient r = true ∧ r.status ≠ .signed := by
  have hmem : r ∈ (signingRecipients rows).filter (·.status != .signed) :=
    (perm_insertionSort _ _).subset (mem_of_head? h)
  simp only [signingRecipients, mem_filter, bne_iff_ne] at hmem
  exact ⟨hmem.1.1, hmem.1.2, hmem.2⟩

theorem not_signed_of_turn (hnd : (rows.map (·.id)).Nodup) {r : SignerRow}
    (hr : r ∈ rows) (h : currentTurnSignerId rows = some r.id) : r.status ≠ .signed := by
  obtain ⟨r', hturn, hid⟩ := Option.map_eq_some_iff.mp h
  obtain ⟨hmem, -, hstatus⟩ := currentTurnOf_eq_some hturn
  rwa [← inj_on_of_nodup_map hnd hmem hr hid]

theorem allSigningRecipientsSigned_iff :
    allSigningRecipientsSigned rows = true ↔
      (∃ r ∈ rows, isSigningRecipient r = true) ∧
        ∀ r ∈ rows, isSigningRecipient r = true → r.status = .signed := by
  simp only [allSigningRecipientsSigned, signingRecipients, Bool.and_eq_true, Bool.not_eq_true',
    isEmpty_eq_false_iff, ne_eq, filter_eq_nil_iff, all_eq_true, mem_filter,
    beq_iff_eq, and_imp]
  push Not
  rfl

end AramoPlatform.Sign
