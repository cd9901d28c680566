import AramoPlatform.Sign.SideOps

/-!
# The recipients of a draft

A draft's recipients are replaced as a whole: the request is checked item by
item, the kept rows are rewritten in the order of the list, the others are
created, and the rows that the list leaves out go with their fields. A
witness names the signer it attests for by the position in the list.

`readiness` is the check before a send. It looks at the rows as they are, so
what it does not ask again holds only as far as the request has made sure of
it.
-/

namespace AramoPlatform.Sign

open Js Lib

/-! ## The request -/

/-- An item of the request, its members of the types that are asked for. -/
structure RecipientItem where
  id : Option Uuid
  name : JsString
  email : JsString
  recipientKind : RecipientKind
  copyDelivery : Option CopyDelivery
  witnessForIndex : Option Int

/-- What a request is refused with: the message and its details. -/
structure BadRequest where
  message : JsString
  index : Option Nat := none
  field : Option JsString := none
  reason : Option JsString := none

inductive RecipientsError where
  | bad (e : BadRequest)
  | selfSignSingleRecipient
  | repository (e : EsignError)

/-- `SenderRecipientInput`; an outer `none` is a member that was left out. -/
structure SenderRecipientInput where
  id : Option Uuid
  name : JsString
  email : Option JsString
  recipientKind : RecipientKind
  copyDelivery : Option CopyDelivery
  boundUserId : Option Uuid
  witnessForIndex : Option Nat
  accessCodeHash : Option (Option JsString)
  identityVerificationMethod : Option (Option IdentityVerificationMethod)

def maxSigners : Nat := 10

def maxCopyRecipients : Nat := 10

def maxTitle : Nat := 200

/-- A message about the item at position `i`, counted from one. -/
def itemMessage (i : Nat) (text : String) : JsString :=
  js "recipient " ++ js (toString (i + 1)) ++ js text

/-- Refuse the item at position `i`. -/
def badItem (i : Nat) (text field : String) (reason : Option String) : RecipientsError :=
  .bad ⟨itemMessage i text, some i, some (js field), reason.map js⟩

/-- `witnessForIndex`: required for a witness and refused for any other kind;
a position of the list with a signer other than the witness. -/
def witnessForIndex (items : List RecipientItem) (i : Nat) (item : RecipientItem) :
    Except RecipientsError (Option Nat) :=
  if item.recipientKind != .witness then do
    require item.witnessForIndex.isNone
      (badItem i ": witness_for_index applies only to a witness" "witness_for_index"
        (some "witness_for_not_allowed"))
    pure none
  else do
    let raw : Int ← orThrow (item.witnessForIndex.filter fun raw : Int =>
        decide (0 ≤ raw) && decide (raw < items.length) && raw != i)
      (badItem i ": choose the signer this witness attests for" "witness_for_index"
        (some "witness_for_required"))
    require ((items[raw.toNat]?).any fun target =>
        target.recipientKind == .signer || target.recipientKind == .inPersonSigner)
      (badItem i ": a witness attests for a signer" "witness_for_index"
        (some "witness_for_invalid"))
    pure (some raw.toNat)

section

variable (deps : Deps)

/-- One item of the loop of `replaceRecipients`; `seen` holds the emails of the
items before. The request neither assigns the item to the caller nor sets an
access code or a verification method. -/
def checkItem (items : List RecipientItem) (seen : List JsString) (i : Nat)
    (item : RecipientItem) : Except RecipientsError (SenderRecipientInput × List JsString) := do
  let witnessFor ← witnessForIndex items i item
  require (item.recipientKind != .receivesCopy || item.copyDelivery.isSome)
    (badItem i ": choose when the copy is sent (ON_SEND, ON_COMPLETION or BOTH)" "copy_delivery"
      (some "copy_delivery_required"))
  require (item.recipientKind == .receivesCopy || item.copyDelivery.isNone)
    (badItem i ": copy_delivery applies only to a recipient who receives a copy" "copy_delivery"
      (some "copy_delivery_not_allowed"))
  let name := trim item.name
  let emailRaw := trim item.email
  let email := if emailRaw.isEmpty ∧ item.recipientKind = .inPersonSigner then none
    else some emailRaw
  require (!name.isEmpty && decide (name.length ≤ maxTitle))
    (badItem i " needs a name" "name" none)
  require (email.all fun e => isEmailShape e && decide (e.length ≤ 254))
    (badItem i " needs a valid email" "email" none)
  require (email.all fun e => !seen.contains (deps.toLowerCase e))
    (badItem i " repeats an email already on this envelope" "email" none)
  pure ({ id := item.id, name := name, email := email, recipientKind := item.recipientKind
          copyDelivery := item.copyDelivery, boundUserId := none, witnessForIndex := witnessFor
          accessCodeHash := none, identityVerificationMethod := none },
    seen ++ email.toList.map deps.toLowerCase)

/-- The loop over the items from position `i` on. -/
def checkItems (items : List RecipientItem) :
    (seen : List JsString) → Nat → List RecipientItem →
      Except RecipientsError (List SenderRecipientInput)
  | _, _, [] => .ok []
  | seen, i, item :: rest => do
    let (input, seen) ← checkItem deps items seen i item
    let inputs ← checkItems items seen (i + 1) rest
    pure (input :: inputs)

/-! ## The replacement -/

/-- The ids of the list, fixed before anything is written. -/
def assignIds (next : Uuid) : List SenderRecipientInput → List Uuid
  | [] => []
  | r :: rest =>
    match r.id with
    | some id => id :: assignIds next rest
    | none => next :: assignIds (next + 1) rest

/-- `recipientKindData`, `recipientExtraData` and `identityVerificationData`: the
columns that the item at position `i` writes. -/
def writeRecipient (ids : List Uuid) (i : Nat) (r : SenderRecipientInput) (row : SignerRow) :
    SignerRow :=
  let kept :=
    { row with
      name := r.name, email := r.email, signingOrder := i + 1, recipientKind := r.recipientKind
      copyDelivery := if r.recipientKind = .receivesCopy then r.copyDelivery else none
      boundUserId := if r.recipientKind = .receivesCopy then none else r.boundUserId
      witnessForSignerId :=
        if r.recipientKind = .witness then r.witnessForIndex.bind (ids[·]?) else none
      identityVerificationMethod :=
        if r.recipientKind = .receivesCopy then none
        else r.identityVerificationMethod.getD row.identityVerificationMethod }
  if r.recipientKind = .signer ∨ r.recipientKind = .witness then
    match r.accessCodeHash with
    | none => kept
    | some hash =>
      { kept with accessCodeHash := hash, accessCodeFailedCount := 0, accessCodeLockedAt := none }
  else { kept with accessCodeHash := none, accessCodeFailedCount := 0, accessCodeLockedAt := none }

/-- The defaults of a created recipient. -/
def createdRecipient (id : Uuid) : SignerRow where
  id := id
  name := []
  email := none
  signingOrder := 0
  status := .pending
  recipientKind := .signer
  copyDelivery := none
  boundUserId := none
  witnessForSignerId := none
  delegatedFromName := none
  delegatedFromEmail := none
  delegatedAt := none
  accessCodeHash := none
  accessCodeFailedCount := 0
  accessCodeLockedAt := none
  identityVerificationMethod := none
  identityVerificationLockedAt := none
  viewedAt := none
  signedAt := none
  declinedAt := none
  declineReason := none

/-- The write of the item at position `i`: an update by its id, or a new row. -/
def putRecipient (ids : List Uuid) (rows : List SignerRow) (i : Nat) (r : SenderRecipientInput) :
    List SignerRow :=
  match r.id with
  | some id => updateWhere (·.id == id) (writeRecipient ids i r) rows
  | none => rows ++ (ids[i]?).toList.map fun id => writeRecipient ids i r (createdRecipient id)

/-- The kept rows are first parked on positions beyond any final one. -/
def parkRecipient (rows : List SignerRow) (i : Nat) (r : SenderRecipientInput) : List SignerRow :=
  match r.id with
  | some id => updateWhere (·.id == id) (fun row => { row with signingOrder := 1000 + i + 1 }) rows
  | none => rows

/-- Over the items of the list with their positions. -/
def foldItems (step : List SignerRow → Nat → SenderRecipientInput → List SignerRow) :
    List SignerRow → Nat → List SenderRecipientInput → List SignerRow
  | rows, _, [] => rows
  | rows, i, r :: rest => foldItems step (step rows i r) (i + 1) rest

def replaceDraftRecipients (s : State) (recipients : List SenderRecipientInput) :
    Except EsignError State := do
  assertDraft s
  let keep := recipients.filterMap (·.id)
  require (keep.all fun id => s.signers.any (·.id == id)) .envelopeNotFound
  let kept := s.signers.filter fun r => keep.contains r.id
  let fields := s.fields.filter fun f =>
    !f.signerId.any fun id => s.signers.any fun r => r.id == id && !keep.contains id
  let ids := assignIds s.nextId recipients
  let parked := foldItems parkRecipient kept 0 recipients
  pure { s with
    signers := foldItems (putRecipient ids) parked 0 recipients, fields := fields
    nextId := s.nextId + recipients.length }

/-- `replaceRecipients`, past the author's permissions. -/
def replaceRecipients (s : State) (items : List RecipientItem) : Except RecipientsError State := do
  require (s.envelope.envelopeMode != .self) .selfSignSingleRecipient
  require (decide (items.length ≤ maxSigners + maxCopyRecipients))
    (.bad { message := js "An envelope can have at most 10 signers"
            reason := some (js "too_many_signers") })
  let recipients ← checkItems deps items [] 0 items
  require (decide (recipients.filterMap (·.witnessForIndex)).Nodup)
    (.bad { message := js "A signer can have only one witness"
            field := some (js "witness_for_index"), reason := some (js "witness_duplicate") })
  let signing := (recipients.filter (·.recipientKind != .receivesCopy)).length
  require (decide (signing ≤ maxSigners))
    (.bad { message := js "An envelope can have at most 10 signers"
            reason := some (js "too_many_signers") })
  require (decide (recipients.length - signing ≤ maxCopyRecipients))
    (.bad { message := js "An envelope can have at most 10 copy recipients"
            reason := some (js "too_many_copy_recipients") })
  (replaceDraftRecipients s recipients).mapError .repository

end

/-! ## Readiness -/

/-- What is wrong with a witness: it needs a signer, and in order it comes after
that signer. -/
def witnessProblems (routingMode : RoutingMode) (recipients : List SignerRow) (r : SignerRow) :
    List JsString :=
  if !isWitness r then []
  else
    match recipients.find? fun x => r.witnessForSignerId == some x.id with
    | none => [r.name ++ js " needs a signer to witness"]
    | some principal =>
      if routingMode = .sequential ∧ r.signingOrder ≤ principal.signingOrder then
        [r.name ++ js " witnesses " ++ principal.name ++ js " and must sign after them"]
      else []

/-- What is wrong with the fields of a recipient. -/
def fieldProblems (fields : List FieldRow) (r : SignerRow) : List JsString :=
  if isCopyRecipient r then
    if fields.any (·.signerId == some r.id) then
      [r.name ++ js " receives a copy and cannot have fields"]
    else []
  else if fields.any fun f => f.signerId == some r.id && f.fieldType == .signature then []
  else [r.name ++ js " needs a signature field"]

/-- `readiness`: the problems a send is refused with; the envelope is ready when
there are none. -/
def readiness (s : State) : List JsString :=
  let recipients := s.signers.insertionSort orderLe
  recipients.flatMap (witnessProblems s.envelope.routingMode recipients) ++
    (if s.documents.isEmpty then [js "Add at least one document"] else []) ++
    (if (signingRecipients recipients).isEmpty then [js "Add at least one recipient who signs"]
      else []) ++
    recipients.flatMap (fieldProblems s.fields)

end AramoPlatform.Sign
