import Abyssal.Base.Ledger
import Abyssal.Relay.Receipts

/-! The relay's attachments in memory: records under their ids, the bindings of an owner's message to
its record, and the bytes of each account. Every definition is what one function does while it holds
the locks of the three tables; where a function locks twice, it is two definitions. Permits and the
access to conversations are left out. -/

namespace Abyssal.Relay

abbrev Uuid := Vector UInt8 16

def attachmentClaimTtlMs : Nat := 10 * 60 * 1000
def attachmentStagingTtlMs : Nat := 10 * 60 * 1000

inductive MediaType
  | image | video | file
  deriving DecidableEq

inductive StatusCode
  | noContent | badRequest | forbidden | notFound | conflict | tooManyRequests | insufficientStorage
  deriving DecidableEq

structure InteropPolicy where
  allowAndroidToWeb : Bool
  allowWebToAndroid : Bool

def InteropPolicy.allows (self : InteropPolicy) : ClientPlatform → ClientPlatform → Bool
  | .android, .web => self.allowAndroidToWeb
  | .web, .android => self.allowWebToAndroid
  | _, _ => true

structure AttachmentDownloadClaim where
  recipientCodeId : CodeId
  createdAtMs : Nat
  deriving DecidableEq

structure AttachmentRecord where
  blob : Bytes
  chatId : Text
  messageId : Text
  mediaType : MediaType
  ownerCodeId : CodeId
  senderPlatform : ClientPlatform
  published : Bool
  stagedExpiresAtMs : Option Nat
  oneTime : Bool
  deleteAfterDownload : Bool
  expiresAtMs : Option Nat
  eligibleRecipientCodeIds : Finset CodeId
  downloadClaims : OrdMap Uuid AttachmentDownloadClaim
  completedRecipientCodeIds : Finset CodeId

def AttachmentRecord.destructive (record : AttachmentRecord) : Bool :=
  record.oneTime || record.deleteAfterDownload

structure AttachmentBindingKey where
  ownerCodeId : CodeId
  chatId : Text
  messageId : Text
  deriving DecidableEq

instance : LinearOrder AttachmentBindingKey :=
  LinearOrder.lift' (fun key => toLex (key.ownerCodeId, toLex (key.chatId, key.messageId)))
    fun a b h => by
      cases a
      cases b
      simp_all

def AttachmentRecord.bindingKey (record : AttachmentRecord) : AttachmentBindingKey :=
  ⟨record.ownerCodeId, record.chatId, record.messageId⟩

def AttachmentBindingKey.matchesRecord (key : AttachmentBindingKey) (record : AttachmentRecord) :
    Bool :=
  key.ownerCodeId = record.ownerCodeId && key.chatId = record.chatId &&
    key.messageId = record.messageId

theorem AttachmentBindingKey.matchesRecord_iff {key : AttachmentBindingKey}
    {record : AttachmentRecord} : key.matchesRecord record = true ↔ record.bindingKey = key := by
  obtain ⟨owner, chat, message⟩ := key
  simp only [matchesRecord, AttachmentRecord.bindingKey, Bool.and_eq_true, decide_eq_true_eq,
    AttachmentBindingKey.mk.injEq]
  constructor
  · rintro ⟨⟨rfl, rfl⟩, rfl⟩
    exact ⟨rfl, rfl, rfl⟩
  · rintro ⟨rfl, rfl, rfl⟩
    exact ⟨⟨rfl, rfl⟩, rfl⟩

structure AttachmentTables where
  bindings : OrdMap AttachmentBindingKey Uuid
  attachments : OrdMap Uuid AttachmentRecord
  usage : OrdMap CodeId Nat

def removeAttachmentBindingIfMatches (bindings : OrdMap AttachmentBindingKey Uuid) (id : Uuid)
    (record : AttachmentRecord) : OrdMap AttachmentBindingKey Uuid :=
  if bindings.get? record.bindingKey = some id then bindings.erase record.bindingKey else bindings

def subtractAttachmentUsage (usage : OrdMap CodeId Nat) (ownerCodeId : CodeId) (bytes : Nat) :
    OrdMap CodeId Nat := discharge usage ownerCodeId bytes

namespace AttachmentTables

def empty : AttachmentTables := ⟨.empty, .empty, .empty⟩

def remove (self : AttachmentTables) (id : Uuid) (record : AttachmentRecord) : AttachmentTables :=
  -- A record goes together with its binding and its share of the owner's bytes.
  { bindings := removeAttachmentBindingIfMatches self.bindings id record
    attachments := self.attachments.erase id
    usage := subtractAttachmentUsage self.usage record.ownerCodeId record.blob.length }

def put (self : AttachmentTables) (id : Uuid) (record : AttachmentRecord) : AttachmentTables :=
  { self with attachments := self.attachments.insert id record }

def retainOne (keep : AttachmentRecord → Option AttachmentRecord) (self : AttachmentTables)
    (id : Uuid) : AttachmentTables :=
  -- One visit of a `retain` over the attachments. The closure may change the record; a record that
  -- it does not keep goes.
  match self.attachments.get? id with
  | none => self
  | some record =>
    match keep record with
    | some record => self.put id record
    | none => self.remove id record

def retain (self : AttachmentTables) (order : VisitOrder Uuid)
    (keep : AttachmentRecord → Option AttachmentRecord) : AttachmentTables :=
  (order.visit self.attachments.keys).foldl (retainOne keep) self

end AttachmentTables

namespace AttachmentRecord

def dropExpiredClaims (record : AttachmentRecord) (now : Nat) : AttachmentRecord :=
  { record with
    downloadClaims :=
      record.downloadClaims.filter fun _ claim => now - claim.createdAtMs < attachmentClaimTtlMs }

def pruned (now : Nat) (record : AttachmentRecord) : Option AttachmentRecord :=
  let record := record.dropExpiredClaims now
  -- A staged record without a deadline is malformed and goes.
  let live :=
    if record.published then record.expiresAtMs.all fun expires => now < expires
    else record.stagedExpiresAtMs.any fun expires => now < expires
  if live || record.published && record.downloadClaims.size ≠ 0 then some record else none

end AttachmentRecord

namespace AttachmentTables

def dropStale (self : AttachmentTables) (stale : AttachmentBindingKey × Uuid) : AttachmentTables :=
  -- Drops a binding that does not fit its record. The record goes with it unless another binding
  -- leads to it.
  let bindings := self.bindings.erase stale.1
  if stale.2 ∈ bindings.values then { self with bindings }
  else
    match self.attachments.get? stale.2 with
    | none => { self with bindings }
    | some record =>
      { bindings
        attachments := self.attachments.erase stale.2
        usage := subtractAttachmentUsage self.usage record.ownerCodeId record.blob.length }

def staleBindings (self : AttachmentTables) (order : VisitOrder AttachmentBindingKey) :
    List (AttachmentBindingKey × Uuid) :=
  (order.visit self.bindings.keys).filterMap fun key =>
    (self.bindings.get? key).bind fun id =>
      (self.attachments.get? id).bind fun record =>
        if key.matchesRecord record then none else some (key, id)

def pruneExpiredAttachmentsLocked (self : AttachmentTables) (order : VisitOrder Uuid)
    (bindingOrder : VisitOrder AttachmentBindingKey) (now : Nat) : AttachmentTables :=
  let retained := self.retain order (AttachmentRecord.pruned now)
  let self := (retained.staleBindings bindingOrder).foldl dropStale retained
  { self with
    bindings := self.bindings.filter fun key id => (self.attachments.get? id).any key.matchesRecord }

def removeChatAttachments (self : AttachmentTables) (order : VisitOrder Uuid) (chatId : Text) :
    AttachmentTables :=
  self.retain order fun record => if record.chatId ≠ chatId then some record else none

end AttachmentTables

def AttachmentRecord.revoke (record : AttachmentRecord) (removed : CodeId) : AttachmentRecord :=
  { record with
    eligibleRecipientCodeIds := record.eligibleRecipientCodeIds.erase removed
    completedRecipientCodeIds := record.completedRecipientCodeIds.erase removed
    downloadClaims := record.downloadClaims.filter fun _ claim => claim.recipientCodeId ≠ removed }

namespace AttachmentTables

def revokeMlsAttachmentAccess (self : AttachmentTables) (roomId : Text) (removed : CodeId) :
    AttachmentTables :=
  { self with
    attachments := self.attachments.mapValues fun _ record =>
      if record.chatId = roomId then record.revoke removed else record }

def dropMismatch (self : AttachmentTables) (key : AttachmentBindingKey) (id : Uuid) :
    AttachmentTables :=
  -- Takes a binding away whose record is missing or does not fit it. A record without another
  -- binding goes too.
  match self.attachments.get? id with
  | none => { self with bindings := self.bindings.erase key }
  | some record =>
    if (self.bindings.filter fun candidate candidateId => candidate ≠ key && candidateId = id).size ≠ 0
    then { self with bindings := self.bindings.erase key }
    else
      { bindings := self.bindings.erase key
        attachments := self.attachments.erase id
        usage := subtractAttachmentUsage self.usage record.ownerCodeId record.blob.length }

def stagedAttachmentForMessage (self : AttachmentTables) (key : AttachmentBindingKey) (now : Nat) :
    AttachmentTables × Except String (Option Uuid) :=
  match self.bindings.get? key with
  | none => (self, .ok none)
  | some id =>
    match self.attachments.get? id with
    | none => (self.dropMismatch key id, .ok none)
    | some record =>
      if ¬ key.matchesRecord record then (self.dropMismatch key id, .ok none)
      else
        let record := record.dropExpiredClaims now
        let self := self.put id record
        if record.published then
          if record.expiresAtMs.any (fun expires => expires ≤ now) && record.downloadClaims.size = 0 then
            (self.remove id record, .ok none)
          else (self, .error "duplicate attachment message binding")
        else if record.stagedExpiresAtMs.all (fun expires => expires ≤ now) ||
            record.expiresAtMs.any (fun expires => expires ≤ now) then
          (self.remove id record, .ok none)
        else (self, .ok (some id))

def publishStagedAttachmentChecked (self : AttachmentTables) (id : Uuid)
    (key : AttachmentBindingKey) (now : Nat) : AttachmentTables × Except String Unit :=
  match self.bindings.get? key with
  | none => (self, .error "staged attachment unavailable")
  | some indexedId =>
    if indexedId ≠ id then
      ({ self with bindings := self.bindings.erase key }, .error "staged attachment binding mismatch")
    else
      match self.attachments.get? id with
      | none => (self.dropMismatch key id, .error "staged attachment unavailable")
      | some record =>
        if ¬ key.matchesRecord record then
          (self.dropMismatch key id, .error "staged attachment unavailable")
        else if record.published then (self, .ok ())
        else if record.stagedExpiresAtMs.any (fun expires => now < expires) &&
            record.expiresAtMs.all (fun expires => now < expires) then
          (self.put id { record with published := true, stagedExpiresAtMs := none }, .ok ())
        else (self.remove id record, .error "staged attachment expired")

end AttachmentTables

structure StagedAttachmentRollback where
  attachmentId : Uuid
  ownerCodeId : CodeId
  chatId : Text
  messageId : Text
  eligibleRecipientCodeIds : Finset CodeId
  published : Bool
  stagedExpiresAtMs : Option Nat

namespace AttachmentTables

def rebindStagedAttachmentRecipients (self : AttachmentTables) (id : Uuid)
    (recipients : Finset CodeId) : AttachmentTables × Except String StagedAttachmentRollback :=
  match self.attachments.get? id with
  | none => (self, .error "staged attachment unavailable")
  | some record =>
    if record.published then (self, .error "staged attachment already published")
    else if record.destructive && recipients = ∅ then
      (self, .error "attachment recipient roster rejected")
    else
      let rollback : StagedAttachmentRollback :=
        { attachmentId := id
          ownerCodeId := record.ownerCodeId
          chatId := record.chatId
          messageId := record.messageId
          eligibleRecipientCodeIds := record.eligibleRecipientCodeIds
          published := record.published
          stagedExpiresAtMs := record.stagedExpiresAtMs }
      if record.destructive then
        (self.put id { record with eligibleRecipientCodeIds := recipients }, .ok rollback)
      else (self, .ok rollback)

def rollbackStagedAttachment (self : AttachmentTables) (rollback : StagedAttachmentRollback) :
    AttachmentTables :=
  let key : AttachmentBindingKey := ⟨rollback.ownerCodeId, rollback.chatId, rollback.messageId⟩
  match self.attachments.get? rollback.attachmentId with
  | none => self
  | some record =>
    if key.matchesRecord record then
      { self with
        attachments := self.attachments.insert rollback.attachmentId
          { record with
            eligibleRecipientCodeIds := rollback.eligibleRecipientCodeIds
            published := rollback.published
            stagedExpiresAtMs := rollback.stagedExpiresAtMs }
        bindings := self.bindings.insert key rollback.attachmentId }
    else self

end AttachmentTables

structure AttachmentLimits where
  ramLimitBytes : Nat
  accountLimitBytes : Nat
  recordLimit : Nat
  accountRecordLimit : Nat

def currentAttachmentBytes (attachments : OrdMap Uuid AttachmentRecord) : Nat :=
  attachments.sum fun _ record => record.blob.length

def currentAttachmentRecordsForOwner (attachments : OrdMap Uuid AttachmentRecord)
    (ownerCodeId : CodeId) : Nat :=
  attachments.sum fun _ record => if record.ownerCodeId = ownerCodeId then 1 else 0

def attachmentCapacityAllows (usedTotal usedAccount incoming totalLimit accountLimit : Nat) : Bool :=
  (checkedAdd usedTotal incoming).any (fun total => total ≤ totalLimit) &&
    (checkedAdd usedAccount incoming).any fun account => account ≤ accountLimit

def attachmentRecordCapacityAllows (usedTotal usedAccount totalLimit accountLimit : Nat) : Bool :=
  usedTotal < totalLimit && usedAccount < accountLimit

/-- Which bodies `attachment_plaintext_size_from_blob` accepts. It refuses an empty blob first. -/
structure BlobFormat where
  validEncryptedAttachmentBody : MediaType → Bytes → Bool
  nonempty : ∀ mediaType, validEncryptedAttachmentBody mediaType [] = false

/-- An authorized upload with its body read. The recipients are what `snapshot_attachment_recipients`
finds, the lifetime is what `effective_attachment_ttl_sec` allows. -/
structure Upload where
  ownerCodeId : CodeId
  senderPlatform : ClientPlatform
  chatId : Text
  messageId : Text
  mediaType : MediaType
  body : Bytes
  ttlSec : Nat
  recipients : Finset CodeId
  oneTime : Option Bool
  deleteAfterDownload : Option Bool
  expiryNow : Nat
  stagedNow : Nat

inductive UploadError
  | body | recipients | ramLimit | recordLimit | conflict
  deriving DecidableEq

def UploadError.status : UploadError → StatusCode
  | .body | .recipients => .badRequest
  | .ramLimit | .recordLimit => .insufficientStorage
  | .conflict => .conflict

namespace Upload

def lifetimeEnd (upload : Upload) : Nat :=
  saturatingAdd upload.expiryNow (min (upload.ttlSec * 1000) wordMax)

def bindingKey (upload : Upload) : AttachmentBindingKey :=
  ⟨upload.ownerCodeId, upload.chatId, upload.messageId⟩

def record (upload : Upload) (expiresAtMs : Option Nat) (oneTime deleteAfterDownload : Bool) :
    AttachmentRecord :=
  { blob := upload.body
    chatId := upload.chatId
    messageId := upload.messageId
    mediaType := upload.mediaType
    ownerCodeId := upload.ownerCodeId
    senderPlatform := upload.senderPlatform
    published := false
    stagedExpiresAtMs := some
      (min (saturatingAdd upload.stagedNow attachmentStagingTtlMs) (expiresAtMs.getD wordMax))
    oneTime
    deleteAfterDownload
    expiresAtMs
    eligibleRecipientCodeIds := upload.recipients
    downloadClaims := .empty
    completedRecipientCodeIds := ∅ }

end Upload

namespace AttachmentTables

def stage (self : AttachmentTables) (format : BlobFormat) (limits : AttachmentLimits) (id : Uuid)
    (record : AttachmentRecord) : AttachmentTables × Except UploadError Uuid :=
  let accountUsed := (self.usage.get? record.ownerCodeId).getD 0
  if ¬ format.validEncryptedAttachmentBody record.mediaType record.blob then (self, .error .body)
  else if record.destructive && record.eligibleRecipientCodeIds = ∅ then (self, .error .recipients)
  else if ¬ attachmentCapacityAllows (currentAttachmentBytes self.attachments) accountUsed
      record.blob.length limits.ramLimitBytes limits.accountLimitBytes then (self, .error .ramLimit)
  else if ¬ attachmentRecordCapacityAllows self.attachments.size
      (currentAttachmentRecordsForOwner self.attachments record.ownerCodeId) limits.recordLimit
      limits.accountRecordLimit then (self, .error .recordLimit)
  else if ((self.bindings.get? record.bindingKey).bind self.attachments.get?).any
      record.bindingKey.matchesRecord then (self, .error .conflict)
  else
    ({ bindings := (self.bindings.erase record.bindingKey).insert record.bindingKey id
       attachments := self.attachments.insert id record
       usage := self.usage.insert record.ownerCodeId
        (saturatingAdd accountUsed record.blob.length) }, .ok id)

def uploadAttachment (self : AttachmentTables) (format : BlobFormat) (limits : AttachmentLimits)
    (id : Uuid) (upload : Upload) : AttachmentTables × Except StatusCode Uuid :=
  let expiresAtMs := if 0 < upload.ttlSec then some upload.lifetimeEnd else none
  let oneTime := upload.oneTime.getD false
  let staged := self.stage format limits id
    (upload.record expiresAtMs oneTime (upload.deleteAfterDownload.getD oneTime))
  (staged.1, staged.2.mapError UploadError.status)

def commitUpload (self : AttachmentTables) (format : BlobFormat) (limits : AttachmentLimits)
    (id : Uuid) (upload : Upload) : AttachmentTables × Except Unit Uuid :=
  -- The encrypted transport always sends both flags, and says no more than that it failed.
  let staged := self.stage format limits id
    (upload.record (some upload.lifetimeEnd) (upload.oneTime.getD false)
      (upload.deleteAfterDownload.getD false))
  (staged.1, staged.2.mapError fun _ => ())

def deleteOwnedAttachment (self : AttachmentTables) (id : Uuid) (ownerCodeId : CodeId) :
    AttachmentTables × StatusCode :=
  match self.attachments.get? id with
  | none => (self, .notFound)
  | some record =>
    if record.ownerCodeId ≠ ownerCodeId then (self, .forbidden)
    else (self.remove id record, .noContent)

end AttachmentTables

structure AttachmentDownloadReservation where
  blob : Bytes
  claimId : Option Uuid
  epoch : Nat
  deriving DecidableEq

def insertDownloadClaim (claims : OrdMap Uuid AttachmentDownloadClaim) (recipientCodeId : CodeId)
    (draws : List Uuid) (now : Nat) : Option (OrdMap Uuid AttachmentDownloadClaim × Uuid) :=
  -- The loop draws ids until one is unused; there is none if it has not ended with these draws.
  (draws.find? fun candidate => !claims.contains candidate).map fun claimId =>
    (claims.insert claimId ⟨recipientCodeId, now⟩, claimId)

structure DownloadRequest where
  attachmentId : Uuid
  requesterCodeId : CodeId
  requesterPlatform : Option ClientPlatform
  allowExistingClaim : Bool
  expiryNow : Nat
  claimNow : Uuid → Nat
  insertNow : Nat
  draws : List Uuid

namespace AttachmentRecord

def existingClaim (record : AttachmentRecord) (requester : CodeId) : Option Uuid :=
  -- The claim of a recipient, if there is one. At most one is there, so the order does not matter.
  (record.downloadClaims.entries.find? fun entry => entry.2.recipientCodeId = requester).map Prod.fst

def forRequest (record : AttachmentRecord) (request : DownloadRequest) : AttachmentRecord :=
  -- A request that may use an existing claim drops the claims that have expired.
  if request.allowExistingClaim then
    { record with
      downloadClaims := record.downloadClaims.filter fun claimId claim =>
        request.claimNow claimId - claim.createdAtMs < attachmentClaimTtlMs }
  else record

def claim (record : AttachmentRecord) (request : DownloadRequest) :
    Option (AttachmentRecord × Except StatusCode Uuid) :=
  let record := record.forRequest request
  if request.requesterCodeId ∈ record.completedRecipientCodeIds then some (record, .error .notFound)
  else
    match record.existingClaim request.requesterCodeId with
    | some claimId =>
      if request.allowExistingClaim then some (record, .ok claimId)
      else some (record, .error .tooManyRequests)
    | none =>
      (insertDownloadClaim record.downloadClaims request.requesterCodeId request.draws
        request.insertNow).map fun (claims, claimId) =>
          ({ record with downloadClaims := claims }, .ok claimId)

def forbids (record : AttachmentRecord) (policy : InteropPolicy) (request : DownloadRequest) : Bool :=
  match request.requesterPlatform with
  | none => true
  | some platform =>
    request.requesterCodeId ∉ record.eligibleRecipientCodeIds ||
      !policy.allows record.senderPlatform platform

end AttachmentRecord

namespace AttachmentTables

def reserveAttachmentDownloadInner (self : AttachmentTables) (policy : InteropPolicy) (epoch : Nat)
    (request : DownloadRequest) :
    Option (AttachmentTables × Except StatusCode AttachmentDownloadReservation) :=
  let id := request.attachmentId
  match self.attachments.get? id with
  | none => some (self, .error .notFound)
  | some record =>
    let owner := request.requesterCodeId = record.ownerCodeId
    if !record.published then some (self, .error .notFound)
    else if record.expiresAtMs.any fun expires => expires ≤ request.expiryNow then
      if record.downloadClaims.size ≠ 0 then some (self, .error .tooManyRequests)
      else some (self.remove id record, .error .notFound)
    else if ¬ owner ∧ record.forbids policy request then some (self, .error .forbidden)
    else if ¬ record.destructive ∨ owner then some (self, .ok ⟨record.blob, none, epoch⟩)
    else
      (record.claim request).map fun (record, claimed) =>
        (self.put id record, claimed.map fun claimId => ⟨record.blob, some claimId, epoch⟩)

def completeAttachmentDownloadClaim (self : AttachmentTables) (id : Uuid) (requester : CodeId)
    (claimId : Uuid) (now : Nat) : AttachmentTables × Except StatusCode Unit :=
  match self.attachments.get? id with
  | none => (self, .error .notFound)
  | some record =>
    match record.downloadClaims.get? claimId with
    | none => (self, .error .notFound)
    | some claim =>
      let record := { record with downloadClaims := record.downloadClaims.erase claimId }
      if claim.recipientCodeId ≠ requester then (self, .error .forbidden)
      else if attachmentClaimTtlMs ≤ now - claim.createdAtMs then
        (self.put id record, .error .notFound)
      else
        let record :=
          { record with
            completedRecipientCodeIds := insert requester record.completedRecipientCodeIds }
        if record.eligibleRecipientCodeIds ⊆ record.completedRecipientCodeIds then
          (self.remove id record, .ok ())
        else (self.put id record, .ok ())

def releaseAttachmentDownloadClaim (self : AttachmentTables) (id : Uuid) (requester : CodeId)
    (claimId : Uuid) : AttachmentTables × Except StatusCode Unit :=
  match self.attachments.get? id with
  | none => (self, .error .notFound)
  | some record =>
    match record.downloadClaims.get? claimId with
    | none => (self, .error .notFound)
    | some claim =>
      if claim.recipientCodeId ≠ requester then (self, .error .forbidden)
      else
        (self.put id { record with downloadClaims := record.downloadClaims.erase claimId }, .ok ())

end AttachmentTables
end Abyssal.Relay
