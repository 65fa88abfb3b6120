import Abyssal.Base.Runs
import Abyssal.Relay.AttachmentEdits

/-! Runs of the relay over its attachments. Most functions hold the lock `conversation_ops` from their
start to their end and are one step. The admission of a message holds it over several steps, in which
it looks the staged attachment up, may bind it to other recipients, publishes it and may roll all of
it back; only a claim can be released meanwhile. -/

namespace Abyssal.Relay

structure AttachmentRecord.Fresh (record : AttachmentRecord) : Prop where
  unpublished : record.published = false
  unclaimed : record.downloadClaims = .empty
  uncompleted : record.completedRecipientCodeIds = ∅

structure AttachmentConfig where
  format : BlobFormat
  limits : AttachmentLimits
  policy : InteropPolicy

/-- How far the admission of a message has come that holds `conversation_ops`. -/
inductive Admission
  | idle
  | found (key : AttachmentBindingKey) (id : Uuid)
  | rebound (key : AttachmentBindingKey) (rollback : StagedAttachmentRollback)
  | published (rollback : StagedAttachmentRollback)

def Admission.isIdle : Admission → Bool
  | .idle => true
  | _ => false

def Admission.subject : Admission → Option Uuid
  | .idle => none
  | .found _ id => some id
  | .rebound _ rollback => some rollback.attachmentId
  | .published rollback => some rollback.attachmentId

def Admission.holds (admission : Admission) (rollback : StagedAttachmentRollback) : Prop :=
  (∃ key, admission = .rebound key rollback) ∨ admission = .published rollback

structure AttachmentState where
  tables : AttachmentTables
  drawn : Finset Uuid
  epoch : Nat
  admission : Admission

inductive GuardedEvent
  | uploadAttachment (id : Uuid) (upload : Upload)
  | commitUpload (id : Uuid) (upload : Upload)
  | prune (order : VisitOrder Uuid) (bindingOrder : VisitOrder AttachmentBindingKey) (now : Nat)
  | reserve (request : DownloadRequest)
  | complete (id : Uuid) (requester : CodeId) (claimId : Uuid) (now : Nat)
  | delete (id : Uuid) (ownerCodeId : CodeId)
  | removeChat (order : VisitOrder Uuid) (chatId : Text)
  | revoke (roomId : Text) (removed : CodeId)
  | wipe

inductive AttachmentEvent
  | guarded (event : GuardedEvent)
  /-- `release_attachment_download_claim` is also called without the lock. -/
  | release (id : Uuid) (requester : CodeId) (claimId : Uuid)
  | lookup (key : AttachmentBindingKey) (now : Nat)
  | refuse
  | publish (now : Nat)
  | rebind (recipients : Finset CodeId)
  | publishChecked (now : Nat)
  | commit (accepted : Bool)

namespace AttachmentState

variable (config : AttachmentConfig)

def start : AttachmentState := ⟨.empty, ∅, 0, .idle⟩

/-- `Uuid::new_v4` is taken never to return an id twice: there is no upload with a drawn id. -/
def draw (self : AttachmentState) (id : Uuid) (staged : AttachmentTables) : AttachmentState :=
  if id ∈ self.drawn then self else { self with tables := staged, drawn := insert id self.drawn }

def execGuarded (self : AttachmentState) : GuardedEvent → AttachmentState
  | .uploadAttachment id upload =>
    self.draw id (self.tables.uploadAttachment config.format config.limits id upload).1
  | .commitUpload id upload =>
    self.draw id (self.tables.commitUpload config.format config.limits id upload).1
  | .prune order bindingOrder now =>
    { self with tables := self.tables.pruneExpiredAttachmentsLocked order bindingOrder now }
  | .reserve request =>
    match self.tables.reserveAttachmentDownloadInner config.policy self.epoch request with
    | none => self
    | some (tables, _) => { self with tables }
  | .complete id requester claimId now =>
    { self with tables := (self.tables.completeAttachmentDownloadClaim id requester claimId now).1 }
  | .delete id ownerCodeId =>
    { self with tables := (self.tables.deleteOwnedAttachment id ownerCodeId).1 }
  | .removeChat order chatId =>
    { self with tables := self.tables.removeChatAttachments order chatId }
  | .revoke roomId removed =>
    { self with tables := self.tables.revokeMlsAttachmentAccess roomId removed }
  | .wipe => { self with tables := .empty, epoch := (self.epoch + 1) % 2 ^ 64 }

def exec (self : AttachmentState) : AttachmentEvent → AttachmentState
  | .guarded event => if self.admission.isIdle then self.execGuarded config event else self
  | .release id requester claimId =>
    { self with tables := (self.tables.releaseAttachmentDownloadClaim id requester claimId).1 }
  | .lookup key now =>
    if self.admission.isIdle then
      match self.tables.stagedAttachmentForMessage key now with
      | (tables, .ok (some id)) => { self with tables, admission := .found key id }
      | (tables, _) => { self with tables }
    else self
  | .refuse =>
    match self.admission with
    | .found .. => { self with admission := .idle }
    | _ => self
  | .publish now =>
    match self.admission with
    | .found key id =>
      { self with
        tables := (self.tables.publishStagedAttachmentChecked id key now).1
        admission := .idle }
    | _ => self
  | .rebind recipients =>
    match self.admission with
    | .found key id =>
      match self.tables.rebindStagedAttachmentRecipients id recipients with
      | (tables, .ok rollback) => { self with tables, admission := .rebound key rollback }
      | (tables, .error _) => { self with tables, admission := .idle }
    | _ => self
  | .publishChecked now =>
    match self.admission with
    | .rebound key rollback =>
      match self.tables.publishStagedAttachmentChecked rollback.attachmentId key now with
      | (tables, .ok _) => { self with tables, admission := .published rollback }
      | (tables, .error _) =>
        { self with tables := tables.rollbackStagedAttachment rollback, admission := .idle }
    | _ => self
  | .commit accepted =>
    match self.admission with
    | .published rollback =>
      { self with
        tables := if accepted then self.tables else self.tables.rollbackStagedAttachment rollback
        admission := .idle }
    | _ => self

def after (events : List AttachmentEvent) : AttachmentState := runFrom (exec config) start events

variable {config}

inductive Move (limits : AttachmentLimits) (s : AttachmentState) (event : AttachmentEvent) :
    AttachmentTables → Finset Uuid → Prop
  | edits {t : AttachmentTables} : Edits s.tables t → Move limits s event t s.drawn
  | rollback {t : AttachmentTables} (rollback : StagedAttachmentRollback) : Edits s.tables t →
      (∀ record, t.attachments.get? rollback.attachmentId = some record →
        s.tables.attachments.get? rollback.attachmentId = some record) →
      s.admission.holds rollback → Move limits s event (t.rollbackStagedAttachment rollback) s.drawn
  | revoke (roomId : Text) (removed : CodeId) : event = .guarded (.revoke roomId removed) →
      s.admission.isIdle = true → Move limits s event (s.tables.revokeMlsAttachmentAccess roomId removed) s.drawn
  | refuse (id : Uuid) : Move limits s event s.tables (insert id s.drawn)
  | stage (id : Uuid) (record : AttachmentRecord) : id ∉ s.drawn → record.Fresh →
      s.tables.Admitted limits record →
      Move limits s event
        { bindings := s.tables.bindings.insert record.bindingKey id
          attachments := s.tables.attachments.insert id record
          usage := s.tables.usage.insert record.ownerCodeId
            ((s.tables.usage.get? record.ownerCodeId).getD 0 + record.blob.length) }
        (insert id s.drawn)
  | wipe : Move limits s event .empty s.drawn

def Named (s : AttachmentState) : Prop :=
  match s.admission with
  | .found key id => ∀ id', s.tables.bindings.get? key = some id' → id' = id
  | .rebound key rollback =>
    ∀ id', s.tables.bindings.get? key = some id' → id' = rollback.attachmentId
  | _ => True

variable {s : AttachmentState}

theorem move_draw (h : s.tables.Balanced) (format : BlobFormat) (limits : AttachmentLimits) (id : Uuid)
    {record : AttachmentRecord} (hfresh : record.Fresh) {event : AttachmentEvent} :
    Move limits s event (s.draw id (s.tables.stage format limits id record).1).tables
      (s.draw id (s.tables.stage format limits id record).1).drawn := by
  unfold draw
  split_ifs with hdrawn
  · exact .edits .refl
  · rcases AttachmentTables.stage_cases h format limits id record with heq | ⟨hadmitted, heq⟩
    · rw [heq]
      exact .refuse id
    · rw [heq]
      exact .stage id record hdrawn hfresh hadmitted

theorem move_guarded (h : s.tables.Balanced) (hidle : s.admission.isIdle = true)
    (event : GuardedEvent) :
    Move config.limits s (.guarded event) (s.execGuarded config event).tables
      (s.execGuarded config event).drawn := by
  cases event with
  | uploadAttachment id upload | commitUpload id upload => exact move_draw h _ _ id ⟨rfl, rfl, rfl⟩
  | prune order bindingOrder now => exact .edits (AttachmentTables.edits_prune h order bindingOrder)
  | reserve request =>
    simp only [execGuarded]
    split
    · exact .edits .refl
    · next heq => exact .edits (AttachmentTables.reserve_cases heq).1
  | complete id requester claimId now => exact .edits (AttachmentTables.edits_complete ..)
  | delete id ownerCodeId => exact .edits (AttachmentTables.edits_delete ..)
  | removeChat order chatId => exact .edits (AttachmentTables.edits_removeChatAttachments ..)
  | revoke roomId removed => exact .revoke roomId removed rfl hidle
  | wipe => exact .wipe

theorem move_exec (h : s.tables.Balanced) (hnamed : s.Named) (event : AttachmentEvent) :
    Move config.limits s event (s.exec config event).tables (s.exec config event).drawn := by
  cases event with
  | guarded event =>
    simp only [exec]
    split_ifs with hidle
    · exact move_guarded h hidle event
    · exact .edits .refl
  | release id requester claimId => exact .edits (AttachmentTables.edits_release ..)
  | lookup key now =>
    simp only [exec]
    have hedits := (AttachmentTables.staged_cases h key now).1
    split_ifs
    · split <;> next heq => exact .edits (by simpa only [heq] using hedits)
    · exact .edits .refl
  | refuse =>
    simp only [exec]
    split <;> exact .edits .refl
  | publish now =>
    simp only [exec]
    split
    · next key id heq =>
      simp only [Named, heq] at hnamed
      exact .edits (AttachmentTables.edits_publish h hnamed now)
    · exact .edits .refl
  | rebind recipients =>
    simp only [exec]
    split
    · next key id _ =>
      have hedits := (AttachmentTables.rebind_cases s.tables id recipients).1
      split <;> next heq => exact .edits (by simpa only [heq] using hedits)
    · exact .edits .refl
  | publishChecked now =>
    simp only [exec]
    split
    · next key rollback heq =>
      simp only [Named, heq] at hnamed
      have hedits := AttachmentTables.edits_publish h hnamed now
      split
      · next hpublish => exact .edits (by simpa only [hpublish] using hedits)
      · next hpublish =>
        exact .rollback rollback (by simpa only [hpublish] using hedits)
          (fun record => AttachmentTables.publish_error h hnamed hpublish) (.inl ⟨key, heq⟩)
    · exact .edits .refl
  | commit accepted =>
    simp only [exec]
    split
    · next rollback heq =>
      cases accepted with
      | true => exact .edits .refl
      | false => exact .rollback rollback .refl (fun _ => id) (.inr heq)
    · exact .edits .refl

end AttachmentState
end Abyssal.Relay
