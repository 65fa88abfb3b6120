import Abyssal.Relay.AttachmentAccounting

/-! Attachments that are deleted after download. A recipient has one claim at a time and completes
once; a completion of the last eligible recipient takes the record away. A revocation does not, so
that a record can stay of which all eligible recipients have completed. -/

namespace Abyssal.Relay

open OrdMap Option

variable {requester recipient : CodeId} {claimId : Uuid}

namespace AttachmentRecord

def Unclaimed (record : AttachmentRecord) : Prop :=
  (∀ claimId, record.downloadClaims.get? claimId = none) ∧ record.completedRecipientCodeIds = ∅

structure Orderly (record : AttachmentRecord) : Prop where
  unique : ∀ claimId claimId' claim claim', record.downloadClaims.get? claimId = some claim →
    record.downloadClaims.get? claimId' = some claim' →
    claim.recipientCodeId = claim'.recipientCodeId → claimId = claimId'
  claimed : ∀ claimId claim, record.downloadClaims.get? claimId = some claim →
    record.destructive = true ∧ claim.recipientCodeId ≠ record.ownerCodeId
  staged : record.published = false → record.Unclaimed

def Remaining (record : AttachmentRecord) : Prop :=
  record.destructive = true →
    ¬ record.eligibleRecipientCodeIds ⊆ record.completedRecipientCodeIds

structure ClosedTo (record : AttachmentRecord) (recipient : CodeId) : Prop where
  published : record.published = true
  destructive : record.destructive = true
  notOwner : recipient ≠ record.ownerCodeId
  completed : recipient ∈ record.completedRecipientCodeIds ∨
    recipient ∉ record.eligibleRecipientCodeIds

variable {record record' : AttachmentRecord}

theorem existingClaim_eq_none (h : record.existingClaim requester = none)
    {claim : AttachmentDownloadClaim} (hclaim : record.downloadClaims.get? claimId = some claim) :
    claim.recipientCodeId ≠ requester := by
  have hfind := List.find?_eq_none.mp (map_eq_none_iff.mp h)
  simpa using hfind (claimId, claim) (get?_eq_some.mp hclaim)

theorem Unclaimed.filter (h : record.Unclaimed) (keep : Uuid → AttachmentDownloadClaim → Bool) :
    Unclaimed { record with downloadClaims := record.downloadClaims.filter keep } := by
  refine ⟨fun claimId => ?_, h.2⟩
  rw [get?_filter, h.1]
  rfl

theorem Orderly.filter (h : record.Orderly) (keep : Uuid → AttachmentDownloadClaim → Bool) :
    Orderly { record with downloadClaims := record.downloadClaims.filter keep } := by
  have hsub : ∀ {claimId claim}, (record.downloadClaims.filter keep).get? claimId = some claim →
      record.downloadClaims.get? claimId = some claim := fun hclaim => by
    rw [get?_filter] at hclaim
    exact (filter_eq_some_iff.mp hclaim).1
  refine ⟨fun a b x y ha hb => h.unique a b x y (hsub ha) (hsub hb),
    fun claimId claim hclaim => h.claimed claimId claim (hsub hclaim), fun hpub => ?_⟩
  exact (h.staged hpub).filter keep

theorem Orderly.change (h : record.Orderly) (hchange : Change record record') : record'.Orderly := by
  cases hchange with
  | dropClaims keep => exact h.filter keep
  | publish _ => exact ⟨h.unique, h.claimed, fun hpub => by cases hpub⟩
  | rebind recipients _ _ => exact ⟨h.unique, h.claimed, h.staged⟩
  | claim requester claimId now hpub hdestructive howner _ _ hnone =>
    refine ⟨fun a b x y ha hb hxy => ?_, fun c x hc => ?_, fun hunpub => ?_⟩
    · rw [get?_insert] at ha hb
      split_ifs at ha hb with hca hcb hcb
      · exact hca.symm.trans hcb
      · obtain rfl := some.inj ha
        exact absurd hxy.symm (existingClaim_eq_none hnone hb)
      · obtain rfl := some.inj hb
        exact absurd hxy (existingClaim_eq_none hnone ha)
      · exact h.unique a b x y ha hb hxy
    · rcases get?_insert_cases hc with ⟨rfl, rfl⟩ | ⟨-, hc⟩
      · exact ⟨hdestructive, howner⟩
      · exact h.claimed c x hc
    · exact absurd (hpub.symm.trans hunpub) (by decide)
  | complete claimId claim hclaim _ =>
    have hrest : Orderly { record with downloadClaims := record.downloadClaims.erase claimId } :=
      h.filter _
    refine ⟨hrest.unique, hrest.claimed, fun hunpub => ?_⟩
    rw [(h.staged hunpub).1] at hclaim
    cases hclaim

theorem Remaining.change (h : record.Remaining) (horderly : record.Orderly)
    (hchange : Change record record') : record'.Remaining := by
  cases hchange with
  | dropClaims keep | publish _ | claim => exact h
  | rebind recipients hpub hne =>
    intro _ hsub
    dsimp only at hsub
    rw [(horderly.staged hpub).2, Finset.subset_empty] at hsub
    exact hne hsub
  | complete claimId claim _ hnot => exact fun _ => hnot

theorem Remaining.revoke {removed : CodeId} (h : record.destructive = true →
    ∃ recipient ∈ record.eligibleRecipientCodeIds,
      recipient ≠ removed ∧ recipient ∉ record.completedRecipientCodeIds) :
    (record.revoke removed).Remaining := by
  intro hdestructive hsub
  obtain ⟨recipient, heligible, hother, huncompleted⟩ := h hdestructive
  have hcompleted := hsub (Finset.mem_erase.mpr ⟨hother, heligible⟩)
  exact huncompleted (Finset.mem_of_mem_erase hcompleted)

theorem ClosedTo.change {recipient : CodeId} (h : record.ClosedTo recipient)
    (hchange : Change record record') : record'.ClosedTo recipient := by
  cases hchange with
  | dropClaims keep | claim => exact ⟨h.published, h.destructive, h.notOwner, h.completed⟩
  | publish hpub | rebind recipients hpub _ =>
    exact absurd (h.published.symm.trans hpub) (by decide)
  | complete claimId claim _ _ =>
    exact ⟨h.published, h.destructive, h.notOwner, h.completed.imp_left (Finset.mem_insert_of_mem ·)⟩

theorem Orderly.revoke (h : record.Orderly) (removed : CodeId) : (record.revoke removed).Orderly := by
  have hrest := h.filter fun _ claim => decide (claim.recipientCodeId ≠ removed)
  refine ⟨hrest.unique, hrest.claimed, fun hpub => ⟨(hrest.staged hpub).1, ?_⟩⟩
  change record.completedRecipientCodeIds.erase removed = ∅
  rw [(h.staged hpub).2, Finset.erase_empty]

theorem ClosedTo.revoke (h : record.ClosedTo recipient) (removed : CodeId) :
    (record.revoke removed).ClosedTo recipient := by
  refine ⟨h.published, h.destructive, h.notOwner, ?_⟩
  change recipient ∈ record.completedRecipientCodeIds.erase removed ∨
    recipient ∉ record.eligibleRecipientCodeIds.erase removed
  rw [Finset.mem_erase, Finset.mem_erase]
  by_cases hremoved : recipient = removed
  · exact .inr fun hmem => hmem.1 hremoved
  · exact h.completed.imp (fun hmem => ⟨hremoved, hmem⟩) fun hnot hmem => hnot hmem.2

theorem Unclaimed.orderly (h : record.Unclaimed) : record.Orderly := by
  refine ⟨fun a b x y ha => ?_, fun c x hc => ?_, fun _ => h⟩
  · rw [h.1] at ha
    cases ha
  · rw [h.1] at hc
    cases hc

theorem Fresh.isUnclaimed (h : record.Fresh) : record.Unclaimed :=
  ⟨fun claimId => by rw [h.unclaimed]; rfl, h.uncompleted⟩

end AttachmentRecord

namespace AttachmentState

open AttachmentRecord

variable {config : AttachmentConfig} {s : AttachmentState} {event : AttachmentEvent}
  {t : AttachmentTables} {drawn : Finset Uuid} {id : Uuid} {rollback : StagedAttachmentRollback}

theorem Move.forall_records {P : Uuid → AttachmentRecord → Prop} (hbalanced : s.tables.Balanced)
    (hmove : Move config.limits s event t drawn)
    (hchange : ∀ id record record', Change record record' → P id record → P id record')
    (hrollback : ∀ rollback record, s.admission.holds rollback →
      s.tables.attachments.get? rollback.attachmentId = some record →
      P rollback.attachmentId (record.rolledBack rollback))
    (hrevoke : ∀ roomId removed, event = .guarded (.revoke roomId removed) →
      s.admission.isIdle = true → ∀ id record, s.tables.attachments.get? id = some record →
      record.chatId = roomId → P id (record.revoke removed))
    (hfresh : ∀ id record, id ∉ s.drawn → record.Fresh → s.tables.Admitted config.limits record →
      P id record)
    (h : ∀ id record, s.tables.attachments.get? id = some record → P id record) {id : Uuid}
    {record : AttachmentRecord} (hid : t.attachments.get? id = some record) : P id record := by
  cases hmove with
  | edits hedits => exact hedits.forall_records hchange h hid
  | @rollback t' rollback hedits hkept hholds =>
    rcases AttachmentTables.rollback_cases (hedits.balanced hbalanced) rollback with
      heq | ⟨before, hbefore, heq⟩
    · exact hedits.forall_records hchange h (heq ▸ hid)
    · rw [heq, AttachmentTables.put, get?_insert] at hid
      split_ifs at hid with hsame
      · obtain rfl := some.inj hid
        exact hsame ▸ hrollback rollback before hholds (hkept before hbefore)
      · exact hedits.forall_records hchange h hid
  | revoke roomId removed hevent hidle =>
    rw [AttachmentTables.revokeMlsAttachmentAccess, get?_mapValues] at hid
    obtain ⟨before, hbefore, rfl⟩ := map_eq_some_iff.mp hid
    split_ifs with hroom
    · exact hrevoke roomId removed hevent hidle id before hbefore hroom
    · exact h id before hbefore
  | refuse _ => exact h id record hid
  | stage id' record' hunused hrecord hadmitted =>
    rcases get?_insert_cases hid with ⟨rfl, rfl⟩ | ⟨-, hid⟩
    · exact hfresh id' record' hunused hrecord hadmitted
    · exact h id record hid
  | wipe => cases hid

def Carries (t t' : AttachmentTables) (id : Uuid) : Prop :=
  ∀ record', t'.attachments.get? id = some record' →
    ∃ record, t.attachments.get? id = some record ∧ record'.destructive = record.destructive ∧
      (record.Unclaimed → record'.Unclaimed)

variable (t id) in
theorem Carries.refl : Carries t t id :=
  fun record' h => ⟨record', h, rfl, fun hu => hu⟩

variable {now : Nat}

theorem carries_publish {key : AttachmentBindingKey} {t' : AttachmentTables}
    (h : t.publishStagedAttachmentChecked id key now = (t', .ok ())) : Carries t t' id := by
  obtain ⟨record, hrecord, ⟨-, rfl⟩ | rfl⟩ := AttachmentTables.publish_ok h
  · exact Carries.refl _ _
  · intro record' hrecord'
    rw [AttachmentTables.put, get?_insert_self] at hrecord'
    obtain rfl := some.inj hrecord'
    exact ⟨record, hrecord, rfl, fun hu => hu⟩

theorem carries_release (t : AttachmentTables) (id' : Uuid) (requester : CodeId) (claimId id : Uuid) :
    Carries t (t.releaseAttachmentDownloadClaim id' requester claimId).1 id := by
  intro record' hrecord'
  obtain ⟨record, keep, hrecord, rfl⟩ := AttachmentTables.release_origin hrecord'
  exact ⟨record, hrecord, rfl, fun hu => hu.filter keep⟩

variable {admission : Admission}

theorem subject_of_isIdle (h : admission.isIdle = true) : admission.subject = none := by
  cases admission with
  | idle => rfl
  | _ => cases h

theorem subject_cases (h : s.Sound config) (event : AttachmentEvent)
    (hid : (s.exec config event).admission.subject = some id) :
    (s.admission.subject = some id ∧ Carries s.tables (s.exec config event).tables id) ∨
    ∃ record', (s.exec config event).tables.attachments.get? id = some record' ∧
      record'.published = false := by
  cases event with
  | guarded event =>
    simp only [exec] at hid ⊢
    split_ifs at hid ⊢ with hidle
    · rw [admission_execGuarded, subject_of_isIdle hidle] at hid
      cases hid
    · exact .inl ⟨hid, Carries.refl _ _⟩
  | release id' requester claimId => exact .inl ⟨hid, carries_release _ _ _ _ _⟩
  | lookup key now =>
    simp only [exec] at hid ⊢
    split_ifs at hid ⊢ with hidle
    · have hfound := (AttachmentTables.staged_cases h.balanced key now).2
      split at hid
      · next tables found heq =>
        obtain rfl := some.inj hid
        rw [heq] at hfound
        obtain ⟨record, hrecord, -, hpub⟩ := hfound found rfl
        exact .inr ⟨record, by simpa only [heq] using hrecord, hpub⟩
      · rw [subject_of_isIdle hidle] at hid
        cases hid
    · exact .inl ⟨hid, Carries.refl _ _⟩
  | refuse | publish now | commit accepted =>
    simp only [exec] at hid ⊢
    split at hid
    · cases hid
    · exact .inl ⟨hid, Carries.refl _ _⟩
  | rebind recipients =>
    simp only [exec] at hid ⊢
    split at hid
    · next key found hadmission =>
      have hrebind := (AttachmentTables.rebind_cases s.tables found recipients).2
      split at hid
      · next tables rollback heq =>
        rw [heq] at hrebind
        obtain ⟨record, record', -, -, hrecord', hpub, -, rfl⟩ := hrebind rollback rfl
        obtain rfl := some.inj hid
        exact .inr ⟨record', by simpa only [hadmission, heq] using hrecord', hpub⟩
      · cases hid
    · exact .inl ⟨hid, Carries.refl _ _⟩
  | publishChecked now =>
    simp only [exec] at hid ⊢
    split at hid
    · next key rollback hadmission =>
      split at hid
      · next tables heq =>
        obtain rfl := some.inj hid
        refine .inl ⟨by rw [hadmission]; rfl, ?_⟩
        simpa only [hadmission, heq] using carries_publish heq
      · cases hid
    · exact .inl ⟨hid, Carries.refl _ _⟩

theorem subject_of_holds (h : admission.holds rollback) :
    admission.subject = some rollback.attachmentId := by
  rcases h with ⟨key, rfl⟩ | rfl <;> rfl

theorem holds_cases (hholds : (s.exec config event).admission.holds rollback) :
    s.admission.holds rollback ∧
        Carries s.tables (s.exec config event).tables rollback.attachmentId ∨
      ∃ record record', s.tables.attachments.get? rollback.attachmentId = some record ∧
        record.published = false ∧
        (s.exec config event).tables.attachments.get? rollback.attachmentId = some record' ∧
        record'.destructive = record.destructive ∧
        rollback.eligibleRecipientCodeIds = record.eligibleRecipientCodeIds ∧
        rollback.published = record.published := by
  cases event with
  | guarded event =>
    simp only [exec] at hholds ⊢
    split_ifs at hholds ⊢ with hidle
    · rw [admission_execGuarded] at hholds
      exact absurd (subject_of_holds hholds) (by simp [subject_of_isIdle hidle])
    · exact .inl ⟨hholds, Carries.refl _ _⟩
  | release id requester claimId => exact .inl ⟨hholds, carries_release _ _ _ _ _⟩
  | lookup key now =>
    simp only [exec] at hholds ⊢
    split_ifs at hholds ⊢ with hidle
    · split at hholds
      · simp [Admission.holds] at hholds
      · exact absurd (subject_of_holds hholds) (by simp [subject_of_isIdle hidle])
    · exact .inl ⟨hholds, Carries.refl _ _⟩
  | refuse | publish now | commit accepted =>
    simp only [exec] at hholds ⊢
    split at hholds
    · simp [Admission.holds] at hholds
    · exact .inl ⟨hholds, Carries.refl _ _⟩
  | rebind recipients =>
    simp only [exec] at hholds ⊢
    split at hholds
    · next key found hadmission =>
      have hrebind := (AttachmentTables.rebind_cases s.tables found recipients).2
      split at hholds
      · next tables rollback' heq =>
        obtain rfl : rollback' = rollback := by simpa [Admission.holds] using hholds
        rw [heq] at hrebind
        obtain ⟨record, record', hrecord, hpub, hrecord', -, hsame, rfl⟩ := hrebind rollback' rfl
        exact .inr ⟨record, record', hrecord, hpub, by simpa only [hadmission, heq] using hrecord',
          hsame, rfl, rfl⟩
      · simp [Admission.holds] at hholds
    · exact .inl ⟨hholds, Carries.refl _ _⟩
  | publishChecked now =>
    simp only [exec] at hholds ⊢
    split at hholds
    · next key rollback' hadmission =>
      split at hholds
      · next tables heq =>
        obtain rfl : rollback' = rollback := by simpa [Admission.holds] using hholds
        refine .inl ⟨.inl ⟨key, hadmission⟩, ?_⟩
        simpa only [hadmission, heq] using carries_publish heq
      · simp [Admission.holds] at hholds
    · exact .inl ⟨hholds, Carries.refl _ _⟩

structure InOrder (s : AttachmentState) : Prop where
  records : ∀ id record, s.tables.attachments.get? id = some record → record.Orderly
  subject : ∀ id record, s.admission.subject = some id → s.tables.attachments.get? id = some record →
    record.Unclaimed
  rollback : ∀ rollback, s.admission.holds rollback → rollback.published = false

theorem InOrder.rolledBack (h : s.InOrder) {record : AttachmentRecord}
    (hholds : s.admission.holds rollback)
    (hid : s.tables.attachments.get? rollback.attachmentId = some record) :
    (record.rolledBack rollback).Unclaimed := h.subject _ record (subject_of_holds hholds) hid

theorem InOrder.exec (h : s.InOrder) (hsound : s.Sound config) (event : AttachmentEvent) :
    (s.exec config event).InOrder := by
  have hmove : Move config.limits s event _ _ := move_exec hsound.balanced hsound.named event
  have hrecords : ∀ id record, (s.exec config event).tables.attachments.get? id = some record →
      record.Orderly := fun id record hid =>
    @Move.forall_records _ _ _ _ _ (fun _ record => record.Orderly) hsound.balanced hmove
      (fun _ _ _ hchange hr => hr.change hchange)
      (fun _ _ hholds hid => (h.rolledBack hholds hid).orderly)
      (fun _ removed _ _ id record hid _ => (h.records id record hid).revoke removed)
      (fun _ _ _ hfresh _ => hfresh.isUnclaimed.orderly) h.records id record hid
  refine ⟨hrecords, fun id record hsubject hid => ?_, fun rollback hholds => ?_⟩
  · rcases subject_cases hsound event hsubject with ⟨hbefore, hcarries⟩ | ⟨record', hid', hpub⟩
    · obtain ⟨old, hold, -, hunclaimed⟩ := hcarries record hid
      exact hunclaimed (h.subject id old hbefore hold)
    · obtain rfl := some.inj (hid.symm.trans hid')
      exact (hrecords id record hid).staged hpub
  · rcases holds_cases hholds with ⟨hbefore, -⟩ | ⟨record, -, -, hpub, -, -, -, heq⟩
    · exact h.rollback rollback hbefore
    · exact heq.trans hpub

/-- When a recipient is revoked, every record of the room that is deleted after download has another
eligible recipient who has not completed. -/
def LeavesRecipient (s : AttachmentState) : AttachmentEvent → Prop
  | .guarded (.revoke roomId removed) => ∀ id record, s.tables.attachments.get? id = some record →
      record.chatId = roomId → record.destructive = true →
      ∃ recipient ∈ record.eligibleRecipientCodeIds,
        recipient ≠ removed ∧ recipient ∉ record.completedRecipientCodeIds
  | _ => True

structure AllRemaining (s : AttachmentState) : Prop where
  records : ∀ id record, s.tables.attachments.get? id = some record → record.Remaining
  rollback : ∀ rollback record, s.admission.holds rollback →
    s.tables.attachments.get? rollback.attachmentId = some record → record.destructive = true →
    rollback.eligibleRecipientCodeIds ≠ ∅

theorem AllRemaining.exec (h : s.AllRemaining) (hsound : s.Sound config) (horder : s.InOrder)
    (hleaves : s.LeavesRecipient event) : (s.exec config event).AllRemaining := by
  have hmove : Move config.limits s event _ _ := move_exec hsound.balanced hsound.named event
  refine ⟨fun id record hid => ?_, fun rollback record hholds hid hd => ?_⟩
  · refine (@Move.forall_records _ _ _ _ _ (fun _ record => record.Orderly ∧ record.Remaining)
      hsound.balanced hmove (fun _ _ _ hchange hr => ⟨hr.1.change hchange, hr.2.change hr.1 hchange⟩)
      (fun rollback record hholds hid => ?_) (fun roomId removed hevent _ id' before hbefore hroom => ?_)
      (fun _ record _ hfresh hadmitted => ?_) (fun id record hid => ⟨horder.records id record hid,
        h.records id record hid⟩) id record hid).2
    · have hunclaimed := horder.rolledBack hholds hid
      refine ⟨hunclaimed.orderly, fun hd hsub => ?_⟩
      rw [hunclaimed.2, Finset.subset_empty] at hsub
      exact h.rollback rollback record hholds hid hd hsub
    · subst hevent
      have hothers := hleaves id' before hbefore hroom
      exact ⟨(horder.records id' before hbefore).revoke removed, .revoke hothers⟩
    · refine ⟨hfresh.isUnclaimed.orderly, fun hd hsub => ?_⟩
      rw [hfresh.uncompleted, Finset.subset_empty] at hsub
      exact hadmitted.recipients hd hsub
  · rcases holds_cases hholds with
      ⟨hbefore, hcarries⟩ | ⟨old, record', hold, -, hid', hsame, heligible, -⟩
    · obtain ⟨old, hold, hsame, -⟩ := hcarries record hid
      exact h.rollback rollback old hbefore hold (hsame ▸ hd)
    · obtain rfl := some.inj (hid.symm.trans hid')
      rw [heligible]
      intro hempty
      exact h.records _ old hold (hsame ▸ hd) (hempty ▸ Finset.empty_subset _)

structure Closed (s : AttachmentState) (id : Uuid) (recipient : CodeId) : Prop where
  drawn : id ∈ s.drawn
  subject : s.admission.subject ≠ some id
  record : ∀ record, s.tables.attachments.get? id = some record → record.ClosedTo recipient

theorem Move.subset_drawn (h : Move config.limits s event t drawn) : s.drawn ⊆ drawn := by
  cases h with
  | refuse id | stage id record _ _ _ => exact Finset.subset_insert ..
  | _ => exact Finset.Subset.refl _

theorem Closed.exec (h : s.Closed id recipient) (hsound : s.Sound config) (event : AttachmentEvent) :
    (s.exec config event).Closed id recipient := by
  have hmove : Move config.limits s event _ _ := move_exec hsound.balanced hsound.named event
  have hrecord : ∀ record, (s.exec config event).tables.attachments.get? id = some record →
      record.ClosedTo recipient := fun record hid =>
    @Move.forall_records _ _ _ _ _ (fun id' record => id' = id → record.ClosedTo recipient)
      hsound.balanced hmove (fun _ _ _ hchange hr heq => (hr heq).change hchange)
      (fun _ _ hholds _ heq => absurd (heq ▸ subject_of_holds hholds) h.subject)
      (fun _ removed _ _ id' record hid _ heq => (h.record record (heq ▸ hid)).revoke removed)
      (fun _ _ hunused _ _ heq => absurd (heq ▸ h.drawn) hunused)
      (fun id' record hid heq => h.record record (heq ▸ hid)) id record hid rfl
  refine ⟨hmove.subset_drawn h.drawn, fun hsubject => ?_, hrecord⟩
  rcases subject_cases hsound event hsubject with ⟨hbefore, -⟩ | ⟨record, hid, hpub⟩
  · exact h.subject hbefore
  · have := (hrecord record hid).published
    rw [hpub] at this
    cases this

theorem closed_of_complete (hsound : s.Sound config) (horder : s.InOrder)
    (hidle : s.admission.isIdle = true)
    (hok : (s.tables.completeAttachmentDownloadClaim id requester claimId now).2 = .ok ()) :
    (s.exec config (.guarded (.complete id requester claimId now))).Closed id requester := by
  have hexec : s.exec config (.guarded (.complete id requester claimId now)) =
      { s with
        tables := (s.tables.completeAttachmentDownloadClaim id requester claimId now).1 } := if_pos hidle
  rw [hexec]
  rcases AttachmentTables.complete_cases s.tables id requester claimId now with
    ⟨-, herror⟩ | ⟨record, claim, hid, hclaim, rfl, ⟨-, heq⟩ | ⟨-, heq⟩⟩
  · exact absurd hok herror
  · rw [heq] at hok
    cases hok
  · have horderly := horder.records id record hid
    obtain ⟨hdestructive, howner⟩ := horderly.claimed claimId claim hclaim
    refine ⟨hsound.drawn id record hid, by simp [subject_of_isIdle hidle], fun record' hid' => ?_⟩
    rw [heq] at hid'
    dsimp only at hid'
    split_ifs at hid'
    · rw [AttachmentTables.remove, get?_erase_self] at hid'
      cases hid'
    · rw [AttachmentTables.put, get?_insert_self] at hid'
      obtain rfl := some.inj hid'
      refine ⟨?_, hdestructive, howner, .inl (Finset.mem_insert_self ..)⟩
      cases hpub : record.published with
      | true => rfl
      | false =>
        rw [(horderly.staged hpub).1] at hclaim
        cases hclaim

theorem after_append (config : AttachmentConfig) (before later : List AttachmentEvent) :
    after config (before ++ later) = runFrom (exec config) (after config before) later :=
  List.foldl_append ..

theorem inOrder_after (config : AttachmentConfig) (events : List AttachmentEvent) :
    (after config events).Sound config ∧ (after config events).InOrder := by
  refine @run_invariant _ _ _ (fun s : AttachmentState => s.Sound config ∧ s.InOrder)
    (fun s event h => ⟨h.1.exec event, h.2.exec h.1 event⟩) _ ⟨sound_start, ?_⟩ events
  refine ⟨fun _ _ h => (nomatch h), fun _ _ h => (nomatch h), fun _ h => ?_⟩
  simp [start, Admission.holds] at h

theorem allRemaining_after (events : List AttachmentEvent)
    (h : Along LeavesRecipient (exec config) start events) : (after config events).AllRemaining := by
  have hstart : start.AllRemaining := by
    refine ⟨fun _ _ h => (nomatch h), fun _ _ h => ?_⟩
    simp [start, Admission.holds] at h
  exact (@Along.invariant _ _ _ _
    (fun s : AttachmentState => (s.Sound config ∧ s.InOrder) ∧ s.AllRemaining)
    (fun s event hs hleaves => ⟨⟨hs.1.1.exec event, hs.1.2.exec hs.1.1 event⟩,
      hs.2.exec hs.1.1 hs.1.2 hleaves⟩) _ _ ⟨inOrder_after config [], hstart⟩ h).2

theorem closed_after {before later : List AttachmentEvent}
    (hidle : (after config before).admission.isIdle = true)
    (hok : ((after config before).tables.completeAttachmentDownloadClaim id requester claimId
      now).2 = .ok ()) :
    (after config (before ++ .guarded (.complete id requester claimId now) :: later)).Closed id
      requester := by
  obtain ⟨hsound, horder⟩ := inOrder_after config before
  rw [after_append]
  exact (@run_invariant _ _ _ (fun s : AttachmentState => s.Sound config ∧ s.Closed id requester)
    (fun s event h => ⟨h.1.exec event, h.2.exec h.1 event⟩) _
    ⟨hsound.exec _, closed_of_complete hsound horder hidle hok⟩ later).2

def LiveClaim (s : AttachmentState) (id : Uuid) (requester : CodeId) (claimId : Uuid) (now : Nat) :
    Prop :=
  ∃ record claim, s.tables.attachments.get? id = some record ∧
    record.downloadClaims.get? claimId = some claim ∧ claim.recipientCodeId = requester ∧
    now - claim.createdAtMs < attachmentClaimTtlMs

/-- In every state that a run reaches: no recipient has two claims on a record; a blob is given to the
owner or to an eligible recipient only, and to no recipient that has completed; a completion without a
live claim is refused and changes nothing, but that the requester's own expired claim goes. While every
revocation leaves a recipient, no record stays of which all eligible recipients have completed. -/
theorem destructive_downloads (config : AttachmentConfig) (events : List AttachmentEvent) :
    let s := after config events
    (∀ id record, s.tables.attachments.get? id = some record →
      ∀ claimId claimId' claim claim', record.downloadClaims.get? claimId = some claim →
        record.downloadClaims.get? claimId' = some claim' →
        claim.recipientCodeId = claim'.recipientCodeId → claimId = claimId') ∧
    (∀ before later id requester claimId now,
      events = before ++ .guarded (.complete id requester claimId now) :: later →
      (after config before).admission.isIdle = true →
      ((after config before).tables.completeAttachmentDownloadClaim id requester claimId
        now).2 = .ok () →
      ∀ request t reservation, request.attachmentId = id → request.requesterCodeId = requester →
        s.tables.reserveAttachmentDownloadInner config.policy s.epoch request ≠
          some (t, .ok reservation)) ∧
    (∀ request t reservation,
      s.tables.reserveAttachmentDownloadInner config.policy s.epoch request =
        some (t, .ok reservation) →
      ∃ record, s.tables.attachments.get? request.attachmentId = some record ∧
        record.published = true ∧ reservation.blob = record.blob ∧
        (request.requesterCodeId = record.ownerCodeId ∨
          request.requesterCodeId ∈ record.eligibleRecipientCodeIds)) ∧
    (∀ id requester claimId now, ¬ s.LiveClaim id requester claimId now →
      (s.tables.completeAttachmentDownloadClaim id requester claimId now).2 ≠ .ok () ∧
      ((s.tables.completeAttachmentDownloadClaim id requester claimId now).1 = s.tables ∨
        ∃ record claim, s.tables.attachments.get? id = some record ∧
          record.downloadClaims.get? claimId = some claim ∧ claim.recipientCodeId = requester ∧
          attachmentClaimTtlMs ≤ now - claim.createdAtMs ∧
          (s.tables.completeAttachmentDownloadClaim id requester claimId now).1 =
            s.tables.put id
              { record with downloadClaims := record.downloadClaims.erase claimId })) ∧
    (Along LeavesRecipient (exec config) start events →
      ∀ id record, s.tables.attachments.get? id = some record → record.destructive = true →
        ¬ record.eligibleRecipientCodeIds ⊆ record.completedRecipientCodeIds) := by
  intro s
  refine ⟨fun id record hid => ((inOrder_after config events).2.records id record hid).unique, ?_, ?_,
    ?_, fun halong => (allRemaining_after events halong).records⟩
  · rintro before later id requester claimId now rfl hidle hok request t reservation rfl rfl hreserve
    obtain ⟨record, hid, -, -, howner | ⟨heligible, hopen⟩⟩ :=
      (AttachmentTables.reserve_cases hreserve).2 reservation rfl
    · exact ((closed_after hidle hok).record record hid).notOwner howner
    · have hclosed := (closed_after hidle hok).record record hid
      exact hclosed.completed.elim (hopen hclosed.destructive) fun hnot => hnot heligible
  · intro request t reservation hreserve
    obtain ⟨record, hid, hpub, hblob, hallowed⟩ :=
      (AttachmentTables.reserve_cases hreserve).2 reservation rfl
    exact ⟨record, hid, hpub, hblob, hallowed.imp_right And.left⟩
  · intro id requester claimId now hdead
    rcases AttachmentTables.complete_cases s.tables id requester claimId now with
      ⟨heq, herror⟩ | ⟨record, claim, hid, hclaim, hrequester, ⟨hexpired, heq⟩ | ⟨hlive, -⟩⟩
    · exact ⟨herror, .inl heq⟩
    · rw [heq]
      exact ⟨by simp, .inr ⟨record, claim, hid, hclaim, hrequester, hexpired, rfl⟩⟩
    · exact absurd ⟨record, claim, hid, hclaim, hrequester, hlive⟩ hdead

def sampleConfig : AttachmentConfig where
  format := ⟨fun _ body => !body.isEmpty, fun _ => rfl⟩
  limits := ⟨4096, 4096, 16, 16⟩
  policy := ⟨true, true⟩

def sampleUpload : Upload where
  ownerCodeId := 1
  senderPlatform := .android
  chatId := [7]
  messageId := [8]
  mediaType := .file
  body := [5]
  ttlSec := 3600
  recipients := {2, 3}
  oneTime := some true
  deleteAfterDownload := some true
  expiryNow := 0
  stagedNow := 0

def sampleId : Uuid := Vector.replicate 16 1

def sampleClaimId : Uuid := Vector.replicate 16 2

/-- The first of two recipients downloads the attachment, then the second is removed from the room. -/
def removedAfterDownload : List AttachmentEvent :=
  [.guarded (.commitUpload sampleId sampleUpload), .lookup sampleUpload.bindingKey 1,
    .rebind sampleUpload.recipients, .publishChecked 2, .commit true,
    .guarded (.reserve ⟨sampleId, 2, some .android, true, 3, fun _ => 3, 3, [sampleClaimId]⟩),
    .guarded (.complete sampleId 2 sampleClaimId 4), .guarded (.revoke sampleUpload.chatId 3)]

theorem removed_after_download_stays :
    ∃ record, (after sampleConfig removedAfterDownload).tables.attachments.get? sampleId =
        some record ∧
      record.published = true ∧ record.destructive = true ∧
      record.eligibleRecipientCodeIds = {2} ∧ record.completedRecipientCodeIds = {2} ∧
      ¬ Along LeavesRecipient (exec sampleConfig) start removedAfterDownload := by
  have hrun : ((after sampleConfig removedAfterDownload).tables.attachments.get? sampleId).map
      (fun record => (record.published, record.destructive, record.eligibleRecipientCodeIds,
        record.completedRecipientCodeIds)) = some (true, true, {2}, {2}) := by decide
  obtain ⟨record, hid, heq⟩ := map_eq_some_iff.mp hrun
  simp only [Prod.mk.injEq] at heq
  obtain ⟨hpub, hdestructive, heligible, hcompleted⟩ := heq
  refine ⟨record, hid, hpub, hdestructive, heligible, hcompleted, fun halong => ?_⟩
  refine (allRemaining_after _ halong).records sampleId record hid hdestructive ?_
  rw [heligible, hcompleted]

def fixed (r : AttachmentRecord) :=
  (r.blob, r.bindingKey, r.mediaType, r.senderPlatform, r.oneTime, r.deleteAfterDownload,
    r.expiresAtMs)

/-- A record under an id that was drawn before is the one of that time, with the same content. -/
def Preserves (s s' : AttachmentState) : Prop :=
  s.drawn ⊆ s'.drawn ∧
    ∀ {id record'}, s'.tables.attachments.get? id = some record' → id ∈ s.drawn →
      ∃ record, s.tables.attachments.get? id = some record ∧ fixed record' = fixed record

theorem preserves_exec {config : AttachmentConfig} {s : AttachmentState} (h : s.Sound config)
    (event : AttachmentEvent) : s.Preserves (s.exec config event) := by
  have hmove := @move_exec config s h.balanced h.named event
  refine ⟨hmove.subset_drawn, @Move.forall_records _ _ _ _ _ (fun id record' => id ∈ s.drawn →
    ∃ record, s.tables.attachments.get? id = some record ∧ fixed record' = fixed record)
    h.balanced hmove ?_ ?_ ?_ ?_ ?_⟩
  · intro id record record' hchange hrecord hdrawn
    obtain ⟨first, hfirst, hsame⟩ := hrecord hdrawn
    exact ⟨first, hfirst, .trans (by cases hchange <;> rfl) hsame⟩
  · exact fun _ record _ hid _ => ⟨record, hid, rfl⟩
  · exact fun _ _ _ _ _ record hid _ _ => ⟨record, hid, rfl⟩
  · exact fun _ _ hunused _ _ hdrawn => absurd hdrawn hunused
  · exact fun _ record hid _ => ⟨record, hid, rfl⟩

/-- Whatever happens, an id stands for one upload: a record keeps its bytes, its owner and its
limits, and one that is gone does not come back. -/
theorem attachments_preserved (config : AttachmentConfig) (before later : List AttachmentEvent) :
    (after config before).Preserves (after config (before ++ later)) := by
  induction later using List.reverseRecOn with
  | nil => exact ⟨by simp, fun hid _ => ⟨_, by simpa using hid, rfl⟩⟩
  | append_singleton later event ih =>
    have hlast := preserves_exec (sound_after config (before ++ later)) event
    rw [← List.append_assoc, after_append]
    refine ⟨ih.1.trans hlast.1, fun hid hdrawn => ?_⟩
    obtain ⟨middle, hmiddle, hsame⟩ := hlast.2 hid (ih.1 hdrawn)
    obtain ⟨record, hrecord, hfirst⟩ := ih.2 hmiddle hdrawn
    exact ⟨record, hrecord, hsame.trans hfirst⟩

end AttachmentState
end Abyssal.Relay
