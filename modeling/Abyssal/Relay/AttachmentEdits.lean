import Abyssal.Relay.AttachmentTables

/-! What the functions over the attachment tables do, one record at a time. While the tables are
balanced no branch for a stray binding is taken, and every function changes records in a few ways,
takes records away, or adds one. -/

namespace Abyssal.Relay

open OrdMap Option

def attachmentView : RecordView AttachmentRecord AttachmentBindingKey CodeId where
  key := AttachmentRecord.bindingKey
  owner := AttachmentRecord.ownerCodeId
  size record := record.blob.length

def AttachmentTables.Balanced (t : AttachmentTables) : Prop :=
  attachmentView.Balanced t.attachments t.bindings t.usage

def AttachmentRecord.rolledBack (record : AttachmentRecord) (rollback : StagedAttachmentRollback) :
    AttachmentRecord :=
  { record with
    eligibleRecipientCodeIds := rollback.eligibleRecipientCodeIds
    published := rollback.published
    stagedExpiresAtMs := rollback.stagedExpiresAtMs }

inductive Change (record : AttachmentRecord) : AttachmentRecord → Prop
  | dropClaims (keep : Uuid → AttachmentDownloadClaim → Bool) :
      Change record { record with downloadClaims := record.downloadClaims.filter keep }
  | publish : record.published = false →
      Change record { record with published := true, stagedExpiresAtMs := none }
  | rebind (recipients : Finset CodeId) : record.published = false → recipients ≠ ∅ →
      Change record { record with eligibleRecipientCodeIds := recipients }
  | claim (requester : CodeId) (claimId : Uuid) (now : Nat) : record.published = true →
      record.destructive = true → requester ≠ record.ownerCodeId → requester ∈ record.eligibleRecipientCodeIds →
      requester ∉ record.completedRecipientCodeIds → record.existingClaim requester = none →
      Change record
        { record with downloadClaims := record.downloadClaims.insert claimId ⟨requester, now⟩ }
  | complete (claimId : Uuid) (claim : AttachmentDownloadClaim) :
      record.downloadClaims.get? claimId = some claim →
      ¬ record.eligibleRecipientCodeIds ⊆
        insert claim.recipientCodeId record.completedRecipientCodeIds →
      Change record
        { record with
          downloadClaims := record.downloadClaims.erase claimId
          completedRecipientCodeIds :=
            insert claim.recipientCodeId record.completedRecipientCodeIds }

namespace Change

variable {record record' : AttachmentRecord}

theorem refl (record : AttachmentRecord) : Change record record := by
  have h := @Change.dropClaims record fun _ _ => true
  rwa [filter_eq_self fun _ _ _ => rfl] at h

theorem dropExpiredClaims (record : AttachmentRecord) (now : Nat) :
    Change record (record.dropExpiredClaims now) := .dropClaims _

theorem same (h : Change record record') : attachmentView.Same record record' := by
  cases h <;> exact ⟨rfl, rfl, rfl⟩

end Change

inductive Edits (t : AttachmentTables) : AttachmentTables → Prop
  | refl : Edits t t
  | change {t' : AttachmentTables} {id : Uuid} {record record' : AttachmentRecord} : Edits t t' →
      t'.attachments.get? id = some record → Change record record' → Edits t (t'.put id record')
  | remove {t' : AttachmentTables} {id : Uuid} {record : AttachmentRecord} : Edits t t' →
      t'.attachments.get? id = some record → Edits t (t'.remove id record)

namespace AttachmentTables

variable {t t' : AttachmentTables} {id : Uuid} {record record' : AttachmentRecord}

theorem Balanced.put (h : t.Balanced) (hid : t.attachments.get? id = some record)
    (hsame : attachmentView.Same record record') : (t.put id record').Balanced :=
  RecordView.Balanced.update h hid hsame

theorem Balanced.bound (h : t.Balanced) (hid : t.attachments.get? id = some record) :
    t.bindings.get? record.bindingKey = some id := RecordView.Balanced.get?_index h hid

theorem Balanced.remove (h : t.Balanced) (hid : t.attachments.get? id = some record) :
    (t.remove id record).Balanced := by
  have hbound : removeAttachmentBindingIfMatches t.bindings id record =
      t.bindings.erase record.bindingKey := if_pos (h.bound hid)
  unfold AttachmentTables.remove Balanced
  rw [hbound]
  exact RecordView.Balanced.remove h hid

theorem Balanced.fits (h : t.Balanced) {key : AttachmentBindingKey} (hkey : t.bindings.get? key = some id) :
    ∃ record, t.attachments.get? id = some record ∧ key.matchesRecord record = true := by
  obtain ⟨record, hrecord, heq⟩ := (h.indexed key id).mp hkey
  exact ⟨record, hrecord, AttachmentBindingKey.matchesRecord_iff.mpr heq⟩

end AttachmentTables

namespace Edits

variable {t t' t'' : AttachmentTables}

theorem balanced (h : Edits t t') (ht : t.Balanced) : t'.Balanced := by
  induction h with
  | refl => exact ht
  | change _ hid hchange ih => exact ih.put hid hchange.same
  | remove _ hid ih => exact ih.remove hid

theorem lighter (h : Edits t t') : attachmentView.Lighter t.attachments t'.attachments := by
  induction h with
  | refl => exact .refl _
  | change _ hid hchange ih => exact ih.trans (.update hid hchange.same)
  | remove _ _ ih => exact ih.trans (RecordView.Lighter.erase _ _)

theorem trans (h : Edits t t') (h' : Edits t' t'') : Edits t t'' := by
  induction h' with
  | refl => exact h
  | change _ hid hchange ih => exact ih.change hid hchange
  | remove _ hid ih => exact ih.remove hid

theorem origin (h : Edits t t') {id : Uuid} {record' : AttachmentRecord}
    (hid : t'.attachments.get? id = some record') :
    ∃ record, t.attachments.get? id = some record ∧ Relation.ReflTransGen Change record record' := by
  induction h generalizing record' with
  | refl => exact ⟨record', hid, .refl⟩
  | @change t₁ id₁ old new _ hold hchange ih =>
    rw [AttachmentTables.put, get?_insert] at hid
    split_ifs at hid with heq
    · subst heq
      obtain rfl := some.inj hid
      obtain ⟨record, hrecord, hsteps⟩ := ih hold
      exact ⟨record, hrecord, hsteps.tail hchange⟩
    · exact ih hid
  | remove _ _ ih => exact ih (get?_of_erase hid)

theorem forall_records {P : Uuid → AttachmentRecord → Prop} (h : Edits t t')
    (hchange : ∀ id record record', Change record record' → P id record → P id record')
    (ht : ∀ id record, t.attachments.get? id = some record → P id record) {id : Uuid}
    {record : AttachmentRecord} (hid : t'.attachments.get? id = some record) : P id record := by
  obtain ⟨origin, horigin, hsteps⟩ := h.origin hid
  clear hid
  induction hsteps with
  | refl => exact ht id origin horigin
  | tail _ hstep ih => exact hchange _ _ _ hstep ih

end Edits

namespace AttachmentTables

variable {t : AttachmentTables} {id : Uuid} {key : AttachmentBindingKey} {now : Nat}
  {keep : AttachmentRecord → Option AttachmentRecord}
  {record record' : AttachmentRecord} {request : DownloadRequest} {t' : AttachmentTables}

section

variable (hkeep : ∀ record record', keep record = some record' → Change record record')

include hkeep

theorem edits_retainOne (t : AttachmentTables) (id : Uuid) : Edits t (retainOne keep t id) := by
  unfold retainOne
  split
  · exact .refl
  · next record hid =>
    split
    · next record' hrecord => exact .change .refl hid (hkeep _ _ hrecord)
    · exact .remove .refl hid

theorem edits_retain
    (t : AttachmentTables) (order : VisitOrder Uuid) : Edits t (t.retain order keep) := by
  unfold retain
  generalize order.visit t.attachments.keys = ids
  induction ids generalizing t with
  | nil => exact .refl
  | cons id ids ih => exact (edits_retainOne hkeep t id).trans (ih _)

end

theorem pruned_change (h : record.pruned now = some record') : Change record record' := by
  unfold AttachmentRecord.pruned at h
  dsimp only at h
  split_ifs at h
  · obtain rfl := some.inj h
    exact .dropExpiredClaims ..
  · obtain rfl := some.inj h
    exact .dropExpiredClaims ..

theorem edits_removeChatAttachments (t : AttachmentTables) (order : VisitOrder Uuid) (chatId : Text) :
    Edits t (t.removeChatAttachments order chatId) := by
  refine edits_retain (fun record record' h => ?_) t order
  split_ifs at h
  obtain rfl := some.inj h
  exact .refl _

section

variable (h : t.Balanced)

include h

theorem staleBindings_eq_nil (order : VisitOrder AttachmentBindingKey) :
    t.staleBindings order = [] := by
  refine List.filterMap_eq_nil_iff.mpr fun key _ => ?_
  cases hkey : t.bindings.get? key with
  | none => rfl
  | some id =>
    obtain ⟨record, hrecord, hmatch⟩ := h.fits hkey
    simp [hrecord, hmatch]

/-- Balanced tables have no stray binding, so that pruning is the visit of the records. -/
theorem prune_eq_retain (order : VisitOrder Uuid) (bindingOrder : VisitOrder AttachmentBindingKey) :
    t.pruneExpiredAttachmentsLocked order bindingOrder now =
      t.retain order (AttachmentRecord.pruned now) := by
  have hbalanced := (edits_retain (fun _ _ => pruned_change) t order : Edits t
    (t.retain order (AttachmentRecord.pruned now))).balanced h
  unfold pruneExpiredAttachmentsLocked
  simp only [staleBindings_eq_nil hbalanced, List.foldl_nil]
  rw [filter_eq_self]
  intro key id hkey
  obtain ⟨record, hrecord, hmatch⟩ := hbalanced.fits hkey
  rw [hrecord]
  exact hmatch

theorem edits_prune (order : VisitOrder Uuid) (bindingOrder : VisitOrder AttachmentBindingKey) :
    Edits t (t.pruneExpiredAttachmentsLocked order bindingOrder now) := by
  rw [prune_eq_retain h]
  exact edits_retain (fun _ _ => pruned_change) t order

theorem staged_cases (key : AttachmentBindingKey) (now : Nat) :
    Edits t (t.stagedAttachmentForMessage key now).1 ∧
      ∀ id, (t.stagedAttachmentForMessage key now).2 = .ok (some id) →
        ∃ record, (t.stagedAttachmentForMessage key now).1.attachments.get? id = some record ∧
          record.bindingKey = key ∧ record.published = false := by
  unfold stagedAttachmentForMessage
  cases hkey : t.bindings.get? key with
  | none => exact ⟨.refl, fun id hid => by simp at hid⟩
  | some found =>
    obtain ⟨record, hrecord, hmatch⟩ := h.fits hkey
    have hput : Edits t (t.put found (record.dropExpiredClaims now)) :=
      .change .refl hrecord (.dropExpiredClaims ..)
    have hget : (t.put found (record.dropExpiredClaims now)).attachments.get? found =
        some (record.dropExpiredClaims now) := get?_insert_self ..
    simp only [hrecord, hmatch, not_true_eq_false, if_false]
    split_ifs with hpub hexpired hstale
    · exact ⟨hput.remove hget, fun id hid => by simp at hid⟩
    · exact ⟨hput, fun id hid => by simp at hid⟩
    · exact ⟨hput.remove hget, fun id hid => by simp at hid⟩
    · refine ⟨hput, fun id hid => ?_⟩
      obtain rfl : found = id := by simpa using hid
      exact ⟨_, hget, AttachmentBindingKey.matchesRecord_iff.mp hmatch, by simpa using hpub⟩

theorem edits_publish (hid : ∀ id', t.bindings.get? key = some id' → id' = id)
    (now : Nat) : Edits t (t.publishStagedAttachmentChecked id key now).1 := by
  unfold publishStagedAttachmentChecked
  cases hkey : t.bindings.get? key with
  | none => exact .refl
  | some found =>
    obtain rfl := hid found hkey
    obtain ⟨record, hrecord, hmatch⟩ := h.fits hkey
    simp only [hrecord, hmatch, ne_eq, not_true_eq_false, if_false]
    split_ifs with hpub hlive
    · exact .refl
    · exact .change .refl hrecord (.publish (by simpa using hpub))
    · exact .remove .refl hrecord

end

theorem publish_ok (h : t.publishStagedAttachmentChecked id key now = (t', .ok ())) :
    ∃ record, t.attachments.get? id = some record ∧
      (record.published = true ∧ t' = t ∨
        t' = t.put id { record with published := true, stagedExpiresAtMs := none }) := by
  unfold publishStagedAttachmentChecked at h
  cases hkey : t.bindings.get? key with
  | none => simp [hkey] at h
  | some found =>
    cases hid : t.attachments.get? id with
    | none => simp only [hkey, hid] at h; split_ifs at h <;> simp at h
    | some record =>
      simp only [hkey, hid] at h
      split_ifs at h with hfound hmatch hpub hlive
      · simp at h
      · exact ⟨record, rfl, .inl ⟨hpub, (Prod.mk.inj h).1.symm⟩⟩
      · exact ⟨record, rfl, .inr (Prod.mk.inj h).1.symm⟩
      · simp at h
      · simp at h

theorem publish_error {e : String} (h : t.Balanced)
    (hid : ∀ id', t.bindings.get? key = some id' → id' = id)
    (herror : t.publishStagedAttachmentChecked id key now = (t', .error e))
    (hrecord : t'.attachments.get? id = some record) : t.attachments.get? id = some record := by
  unfold publishStagedAttachmentChecked at herror
  cases hkey : t.bindings.get? key with
  | none =>
    simp only [hkey, Prod.mk.injEq] at herror
    exact herror.1 ▸ hrecord
  | some found =>
    obtain rfl := hid found hkey
    obtain ⟨old, hold, hmatch⟩ := h.fits hkey
    simp only [hkey, hold, hmatch, ne_eq, not_true_eq_false, if_false] at herror
    split_ifs at herror
    · simp at herror
    · simp at herror
    · obtain ⟨rfl, -⟩ := Prod.mk.inj herror
      exact get?_of_erase hrecord

variable (t id) in
theorem rebind_cases (recipients : Finset CodeId) :
    Edits t (t.rebindStagedAttachmentRecipients id recipients).1 ∧
      ∀ rollback, (t.rebindStagedAttachmentRecipients id recipients).2 = .ok rollback →
        ∃ record record', t.attachments.get? id = some record ∧ record.published = false ∧
          (t.rebindStagedAttachmentRecipients id recipients).1.attachments.get? id = some record' ∧
          record'.published = false ∧ record'.destructive = record.destructive ∧
          rollback = ⟨id, record.ownerCodeId, record.chatId, record.messageId,
            record.eligibleRecipientCodeIds, record.published, record.stagedExpiresAtMs⟩ := by
  unfold rebindStagedAttachmentRecipients
  cases hid : t.attachments.get? id with
  | none => exact ⟨.refl, fun rollback h => by simp at h⟩
  | some record =>
    dsimp only
    split_ifs with hpub hempty hdestructive
    · exact ⟨.refl, fun rollback h => by simp at h⟩
    · exact ⟨.refl, fun rollback h => by simp at h⟩
    · have hpub' : record.published = false := by simpa using hpub
      have hne : recipients ≠ ∅ := by simpa [hdestructive] using hempty
      refine ⟨.change .refl hid (.rebind recipients hpub' hne), fun rollback h => ?_⟩
      exact ⟨record, _, rfl, hpub', get?_insert_self .., hpub', rfl, by simpa using h.symm⟩
    · have hpub' : record.published = false := by simpa using hpub
      exact ⟨.refl, fun rollback h =>
        ⟨record, record, rfl, hpub', hid, hpub', rfl, by simpa using h.symm⟩⟩

theorem rollback_cases (h : t.Balanced) (rollback : StagedAttachmentRollback) :
    t.rollbackStagedAttachment rollback = t ∨
      ∃ record, t.attachments.get? rollback.attachmentId = some record ∧
        t.rollbackStagedAttachment rollback =
          t.put rollback.attachmentId (record.rolledBack rollback) := by
  unfold rollbackStagedAttachment
  cases hid : t.attachments.get? rollback.attachmentId with
  | none => exact .inl rfl
  | some record =>
    dsimp only
    split_ifs with hmatch
    · refine .inr ⟨record, rfl, ?_⟩
      -- the binding is there already
      have hbound := h.bound hid
      rw [AttachmentBindingKey.matchesRecord_iff.mp hmatch] at hbound
      rw [insert_of_get? hbound]
      rfl
    · exact .inl rfl

theorem Balanced.rollback (h : t.Balanced) (rollback : StagedAttachmentRollback) :
    (t.rollbackStagedAttachment rollback).Balanced := by
  rcases rollback_cases h rollback with heq | ⟨record, hid, heq⟩
  · rwa [heq]
  · rw [heq]
    exact h.put hid ⟨rfl, rfl, rfl⟩

theorem same_revoke (roomId : Text) (removed : CodeId) (_ : Uuid) (record : AttachmentRecord) :
    attachmentView.Same record
      (if record.chatId = roomId then record.revoke removed else record) := by
  split_ifs
  · exact ⟨rfl, rfl, rfl⟩
  · exact ⟨rfl, rfl, rfl⟩

theorem Balanced.revoke (h : t.Balanced) (roomId : Text) (removed : CodeId) :
    (t.revokeMlsAttachmentAccess roomId removed).Balanced :=
  RecordView.Balanced.mapValues h (same_revoke roomId removed)

theorem edits_put (hid : t.attachments.get? id = some record)
    (hsteps : Relation.ReflTransGen Change record record') : Edits t (t.put id record') := by
  induction hsteps with
  | refl =>
    rw [put, insert_of_get? hid]
    exact .refl
  | @tail mid last _ hchange ih =>
    have hlast : Edits t ((t.put id mid).put id last) :=
      ih.change (get?_insert_self ..) hchange
    rwa [put, put, insert_insert_self] at hlast

variable (record request) in
theorem forRequest_fields :
    Change record (record.forRequest request) ∧ (record.forRequest request).blob = record.blob ∧
      (record.forRequest request).published = record.published ∧
      (record.forRequest request).destructive = record.destructive ∧
      (record.forRequest request).ownerCodeId = record.ownerCodeId ∧
      (record.forRequest request).eligibleRecipientCodeIds = record.eligibleRecipientCodeIds ∧
      (record.forRequest request).completedRecipientCodeIds = record.completedRecipientCodeIds := by
  unfold AttachmentRecord.forRequest
  split_ifs
  · exact ⟨.dropClaims _, rfl, rfl, rfl, rfl, rfl, rfl⟩
  · exact ⟨.refl _, rfl, rfl, rfl, rfl, rfl, rfl⟩

theorem claim_cases {result : Except StatusCode Uuid} (hpub : record.published = true)
    (hdestructive : record.destructive = true)
    (howner : request.requesterCodeId ≠ record.ownerCodeId)
    (heligible : request.requesterCodeId ∈ record.eligibleRecipientCodeIds)
    (h : record.claim request = some (record', result)) :
    Relation.ReflTransGen Change record record' ∧ record'.blob = record.blob ∧
      ∀ claimId, result = .ok claimId →
        request.requesterCodeId ∉ record.completedRecipientCodeIds := by
  unfold AttachmentRecord.claim at h
  obtain ⟨hchange, hblob, hmidPub, hmidDestructive, hmidOwner, hmidEligible, hmidCompleted⟩ :=
    forRequest_fields record request
  generalize record.forRequest request = mid at *
  dsimp only at h
  by_cases hcompleted : request.requesterCodeId ∈ mid.completedRecipientCodeIds
  · rw [if_pos hcompleted] at h
    obtain ⟨rfl, rfl⟩ := Prod.mk.inj (some.inj h)
    exact ⟨.single hchange, hblob, fun claimId hok => by cases hok⟩
  · rw [if_neg hcompleted] at h
    rw [hmidCompleted] at hcompleted
    split at h
    · split_ifs at h <;> obtain ⟨rfl, rfl⟩ := Prod.mk.inj (some.inj h) <;>
        exact ⟨.single hchange, hblob, fun _ _ => hcompleted⟩
    · next hnone =>
      obtain ⟨⟨claims, claimId⟩, hinsert, heq⟩ := map_eq_some_iff.mp h
      obtain ⟨rfl, rfl⟩ := Prod.mk.inj heq
      obtain ⟨fresh, -, hfresh⟩ := map_eq_some_iff.mp hinsert
      obtain ⟨rfl, rfl⟩ := Prod.mk.inj hfresh
      have hsecond := @Change.claim mid request.requesterCodeId fresh request.insertNow
        (hmidPub.trans hpub) (hmidDestructive.trans hdestructive) (hmidOwner ▸ howner) (hmidEligible ▸ heligible)
        (hmidCompleted ▸ hcompleted) hnone
      exact ⟨(Relation.ReflTransGen.single hchange).tail hsecond, hblob, fun _ _ => hcompleted⟩

theorem eligible_of_not_forbids {policy : InteropPolicy}
    (h : ¬ record.forbids policy request = true) :
    request.requesterCodeId ∈ record.eligibleRecipientCodeIds := by
  unfold AttachmentRecord.forbids at h
  split at h
  · exact absurd rfl h
  · simp only [Bool.or_eq_true, decide_eq_true_eq, not_or, not_not] at h
    exact h.1

theorem reserve_cases {policy : InteropPolicy} {epoch : Nat}
    {result : Except StatusCode AttachmentDownloadReservation}
    (h : t.reserveAttachmentDownloadInner policy epoch request = some (t', result)) :
    Edits t t' ∧ ∀ reservation, result = .ok reservation →
      ∃ record, t.attachments.get? request.attachmentId = some record ∧
        record.published = true ∧ reservation.blob = record.blob ∧
        (request.requesterCodeId = record.ownerCodeId ∨
          request.requesterCodeId ∈ record.eligibleRecipientCodeIds ∧
            (record.destructive = true →
              request.requesterCodeId ∉ record.completedRecipientCodeIds)) := by
  unfold reserveAttachmentDownloadInner at h
  dsimp only at h
  cases hid : t.attachments.get? request.attachmentId with
  | none =>
    simp only [hid, some.injEq, Prod.mk.injEq] at h
    obtain ⟨rfl, rfl⟩ := h
    exact ⟨.refl, fun _ hok => by cases hok⟩
  | some record =>
    simp only [hid] at h
    split_ifs at h with hpub hexpired hclaims hforbidden hplain
    · obtain ⟨rfl, rfl⟩ := Prod.mk.inj (some.inj h)
      exact ⟨.refl, fun _ hok => by cases hok⟩
    · obtain ⟨rfl, rfl⟩ := Prod.mk.inj (some.inj h)
      exact ⟨.refl, fun _ hok => by cases hok⟩
    · obtain ⟨rfl, rfl⟩ := Prod.mk.inj (some.inj h)
      exact ⟨.remove .refl hid, fun _ hok => by cases hok⟩
    · obtain ⟨rfl, rfl⟩ := Prod.mk.inj (some.inj h)
      exact ⟨.refl, fun _ hok => by cases hok⟩
    · have hpub' : record.published = true := by simpa using hpub
      obtain ⟨rfl, rfl⟩ := Prod.mk.inj (some.inj h)
      refine ⟨.refl, fun reservation hok => ⟨record, rfl, hpub', ?_, ?_⟩⟩
      · obtain rfl := Except.ok.inj hok
        rfl
      · by_cases howner : request.requesterCodeId = record.ownerCodeId
        · exact .inl howner
        · have hnot : ¬ record.forbids policy request = true := fun hf => hforbidden ⟨howner, hf⟩
          have hdestructive : ¬ record.destructive = true := by
            rcases hplain with hplain | hplain
            · exact hplain
            · exact absurd hplain howner
          exact .inr ⟨eligible_of_not_forbids hnot, fun hd => absurd hd hdestructive⟩
    · have hpub' : record.published = true := by simpa using hpub
      have hdestructive : record.destructive = true := by
        by_contra hd
        exact hplain (.inl hd)
      have howner : request.requesterCodeId ≠ record.ownerCodeId := fun ho => hplain (.inr ho)
      have heligible := eligible_of_not_forbids fun hf => hforbidden ⟨howner, hf⟩
      obtain ⟨⟨claimed, result'⟩, hclaim, heq⟩ := map_eq_some_iff.mp h
      obtain ⟨rfl, rfl⟩ := Prod.mk.inj heq
      obtain ⟨hsteps, hblob, hopen⟩ := claim_cases hpub' hdestructive howner heligible hclaim
      refine ⟨edits_put hid hsteps, fun reservation hok => ?_⟩
      cases result' with
      | error status => cases hok
      | ok claimId =>
        obtain rfl := Except.ok.inj hok
        exact ⟨record, rfl, hpub', hblob, .inr ⟨heligible, fun _ => hopen claimId rfl⟩⟩

variable (t id) in
theorem complete_cases (requester : CodeId) (claimId : Uuid) (now : Nat) :
    -- It is refused.
    (t.completeAttachmentDownloadClaim id requester claimId now).1 = t ∧
        (t.completeAttachmentDownloadClaim id requester claimId now).2 ≠ .ok () ∨
      ∃ record claim, t.attachments.get? id = some record ∧
        record.downloadClaims.get? claimId = some claim ∧ claim.recipientCodeId = requester ∧
        -- The claim has expired and goes.
        (attachmentClaimTtlMs ≤ now - claim.createdAtMs ∧
            t.completeAttachmentDownloadClaim id requester claimId now =
              (t.put id { record with downloadClaims := record.downloadClaims.erase claimId },
                .error .notFound) ∨
          -- The recipient has completed; the record goes with its last recipient.
          now - claim.createdAtMs < attachmentClaimTtlMs ∧
            t.completeAttachmentDownloadClaim id requester claimId now =
              (if record.eligibleRecipientCodeIds ⊆
                  insert requester record.completedRecipientCodeIds then t.remove id record
                else
                  t.put id { record with
                    downloadClaims := record.downloadClaims.erase claimId
                    completedRecipientCodeIds := insert requester record.completedRecipientCodeIds },
                .ok ())) := by
  unfold completeAttachmentDownloadClaim
  cases hid : t.attachments.get? id with
  | none => exact .inl ⟨rfl, by simp⟩
  | some record =>
    cases hclaim : record.downloadClaims.get? claimId with
    | none => exact .inl ⟨by simp [hclaim], by simp [hclaim]⟩
    | some claim =>
      simp only [hclaim]
      by_cases hrequester : claim.recipientCodeId = requester
      · refine .inr ⟨record, claim, rfl, hclaim, hrequester, ?_⟩
        rw [if_neg (not_not.mpr hrequester)]
        by_cases hexpired : attachmentClaimTtlMs ≤ now - claim.createdAtMs
        · exact .inl ⟨hexpired, if_pos hexpired⟩
        · rw [if_neg hexpired]
          refine .inr ⟨not_le.mp hexpired, ?_⟩
          split_ifs <;> rfl
      · rw [if_pos hrequester]
        exact .inl ⟨rfl, by simp⟩

variable (t id) in
theorem edits_complete (requester : CodeId) (claimId : Uuid) (now : Nat)
    : Edits t (t.completeAttachmentDownloadClaim id requester claimId now).1 := by
  rcases complete_cases t id requester claimId now with
    ⟨heq, -⟩ | ⟨record, claim, hid, hclaim, rfl, ⟨-, heq⟩ | ⟨-, heq⟩⟩
  · rw [heq]
    exact .refl
  · rw [heq]
    exact .change .refl hid (.dropClaims _)
  · rw [heq]
    dsimp only
    split_ifs with hall
    · exact .remove .refl hid
    · exact .change .refl hid (.complete claimId claim hclaim hall)

variable (t id) in
theorem edits_release (requester : CodeId) (claimId : Uuid) :
    Edits t (t.releaseAttachmentDownloadClaim id requester claimId).1 := by
  unfold releaseAttachmentDownloadClaim
  cases hid : t.attachments.get? id with
  | none => exact .refl
  | some record =>
    dsimp only
    split
    · exact .refl
    · split_ifs
      · exact .refl
      · exact .change .refl hid (.dropClaims _)

theorem release_origin {requester : CodeId} {claimId id' : Uuid}
    (h : (t.releaseAttachmentDownloadClaim id requester claimId).1.attachments.get? id' =
      some record') :
    ∃ record keep, t.attachments.get? id' = some record ∧
      record' = { record with downloadClaims := record.downloadClaims.filter keep } := by
  have hsame : ∀ record : AttachmentRecord, record =
      { record with downloadClaims := record.downloadClaims.filter fun _ _ => true } := fun record => by
    rw [filter_eq_self fun _ _ _ => rfl]
  unfold releaseAttachmentDownloadClaim at h
  cases hid : t.attachments.get? id with
  | none =>
    rw [hid] at h
    exact ⟨record', _, h, hsame record'⟩
  | some record =>
    simp only [hid] at h
    split at h
    · exact ⟨record', _, h, hsame record'⟩
    · split_ifs at h
      · exact ⟨record', _, h, hsame record'⟩
      · rw [put, get?_insert] at h
        split_ifs at h with heq
        · obtain rfl := some.inj h
          exact ⟨record, _, heq ▸ hid, rfl⟩
        · exact ⟨record', _, h, hsame record'⟩

variable (t id) in
theorem edits_delete (ownerCodeId : CodeId) :
    Edits t (t.deleteOwnedAttachment id ownerCodeId).1 := by
  unfold deleteOwnedAttachment
  cases hid : t.attachments.get? id with
  | none => exact .refl
  | some record =>
    dsimp only
    split_ifs
    · exact .refl
    · exact .remove .refl hid

structure Admitted (t : AttachmentTables) (limits : AttachmentLimits) (record : AttachmentRecord) :
    Prop where
  body : 0 < record.blob.length
  recipients : record.destructive = true → record.eligibleRecipientCodeIds ≠ ∅
  bytes : currentAttachmentBytes t.attachments + record.blob.length ≤ limits.ramLimitBytes
  accountBytes : (t.usage.get? record.ownerCodeId).getD 0 + record.blob.length ≤
    limits.accountLimitBytes
  accountBytes_word : (t.usage.get? record.ownerCodeId).getD 0 + record.blob.length ≤ wordMax
  records : t.attachments.size < limits.recordLimit
  accountRecords : currentAttachmentRecordsForOwner t.attachments record.ownerCodeId <
    limits.accountRecordLimit
  unbound : t.bindings.get? record.bindingKey = none

theorem stage_cases (h : t.Balanced) (format : BlobFormat) (limits : AttachmentLimits) (id : Uuid)
    (record : AttachmentRecord) :
    (t.stage format limits id record).1 = t ∨
      t.Admitted limits record ∧
        (t.stage format limits id record).1 =
          { bindings := t.bindings.insert record.bindingKey id
            attachments := t.attachments.insert id record
            usage := t.usage.insert record.ownerCodeId
              ((t.usage.get? record.ownerCodeId).getD 0 + record.blob.length) } := by
  unfold stage
  dsimp only
  split_ifs with hbody hrecipients hbytes hrecords hconflict
  · exact .inl rfl
  · exact .inl rfl
  · have hunbound : t.bindings.get? record.bindingKey = none := by
      cases hbound : t.bindings.get? record.bindingKey with
      | none => rfl
      | some found =>
        obtain ⟨other, hother, hmatch⟩ := h.fits hbound
        exact absurd (by simp [hbound, hother, hmatch]) hconflict
    have hcapacity : attachmentCapacityAllows (currentAttachmentBytes t.attachments)
        ((t.usage.get? record.ownerCodeId).getD 0) record.blob.length limits.ramLimitBytes
        limits.accountLimitBytes = true := hbytes
    obtain ⟨htotal, haccount⟩ := (Bool.and_eq_true _ _).mp hcapacity
    obtain ⟨total, hadd, hle⟩ := any_eq_true _ _ |>.mp htotal
    obtain ⟨account, hadd', hle'⟩ := any_eq_true _ _ |>.mp haccount
    obtain ⟨-, rfl⟩ := checkedAdd_eq_some.mp hadd
    obtain ⟨hword, rfl⟩ := checkedAdd_eq_some.mp hadd'
    obtain ⟨hsize, hown⟩ := (Bool.and_eq_true _ _).mp hrecords
    refine .inr ⟨⟨?_, fun hd hempty => ?_, of_decide_eq_true hle, of_decide_eq_true hle', hword,
      of_decide_eq_true hsize, of_decide_eq_true hown, hunbound⟩, ?_⟩
    · cases hblob : record.blob with
      | nil =>
        rw [hblob, format.nonempty] at hbody
        cases hbody
      | cons byte bytes => exact Nat.succ_pos _
    · exact hrecipients (by simp [hd, hempty])
    · rw [erase_of_get?_none hunbound, saturatingAdd, min_eq_left hword]
  · exact .inl rfl
  · exact .inl rfl
  · exact .inl rfl

end AttachmentTables
end Abyssal.Relay
