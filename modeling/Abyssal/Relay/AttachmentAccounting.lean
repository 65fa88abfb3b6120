import Abyssal.Relay.AttachmentRuns

/-! The attachment tables agree with each other in every run: each account is charged for exactly the
records it owns, records and bindings correspond one to one, and the limits hold. -/

namespace Abyssal.Relay

open OrdMap

variable {id : Uuid} {record : AttachmentRecord}

namespace AttachmentTables

def bytesOf (t : AttachmentTables) (code : CodeId) : Nat :=
  t.attachments.sum fun _ record => if record.ownerCodeId = code then record.blob.length else 0

structure Within (limits : AttachmentLimits) (t : AttachmentTables) : Prop where
  records : t.attachments.size ≤ limits.recordLimit
  accountRecords : ∀ code,
    currentAttachmentRecordsForOwner t.attachments code ≤ limits.accountRecordLimit
  bytes : currentAttachmentBytes t.attachments ≤ limits.ramLimitBytes
  accountBytes : ∀ code, t.bytesOf code ≤ limits.accountLimitBytes

variable {limits : AttachmentLimits} {t t' : AttachmentTables}

theorem Within.lighter (h : t.Within limits)
    (hlighter : attachmentView.Lighter t.attachments t'.attachments) : t'.Within limits where
  records := by
    have hcount := hlighter fun _ _ => 1
    rw [← size_eq_sum, ← size_eq_sum] at hcount
    exact hcount.trans h.records
  accountRecords code := (hlighter fun owner _ => if owner = code then 1 else 0).trans
    (h.accountRecords code)
  bytes := (hlighter fun _ size => size).trans h.bytes
  accountBytes code := (hlighter fun owner size => if owner = code then size else 0).trans
    (h.accountBytes code)

theorem Balanced.getD_usage (h : t.Balanced) (code : CodeId) :
    (t.usage.get? code).getD 0 = t.bytesOf code := by
  rw [h.charged code, entryOf]
  split_ifs with hzero
  · exact hzero.symm
  · rfl

theorem Within.stage (h : t.Within limits) (hbalanced : t.Balanced)
    (hid : t.attachments.get? id = none) (hadmitted : t.Admitted limits record)
    {bindings : OrdMap AttachmentBindingKey Uuid} {usage : OrdMap CodeId Nat} :
    Within limits ⟨bindings, t.attachments.insert id record, usage⟩ where
  records := by
    have := hadmitted.records
    rw [size_insert_new hid]
    omega
  accountRecords code := by
    rw [currentAttachmentRecordsForOwner, sum_insert_new hid]
    split_ifs with howner
    · subst howner
      exact hadmitted.accountRecords
    · exact h.accountRecords code
  bytes := by
    rw [currentAttachmentBytes, sum_insert_new hid]
    exact hadmitted.bytes
  accountBytes code := by
    rw [bytesOf, sum_insert_new hid]
    split_ifs with howner
    · subst howner
      have haccount := hadmitted.accountBytes
      rw [hbalanced.getD_usage] at haccount
      exact haccount
    · exact h.accountBytes code

theorem bindings_release (t : AttachmentTables) (id : Uuid) (requester : CodeId) (claimId : Uuid) :
    (t.releaseAttachmentDownloadClaim id requester claimId).1.bindings = t.bindings := by
  unfold releaseAttachmentDownloadClaim
  split
  · rfl
  · split
    · rfl
    · split_ifs <;> rfl

theorem bindings_rebind (t : AttachmentTables) (id : Uuid) (recipients : Finset CodeId) :
    (t.rebindStagedAttachmentRecipients id recipients).1.bindings = t.bindings := by
  unfold rebindStagedAttachmentRecipients
  split
  · rfl
  · dsimp only
    split_ifs <;> rfl

end AttachmentTables

namespace AttachmentState

variable {config : AttachmentConfig} {s : AttachmentState} {event : AttachmentEvent}
  {t : AttachmentTables} {drawn : Finset Uuid}

structure Sound (config : AttachmentConfig) (s : AttachmentState) : Prop where
  balanced : s.tables.Balanced
  within : s.tables.Within config.limits
  drawn : ∀ id record, s.tables.attachments.get? id = some record → id ∈ s.drawn
  named : s.Named

theorem Sound.unused (h : s.Sound config) (hid : id ∉ s.drawn) :
    s.tables.attachments.get? id = none := by
  cases hrecord : s.tables.attachments.get? id with
  | none => rfl
  | some record => exact absurd (h.drawn id record hrecord) hid

theorem Move.balanced (h : s.Sound config) (hmove : Move config.limits s event t drawn) : t.Balanced := by
  cases hmove with
  | edits hedits => exact hedits.balanced h.balanced
  | rollback rollback hedits _ _ => exact (hedits.balanced h.balanced).rollback rollback
  | revoke roomId removed _ _ => exact h.balanced.revoke roomId removed
  | refuse id => exact h.balanced
  | stage id record hid _ hadmitted =>
    exact RecordView.Balanced.add h.balanced (h.unused hid) hadmitted.unbound hadmitted.body
  | wipe => exact RecordView.Balanced.empty

theorem Move.within (h : s.Sound config) (hmove : Move config.limits s event t drawn) :
    t.Within config.limits := by
  cases hmove with
  | edits hedits => exact h.within.lighter hedits.lighter
  | @rollback t' rollback hedits _ _ =>
    have hwithin := h.within.lighter hedits.lighter
    rcases AttachmentTables.rollback_cases (hedits.balanced h.balanced) rollback with
      heq | ⟨record, hid, heq⟩
    · rwa [heq]
    · rw [heq]
      exact hwithin.lighter (RecordView.Lighter.update hid ⟨rfl, rfl, rfl⟩)
  | revoke roomId removed _ _ =>
    exact h.within.lighter (RecordView.Lighter.mapValues (AttachmentTables.same_revoke roomId removed))
  | refuse id => exact h.within
  | stage id record hid _ hadmitted => exact h.within.stage h.balanced (h.unused hid) hadmitted
  | wipe =>
    exact ⟨Nat.zero_le _, fun _ => Nat.zero_le _, Nat.zero_le _, fun _ => Nat.zero_le _⟩

theorem Move.mem_drawn (h : s.Sound config) (hmove : Move config.limits s event t drawn)
    (hid : t.attachments.get? id = some record) : id ∈ drawn := by
  cases hmove with
  | edits hedits =>
    obtain ⟨origin, horigin, -⟩ := hedits.origin hid
    exact h.drawn id origin horigin
  | @rollback t' rollback hedits _ _ =>
    have hbefore : ∃ before, t'.attachments.get? id = some before := by
      rcases AttachmentTables.rollback_cases (hedits.balanced h.balanced) rollback with
        heq | ⟨before, hbefore, heq⟩
      · exact ⟨record, heq ▸ hid⟩
      · rw [heq, AttachmentTables.put, get?_insert] at hid
        split_ifs at hid with hsame
        · exact ⟨before, hsame ▸ hbefore⟩
        · exact ⟨record, hid⟩
    obtain ⟨before, hbefore⟩ := hbefore
    obtain ⟨origin, horigin, -⟩ := hedits.origin hbefore
    exact h.drawn id origin horigin
  | revoke roomId removed _ _ =>
    rw [AttachmentTables.revokeMlsAttachmentAccess, get?_mapValues] at hid
    obtain ⟨origin, horigin, -⟩ := Option.map_eq_some_iff.mp hid
    exact h.drawn id origin horigin
  | refuse id' => exact Finset.mem_insert_of_mem (h.drawn id record hid)
  | stage id' record' _ _ _ =>
    rw [get?_insert] at hid
    split_ifs at hid with hsame
    · exact hsame ▸ Finset.mem_insert_self ..
    · exact Finset.mem_insert_of_mem (h.drawn id record hid)
  | wipe => cases hid

theorem admission_execGuarded (event : GuardedEvent) :
    (s.execGuarded config event).admission = s.admission := by
  cases event with
  | uploadAttachment id upload | commitUpload id upload =>
    simp only [execGuarded, draw]
    split_ifs <;> rfl
  | reserve request =>
    simp only [execGuarded]
    split <;> rfl
  | _ => rfl

theorem named_of_isIdle (h : s.admission.isIdle = true) : s.Named := by
  unfold Named
  split
  · next heq => simp [heq, Admission.isIdle] at h
  · next heq => simp [heq, Admission.isIdle] at h
  · trivial

theorem Sound.named_exec (h : s.Sound config) (event : AttachmentEvent) :
    (s.exec config event).Named := by
  cases event with
  | guarded event =>
    simp only [exec]
    split_ifs with hidle
    · exact named_of_isIdle (by rw [admission_execGuarded]; exact hidle)
    · exact h.named
  | release id requester claimId =>
    have hnamed := h.named
    simp only [Named, exec, AttachmentTables.bindings_release] at hnamed ⊢
    exact hnamed
  | lookup key now =>
    simp only [exec]
    split_ifs with hidle
    · obtain ⟨hedits, hfound⟩ := AttachmentTables.staged_cases h.balanced key now
      split
      · next tables id heq =>
        rw [heq] at hedits hfound
        obtain ⟨record, hrecord, hkey, -⟩ := hfound id rfl
        intro id' hid'
        have hbound := (hedits.balanced h.balanced).bound hrecord
        rw [hkey] at hbound
        exact Option.some.inj (hid'.symm.trans hbound)
      · exact named_of_isIdle hidle
    · exact h.named
  | refuse | publish now | commit accepted =>
    simp only [exec]
    split
    · trivial
    · exact h.named
  | rebind recipients =>
    simp only [exec]
    split
    · next key id hadmission =>
      have hnamed := h.named
      simp only [Named, hadmission] at hnamed
      have hbindings := AttachmentTables.bindings_rebind s.tables id recipients
      have hrollback := (AttachmentTables.rebind_cases s.tables id recipients).2
      split
      · next tables rollback heq =>
        rw [heq] at hbindings hrollback
        obtain ⟨record, -, -, -, -, -, -, rfl⟩ := hrollback rollback rfl
        intro id' hid'
        exact hnamed id' (hbindings ▸ hid')
      · trivial
    · exact h.named
  | publishChecked now =>
    simp only [exec]
    split
    · split <;> trivial
    · exact h.named

theorem Sound.exec (h : s.Sound config) (event : AttachmentEvent) :
    (s.exec config event).Sound config := by
  have hmove : Move config.limits s event _ _ := move_exec h.balanced h.named event
  exact ⟨hmove.balanced h, hmove.within h, fun _ _ => hmove.mem_drawn h, h.named_exec event⟩

theorem sound_start : start.Sound config where
  balanced := RecordView.Balanced.empty
  within := ⟨Nat.zero_le _, fun _ => Nat.zero_le _, Nat.zero_le _, fun _ => Nat.zero_le _⟩
  drawn _ _ h := by cases h
  named := trivial

theorem sound_after (config : AttachmentConfig) (events : List AttachmentEvent) :
    (after config events).Sound config :=
  run_invariant (fun _ event h => h.exec event) sound_start events

/-- In every state that a run reaches, an account with records is charged the sum of their sizes and
one without has no entry, each record has exactly one binding and each binding leads to a record, and
the limits hold. -/
theorem attachment_accounting (config : AttachmentConfig) (events : List AttachmentEvent) :
    let t := (after config events).tables
    (∀ id record, t.attachments.get? id = some record →
      t.usage.get? record.ownerCodeId = some (t.bytesOf record.ownerCodeId)) ∧
    (∀ code, (∀ id record, t.attachments.get? id = some record → record.ownerCodeId ≠ code) →
      t.usage.get? code = none) ∧
    (∀ id record, t.attachments.get? id = some record →
      ∃! key, t.bindings.get? key = some id) ∧
    (∀ key id, t.bindings.get? key = some id →
      ∃ record, t.attachments.get? id = some record ∧ key.matchesRecord record = true) ∧
    t.attachments.size ≤ config.limits.recordLimit ∧
    (∀ code, currentAttachmentRecordsForOwner t.attachments code ≤
      config.limits.accountRecordLimit) ∧
    currentAttachmentBytes t.attachments ≤ config.limits.ramLimitBytes ∧
    ∀ code, t.bytesOf code ≤ config.limits.accountLimitBytes := by
  intro t
  have hsound := sound_after config events
  have hbalanced : t.Balanced := hsound.balanced
  have hwithin : t.Within config.limits := hsound.within
  refine ⟨fun id record hid => RecordView.Balanced.get?_usage hbalanced hid, fun code hnone => ?_,
    fun id record hid => ?_, fun key id hkey => hbalanced.fits hkey, hwithin.records,
    hwithin.accountRecords, hwithin.bytes, hwithin.accountBytes⟩
  · have hzero : t.bytesOf code = 0 := sum_eq_zero fun id record hid => if_neg (hnone id record hid)
    rw [hbalanced.charged code]
    exact if_pos hzero
  · refine ⟨record.bindingKey, hbalanced.bound hid, fun key hkey => ?_⟩
    obtain ⟨record', hid', hmatch⟩ := hbalanced.fits hkey
    obtain rfl := Option.some.inj (hid.symm.trans hid')
    exact (AttachmentBindingKey.matchesRecord_iff.mp hmatch).symm

end AttachmentState
end Abyssal.Relay
