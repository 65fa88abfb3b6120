import Abyssal.Rooms.Authority
import Abyssal.Rooms.MembershipPlans

/-! What a successful plan of an admission, a commit, a rollback, a stored snapshot and a
new room has checked. -/

namespace Abyssal.Rooms
namespace RoomAuthority

open OrdMap List

variable {s : RoomAuthority} {messageId : Text} {room : RelayRoom}

structure AdmissionBounds (a : AdmitArgs) : Prop where
  messageId : a.messageId.length ≤ maxRoomIdBytes
  digest : a.membershipDigest.length = membershipDigestBytes
  ciphertext : a.ciphertext.length ≤ maxApplicationCiphertextBytes
  data : a.authenticatedData.length ≤ maxAuthenticatedDataBytes
  state : a.stateEnvelope.length ≤ maxStateBytes

theorem validateAdmission_ok {a : AdmitArgs} {u : Unit} (h : validateAdmission a = .ok u) :
    AdmissionBounds a := by
  obtain ⟨_, hmessage, h⟩ := bind_eq_ok.mp h
  obtain ⟨_, -, h⟩ := bind_eq_ok.mp h
  obtain ⟨hdigest, h⟩ := rejectIf_bind.mp h
  obtain ⟨hciphertext, h⟩ := rejectIf_bind.mp h
  obtain ⟨hdata, h⟩ := rejectIf_bind.mp h
  have hstate := rejectIf_eq_ok.mp h
  push Not at hciphertext hdata hstate
  exact ⟨validateRequestId_length hmessage, not_not.mp hdigest,
    hciphertext.2, hdata.2, hstate.2⟩

structure AdmitBudget (s : RoomAuthority) (plan : AdmitPlan) : Prop where
  roomPendingBytes : plan.roomPendingBytes ≤ maxPendingBytes
  pendingCount : plan.globalPendingCount ≤ maxGlobalPendingApplications
  pendingBytes : plan.globalPendingBytes ≤ maxGlobalPendingBytes
  roomSnapshotBytes : plan.roomSnapshotBytes ≤ maxStateBytes
  snapshotCount : plan.globalSnapshotCount ≤ maxGlobalStateSnapshots
  snapshotBytes : plan.globalSnapshotBytes ≤ maxGlobalStateBytes
  deliveryCount : plan.globalDeliveryCount ≤ s.maxDeliveryCount
  deliveryBytes : plan.globalDeliveryBytes ≤ s.maxDeliveryBytes

structure Admitted (s : RoomAuthority) (now : Nat) (room : RelayRoom) (a : AdmitArgs)
    (plan : AdmitPlan) : Prop where
  epoch : room.epoch = a.epoch
  digest : room.membershipDigest = a.membershipDigest
  queue : room.queueOf a.senderCodeId = []
  idle : ∀ m p, room.pendingApplications.get? m = some p → p.senderCodeId ≠ a.senderCodeId
  noTransition : room.pendingTransition = none
  revision : room.memberRevisions.get? a.senderCodeId = some plan.pending.previousSenderRevision
  senderRevision : a.senderRevision = plan.pending.previousSenderRevision + 1
  revisionWord : a.senderRevision ≤ wordMax
  sender : ∃ k m, room.members.get? k = some m ∧ m.codeId = a.senderCodeId ∧ m.active = true ∧
    plan.admission.senderUsername = m.username
  noPending : room.pendingApplications.get? a.messageId = none
  fresh : room.replayed ⟨.application, a.messageId⟩ = false
  pendingCount : room.pendingApplications.size < maxPendingApplications
  messageId : plan.admission.messageId = a.messageId
  ciphertext : plan.admission.ciphertext = a.ciphertext
  data : plan.admission.authenticatedData = a.authenticatedData
  roster : ∃ fallback, canonicalRoomRoster room = .ok fallback ∧ plan.snapshot =
    senderSnapshot room a (((room.snapshots.get? a.senderCodeId).map StateSnapshot.roster).getD
      fallback) now
  recipients : ∃ recipients, recipientsOf room a.senderCodeId = .ok recipients ∧
    plan.deliveries = recipients.map (applicationDelivery a plan.admission.senderUsername now
      plan.admission.expiresAtMs)
  pendingEq : plan.pending = ⟨plan.admission, a.senderCodeId, plan.pending.previousSenderRevision,
    room.snapshots.get? a.senderCodeId⟩
  snapshotCapacity : missing room a.senderCodeId + room.snapshots.size ≤ maxStateSnapshots ∨
    missing room a.senderCodeId = 0
  snapshotLimit : snapshotWeight plan.snapshot ≤ maxStateBytes
  deliveryLimit : queueWeight plan.deliveries ≤ s.maxDeliveryBytes
  deliveryCount : room.deliveryCount + plan.deliveries.length ≤ maxDeliveriesPerRoom
  deliveryBytes : plan.roomDeliveryBytes = room.deliveryBytes + queueWeight plan.deliveries
  snapshotBytes : plan.roomSnapshotBytes + storedWeight room a.senderCodeId =
    room.snapshotBytes + snapshotWeight plan.snapshot
  pendingBytes : plan.roomPendingBytes = room.pendingBytes + pendingWeight plan.pending
  globalDeliveryCount : plan.globalDeliveryCount = s.globalDeliveryCount + plan.deliveries.length
  globalDeliveryBytes : plan.globalDeliveryBytes =
    s.globalDeliveryBytes + queueWeight plan.deliveries
  globalPendingCount : plan.globalPendingCount = s.globalPendingCount + 1
  globalPendingBytes : plan.globalPendingBytes =
    s.globalPendingBytes + pendingWeight plan.pending
  globalSnapshotCount : plan.globalSnapshotCount =
    s.globalSnapshotCount + missing room a.senderCodeId
  globalSnapshotBytes : plan.globalSnapshotBytes + storedWeight room a.senderCodeId =
    s.globalSnapshotBytes + snapshotWeight plan.snapshot
  expiry : applicationExpiry room now s.pendingTtlMs = .ok plan.admission.expiresAtMs
  createdAt : plan.admission.createdAtMs = now
  unblocked : ∀ recipients, recipientsOf room a.senderCodeId = .ok recipients →
    ∀ r ∈ recipients, gapBlocked room a.senderCodeId r.1 = false
  budget : AdmitBudget s plan

theorem missing_eq (room : RelayRoom) (c : CodeId) :
    (if ¬ room.snapshots.contains c = true then 1 else 0) = missing room c := by
  unfold missing
  split_ifs <;> simp_all

theorem admitPlan_ok {now : Nat} {a : AdmitArgs} {plan : AdmitPlan}
    (h : s.admitPlan now room a = .ok plan) : Admitted s now room a plan := by
  obtain ⟨hmeta, h⟩ := rejectIf_bind.mp h
  obtain ⟨hqueue, h⟩ := rejectIf_bind.mp h
  obtain ⟨hidle, h⟩ := rejectIf_bind.mp h
  obtain ⟨htransition, h⟩ := rejectIf_bind.mp h
  obtain ⟨expiresAtMs, hexpiry, h⟩ := bind_eq_ok.mp h
  obtain ⟨currentRevision, hcurrent, h⟩ := okOr_bind.mp h
  obtain ⟨expectedRevision, hexpected, h⟩ := okOr_bind.mp h
  obtain ⟨_, hrevision, h⟩ := bind_eq_ok.mp h
  obtain ⟨sender, hsender, h⟩ := okOr_bind.mp h
  obtain ⟨hreplay, h⟩ := rejectIf_bind.mp h
  obtain ⟨bytes, hbytes, h⟩ := okOr_bind.mp h
  obtain ⟨_, hroomBudget, h⟩ := bind_eq_ok.mp h
  obtain ⟨hpendingBudget, h⟩ := rejectIf_bind.mp h
  obtain ⟨roomPendingBytes, hroomPending, h⟩ := okOr_bind.mp h
  obtain ⟨globalPendingCount, hglobalPendingCount, h⟩ := okOr_bind.mp h
  obtain ⟨globalPendingBytes, hglobalPendingBytes, h⟩ := okOr_bind.mp h
  obtain ⟨previousBytes, hprevious, h⟩ := bind_eq_ok.mp h
  obtain ⟨fallback, hfallback, h⟩ := bind_eq_ok.mp h
  obtain ⟨rosterBytes, hroster, h⟩ := bind_eq_ok.mp h
  obtain ⟨nextSnapshotBytes, hnextSnapshot, h⟩ := okOr_bind.mp h
  obtain ⟨hsnapshotBudget, h⟩ := rejectIf_bind.mp h
  obtain ⟨roomSnapshotBytes, hroomSnapshot, h⟩ := okOr_bind.mp h
  obtain ⟨globalSnapshotCount, hglobalSnapshotCount, h⟩ := okOr_bind.mp h
  obtain ⟨globalSnapshotBytes, hglobalSnapshotBytes, h⟩ := okOr_bind.mp h
  obtain ⟨recipients, hrecipients, h⟩ := bind_eq_ok.mp h
  obtain ⟨hunblocked, h⟩ := rejectIf_bind.mp h
  obtain ⟨queuedBytes, hqueued, h⟩ := bind_eq_ok.mp h
  obtain ⟨hdeliveryBudget, h⟩ := rejectIf_bind.mp h
  obtain ⟨roomDeliveryBytes, hroomDelivery, h⟩ := okOr_bind.mp h
  obtain ⟨globalDeliveryCount, hglobalDeliveryCount, h⟩ := okOr_bind.mp h
  obtain ⟨globalDeliveryBytes, hglobalDeliveryBytes, h⟩ := okOr_bind.mp h
  cases h
  push Not at hmeta
  obtain ⟨hword, rfl⟩ := checkedAdd_eq_some.mp hexpected
  have hrevision := not_not.mp (rejectIf_eq_ok.mp hrevision)
  have hfound := find?_some hsender
  obtain ⟨k, hk⟩ := mem_values.mp (mem_of_find?_eq_some hsender)
  rw [Bool.and_eq_true, decide_eq_true_eq] at hfound
  rw [not_or, Bool.not_eq_true, Bool.not_eq_true, contains_eq_false] at hreplay
  simp only [any_eq_true, decide_eq_true_eq, not_exists, not_and] at hidle
  obtain ⟨-, -, rfl⟩ := by
    simpa only [checkedAdd_bind_eq_some, checkedAdd_eq_some] using hbytes
  have hroomBudget := Bool.not_eq_true _ ▸ rejectIf_eq_ok.mp hroomBudget
  have hcountLimit := (not_or.mp (not_or.mp (not_or.mp hsnapshotBudget).2).2).1
  have hcountLimit := Bool.eq_false_iff.mpr hcountLimit
  simp only [not_or, Bool.not_eq_true] at hpendingBudget hdeliveryBudget
  simp only [not_or, not_and_or, Bool.not_eq_true] at hsnapshotBudget
  obtain ⟨allDeliveryBytes, hallDelivery, hallDeliveryLe⟩ :=
    exceeds_eq_false.mp hdeliveryBudget.2.2.2
  obtain ⟨-, rfl⟩ := checkedAdd_eq_some.mp hallDelivery
  obtain ⟨snapshotTotal, hsnapshotTotal, hsnapshotTotalLe⟩ :=
    exceeds_eq_false.mp hsnapshotBudget.2.1
  obtain ⟨pendings, hpendings, hpendingsLe⟩ := exceeds_eq_false.mp hpendingBudget.1
  obtain ⟨-, rfl⟩ := checkedAdd_eq_some.mp hpendings
  obtain ⟨queued, hqueuedCount, hqueuedLe⟩ := exceeds_eq_false.mp hdeliveryBudget.1
  rw [Option.bind_eq_some_iff] at hqueuedCount
  obtain ⟨total, htotal, hqueuedCount⟩ := hqueuedCount
  obtain ⟨-, rfl⟩ := checkedSum_eq_some.mp htotal
  obtain ⟨-, rfl⟩ := checkedAdd_eq_some.mp hqueuedCount
  obtain ⟨-, rfl⟩ := rosterSize_eq_ok.mp hroster
  obtain ⟨-, rfl⟩ := checkedAdd_eq_some.mp hnextSnapshot
  obtain ⟨-, rfl⟩ := deliveryBytes_eq_ok.mp hqueued
  have hprevious := optionalSnapshotSize_eq_ok hprevious
  subst hprevious
  have hroomSnapshotLe := le_of_exceeds hsnapshotBudget.2.1 hroomSnapshot
  have hglobalSnapshotBytesLe := le_of_exceeds hsnapshotBudget.2.2.2 hglobalSnapshotBytes
  have hglobalSnapshotCountLe := le_of_exceeds hcountLimit hglobalSnapshotCount
  rw [missing_eq] at hglobalSnapshotCount
  have hglobalSnapshotCount := (checkedAdd_eq_some.mp hglobalSnapshotCount).2
  simp only [checkedSub_bind_eq_some, checkedAdd_eq_some] at hroomSnapshot hglobalSnapshotBytes
  rw [sum_values] at hqueuedLe
  refine ⟨hmeta.2.1, hmeta.2.2, not_not.mp hqueue,
    fun m p hp => hidle p (mem_values.mpr ⟨m, hp⟩), ?_, hcurrent, hrevision,
    hrevision ▸ hword, ⟨k, sender, hk, hfound.1, hfound.2, rfl⟩, hreplay.1, hreplay.2,
    hpendingsLe, rfl, rfl, rfl, ⟨fallback, hfallback, rfl⟩, ⟨recipients, hrecipients, rfl⟩, rfl,
    ?_, ?_, le_trans (Nat.le_add_left _ _) hallDeliveryLe, hqueuedLe,
    (checkedAdd_eq_some.mp hroomDelivery).2, ?_,
    (checkedAdd_eq_some.mp hroomPending).2,
    (checkedAdd_eq_some.mp hglobalDeliveryCount).2,
    (checkedAdd_eq_some.mp hglobalDeliveryBytes).2,
    (checkedAdd_eq_some.mp hglobalPendingCount).2,
    (checkedAdd_eq_some.mp hglobalPendingBytes).2,
    hglobalSnapshotCount, ?_, hexpiry, rfl, ?_, ?_⟩
  · simpa using htransition
  · unfold missing
    rcases hsnapshotBudget.1 with hpresent | hroom
    · rw [if_pos (Bool.of_not_eq_false hpresent)]
      exact .inr rfl
    · rw [Nat.not_le] at hroom
      split_ifs
      · exact .inr rfl
      · exact .inl (by omega)
  · simp only [checkedSub_bind_eq_some, checkedAdd_eq_some] at hsnapshotTotal
    simp only [snapshotWeight, senderSnapshot]
    omega
  · simp only [storedWeight, snapshotWeight, senderSnapshot]
    omega
  · simp only [storedWeight, snapshotWeight, senderSnapshot]
    omega
  · intro recipients' hrecipients' r hr
    rw [hrecipients] at hrecipients'
    obtain rfl := Except.ok.inj hrecipients'
    simpa using fun hblocked => hunblocked (any_eq_true.mpr ⟨r, hr, hblocked⟩)
  · exact ⟨le_of_exceeds hroomBudget hroomPending,
      le_of_exceeds hpendingBudget.2.1 hglobalPendingCount,
      le_of_exceeds hpendingBudget.2.2 hglobalPendingBytes, hroomSnapshotLe,
      hglobalSnapshotCountLe, hglobalSnapshotBytesLe,
      le_of_exceeds hdeliveryBudget.2.2.1 hglobalDeliveryCount,
      le_of_exceeds hdeliveryBudget.2.2.2 hglobalDeliveryBytes⟩

structure Committed (s : RoomAuthority) (now : Nat) (messageId : Text) (room : RelayRoom)
    (pending : PendingApplication) (plan : CommitPlan) : Prop where
  pendingGet : room.pendingApplications.get? messageId = some pending
  fresh : room.replayed ⟨.application, messageId⟩ = false
  roomEq : ∃ pendingBytes, plan.room = { room with
      pendingApplications := room.pendingApplications.erase messageId
      pendingBytes := pendingBytes
      replayIds := pushReplay room.replayIds ⟨.application, messageId⟩ now } ∧
    pendingBytes + (pending.admission.ciphertext.length +
      pending.admission.authenticatedData.length + messageId.length) = room.pendingBytes
  globalPendingCount : plan.globalPendingCount + 1 = s.globalPendingCount
  globalPendingBytes : plan.globalPendingBytes + (pending.admission.ciphertext.length +
    pending.admission.authenticatedData.length + messageId.length) = s.globalPendingBytes

theorem settledBytes_eq_ok {pending : PendingApplication} {n : Nat}
    (h : settledBytes pending messageId = .ok n) :
    n = pending.admission.ciphertext.length + pending.admission.authenticatedData.length +
      messageId.length := by
  have h := okOr_eq_ok.mp h
  simp only [checkedAdd_bind_eq_some, checkedAdd_eq_some] at h
  exact h.2.2

theorem commitPlan_ok {now : Nat} {roomId : Text} {plan : CommitPlan}
    (h : s.commitPlan now roomId messageId = .ok plan) :
    ∃ room pending, s.rooms.get? roomId = some room ∧
      Committed s now messageId room pending plan := by
  obtain ⟨room, hroom, h⟩ := okOr_bind.mp h
  obtain ⟨pending, hpending, h⟩ := okOr_bind.mp h
  obtain ⟨hfresh, h⟩ := rejectIf_bind.mp h
  obtain ⟨bytes, hbytes, h⟩ := bind_eq_ok.mp h
  obtain ⟨pendingBytes, hpendingBytes, h⟩ := okOr_bind.mp h
  obtain ⟨globalPendingCount, hcount, h⟩ := okOr_bind.mp h
  obtain ⟨globalPendingBytes, hglobal, h⟩ := okOr_bind.mp h
  cases h
  have hbytes := settledBytes_eq_ok hbytes
  subst hbytes
  rw [Bool.not_eq_true] at hfresh
  exact ⟨room, pending, hroom, hpending, hfresh,
    ⟨pendingBytes, rfl, checkedSub_eq_some.mp hpendingBytes⟩,
    checkedSub_eq_some.mp hcount, checkedSub_eq_some.mp hglobal⟩

structure Retracting (s : RoomAuthority) (room : RelayRoom) (messageId : Text)
    (plan : RollbackPlan) : Prop where
  pendingGet : room.pendingApplications.get? messageId = some plan.pending
  pendingBytes : plan.roomPendingBytes + (plan.pending.admission.ciphertext.length +
    plan.pending.admission.authenticatedData.length + messageId.length) = room.pendingBytes
  deliveryBytes : plan.roomDeliveryBytes + room.deliveries.sum (fun _ queue =>
    queueWeight (queue.filter fun d => d.messageId = messageId)) = room.deliveryBytes
  snapshotBytes : plan.roomSnapshotBytes + storedWeight room plan.pending.senderCodeId =
    room.snapshotBytes + (plan.pending.previousSnapshot.map snapshotWeight).getD 0
  globalPendingCount : plan.globalPendingCount + 1 = s.globalPendingCount
  globalPendingBytes : plan.globalPendingBytes + (plan.pending.admission.ciphertext.length +
    plan.pending.admission.authenticatedData.length + messageId.length) = s.globalPendingBytes
  globalDeliveryCount : plan.globalDeliveryCount + room.deliveries.sum (fun _ queue =>
    (queue.filter fun d => d.messageId = messageId).length) = s.globalDeliveryCount
  globalDeliveryBytes : plan.globalDeliveryBytes + room.deliveries.sum (fun _ queue =>
    queueWeight (queue.filter fun d => d.messageId = messageId)) = s.globalDeliveryBytes
  globalSnapshotCount : plan.globalSnapshotCount +
      (if room.snapshots.contains plan.pending.senderCodeId then 1 else 0) =
    s.globalSnapshotCount + (if plan.pending.previousSnapshot.isSome then 1 else 0)
  globalSnapshotBytes : plan.globalSnapshotBytes + storedWeight room plan.pending.senderCodeId =
    s.globalSnapshotBytes + (plan.pending.previousSnapshot.map snapshotWeight).getD 0

theorem queueWeight_flatten (queues : List (List PendingDelivery)) :
    queueWeight queues.flatten = (queues.map queueWeight).sum := by
  induction queues with
  | nil => rfl
  | cons queue queues ih =>
    rw [flatten_cons, map_cons, sum_cons, ← ih, queueWeight, map_append,
      sum_append]
    rfl

theorem rollbackPlan_ok {plan : RollbackPlan} (h : s.rollbackPlan room messageId = .ok plan) :
    Retracting s room messageId plan := by
  obtain ⟨pending, hpending, h⟩ := okOr_bind.mp h
  obtain ⟨bytes, hbytes, h⟩ := bind_eq_ok.mp h
  obtain ⟨roomPendingBytes, hroomPending, h⟩ := okOr_bind.mp h
  obtain ⟨removedCount, hremovedCount, h⟩ := bind_eq_ok.mp h
  obtain ⟨removedBytes, hremovedBytes, h⟩ := bind_eq_ok.mp h
  obtain ⟨roomDeliveryBytes, hroomDelivery, h⟩ := okOr_bind.mp h
  obtain ⟨currentBytes, hcurrent, h⟩ := bind_eq_ok.mp h
  obtain ⟨restoredBytes, hrestored, h⟩ := bind_eq_ok.mp h
  obtain ⟨roomSnapshotBytes, hroomSnapshot, h⟩ := okOr_bind.mp h
  obtain ⟨globalPendingCount, hpendingCount, h⟩ := okOr_bind.mp h
  obtain ⟨globalPendingBytes, hpendingBytes, h⟩ := okOr_bind.mp h
  obtain ⟨globalDeliveryCount, hdeliveryCount, h⟩ := okOr_bind.mp h
  obtain ⟨globalDeliveryBytes, hdeliveryBytes, h⟩ := okOr_bind.mp h
  obtain ⟨globalSnapshotCount, hsnapshotCount, h⟩ := okOr_bind.mp h
  obtain ⟨globalSnapshotBytes, hsnapshotBytes, h⟩ := okOr_bind.mp h
  cases h
  have hbytes := settledBytes_eq_ok hbytes
  have hcurrent := optionalSnapshotSize_eq_ok hcurrent
  have hrestored := optionalSnapshotSize_eq_ok hrestored
  subst hbytes hcurrent hrestored
  obtain ⟨-, hremovedCount⟩ := checkedSum_eq_some.mp (okOr_eq_ok.mp hremovedCount)
  obtain ⟨-, hremovedBytes⟩ := deliveryBytes_eq_ok.mp hremovedBytes
  rw [map_map, sum_values] at hremovedCount
  rw [queueWeight_flatten, map_map, sum_values] at hremovedBytes
  subst hremovedCount hremovedBytes
  simp only [checkedSub_bind_eq_some, checkedAdd_eq_some] at hroomSnapshot hsnapshotCount
  simp only [checkedSub_bind_eq_some, checkedAdd_eq_some] at hsnapshotBytes
  refine ⟨hpending, checkedSub_eq_some.mp hroomPending,
    checkedSub_eq_some.mp hroomDelivery, ?_,
    checkedSub_eq_some.mp hpendingCount,
    checkedSub_eq_some.mp hpendingBytes,
    checkedSub_eq_some.mp hdeliveryCount,
    checkedSub_eq_some.mp hdeliveryBytes, ?_, ?_⟩
  · simp only [storedWeight]
    omega
  · dsimp only
    omega
  · simp only [storedWeight]
    omega

structure Stored (s : RoomAuthority) (now : Nat) (room : RelayRoom) (a : StoreArgs)
    (plan : StorePlan) : Prop where
  member : ∃ m, room.members.get? plan.memberUsername = some m ∧ m.codeId = a.memberCodeId
  notBehind : room.revisionOf a.memberCodeId ≤ a.revision
  retired : retireCount room a (room.deliveries.get? a.memberCodeId)
    (room.revisionOf a.memberCodeId) = .ok plan.retired
  checkpoint : checkCheckpoint room a (room.deliveries.get? a.memberCodeId)
    (room.revisionOf a.memberCodeId) plan.retired = .ok ()
  retiring : plan.retiring = (room.queueOf a.memberCodeId).take plan.retired
  retiredLe : plan.retired ≤ (room.queueOf a.memberCodeId).length
  roster : rosterAfter room a plan.retiring plan.retired = .ok plan.snapshot.roster
  rosterCheck : checkRoster room a plan.snapshot.roster = .ok ()
  snapshotEq : plan.snapshot =
    { roomId := a.roomId, messageId := a.messageId, memberCodeId := a.memberCodeId
      epoch := a.epoch, revision := a.revision, membershipDigest := a.membershipDigest
      stateEnvelope := a.stateEnvelope, roster := plan.snapshot.roster, createdAtMs := now
      expiresAtMs := wordMax }
  snapshotCapacity : missing room a.memberCodeId + room.snapshots.size ≤ maxStateSnapshots ∨
    missing room a.memberCodeId = 0
  snapshotLimit : snapshotWeight plan.snapshot ≤ maxStateBytes
  deliveryBytes : plan.roomDeliveryBytes + queueWeight plan.retiring = room.deliveryBytes
  snapshotBytes : plan.roomSnapshotBytes + storedWeight room a.memberCodeId =
    room.snapshotBytes + snapshotWeight plan.snapshot
  globalDeliveryCount : plan.globalDeliveryCount + plan.retired = s.globalDeliveryCount
  globalDeliveryBytes : plan.globalDeliveryBytes + queueWeight plan.retiring =
    s.globalDeliveryBytes
  globalSnapshotCount : plan.globalSnapshotCount =
    s.globalSnapshotCount + missing room a.memberCodeId
  globalSnapshotBytes : plan.globalSnapshotBytes + storedWeight room a.memberCodeId =
    s.globalSnapshotBytes + snapshotWeight plan.snapshot
  roomSnapshotLimit : plan.roomSnapshotBytes ≤ maxStateBytes
  globalCountLimit : plan.globalSnapshotCount ≤ maxGlobalStateSnapshots
  globalBytesLimit : plan.globalSnapshotBytes ≤ maxGlobalStateBytes

theorem storePlan_ok {now : Nat} {a : StoreArgs} {plan : StorePlan}
    (h : s.storePlan now room a = .ok plan) : Stored s now room a plan := by
  obtain ⟨_, -, h⟩ := bind_eq_ok.mp h
  obtain ⟨hbounds, h⟩ := rejectIf_bind.mp h
  obtain ⟨retired, hretired, h⟩ := bind_eq_ok.mp h
  obtain ⟨_, hcheckpoint, h⟩ := bind_eq_ok.mp h
  obtain ⟨roster, hroster, h⟩ := bind_eq_ok.mp h
  obtain ⟨_, hrosterCheck, h⟩ := bind_eq_ok.mp h
  obtain ⟨hcapacity, h⟩ := rejectIf_bind.mp h
  obtain ⟨previousBytes, hprevious, h⟩ := bind_eq_ok.mp h
  obtain ⟨rosterBytes, hrosterBytes, h⟩ := bind_eq_ok.mp h
  obtain ⟨nextBytes, hnext, h⟩ := okOr_bind.mp h
  obtain ⟨hlimit, h⟩ := rejectIf_bind.mp h
  obtain ⟨hglobal, h⟩ := rejectIf_bind.mp h
  obtain ⟨roomSnapshotBytes, hroomSnapshot, h⟩ := okOr_bind.mp h
  obtain ⟨globalSnapshotCount, hsnapshotCount, h⟩ := okOr_bind.mp h
  obtain ⟨globalSnapshotBytes, hsnapshotBytes, h⟩ := okOr_bind.mp h
  obtain ⟨removedBytes, hremoved, h⟩ := bind_eq_ok.mp h
  obtain ⟨roomDeliveryBytes, hroomDelivery, h⟩ := okOr_bind.mp h
  obtain ⟨globalDeliveryCount, hdeliveryCount, h⟩ := okOr_bind.mp h
  obtain ⟨globalDeliveryBytes, hdeliveryBytes, h⟩ := okOr_bind.mp h
  obtain ⟨member, hmember, h⟩ := okOr_bind.mp h
  obtain ⟨_, -, h⟩ := bind_eq_ok.mp h
  obtain ⟨hlength, h⟩ := rejectIf_bind.mp h
  cases h
  have hfound := find?_some hmember
  have hget := get?_eq_some.mpr (mem_of_find?_eq_some hmember)
  rw [not_or, Nat.not_lt] at hbounds
  rw [not_and_or] at hcapacity hlength
  have hprevious := optionalSnapshotSize_eq_ok hprevious
  obtain ⟨-, rfl⟩ := rosterSize_eq_ok.mp hrosterBytes
  obtain ⟨-, rfl⟩ := checkedAdd_eq_some.mp hnext
  obtain ⟨-, rfl⟩ := deliveryBytes_eq_ok.mp hremoved
  subst hprevious
  rw [Bool.not_eq_true] at hlimit
  obtain ⟨total, htotal, htotalLe⟩ := exceeds_eq_false.mp hlimit
  simp only [not_or, Bool.not_eq_true] at hglobal
  have hroomSnapshotLe := le_of_exceeds hlimit hroomSnapshot
  have hsnapshotBytesLe := le_of_exceeds hglobal.2 hsnapshotBytes
  simp only [checkedSub_bind_eq_some, checkedAdd_eq_some] at hroomSnapshot hsnapshotBytes htotal
  refine ⟨⟨member.2, hget, by simpa using hfound⟩, hbounds.1, hretired, hcheckpoint, rfl, ?_,
    hroster, hrosterCheck, rfl, ?_, ?_, checkedSub_eq_some.mp hroomDelivery, ?_,
    checkedSub_eq_some.mp hdeliveryCount,
    checkedSub_eq_some.mp hdeliveryBytes,
    (checkedAdd_eq_some.mp hsnapshotCount).2, ?_, hroomSnapshotLe,
    le_of_exceeds hglobal.1 hsnapshotCount, hsnapshotBytesLe⟩
  · simp only [RelayRoom.queueOf]
    omega
  · unfold missing
    rcases hcapacity with hroom | hpresent
    · split_ifs
      · exact .inr rfl
      · exact .inl (by omega)
    · rw [if_pos (not_not.mp hpresent)]
      exact .inr rfl
  · simp only [snapshotWeight]
    omega
  · simp only [storedWeight, snapshotWeight]
    omega
  · simp only [storedWeight, snapshotWeight]
    omega

structure Created (s : RoomAuthority) (createdAt : Nat) (a : CreateArgs) (plan : CreatePlan) :
    Prop where
  roomId : a.roomId.length ≤ maxRoomIdBytes
  username : validateUsername a.ownerUsername = .ok ()
  digest : a.membershipDigest.length = membershipDigestBytes
  identity : validateStableIdentity a.stableIdentity = .ok ()
  envelope : a.stateEnvelope.length ≤ maxStateBytes
  capacity : s.rooms.size < maxRoomsTotal
  absent : s.rooms.get? a.roomId = none
  roomEq : ∃ name bytes, canonicalUsername a.ownerUsername = .ok name ∧
    bytes = snapshotWeight (initialSnapshot a [⟨name, a.stableIdentity⟩] createdAt) ∧
    plan.room = initialRoom a name (initialSnapshot a [⟨name, a.stableIdentity⟩] createdAt) bytes ∧
    plan.globalSnapshotBytes = s.globalSnapshotBytes + bytes
  globalSnapshotCount : plan.globalSnapshotCount = s.globalSnapshotCount + 1
  snapshotLimit : plan.globalSnapshotBytes ≤ maxGlobalStateBytes
  countLimit : plan.globalSnapshotCount ≤ maxGlobalStateSnapshots
  owned : (s.rooms.values.filter fun room => room.ownerCodeId = a.ownerCodeId).length < s.maxRooms

theorem createPlan_ok {createdAt : Nat} {a : CreateArgs} {plan : CreatePlan}
    (h : s.createPlan createdAt a = .ok plan) : Created s createdAt a plan := by
  obtain ⟨_, hroomId, h⟩ := bind_eq_ok.mp h
  obtain ⟨_, husername, h⟩ := bind_eq_ok.mp h
  obtain ⟨_, -, h⟩ := bind_eq_ok.mp h
  obtain ⟨hdigest, h⟩ := rejectIf_bind.mp h
  obtain ⟨_, hidentity, h⟩ := bind_eq_ok.mp h
  obtain ⟨henvelope, h⟩ := rejectIf_bind.mp h
  obtain ⟨_, -, h⟩ := bind_eq_ok.mp h
  obtain ⟨hcapacity, h⟩ := rejectIf_bind.mp h
  obtain ⟨howned, h⟩ := rejectIf_bind.mp h
  obtain ⟨habsent, h⟩ := rejectIf_bind.mp h
  obtain ⟨globalSnapshotCount, hcount, h⟩ := okOr_bind.mp h
  obtain ⟨name, hname, h⟩ := bind_eq_ok.mp h
  obtain ⟨rosterBytes, hroster, h⟩ := bind_eq_ok.mp h
  obtain ⟨initialBytes, hinitial, h⟩ := okOr_bind.mp h
  obtain ⟨globalSnapshotBytes, hbytes, h⟩ := okOr_bind.mp h
  obtain ⟨_, hlimit, h⟩ := bind_eq_ok.mp h
  obtain ⟨snapshotBytes, hsnapshot, h⟩ := bind_eq_ok.mp h
  cases h
  rw [Bool.not_eq_true, contains_eq_false] at habsent
  rw [not_or, Nat.not_lt] at henvelope
  have hlimit := not_or.mp (rejectIf_eq_ok.mp hlimit)
  obtain ⟨-, rfl⟩ := rosterSize_eq_ok.mp hroster
  obtain ⟨-, rfl⟩ := checkedAdd_eq_some.mp hinitial
  obtain ⟨-, rfl⟩ := snapshotSize_eq_ok.mp hsnapshot
  exact ⟨validateRoomId_length hroomId, husername, not_not.mp hdigest,
    hidentity, henvelope.2, Nat.not_le.mp hcapacity, habsent,
    ⟨name, _, hname, rfl, rfl, (checkedAdd_eq_some.mp hbytes).2⟩,
    (checkedAdd_eq_some.mp hcount).2, Nat.not_lt.mp hlimit.2,
    Nat.not_lt.mp hlimit.1, Nat.not_le.mp howned⟩

end RoomAuthority
end Abyssal.Rooms
