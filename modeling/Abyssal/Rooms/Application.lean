import Abyssal.Rooms.Membership

/-! Admission of application messages, and the commit or rollback that settles one. -/

namespace Abyssal.Rooms

structure AdmitArgs where
  senderCodeId : CodeId
  senderPlatform : ClientPlatform
  roomId : Text
  messageId : Text
  groupId : Bytes
  epoch : Nat
  senderRevision : Nat
  membershipDigest : Bytes
  ciphertext : Bytes
  authenticatedData : Bytes
  stateEnvelope : Bytes

def applicationExpiry (room : RelayRoom) (now pendingTtlMs : Nat) : Except String Nat := do
  -- The message never outlives the room's own absolute expiry.
  let expiry ← okOr (checkedAdd now pendingTtlMs) "application expiry rejected"
  if room.policy.enforceTextAbsoluteExpiry ∧ 0 < room.policy.overallExpirySec then do
    let policyExpiry ← okOr ((checkedMul room.policy.overallExpirySec 1000).bind
      fun ttl => checkedAdd now ttl) "application expiry rejected"
    .ok (min expiry policyExpiry)
  else .ok expiry

def applicationDelivery (a : AdmitArgs) (senderUsername : Text) (now expiresAtMs : Nat)
    (recipient : CodeId × Nat) : PendingDelivery :=
  { roomId := a.roomId
    messageId := a.messageId
    recipientCodeId := recipient.1
    epoch := a.epoch
    membershipDigest := a.membershipDigest
    revision := recipient.2
    payload := .application a.senderCodeId senderUsername a.senderPlatform a.ciphertext
      a.authenticatedData
    createdAtMs := now
    expiresAtMs := expiresAtMs }

def senderSnapshot (room : RelayRoom) (a : AdmitArgs) (roster : List RosterMember) (now : Nat) :
    StateSnapshot :=
  { roomId := room.roomId
    messageId := a.messageId
    memberCodeId := a.senderCodeId
    epoch := a.epoch
    revision := a.senderRevision
    membershipDigest := a.membershipDigest
    stateEnvelope := a.stateEnvelope
    roster := roster
    createdAtMs := now
    expiresAtMs := wordMax }

structure AdmitPlan where
  admission : ApplicationAdmission
  deliveries : List PendingDelivery
  snapshot : StateSnapshot
  pending : PendingApplication
  roomDeliveryBytes : Nat
  roomSnapshotBytes : Nat
  roomPendingBytes : Nat
  globalDeliveryCount : Nat
  globalDeliveryBytes : Nat
  globalPendingCount : Nat
  globalPendingBytes : Nat
  globalSnapshotCount : Nat
  globalSnapshotBytes : Nat

namespace RoomAuthority

def validateAdmission (a : AdmitArgs) : Except String Unit := do
  validateRequestId a.messageId
  validateGroupId a.groupId
  validateDigest a.membershipDigest
  rejectIf (a.ciphertext = [] ∨ maxApplicationCiphertextBytes < a.ciphertext.length)
    "application rejected"
  rejectIf (a.authenticatedData = [] ∨ maxAuthenticatedDataBytes < a.authenticatedData.length)
    "authenticated data rejected"
  validateStateEnvelope a.stateEnvelope

def recipientsOf (room : RelayRoom) (senderCodeId : CodeId) :
    Except String (List (CodeId × Nat)) :=
  mapChecked (fun (m : Member) => do
    let revision ← nextDeliveryRevision room m.codeId
    .ok (m.codeId, revision))
    (room.members.values.filter fun m => m.active && m.codeId ≠ senderCodeId)

def gapBlocked (room : RelayRoom) (senderCodeId : CodeId) (recipient : CodeId) : Bool :=
  maxRatchetBackHistory <
    (room.expiredSenderGaps.get? (toLex (recipient, senderCodeId))).getD 0

def admitPlan (s : RoomAuthority) (now : Nat) (room : RelayRoom) (a : AdmitArgs) :
    Except String AdmitPlan := do
  validateCurrentMetadata room a.groupId a.epoch a.membershipDigest
  rejectIf (room.queueOf a.senderCodeId ≠ []) "sender delivery snapshot required"
  rejectIf (room.pendingApplications.values.any fun p => p.senderCodeId = a.senderCodeId)
    "sender application admission in flight"
  rejectIf room.pendingTransition.isSome "membership transition in flight"
  let expiresAtMs ← applicationExpiry room now s.pendingTtlMs
  let currentRevision ← okOr (room.memberRevisions.get? a.senderCodeId) "room member required"
  let expectedRevision ← okOr (checkedAdd currentRevision 1) "application revision rejected"
  rejectIf (a.senderRevision ≠ expectedRevision) "application revision rejected"
  let sender ← okOr (room.members.values.find? fun m => m.codeId = a.senderCodeId && m.active)
    "active room member required"
  rejectIf (room.pendingApplications.contains a.messageId ∨
    room.replayed ⟨.application, a.messageId⟩) "application replay rejected"
  let bytes ← okOr ((checkedAdd a.ciphertext.length a.authenticatedData.length).bind
    fun bytes => checkedAdd bytes a.messageId.length) "pending application budget reached"
  rejectIf (exceeds (checkedAdd room.pendingBytes bytes) maxPendingBytes)
    "room pending limit reached"
  rejectIf (exceeds (checkedAdd room.pendingApplications.size 1) maxPendingApplications ∨
    exceeds (checkedAdd s.globalPendingCount 1) maxGlobalPendingApplications ∨
    exceeds (checkedAdd s.globalPendingBytes bytes) maxGlobalPendingBytes)
    "pending application budget reached"
  let roomPendingBytes ← okOr (checkedAdd room.pendingBytes bytes) "room pending limit reached"
  let globalPendingCount ← okOr (checkedAdd s.globalPendingCount 1)
    "pending application budget reached"
  let globalPendingBytes ← okOr (checkedAdd s.globalPendingBytes bytes)
    "pending application budget reached"
  let previousSnapshotBytes ← snapshotBytesOf room a.senderCodeId
  let previousSnapshot := room.snapshots.get? a.senderCodeId
  -- The fallback roster is computed, and may reject, even where a snapshot exists.
  let roomRoster ← canonicalRoomRoster room
  let roster := (previousSnapshot.map StateSnapshot.roster).getD roomRoster
  let rosterBytes ← rosterSize roster
  let nextSnapshotBytes ← okOr (checkedAdd a.stateEnvelope.length rosterBytes)
    "state snapshot budget reached"
  let newSnapshot := ¬ room.snapshots.contains a.senderCodeId
  let nextRoomSnapshotBytes := (checkedSub room.snapshotBytes previousSnapshotBytes).bind
    fun bytes => checkedAdd bytes nextSnapshotBytes
  let nextGlobalSnapshotCount := checkedAdd s.globalSnapshotCount (if newSnapshot then 1 else 0)
  let nextGlobalSnapshotBytes := (checkedSub s.globalSnapshotBytes previousSnapshotBytes).bind
    fun bytes => checkedAdd bytes nextSnapshotBytes
  rejectIf ((newSnapshot ∧ maxStateSnapshots ≤ room.snapshots.size) ∨
    exceeds nextRoomSnapshotBytes maxStateBytes ∨
    exceeds nextGlobalSnapshotCount maxGlobalStateSnapshots ∨
    exceeds nextGlobalSnapshotBytes maxGlobalStateBytes) "state snapshot budget reached"
  let roomSnapshotBytes ← okOr nextRoomSnapshotBytes "state snapshot budget reached"
  let globalSnapshotCount ← okOr nextGlobalSnapshotCount "state snapshot budget reached"
  let globalSnapshotBytes ← okOr nextGlobalSnapshotBytes "state snapshot budget reached"
  let recipients ← recipientsOf room a.senderCodeId
  rejectIf (recipients.any fun r => gapBlocked room a.senderCodeId r.1)
    "application sender generation gap rejected"
  let admission : ApplicationAdmission :=
    { messageId := a.messageId, roomId := a.roomId, senderUsername := sender.username
      recipientCodeIds := recipients.map Prod.fst, recipientRevisions := recipients
      senderRevision := a.senderRevision, epoch := a.epoch
      membershipDigest := a.membershipDigest, ciphertext := a.ciphertext
      authenticatedData := a.authenticatedData, stateEnvelope := a.stateEnvelope
      createdAtMs := now, expiresAtMs }
  let deliveries := recipients.map (applicationDelivery a sender.username now expiresAtMs)
  let queuedBytes ← deliveryBytes deliveries
  let nextRoomDeliveryCount := (checkedSum (room.deliveries.values.map List.length)).bind
    fun count => checkedAdd count deliveries.length
  rejectIf (exceeds nextRoomDeliveryCount maxDeliveriesPerRoom ∨
    (checkedAdd room.deliveryBytes queuedBytes).isNone ∨
    exceeds (checkedAdd s.globalDeliveryCount deliveries.length) s.maxDeliveryCount ∨
    exceeds (checkedAdd s.globalDeliveryBytes queuedBytes) s.maxDeliveryBytes)
    "room delivery budget reached"
  let roomDeliveryBytes ← okOr (checkedAdd room.deliveryBytes queuedBytes)
    "room delivery budget reached"
  let globalDeliveryCount ← okOr (checkedAdd s.globalDeliveryCount deliveries.length)
    "room delivery budget reached"
  let globalDeliveryBytes ← okOr (checkedAdd s.globalDeliveryBytes queuedBytes)
    "room delivery budget reached"
  .ok { admission, deliveries, snapshot := senderSnapshot room a roster now
        pending :=
          { admission, senderCodeId := a.senderCodeId
            previousSenderRevision := currentRevision, previousSnapshot }
        roomDeliveryBytes, roomSnapshotBytes, roomPendingBytes, globalDeliveryCount
        globalDeliveryBytes, globalPendingCount, globalPendingBytes, globalSnapshotCount
        globalSnapshotBytes }

def admitRoom (room : RelayRoom) (a : AdmitArgs) (plan : AdmitPlan) : RelayRoom :=
  { room with
    deliveries := plan.deliveries.foldl pushDelivery room.deliveries
    deliveryBytes := plan.roomDeliveryBytes
    memberRevisions := room.memberRevisions.insert a.senderCodeId a.senderRevision
    snapshotBytes := plan.roomSnapshotBytes
    snapshots := room.snapshots.insert a.senderCodeId plan.snapshot
    pendingBytes := plan.roomPendingBytes
    pendingApplications := room.pendingApplications.insert a.messageId plan.pending }

def admitApplicationForPlatform (σ : HashOrder) (now : Nat) (s : RoomAuthority) (a : AdmitArgs) :
    Outcome ApplicationAdmission :=
  let s := s.pruneExpired σ now
  match validateAdmission a with
  | .error reason => (s, .error reason)
  | .ok () =>
    match s.rooms.get? a.roomId with
    | none => (s, .error "room unavailable")
    | some room =>
      match s.admitPlan now room a with
      | .error reason => (s, .error reason)
      | .ok plan =>
        ({ s with
          rooms := s.rooms.insert a.roomId (admitRoom room a plan)
          globalDeliveryCount := plan.globalDeliveryCount
          globalDeliveryBytes := plan.globalDeliveryBytes
          globalPendingCount := plan.globalPendingCount
          globalPendingBytes := plan.globalPendingBytes
          globalSnapshotCount := plan.globalSnapshotCount
          globalSnapshotBytes := plan.globalSnapshotBytes }, .ok plan.admission)

def settledBytes (pending : PendingApplication) (messageId : Text) : Except String Nat :=
  okOr ((checkedAdd pending.admission.ciphertext.length
    pending.admission.authenticatedData.length).bind
      fun bytes => checkedAdd bytes messageId.length) "pending application accounting rejected"

structure CommitPlan where
  room : RelayRoom
  globalPendingCount : Nat
  globalPendingBytes : Nat

def commitPlan (s : RoomAuthority) (now : Nat) (roomId messageId : Text) :
    Except String CommitPlan := do
  let room ← okOr (s.rooms.get? roomId) "room unavailable"
  let pending ← okOr (room.pendingApplications.get? messageId) "application admission unavailable"
  rejectIf (room.replayed ⟨.application, messageId⟩) "application replay rejected"
  let bytes ← settledBytes pending messageId
  let pendingBytes ← okOr (checkedSub room.pendingBytes bytes)
    "pending application accounting rejected"
  let globalPendingCount ← okOr (checkedSub s.globalPendingCount 1)
    "pending application accounting rejected"
  let globalPendingBytes ← okOr (checkedSub s.globalPendingBytes bytes)
    "pending application accounting rejected"
  .ok ⟨{ room with
      pendingApplications := room.pendingApplications.erase messageId
      pendingBytes := pendingBytes
      replayIds := pushReplay room.replayIds ⟨.application, messageId⟩ now },
    globalPendingCount, globalPendingBytes⟩

def commitApplication (σ : HashOrder) (now : Nat) (s : RoomAuthority) (roomId messageId : Text) :
    Outcome Unit :=
  match s.commitPlan now roomId messageId with
  | .error reason => (s, .error reason)
  | .ok plan =>
    { s with
      rooms := s.rooms.insert roomId plan.room
      globalPendingCount := plan.globalPendingCount
      globalPendingBytes := plan.globalPendingBytes }.trimReplayIds σ

structure RollbackPlan where
  pending : PendingApplication
  roomPendingBytes : Nat
  roomDeliveryBytes : Nat
  roomSnapshotBytes : Nat
  globalPendingCount : Nat
  globalPendingBytes : Nat
  globalDeliveryCount : Nat
  globalDeliveryBytes : Nat
  globalSnapshotCount : Nat
  globalSnapshotBytes : Nat

def rollbackPlan (s : RoomAuthority) (room : RelayRoom) (messageId : Text) :
    Except String RollbackPlan := do
  let pending ← okOr (room.pendingApplications.get? messageId) "application admission unavailable"
  let bytes ← settledBytes pending messageId
  let roomPendingBytes ← okOr (checkedSub room.pendingBytes bytes)
    "pending application accounting rejected"
  let removed := room.deliveries.values.map fun queue => queue.filter fun d =>
    d.messageId = messageId
  let removedDeliveryCount ← okOr (checkedSum (removed.map List.length))
    "delivery accounting rejected"
  let removedDeliveryBytes ← deliveryBytes removed.flatten
  let roomDeliveryBytes ← okOr (checkedSub room.deliveryBytes removedDeliveryBytes)
    "delivery accounting rejected"
  let currentSnapshotBytes ← snapshotBytesOf room pending.senderCodeId
  let restoredSnapshotBytes ← optionalSnapshotSize pending.previousSnapshot
  let roomSnapshotBytes ← okOr ((checkedSub room.snapshotBytes currentSnapshotBytes).bind
    fun bytes => checkedAdd bytes restoredSnapshotBytes) "state snapshot accounting rejected"
  let globalPendingCount ← okOr (checkedSub s.globalPendingCount 1)
    "pending application accounting rejected"
  let globalPendingBytes ← okOr (checkedSub s.globalPendingBytes bytes)
    "pending application accounting rejected"
  let globalDeliveryCount ← okOr (checkedSub s.globalDeliveryCount removedDeliveryCount)
    "delivery accounting rejected"
  let globalDeliveryBytes ← okOr (checkedSub s.globalDeliveryBytes removedDeliveryBytes)
    "delivery accounting rejected"
  let globalSnapshotCount ← okOr ((checkedSub s.globalSnapshotCount
    (if room.snapshots.contains pending.senderCodeId then 1 else 0)).bind
      fun count => checkedAdd count (if pending.previousSnapshot.isSome then 1 else 0))
    "state snapshot accounting rejected"
  let globalSnapshotBytes ← okOr ((checkedSub s.globalSnapshotBytes currentSnapshotBytes).bind
    fun bytes => checkedAdd bytes restoredSnapshotBytes) "state snapshot accounting rejected"
  .ok { pending, roomPendingBytes, roomDeliveryBytes, roomSnapshotBytes, globalPendingCount
        globalPendingBytes, globalDeliveryCount, globalDeliveryBytes, globalSnapshotCount
        globalSnapshotBytes }

def retractFrom (messageId : Text) : List CodeId → RelayRoom → RelayRoom × Except String Unit
  -- The queue edits of a rollback stop at the first queue that cannot be renumbered, with that
  -- queue already filtered.
  | [], room => (room, .ok ())
  | codeId :: codeIds, room =>
    let room := { room with
      deliveries := room.deliveries.modify codeId (RelayRoom.withoutMessage messageId) }
    match compactDeliveryRevisions room codeId with
    | .error reason => (room, .error reason)
    | .ok room => retractFrom messageId codeIds room

def rollbackRoom (room : RelayRoom) (plan : RollbackPlan) : RelayRoom :=
  { room.dropEmptyQueues.restoreSender plan.pending with
    deliveryBytes := plan.roomDeliveryBytes
    snapshotBytes := plan.roomSnapshotBytes
    pendingBytes := plan.roomPendingBytes }

def rollbackApplication (σ : HashOrder) (s : RoomAuthority) (roomId messageId : Text) :
    Outcome Unit :=
  match s.rooms.get? roomId with
  | none => (s, .error "room unavailable")
  | some room =>
    match s.rollbackPlan room messageId with
    | .error reason => (s, .error reason)
    | .ok plan =>
      let room := { room with pendingApplications := room.pendingApplications.erase messageId }
      match retractFrom messageId (σ.codes room.roomId room.deliveries.keys) room with
      | (room, .error reason) => ({ s with rooms := s.rooms.insert roomId room }, .error reason)
      | (room, .ok ()) =>
        ({ s with
          rooms := s.rooms.insert roomId (rollbackRoom room plan)
          globalPendingCount := plan.globalPendingCount
          globalPendingBytes := plan.globalPendingBytes
          globalDeliveryCount := plan.globalDeliveryCount
          globalDeliveryBytes := plan.globalDeliveryBytes
          globalSnapshotCount := plan.globalSnapshotCount
          globalSnapshotBytes := plan.globalSnapshotBytes }, .ok ())

end RoomAuthority
end Abyssal.Rooms
