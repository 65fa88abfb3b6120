import Abyssal.Rooms.Application

/-! Room views, and the snapshot by which a member acknowledges a prefix of its queue. -/

namespace Abyssal.Rooms

structure RecoverySnapshot where
  active : Bool
  epoch : Nat
  revision : Nat
  membershipDigest : Bytes
  stateEnvelope : Bytes
  roster : List RosterMember

structure RoomInfo where
  roomId : Text
  ownerUsername : Text
  groupId : Bytes
  active : Bool
  synchronized : Bool
  epoch : Nat
  revision : Nat
  recoverySnapshot : Option RecoverySnapshot
  membershipDigest : Bytes
  roster : List RosterMember
  policy : RoomPolicy
  visibility : RoomVisibility

def RelayRoom.isActiveMember (room : RelayRoom) (codeId : CodeId) : Bool :=
  room.members.values.any fun m => m.codeId = codeId && m.active

def RelayRoom.synchronizedFor (room : RelayRoom) (codeId : CodeId) : Bool :=
  room.isActiveMember codeId && (room.queueOf codeId).isEmpty &&
  !(room.expiredSenderGaps.entries.any fun e =>
    (ofLex e.1).1 = codeId && maxRatchetBackHistory < e.2) &&
  match room.snapshots.get? codeId with
  | none => false
  | some snapshot =>
    room.memberRevisions.get? codeId = some snapshot.revision &&
    snapshot.epoch = room.epoch && snapshot.membershipDigest = room.membershipDigest &&
    (match rostersMatchRoom snapshot.roster room with
      | .ok b => b
      | .error _ => false)

def roomInfoFor (room : RelayRoom) (memberCodeId : Option CodeId) (includeRoster : Bool) :
    RoomInfo :=
  let active := (memberCodeId.map room.isActiveMember).getD false
  { roomId := room.roomId
    ownerUsername := room.ownerUsername
    groupId := room.groupId
    active := active
    synchronized := (memberCodeId.map room.synchronizedFor).getD false
    epoch := room.epoch
    revision := (memberCodeId.bind room.memberRevisions.get?).getD 0
    recoverySnapshot := (memberCodeId.bind room.snapshots.get?).map fun snapshot =>
      { active, epoch := snapshot.epoch, revision := snapshot.revision
        membershipDigest := snapshot.membershipDigest
        stateEnvelope := snapshot.stateEnvelope, roster := snapshot.roster }
    membershipDigest := room.membershipDigest
    roster := if includeRoster then
      room.members.values.map fun m =>
        { username := m.username, stableIdentity := m.stableIdentity } else []
    policy := room.policy
    visibility := room.visibility }

structure StoreArgs where
  memberCodeId : CodeId
  roomId : Text
  messageId : Text
  epoch : Nat
  revision : Nat
  membershipDigest : Bytes
  stateEnvelope : Bytes

def retireLoop (revision : Nat) : List PendingDelivery → Nat → Nat → Except String Nat
  -- The acknowledged prefix: its deliveries must carry the revisions `expected`, …, `revision`.
  | [], _, _ => .error "state snapshot delivery order rejected"
  | d :: queue, expected, retired => do
    rejectIf (d.revision ≠ expected) "state snapshot delivery order rejected"
    let retired ← okOr (checkedAdd retired 1) "delivery retirement exhausted"
    if expected = revision then .ok retired
    else do
      let expected ← okOr (checkedAdd expected 1) "delivery revision exhausted"
      retireLoop revision queue expected retired

def checkWelcome (room : RelayRoom) (a : StoreArgs) (queue : List PendingDelivery)
    (currentRevision : Nat) : Except String Nat := do
  -- An inactive member acknowledges exactly its welcome.
  let welcome ← okOr queue.head? "state snapshot welcome unavailable"
  rejectIf (a.revision ≠ currentRevision ∨ welcome.revision ≠ a.revision)
    "state snapshot delivery order rejected"
  rejectIf (welcome.messageId ≠ a.messageId) "state snapshot message rejected"
  rejectIf (welcome.epoch ≠ a.epoch ∨ welcome.membershipDigest ≠ a.membershipDigest)
    "state snapshot delivery checkpoint rejected"
  match welcome.payload with
  | .membership _ _ groupId _ _ welcome _ =>
    if groupId = room.groupId ∧ welcome ≠ [] then .ok 1
    else .error "state snapshot welcome rejected"
  | .application .. => .error "state snapshot welcome rejected"

def retireCount (room : RelayRoom) (a : StoreArgs) (queue : Option (List PendingDelivery))
    (currentRevision : Nat) : Except String Nat :=
  if !room.memberActive a.memberCodeId then checkWelcome room a (queue.getD []) currentRevision
  else if currentRevision < a.revision then do
    let queue ← okOr queue "state snapshot delivery unavailable"
    let expected ← okOr (checkedAdd currentRevision 1) "delivery revision exhausted"
    let retired ← retireLoop a.revision queue expected 0
    rejectIf (queue[retired - 1]?.map PendingDelivery.messageId ≠ some a.messageId)
      "state snapshot message rejected"
    .ok retired
  else .ok 0

def checkCheckpoint (room : RelayRoom) (a : StoreArgs) (queue : Option (List PendingDelivery))
    (currentRevision retired : Nat) : Except String Unit :=
  -- The snapshot stands at the last retired delivery, or repeats the stored one.
  if !room.memberActive a.memberCodeId then .ok ()
  else if 0 < retired then do
    let target ← okOr (queue.bind fun queue => queue[retired - 1]?)
      "state snapshot delivery unavailable"
    rejectIf (target.epoch ≠ a.epoch ∨ target.membershipDigest ≠ a.membershipDigest)
      "state snapshot delivery checkpoint rejected"
  else
    match room.snapshots.get? a.memberCodeId with
    | some existing =>
      rejectIf (existing.epoch ≠ a.epoch ∨ existing.revision ≠ a.revision ∨
        existing.messageId ≠ a.messageId ∨ existing.membershipDigest ≠ a.membershipDigest ∨
        existing.stateEnvelope ≠ a.stateEnvelope) "state snapshot checkpoint rejected"
    | none =>
      rejectIf (room.epoch ≠ a.epoch ∨ room.membershipDigest ≠ a.membershipDigest ∨
        currentRevision ≠ a.revision) "state snapshot checkpoint unavailable"

def rosterAfterStep (roster : List RosterMember) (d : PendingDelivery) :
    Except String (List RosterMember) :=
  -- The roster after the retired deliveries: that of the last membership among them.
  match d.payload with
  | .membership _ _ _ next _ _ _ => do
    let _ ← rosterMap next
    .ok next
  | .application .. => .ok roster

def rosterAfter (room : RelayRoom) (a : StoreArgs) (retiring : List PendingDelivery)
    (retired : Nat) : Except String (List RosterMember) := do
  let stored := ((room.snapshots.get? a.memberCodeId).map StateSnapshot.roster).getD []
  let roster ← foldChecked rosterAfterStep stored retiring
  if roster = [] ∧ room.memberActive a.memberCodeId ∧ retired = 0 then canonicalRoomRoster room
  else .ok roster

def checkRoster (room : RelayRoom) (a : StoreArgs) (roster : List RosterMember) :
    Except String Unit :=
  if roster = [] then .error "state snapshot roster rejected"
  else if a.epoch = room.epoch ∧ a.membershipDigest = room.membershipDigest then do
    let same ← rostersMatchRoom roster room
    rejectIf (¬ same) "state snapshot roster rejected"
  else .ok ()

def DeliveryPayload.sender? : DeliveryPayload → Option CodeId
  | .application sender _ _ _ _ => some sender
  | .membership .. => none

structure StorePlan where
  snapshot : StateSnapshot
  memberUsername : Text
  retired : Nat
  retiring : List PendingDelivery
  roomDeliveryBytes : Nat
  roomSnapshotBytes : Nat
  globalDeliveryCount : Nat
  globalDeliveryBytes : Nat
  globalSnapshotCount : Nat
  globalSnapshotBytes : Nat

namespace RoomAuthority

def storePlan (s : RoomAuthority) (now : Nat) (room : RelayRoom) (a : StoreArgs) :
    Except String StorePlan := do
  rejectIf (¬ room.members.values.any fun m => m.codeId = a.memberCodeId) "room member required"
  let currentRevision := room.revisionOf a.memberCodeId
  let queue := room.deliveries.get? a.memberCodeId
  let maxQueuedRevision :=
    ((queue.bind List.getLast?).map PendingDelivery.revision).getD currentRevision
  rejectIf (a.revision < currentRevision ∨ maxQueuedRevision < a.revision)
    "state snapshot revision rejected"
  let retired ← retireCount room a queue currentRevision
  checkCheckpoint room a queue currentRevision retired
  let retiring := (queue.getD []).take retired
  let roster ← rosterAfter room a retiring retired
  checkRoster room a roster
  rejectIf (maxStateSnapshots ≤ room.snapshots.size ∧ ¬ room.snapshots.contains a.memberCodeId)
    "state snapshot limit reached"
  let previousBytes ← snapshotBytesOf room a.memberCodeId
  let rosterBytes ← rosterSize roster
  let nextSnapshotBytes ← okOr (checkedAdd a.stateEnvelope.length rosterBytes)
    "state snapshot bytes limit reached"
  let isNew := if room.snapshots.contains a.memberCodeId then 0 else 1
  let nextRoomSnapshotBytes := (checkedSub room.snapshotBytes previousBytes).bind
    fun bytes => checkedAdd bytes nextSnapshotBytes
  let nextGlobalSnapshotCount := checkedAdd s.globalSnapshotCount isNew
  let nextGlobalSnapshotBytes := (checkedSub s.globalSnapshotBytes previousBytes).bind
    fun bytes => checkedAdd bytes nextSnapshotBytes
  rejectIf (exceeds nextRoomSnapshotBytes maxStateBytes) "state snapshot bytes limit reached"
  rejectIf (exceeds nextGlobalSnapshotCount maxGlobalStateSnapshots ∨
    exceeds nextGlobalSnapshotBytes maxGlobalStateBytes) "global state snapshot budget reached"
  let roomSnapshotBytes ← okOr nextRoomSnapshotBytes "state snapshot bytes limit reached"
  let globalSnapshotCount ← okOr nextGlobalSnapshotCount "global state snapshot budget reached"
  let globalSnapshotBytes ← okOr nextGlobalSnapshotBytes "global state snapshot budget reached"
  let removedBytes ← deliveryBytes retiring
  let roomDeliveryBytes ← okOr (checkedSub room.deliveryBytes removedBytes)
    "delivery accounting rejected"
  let globalDeliveryCount ← okOr (checkedSub s.globalDeliveryCount retired)
    "delivery accounting rejected"
  let globalDeliveryBytes ← okOr (checkedSub s.globalDeliveryBytes removedBytes)
    "delivery accounting rejected"
  let snapshot : StateSnapshot :=
    { roomId := a.roomId, messageId := a.messageId, memberCodeId := a.memberCodeId
      epoch := a.epoch, revision := a.revision, membershipDigest := a.membershipDigest
      stateEnvelope := a.stateEnvelope, roster, createdAtMs := now, expiresAtMs := wordMax }
  let member ← okOr (room.members.entries.find? fun e => e.2.codeId = a.memberCodeId)
    "room member required"
  rejectIf (0 < retired ∧ queue.isNone) "state snapshot delivery unavailable"
  rejectIf (0 < retired ∧ (queue.getD []).length < retired)
    "state snapshot delivery order rejected"
  .ok { snapshot, memberUsername := member.1, retired, retiring, roomDeliveryBytes
        roomSnapshotBytes, globalDeliveryCount, globalDeliveryBytes, globalSnapshotCount
        globalSnapshotBytes }

def storedGaps (room : RelayRoom) (memberCodeId : CodeId) (retiring : List PendingDelivery) :
    OrdMap (CodeId ×ₗ CodeId) Nat :=
  -- A retired message closes the gap of its sender; a retired membership closes all of them.
  let gaps := (retiring.filterMap fun d => d.payload.sender?).foldl
    (fun gaps sender => gaps.erase (toLex (memberCodeId, sender))) room.expiredSenderGaps
  if retiring.any fun d => d.payload.sender?.isNone then
    gaps.filter fun pair _ => (ofLex pair).1 ≠ memberCodeId
  else gaps

def storeRoom (room : RelayRoom) (a : StoreArgs) (plan : StorePlan) : RelayRoom :=
  { room with
    members := room.members.modify plan.memberUsername fun m => { m with active := true }
    deliveries := if 0 < plan.retired then
      room.deliveries.modify a.memberCodeId fun queue => queue.drop plan.retired
      else room.deliveries
    expiredSenderGaps := storedGaps room a.memberCodeId plan.retiring
    deliveryBytes := plan.roomDeliveryBytes
    memberRevisions := room.memberRevisions.insert a.memberCodeId a.revision
    snapshotBytes := plan.roomSnapshotBytes
    snapshots := room.snapshots.insert a.memberCodeId plan.snapshot }

def validateStore (a : StoreArgs) : Except String Unit := do
  validateRequestId a.messageId
  validateDigest a.membershipDigest
  validateStateEnvelope a.stateEnvelope

def storeSnapshot (σ : HashOrder) (now : Nat) (s : RoomAuthority) (a : StoreArgs) :
    Outcome StateSnapshot :=
  -- The gap pairs are counted again only after the room has changed.
  let s := s.pruneExpired σ now
  match validateStore a with
  | .error reason => (s, .error reason)
  | .ok () =>
    match s.rooms.get? a.roomId with
    | none => (s, .error "room unavailable")
    | some room =>
      match s.storePlan now room a with
      | .error reason => (s, .error reason)
      | .ok plan =>
        let s := { s with
          rooms := s.rooms.insert a.roomId (storeRoom room a plan)
          globalDeliveryCount := plan.globalDeliveryCount
          globalDeliveryBytes := plan.globalDeliveryBytes
          globalSnapshotCount := plan.globalSnapshotCount
          globalSnapshotBytes := plan.globalSnapshotBytes }
        match s.recomputeGapAccounting with
        | .error reason => (s, .error reason)
        | .ok s => (s, .ok plan.snapshot)

end RoomAuthority
end Abyssal.Rooms
