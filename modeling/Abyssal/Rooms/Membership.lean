import Abyssal.Rooms.Prune

/-! Join and leave requests, and membership transitions in two steps: the owner
stages a transition against the current checkpoint, then has it accepted. -/

namespace Abyssal.Rooms

abbrev Outcome (α : Type) := RoomAuthority × Except String α

def exceeds (count : Option Nat) (limit : Nat) : Bool :=
  match count with
  | none => true
  | some n => limit < n

def pushReplay (replayIds : List (ReplayKey × Nat)) (key : ReplayKey) (now : Nat) :
    List (ReplayKey × Nat) :=
  (if maxReplayIds ≤ replayIds.length then replayIds.tail else replayIds) ++ [(key, now)]

def pushDelivery (deliveries : OrdMap CodeId (List PendingDelivery)) (d : PendingDelivery) :
    OrdMap CodeId (List PendingDelivery) :=
  deliveries.insert d.recipientCodeId
    ((deliveries.get? d.recipientCodeId).getD [] ++ [d])

def optionalSnapshotSize : Option StateSnapshot → Except String Nat
  | none => .ok 0
  | some snapshot => snapshotSize snapshot

def snapshotBytesOf (room : RelayRoom) (codeId : CodeId) : Except String Nat :=
  optionalSnapshotSize (room.snapshots.get? codeId)

def RelayRoom.replayed (room : RelayRoom) (key : ReplayKey) : Bool :=
  room.replayIds.any fun e => e.1 = key

def RelayRoom.knows (room : RelayRoom) (codeId : CodeId) : Bool :=
  room.members.values.any (fun m => m.codeId = codeId) ||
    room.joins.values.any (fun join => join.request.codeId = codeId)

structure JoinArgs where
  codeId : CodeId
  username : Text
  roomId : Text
  requestId : Text
  stableIdentity : Bytes
  keyPackage : Bytes
  stateEnvelope : Bytes

def JoinArgs.toRequest (a : JoinArgs) (now expiresAtMs : Nat) : JoinRequest :=
  { requestId := a.requestId, roomId := a.roomId, codeId := a.codeId, username := a.username
    stableIdentity := a.stableIdentity, keyPackage := a.keyPackage
    createdAtMs := now, expiresAtMs }

def PendingJoin.conflictsWith (join : PendingJoin) (canonical : Text) (a : JoinArgs) : Bool :=
  (match canonicalUsername join.request.username with
    | .ok username => username = canonical
    | .error _ => false) ||
  join.request.codeId = a.codeId || join.request.stableIdentity = a.stableIdentity

namespace RoomAuthority

def leavePlan (s : RoomAuthority) (now : Nat) (codeId : CodeId) (roomId requestId : Text)
    (expiresAtMs : Nat) : Except String (RelayRoom × LeaveRequest) := do
  validateRequestId requestId
  let globalLeaveCount ← okOr (checkedSum (s.rooms.values.map fun room => room.leaves.size))
    "leave request limit reached"
  let room ← okOr (s.rooms.get? roomId) "room unavailable"
  rejectIf (room.ownerCodeId = codeId) "room owner cannot leave"
  let member ← okOr (room.members.values.find? fun m => m.codeId = codeId && m.active)
    "active room member required"
  rejectIf (room.joins.contains requestId) "membership request already exists"
  match room.leaves.get? requestId with
  | some existing =>
    if existing.codeId = codeId ∧ existing.username = member.username then .ok (room, existing)
    else .error "leave request already exists"
  | none => do
    rejectIf (maxLeaveRequests ≤ room.leaves.size ∨ maxGlobalLeaveRequests ≤ globalLeaveCount ∨
      room.leaves.values.any fun leave => leave.codeId = codeId) "leave request limit reached"
    let request : LeaveRequest :=
      { requestId, roomId, codeId, username := member.username
        stableIdentity := member.stableIdentity, createdAtMs := now, expiresAtMs }
    .ok ({ room with leaves := room.leaves.insert requestId request }, request)

def requestLeave (σ : HashOrder) (now : Nat) (s : RoomAuthority) (codeId : CodeId)
    (roomId requestId : Text) : Outcome LeaveRequest :=
  let expiresAtMs := saturatingAdd now s.joinTtlMs
  let s := s.pruneExpired σ now
  match s.leavePlan now codeId roomId requestId expiresAtMs with
  | .error reason => (s, .error reason)
  | .ok (room, request) => ({ s with rooms := s.rooms.insert roomId room }, .ok request)

def removeLeavePlan (s : RoomAuthority) (ownerCodeId : CodeId) (roomId requestId : Text) :
    Except String (RelayRoom × LeaveRequest) := do
  let room ← okOr (s.rooms.get? roomId) "room unavailable"
  rejectIf (room.ownerCodeId ≠ ownerCodeId) "room owner required"
  let request ← okOr (room.leaves.get? requestId) "leave request unavailable"
  .ok ({ room with leaves := room.leaves.erase requestId }, request)

def removeLeave (σ : HashOrder) (now : Nat) (s : RoomAuthority) (ownerCodeId : CodeId)
    (roomId requestId : Text) : Outcome LeaveRequest :=
  let s := s.pruneExpired σ now
  match s.removeLeavePlan ownerCodeId roomId requestId with
  | .error reason => (s, .error reason)
  | .ok (room, request) => ({ s with rooms := s.rooms.insert roomId room }, .ok request)

def removeJoinPlan (s : RoomAuthority) (ownerCodeId : CodeId) (roomId requestId : Text) :
    Except String (RelayRoom × JoinRequest) := do
  let room ← okOr (s.rooms.get? roomId) "room unavailable"
  rejectIf (room.ownerCodeId ≠ ownerCodeId) "room owner required"
  let join ← okOr (room.joins.get? requestId) "join request unavailable"
  .ok ({ room with joins := room.joins.erase requestId }, join.request)

def removeJoin (σ : HashOrder) (now : Nat) (s : RoomAuthority) (ownerCodeId : CodeId)
    (roomId requestId : Text) : Outcome JoinRequest :=
  -- The request is gone before the counters are taken again, so a failed count loses it.
  let s := s.pruneExpired σ now
  match s.removeJoinPlan ownerCodeId roomId requestId with
  | .error reason => (s, .error reason)
  | .ok (room, request) =>
    let s := { s with rooms := s.rooms.insert roomId room }
    match s.recomputeStateAccounting with
    | .error reason => (s, .error reason)
    | .ok s => (s, .ok request)

structure JoinPlan where
  room : RelayRoom
  request : JoinRequest
  globalStateCount : Nat
  globalStateBytes : Nat

def joinPlan (s : RoomAuthority) (now : Nat) (a : JoinArgs) : Except String JoinPlan := do
  validateUsername a.username
  validateRequestId a.requestId
  validateStableIdentity a.stableIdentity
  rejectIf (a.keyPackage = [] ∨ maxKeyPackageBytes < a.keyPackage.length) "key package rejected"
  validateStateEnvelope a.stateEnvelope
  let memberRoomCount := (s.rooms.values.filter fun room => room.knows a.codeId).length
  let alreadyPresent := ((s.rooms.get? a.roomId).map fun room => room.knows a.codeId).getD false
  rejectIf (¬ alreadyPresent ∧ maxRoomsPerMember ≤ memberRoomCount) "member room limit reached"
  let room ← okOr (s.rooms.get? a.roomId) "room unavailable"
  rejectIf (room.leaves.contains a.requestId) "membership request already exists"
  let canonical ← canonicalUsername a.username
  rejectIf (room.members.contains canonical ∨ room.members.values.any fun m =>
    m.codeId = a.codeId || m.stableIdentity = a.stableIdentity) "room member already exists"
  rejectIf (maxJoinRequests ≤ room.joins.size ∧ ¬ room.joins.contains a.requestId)
    "join request limit reached"
  rejectIf ((room.joins.values.any fun join => join.conflictsWith canonical a) ∧
    ¬ room.joins.contains a.requestId) "join request already exists"
  match room.joins.get? a.requestId with
  | some existing =>
    if existing.request.codeId = a.codeId ∧ existing.request.username = a.username ∧
        existing.request.stableIdentity = a.stableIdentity ∧
        existing.request.keyPackage = a.keyPackage ∧
        existing.stateEnvelope = a.stateEnvelope then
      .ok ⟨room, existing.request, s.globalSnapshotCount, s.globalSnapshotBytes⟩
    else .error "join request already exists"
  | none => do
    let stateCount ← okOr ((checkedAdd room.snapshots.size room.joins.size).bind
      fun count => checkedAdd count 1) "state snapshot budget reached"
    let joinBytes ← okOr (checkedSum (room.joins.values.map fun join => join.stateEnvelope.length))
      "state snapshot budget reached"
    let stateBytes ← okOr ((checkedAdd room.snapshotBytes joinBytes).bind
      fun bytes => checkedAdd bytes a.stateEnvelope.length) "state snapshot budget reached"
    rejectIf (maxStateSnapshots < stateCount ∨ maxStateBytes < stateBytes)
      "state snapshot budget reached"
    let globalStateCount ← okOr (checkedAdd s.globalSnapshotCount 1)
      "global state snapshot budget reached"
    let globalStateBytes ← okOr (checkedAdd s.globalSnapshotBytes a.stateEnvelope.length)
      "global state snapshot budget reached"
    rejectIf (maxGlobalStateSnapshots < globalStateCount ∨ maxGlobalStateBytes < globalStateBytes)
      "global state snapshot budget reached"
    let request := a.toRequest now (saturatingAdd now s.joinTtlMs)
    .ok ⟨{ room with joins := room.joins.insert a.requestId ⟨request, a.stateEnvelope⟩ },
      request, globalStateCount, globalStateBytes⟩

def requestJoin (σ : HashOrder) (now : Nat) (s : RoomAuthority) (a : JoinArgs) :
    Outcome JoinRequest :=
  let s := s.pruneExpired σ now
  match s.joinPlan now a with
  | .error reason => (s, .error reason)
  | .ok plan =>
    ({ s with
      rooms := s.rooms.insert a.roomId plan.room
      globalSnapshotCount := plan.globalStateCount
      globalSnapshotBytes := plan.globalStateBytes }, .ok plan.request)

def checkAddition (room : RelayRoom) (transition : MembershipTransition)
    (next : OrdMap Text Member) (changed : Text) : Except String Unit := do
  -- An addition needs a welcome and the join request of exactly the added member.
  rejectIf (transition.welcome = []) "membership welcome rejected"
  let requestId ← okOr transition.requestId "join request required"
  let join ← okOr (room.joins.get? requestId) "join request unavailable"
  let canonical ← canonicalUsername join.request.username
  rejectIf (canonical ≠ changed ∨
    (next.get? changed).map Member.stableIdentity ≠ some join.request.stableIdentity)
    "join request binding rejected"
  let member ← okOr (next.get? changed) "join request binding rejected"
  rejectIf (member.stableIdentity ≠ join.request.stableIdentity ∨
    member.codeId ≠ join.request.codeId) "join request binding rejected"

def checkRemoval (room : RelayRoom) (transition : MembershipTransition) (changed : Text) :
    Except String Unit := do
  -- A removal carries no welcome; a named leave request must be that of the removed member.
  rejectIf (transition.welcome ≠ []) "membership welcome rejected"
  match transition.requestId with
  | none => .ok ()
  | some requestId => do
    let leave ← okOr (room.leaves.get? requestId) "leave request unavailable"
    let member ← okOr (room.members.get? changed) "leave request binding rejected"
    let canonical ← canonicalUsername leave.username
    rejectIf (canonical ≠ changed ∨ leave.codeId ≠ member.codeId ∨
      leave.stableIdentity ≠ member.stableIdentity) "leave request binding rejected"

def checkChange (room : RelayRoom) (transition : MembershipTransition)
    (next : OrdMap Text Member) (changed : Text) : Except String Unit :=
  if next.contains changed then checkAddition room transition next changed
  else checkRemoval room transition changed

def beginPlan (s : RoomAuthority) (now : Nat) (ownerCodeId : CodeId)
    (transition : MembershipTransition) : Except String (RelayRoom × MembershipTransition) := do
  validateTransition transition
  let room ← okOr (s.rooms.get? transition.roomId) "room unavailable"
  rejectIf (room.ownerCodeId ≠ ownerCodeId) "room owner required"
  rejectIf (room.queueOf ownerCodeId ≠ []) "owner delivery snapshot required"
  rejectIf (room.pendingApplications.size ≠ 0) "application admission in flight"
  rejectIf room.pendingTransition.isSome "membership transition already in flight"
  rejectIf (room.replayed ⟨.membership, transition.messageId⟩) "membership replay rejected"
  validateDigest transition.fromMembershipDigest
  validateCurrentMetadata room transition.groupId transition.fromEpoch
    transition.fromMembershipDigest
  let expectedEpoch ← okOr (checkedAdd transition.fromEpoch 1) "membership epoch rejected"
  rejectIf (transition.toEpoch ≠ expectedEpoch) "membership epoch rejected"
  let ownerRevision ← okOr (room.memberRevisions.get? ownerCodeId) "room owner unavailable"
  let expectedRevision ← okOr (checkedAdd ownerRevision 1) "membership revision rejected"
  rejectIf (transition.revision ≠ expectedRevision) "membership revision rejected"
  let next ← resolveNextRoster room transition
  let ownerUsername ← canonicalUsername room.ownerUsername
  rejectIf (maxMembers < next.size ∨ ¬ next.contains ownerUsername) "membership roster rejected"
  let changed := changedUsernames room.members next
  rejectIf (changed.length ≠ 1) "membership transition rejected"
  let changedUsername ← okOr changed.head? "membership transition rejected"
  checkChange room transition next changedUsername
  let staged := { transition with
    createdAtMs := now, expiresAtMs := saturatingAdd now s.pendingTtlMs }
  .ok ({ room with pendingTransition := some staged }, staged)

def beginMembership (σ : HashOrder) (now : Nat) (s : RoomAuthority) (ownerCodeId : CodeId)
    (transition : MembershipTransition) : Outcome MembershipTransition :=
  let s := s.pruneExpired σ now
  match s.beginPlan now ownerCodeId transition with
  | .error reason => (s, .error reason)
  | .ok (room, staged) => ({ s with rooms := s.rooms.insert transition.roomId room }, .ok staged)

structure AcceptPlan where
  transition : MembershipTransition
  next : OrdMap Text Member
  removedCodeIds : List CodeId
  deliveries : List PendingDelivery
  pendingJoin : Option (CodeId × Bytes)
  pendingLeave : Option LeaveRequest
  roomDeliveryBytes : Nat
  roomSnapshotBytes : Nat
  globalStateCount : Nat
  globalStateBytes : Nat

def removedCodes (room : RelayRoom) (next : OrdMap Text Member) : List CodeId :=
  ((room.deliveries.keys ++ room.snapshots.keys).filter
    fun c => ¬ next.values.any fun m => m.codeId = c).dedup

def stagedTransition (room : RelayRoom) (ownerCodeId : CodeId) (messageId : Text)
    (revision : Nat) : Except String MembershipTransition := do
  rejectIf (room.ownerCodeId ≠ ownerCodeId) "room owner required"
  let transition ← okOr room.pendingTransition "membership transition unavailable"
  rejectIf (transition.messageId ≠ messageId ∨ transition.revision ≠ revision)
    "membership result mismatch"
  .ok transition

def acceptPlan (s : RoomAuthority) (room : RelayRoom) (ownerCodeId : CodeId) (messageId : Text)
    (revision : Nat) : Except String AcceptPlan := do
  let transition ← stagedTransition room ownerCodeId messageId revision
  rejectIf (room.pendingApplications.size ≠ 0) "application admission in flight"
  rejectIf (room.replayed ⟨.membership, transition.messageId⟩) "membership replay rejected"
  let next ← resolveNextRoster room transition
  let removed := removedCodes room next
  let removedQueues := removed.filterMap room.deliveries.get?
  let removedDeliveryCount ← okOr (checkedSum (removedQueues.map List.length))
    "room delivery budget reached"
  let removedDeliveryBytes ← deliveryBytes removedQueues.flatten
  let removedSnapshotCount := (removed.filter room.snapshots.contains).length
  let removedSnapshotBytes ← RelayRoom.snapshotTotal (removed.filterMap room.snapshots.get?)
  let deliveries ← membershipDeliveries room transition next
  let queuedBytes ← deliveryBytes deliveries
  let roomDeliveryCount := ((checkedSum (room.deliveries.values.map List.length)).bind
    fun count => checkedSub count removedDeliveryCount).bind
      fun count => checkedAdd count deliveries.length
  let nextGlobalDeliveryCount := (checkedSub s.globalDeliveryCount removedDeliveryCount).bind
    fun count => checkedAdd count deliveries.length
  let nextGlobalDeliveryBytes := (checkedSub s.globalDeliveryBytes removedDeliveryBytes).bind
    fun bytes => checkedAdd bytes queuedBytes
  let nextRoomDeliveryBytes := (checkedSub room.deliveryBytes removedDeliveryBytes).bind
    fun bytes => checkedAdd bytes queuedBytes
  rejectIf (exceeds roomDeliveryCount maxDeliveriesPerRoom ∨
    exceeds nextGlobalDeliveryCount s.maxDeliveryCount ∨
    exceeds nextGlobalDeliveryBytes s.maxDeliveryBytes ∨ nextRoomDeliveryBytes.isNone)
    "room delivery budget reached"
  let previousSnapshotBytes ← snapshotBytesOf room ownerCodeId
  let rosterBytes ← rosterSize transition.roster
  let ownerSnapshotBytes ← okOr (checkedAdd transition.stateEnvelope.length rosterBytes)
    "state snapshot budget reached"
  let newSnapshot := if room.snapshots.contains ownerCodeId then 0 else 1
  let pendingJoin := (transition.requestId.bind room.joins.get?).map
    fun join => (join.request.codeId, join.stateEnvelope)
  let pendingLeave := transition.requestId.bind room.leaves.get?
  rejectIf (transition.requestId.isSome ∧ pendingJoin.isSome = pendingLeave.isSome)
    "membership request unavailable"
  let pendingJoinBytes := (pendingJoin.map fun join => join.2.length).getD 0
  let allJoinBytes ← okOr (checkedSum (room.joins.values.map fun join => join.stateEnvelope.length))
    "state snapshot budget reached"
  let joined := if pendingJoin.isSome then 1 else 0
  let roomStateCount := ((((checkedSub room.snapshots.size removedSnapshotCount).bind
    fun count => checkedAdd count room.joins.size).bind
      fun count => checkedSub count joined).bind
        fun count => checkedAdd count newSnapshot).bind
          fun count => checkedAdd count joined
  let globalStateCount := (checkedSub s.globalSnapshotCount removedSnapshotCount).bind
    fun count => checkedAdd count newSnapshot
  let nextRoomSnapshotBytes := (((checkedSub room.snapshotBytes removedSnapshotBytes).bind
    fun bytes => checkedSub bytes previousSnapshotBytes).bind
      fun bytes => checkedAdd bytes ownerSnapshotBytes).bind
        fun bytes => checkedAdd bytes pendingJoinBytes
  let roomStateBytes := (nextRoomSnapshotBytes.bind fun bytes => checkedAdd bytes allJoinBytes).bind
    fun bytes => checkedSub bytes pendingJoinBytes
  let globalStateBytes := ((checkedSub s.globalSnapshotBytes removedSnapshotBytes).bind
    fun bytes => checkedSub bytes previousSnapshotBytes).bind
      fun bytes => checkedAdd bytes ownerSnapshotBytes
  rejectIf (exceeds roomStateCount maxStateSnapshots ∨ exceeds roomStateBytes maxStateBytes ∨
    exceeds globalStateCount maxGlobalStateSnapshots ∨
    exceeds globalStateBytes maxGlobalStateBytes) "state snapshot budget reached"
  let roomDeliveryBytes ← okOr nextRoomDeliveryBytes "room delivery budget reached"
  let roomSnapshotBytes ← okOr nextRoomSnapshotBytes "state snapshot budget reached"
  let globalStateCount ← okOr globalStateCount "state snapshot budget reached"
  let globalStateBytes ← okOr globalStateBytes "state snapshot budget reached"
  .ok { transition, next, removedCodeIds := removed, deliveries, pendingJoin, pendingLeave,
        roomDeliveryBytes, roomSnapshotBytes, globalStateCount, globalStateBytes }

/-- The clock readings of one acceptance, in program order. -/
structure AcceptClock where
  now : Nat
  replayedAt : Nat
  storedAt : Nat
  joinedAt : Nat

def ownerSnapshot (room : RelayRoom) (ownerCodeId : CodeId) (transition : MembershipTransition)
    (storedAt : Nat) : StateSnapshot :=
  { roomId := room.roomId
    messageId := transition.messageId
    memberCodeId := ownerCodeId
    epoch := transition.toEpoch
    revision := transition.revision
    membershipDigest := transition.membershipDigest
    stateEnvelope := transition.stateEnvelope
    roster := transition.roster
    createdAtMs := storedAt
    expiresAtMs := wordMax }

def joinSnapshot (room : RelayRoom) (memberCodeId : CodeId) (stateEnvelope : Bytes)
    (joinedAt : Nat) : StateSnapshot :=
  -- A joining member starts from the state it uploaded with its request.
  { roomId := room.roomId
    messageId := []
    memberCodeId := memberCodeId
    epoch := 0
    revision := 0
    membershipDigest := []
    stateEnvelope := stateEnvelope
    roster := []
    createdAtMs := joinedAt
    expiresAtMs := wordMax }

def acceptedRevisions (room : RelayRoom) (ownerCodeId : CodeId) (plan : AcceptPlan) :
    OrdMap CodeId Nat :=
  let memberCodes := plan.next.values.map Member.codeId
  let revisions := (room.memberRevisions.insert ownerCodeId plan.transition.revision).filter
    fun c _ => c ∈ memberCodes
  memberCodes.foldl (fun revisions c =>
    if revisions.contains c then revisions else revisions.insert c 0) revisions

def acceptRoom (clock : AcceptClock) (room : RelayRoom) (ownerCodeId : CodeId)
    (plan : AcceptPlan) : RelayRoom :=
  let transition := plan.transition
  let memberCodes := plan.next.values.map Member.codeId
  let deliveries := plan.removedCodeIds.foldl OrdMap.erase room.deliveries
  let snapshots := plan.removedCodeIds.foldl OrdMap.erase room.snapshots
  let leaves := room.leaves.filter fun _ leave => leave.codeId ∈ memberCodes
  let snapshots := snapshots.insert ownerCodeId
    (ownerSnapshot room ownerCodeId transition clock.storedAt)
  let room := { room with
    pendingTransition := none
    replayIds := pushReplay room.replayIds ⟨.membership, transition.messageId⟩ clock.replayedAt
    deliveries := plan.deliveries.foldl pushDelivery deliveries
    deliveryBytes := plan.roomDeliveryBytes
    members := plan.next
    -- Secret-tree generations restart at each epoch, so no gap is carried over.
    expiredSenderGaps := .empty
    epoch := transition.toEpoch
    memberRevisions := acceptedRevisions room ownerCodeId plan
    leaves := leaves
    membershipDigest := transition.membershipDigest
    snapshotBytes := plan.roomSnapshotBytes
    snapshots := snapshots }
  match transition.requestId, plan.pendingJoin, plan.pendingLeave with
  | some requestId, some (memberCodeId, stateEnvelope), _ =>
    { room with
      joins := room.joins.erase requestId
      snapshots := room.snapshots.insert memberCodeId
        (joinSnapshot room memberCodeId stateEnvelope clock.joinedAt) }
  | some requestId, none, some _ => { room with leaves := room.leaves.erase requestId }
  | _, _, _ => room

def settleAcceptance (σ : HashOrder) (s : RoomAuthority) (plan : AcceptPlan) :
    Outcome MembershipResult :=
  -- What follows the change of the room: trimming, the counters, and the gap count.
  match s.trimReplayIds σ with
  | (s, .error reason) => (s, .error reason)
  | (s, .ok ()) =>
    let s := { s with
      globalSnapshotCount := plan.globalStateCount
      globalSnapshotBytes := plan.globalStateBytes
      globalDeliveryCount := (checkedSum (s.rooms.values.flatMap
        fun (room : RelayRoom) => room.deliveries.values.map List.length)).getD wordMax
      globalDeliveryBytes :=
        (checkedSum (s.rooms.values.map RelayRoom.deliveryBytes)).getD wordMax }
    match s.recomputeGapAccounting with
    | .error reason => (s, .error reason)
    | .ok s => (s, .ok (.accepted plan.transition))

def acceptMembership (σ : HashOrder) (clock : AcceptClock) (s : RoomAuthority)
    (ownerCodeId : CodeId) (roomId messageId : Text) (revision : Nat) :
    Outcome MembershipResult :=
  let s := s.pruneExpired σ clock.now
  match s.rooms.get? roomId with
  | none => (s, .error "room unavailable")
  | some room =>
    match s.acceptPlan room ownerCodeId messageId revision with
    | .error reason => (s, .error reason)
    | .ok plan =>
      settleAcceptance σ { s with
        rooms := s.rooms.insert roomId (acceptRoom clock room ownerCodeId plan) } plan

def rollbackMembershipPlan (s : RoomAuthority) (ownerCodeId : CodeId) (roomId messageId : Text)
    (revision : Nat) : Except String RelayRoom := do
  let room ← okOr (s.rooms.get? roomId) "room unavailable"
  let _ ← stagedTransition room ownerCodeId messageId revision
  .ok { room with pendingTransition := none }

def rollbackMembership (σ : HashOrder) (now : Nat) (s : RoomAuthority) (ownerCodeId : CodeId)
    (roomId messageId : Text) (revision : Nat) : Outcome MembershipResult :=
  let s := s.pruneExpired σ now
  match s.rollbackMembershipPlan ownerCodeId roomId messageId revision with
  | .error reason => (s, .error reason)
  | .ok room =>
    ({ s with rooms := s.rooms.insert roomId room }, .ok (.rolledBack messageId revision))

end RoomAuthority
end Abyssal.Rooms
