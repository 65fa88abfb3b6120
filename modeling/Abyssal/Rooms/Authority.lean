import Abyssal.Rooms.Snapshot

/-! The room authority as a machine: creation, deletion and wipe, the operations as one
type of calls, and runs of calls. -/

namespace Abyssal.Rooms
namespace RoomAuthority

def newWithPendingTtl (maxRooms pendingTtlMs : Nat) : RoomAuthority :=
  { rooms := .empty
    maxRooms := max maxRooms 1
    joinTtlMs := defaultJoinTtlMs
    pendingTtlMs := pendingTtlMs
    replayTtlMs := defaultReplayTtlMs
    maxDeliveryCount := maxGlobalDeliveries
    maxDeliveryBytes := maxGlobalDeliveryBytes
    globalPendingBytes := 0
    globalPendingCount := 0
    globalSnapshotBytes := 0
    globalSnapshotCount := 0
    globalReplayCount := 0
    globalDeliveryBytes := 0
    globalDeliveryCount := 0
    globalExpiredGapPairs := 0 }

structure CreateArgs where
  ownerCodeId : CodeId
  ownerUsername : Text
  roomId : Text
  groupId : Bytes
  epoch : Nat
  revision : Nat
  membershipDigest : Bytes
  stableIdentity : Bytes
  policy : RoomPolicy
  visibility : RoomVisibility
  stateEnvelope : Bytes

structure CreatePlan where
  room : RelayRoom
  globalSnapshotCount : Nat
  globalSnapshotBytes : Nat

def initialSnapshot (a : CreateArgs) (roster : List RosterMember) (createdAt : Nat) :
    StateSnapshot :=
  { roomId := a.roomId
    messageId := []
    memberCodeId := a.ownerCodeId
    epoch := 0
    revision := 0
    membershipDigest := a.membershipDigest
    stateEnvelope := a.stateEnvelope
    roster := roster
    createdAtMs := createdAt
    expiresAtMs := wordMax }

def initialRoom (a : CreateArgs) (username : Text) (snapshot : StateSnapshot)
    (snapshotBytes : Nat) : RelayRoom :=
  { roomId := a.roomId
    ownerCodeId := a.ownerCodeId
    ownerUsername := a.ownerUsername
    policy := a.policy.normalized
    visibility := a.visibility
    groupId := a.groupId
    epoch := 0
    membershipDigest := a.membershipDigest
    members := OrdMap.empty.insert username
      { username := a.ownerUsername, codeId := a.ownerCodeId
        stableIdentity := a.stableIdentity, active := true }
    joins := .empty
    leaves := .empty
    pendingTransition := none
    pendingApplications := .empty
    pendingBytes := 0
    replayIds := []
    snapshots := OrdMap.empty.insert a.ownerCodeId snapshot
    snapshotBytes := snapshotBytes
    memberRevisions := OrdMap.empty.insert a.ownerCodeId 0
    deliveries := .empty
    deliveryBytes := 0
    expiredSenderGaps := .empty }

def createPlan (s : RoomAuthority) (createdAt : Nat) (a : CreateArgs) :
    Except String CreatePlan := do
  validateRoomId a.roomId
  validateUsername a.ownerUsername
  validateGroupId a.groupId
  validateDigest a.membershipDigest
  validateStableIdentity a.stableIdentity
  validateStateEnvelope a.stateEnvelope
  rejectIf (a.epoch ≠ 0 ∨ a.revision ≠ 0) "room initial checkpoint rejected"
  rejectIf (maxRoomsTotal ≤ s.rooms.size) "room catalog limit reached"
  rejectIf (s.maxRooms ≤
    (s.rooms.values.filter fun room => room.ownerCodeId = a.ownerCodeId).length)
    "room limit reached"
  rejectIf (s.rooms.contains a.roomId) "room already exists"
  let globalSnapshotCount ← okOr (checkedAdd s.globalSnapshotCount 1)
    "global state snapshot budget reached"
  let username ← canonicalUsername a.ownerUsername
  let roster : List RosterMember := [{ username, stableIdentity := a.stableIdentity }]
  let rosterBytes ← rosterSize roster
  let initialBytes ← okOr (checkedAdd a.stateEnvelope.length rosterBytes)
    "global state snapshot budget reached"
  let globalSnapshotBytes ← okOr (checkedAdd s.globalSnapshotBytes initialBytes)
    "global state snapshot budget reached"
  rejectIf (maxGlobalStateSnapshots < globalSnapshotCount ∨
    maxGlobalStateBytes < globalSnapshotBytes) "global state snapshot budget reached"
  let snapshot := initialSnapshot a roster createdAt
  let snapshotBytes ← snapshotSize snapshot
  .ok ⟨initialRoom a username snapshot snapshotBytes, globalSnapshotCount, globalSnapshotBytes⟩

def createWithPolicyVisibilityAndState (σ : HashOrder) (now createdAt : Nat) (s : RoomAuthority)
    (a : CreateArgs) : Outcome RoomInfo :=
  let s := s.pruneExpired σ now
  match s.createPlan createdAt a with
  | .error reason => (s, .error reason)
  | .ok plan =>
    ({ s with
      rooms := s.rooms.insert a.roomId plan.room
      globalSnapshotCount := plan.globalSnapshotCount
      globalSnapshotBytes := plan.globalSnapshotBytes },
      .ok (roomInfoFor plan.room (some a.ownerCodeId) true))

def deletePlan (s : RoomAuthority) (ownerCodeId : CodeId) (roomId : Text) :
    Except String (RelayRoom × AuthorityAccounting) := do
  let room ← okOr (s.rooms.get? roomId) "room unavailable"
  rejectIf (room.ownerCodeId ≠ ownerCodeId) "room owner required"
  let accounting ← s.checkedAccountingExcluding (some roomId)
  .ok (room, accounting)

def delete (σ : HashOrder) (now : Nat) (s : RoomAuthority) (ownerCodeId : CodeId)
    (roomId : Text) : Outcome RoomInfo :=
  let s := s.pruneExpired σ now
  match s.deletePlan ownerCodeId roomId with
  | .error reason => (s, .error reason)
  | .ok (room, accounting) =>
    ({ s with rooms := s.rooms.erase roomId }.applyAccounting accounting,
      .ok (roomInfoFor room (some ownerCodeId) true))

def wipe (s : RoomAuthority) : RoomAuthority :=
  { s with
    rooms := .empty
    globalPendingCount := 0
    globalPendingBytes := 0
    globalSnapshotCount := 0
    globalSnapshotBytes := 0
    globalReplayCount := 0
    globalDeliveryCount := 0
    globalDeliveryBytes := 0
    globalExpiredGapPairs := 0 }

def deliveriesForMember (s : RoomAuthority) (roomId : Text) (codeId : CodeId) :
    Except String (List PendingDelivery) := do
  let room ← okOr (s.rooms.get? roomId) "room unavailable"
  .ok (room.queueOf codeId)

def memberInfo (s : RoomAuthority) (roomId : Text) (codeId : CodeId) :
    Except String RoomInfo := do
  let room ← okOr (s.rooms.get? roomId) "room unavailable"
  rejectIf (¬ room.members.values.any fun m => m.codeId = codeId) "room member required"
  .ok (roomInfoFor room (some codeId) true)

def memberCodeIds (s : RoomAuthority) (roomId : Text) : Except String (List CodeId) := do
  let room ← okOr (s.rooms.get? roomId) "room unavailable"
  .ok (room.members.values.map Member.codeId)

end RoomAuthority

inductive Op
  | create (now createdAt : Nat) (a : RoomAuthority.CreateArgs)
  | requestJoin (now : Nat) (a : JoinArgs)
  | removeJoin (now : Nat) (ownerCodeId : CodeId) (roomId requestId : Text)
  | requestLeave (now : Nat) (codeId : CodeId) (roomId requestId : Text)
  | removeLeave (now : Nat) (ownerCodeId : CodeId) (roomId requestId : Text)
  | beginMembership (now : Nat) (ownerCodeId : CodeId) (transition : MembershipTransition)
  | acceptMembership (clock : RoomAuthority.AcceptClock) (ownerCodeId : CodeId)
      (roomId messageId : Text) (revision : Nat)
  | rollbackMembership (now : Nat) (ownerCodeId : CodeId) (roomId messageId : Text)
      (revision : Nat)
  | admitApplication (now : Nat) (a : AdmitArgs)
  | commitApplication (now : Nat) (roomId messageId : Text)
  | rollbackApplication (roomId messageId : Text)
  | storeSnapshot (now : Nat) (a : StoreArgs)
  | prune (now : Nat)
  | deliveriesForMember (now : Nat) (roomId : Text) (codeId : CodeId)
  | memberInfo (now : Nat) (roomId : Text) (codeId : CodeId)
  | memberCodeIds (now : Nat) (roomId : Text)
  | delete (now : Nat) (ownerCodeId : CodeId) (roomId : Text)
  | wipe

inductive Reply
  | room (info : RoomInfo)
  | join (request : JoinRequest)
  | leave (request : LeaveRequest)
  | staged (transition : MembershipTransition)
  | membership (result : MembershipResult)
  | admission (admission : ApplicationAdmission)
  | snapshot (snapshot : StateSnapshot)
  | deliveries (queue : List PendingDelivery)
  | codes (codeIds : List CodeId)
  | done

def Outcome.reply {α : Type} (f : α → Reply) (o : Outcome α) : Outcome Reply :=
  (o.1, o.2.map f)

def query {α : Type} (σ : HashOrder) (now : Nat) (s : RoomAuthority)
    (read : RoomAuthority → Except String α) : Outcome α :=
  (s.pruneExpired σ now, read (s.pruneExpired σ now))

def exec (σ : HashOrder) (s : RoomAuthority) : Op → Outcome Reply
  | .create now createdAt a =>
    (s.createWithPolicyVisibilityAndState σ now createdAt a).reply .room
  | .requestJoin now a => (s.requestJoin σ now a).reply .join
  | .removeJoin now owner roomId requestId => (s.removeJoin σ now owner roomId requestId).reply .join
  | .requestLeave now codeId roomId requestId =>
    (s.requestLeave σ now codeId roomId requestId).reply .leave
  | .removeLeave now owner roomId requestId =>
    (s.removeLeave σ now owner roomId requestId).reply .leave
  | .beginMembership now owner transition => (s.beginMembership σ now owner transition).reply .staged
  | .acceptMembership clock owner roomId messageId revision =>
    (s.acceptMembership σ clock owner roomId messageId revision).reply .membership
  | .rollbackMembership now owner roomId messageId revision =>
    (s.rollbackMembership σ now owner roomId messageId revision).reply .membership
  | .admitApplication now a => (s.admitApplicationForPlatform σ now a).reply .admission
  | .commitApplication now roomId messageId =>
    (s.commitApplication σ now roomId messageId).reply fun _ => .done
  | .rollbackApplication roomId messageId =>
    (s.rollbackApplication σ roomId messageId).reply fun _ => .done
  | .storeSnapshot now a => (s.storeSnapshot σ now a).reply .snapshot
  | .prune now => (s.pruneExpired σ now, .ok .done)
  | .deliveriesForMember now roomId codeId =>
    (query σ now s fun s => s.deliveriesForMember roomId codeId).reply .deliveries
  | .memberInfo now roomId codeId => (query σ now s fun s => s.memberInfo roomId codeId).reply .room
  | .memberCodeIds now roomId => (query σ now s fun s => s.memberCodeIds roomId).reply .codes
  | .delete now owner roomId => (s.delete σ now owner roomId).reply .room
  | .wipe => (s.wipe, .ok .done)

end Abyssal.Rooms
