import Abyssal.Rooms.Roster
import Abyssal.Rooms.Sizes

/-! What a successful plan of a join or leave request, of a staged transition and of its
acceptance has checked. -/

namespace Abyssal.Rooms
namespace RoomAuthority

open OrdMap Option

variable {s : RoomAuthority} {room' : RelayRoom} {roomId messageId requestId : Text}
  {ownerCodeId : CodeId} {revision : Nat} {t : MembershipTransition}

structure NewJoin (s : RoomAuthority) (now : Nat) (a : JoinArgs) (room : RelayRoom)
    (plan : JoinPlan) : Prop where
  username : canonicalUsername a.username = .ok (toAsciiLowercase a.username)
  identity : a.stableIdentity.length = stableIdentityBytes
  envelope : a.stateEnvelope.length ≤ maxStateBytes
  noLeave : room.leaves.get? a.requestId = none
  noJoin : room.joins.get? a.requestId = none
  noMember : room.members.get? (toAsciiLowercase a.username) = none
  apart : ∀ k m, room.members.get? k = some m →
    m.codeId ≠ a.codeId ∧ m.stableIdentity ≠ a.stableIdentity
  fresh : ∀ id join, room.joins.get? id = some join →
    join.conflictsWith (toAsciiLowercase a.username) a = false
  capacity : room.joins.size < maxJoinRequests
  requestEq : plan.request = a.toRequest now (saturatingAdd now s.joinTtlMs)
  roomEq : plan.room =
    { room with joins := room.joins.insert a.requestId ⟨plan.request, a.stateEnvelope⟩ }
  stateCount : plan.globalStateCount = s.globalSnapshotCount + 1
  stateBytes : plan.globalStateBytes = s.globalSnapshotBytes + a.stateEnvelope.length
  roomCountLimit : room.snapshots.size + room.joins.size + 1 ≤ maxStateSnapshots
  roomBytesLimit : room.snapshotBytes + room.joinWeight + a.stateEnvelope.length ≤ maxStateBytes
  globalCountLimit : plan.globalStateCount ≤ maxGlobalStateSnapshots
  globalBytesLimit : plan.globalStateBytes ≤ maxGlobalStateBytes
  memberRooms : room.knows a.codeId = true ∨
    (s.rooms.values.filter fun room => room.knows a.codeId).length < maxRoomsPerMember

variable {now : Nat}

theorem joinPlan_ok {a : JoinArgs} {plan : JoinPlan} (h : s.joinPlan now a = .ok plan) :
    ∃ room, s.rooms.get? a.roomId = some room ∧
      (plan.room = room ∧ plan.globalStateCount = s.globalSnapshotCount ∧
        plan.globalStateBytes = s.globalSnapshotBytes ∨ NewJoin s now a room plan) := by
  obtain ⟨_, -, h⟩ := bind_eq_ok.mp h
  obtain ⟨_, -, h⟩ := bind_eq_ok.mp h
  obtain ⟨_, hidentity, h⟩ := bind_eq_ok.mp h
  obtain ⟨_, -, h⟩ := bind_eq_ok.mp h
  obtain ⟨henvelope, h⟩ := rejectIf_bind.mp h
  obtain ⟨_, hmemberRooms, h⟩ := bind_eq_ok.mp h
  obtain ⟨room, hroom, h⟩ := okOr_bind.mp h
  obtain ⟨hleave, h⟩ := rejectIf_bind.mp h
  obtain ⟨canonical, hname, h⟩ := bind_eq_ok.mp h
  obtain ⟨hmember, h⟩ := rejectIf_bind.mp h
  obtain ⟨hcapacity, h⟩ := rejectIf_bind.mp h
  obtain ⟨hconflict, h⟩ := rejectIf_bind.mp h
  refine ⟨room, hroom, ?_⟩
  cases hjoin : room.joins.get? a.requestId with
  | some existing =>
    simp only [hjoin] at h
    split_ifs at h
    cases h
    exact .inl ⟨rfl, rfl, rfl⟩
  | none =>
    simp only [hjoin] at h
    obtain ⟨stateCount, hstateCount, h⟩ := okOr_bind.mp h
    obtain ⟨joinBytes, hjoinBytes, h⟩ := okOr_bind.mp h
    obtain ⟨stateBytes, hstateBytes, h⟩ := okOr_bind.mp h
    obtain ⟨hroomLimit, h⟩ := rejectIf_bind.mp h
    obtain ⟨globalStateCount, hcount, h⟩ := okOr_bind.mp h
    obtain ⟨globalStateBytes, hbytes, h⟩ := okOr_bind.mp h
    obtain ⟨hglobalLimit, h⟩ := rejectIf_bind.mp h
    cases h
    simp only [checkedAdd_bind_eq_some, checkedAdd_eq_some] at hstateCount hstateBytes
    obtain ⟨-, rfl⟩ := checkedSum_eq_some.mp hjoinBytes
    simp only [not_or, Nat.not_lt] at hroomLimit hglobalLimit
    rw [sum_values] at hstateBytes
    have hnojoin : room.joins.contains a.requestId = false := contains_eq_false.mpr hjoin
    obtain ⟨hvalid, rfl⟩ := canonicalUsername_eq_ok.mp hname
    simp only [hnojoin, Bool.false_eq_true, not_false_eq_true, and_true] at hcapacity hconflict
    rw [Nat.not_le] at hcapacity
    simp only [Bool.not_eq_true, contains_eq_false] at hleave
    simp only [not_or, Bool.not_eq_true, contains_eq_false, List.any_eq_false,
      Bool.or_eq_true, decide_eq_true_eq] at hmember
    simp only [Bool.not_eq_true, List.any_eq_false] at hconflict
    rw [not_or, Nat.not_lt] at henvelope
    refine .inr ⟨hname, validateStableIdentity_length hidentity, henvelope.2, hleave, hjoin,
      hmember.1, fun k m hm => ?_, fun id join hid => ?_, hcapacity, rfl, rfl, ?_, ?_,
      hstateCount.2.2 ▸ hroomLimit.1, hstateBytes.2.2 ▸ hroomLimit.2, hglobalLimit.1,
      hglobalLimit.2, ?_⟩
    · exact hmember.2 m (mem_values.mpr ⟨k, hm⟩)
    · exact hconflict join (mem_values.mpr ⟨id, hid⟩)
    · exact (checkedAdd_eq_some.mp hcount).2
    · exact (checkedAdd_eq_some.mp hbytes).2
    · have hmemberRooms := rejectIf_eq_ok.mp hmemberRooms
      rw [hroom, map_some, getD_some, not_and_or, not_not,
        Nat.not_le] at hmemberRooms
      exact hmemberRooms

structure NewLeave (s : RoomAuthority) (codeId : CodeId) (requestId : Text)
    (room room' : RelayRoom) (request : LeaveRequest) : Prop where
  notOwner : room.ownerCodeId ≠ codeId
  member : ∃ k m, room.members.get? k = some m ∧ m.codeId = codeId ∧ m.active = true ∧
    request.username = m.username ∧ request.stableIdentity = m.stableIdentity
  code : request.codeId = codeId
  noJoin : room.joins.get? requestId = none
  noLeave : room.leaves.get? requestId = none
  roomEq : room' = { room with leaves := room.leaves.insert requestId request }
  capacity : room.leaves.size < maxLeaveRequests
  globalCapacity : s.rooms.sum (fun _ room => room.leaves.size) < maxGlobalLeaveRequests

variable {request : LeaveRequest}

theorem leavePlan_ok {codeId : CodeId} {expiresAtMs : Nat}
    (h : s.leavePlan now codeId roomId requestId expiresAtMs = .ok (room', request)) :
    ∃ room, s.rooms.get? roomId = some room ∧
      (room' = room ∨ NewLeave s codeId requestId room room' request) := by
  obtain ⟨_, -, h⟩ := bind_eq_ok.mp h
  obtain ⟨count, hcount, h⟩ := okOr_bind.mp h
  obtain ⟨room, hroom, h⟩ := okOr_bind.mp h
  obtain ⟨howner, h⟩ := rejectIf_bind.mp h
  obtain ⟨member, hmember, h⟩ := okOr_bind.mp h
  obtain ⟨hjoin, h⟩ := rejectIf_bind.mp h
  refine ⟨room, hroom, ?_⟩
  cases hleave : room.leaves.get? requestId with
  | some existing =>
    simp only [hleave] at h
    split_ifs at h
    cases h
    exact .inl rfl
  | none =>
    simp only [hleave] at h
    obtain ⟨hlimit, h⟩ := rejectIf_bind.mp h
    cases h
    obtain ⟨-, rfl⟩ := checkedSum_eq_some.mp hcount
    simp only [not_or, Nat.not_le] at hlimit
    rw [sum_values] at hlimit
    have hfound := List.find?_some hmember
    obtain ⟨k, hk⟩ := mem_values.mp (List.mem_of_find?_eq_some hmember)
    rw [Bool.and_eq_true, decide_eq_true_eq] at hfound
    rw [Bool.not_eq_true, contains_eq_false] at hjoin
    exact .inr ⟨howner, ⟨k, member, hk, hfound.1, hfound.2, rfl, rfl⟩, rfl,
      hjoin, hleave, rfl, hlimit.1, hlimit.2.1⟩

variable {owner : CodeId}

theorem removeLeavePlan_ok (h : s.removeLeavePlan owner roomId requestId = .ok (room', request)) :
    ∃ room, s.rooms.get? roomId = some room ∧ room.leaves.get? requestId = some request ∧
      room' = { room with leaves := room.leaves.erase requestId } := by
  obtain ⟨room, hroom, h⟩ := okOr_bind.mp h
  obtain ⟨_, -, h⟩ := bind_eq_ok.mp h
  obtain ⟨request, hrequest, h⟩ := okOr_bind.mp h
  cases h
  exact ⟨room, hroom, hrequest, rfl⟩

theorem removeJoinPlan_ok {request : JoinRequest}
    (h : s.removeJoinPlan owner roomId requestId = .ok (room', request)) :
    ∃ room join, s.rooms.get? roomId = some room ∧ room.joins.get? requestId = some join ∧
      room' = { room with joins := room.joins.erase requestId } ∧ request = join.request := by
  obtain ⟨room, hroom, h⟩ := okOr_bind.mp h
  obtain ⟨_, -, h⟩ := bind_eq_ok.mp h
  obtain ⟨join, hjoin, h⟩ := okOr_bind.mp h
  cases h
  exact ⟨room, join, hroom, hjoin, rfl, rfl⟩

structure TransitionBounds (t : MembershipTransition) : Prop where
  roomId : t.roomId.length ≤ maxRoomIdBytes
  messageId : t.messageId.length ≤ maxRoomIdBytes
  groupId : t.groupId.length = groupIdBytes
  digest : t.membershipDigest.length = membershipDigestBytes
  control : t.control.length ≤ maxControlBytes
  welcome : t.welcome.length ≤ maxControlBytes
  data : t.authenticatedData.length ≤ maxAuthenticatedDataBytes
  state : t.stateEnvelope.length ≤ maxStateBytes

variable {value : Text} {u : Unit}

theorem validateRoomId_length (h : validateRoomId value = .ok u) :
    value.length ≤ maxRoomIdBytes := by
  have hnot := rejectIf_eq_ok.mp h
  push Not at hnot
  exact hnot.2.1

theorem validateRequestId_length (h : validateRequestId value = .ok u) :
    value.length ≤ maxRoomIdBytes := by
  unfold validateRequestId at h
  cases hv : validateRoomId value with
  | ok u => exact validateRoomId_length hv
  | error e =>
    rw [hv] at h
    cases h

theorem validateTransition_ok (h : validateTransition t = .ok u) : TransitionBounds t := by
  obtain ⟨_, hroom, h⟩ := bind_eq_ok.mp h
  obtain ⟨_, hmessage, h⟩ := bind_eq_ok.mp h
  obtain ⟨_, -, h⟩ := bind_eq_ok.mp h
  obtain ⟨hgroup, h⟩ := rejectIf_bind.mp h
  obtain ⟨hdigest, h⟩ := rejectIf_bind.mp h
  obtain ⟨hcontrol, h⟩ := rejectIf_bind.mp h
  obtain ⟨hwelcome, h⟩ := rejectIf_bind.mp h
  obtain ⟨hdata, h⟩ := rejectIf_bind.mp h
  have hstate := rejectIf_eq_ok.mp h
  push Not at hgroup hcontrol hdata hstate
  exact ⟨validateRoomId_length hroom, validateRequestId_length hmessage, hgroup.1,
    not_not.mp hdigest, hcontrol.2,
    Nat.not_lt.mp hwelcome, hdata.2, hstate.2⟩

structure Staged (s : RoomAuthority) (now : Nat) (ownerCodeId : CodeId)
    (t staged : MembershipTransition) (room room' : RelayRoom) : Prop where
  bounds : TransitionBounds t
  owner : room.ownerCodeId = ownerCodeId
  queue : room.queueOf ownerCodeId = []
  noPending : room.pendingApplications.size = 0
  noTransition : room.pendingTransition = none
  fresh : room.replayed ⟨.membership, t.messageId⟩ = false
  groupId : room.groupId = t.groupId
  fromEpoch : room.epoch = t.fromEpoch
  fromDigest : room.membershipDigest = t.fromMembershipDigest
  toEpoch : t.toEpoch = t.fromEpoch + 1
  fromDigestLength : t.fromMembershipDigest.length = membershipDigestBytes
  revision : ∃ r, room.memberRevisions.get? ownerCodeId = some r ∧ t.revision = r + 1 ∧
    r + 1 ≤ wordMax
  roster : ∃ next ownerName k, resolveNextRoster room t = .ok next ∧ next.size ≤ maxMembers ∧
    canonicalUsername room.ownerUsername = .ok ownerName ∧ next.contains ownerName = true ∧
    identityOf room.members k ≠ identityOf next k ∧
    (∀ k', k' ≠ k → identityOf room.members k' = identityOf next k') ∧
    checkChange room t next k = .ok ()
  stagedEq : staged = { t with createdAtMs := now, expiresAtMs := saturatingAdd now s.pendingTtlMs }
  roomEq : room' = { room with pendingTransition := some staged }

theorem beginPlan_ok {staged : MembershipTransition}
    (h : s.beginPlan now ownerCodeId t = .ok (room', staged)) :
    ∃ room, s.rooms.get? t.roomId = some room ∧ Staged s now ownerCodeId t staged room room' := by
  obtain ⟨_, hvalid, h⟩ := bind_eq_ok.mp h
  obtain ⟨room, hroom, h⟩ := okOr_bind.mp h
  obtain ⟨howner, h⟩ := rejectIf_bind.mp h
  obtain ⟨hqueue, h⟩ := rejectIf_bind.mp h
  obtain ⟨hpending, h⟩ := rejectIf_bind.mp h
  obtain ⟨htransition, h⟩ := rejectIf_bind.mp h
  obtain ⟨hfresh, h⟩ := rejectIf_bind.mp h
  obtain ⟨hdigest, h⟩ := rejectIf_bind.mp h
  obtain ⟨hmeta, h⟩ := rejectIf_bind.mp h
  obtain ⟨expectedEpoch, hexpected, h⟩ := okOr_bind.mp h
  obtain ⟨hepoch, h⟩ := rejectIf_bind.mp h
  obtain ⟨ownerRevision, hrevision, h⟩ := okOr_bind.mp h
  obtain ⟨expectedRevision, hexpectedRev, h⟩ := okOr_bind.mp h
  obtain ⟨hrev, h⟩ := rejectIf_bind.mp h
  obtain ⟨next, hnext, h⟩ := bind_eq_ok.mp h
  obtain ⟨ownerName, hname, h⟩ := bind_eq_ok.mp h
  obtain ⟨hroster, h⟩ := rejectIf_bind.mp h
  obtain ⟨hlength, h⟩ := rejectIf_bind.mp h
  obtain ⟨k, hhead, h⟩ := okOr_bind.mp h
  obtain ⟨_, hcheck, h⟩ := bind_eq_ok.mp h
  cases h
  push Not at hmeta hroster
  obtain ⟨-, rfl⟩ := checkedAdd_eq_some.mp hexpected
  obtain ⟨hword, rfl⟩ := checkedAdd_eq_some.mp hexpectedRev
  obtain ⟨hchanged, hsame⟩ := changedUsernames_single
    (not_not.mp hlength) hhead
  refine ⟨room, hroom, validateTransition_ok hvalid,
    not_not.mp howner, not_not.mp hqueue,
    not_not.mp hpending, ?_, ?_, hmeta.1, hmeta.2.1, hmeta.2.2,
    not_not.mp hepoch, not_not.mp hdigest,
    ⟨ownerRevision, hrevision, not_not.mp hrev, hword⟩,
    ⟨next, ownerName, k, hnext, hroster.1, hname, hroster.2, hchanged, hsame, hcheck⟩, rfl, rfl⟩
  · simpa using htransition
  · simpa using hfresh

def removedQueues (room : RelayRoom) (next : OrdMap Text Member) : List (List PendingDelivery) :=
  (removedCodes room next).filterMap room.deliveries.get?

def removedSnapshots (room : RelayRoom) (next : OrdMap Text Member) : List StateSnapshot :=
  (removedCodes room next).filterMap room.snapshots.get?

def removedSnapshotCount (room : RelayRoom) (next : OrdMap Text Member) : Nat :=
  ((removedCodes room next).filter room.snapshots.contains).length

def storedWeight (room : RelayRoom) (c : CodeId) : Nat :=
  ((room.snapshots.get? c).map snapshotWeight).getD 0

def missing (room : RelayRoom) (c : CodeId) : Nat := if room.snapshots.contains c then 0 else 1

structure Accepted (s : RoomAuthority) (room : RelayRoom) (ownerCodeId : CodeId)
    (messageId : Text) (revision : Nat) (plan : AcceptPlan) : Prop where
  owner : room.ownerCodeId = ownerCodeId
  staged : room.pendingTransition = some plan.transition
  messageId : plan.transition.messageId = messageId
  revision : plan.transition.revision = revision
  noPending : room.pendingApplications.size = 0
  resolved : resolveNextRoster room plan.transition = .ok plan.next
  removed : plan.removedCodeIds = removedCodes room plan.next
  deliveries : membershipDeliveries room plan.transition plan.next = .ok plan.deliveries
  pendingJoin : plan.pendingJoin = (plan.transition.requestId.bind room.joins.get?).map
    fun join => (join.request.codeId, join.stateEnvelope)
  pendingLeave : plan.pendingLeave = plan.transition.requestId.bind room.leaves.get?
  oneRequest : ¬ (plan.transition.requestId.isSome = true ∧
    plan.pendingJoin.isSome = plan.pendingLeave.isSome)
  deliveryCount : room.deliveryCount + plan.deliveries.length ≤
    maxDeliveriesPerRoom + ((removedQueues room plan.next).map List.length).sum
  deliveryBytes : plan.roomDeliveryBytes + queueWeight (removedQueues room plan.next).flatten =
    room.deliveryBytes + queueWeight plan.deliveries
  snapshotBytes : plan.roomSnapshotBytes +
      ((removedSnapshots room plan.next).map snapshotWeight).sum + storedWeight room ownerCodeId =
    room.snapshotBytes + (plan.transition.stateEnvelope.length +
      rosterWeight plan.transition.roster) +
      (plan.pendingJoin.map fun join => join.2.length).getD 0
  stateCount : room.snapshots.size + room.joins.size + missing room ownerCodeId ≤
    maxStateSnapshots + removedSnapshotCount room plan.next
  snapshotLimit : plan.transition.stateEnvelope.length + rosterWeight plan.transition.roster ≤
    maxStateBytes
  deliveryLimit : queueWeight plan.deliveries ≤ s.maxDeliveryBytes
  globalStateCount : plan.globalStateCount + removedSnapshotCount room plan.next =
    s.globalSnapshotCount + missing room ownerCodeId
  globalStateBytes : plan.globalStateBytes +
      ((removedSnapshots room plan.next).map snapshotWeight).sum + storedWeight room ownerCodeId =
    s.globalSnapshotBytes + (plan.transition.stateEnvelope.length +
      rosterWeight plan.transition.roster)
  fresh : room.replayed ⟨.membership, plan.transition.messageId⟩ = false
  roomBytesLimit : plan.roomSnapshotBytes + room.joinWeight ≤
    maxStateBytes + (plan.pendingJoin.map fun join => join.2.length).getD 0
  globalCountLimit : plan.globalStateCount ≤ maxGlobalStateSnapshots
  globalBytesLimit : plan.globalStateBytes ≤ maxGlobalStateBytes
  deliveryCountLimit : s.globalDeliveryCount + plan.deliveries.length ≤
    s.maxDeliveryCount + ((removedQueues room plan.next).map List.length).sum
  deliveryBytesLimit : s.globalDeliveryBytes + queueWeight plan.deliveries ≤
    s.maxDeliveryBytes + queueWeight (removedQueues room plan.next).flatten

variable {room : RelayRoom}

theorem stagedTransition_ok (h : stagedTransition room ownerCodeId messageId revision = .ok t) :
    room.ownerCodeId = ownerCodeId ∧ room.pendingTransition = some t ∧
      t.messageId = messageId ∧ t.revision = revision := by
  obtain ⟨howner, h⟩ := rejectIf_bind.mp h
  obtain ⟨transition, hstaged, h⟩ := okOr_bind.mp h
  obtain ⟨hmatch, h⟩ := rejectIf_bind.mp h
  cases h
  push Not at hmatch
  exact ⟨not_not.mp howner, hstaged, hmatch.1, hmatch.2⟩

theorem acceptPlan_ok {plan : AcceptPlan}
    (h : s.acceptPlan room ownerCodeId messageId revision = .ok plan) :
    Accepted s room ownerCodeId messageId revision plan := by
  obtain ⟨transition, hstaged, h⟩ := bind_eq_ok.mp h
  obtain ⟨hpending, h⟩ := rejectIf_bind.mp h
  obtain ⟨hfresh, h⟩ := rejectIf_bind.mp h
  obtain ⟨next, hnext, h⟩ := bind_eq_ok.mp h
  obtain ⟨removedCount, hremovedCount, h⟩ := okOr_bind.mp h
  obtain ⟨removedBytes, hremovedBytes, h⟩ := bind_eq_ok.mp h
  obtain ⟨removedSnapshotBytes, hremovedSnapshots, h⟩ := bind_eq_ok.mp h
  obtain ⟨deliveries, hdeliveries, h⟩ := bind_eq_ok.mp h
  obtain ⟨queuedBytes, hqueued, h⟩ := bind_eq_ok.mp h
  obtain ⟨hbudget, h⟩ := rejectIf_bind.mp h
  obtain ⟨previousBytes, hprevious, h⟩ := bind_eq_ok.mp h
  obtain ⟨rosterBytes, hroster, h⟩ := bind_eq_ok.mp h
  obtain ⟨ownerBytes, hownerBytes, h⟩ := okOr_bind.mp h
  obtain ⟨hrequest, h⟩ := rejectIf_bind.mp h
  obtain ⟨joinBytes, hjoinBytes, h⟩ := okOr_bind.mp h
  obtain ⟨hstate, h⟩ := rejectIf_bind.mp h
  obtain ⟨roomDeliveryBytes, hroomDelivery, h⟩ := okOr_bind.mp h
  obtain ⟨roomSnapshotBytes, hroomSnapshot, h⟩ := okOr_bind.mp h
  obtain ⟨globalStateCount, hglobalCount, h⟩ := okOr_bind.mp h
  obtain ⟨globalStateBytes, hglobalBytes, h⟩ := okOr_bind.mp h
  cases h
  obtain ⟨howner, htransition, hmessage, hrevision⟩ := stagedTransition_ok hstaged
  obtain ⟨-, rfl⟩ := checkedSum_eq_some.mp hremovedCount
  obtain ⟨-, rfl⟩ := deliveryBytes_eq_ok.mp hremovedBytes
  obtain ⟨-, rfl⟩ := snapshotTotal_eq_ok.mp hremovedSnapshots
  obtain ⟨-, rfl⟩ := deliveryBytes_eq_ok.mp hqueued
  obtain ⟨-, rfl⟩ := rosterSize_eq_ok.mp hroster
  obtain ⟨-, rfl⟩ := checkedAdd_eq_some.mp hownerBytes
  have hprevious := optionalSnapshotSize_eq_ok hprevious
  subst hprevious
  simp only [not_or, Bool.not_eq_true] at hbudget hstate
  obtain ⟨count, hcount, hcountLe⟩ := exceeds_eq_false.mp hbudget.1
  obtain ⟨states, hstates, hstatesLe⟩ := exceeds_eq_false.mp hstate.1
  obtain ⟨allBytes, hallBytes, hallBytesLe⟩ := exceeds_eq_false.mp hbudget.2.2.1
  obtain ⟨stateBytes, hstateBytes, hstateBytesLe⟩ := exceeds_eq_false.mp hstate.2.1
  obtain ⟨deliveryTotal, hdeliveryTotal, hdeliveryTotalLe⟩ := exceeds_eq_false.mp hbudget.2.1
  have hcountLimit := le_of_exceeds hstate.2.2.1 hglobalCount
  have hbytesLimit := le_of_exceeds hstate.2.2.2 hglobalBytes
  obtain ⟨-, rfl⟩ := checkedSum_eq_some.mp hjoinBytes
  simp only [bind_assoc, checkedSub_bind_eq_some, checkedAdd_bind_eq_some,
    checkedAdd_eq_some] at hroomDelivery hroomSnapshot hglobalCount hglobalBytes hstates hallBytes
  simp only [checkedSub_bind_eq_some, checkedAdd_eq_some] at hdeliveryTotal
  simp only [bind_assoc, checkedSub_bind_eq_some, checkedAdd_bind_eq_some,
    checkedSub_eq_some] at hstateBytes
  rw [bind_assoc, bind_eq_some_iff] at hcount
  obtain ⟨total, htotal, hcount⟩ := hcount
  obtain ⟨-, rfl⟩ := checkedSum_eq_some.mp htotal
  rw [sum_values] at hcount
  simp only [checkedSub_bind_eq_some, checkedAdd_eq_some] at hcount
  rw [sum_values] at hstateBytes
  refine ⟨howner, htransition, hmessage, hrevision, not_not.mp hpending, hnext,
    rfl, hdeliveries, rfl, rfl, hrequest, ?_, ?_, ?_, ?_, ?_, ?_, ?_, ?_,
    Bool.not_eq_true _ ▸ hfresh, ?_, hcountLimit, hbytesLimit, ?_, ?_⟩
  · simp only [RelayRoom.deliveryCount, removedQueues]
    omega
  · simp only [removedQueues]
    omega
  · simp only [removedSnapshots, storedWeight]
    omega
  · simp only [missing, removedSnapshotCount]
    omega
  · dsimp only
    omega
  · dsimp only
    omega
  · simp only [missing, removedSnapshotCount]
    omega
  · simp only [removedSnapshots, storedWeight]
    omega
  · simp only [RelayRoom.joinWeight]
    omega
  · simp only [removedQueues]
    omega
  · simp only [removedQueues]
    omega

theorem rollbackMembershipPlan_ok
    (h : s.rollbackMembershipPlan ownerCodeId roomId messageId revision = .ok room') :
    ∃ room, s.rooms.get? roomId = some room ∧
      room' = { room with pendingTransition := none } := by
  obtain ⟨room, hroom, h⟩ := okOr_bind.mp h
  obtain ⟨_, -, h⟩ := bind_eq_ok.mp h
  cases h
  exact ⟨room, hroom, rfl⟩

end RoomAuthority
end Abyssal.Rooms
