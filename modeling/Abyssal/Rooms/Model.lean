import Abyssal.Base.OrdMap
import Abyssal.Base.Checked

/-! The data of the protocol-v10 MLS room authority: routing metadata and bounded
encrypted records, with strings and byte vectors as byte lists. Every string
operation of the relay is on bytes. -/

namespace Abyssal
namespace Rooms

abbrev Text := List UInt8
abbrev Bytes := List UInt8
abbrev CodeId := BitVec 256

instance lawfulBEqCodeId : LawfulBEq CodeId := inferInstance

def groupIdBytes : Nat := 32
def membershipDigestBytes : Nat := 32
def stableIdentityBytes : Nat := 64
def codeIdBytes : Nat := 32
def maxRoomIdBytes : Nat := 128
def maxUsernameBytes : Nat := 80
def maxMembers : Nat := 117
def maxRoomsPerMember : Nat := 128
def maxJoinRequests : Nat := 128
def maxLeaveRequests : Nat := 128
def maxGlobalLeaveRequests : Nat := 16384
def maxKeyPackageBytes : Nat := 64 * 1024
def maxControlBytes : Nat := 2 * 1024 * 1024
def maxApplicationCiphertextBytes : Nat := 1024 * 1024
def maxAuthenticatedDataBytes : Nat := 4096
def maxPendingBytes : Nat := 256 * 1024 * 1024
def maxPendingApplications : Nat := 2048
def maxGlobalPendingApplications : Nat := 16384
def maxGlobalPendingBytes : Nat := 512 * 1024 * 1024
def maxReplayIds : Nat := 2048
def maxGlobalReplayIds : Nat := 16384
def maxStateSnapshots : Nat := 117
def maxStateBytes : Nat := 4 * 1024 * 1024
def maxGlobalStateSnapshots : Nat := 16384
def maxGlobalStateBytes : Nat := 512 * 1024 * 1024
def maxRoomsTotal : Nat := 1024
def maxDeliveriesPerRoom : Nat := 4096
def maxGlobalDeliveries : Nat := 16384
def maxGlobalDeliveryBytes : Nat := 512 * 1024 * 1024
def maxRatchetBackHistory : Nat := 1024
def maxExpiredGapPairsPerRoom : Nat := maxMembers * maxMembers
def maxGlobalExpiredGapPairs : Nat := 65536
def defaultJoinTtlMs : Nat := 10 * 60 * 1000
def defaultReplayTtlMs : Nat := 24 * 60 * 60 * 1000
def gapMax : Nat := 2 ^ 16 - 1

inductive RoomVisibility
  | pub | priv
  deriving DecidableEq

inductive ClientPlatform
  | android | web
  deriving DecidableEq

structure RoomPolicy where
  selfDestructTimerSec : Nat := 0
  overallExpirySec : Nat := 0
  allowImages : Bool := true
  allowVideos : Bool := true
  allowFiles : Bool := true
  enforceTextAbsoluteExpiry : Bool := false
  imageReadTimerSec : Nat := 0
  imageOverallExpirySec : Nat := 0
  enforceImageAbsoluteExpiry : Bool := false
  videoReadTimerSec : Nat := 0
  videoOverallExpirySec : Nat := 0
  enforceVideoAbsoluteExpiry : Bool := false
  fileReadTimerSec : Nat := 0
  fileOverallExpirySec : Nat := 0
  enforceFileAbsoluteExpiry : Bool := false
  deriving DecidableEq

def RoomPolicy.normalized (p : RoomPolicy) : RoomPolicy :=
  { p with
    selfDestructTimerSec := min p.selfDestructTimerSec 86400
    overallExpirySec := min p.overallExpirySec 86400
    imageReadTimerSec := min p.imageReadTimerSec 86400
    imageOverallExpirySec := min p.imageOverallExpirySec 86400
    videoReadTimerSec := min p.videoReadTimerSec 86400
    videoOverallExpirySec := min p.videoOverallExpirySec 86400
    fileReadTimerSec := min p.fileReadTimerSec 86400
    fileOverallExpirySec := min p.fileOverallExpirySec 86400 }

inductive ReplayDomain
  | membership | application
  deriving DecidableEq

structure ReplayKey where
  domain : ReplayDomain
  messageId : Text
  deriving DecidableEq

structure RosterMember where
  username : Text
  stableIdentity : Bytes
  deriving DecidableEq

structure JoinRequest where
  requestId : Text
  roomId : Text
  codeId : CodeId
  username : Text
  stableIdentity : Bytes
  keyPackage : Bytes
  createdAtMs : Nat
  expiresAtMs : Nat
  deriving DecidableEq

structure LeaveRequest where
  requestId : Text
  roomId : Text
  codeId : CodeId
  username : Text
  stableIdentity : Bytes
  createdAtMs : Nat
  expiresAtMs : Nat
  deriving DecidableEq

structure PendingJoin where
  request : JoinRequest
  stateEnvelope : Bytes
  deriving DecidableEq

structure MembershipTransition where
  roomId : Text
  messageId : Text
  requestId : Option Text
  fromEpoch : Nat
  toEpoch : Nat
  revision : Nat
  groupId : Bytes
  fromMembershipDigest : Bytes
  membershipDigest : Bytes
  roster : List RosterMember
  control : Bytes
  welcome : Bytes
  authenticatedData : Bytes
  stateEnvelope : Bytes
  createdAtMs : Nat
  expiresAtMs : Nat
  deriving DecidableEq

structure ApplicationAdmission where
  messageId : Text
  roomId : Text
  senderUsername : Text
  recipientCodeIds : List CodeId
  recipientRevisions : List (CodeId × Nat)
  senderRevision : Nat
  epoch : Nat
  membershipDigest : Bytes
  ciphertext : Bytes
  authenticatedData : Bytes
  stateEnvelope : Bytes
  createdAtMs : Nat
  expiresAtMs : Nat
  deriving DecidableEq

inductive DeliveryPayload
  | membership (fromEpoch : Nat) (fromMembershipDigest groupId : Bytes)
      (roster : List RosterMember) (control welcome authenticatedData : Bytes)
  | application (senderCodeId : CodeId) (senderUsername : Text)
      (senderPlatform : ClientPlatform) (ciphertext authenticatedData : Bytes)
  deriving DecidableEq

structure PendingDelivery where
  roomId : Text
  messageId : Text
  recipientCodeId : CodeId
  epoch : Nat
  membershipDigest : Bytes
  revision : Nat
  payload : DeliveryPayload
  createdAtMs : Nat
  expiresAtMs : Nat
  deriving DecidableEq

structure StateSnapshot where
  roomId : Text
  messageId : Text
  memberCodeId : CodeId
  epoch : Nat
  revision : Nat
  membershipDigest : Bytes
  stateEnvelope : Bytes
  roster : List RosterMember
  createdAtMs : Nat
  expiresAtMs : Nat
  deriving DecidableEq

inductive MembershipResult
  | accepted (transition : MembershipTransition)
  | rolledBack (messageId : Text) (revision : Nat)

structure Member where
  username : Text
  codeId : CodeId
  stableIdentity : Bytes
  active : Bool
  deriving DecidableEq

structure PendingApplication where
  admission : ApplicationAdmission
  senderCodeId : CodeId
  previousSenderRevision : Nat
  previousSnapshot : Option StateSnapshot
  deriving DecidableEq

structure RelayRoom where
  roomId : Text
  ownerCodeId : CodeId
  ownerUsername : Text
  policy : RoomPolicy
  visibility : RoomVisibility
  groupId : Bytes
  epoch : Nat
  membershipDigest : Bytes
  members : OrdMap Text Member
  joins : OrdMap Text PendingJoin
  leaves : OrdMap Text LeaveRequest
  pendingTransition : Option MembershipTransition
  pendingApplications : OrdMap Text PendingApplication
  pendingBytes : Nat
  replayIds : List (ReplayKey × Nat)
  snapshots : OrdMap CodeId StateSnapshot
  snapshotBytes : Nat
  memberRevisions : OrdMap CodeId Nat
  deliveries : OrdMap CodeId (List PendingDelivery)
  deliveryBytes : Nat
  expiredSenderGaps : OrdMap (CodeId ×ₗ CodeId) Nat

structure RoomAuthority where
  rooms : OrdMap Text RelayRoom
  maxRooms : Nat
  joinTtlMs : Nat
  pendingTtlMs : Nat
  replayTtlMs : Nat
  maxDeliveryCount : Nat
  maxDeliveryBytes : Nat
  globalPendingBytes : Nat
  globalPendingCount : Nat
  globalSnapshotBytes : Nat
  globalSnapshotCount : Nat
  globalReplayCount : Nat
  globalDeliveryBytes : Nat
  globalDeliveryCount : Nat
  globalExpiredGapPairs : Nat

structure AuthorityAccounting where
  pendingBytes : Nat := 0
  pendingCount : Nat := 0
  snapshotBytes : Nat := 0
  snapshotCount : Nat := 0
  replayCount : Nat := 0
  deliveryBytes : Nat := 0
  deliveryCount : Nat := 0
  expiredGapPairs : Nat := 0

/-- The order in which the relay's hash maps are visited. The language leaves it
open, so it is an input of every operation that edits a map while visiting it. -/
structure HashOrder where
  rooms : List Text → List Text
  codes : Text → List CodeId → List CodeId
  ids : Text → List Text → List Text
  rooms_perm : ∀ l, (rooms l).Perm l
  codes_perm : ∀ room l, (codes room l).Perm l
  ids_perm : ∀ room l, (ids room l).Perm l

def HashOrder.byKey : HashOrder where
  rooms l := l
  codes _ l := l
  ids _ l := l
  rooms_perm _ := .refl _
  codes_perm _ _ := .refl _
  ids_perm _ _ := .refl _

end Rooms

export Rooms (Text Bytes CodeId RoomVisibility ClientPlatform RoomPolicy)

end Abyssal
