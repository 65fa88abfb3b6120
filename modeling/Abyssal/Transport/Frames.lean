import Abyssal.Base.Json
import Abyssal.Rooms.Model

/-! The frames that the relay writes to a connection, and the JSON objects they are printed as. -/

namespace Abyssal.Transport

abbrev Fields := List (Text × Json)

def text (name : String) (value : Text) : Text × Json := (ascii name, .string value)
def number (name : String) (value : Nat) : Text × Json := (ascii name, .number value)
def flag (name : String) (value : Bool) : Text × Json := (ascii name, .bool value)
def decimalU64 (name : String) (value : Nat) : Text × Json := (ascii name, .string (decimal value))

def list {α : Type} (name : String) (fields : α → Fields) (items : List α) : Text × Json :=
  (ascii name, .array (items.map fun item => .object (fields item)))

structure PresenceUser where
  username : Text
  connected : Bool
  identityPublicB64 : Text
  identityPrekeyId : Text
  directoryDigest : Text
  directoryNodeId : Text
  directoryRevision : Nat

def PresenceUser.fields (u : PresenceUser) : Fields :=
  [text "username" u.username, flag "connected" u.connected,
    text "identity_public_b64" u.identityPublicB64, text "identity_prekey_id" u.identityPrekeyId,
    text "directory_digest" u.directoryDigest, text "directory_node_id" u.directoryNodeId,
    number "directory_revision" u.directoryRevision]

structure RoomRecord where
  id : Text
  name : Text
  ownerUsername : Text
  policy : RoomPolicy

def RoomRecord.fields (r : RoomRecord) : Fields :=
  [text "id" r.id, text "name" r.name, text "owner_username" r.ownerUsername,
    number "self_destruct_timer_sec" r.policy.selfDestructTimerSec,
    number "overall_expiry_sec" r.policy.overallExpirySec,
    flag "allow_images" r.policy.allowImages, flag "allow_videos" r.policy.allowVideos,
    flag "allow_files" r.policy.allowFiles,
    flag "enforce_text_absolute_expiry" r.policy.enforceTextAbsoluteExpiry,
    number "image_read_timer_sec" r.policy.imageReadTimerSec,
    number "image_overall_expiry_sec" r.policy.imageOverallExpirySec,
    flag "enforce_image_absolute_expiry" r.policy.enforceImageAbsoluteExpiry,
    number "video_read_timer_sec" r.policy.videoReadTimerSec,
    number "video_overall_expiry_sec" r.policy.videoOverallExpirySec,
    flag "enforce_video_absolute_expiry" r.policy.enforceVideoAbsoluteExpiry,
    number "file_read_timer_sec" r.policy.fileReadTimerSec,
    number "file_overall_expiry_sec" r.policy.fileOverallExpirySec,
    flag "enforce_file_absolute_expiry" r.policy.enforceFileAbsoluteExpiry]

structure DirectRecord where
  id : Text
  peerUsername : Text

def DirectRecord.fields (d : DirectRecord) : Fields :=
  [text "id" d.id, text "peer_username" d.peerUsername]

structure MlsRosterWire where
  username : Text
  stableIdentityB64 : Text

def MlsRosterWire.fields (m : MlsRosterWire) : Fields :=
  [text "username" m.username, text "stable_identity_b64" m.stableIdentityB64]

structure MlsRecoverySnapshotWire where
  active : Bool
  epoch : Nat
  revision : Nat
  membershipDigestB64 : Text
  stateEnvelopeB64 : Text
  roster : List MlsRosterWire

def MlsRecoverySnapshotWire.fields (s : MlsRecoverySnapshotWire) : Fields :=
  [flag "active" s.active, decimalU64 "epoch" s.epoch, decimalU64 "revision" s.revision,
    text "membership_digest_b64" s.membershipDigestB64,
    text "state_envelope_b64" s.stateEnvelopeB64, list "roster" MlsRosterWire.fields s.roster]

def policyFields (p : RoomPolicy) : Fields :=
  [decimalU64 "self_destruct_timer_sec" p.selfDestructTimerSec,
    decimalU64 "overall_expiry_sec" p.overallExpirySec, flag "allow_images" p.allowImages,
    flag "allow_videos" p.allowVideos, flag "allow_files" p.allowFiles,
    flag "enforce_text_absolute_expiry" p.enforceTextAbsoluteExpiry,
    decimalU64 "image_read_timer_sec" p.imageReadTimerSec,
    decimalU64 "image_overall_expiry_sec" p.imageOverallExpirySec,
    flag "enforce_image_absolute_expiry" p.enforceImageAbsoluteExpiry,
    decimalU64 "video_read_timer_sec" p.videoReadTimerSec,
    decimalU64 "video_overall_expiry_sec" p.videoOverallExpirySec,
    flag "enforce_video_absolute_expiry" p.enforceVideoAbsoluteExpiry,
    decimalU64 "file_read_timer_sec" p.fileReadTimerSec,
    decimalU64 "file_overall_expiry_sec" p.fileOverallExpirySec,
    flag "enforce_file_absolute_expiry" p.enforceFileAbsoluteExpiry]

def visibilityJson : RoomVisibility → Json
  | .pub => .string (ascii "public")
  | .priv => .string (ascii "private")

structure MlsRoomWire where
  roomId : Text
  ownerUsername : Text
  groupIdB64 : Text
  active : Bool
  synchronized : Bool
  epoch : Nat
  revision : Nat
  membershipDigestB64 : Text
  roster : List MlsRosterWire
  recoverySnapshot : Option MlsRecoverySnapshotWire
  policy : RoomPolicy
  visibility : RoomVisibility

def MlsRoomWire.fields (r : MlsRoomWire) : Fields :=
  [text "room_id" r.roomId, text "owner_username" r.ownerUsername, text "group_id_b64" r.groupIdB64,
    flag "active" r.active, flag "synchronized" r.synchronized, decimalU64 "epoch" r.epoch,
    decimalU64 "revision" r.revision, text "membership_digest_b64" r.membershipDigestB64,
    list "roster" MlsRosterWire.fields r.roster,
    (ascii "recovery_snapshot", match r.recoverySnapshot with
      | none => .null
      | some s => .object s.fields),
    (ascii "policy", .object (policyFields r.policy)),
    (ascii "visibility", visibilityJson r.visibility)]

structure MlsPublicRoomWire where
  roomId : Text
  groupIdB64 : Text
  ownerUsername : Text
  policy : RoomPolicy

def MlsPublicRoomWire.fields (r : MlsPublicRoomWire) : Fields :=
  [text "room_id" r.roomId, text "group_id_b64" r.groupIdB64, text "owner_username" r.ownerUsername,
    (ascii "policy", .object (policyFields r.policy))]

structure OutboundMessage where
  chatId : Text
  version : Nat
  messageId : Text
  nonceB64 : Text
  ciphertextB64 : Text
  signatureB64 : Text
  wrappedKeyB64 : Text
  prekeyId : Text
  isPrekey : Bool
  senderUsername : Text
  senderPublicKeyB64 : Text
  identityPublicB64 : Text
  directoryNodeId : Text
  directoryRevision : Nat
  directoryDigest : Text
  paddingBucket : Nat
  padding : Text

inductive OutboundFrame
  | message (m : OutboundMessage)
  | prekeyLease (chatId messageId recipientUsername recipientPublicKeyB64 prekeyId : Text)
      (expiresAtMs : Nat)
  | presence (users : List PresenceUser)
  | globalWipe
  | rooms (rooms : List RoomRecord)
  | roomCreated (room : RoomRecord)
  | roomDeleted (chatId : Text)
  | directs (directs : List DirectRecord)
  | directOpened (direct : DirectRecord)
  | mlsRooms (protocolVersion : Nat) (rooms : List MlsRoomWire)
  | mlsPublicRooms (protocolVersion : Nat) (rooms : List MlsPublicRoomWire)
  | mlsRoomDiscovered (protocolVersion : Nat) (roomId groupIdB64 ownerUsername : Text)
  | mlsRoomCreated (protocolVersion : Nat) (room : MlsRoomWire)
  | mlsJoinRequested (protocolVersion : Nat)
      (roomId requestId username stableIdentityB64 keyPackageB64 : Text)
  | mlsJoinRejected (protocolVersion : Nat) (roomId requestId : Text)
  | mlsLeaveRequested (protocolVersion : Nat) (roomId requestId username stableIdentityB64 : Text)
  | mlsLeavePending (protocolVersion : Nat) (roomId requestId : Text)
  | mlsLeaveRejected (protocolVersion : Nat) (roomId requestId : Text)
  | mlsLeft (protocolVersion : Nat) (roomId : Text)
  | mlsMembership (protocolVersion : Nat) (roomId messageId : Text) (fromEpoch toEpoch revision : Nat)
      (fromMembershipDigestB64 groupIdB64 membershipDigestB64 : Text) (roster : List MlsRosterWire)
      (controlB64 welcomeB64 authenticatedDataB64 : Text)
  | mlsApplication (protocolVersion : Nat) (roomId messageId senderUsername : Text)
      (epoch revision : Nat) (membershipDigestB64 ciphertextB64 authenticatedDataB64 : Text)
  | mlsRoomResult (protocolVersion : Nat) (roomId messageId : Text) (revision : Nat) (accepted : Bool)
  | mlsRoomDeleted (protocolVersion : Nat) (roomId : Text)
  | mlsSnapshotResult (protocolVersion : Nat) (roomId messageId : Text) (revision : Nat)
      (accepted : Bool)
  | messageResult (messageId : Text) (accepted : Bool)
  | ackResult (messageId : Text) (accepted : Bool)

def OutboundMessage.fields (m : OutboundMessage) : Fields :=
  [text "type" (ascii "message"), text "chat_id" m.chatId, number "version" m.version,
    text "message_id" m.messageId, text "nonce_b64" m.nonceB64,
    text "ciphertext_b64" m.ciphertextB64, text "signature_b64" m.signatureB64,
    text "wrapped_key_b64" m.wrappedKeyB64, text "prekey_id" m.prekeyId,
    flag "is_prekey" m.isPrekey, text "sender_username" m.senderUsername,
    text "sender_public_key_b64" m.senderPublicKeyB64,
    text "identity_public_b64" m.identityPublicB64, text "directory_node_id" m.directoryNodeId,
    number "directory_revision" m.directoryRevision, text "directory_digest" m.directoryDigest,
    number "padding_bucket" m.paddingBucket, text "padding" m.padding]

def tagged (type : String) (fields : Fields) : Fields := text "type" (ascii type) :: fields

def mlsTagged (type : String) (protocolVersion : Nat) (fields : Fields) : Fields :=
  tagged type (number "protocol_version" protocolVersion :: fields)

def OutboundFrame.fields : OutboundFrame → Fields
  | .message m => m.fields
  | .prekeyLease chatId messageId recipientUsername recipientPublicKeyB64 prekeyId expiresAtMs =>
    tagged "prekey_lease" [text "chat_id" chatId, text "message_id" messageId,
      text "recipient_username" recipientUsername,
      text "recipient_public_key_b64" recipientPublicKeyB64, text "prekey_id" prekeyId,
      number "expires_at_ms" expiresAtMs]
  | .presence users => tagged "presence" [list "users" PresenceUser.fields users]
  | .globalWipe => tagged "GLOBAL_WIPE" []
  | .rooms records => tagged "rooms" [list "rooms" RoomRecord.fields records]
  | .roomCreated room => tagged "room_created" [(ascii "room", .object room.fields)]
  | .roomDeleted chatId => tagged "room_deleted" [text "chat_id" chatId]
  | .directs records => tagged "directs" [list "directs" DirectRecord.fields records]
  | .directOpened direct => tagged "direct_opened" [(ascii "direct", .object direct.fields)]
  | .mlsRooms v records => mlsTagged "mls_rooms" v [list "rooms" MlsRoomWire.fields records]
  | .mlsPublicRooms v records =>
    mlsTagged "mls_public_rooms" v [list "rooms" MlsPublicRoomWire.fields records]
  | .mlsRoomDiscovered v roomId groupIdB64 ownerUsername =>
    mlsTagged "mls_room_discovered" v [text "room_id" roomId, text "group_id_b64" groupIdB64,
      text "owner_username" ownerUsername]
  | .mlsRoomCreated v room => mlsTagged "mls_room_created" v [(ascii "room", .object room.fields)]
  | .mlsJoinRequested v roomId requestId username stableIdentityB64 keyPackageB64 =>
    mlsTagged "mls_join_requested" v [text "room_id" roomId, text "request_id" requestId,
      text "username" username, text "stable_identity_b64" stableIdentityB64,
      text "key_package_b64" keyPackageB64]
  | .mlsJoinRejected v roomId requestId =>
    mlsTagged "mls_join_rejected" v [text "room_id" roomId, text "request_id" requestId]
  | .mlsLeaveRequested v roomId requestId username stableIdentityB64 =>
    mlsTagged "mls_leave_requested" v [text "room_id" roomId, text "request_id" requestId,
      text "username" username, text "stable_identity_b64" stableIdentityB64]
  | .mlsLeavePending v roomId requestId =>
    mlsTagged "mls_leave_pending" v [text "room_id" roomId, text "request_id" requestId]
  | .mlsLeaveRejected v roomId requestId =>
    mlsTagged "mls_leave_rejected" v [text "room_id" roomId, text "request_id" requestId]
  | .mlsLeft v roomId => mlsTagged "mls_left" v [text "room_id" roomId]
  | .mlsMembership v roomId messageId fromEpoch toEpoch revision fromMembershipDigestB64 groupIdB64
      membershipDigestB64 roster controlB64 welcomeB64 authenticatedDataB64 =>
    mlsTagged "mls_membership" v [text "room_id" roomId, text "message_id" messageId,
      decimalU64 "from_epoch" fromEpoch, decimalU64 "to_epoch" toEpoch,
      decimalU64 "revision" revision, text "from_membership_digest_b64" fromMembershipDigestB64,
      text "group_id_b64" groupIdB64, text "membership_digest_b64" membershipDigestB64,
      list "roster" MlsRosterWire.fields roster, text "control_b64" controlB64,
      text "welcome_b64" welcomeB64, text "authenticated_data_b64" authenticatedDataB64]
  | .mlsApplication v roomId messageId senderUsername epoch revision membershipDigestB64
      ciphertextB64 authenticatedDataB64 =>
    mlsTagged "mls_application" v [text "room_id" roomId, text "message_id" messageId,
      text "sender_username" senderUsername, decimalU64 "epoch" epoch,
      decimalU64 "revision" revision, text "membership_digest_b64" membershipDigestB64,
      text "ciphertext_b64" ciphertextB64, text "authenticated_data_b64" authenticatedDataB64]
  | .mlsRoomResult v roomId messageId revision accepted =>
    mlsTagged "mls_room_result" v [text "room_id" roomId, text "message_id" messageId,
      decimalU64 "revision" revision, flag "accepted" accepted]
  | .mlsRoomDeleted v roomId => mlsTagged "mls_room_deleted" v [text "room_id" roomId]
  | .mlsSnapshotResult v roomId messageId revision accepted =>
    mlsTagged "mls_snapshot_result" v [text "room_id" roomId, text "message_id" messageId,
      decimalU64 "revision" revision, flag "accepted" accepted]
  | .messageResult messageId accepted =>
    tagged "message_result" [text "message_id" messageId, flag "accepted" accepted]
  | .ackResult messageId accepted =>
    tagged "ack_result" [text "message_id" messageId, flag "accepted" accepted]

def OutboundFrame.isMls : OutboundFrame → Bool
  | .mlsRooms .. | .mlsPublicRooms .. | .mlsRoomDiscovered .. | .mlsRoomCreated ..
  | .mlsJoinRequested .. | .mlsJoinRejected .. | .mlsLeaveRequested .. | .mlsLeavePending ..
  | .mlsLeaveRejected .. | .mlsLeft .. | .mlsMembership .. | .mlsApplication ..
  | .mlsRoomResult .. | .mlsRoomDeleted .. | .mlsSnapshotResult .. => true
  | _ => false

def OutboundFrame.isMessage : OutboundFrame → Bool
  | .message _ => true
  | _ => false

def OutboundFrame.json (frame : OutboundFrame) : Json := .object frame.fields

theorem OutboundFrame.hasKey_padding (frame : OutboundFrame) (h : frame.isMessage = false) :
    Json.hasKey (ascii "padding_bucket") frame.fields = false ∧
      Json.hasKey (ascii "padding") frame.fields = false := by
  cases frame with
  | message m => cases h
  | _ => exact ⟨rfl, rfl⟩

theorem OutboundFrame.isMessage_of_isMls {frame : OutboundFrame} (h : frame.isMls = true) :
    frame.isMessage = false := by
  cases frame with
  | message m => cases h
  | _ => rfl

end Abyssal.Transport
