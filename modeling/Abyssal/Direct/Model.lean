import Abyssal.Base.Window
import Abyssal.Rooms.Validation

/-! The data of the protocol-v9 relay: accounts with their signed identity state, pending
encrypted frames, one-time-prekey leases and the replay window. Hash functions, signatures,
base64 and the key bundle's own format are parameters. -/

namespace Abyssal.Direct

abbrev Uuid := BitVec 128

def e2eeProtocolVersion : Nat := 9
def identityEnvelopeVersion : UInt8 := 5
def identityFingerprintBytes : Nat := 64
def oneTimeKeyBytes : Nat := 32
def prekeyPoolSize : Nat := 16
def identityPublicBytes : Nat := identityFingerprintBytes + prekeyPoolSize * oneTimeKeyBytes + 32
def maxIdentityEnvelopeBytes : Nat := 512 * 1024
def messageNonceBytes : Nat := 12
def messageSignatureBytes : Nat := 64
def maxWrappedKeyBytes : Nat := 4096
def wsMaxFrameBytes : Nat := 1024 * 1024
def maxTransientFanoutBytes : Nat := 64 * 1024 * 1024
def stateRevisionWindowBits : Nat := 128
def maxStateRevisionAdvance : Nat := 1024
def maxPendingFramesPerRoom : Nat := 500
def maxPendingBytes : Nat := 256 * 1024 * 1024
def replayWindowMs : Nat := 24 * 60 * 60 * 1000
def maxReplayIds : Nat := 50000
def maxReplayIdsPerSender : Nat := 2048
def prekeyLeaseTtlMs : Nat := 30000
def maxPrekeyLeases : Nat := 4096
def maxPrekeyLeasesPerRecipient : Nat := prekeyPoolSize
def maxChatIdBytes : Nat := 128
def maxUsernameBytes : Nat := 80
def maxNodeIdBytes : Nat := 128
def maxPrekeyIdBytes : Nat := 32
def maxDirectoryRevision : Nat := 65536
def directoryDigestBytes : Nat := 32
def messageTransportBuckets : List Nat := [4096, 16384, 65536, 262144, 1048576]
def messageTransportMaxBucket : Nat := 1048576

structure Account where
  username : Text
  identityPublic : Bytes
  identityEnvelope : Bytes
  prekeyId : Text
  stateRevision : Nat
  stateRevisionWindow : BitVec stateRevisionWindowBits
  clientPlatform : Option ClientPlatform
  deriving DecidableEq

abbrev Accounts := OrdMap CodeId Account

structure ClientHandle where
  codeId : CodeId
  username : Text
  platform : ClientPlatform
  deriving DecidableEq

structure DirectoryStamp where
  nodeId : Text
  revision : Nat
  digest : Text
  deriving DecidableEq

structure DirectEntry where
  userA : Text
  userB : Text
  deriving DecidableEq

def DirectEntry.peerFor (direct : DirectEntry) (username : Text) : Option Text :=
  if direct.userA = username then some direct.userB
  else if direct.userB = username then some direct.userA
  else none

structure InboundRecipientEnvelope where
  recipientUsername : Text
  wrappedKeyB64 : Text
  prekeyId : Text
  isPrekey : Bool
  signatureB64 : Text
  deriving DecidableEq

/-- The message variant of an outbound frame; no other variant is ever pending. -/
structure OutboundMessage where
  chatId : Text
  version : Nat
  messageId : Text
  nonceB64 : Text
  ciphertextB64 : Text
  signatureB64 : Text
  wrappedKeyB64 : Text
  prekeyId : Text
  isPrekey : Bool
  senderUsername : Text
  senderPublicKeyB64 : Text
  identityPublicB64 : Text
  directoryNodeId : Text
  directoryRevision : Nat
  directoryDigest : Text
  paddingBucket : Nat
  padding : Text
  deriving DecidableEq

structure PendingFrame where
  frame : OutboundMessage
  enqueuedAtMs : Nat
  senderPlatform : ClientPlatform
  deriving DecidableEq

structure PendingKey where
  chatId : Text
  recipientUsername : Text
  deriving DecidableEq

structure ReplayKey where
  chatId : Text
  senderUsername : Text
  messageId : Text
  deriving DecidableEq

structure PrekeyLeaseKey where
  codeId : CodeId
  prekeyId : Text
  deriving DecidableEq

structure PrekeyLease where
  chatId : Text
  messageId : Text
  senderUsername : Text
  recipientUsername : Text
  createdAtMs : Nat
  deriving DecidableEq

instance : LinearOrder PendingKey :=
  LinearOrder.lift' (fun key => toLex (key.chatId, key.recipientUsername)) fun a b h => by
    cases a; cases b; simpa using h

instance : LinearOrder ReplayKey :=
  LinearOrder.lift' (fun key => toLex (key.chatId, toLex (key.senderUsername, key.messageId)))
    fun a b h => by cases a; cases b; simpa using h

instance : LinearOrder PrekeyLeaseKey :=
  LinearOrder.lift' (fun key => toLex (key.codeId, key.prekeyId)) fun a b h => by
    cases a; cases b; simpa using h

abbrev PendingQueues := OrdMap PendingKey (List PendingFrame)
abbrev PrekeyLeases := OrdMap PrekeyLeaseKey PrekeyLease

/-- What the relay computes with the cryptographic core. Nothing is assumed of it. -/
structure Crypto where
  decode : Text → Option Bytes
  encode : Bytes → Text
  validateBundle : Bytes → Text → Bool
  prekeyIds : Bytes → Option (List Text)
  directoryDigest : Text → Nat → List (Text × Bytes) → Text
  verifyState : (revision : Nat) → (envelope identityPublic : Bytes) → (prekeyId : Text) →
    (signature : Bytes) → Bool
  verifyMessage : (chatId messageId senderUsername : Text) →
    (identityPublic nonce ciphertext : Bytes) → (recipientUsername : Text) → (wrapped : Bytes) →
    (prekeyId : Text) → (isPrekey : Bool) → (signature : Bytes) → Except String Unit
  verifyAck : (chatId messageId originalSender usedPrekeyId : Text) →
    (identityPublic signature : Bytes) → Except String Unit

def validChatId (chatId : Text) : Bool :=
  chatId ≠ [] && chatId.length ≤ maxChatIdBytes && chatId.all isIdByte

def validUsername (value : Text) : Bool :=
  value ≠ [] && value.length ≤ maxUsernameBytes && value.all isIdByte

def validPrekeyId (value : Text) : Bool :=
  value.length ≤ maxPrekeyIdBytes && value.all (· < 128) && value.all isIdByte

def validNodeId (value : Text) : Bool :=
  value ≠ [] && value.length ≤ maxNodeIdBytes &&
    value.all fun b => isIdByte b || b = 46 || b = 58

variable (crypto : Crypto)

def decodeBounded (value : Text) (maxBytes : Nat) : Except String Bytes :=
  if value = [] ∨ min (maxBytes * 2) wordMax < value.length then .error "Wrong information"
  else match crypto.decode value with
    | none => .error "Wrong information"
    | some bytes =>
      if bytes = [] ∨ maxBytes < bytes.length then .error "Wrong information" else .ok bytes

def decodeExact (value : Text) (expectedBytes : Nat) : Except String Bytes :=
  match decodeBounded crypto value expectedBytes with
  | .error reason => .error reason
  | .ok bytes => if bytes.length = expectedBytes then .ok bytes else .error "Wrong information"

def validIdentityPublicBundle (publicKey : Bytes) (prekeyId : Text) : Bool :=
  crypto.validateBundle publicKey prekeyId &&
    match crypto.prekeyIds publicKey with
    | none => false
    | some pool => pool.head? = some prekeyId

end Abyssal.Direct
