import Abyssal.Client.Transcripts

/-! What a direct-message session is built on: the Olm library, an authenticated cipher, key
derivation, and the encodings of messages and of the sealed state. Each comes with the facts about
it that the session relies on. Randomness is passed in. -/

namespace Abyssal.Client

structure StoredPrekey where
  id : Text
  publicKey : Bytes
  deriving DecidableEq

structure StoredPeerSessions where
  peer : Text
  sessions : List Bytes
  deriving DecidableEq

structure StoredE2eeState where
  revision : Nat
  fallbackPublic : Bytes
  prekeys : List StoredPrekey
  account : Bytes
  peers : List StoredPeerSessions
  sessionPrekeys : OrdMap Text Text

inductive OlmMessage
  | preKey (oneTimeKey : Bytes) (sessionId : Text) (body : Bytes)
  | normal (body : Bytes)
  deriving DecidableEq

def OlmMessage.isPreKey : OlmMessage → Bool
  | .preKey .. => true
  | .normal _ => false

structure GeneratedKeys where
  created : List Bytes
  removed : List Bytes

/-- Accounts and ratchet sessions. An operation that takes its object by mutable reference returns
it beside the result, after a failure as well. -/
structure Olm (Account Session : Type) where
  newAccount : Nat → Account
  generateFallbackKey : Account → Nat → Account
  generateOneTimeKeys : Account → Nat → Nat → GeneratedKeys × Account
  markKeysAsPublished : Account → Account
  curve25519 : Account → Bytes
  ed25519 : Account → Bytes
  oneTimeKeys : Account → List Bytes
  fallbackKey : Account → List Bytes
  sign : Account → Bytes → Bytes
  pickleAccount : Account → Bytes
  accountFromPickle : Bytes → Account
  /-- The public halves of the private one-time keys in an account's pickle. -/
  pickledOneTimeKeys : Bytes → Option (List Bytes)
  createOutboundSession : Account → Bytes → Bytes → Nat → Option Session
  createInboundSession : Account → Bytes → OlmMessage → Option (Session × Bytes) × Account
  sessionId : Session → Text
  remoteIdentity : Session → Bytes
  hasReceivedMessage : Session → Bool
  encrypt : Session → Bytes → Nat → Option OlmMessage × Session
  decrypt : Session → OlmMessage → Option Bytes × Session
  pickleSession : Session → Bytes
  sessionFromPickle : Bytes → Session
  length_curve25519 : ∀ account, (curve25519 account).length = 32
  length_ed25519 : ∀ account, (ed25519 account).length = 32
  account_pickle : ∀ account, accountFromPickle (pickleAccount account) = account
  session_pickle : ∀ session, sessionFromPickle (pickleSession session) = session
  curve25519_inbound : ∀ account identity message,
    curve25519 (createInboundSession account identity message).2 = curve25519 account
  ed25519_inbound : ∀ account identity message,
    ed25519 (createInboundSession account identity message).2 = ed25519 account
  curve25519_generate : ∀ account count draw,
    curve25519 (generateOneTimeKeys account count draw).2 = curve25519 account
  ed25519_generate : ∀ account count draw,
    ed25519 (generateOneTimeKeys account count draw).2 = ed25519 account
  curve25519_published : ∀ account, curve25519 (markKeysAsPublished account) = curve25519 account
  ed25519_published : ∀ account, ed25519 (markKeysAsPublished account) = ed25519 account
  /-- A session is a channel between two fixed identity keys. -/
  remote_outbound : ∀ {account identity oneTimeKey draw session},
    createOutboundSession account identity oneTimeKey draw = some session →
      remoteIdentity session = identity
  remote_inbound : ∀ {account identity message session plain},
    (createInboundSession account identity message).1 = some (session, plain) →
      remoteIdentity session = identity
  remote_encrypt : ∀ session plain draw,
    remoteIdentity (encrypt session plain draw).2 = remoteIdentity session
  remote_decrypt : ∀ session message,
    remoteIdentity (decrypt session message).2 = remoteIdentity session
  id_encrypt : ∀ session plain draw, sessionId (encrypt session plain draw).2 = sessionId session
  id_decrypt : ∀ session message, sessionId (decrypt session message).2 = sessionId session

def Olm.freshAccount {Account Session : Type} (olm : Olm Account Session) (draw : Nat) : Account :=
  (olm.generateOneTimeKeys (olm.generateFallbackKey (olm.newAccount draw) draw) prekeyPoolSize
    draw).2

structure Platform (Account Session : Type) where
  olm : Olm Account Session
  keys : KeyChecks
  verify : Bytes → Bytes → Bytes → Bool
  expand : Bytes → Bytes → Bytes → Bytes
  aeadEncrypt : Bytes → Bytes → Bytes → Bytes → Option Bytes
  aeadDecrypt : Bytes → Bytes → Bytes → Bytes → Option Bytes
  encodeMessage : OlmMessage → Option Bytes
  decodeMessage : Bytes → Option OlmMessage
  encodeState : StoredE2eeState → Option Bytes
  decodeState : Bytes → Option StoredE2eeState
  /-- The order in which a hash map with these keys is read. -/
  readOrder : List Text → List Text
  readOrder_perm : ∀ keys, (readOrder keys).Perm keys
  decode_encode : ∀ {stored bytes}, encodeState stored = some bytes → decodeState bytes = some stored
  decrypt_encrypt : ∀ {key nonce aad plain ciphertext},
    aeadEncrypt key nonce aad plain = some ciphertext →
      aeadDecrypt key nonce aad ciphertext = some plain
  length_encrypt : ∀ {key nonce aad plain ciphertext},
    aeadEncrypt key nonce aad plain = some ciphertext →
      ciphertext.length = plain.length + attachmentTagBytes
  /-- A new account has proper identity, one-time and fallback keys, and holds the private halves of
  the one-time keys it offers. -/
  fresh_keys : ∀ draw,
    ∀ key ∈ olm.fallbackKey (olm.freshAccount draw) ++ olm.oneTimeKeys (olm.freshAccount draw),
      key.length = oneTimeKeyBytes ∧ key.all (· = 0) = false ∧ keys.contributory key = true
  fresh_curve25519 : ∀ draw,
    (olm.curve25519 (olm.freshAccount draw)).all (· = 0) = false ∧
    keys.contributory (olm.curve25519 (olm.freshAccount draw)) = true
  fresh_ed25519 : ∀ draw,
    (olm.ed25519 (olm.freshAccount draw)).all (· = 0) = false ∧
    keys.edwardsKey (olm.ed25519 (olm.freshAccount draw)) = true
  fresh_material : ∀ draw, ∃ held,
    olm.pickledOneTimeKeys (olm.pickleAccount (olm.markKeysAsPublished (olm.freshAccount draw))) =
      some held ∧ held.Perm (olm.oneTimeKeys (olm.freshAccount draw))

end Abyssal.Client
