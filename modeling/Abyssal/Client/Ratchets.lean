import Abyssal.Base.Commands
import Abyssal.Client.Platform

/-! The state of a direct-message session and the changes that its ratchets make to it: wrapping a
content key for a recipient, unwrapping one from a sender, and replacing a consumed prekey. -/

namespace Abyssal.Client

open Command

def maxPeers : Nat := 256
def maxSessionsPerPeer : Nat := 4

structure PendingOutbound where
  messageId : Text
  revision : Nat
  checkpoint : Bytes
  deriving DecidableEq

structure E2eeState (Account Session : Type) where
  revision : Nat
  fallbackPublic : Bytes
  prekeys : List StoredPrekey
  account : Account
  sessions : OrdMap Text (List Session)
  sessionPrekeys : OrdMap Text Text
  pendingOutbound : Option PendingOutbound

structure RecipientPublicKey where
  username : Text
  publicKey : Bytes
  prekeyId : Text
  deriving DecidableEq

structure WrappedContentKey where
  bytes : Bytes
  prekeyId : Text
  isPrekey : Bool

structure RecipientEnvelopeContext where
  prekeyId : Text
  isPrekey : Bool
  username : Text

def peerKey (username : Text) : Text := toAsciiLowercase username

variable {Account Session : Type} (P : Platform Account Session)

def sessionsOf (s : E2eeState Account Session) (key : Text) : List Session :=
  (s.sessions.get? key).getD []

def lastSession (s : E2eeState Account Session) (key : Text) : Option Session :=
  (s.sessions.get? key).bind List.getLast?

def storeSession (s : E2eeState Account Session) (key : Text) (session : Session)
    (prekeyId : Text) : E2eeState Account Session :=
  -- A new session behind the others of its peer, the oldest of which makes room if there are as
  -- many as may be kept.
  let sessions := sessionsOf s key
  let full := maxSessionsPerPeer ≤ sessions.length
  let evicted := if full then sessions.head?.map P.olm.sessionId else none
  let kept := if full then sessions.tail else sessions
  let sessionPrekeys := match evicted with
    | some id => s.sessionPrekeys.erase id
    | none => s.sessionPrekeys
  { s with
    sessions := s.sessions.insert key (kept ++ [session])
    sessionPrekeys := sessionPrekeys.insert (P.olm.sessionId session) prekeyId }

def setSessions (s : E2eeState Account Session) (key : Text) (sessions : List Session) :
    E2eeState Account Session :=
  { s with sessions := s.sessions.insert key sessions }

def contentKeyBinding (aad : Bytes) (recipientUsername : Text) : Bytes :=
  P.keys.sha256 (canonicalParts [ascii "ABYSSAL_RATCHET_CONTENT_KEY_V1", aad, recipientUsername])

def boundContentKey (contentKey aad : Bytes) (recipientUsername : Text) : Bytes :=
  contentKey ++ contentKeyBinding P aad recipientUsername

def needsNewSession (s : E2eeState Account Session) (key prekeyId : Text) : Bool :=
  -- No session that answers are known for, and none that was opened with this prekey.
  match lastSession s key with
  | none => true
  | some session =>
    !P.olm.hasReceivedMessage session &&
      (s.sessionPrekeys.get? (P.olm.sessionId session)).all (· ≠ prekeyId)

def openOutbound (recipient : RecipientPublicKey) (draw : Nat) :
    Command (E2eeState Account Session) Unit := do
  let s ← get
  let key := peerKey recipient.username
  if needsNewSession P s key recipient.prekeyId then do
    check (rejectIf (¬ s.sessions.contains key ∧ maxPeers ≤ s.sessions.size)
      "Recipient unavailable")
    let selected ← check (selectedPrekeyPublic P.keys recipient.publicKey recipient.prekeyId)
    let session ← check (okOr
      (P.olm.createOutboundSession s.account (recipient.publicKey.take 32) selected draw)
      "Recipient unavailable")
    modify fun s => storeSession P s key session recipient.prekeyId
  else pure ()

def encryptWithLast (contentKey aad : Bytes) (recipient : RecipientPublicKey) (draw : Nat) :
    Command (E2eeState Account Session) WrappedContentKey := do
  let s ← get
  let key := peerKey recipient.username
  let session ← check (okOr (lastSession s key) "Recipient unavailable")
  let sessionPrekeyId ← check
    (okOr (s.sessionPrekeys.get? (P.olm.sessionId session)) "Recipient unavailable")
  let result := P.olm.encrypt session (boundContentKey P contentKey aad recipient.username) draw
  modify fun s => setSessions s key ((sessionsOf s key).dropLast ++ [result.2])
  let message ← check (okOr result.1 "Recipient unavailable")
  let encoded ← check (okOr (P.encodeMessage message) "Recipient unavailable")
  check (rejectIf (maxRatchetEnvelopeBytes < encoded.length) "Recipient unavailable")
  pure ⟨encoded, if message.isPreKey then sessionPrekeyId else [], message.isPreKey⟩

def ratchetWrapContentKey (contentKey aad : Bytes) (recipient : RecipientPublicKey) (draw : Nat) :
    Command (E2eeState Account Session) WrappedContentKey := do
  openOutbound P recipient draw
  encryptWithLast P contentKey aad recipient draw

def decryptWith (message : OlmMessage) (id : Text) :
    List Session → Option (Option Bytes × List Session)
  | [] => none
  | session :: rest =>
    if P.olm.sessionId session = id then
      some ((P.olm.decrypt session message).1, (P.olm.decrypt session message).2 :: rest)
    else (decryptWith message id rest).map fun result => (result.1, session :: result.2)

def decryptAny (message : OlmMessage) : List Session → Option Bytes × List Session
  | [] => (none, [])
  | session :: rest =>
    match P.olm.decrypt session message with
    | (some plain, session) => (some plain, session :: rest)
    | (none, session) =>
      ((decryptAny message rest).1, session :: (decryptAny message rest).2)

def openPreKey (key : Text) (senderIdentity : Bytes) (message : OlmMessage) (id prekeyId : Text) :
    Command (E2eeState Account Session) (Bytes × Bool) := do
  let s ← get
  match decryptWith P message id (sessionsOf s key) with
  | some (plain, sessions) => do
    modify fun s => setSessions s key sessions
    let plain ← check (okOr plain "Payload unavailable")
    pure (plain, false)
  | none => do
    check (rejectIf (¬ s.sessions.contains key ∧ maxPeers ≤ s.sessions.size)
      "Payload unavailable")
    let created := P.olm.createInboundSession s.account senderIdentity message
    modify fun s => { s with account := created.2 }
    let opened ← check (okOr created.1 "Payload unavailable")
    modify fun s => storeSession P s key opened.1 prekeyId
    pure (opened.2, true)

def openNormal (key : Text) (message : OlmMessage) :
    Command (E2eeState Account Session) (Bytes × Bool) := do
  let s ← get
  let sessions ← check (okOr (s.sessions.get? key) "Payload unavailable")
  let result := decryptAny P message sessions.reverse
  modify fun s => setSessions s key result.2.reverse
  let plain ← check (okOr result.1 "Payload unavailable")
  pure (plain, false)

def openMessage (key : Text) (senderIdentity : Bytes) (message : OlmMessage) (prekeyId : Text) :
    Command (E2eeState Account Session) (Bytes × Bool) :=
  match message with
  | .preKey _ id _ => openPreKey P key senderIdentity message id prekeyId
  | .normal _ => openNormal P key message

def namesPrekey (message : OlmMessage) (prekeyId : Text) : Bool :=
  match message with
  | .preKey oneTimeKey _ _ => prekeyIdForPublic P.keys oneTimeKey = prekeyId
  | .normal _ => true

def ratchetUnwrapContentKey (senderUsername : Text) (senderPublic wrapped aad : Bytes)
    (recipient : RecipientEnvelopeContext) :
    Command (E2eeState Account Session) (Bytes × Bool) := do
  check (rejectIf (wrapped = [] ∨ maxRatchetEnvelopeBytes < wrapped.length)
    "Payload unavailable")
  let message ← check (okOr (P.decodeMessage wrapped) "Payload unavailable")
  check (rejectIf (¬ validPrekeyId recipient.prekeyId ∨
    message.isPreKey ≠ recipient.isPrekey ∨
    recipient.isPrekey = decide (recipient.prekeyId = []) ∨ ¬ namesPrekey P message recipient.prekeyId)
    "Payload unavailable")
  let opened ← openMessage P (peerKey senderUsername) (senderPublic.take 32) message recipient.prekeyId
  check (rejectIf (opened.1.length ≠ 64) "Payload unavailable")
  check (rejectIf (opened.1.drop 32 ≠ contentKeyBinding P aad recipient.username)
    "Payload unavailable")
  pure (opened.1.take 32, opened.2)

def validatePrekeyBundle (prekeyId : Text) (publicKey : Bytes) : Except String Unit := do
  rejectIf (publicKey.length ≠ oneTimeKeyBytes ∨ prekeyId = [] ∨ 32 < prekeyId.length ∨
    ¬ isAscii prekeyId ∨ ¬ prekeyId.all isIdByte) "Identity unavailable"
  rejectIf (publicKey.all (· = 0) ∨ prekeyId ≠ prekeyIdForPublic P.keys publicKey)
    "Identity unavailable"

def checkPrekeys : Option Text → List StoredPrekey → Except String Unit
  | _, [] => .ok ()
  | previous, prekey :: prekeys => do
    validatePrekeyBundle P prekey.id prekey.publicKey
    rejectIf (previous.any fun id => prekey.id ≤ id) "Identity unavailable"
    checkPrekeys (some prekey.id) prekeys

def validatePrekeyPool (prekeys : List StoredPrekey) : Except String Unit := do
  rejectIf (prekeys.length ≠ prekeyPoolSize) "Identity unavailable"
  checkPrekeys P none prekeys

def sortPrekeys (prekeys : List StoredPrekey) : List StoredPrekey :=
  prekeys.insertionSort fun left right => left.id ≤ right.id

def canonicalPrekeys (account : Account) : Except String (List StoredPrekey) := do
  let prekeys := sortPrekeys
    ((P.olm.oneTimeKeys account).map fun key => ⟨prekeyIdForPublic P.keys key, key⟩)
  validatePrekeyPool P prekeys
  .ok prekeys

def validateAccountPrekeyMaterial (account : Bytes) (prekeys : List StoredPrekey) :
    Except String Unit := do
  -- The sealed pool has the public halves of exactly the one-time keys that the account holds.
  let held ← okOr (P.olm.pickledOneTimeKeys account) "Identity unavailable"
  rejectIf (held.insertionSort (· ≤ ·) ≠ (prekeys.map (·.publicKey)).insertionSort (· ≤ ·))
    "Identity unavailable"

def replenishConsumedPrekey (consumedId : Text) (draw : Nat) :
    Command (E2eeState Account Session) Unit := do
  let s ← get
  check (rejectIf (¬ s.prekeys.any (·.id = consumedId)) "Payload unavailable")
  let generated := P.olm.generateOneTimeKeys s.account 1 draw
  modify fun s => { s with account := generated.2 }
  check (rejectIf (generated.1.created.length ≠ 1 ∨ generated.1.removed ≠ [])
    "Identity unavailable")
  let publicKey ← check (okOr generated.1.created.head? "Identity unavailable")
  let replacement : StoredPrekey := ⟨prekeyIdForPublic P.keys publicKey, publicKey⟩
  check (rejectIf (replacement.id = consumedId ∨ s.prekeys.any (·.id = replacement.id))
    "Identity unavailable")
  modify fun s => { s with
    account := P.olm.markKeysAsPublished s.account
    prekeys := sortPrekeys (s.prekeys.eraseP (·.id = consumedId) ++ [replacement]) }
  let s ← get
  check (validatePrekeyPool P s.prekeys)
  check (validateAccountPrekeyMaterial P (P.olm.pickleAccount s.account) s.prekeys)

end Abyssal.Client
