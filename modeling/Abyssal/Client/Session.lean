import Abyssal.Base.Runs
import Abyssal.Client.Ratchets

/-! A direct-message session: its transactions, the sealed envelope of its state, and the calls of
its interface. Every encryption opens a transaction that the caller commits or rolls back once the
relay has answered. The locks are not modelled, since every call holds them from its first read of
the state to its end. -/

namespace Abyssal.Client

open Command

def maxContextBytes : Nat := 512
def maxPayloadBytes : Nat := 1024 * 1024
def payloadFormatVersion : UInt8 := 1
def payloadHeaderBytes : Nat := 1 + 4
def payloadPaddingBucketBytes : Nat := 256
def payloadTagBytes : Nat := 16
def maxPaddedPayloadBytes : Nat :=
  (maxPayloadBytes + payloadHeaderBytes + payloadPaddingBucketBytes - 1) /
    payloadPaddingBucketBytes * payloadPaddingBucketBytes
def maxPayloadCiphertextBytes : Nat := maxPaddedPayloadBytes + payloadTagBytes

structure SealingMaterial where
  key : Bytes
  context : Bytes
  deriving DecidableEq

structure E2eeSession (Account Session : Type) where
  state : E2eeState Account Session
  sealing : Option SealingMaterial

structure E2eePayload where
  version : UInt32
  messageId : Text
  nonce : Bytes
  ciphertext : Bytes
  envelopes : List RecipientEnvelope
  stateRevision : Nat
  identityEnvelope : Bytes
  identityPublic : Bytes
  prekeyId : Text
  stateSignature : Bytes
  deriving DecidableEq

structure E2eeDecryption where
  plaintext : Bytes
  stateRevision : Nat
  identityEnvelope : Bytes
  identityPublic : Bytes
  prekeyId : Text
  stateSignature : Bytes
  deriving DecidableEq

def paddedBytes (length : Nat) : Nat :=
  (payloadHeaderBytes + length + payloadPaddingBucketBytes - 1) / payloadPaddingBucketBytes *
    payloadPaddingBucketBytes

def padPayload (plaintext : Bytes) (filler : Nat → UInt8) : Except String Bytes := do
  rejectIf (plaintext = [] ∨ maxPayloadBytes < plaintext.length) "Payload unavailable"
  rejectIf (maxPaddedPayloadBytes < paddedBytes plaintext.length) "Payload unavailable"
  .ok (payloadFormatVersion :: be 4 plaintext.length ++ plaintext ++
    (List.range (paddedBytes plaintext.length - (payloadHeaderBytes + plaintext.length))).map filler)

def unpadPayload (padded : Bytes) : Except String Bytes := do
  rejectIf (padded.length < payloadHeaderBytes ∨ maxPaddedPayloadBytes < padded.length ∨
    padded.length % payloadPaddingBucketBytes ≠ 0 ∨ padded.head? ≠ some payloadFormatVersion)
    "Payload unavailable"
  let originalLength := ofBe ((padded.drop 1).take 4)
  rejectIf (originalLength = 0 ∨ maxPayloadBytes < originalLength) "Payload unavailable"
  rejectIf (paddedBytes originalLength ≠ padded.length) "Payload unavailable"
  .ok ((padded.drop payloadHeaderBytes).take originalLength)

variable {Account Session : Type} (P : Platform Account Session)

def checkpointState (s : E2eeState Account Session) : StoredE2eeState where
  revision := s.revision
  fallbackPublic := s.fallbackPublic
  prekeys := s.prekeys
  account := P.olm.pickleAccount s.account
  peers := (P.readOrder s.sessions.keys).map fun peer =>
    ⟨peer, (sessionsOf s peer).map P.olm.pickleSession⟩
  sessionPrekeys := s.sessionPrekeys

def checkpointStateBytes (s : E2eeState Account Session) : Except String Bytes :=
  okOr (P.encodeState (checkpointState P s)) "Identity unavailable"

def restoreState (s : E2eeState Account Session) (stored : StoredE2eeState) :
    E2eeState Account Session :=
  { s with
    revision := stored.revision
    fallbackPublic := stored.fallbackPublic
    prekeys := stored.prekeys
    account := P.olm.accountFromPickle stored.account
    sessions := OrdMap.ofList
      (stored.peers.map fun peer => (peer.peer, peer.sessions.map P.olm.sessionFromPickle))
    sessionPrekeys := stored.sessionPrekeys }

def restoreStateFromCheckpoint (checkpoint : Bytes) : Command (E2eeState Account Session) Unit := do
  let stored ← check (okOr (P.decodeState checkpoint) "Identity unavailable")
  modify fun s => restoreState P s stored

def validateOutboundMessageId (messageId : Text) : Except String Unit :=
  rejectIf (¬ validContextIdentifier messageId) "Identity unavailable"

def beginOutbound (messageId : Text) : Command (E2eeState Account Session) Nat := do
  let s ← get
  check (rejectIf s.pendingOutbound.isSome "Identity unavailable")
  check (validateOutboundMessageId messageId)
  let revision ← check (okOr (checkedAdd s.revision 1) "Identity unavailable")
  let checkpoint ← check (checkpointStateBytes P s)
  modify fun s => { s with pendingOutbound := some ⟨messageId, revision, checkpoint⟩ }
  pure revision

def rollbackPendingOutbound : Command (E2eeState Account Session) Unit := do
  -- The transaction is put back if its checkpoint cannot be read.
  let s ← get
  let pending ← check (okOr s.pendingOutbound "Identity unavailable")
  modify fun s => { s with pendingOutbound := none }
  (restoreStateFromCheckpoint P pending.checkpoint).handle
    (fun e => do
      modify fun s => { s with pendingOutbound := some pending }
      fail e)
    pure

def settleOutbound {α : Type} (outboundRevision : Nat) (work : Command (E2eeState Account Session) α) :
    Command (E2eeState Account Session) α :=
  -- A transaction ends at once if its work fails or leaves another revision than announced.
  work.handle
    (fun e => do
      rollbackPendingOutbound P
      fail e)
    (fun result => do
      let s ← get
      if s.revision ≠ outboundRevision then do
        rollbackPendingOutbound P
        fail "Identity unavailable"
      else pure result)

def validateExportKey (exportKey : Bytes) : Except String Unit :=
  rejectIf (¬ (32 ≤ exportKey.length ∧ exportKey.length ≤ 128)) "Identity unavailable"

def validateContext (context : Bytes) : Except String Unit :=
  rejectIf (¬ (context ≠ [] ∧ context.length ≤ maxContextBytes)) "Identity unavailable"

def identityWrapKey (exportKey context : Bytes) : Bytes :=
  P.expand context exportKey (ascii "ABYSSAL_IDENTITY_WRAP_V3")

def sealState (s : E2eeState Account Session) (sealing : SealingMaterial)
    (nonce : Vector UInt8 nonceBytes) : Except String Bytes := do
  let plain ← okOr (P.encodeState (checkpointState P s)) "Identity unavailable"
  rejectIf (maxIdentityStateBytes - nonceBytes - 32 < plain.length) "Identity unavailable"
  let encrypted ← okOr (P.aeadEncrypt sealing.key nonce.toList sealing.context plain)
    "Identity unavailable"
  .ok (identityEnvelopeVersion :: nonce.toList ++ encrypted)

def publicKeyFromState (s : E2eeState Account Session) : Bytes :=
  P.olm.curve25519 s.account ++ P.olm.ed25519 s.account ++ s.prekeys.flatMap (·.publicKey) ++
    s.fallbackPublic

def firstPrekeyId (s : E2eeState Account Session) : Text := (s.prekeys.head?.map (·.id)).getD []

def signIdentityState (s : E2eeState Account Session) (identityEnvelope identityPublic : Bytes)
    (prekeyId : Text) : Except String Bytes := do
  let transcript ← identityStateSignatureInput P.keys protocolVersion (UInt64.ofNat s.revision)
    identityEnvelope identityPublic prekeyId
  .ok (P.olm.sign s.account transcript)

structure PublishedState where
  stateRevision : Nat
  identityEnvelope : Bytes
  identityPublic : Bytes
  prekeyId : Text
  stateSignature : Bytes
  deriving DecidableEq

def advanceState (sealing : SealingMaterial) (nonce : Vector UInt8 nonceBytes) :
    Command (E2eeState Account Session) PublishedState := do
  let s ← get
  let revision ← check (okOr (checkedAdd s.revision 1) "Identity unavailable")
  modify fun s => { s with revision := revision }
  let s ← get
  let identityEnvelope ← check (sealState P s sealing nonce)
  let identityPublic := publicKeyFromState P s
  let prekeyId := firstPrekeyId s
  let stateSignature ← check (signIdentityState P s identityEnvelope identityPublic prekeyId)
  pure ⟨s.revision, identityEnvelope, identityPublic, prekeyId, stateSignature⟩

def validateRecipients : List Text → List RecipientPublicKey → Except String Unit
  | _, [] => .ok ()
  | seen, recipient :: recipients => do
    validateUsername recipient.username
    mapErr "Recipient unavailable"
      (validateIdentityPublicBundle P.keys recipient.publicKey (some recipient.prekeyId))
    rejectIf (peerKey recipient.username ∈ seen) "Recipient unavailable"
    validateRecipients (peerKey recipient.username :: seen) recipients

def checkEnvelopes : List Text → List RecipientEnvelope → Except String Unit
  | _, [] => .ok ()
  | seen, envelope :: envelopes => do
    validateRecipientEnvelope envelope
    rejectIf (peerKey envelope.username ∈ seen) "Payload unavailable"
    checkEnvelopes (peerKey envelope.username :: seen) envelopes

def validateRecipientEnvelopes (envelopes : List RecipientEnvelope) : Except String Unit := do
  rejectIf (envelopes = [] ∨ maxPeers < envelopes.length) "Payload unavailable"
  checkEnvelopes [] envelopes

structure EncryptDraws where
  contentKey : Vector UInt8 32
  nonce : Vector UInt8 nonceBytes
  filler : Nat → UInt8
  ratchet : Text → Nat
  sealNonce : Vector UInt8 nonceBytes

def wrapFor (contentKey aad : Bytes) (ratchet : Text → Nat) (recipient : RecipientPublicKey) :
    Command (E2eeState Account Session) RecipientEnvelope := do
  let wrapped ← ratchetWrapContentKey P contentKey aad recipient (ratchet recipient.username)
  pure ⟨recipient.username, wrapped.bytes, wrapped.prekeyId, wrapped.isPrekey, []⟩

def signEnvelope (s : E2eeState Account Session) (aad nonce ciphertext identityPublic : Bytes)
    (envelope : RecipientEnvelope) : Except String RecipientEnvelope := do
  let input ← signatureInput protocolVersion aad nonce ciphertext identityPublic envelope
  .ok { envelope with signature := P.olm.sign s.account input }

def encryptWork (messageId : Text) (aad ciphertext : Bytes) (recipients : List RecipientPublicKey)
    (sealing : SealingMaterial) (draws : EncryptDraws) :
    Command (E2eeState Account Session) E2eePayload := do
  let envelopes ← each (wrapFor P draws.contentKey.toList aad draws.ratchet) recipients
  check (validateRecipientEnvelopes envelopes)
  let published ← advanceState P sealing draws.sealNonce
  let s ← get
  let envelopes ← check
    (mapChecked (signEnvelope P s aad draws.nonce.toList ciphertext published.identityPublic)
      envelopes)
  pure ⟨protocolVersion, messageId, draws.nonce.toList, ciphertext, envelopes,
    published.stateRevision, published.identityEnvelope, published.identityPublic,
    published.prekeyId, published.stateSignature⟩

def onState {α : Type} (work : SealingMaterial → Command (E2eeState Account Session) α) :
    Command (E2eeSession Account Session) α := do
  let session ← get
  let sealing ← check (okOr session.sealing "Identity unavailable")
  (work sealing).zoom E2eeSession.state fun s session => { session with state := s }

def encrypt (chatId messageId senderUsername : Text) (plaintext : Bytes)
    (recipients : List RecipientPublicKey) (draws : EncryptDraws) :
    Command (E2eeSession Account Session) E2eePayload := do
  check (validateMessageContext chatId messageId senderUsername)
  check (rejectIf (plaintext = [] ∨ maxPayloadBytes < plaintext.length) "Payload unavailable")
  check (rejectIf (recipients = [] ∨ maxPeers < recipients.length) "Recipient unavailable")
  check (validateRecipients P [] recipients)
  let aad := messageAad chatId messageId senderUsername
  let padded ← check (padPayload plaintext draws.filler)
  let ciphertext ← check
    (okOr (P.aeadEncrypt draws.contentKey.toList draws.nonce.toList aad padded) "Payload unavailable")
  onState fun sealing => do
    let outboundRevision ← beginOutbound P messageId
    settleOutbound P outboundRevision (encryptWork P messageId aad ciphertext recipients sealing draws)

def matchPending (s : E2eeState Account Session) (messageId : Text) (revision : Nat) :
    Except String Unit := do
  let pending ← okOr s.pendingOutbound "Identity unavailable"
  rejectIf (pending.messageId ≠ messageId ∨ pending.revision ≠ revision ∨ s.revision ≠ revision)
    "Identity unavailable"

def commitOutbound (messageId : Text) (revision : Nat) :
    Command (E2eeSession Account Session) Unit := do
  check (validateOutboundMessageId messageId)
  let session ← get
  check (matchPending session.state messageId revision)
  modify fun session =>
    { session with state := { session.state with pendingOutbound := none } }

def rollbackOutbound (messageId : Text) (revision : Nat) :
    Command (E2eeSession Account Session) Unit := do
  check (validateOutboundMessageId messageId)
  let session ← get
  check (matchPending session.state messageId revision)
  (rollbackPendingOutbound P).zoom E2eeSession.state fun s session => { session with state := s }

structure DecryptInput where
  chatId : Text
  messageId : Text
  senderUsername : Text
  senderPublicKey : Bytes
  version : UInt32
  identityPublic : Bytes
  nonce : Bytes
  ciphertext : Bytes
  signature : Bytes
  wrappedKey : Bytes
  recipientPrekeyId : Text
  isPrekey : Bool
  recipientUsername : Text

structure DecryptDraws where
  prekey : Nat
  sealNonce : Vector UInt8 nonceBytes

def DecryptInput.aad (input : DecryptInput) : Bytes :=
  messageAad input.chatId input.messageId input.senderUsername

def DecryptInput.envelope (input : DecryptInput) : RecipientEnvelope :=
  ⟨input.recipientUsername, input.wrappedKey, input.recipientPrekeyId, input.isPrekey,
    input.signature⟩

def DecryptInput.validate (input : DecryptInput) : Except String Unit := do
  validateMessageContext input.chatId input.messageId input.senderUsername
  validateUsername input.recipientUsername
  rejectIf (input.version ≠ protocolVersion ∨ input.identityPublic.length ≠ identityPublicBytes ∨
    input.nonce.length ≠ nonceBytes ∨ input.ciphertext.length < payloadTagBytes ∨
    maxPayloadCiphertextBytes < input.ciphertext.length ∨ input.signature.length ≠ 64)
    "Payload unavailable"
  validateIdentityPublicBundle P.keys input.senderPublicKey none
  validateIdentityPublicBundle P.keys input.identityPublic none
  rejectIf (input.senderPublicKey ≠ input.identityPublic) "Payload unavailable"
  validateRecipientEnvelope input.envelope
  let signatureInput ← signatureInput input.version input.aad input.nonce input.ciphertext
    input.identityPublic input.envelope
  rejectIf (¬ P.keys.edwardsKey ((input.senderPublicKey.drop 32).take 32)) "Sender unavailable"
  rejectIf (¬ P.verify ((input.senderPublicKey.drop 32).take 32) signatureInput input.signature)
    "Payload unavailable"

def openPayload (input : DecryptInput) (draw : Nat) :
    Command (E2eeState Account Session) Bytes := do
  let opened ← ratchetUnwrapContentKey P input.senderUsername input.senderPublicKey
    input.wrappedKey input.aad ⟨input.recipientPrekeyId, input.isPrekey, input.recipientUsername⟩
  let padded ← check
    (okOr (P.aeadDecrypt opened.1 input.nonce input.aad input.ciphertext) "Payload unavailable")
  let plaintext ← check (unpadPayload padded)
  (if opened.2 then replenishConsumedPrekey P input.recipientPrekeyId draw else pure ())
  pure plaintext

def decryptWork (input : DecryptInput) (sealing : SealingMaterial) (draws : DecryptDraws) :
    Command (E2eeState Account Session) E2eeDecryption := do
  let plaintext ← openPayload P input draws.prekey
  let published ← advanceState P sealing draws.sealNonce
  pure ⟨plaintext, published.stateRevision, published.identityEnvelope, published.identityPublic,
    published.prekeyId, published.stateSignature⟩

def decryptState (input : DecryptInput) (draws : DecryptDraws) (sealing : SealingMaterial) :
    Command (E2eeState Account Session) E2eeDecryption := do
  -- A failure puts the checkpoint back.
  let s ← get
  check (rejectIf s.pendingOutbound.isSome "Identity unavailable")
  let checkpoint ← check (checkpointStateBytes P s)
  (decryptWork P input sealing draws).handle
    (fun e => do
      restoreStateFromCheckpoint P checkpoint
      fail e)
    pure

def decrypt (input : DecryptInput) (draws : DecryptDraws) :
    Command (E2eeSession Account Session) E2eeDecryption := do
  check (input.validate P)
  onState (decryptState P input draws)

def requiresPrekey (peer : Text) : Command (E2eeSession Account Session) Bool := do
  check (validateUsername peer)
  let session ← get
  check (rejectIf session.state.pendingOutbound.isSome "Identity unavailable")
  pure ((lastSession session.state (peerKey peer)).all fun last => !P.olm.hasReceivedMessage last)

def sealIdentity (exportKey context : Bytes) (nonce : Vector UInt8 nonceBytes) :
    Command (E2eeSession Account Session) Bytes := do
  -- The sealing material is replaced before the state is sealed with it.
  check (validateExportKey exportKey)
  check (validateContext context)
  let sealing : SealingMaterial := ⟨identityWrapKey P exportKey context, context⟩
  let session ← get
  check (rejectIf session.state.pendingOutbound.isSome "Identity unavailable")
  modify fun session => { session with sealing := some sealing }
  check (sealState P session.state sealing nonce)

def create (exportKey : Bytes) (draw : Nat) : Except String (E2eeSession Account Session) := do
  validateExportKey exportKey
  let account := P.olm.freshAccount draw
  let prekeys ← canonicalPrekeys P account
  let fallbackPublic ← okOr (P.olm.fallbackKey account).head? "Identity unavailable"
  .ok
    { state :=
        { revision := 0
          fallbackPublic := fallbackPublic
          prekeys := prekeys
          account := P.olm.markKeysAsPublished account
          sessions := .empty
          sessionPrekeys := .empty
          pendingOutbound := none }
      sealing := none }

def recoverPeers : OrdMap Text (List Session) → List Text → List StoredPeerSessions →
    Except String (OrdMap Text (List Session) × List Text)
  -- The sessions by peer and the ids of all of them; no id and no peer may come twice.
  | sessions, ids, [] => .ok (sessions, ids)
  | sessions, ids, peer :: peers => do
    validateUsername peer.peer
    rejectIf (peer.sessions = [] ∨ maxSessionsPerPeer < peer.sessions.length) "Identity unavailable"
    let peerSessions := peer.sessions.map P.olm.sessionFromPickle
    let peerIds := peerSessions.map P.olm.sessionId
    rejectIf (¬ (peerIds.Nodup ∧ ∀ id ∈ peerIds, id ∉ ids) ∨ sessions.contains (peerKey peer.peer))
      "Identity unavailable"
    recoverPeers (sessions.insert (peerKey peer.peer) peerSessions) (ids ++ peerIds) peers

def recover (exportKey context envelope expectedPublicKey : Bytes) :
    Except String (E2eeSession Account Session) := do
  validateExportKey exportKey
  validateContext context
  rejectIf (envelope.length ≤ 1 + nonceBytes ∨ maxIdentityStateBytes < envelope.length ∨
    envelope.head? ≠ some identityEnvelopeVersion) "Identity unavailable"
  let key := identityWrapKey P exportKey context
  let plain ← okOr (P.aeadDecrypt key ((envelope.drop 1).take nonceBytes) context
    (envelope.drop (1 + nonceBytes))) "Identity unavailable"
  rejectIf (maxIdentityStateBytes < plain.length) "Identity unavailable"
  let stored ← okOr (P.decodeState plain) "Identity unavailable"
  rejectIf (maxPeers < stored.peers.length) "Identity unavailable"
  validatePrekeyPool P stored.prekeys
  validateAccountPrekeyMaterial P stored.account stored.prekeys
  let recovered ← recoverPeers P .empty [] stored.peers
  rejectIf (stored.sessionPrekeys.size ≠ recovered.2.length ∨
    ¬ ∀ entry ∈ stored.sessionPrekeys.entries,
      entry.1 ∈ recovered.2 ∧ entry.2 ≠ [] ∧ validPrekeyId entry.2) "Identity unavailable"
  let state : E2eeState Account Session :=
    { revision := stored.revision
      fallbackPublic := stored.fallbackPublic
      prekeys := stored.prekeys
      account := P.olm.accountFromPickle stored.account
      sessions := recovered.1
      sessionPrekeys := stored.sessionPrekeys
      pendingOutbound := none }
  validateIdentityPublicBundle P.keys (publicKeyFromState P state) (some (firstPrekeyId state))
  rejectIf (publicKeyFromState P state ≠ expectedPublicKey) "Identity unavailable"
  .ok ⟨state, some ⟨key, context⟩⟩

inductive Call
  | encrypt (chatId messageId senderUsername : Text) (plaintext : Bytes)
      (recipients : List RecipientPublicKey) (draws : EncryptDraws)
  | commitOutbound (messageId : Text) (revision : Nat)
  | rollbackOutbound (messageId : Text) (revision : Nat)
  | decrypt (input : DecryptInput) (draws : DecryptDraws)
  | requiresPrekey (peer : Text)
  | sealIdentity (exportKey context : Bytes) (nonce : Vector UInt8 nonceBytes)

inductive Reply
  | payload (payload : E2eePayload)
  | decryption (decryption : E2eeDecryption)
  | done
  | required (required : Bool)
  | envelope (envelope : Bytes)

def Call.run : Call → Command (E2eeSession Account Session) Reply
  | .encrypt chatId messageId senderUsername plaintext recipients draws =>
    Reply.payload <$> Client.encrypt P chatId messageId senderUsername plaintext recipients draws
  | .commitOutbound messageId revision =>
    (fun _ => Reply.done) <$> Client.commitOutbound messageId revision
  | .rollbackOutbound messageId revision =>
    (fun _ => Reply.done) <$> Client.rollbackOutbound P messageId revision
  | .decrypt input draws => Reply.decryption <$> Client.decrypt P input draws
  | .requiresPrekey peer => Reply.required <$> Client.requiresPrekey P peer
  | .sealIdentity exportKey context nonce =>
    Reply.envelope <$> Client.sealIdentity P exportKey context nonce

def step (session : E2eeSession Account Session) (call : Call) : E2eeSession Account Session :=
  (call.run P session).2

def after (session : E2eeSession Account Session) (calls : List Call) :
    E2eeSession Account Session :=
  runFrom (step P) session calls

end Abyssal.Client
