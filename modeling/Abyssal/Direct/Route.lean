import Abyssal.Direct.Leases

/-! The routing of one encrypted message to its recipients, and its acknowledgement. -/

namespace Abyssal.Direct

structure RouteArgs where
  senderId : Uuid
  chatId : Text
  version : Nat
  messageId : Text
  nonceB64 : Text
  ciphertextB64 : Text
  envelopes : List InboundRecipientEnvelope
  stateRevision : Nat
  identityEnvelopeB64 : Text
  identityPublicB64 : Text
  prekeyId : Text
  stateSignatureB64 : Text
  directoryEvidence : Option DirectoryStamp

def RouteArgs.identityUpdate (a : RouteArgs) : IdentityUpdate where
  revision := a.stateRevision
  envelopeB64 := a.identityEnvelopeB64
  identityPublicB64 := a.identityPublicB64
  prekeyId := a.prekeyId
  stateSignatureB64 := a.stateSignatureB64
  allowReuse := false
  consumedPrekeyId := none

structure Sender where
  client : ClientHandle
  identityPublic : Bytes
  nonce : Bytes
  ciphertext : Bytes
  stamp : DirectoryStamp

def checkSender (setup : Setup) (env : Surroundings) (accounts : Accounts) (a : RouteArgs) :
    Except String Sender := do
  let stamp ← validateDirectoryEvidence setup accounts a.directoryEvidence
  rejectIf (a.version ≠ e2eeProtocolVersion ∨ ¬ validChatId a.chatId ∨ ¬ validChatId a.messageId)
    "encrypted message rejected"
  let nonce ← decodeExact setup.crypto a.nonceB64 messageNonceBytes
  let ciphertext ← decodeBounded setup.crypto a.ciphertextB64 wsMaxFrameBytes
  let _ ← decodeBounded setup.crypto a.identityEnvelopeB64 maxIdentityEnvelopeBytes
  let client ← clientIdentity env a.senderId
  let identityPublic ← decodeExact setup.crypto a.identityPublicB64 identityPublicBytes
  rejectIf (¬ validIdentityPublicBundle setup.crypto identityPublic a.prekeyId)
    "authenticated identity required"
  let account ← okOr (accounts.get? client.codeId) "authenticated identity required"
  rejectIf (account.identityPublic.length ≠ identityPublicBytes ∨
    account.identityPublic.take identityFingerprintBytes ≠
      identityPublic.take identityFingerprintBytes) "authenticated identity required"
  .ok ⟨client, identityPublic, nonce, ciphertext, stamp⟩

def expectedRecipients (env : Surroundings) (accounts : Accounts) (username chatId : Text) :
    ConversationAccess → Except String (List Text)
  | .mlsRoom => .error "MLS application required"
  | .room => .ok (env.order
      ((accounts.values.map Account.username).filter fun other => other ≠ username).dedup)
  | .direct => do
    let peer ← okOr (directPeer env username chatId) "direct conversation unavailable"
    .ok [peer]

abbrev EnvelopeMap := OrdMap Text InboundRecipientEnvelope

def envelopeStep (setup : Setup) (a : RouteArgs) (sender : Sender) (expected : List Text)
    (envelopes : EnvelopeMap) (envelope : InboundRecipientEnvelope) :
    Except String EnvelopeMap := do
  rejectIf (¬ expected.contains envelope.recipientUsername ∨
    envelopes.contains envelope.recipientUsername) "recipient envelope rejected"
  rejectIf (¬ validPrekeyId envelope.prekeyId) "recipient envelope rejected"
  rejectIf (envelope.isPrekey = envelope.prekeyId.isEmpty) "recipient envelope rejected"
  let wrapped ← decodeBounded setup.crypto envelope.wrappedKeyB64 maxWrappedKeyBytes
  rejectIf (wrapped = []) "recipient envelope rejected"
  let signature ← decodeExact setup.crypto envelope.signatureB64 messageSignatureBytes
  setup.crypto.verifyMessage a.chatId a.messageId sender.client.username sender.identityPublic
    sender.nonce sender.ciphertext envelope.recipientUsername wrapped envelope.prekeyId
    envelope.isPrekey signature
  .ok (envelopes.insert envelope.recipientUsername envelope)

def checkEnvelopes (setup : Setup) (a : RouteArgs) (sender : Sender) (expected : List Text) :
    Except String EnvelopeMap := do
  rejectIf (a.envelopes.length ≠ expected.length) "recipient envelope set rejected"
  let envelopes ← foldChecked (envelopeStep setup a sender expected) .empty a.envelopes
  rejectIf (¬ ((∀ username ∈ envelopes.keys, username ∈ expected) ∧
    ∀ username ∈ expected, username ∈ envelopes.keys)) "recipient envelope set rejected"
  .ok envelopes

def frameFor (a : RouteArgs) (sender : Sender) (senderPublicKeyB64 : Text)
    (envelope : InboundRecipientEnvelope) : OutboundMessage where
  chatId := a.chatId
  version := a.version
  messageId := a.messageId
  nonceB64 := a.nonceB64
  ciphertextB64 := a.ciphertextB64
  signatureB64 := envelope.signatureB64
  wrappedKeyB64 := envelope.wrappedKeyB64
  prekeyId := envelope.prekeyId
  isPrekey := envelope.isPrekey
  senderUsername := sender.client.username
  senderPublicKeyB64 := senderPublicKeyB64
  identityPublicB64 := senderPublicKeyB64
  directoryNodeId := sender.stamp.nodeId
  directoryRevision := sender.stamp.revision
  directoryDigest := sender.stamp.digest
  paddingBucket := 0
  padding := []

def prepareStep (env : Surroundings) (a : RouteArgs) (sender : Sender)
    (senderPublicKeyB64 : Text) (envelopes : EnvelopeMap)
    (acc : List (Text × OutboundMessage) × Nat) (recipient : Text) :
    Except String (List (Text × OutboundMessage) × Nat) := do
  let envelope ← okOr (envelopes.get? recipient) "recipient envelope rejected"
  let frame ← prepareOutboundMessagePadding (env.random recipient)
    (frameFor a sender senderPublicKeyB64 envelope)
  let frameBytes ← okOr (validatedOutboundFrameBytes frame) "fanout preparation budget full"
  let charged ← okOr (checkedAdd frameBytes recipient.length) "fanout preparation budget full"
  let total ← okOr (checkedAdd acc.2 charged) "fanout preparation budget full"
  rejectIf (maxTransientFanoutBytes < total) "fanout preparation budget full"
  .ok (acc.1 ++ [(recipient, frame)], total)

structure Prepared where
  sender : Sender
  recipients : List Text
  envelopes : EnvelopeMap
  frames : List (Text × OutboundMessage)

def prepareMessage (setup : Setup) (env : Surroundings) (accounts : Accounts) (a : RouteArgs) :
    Except String Prepared := do
  let sender ← checkSender setup env accounts a
  let access ← okOr (conversationAccess env accounts sender.client.username a.chatId)
    "conversation unavailable"
  let _ ← env.stagedAttachment sender.client.codeId a.chatId a.messageId
  let recipients ← expectedRecipients env accounts sender.client.username a.chatId access
  requireRecipientPlatforms setup accounts sender.client.platform recipients
  let envelopes ← checkEnvelopes setup a sender recipients
  let account ← okOr (accounts.get? sender.client.codeId) "authenticated identity required"
  let (frames, _) ← foldChecked
    (prepareStep env a sender (setup.crypto.encode account.identityPublic) envelopes)
    ([], 0) recipients
  .ok ⟨sender, recipients, envelopes, frames⟩

structure RouteClock where
  admission : Nat
  leases : Nat
  preflight : Nat
  commit : Nat
  register : Nat

def leaseStep (setup : Setup) (s : State) (a : RouteArgs) (p : Prepared) (username : Text) :
    Except String Unit := do
  let envelope ← okOr (p.envelopes.get? username) "recipient envelope rejected"
  if ¬ envelope.isPrekey then .ok ()
  else do
    let (codeId, account) ← okOr (findAccount s.accounts username) "recipient envelope rejected"
    let pool ← okOr (setup.crypto.prekeyIds account.identityPublic) "recipient prekey unavailable"
    rejectIf (¬ pool.contains envelope.prekeyId) "recipient prekey unavailable"
    let lease ← okOr (s.prekeyLeases.get? ⟨codeId, envelope.prekeyId⟩)
      "recipient prekey lease required"
    rejectIf (¬ lease.boundTo a.chatId a.messageId p.sender.client.username username)
      "recipient prekey lease rejected"

def admitPrekeyLeases (setup : Setup) (s : State) (a : RouteArgs) (p : Prepared)
    (clock : RouteClock) : State × Except String Unit :=
  let s := prunePendingQueues setup.pendingMessageTtlMs clock.admission s
  let s := { s with prekeyLeases := prunePrekeyLeases s.prekeyLeases s.pending clock.leases }
  (s, foldChecked (fun _ username => leaseStep setup s a p username) () p.recipients)

def RouteArgs.replayKey (a : RouteArgs) (senderUsername : Text) : ReplayKey :=
  ⟨a.chatId, senderUsername, a.messageId⟩

def finishRoute (setup : Setup) (s : State) (a : RouteArgs) (p : Prepared)
    (plan : List PendingQueuePlan) (clock : RouteClock) : State × Except String Unit :=
  -- What follows the commit: either stage that rejects undoes the ones before it.
  let key := a.replayKey p.sender.client.username
  match registerMessageId clock.register s key with
  | (s, .error reason) => (rollbackPendingFrames s p.frames plan, .error reason)
  | (s, .ok ()) =>
    match applyIdentityStateLockedWithConsumed setup.crypto s.accounts p.sender.client.codeId
        a.identityUpdate with
    | .error reason =>
      (rollbackPendingFrames (unregisterMessageId s key) p.frames plan, .error reason)
    | .ok accounts => ({ s with accounts := accounts }, .ok ())

def routeEncryptedMessageWithDirectory (setup : Setup) (env : Surroundings) (s : State)
    (a : RouteArgs) (clock : RouteClock) : State × Except String Unit :=
  match prepareMessage setup env s.accounts a with
  | .error reason => (s, .error reason)
  | .ok p =>
    match admitPrekeyLeases setup s a p clock with
    | (s, .error reason) => (s, .error reason)
    | (s, .ok ()) =>
      match preflightPendingFrames setup.pendingMessageTtlMs clock.preflight s p.frames with
      | (s, .error reason) => (s, .error reason)
      | (s, .ok plan) =>
        match commitPendingFrames clock.commit s p.frames plan p.sender.client.platform with
        | (s, .error reason) => (s, .error reason)
        | (s, .ok plan) => finishRoute setup s a p plan clock

structure AckArgs where
  senderId : Uuid
  chatId : Text
  messageId : Text
  originalSender : Text
  revision : Nat
  envelopeB64 : Text
  identityPublicB64 : Text
  currentPrekeyId : Text
  stateSignatureB64 : Text
  ackSignatureB64 : Text
  usedPrekeyId : Text

def AckArgs.consumed (a : AckArgs) : Option Text :=
  if a.usedPrekeyId = [] then none else some a.usedPrekeyId

def AckArgs.identityUpdate (a : AckArgs) : IdentityUpdate where
  revision := a.revision
  envelopeB64 := a.envelopeB64
  identityPublicB64 := a.identityPublicB64
  prekeyId := a.currentPrekeyId
  stateSignatureB64 := a.stateSignatureB64
  allowReuse := true
  consumedPrekeyId := a.consumed

def leasesForRecipientMissingFromPool (leases : PrekeyLeases) (codeId : CodeId)
    (nextPool : List Text) (consumedPrekeyId : Option Text) : Bool :=
  leases.keys.any fun key => key.codeId = codeId && consumedPrekeyId ≠ some key.prekeyId &&
    !nextPool.contains key.prekeyId

def ackAccess (setup : Setup) (env : Surroundings) (accounts : Accounts) (a : AckArgs) :
    Except String ClientHandle := do
  rejectIf (¬ validChatId a.chatId ∨ ¬ validChatId a.messageId ∨ a.originalSender = [] ∨
    80 < a.originalSender.length ∨ ¬ a.originalSender.all (· < 128))
    "message acknowledgement rejected"
  let client ← clientIdentity env a.senderId
  let access ← okOr (conversationAccess env accounts client.username a.chatId)
    "conversation unavailable"
  let validSender : Bool := match access with
    | .mlsRoom => false
    | .room => (findAccount accounts a.originalSender).isSome
    | .direct => directPeer env client.username a.chatId = some a.originalSender
  rejectIf (¬ validSender ∨ a.originalSender = client.username) "conversation unavailable"
  let identityPublic ← decodeExact setup.crypto a.identityPublicB64 identityPublicBytes
  let signature ← decodeExact setup.crypto a.ackSignatureB64 messageSignatureBytes
  setup.crypto.verifyAck a.chatId a.messageId a.originalSender a.usedPrekeyId identityPublic
    signature
  .ok client

def AckArgs.acknowledges (a : AckArgs) (pendingFrame : PendingFrame) : Bool :=
  pendingFrameMatchesAck pendingFrame.frame a.chatId a.messageId a.originalSender a.usedPrekeyId

def ackIndex (a : AckArgs) (queue : List PendingFrame) : Except String Nat :=
  match (List.range queue.length).filter fun i => (queue[i]?).any a.acknowledges with
  | [index] => .ok index
  | _ => .error "message acknowledgement rejected"

def checkClaim (s : State) (a : AckArgs) (client : ClientHandle) : Except String Unit :=
  if a.usedPrekeyId = [] then .ok ()
  else do
    let claim ← okOr (s.prekeyLeases.get? ⟨client.codeId, a.usedPrekeyId⟩)
      "message acknowledgement rejected"
    rejectIf (¬ claim.boundTo a.chatId a.messageId a.originalSender client.username)
      "message acknowledgement rejected"

def acknowledgePlan (setup : Setup) (s : State) (a : AckArgs) (client : ClientHandle) :
    Except String State := do
  let key : PendingKey := ⟨a.chatId, client.username⟩
  let queue ← okOr (s.pending.get? key) "message acknowledgement rejected"
  let index ← ackIndex a queue
  let matchingBytes :=
    ((queue[index]?).map fun pendingFrame => outboundFrameBytes pendingFrame.frame).getD 0
  rejectIf (s.pendingBytes < matchingBytes) "message acknowledgement rejected"
  checkClaim s a client
  let nextPublic ← decodeExact setup.crypto a.identityPublicB64 identityPublicBytes
  let nextPool ← okOr (setup.crypto.prekeyIds nextPublic) "message acknowledgement rejected"
  rejectIf (leasesForRecipientMissingFromPool s.prekeyLeases client.codeId nextPool a.consumed)
    "message acknowledgement rejected"
  let accounts ← applyIdentityStateLockedWithConsumed setup.crypto s.accounts client.codeId
    a.identityUpdate
  let queue := queue.eraseIdx index
  .ok { s with
    accounts := accounts
    pending := if queue.isEmpty then s.pending.erase key else s.pending.insert key queue
    pendingBytes := s.pendingBytes - matchingBytes
    prekeyLeases :=
      if a.usedPrekeyId = [] then s.prekeyLeases
      else s.prekeyLeases.erase ⟨client.codeId, a.usedPrekeyId⟩ }

def acknowledgeMessage (setup : Setup) (env : Surroundings) (s : State) (a : AckArgs)
    (now : Nat) : State × Except String Unit :=
  let s := prunePendingQueues setup.pendingMessageTtlMs now s
  match ackAccess setup env s.accounts a with
  | .error reason => (s, .error reason)
  | .ok client =>
    match acknowledgePlan setup s a client with
    | .error reason => (s, .error reason)
    | .ok s => (s, .ok ())

end Abyssal.Direct
