import Abyssal.Direct.Identity
import Abyssal.Direct.Pending

/-! What the message operations look up, and prekey leases. Every operation runs under the
relay's conversation lock; the clock readings it takes on the way are inputs. -/

namespace Abyssal.Direct

structure InteropPolicy where
  allowAndroidToWeb : Bool
  allowWebToAndroid : Bool
  deriving DecidableEq

def InteropPolicy.allows (policy : InteropPolicy) : ClientPlatform → ClientPlatform → Bool
  | .android, .web => policy.allowAndroidToWeb
  | .web, .android => policy.allowWebToAndroid
  | _, _ => true

structure Setup where
  crypto : Crypto
  nodeId : Text
  interopPolicy : InteropPolicy
  pendingMessageTtlMs : Nat

/-- What an operation reads of the rest of the relay: connected clients, MLS membership (with
whether the member is active), the room and direct catalogues and staged attachments; and the
two choices the language leaves open, the order of a hash set and the random filler. -/
structure Surroundings where
  clients : OrdMap Uuid ClientHandle
  mlsMembers : OrdMap Text (OrdMap CodeId Bool)
  roomCatalog : List Text
  directCatalog : OrdMap Text DirectEntry
  stagedAttachment : CodeId → Text → Text → Except String (Option Uuid)
  order : List Text → List Text
  order_perm : ∀ l, (order l).Perm l
  random : Text → Nat → UInt8

def clientIdentity (env : Surroundings) (senderId : Uuid) : Except String ClientHandle :=
  okOr (env.clients.get? senderId) "authenticated client required"

def findAccount (accounts : Accounts) (username : Text) : Option (CodeId × Account) :=
  accounts.entries.find? fun e => e.2.username = username

inductive ConversationAccess
  | mlsRoom | room | direct
  deriving DecidableEq

def catalogAccess (env : Surroundings) (username chatId : Text) : Option ConversationAccess :=
  if env.roomCatalog.contains chatId then some .room
  else (env.directCatalog.get? chatId).bind fun direct =>
    if direct.userA = username ∨ direct.userB = username then some .direct else none

def conversationAccess (env : Surroundings) (accounts : Accounts) (username chatId : Text) :
    Option ConversationAccess :=
  if ¬ validChatId chatId then none
  else match (findAccount accounts username).bind fun e =>
      (env.mlsMembers.get? chatId).bind (·.get? e.1) with
    | some active => if active then some .mlsRoom else none
    | none => catalogAccess env username chatId

def directPeer (env : Surroundings) (username chatId : Text) : Option Text :=
  (env.directCatalog.get? chatId).bind (·.peerFor username)

def directoryStamp (setup : Setup) (accounts : Accounts) : DirectoryStamp :=
  let revision := min (max accounts.size 1) maxDirectoryRevision
  { nodeId := setup.nodeId
    revision := revision
    digest := setup.crypto.directoryDigest setup.nodeId revision
      ((accounts.values.filter fun account =>
          identityFingerprintBytes ≤ account.identityPublic.length).map fun account =>
        (account.username, account.identityPublic.take identityFingerprintBytes)) }

def validateDirectoryEvidence (setup : Setup) (accounts : Accounts) :
    Option DirectoryStamp → Except String DirectoryStamp
  | none => .error "directory evidence required"
  | some candidate =>
    if ¬ validNodeId candidate.nodeId ∨ candidate.revision < 1 ∨
        maxDirectoryRevision < candidate.revision then .error "directory evidence rejected"
    else match decodeExact setup.crypto candidate.digest directoryDigestBytes with
      | .error _ => .error "directory evidence rejected"
      | .ok _ =>
        if candidate = directoryStamp setup accounts then .ok (directoryStamp setup accounts)
        else .error "directory evidence rejected"

def requireRecipientPlatforms (setup : Setup) (accounts : Accounts)
    (senderPlatform : ClientPlatform) (recipients : List Text) : Except String Unit :=
  foldChecked (fun _ recipient => do
    let platform ← okOr ((findAccount accounts recipient).bind fun e => e.2.clientPlatform)
      "recipient client unavailable"
    rejectIf (¬ setup.interopPolicy.allows senderPlatform platform)
      "client interoperability policy rejected") () recipients

structure LeaseReply where
  chatId : Text
  messageId : Text
  recipientUsername : Text
  recipientPublicKeyB64 : Text
  prekeyId : Text
  expiresAtMs : Nat
  deriving DecidableEq

structure LeaseArgs where
  senderId : Uuid
  chatId : Text
  messageId : Text
  recipientUsername : Text

def leaseChecks (env : Surroundings) (accounts : Accounts) (a : LeaseArgs) :
    Except String Text := do
  rejectIf (¬ validChatId a.chatId ∨ ¬ validChatId a.messageId ∨
    ¬ validUsername a.recipientUsername) "prekey lease rejected"
  let client ← clientIdentity env a.senderId
  rejectIf (client.username = a.recipientUsername) "prekey lease rejected"
  let access ← okOr (conversationAccess env accounts client.username a.chatId)
    "conversation unavailable"
  let authorized : Bool := match access with
    | .mlsRoom => false
    | .direct => directPeer env client.username a.chatId = some a.recipientUsername
    | .room => (findAccount accounts a.recipientUsername).isSome
  rejectIf (¬ authorized) "prekey lease rejected"
  .ok client.username

def PrekeyLease.boundTo (claim : PrekeyLease)
    (chatId messageId senderUsername recipientUsername : Text) : Bool :=
  claim.chatId = chatId && claim.messageId = messageId &&
    claim.senderUsername = senderUsername && claim.recipientUsername = recipientUsername

def chooseLease (setup : Setup) (now : Nat) (leases : PrekeyLeases) (a : LeaseArgs)
    (senderUsername : Text) (codeId : CodeId) (account : Account) (pool : List Text) :
    Except String (LeaseReply × PrekeyLeases) :=
  -- The lease table is already pruned. A lease the message holds is given again; otherwise the
  -- first prekey of the pool that nobody holds is leased.
  let reply (prekeyId : Text) (createdAtMs : Nat) : LeaseReply :=
    ⟨a.chatId, a.messageId, a.recipientUsername, setup.crypto.encode account.identityPublic,
      prekeyId, saturatingAdd createdAtMs prekeyLeaseTtlMs⟩
  match leases.entries.filter fun e => e.1.codeId = codeId &&
      e.2.boundTo a.chatId a.messageId senderUsername a.recipientUsername with
  | [e] => .ok (reply e.1.prekeyId e.2.createdAtMs, leases)
  | _ :: _ :: _ => .error "prekey lease rejected"
  | [] =>
    if maxPrekeyLeases ≤ leases.size ∨ maxPrekeyLeasesPerRecipient ≤
        (leases.keys.filter fun key => key.codeId = codeId).length then
      .error "prekey lease capacity full"
    else match pool.find? fun id => !leases.contains ⟨codeId, id⟩ with
      | none => .error "recipient prekey unavailable"
      | some prekeyId => .ok (reply prekeyId now, leases.insert ⟨codeId, prekeyId⟩
          ⟨a.chatId, a.messageId, senderUsername, a.recipientUsername, now⟩)

structure LeaseClock where
  prune : Nat
  leases : Nat

def leasePrekey (setup : Setup) (env : Surroundings) (s : State) (a : LeaseArgs)
    (clock : LeaseClock) : State × Except String LeaseReply :=
  match leaseChecks env s.accounts a with
  | .error reason => (s, .error reason)
  | .ok senderUsername =>
    let s := prunePendingQueues setup.pendingMessageTtlMs clock.prune s
    match findAccount s.accounts a.recipientUsername with
    | none => (s, .error "recipient unavailable")
    | some (codeId, account) =>
      match setup.crypto.prekeyIds account.identityPublic with
      | none => (s, .error "recipient unavailable")
      | some pool =>
        let leases := prunePrekeyLeases s.prekeyLeases s.pending clock.leases
        match chooseLease setup clock.leases leases a senderUsername codeId account pool with
        | .error reason => ({ s with prekeyLeases := leases }, .error reason)
        | .ok (reply, leases) => ({ s with prekeyLeases := leases }, .ok reply)

structure ReleaseArgs where
  senderId : Uuid
  chatId : Text
  messageId : Text
  recipientUsername : Text
  prekeyId : Text

def releaseChecks (env : Surroundings) (s : State) (a : ReleaseArgs) :
    Except String PrekeyLeaseKey := do
  rejectIf (¬ validChatId a.chatId ∨ ¬ validChatId a.messageId ∨
    ¬ validUsername a.recipientUsername ∨ ¬ validPrekeyId a.prekeyId ∨ a.prekeyId = [])
    "prekey lease release rejected"
  let client ← clientIdentity env a.senderId
  let (codeId, _) ← okOr (findAccount s.accounts a.recipientUsername)
    "prekey lease release rejected"
  let key : PrekeyLeaseKey := ⟨codeId, a.prekeyId⟩
  let lease ← okOr (s.prekeyLeases.get? key) "prekey lease release rejected"
  rejectIf (¬ lease.boundTo a.chatId a.messageId client.username a.recipientUsername ∨
    pendingContainsLeasedFrame s.pending key lease) "prekey lease release rejected"
  .ok key

def releaseUnusedPrekeyLease (env : Surroundings) (s : State) (a : ReleaseArgs) :
    State × Except String Unit :=
  match releaseChecks env s a with
  | .error reason => (s, .error reason)
  | .ok key => ({ s with prekeyLeases := s.prekeyLeases.erase key }, .ok ())

end Abyssal.Direct
