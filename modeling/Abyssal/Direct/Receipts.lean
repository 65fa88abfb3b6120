import Abyssal.Direct.Steps

/-! Transaction receipts, and the handlers of message and acknowledgement frames. A handler
reserves a receipt, runs its request and records the outcome, each under a lock of its own, so
that the handlers of different connections interleave between the three. -/

namespace Abyssal.Direct

def defaultGlobalReceiptLimit : Nat := 50000
def defaultAccountReceiptLimit : Nat := 2048

inductive TransactionKind
  | message
  | acknowledgement
  | mlsRoom
  | mlsSnapshot
  deriving DecidableEq

structure TransactionKey where
  accountId : CodeId
  kind : TransactionKind
  conversationId : Text
  messageId : Text
  deriving DecidableEq

instance : LinearOrder TransactionKind :=
  LinearOrder.lift' TransactionKind.ctorIdx fun a b h => by
    cases a <;> cases b <;> first | rfl | cases h

instance : LinearOrder TransactionKey :=
  LinearOrder.lift' (fun key => toLex (key.accountId, toLex (key.kind,
    toLex (key.conversationId, key.messageId)))) fun a b h => by
    cases a
    cases b
    simp_all

structure Receipt where
  frameDigest : Bytes
  accepted : Option Bool
  expiresAtMs : Nat

structure TransactionTicket where
  key : TransactionKey
  frameDigest : Bytes

inductive BeginOutcome
  | execute (ticket : TransactionTicket)
  | replay (accepted : Bool)
  | inProgress
  | capacityExceeded

inductive ReceiptError
  | conflictingFrame
  | missingReservation
  deriving DecidableEq

abbrev Receipts := OrdMap TransactionKey Receipt

def removeExpired (receipts : Receipts) (now : Nat) : Receipts :=
  receipts.filter fun _ receipt => now < receipt.expiresAtMs

/-- The digest function stands for SHA-256, the lifetime for the store's `terminal_ttl_ms`. -/
def beginTransaction (digest : Text → Bytes) (ttl : Nat) (receipts : Receipts)
    (key : TransactionKey) (exactFrame : Text) (now : Nat) :
    Receipts × Except ReceiptError BeginOutcome :=
  let receipts := removeExpired receipts now
  match receipts.get? key with
  | some receipt =>
    if receipt.frameDigest ≠ digest exactFrame then (receipts, .error .conflictingFrame)
    else
      match receipt.accepted with
      | some accepted => (receipts, .ok (.replay accepted))
      | none => (receipts, .ok .inProgress)
  | none =>
    if defaultGlobalReceiptLimit ≤ receipts.size ∨ defaultAccountReceiptLimit ≤
        (receipts.keys.filter fun existing => existing.accountId = key.accountId).length then
      (receipts, .ok .capacityExceeded)
    else
      (receipts.insert key ⟨digest exactFrame, none, saturatingAdd now ttl⟩,
        .ok (.execute ⟨key, digest exactFrame⟩))

def finishTransaction (ttl : Nat) (receipts : Receipts) (ticket : TransactionTicket)
    (accepted : Bool) (now : Nat) : Receipts × Except ReceiptError Unit :=
  match receipts.get? ticket.key with
  | none => (receipts, .error .missingReservation)
  | some receipt =>
    if receipt.frameDigest ≠ ticket.frameDigest ∨ receipt.accepted.isSome then
      (receipts, .error .conflictingFrame)
    else
      (receipts.insert ticket.key ⟨receipt.frameDigest, some accepted, saturatingAdd now ttl⟩,
        .ok ())

theorem beginTransaction_cases (digest : Text → Bytes) (ttl : Nat) (receipts : Receipts)
    (key : TransactionKey) (exactFrame : Text) (now : Nat) :
    (∃ result, beginTransaction digest ttl receipts key exactFrame now =
        (removeExpired receipts now, result) ∧ ∀ ticket, result ≠ .ok (.execute ticket)) ∨
      (removeExpired receipts now).get? key = none ∧
        beginTransaction digest ttl receipts key exactFrame now =
          ((removeExpired receipts now).insert key
            ⟨digest exactFrame, none, saturatingAdd now ttl⟩,
            .ok (.execute ⟨key, digest exactFrame⟩)) ∧
        (removeExpired receipts now).size < defaultGlobalReceiptLimit ∧
        ((removeExpired receipts now).keys.filter fun existing =>
          existing.accountId = key.accountId).length < defaultAccountReceiptLimit := by
  unfold beginTransaction
  simp only
  cases hget : (removeExpired receipts now).get? key with
  | some receipt =>
    simp only
    split_ifs with hdigest
    · exact .inl ⟨_, rfl, nofun⟩
    · cases receipt.accepted with
      | some accepted | none => exact .inl ⟨_, rfl, nofun⟩
  | none =>
    simp only
    split_ifs with hfull
    · exact .inl ⟨_, rfl, nofun⟩
    · simp only [not_or, Nat.not_le] at hfull
      exact .inr ⟨trivial, rfl, hfull⟩

theorem finishTransaction_cases (ttl : Nat) (receipts : Receipts) (ticket : TransactionTicket)
    (accepted : Bool) (now : Nat) :
    (∃ reason, finishTransaction ttl receipts ticket accepted now = (receipts, .error reason)) ∨
      (∃ receipt, receipts.get? ticket.key = some receipt ∧
        receipt.frameDigest = ticket.frameDigest ∧ receipt.accepted = none ∧
        finishTransaction ttl receipts ticket accepted now =
          (receipts.insert ticket.key ⟨ticket.frameDigest, some accepted, saturatingAdd now ttl⟩,
            .ok ())) := by
  unfold finishTransaction
  cases hget : receipts.get? ticket.key with
  | none => exact .inl ⟨_, rfl⟩
  | some receipt =>
    simp only
    split_ifs with hrefused
    · exact .inl ⟨_, rfl⟩
    · obtain ⟨hdigest, hunfinished⟩ := not_or.mp hrefused
      rw [not_not] at hdigest
      refine .inr ⟨receipt, rfl, hdigest, Option.not_isSome_iff_eq_none.mp hunfinished, ?_⟩
      rw [hdigest]

inductive Request
  | message (a : RouteArgs)
  | acknowledgement (a : AckArgs)

namespace Request

def senderId : Request → Uuid
  | .message a => a.senderId
  | .acknowledgement a => a.senderId

def chatId : Request → Text
  | .message a => a.chatId
  | .acknowledgement a => a.chatId

def messageId : Request → Text
  | .message a => a.messageId
  | .acknowledgement a => a.messageId

def kind : Request → TransactionKind
  | .message _ => .message
  | .acknowledgement _ => .acknowledgement

def recoverable (request : Request) : Bool :=
  -- Only requests whose ids are well formed get a receipt; the others are run and rejected.
  validChatId request.messageId && validChatId request.chatId

def transactionKey (request : Request) (accountId : CodeId) : TransactionKey :=
  ⟨accountId, request.kind, request.chatId, request.messageId⟩

def op (request : Request) (clock : RouteClock) : Op :=
  -- An acknowledgement reads the clock once.
  match request with
  | .message a => .route a clock
  | .acknowledgement a => .acknowledge a clock.admission

end Request

/-- Where the handler of a connection's frame stands. -/
inductive Handler
  | executing (request : Request) (ticket : Option TransactionTicket)
  | answering (ticket : TransactionTicket) (accepted : Bool)

def Handler.ticket : Handler → Option TransactionTicket
  | .executing _ ticket => ticket
  | .answering ticket _ => some ticket

structure Relay where
  core : State
  receipts : Receipts
  handlers : OrdMap Uuid Handler
  clock : Nat

inductive Event
  | receive (request : Request) (exactFrame : Text) (now : Nat)
  | execute (senderId : Uuid) (clock : RouteClock)
  | finish (senderId : Uuid) (now : Nat)
  | lease (a : LeaseArgs) (clock : LeaseClock)
  | release (a : ReleaseArgs)
  | prune (now : Nat)

def Event.readings : Event → List Nat
  | .receive _ _ now => [now]
  | .execute _ clock =>
    [clock.admission, clock.leases, clock.preflight, clock.commit, clock.register]
  | .finish _ now => [now]
  | .lease _ clock => [clock.prune, clock.leases]
  | .release _ => []
  | .prune now => [now]

structure Moment where
  env : Surroundings
  event : Event

namespace Relay

def receive (digest : Text → Bytes) (ttl : Nat) (env : Surroundings) (s : Relay)
    (request : Request) (exactFrame : Text) (now : Nat) : Relay :=
  -- The frame of a connection whose last one has been answered. Frames that are replayed, refused
  -- or in progress are answered at once.
  if (s.handlers.get? request.senderId).isSome then s
  else if request.recoverable then
    match clientIdentity env request.senderId with
    | .error _ => s
    | .ok client =>
      match beginTransaction digest ttl s.receipts (request.transactionKey client.codeId)
          exactFrame now with
      | (receipts, .ok (.execute ticket)) =>
        { s with
          receipts := receipts
          handlers := s.handlers.insert request.senderId (.executing request (some ticket)) }
      | (receipts, _) => { s with receipts := receipts }
  else { s with handlers := s.handlers.insert request.senderId (.executing request none) }

def answered (s : Relay) (senderId : Uuid) (ticket : Option TransactionTicket)
    (accepted : Bool) : Relay :=
  match ticket with
  | none => { s with handlers := s.handlers.erase senderId }
  | some ticket =>
    { s with handlers := s.handlers.insert senderId (.answering ticket accepted) }

def execute (setup : Setup) (env : Surroundings) (s : Relay) (senderId : Uuid)
    (clock : RouteClock) : Relay :=
  match s.handlers.get? senderId with
  | some (.executing request ticket) =>
    let outcome := exec setup s.core ⟨env, request.op clock⟩
    ({ s with core := outcome.1 } : Relay).answered senderId ticket outcome.2.isOk
  | _ => s

def finish (ttl : Nat) (s : Relay) (senderId : Uuid) (now : Nat) : Relay :=
  match s.handlers.get? senderId with
  | some (.answering ticket accepted) =>
    { s with
      receipts := (finishTransaction ttl s.receipts ticket accepted now).1
      handlers := s.handlers.erase senderId }
  | _ => s

def act (setup : Setup) (digest : Text → Bytes) (s : Relay) (m : Moment) : Relay :=
  match m.event with
  | .receive request exactFrame now =>
    s.receive digest setup.pendingMessageTtlMs m.env request exactFrame now
  | .execute senderId clock => s.execute setup m.env senderId clock
  | .finish senderId now => s.finish setup.pendingMessageTtlMs senderId now
  | .lease a clock => { s with core := Direct.step setup s.core ⟨m.env, .lease a clock⟩ }
  | .release a => { s with core := Direct.step setup s.core ⟨m.env, .release a⟩ }
  | .prune now => { s with core := Direct.step setup s.core ⟨m.env, .prune now⟩ }

def step (setup : Setup) (digest : Text → Bytes) (s : Relay) (m : Moment) : Relay :=
  { s.act setup digest m with clock := m.event.readings.getLast?.getD s.clock }

def start (accounts : Accounts) : Relay := ⟨Direct.start accounts, .empty, .empty, 0⟩

def after (setup : Setup) (digest : Text → Bytes) (accounts : Accounts) (moments : List Moment) :
    Relay :=
  runFrom (step setup digest) (start accounts) moments

end Relay

end Abyssal.Direct
