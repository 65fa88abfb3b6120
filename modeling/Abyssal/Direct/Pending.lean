import Abyssal.Direct.Frames

/-! Pending queues: expiry, and the three stages of an admission. A plan is simulated on the
queues' weights, validated again on the live queues, carried out, and undone by position and
id when a later stage rejects the message. -/

namespace Abyssal.Direct

structure State where
  accounts : Accounts
  pending : PendingQueues
  pendingBytes : Nat
  replayIds : OrdMap ReplayKey Nat
  prekeyLeases : PrekeyLeases

def queueOf (pending : PendingQueues) (key : PendingKey) : List PendingFrame :=
  (pending.get? key).getD []

def PrekeyLease.heldBy (claim : PrekeyLease) (key : PrekeyLeaseKey) (frame : OutboundMessage) :
    Bool :=
  frame.isPrekey && frame.chatId = claim.chatId && frame.messageId = claim.messageId &&
    frame.senderUsername = claim.senderUsername && frame.prekeyId = key.prekeyId

def pendingContainsLeasedFrame (pending : PendingQueues) (key : PrekeyLeaseKey)
    (claim : PrekeyLease) : Bool :=
  pending.entries.any fun e => e.1.recipientUsername = claim.recipientUsername &&
    e.2.any fun pendingFrame => claim.heldBy key pendingFrame.frame

def prunePrekeyLeases (claims : PrekeyLeases) (pending : PendingQueues) (now : Nat) :
    PrekeyLeases :=
  claims.filter fun key claim =>
    now - claim.createdAtMs < prekeyLeaseTtlMs || pendingContainsLeasedFrame pending key claim

def releasePrekeyLeaseDetails (claims : PrekeyLeases) (details : LeaseDetails) : PrekeyLeases :=
  -- The lease is found without its recipient: chat, message, sender and prekey decide.
  claims.filter fun key claim =>
    !(claim.chatId = details.chatId && claim.messageId = details.messageId &&
      claim.senderUsername = details.senderUsername && key.prekeyId = details.prekeyId)

def PendingFrame.expired (pendingMessageTtlMs now : Nat) (pendingFrame : PendingFrame) : Bool :=
  pendingMessageTtlMs ≤ now - pendingFrame.enqueuedAtMs

def expiredFrames (pendingMessageTtlMs now : Nat) (pending : PendingQueues) : List PendingFrame :=
  pending.values.flatMap fun queue => queue.filter (PendingFrame.expired pendingMessageTtlMs now)

def retainedQueues (pendingMessageTtlMs now : Nat) (pending : PendingQueues) : PendingQueues :=
  (pending.mapValues fun _ queue =>
    queue.filter fun pendingFrame => !pendingFrame.expired pendingMessageTtlMs now).filter
      fun _ queue => !queue.isEmpty

def prunePendingQueues (pendingMessageTtlMs now : Nat) (s : State) : State :=
  let expired := expiredFrames pendingMessageTtlMs now s.pending
  let pending := retainedQueues pendingMessageTtlMs now s.pending
  let claims := (expired.filterMap fun pendingFrame => prekeyLeaseDetails pendingFrame.frame).foldl
    releasePrekeyLeaseDetails s.prekeyLeases
  { s with
    pending := pending
    pendingBytes := expired.foldl
      (fun bytes pendingFrame => bytes - outboundFrameBytes pendingFrame.frame) s.pendingBytes
    prekeyLeases := prunePrekeyLeases claims pending now }

structure PendingQueuePlan where
  key : PendingKey
  evictionIndex : Option Nat
  evicted : Option PendingFrame

structure Simulation where
  bytes : Nat
  queues : PendingKey → List (Nat × Bool)

def weigh (queue : List PendingFrame) : List (Nat × Bool) :=
  queue.map fun pendingFrame =>
    (outboundFrameBytes pendingFrame.frame, isPrekeyFrame pendingFrame.frame)

def simulate (s : State) (reason : String) : Except String Simulation :=
  -- Every queued frame must still be canonical for the simulation to start.
  if s.pending.values.all fun queue =>
      queue.all fun pendingFrame => (validatedOutboundFrameBytes pendingFrame.frame).isSome then
    .ok { bytes := s.pendingBytes, queues := fun key => weigh (queueOf s.pending key) }
  else .error reason

def Simulation.makeRoom (sim : Simulation) (key : PendingKey) (full : String) :
    Except String (Option Nat × Simulation) :=
  -- Room for one more frame under the key: a full queue gives up its oldest frame that holds no
  -- prekey.
  if maxPendingFramesPerRoom ≤ (sim.queues key).length then
    match (sim.queues key).findIdx? fun weight => !weight.2 with
    | none => .error full
    | some index => .ok (some index,
        { bytes := sim.bytes - (((sim.queues key)[index]?).map Prod.fst).getD 0
          queues := Function.update sim.queues key ((sim.queues key).eraseIdx index) })
  else .ok (none, sim)

def Simulation.push (sim : Simulation) (key : PendingKey) (frame : OutboundMessage)
    (budget : String) : Except String Simulation := do
  let incomingBytes ← okOr (validatedOutboundFrameBytes frame) "pending frame rejected"
  let projectedNext ← okOr (checkedAdd sim.bytes incomingBytes) budget
  rejectIf (maxPendingBytes < projectedNext) budget
  .ok { bytes := projectedNext
        queues := Function.update sim.queues key
          (sim.queues key ++ [(incomingBytes, isPrekeyFrame frame)]) }

def fanoutStep (total : Nat) (e : Text × OutboundMessage) : Except String Nat := do
  let frameBytes ← okOr (validatedOutboundFrameBytes e.2) "fanout preparation budget full"
  let frameAndRecipient ← okOr (checkedAdd frameBytes e.1.length) "fanout preparation budget full"
  let total ← okOr (checkedAdd total frameAndRecipient) "fanout preparation budget full"
  rejectIf (maxTransientFanoutBytes < total) "fanout preparation budget full"
  .ok total

def preflightStep (acc : Simulation × List PendingQueuePlan) (e : Text × OutboundMessage) :
    Except String (Simulation × List PendingQueuePlan) := do
  let key : PendingKey := ⟨e.2.chatId, e.1⟩
  let (evictionIndex, sim) ← acc.1.makeRoom key "recipient pending queue full"
  let sim ← sim.push key e.2 "pending message budget full"
  .ok (sim, acc.2 ++ [⟨key, evictionIndex, none⟩])

def preflightPlan (s : State) (frames : List (Text × OutboundMessage)) :
    Except String (List PendingQueuePlan) := do
  let sim ← simulate s "pending frame rejected"
  let (_, plan) ← foldChecked preflightStep (sim, []) frames
  .ok plan

def preflightPendingFrames (pendingMessageTtlMs now : Nat) (s : State)
    (frames : List (Text × OutboundMessage)) : State × Except String (List PendingQueuePlan) :=
  match foldChecked fanoutStep 0 frames with
  | .error reason => (s, .error reason)
  | .ok _ =>
    let s := prunePendingQueues pendingMessageTtlMs now s
    (s, preflightPlan s frames)

def validateStep (sim : Simulation) (e : (Text × OutboundMessage) × PendingQueuePlan) :
    Except String Simulation := do
  let (expectedEviction, sim) ← sim.makeRoom e.2.key "pending queue changed during commit"
  rejectIf (expectedEviction ≠ e.2.evictionIndex) "pending queue changed during commit"
  rejectIf (e.2.evicted.isSome) "pending frame plan already committed"
  sim.push e.2.key e.1.2 "pending message budget changed during commit"

def validatePlan (s : State) (frames : List (Text × OutboundMessage))
    (plan : List PendingQueuePlan) : Except String Unit := do
  let sim ← simulate s "pending queue changed during commit"
  let _ ← foldChecked validateStep sim (frames.zip plan)
  .ok ()

def pushFrame (s : State) (queue : List PendingFrame) (pendingFrame : PendingFrame)
    (plan : PendingQueuePlan) : State × Except String PendingQueuePlan :=
  match validatedOutboundFrameBytes pendingFrame.frame with
  | none => ({ s with pending := s.pending.insert plan.key queue }, .error "pending frame rejected")
  | some incomingBytes =>
    match checkedAdd s.pendingBytes incomingBytes with
    | none => ({ s with pending := s.pending.insert plan.key queue },
        .error "pending message budget changed during commit")
    | some nextPendingBytes =>
      ({ s with
          pending := s.pending.insert plan.key (queue ++ [pendingFrame])
          pendingBytes := nextPendingBytes }, .ok plan)

def commitFrame (s : State) (pendingFrame : PendingFrame) (plan : PendingQueuePlan) :
    State × Except String PendingQueuePlan :=
  -- One step of the commit. A step that stops leaves behind what it already did.
  let queue := queueOf s.pending plan.key
  let opened := { s with pending := s.pending.insert plan.key queue }
  if maxPendingFramesPerRoom ≤ queue.length then
    match plan.evictionIndex.bind fun index => (queue[index]?).map (index, ·) with
    | none => (opened, .error "pending queue changed during commit")
    | some (index, evicted) =>
      if isPrekeyFrame evicted.frame then (opened, .error "pending queue changed during commit")
      else
        pushFrame { s with pendingBytes := s.pendingBytes - outboundFrameBytes evicted.frame }
          (queue.eraseIdx index) pendingFrame { plan with evicted := some evicted }
  else if plan.evictionIndex.isSome then (opened, .error "pending queue changed during commit")
  else pushFrame s queue pendingFrame plan

def commitFrames (now : Nat) (senderPlatform : ClientPlatform) :
    State → List ((Text × OutboundMessage) × PendingQueuePlan) →
      State × Except String (List PendingQueuePlan)
  | s, [] => (s, .ok [])
  | s, e :: es =>
    match commitFrame s ⟨e.1.2, now, senderPlatform⟩ e.2 with
    | (s, .error reason) => (s, .error reason)
    | (s, .ok plan) =>
      match commitFrames now senderPlatform s es with
      | (s, .error reason) => (s, .error reason)
      | (s, .ok plans) => (s, .ok (plan :: plans))

def commitPendingFrames (now : Nat) (s : State) (frames : List (Text × OutboundMessage))
    (plan : List PendingQueuePlan) (senderPlatform : ClientPlatform) :
    State × Except String (List PendingQueuePlan) :=
  if frames.length ≠ plan.length then (s, .error "pending frame plan mismatch")
  else match validatePlan s frames plan with
    | .error reason => (s, .error reason)
    | .ok () => commitFrames now senderPlatform s (frames.zip plan)

def rposition {α : Type} (p : α → Bool) : List α → Option Nat
  | [] => none
  | a :: as =>
    match rposition p as with
    | some index => some (index + 1)
    | none => if p a then some 0 else none

def sameMessage (frame : OutboundMessage) (pendingFrame : PendingFrame) : Bool :=
  pendingFrame.frame.messageId = frame.messageId &&
    pendingFrame.frame.senderUsername = frame.senderUsername

def withdraw (frame : OutboundMessage) (queue : List PendingFrame) (bytes : Nat) :
    List PendingFrame × Nat :=
  match rposition (sameMessage frame) queue with
  | none => (queue, bytes)
  | some index => (queue.eraseIdx index,
      bytes - (((queue[index]?).map fun pendingFrame =>
        outboundFrameBytes pendingFrame.frame).getD 0))

def restoreEvicted (plan : PendingQueuePlan) (queue : List PendingFrame) (bytes : Nat) :
    List PendingFrame × Nat :=
  match plan.evicted with
  | none => (queue, bytes)
  | some evicted =>
    (queue.insertIdx (min (plan.evictionIndex.getD queue.length) queue.length) evicted,
      saturatingAdd bytes (outboundFrameBytes evicted.frame))

def rollbackFrame (s : State) (e : (Text × OutboundMessage) × PendingQueuePlan) : State :=
  match s.pending.get? e.2.key with
  | none => s
  | some queue =>
    let (queue, bytes) := withdraw e.1.2 queue s.pendingBytes
    let (queue, bytes) := restoreEvicted e.2 queue bytes
    { s with pending := s.pending.insert e.2.key queue, pendingBytes := bytes }

def rollbackPendingFrames (s : State) (frames : List (Text × OutboundMessage))
    (plan : List PendingQueuePlan) : State :=
  let s := (frames.zip plan).foldl rollbackFrame s
  { s with pending := s.pending.filter fun _ queue => !queue.isEmpty }

def registerMessageId (now : Nat) (s : State) (key : ReplayKey) : State × Except String Unit :=
  let s := { s with replayIds := s.replayIds.filter fun _ seenAt => now - seenAt < replayWindowMs }
  if s.replayIds.contains key then (s, .error "message replay rejected")
  else if maxReplayIdsPerSender ≤
      (s.replayIds.keys.filter fun k => k.senderUsername = key.senderUsername).length then
    (s, .error "sender replay window full")
  else if maxReplayIds ≤ s.replayIds.size then (s, .error "replay window full")
  else ({ s with replayIds := s.replayIds.insert key now }, .ok ())

def unregisterMessageId (s : State) (key : ReplayKey) : State :=
  { s with replayIds := s.replayIds.erase key }

end Abyssal.Direct
