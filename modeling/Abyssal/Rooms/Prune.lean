import Abyssal.Rooms.Delivery

/-! Accounting of the whole authority and removal of everything that expired. -/

namespace Abyssal.Rooms

def pendingApplicationBytes (pending : PendingApplication) : Option Nat :=
  (checkedAdd pending.admission.ciphertext.length pending.admission.authenticatedData.length).bind
    fun bytes => checkedAdd bytes pending.admission.messageId.length

def addPending (total : Nat) (pending : PendingApplication) : Except String Nat := do
  let bytes ← okOr (pendingApplicationBytes pending) "pending application accounting rejected"
  okOr (checkedAdd total bytes) "pending application accounting rejected"

def addJoinState (total : Nat) (join : PendingJoin) : Except String Nat :=
  okOr (checkedAdd total join.stateEnvelope.length) "state snapshot accounting rejected"

def addDelivery (total : Nat) (d : PendingDelivery) : Except String Nat := do
  let bytes ← deliverySize d
  okOr (checkedAdd total bytes) "delivery accounting rejected"

def addQueue (totals : Nat × Nat) (queue : List PendingDelivery) : Except String (Nat × Nat) := do
  let count ← okOr (checkedAdd totals.1 queue.length) "delivery accounting rejected"
  let bytes ← foldChecked addDelivery totals.2 queue
  .ok (count, bytes)

def AuthorityAccounting.addRoom (totals : AuthorityAccounting) (room : RelayRoom) :
    Except String AuthorityAccounting := do
  let pendingCount ← okOr (checkedAdd totals.pendingCount room.pendingApplications.size)
    "pending application accounting rejected"
  let pendingBytes ← foldChecked addPending totals.pendingBytes room.pendingApplications.values
  let snapshotCount ← okOr ((checkedAdd totals.snapshotCount room.snapshots.size).bind
    fun count => checkedAdd count room.joins.size) "state snapshot accounting rejected"
  let snapshotBytes ← okOr (checkedAdd totals.snapshotBytes room.snapshotBytes)
    "state snapshot accounting rejected"
  let snapshotBytes ← foldChecked addJoinState snapshotBytes room.joins.values
  let replayCount ← okOr (checkedAdd totals.replayCount room.replayIds.length)
    "replay accounting rejected"
  let delivery ← foldChecked addQueue (totals.deliveryCount, totals.deliveryBytes)
    room.deliveries.values
  let expiredGapPairs ← okOr
    ((checkedAdd totals.expiredGapPairs room.expiredSenderGaps.size).filter
      (· ≤ maxGlobalExpiredGapPairs)) "expired sender gap accounting rejected"
  .ok { pendingBytes, pendingCount, snapshotBytes, snapshotCount, replayCount,
        deliveryBytes := delivery.2, deliveryCount := delivery.1, expiredGapPairs }

namespace RoomAuthority

def checkedAccountingExcluding (s : RoomAuthority) (excludedRoomId : Option Text) :
    Except String AuthorityAccounting :=
  foldChecked AuthorityAccounting.addRoom {}
    (s.rooms.values.filter fun room => excludedRoomId ≠ some room.roomId)

def applyAccounting (s : RoomAuthority) (totals : AuthorityAccounting) : RoomAuthority :=
  { s with
    globalPendingBytes := totals.pendingBytes
    globalPendingCount := totals.pendingCount
    globalSnapshotBytes := totals.snapshotBytes
    globalSnapshotCount := totals.snapshotCount
    globalReplayCount := totals.replayCount
    globalDeliveryBytes := totals.deliveryBytes
    globalDeliveryCount := totals.deliveryCount
    globalExpiredGapPairs := totals.expiredGapPairs }

def recomputeStateAccounting (s : RoomAuthority) : Except String RoomAuthority := do
  let totals ← s.checkedAccountingExcluding none
  .ok { s with
    globalSnapshotCount := totals.snapshotCount
    globalSnapshotBytes := totals.snapshotBytes }

def gapPairTotal (s : RoomAuthority) : Option Nat :=
  checkedSum (s.rooms.values.map fun room => room.expiredSenderGaps.size)

def recomputeGapAccounting (s : RoomAuthority) : Except String RoomAuthority := do
  let pairs ← okOr (s.gapPairTotal.filter (· ≤ maxGlobalExpiredGapPairs))
    "expired sender gap accounting rejected"
  .ok { s with globalExpiredGapPairs := pairs }

def oldestFront (rooms : OrdMap Text RelayRoom) :
    Option (Text × Nat) → List Text → Option (Text × Nat)
  | best, [] => best
  | best, roomId :: roomIds =>
    match (rooms.get? roomId).bind fun room => room.replayIds.head? with
    | none => oldestFront rooms best roomIds
    | some (_, createdAt) =>
      match best with
      | none => oldestFront rooms (some (roomId, createdAt)) roomIds
      | some (bestId, bestAt) =>
        if bestAt ≤ createdAt then oldestFront rooms (some (bestId, bestAt)) roomIds
        else oldestFront rooms (some (roomId, createdAt)) roomIds

def trimLoop (σ : HashOrder) : Nat → RoomAuthority → RoomAuthority × Except String Unit
  -- Eviction while the global count is over its limit; the count falls by one each round, so the
  -- count itself is fuel enough.
  | 0, s => (s, .ok ())
  | fuel + 1, s =>
    if maxGlobalReplayIds < s.globalReplayCount then
      match oldestFront s.rooms none (σ.rooms s.rooms.keys) with
      | none => (s, .error "replay accounting rejected")
      | some (roomId, _) =>
        match s.rooms.get? roomId with
        | none => trimLoop σ fuel { s with globalReplayCount := s.globalReplayCount - 1 }
        | some room =>
          match room.replayIds with
          | [] => (s, .error "replay accounting rejected")
          | _ :: replayIds =>
            trimLoop σ fuel { s with
              rooms := s.rooms.insert roomId { room with replayIds := replayIds }
              globalReplayCount := s.globalReplayCount - 1 }
    else (s, .ok ())

def trimReplayIds (σ : HashOrder) (s : RoomAuthority) : RoomAuthority × Except String Unit :=
  match checkedSum (s.rooms.values.map fun room => room.replayIds.length) with
  | none => (s, .error "replay accounting rejected")
  | some count => trimLoop σ count { s with globalReplayCount := count }

end RoomAuthority

namespace RelayRoom

def withoutMessage (messageId : Text) (queue : List PendingDelivery) : List PendingDelivery :=
  queue.filter fun d => d.messageId ≠ messageId

def dropDelivery (messageId : Text) (room : RelayRoom) (codeId : CodeId) : RelayRoom :=
  -- Expiry takes one message out of one queue; a failed renumbering only marks the counter.
  let room := { room with deliveries := room.deliveries.modify codeId (withoutMessage messageId) }
  match compactDeliveryRevisions room codeId with
  | .ok room => room
  | .error _ => { room with deliveryBytes := wordMax }

def restoreSender (room : RelayRoom) (pending : PendingApplication) : RelayRoom :=
  { room with
    memberRevisions :=
      room.memberRevisions.insert pending.senderCodeId pending.previousSenderRevision
    snapshots :=
      match pending.previousSnapshot with
      | some snapshot => room.snapshots.insert pending.senderCodeId snapshot
      | none => room.snapshots.erase pending.senderCodeId }

def expireApplication (σ : HashOrder) (room : RelayRoom) (messageId : Text) : RelayRoom :=
  match room.pendingApplications.get? messageId with
  | none => room
  | some pending =>
    let room := { room with pendingApplications := room.pendingApplications.erase messageId }
    let room := (σ.codes room.roomId room.deliveries.keys).foldl (dropDelivery messageId) room
    room.restoreSender pending

def expiredApplications (room : RelayRoom) (now : Nat) : List Text :=
  (room.pendingApplications.filter fun _ p => p.admission.expiresAtMs ≤ now).keys

def pruneRequests (room : RelayRoom) (now : Nat) : RelayRoom :=
  { room with
    joins := room.joins.filter fun _ join => now < join.request.expiresAtMs
    leaves := room.leaves.filter fun _ leave => now < leave.expiresAtMs
    pendingTransition := room.pendingTransition.filter fun t => now < t.expiresAtMs }

def expireApplications (σ : HashOrder) (room : RelayRoom) (now : Nat) : RelayRoom :=
  (σ.ids room.roomId (room.expiredApplications now)).foldl (expireApplication σ) room

def dropEmptyQueues (room : RelayRoom) : RelayRoom :=
  { room with deliveries := room.deliveries.filter fun _ queue => !queue.isEmpty }

def recountPending (room : RelayRoom) : RelayRoom :=
  { room with
    pendingBytes := ((foldChecked addPending 0 room.pendingApplications.values).toOption).getD
      wordMax }

def snapshotTotal (snapshots : List StateSnapshot) : Except String Nat :=
  foldChecked (fun total snapshot => do
    let bytes ← snapshotSize snapshot
    okOr (checkedAdd total bytes) "state snapshot accounting rejected") 0 snapshots

def recountSnapshots (room : RelayRoom) : RelayRoom :=
  { room with snapshotBytes := ((snapshotTotal room.snapshots.values).toOption).getD wordMax }

def pruneReplayIds (room : RelayRoom) (now replayTtlMs : Nat) : RelayRoom :=
  { room with replayIds := room.replayIds.dropWhile fun e => replayTtlMs ≤ now - e.2 }

def recountDeliveries (room : RelayRoom) : RelayRoom :=
  { room with
    deliveryBytes := ((Rooms.deliveryBytes room.deliveries.values.flatten).toOption).getD wordMax }

def pruneDeliveries (σ : HashOrder) (room : RelayRoom) (now gapPairs : Nat) : RelayRoom × Nat :=
  match pruneExpiredApplicationDeliveries σ room now gapPairs with
  | (room, gapPairs, .ok ()) => (room, gapPairs)
  | (room, gapPairs, .error _) => ({ room with deliveryBytes := wordMax }, gapPairs)

def prune (σ : HashOrder) (now replayTtlMs : Nat) (room : RelayRoom) (gapPairs : Nat) :
    RelayRoom × Nat :=
  let room := room.pruneRequests now
  let room := room.expireApplications σ now
  let room := room.dropEmptyQueues
  let room := room.recountPending
  let room := room.recountSnapshots
  let room := room.pruneReplayIds now replayTtlMs
  let room := room.recountSnapshots
  let pruned := room.pruneDeliveries σ now gapPairs
  (pruned.1.dropEmptyQueues.recountDeliveries, pruned.2)

end RelayRoom

namespace RoomAuthority

def pruneRooms (σ : HashOrder) (now replayTtlMs : Nat) :
    List Text → OrdMap Text RelayRoom → Nat → OrdMap Text RelayRoom × Nat
  | [], rooms, gapPairs => (rooms, gapPairs)
  | roomId :: roomIds, rooms, gapPairs =>
    match rooms.get? roomId with
    | none => pruneRooms σ now replayTtlMs roomIds rooms gapPairs
    | some room =>
      let pruned := room.prune σ now replayTtlMs gapPairs
      pruneRooms σ now replayTtlMs roomIds (rooms.insert roomId pruned.1) pruned.2

def exhaustAccounting (s : RoomAuthority) : RoomAuthority :=
  { s with
    globalPendingCount := wordMax
    globalPendingBytes := wordMax
    globalSnapshotCount := wordMax
    globalSnapshotBytes := wordMax
    globalReplayCount := wordMax
    globalDeliveryCount := wordMax
    globalDeliveryBytes := wordMax }

def pruneAllRooms (σ : HashOrder) (now : Nat) (s : RoomAuthority) : RoomAuthority :=
  { s with
    rooms := (pruneRooms σ now s.replayTtlMs (σ.rooms s.rooms.keys) s.rooms
      (s.gapPairTotal.getD wordMax)).1 }

def recountAll (s : RoomAuthority) : RoomAuthority :=
  -- The counters taken again from the rooms; a failed count marks them all as exhausted.
  match s.checkedAccountingExcluding none with
  | .ok totals => s.applyAccounting totals
  | .error _ => s.exhaustAccounting

def trimOrExhaust (σ : HashOrder) (s : RoomAuthority) : RoomAuthority :=
  match s.trimReplayIds σ with
  | (s, .ok ()) => s
  | (s, .error _) => { s with globalReplayCount := wordMax }

def pruneExpired (σ : HashOrder) (now : Nat) (s : RoomAuthority) : RoomAuthority :=
  ((s.pruneAllRooms σ now).recountAll).trimOrExhaust σ

end RoomAuthority
end Abyssal.Rooms
