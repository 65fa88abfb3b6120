import Abyssal.Rooms.Validation

/-! Construction, sizing and renumbering of pending deliveries, and the
maintenance of ratchet gaps. -/

namespace Abyssal.Rooms

def RelayRoom.queueOf (room : RelayRoom) (codeId : CodeId) : List PendingDelivery :=
  (room.deliveries.get? codeId).getD []

def RelayRoom.revisionOf (room : RelayRoom) (codeId : CodeId) : Nat :=
  (room.memberRevisions.get? codeId).getD 0

def RelayRoom.findMember (room : RelayRoom) (codeId : CodeId) : Option Member :=
  room.members.values.find? (fun m => m.codeId = codeId)

def RelayRoom.memberActive (room : RelayRoom) (codeId : CodeId) : Bool :=
  match room.findMember codeId with
  | none => false
  | some m => m.active

def DeliveryPayload.isWelcome : DeliveryPayload → Bool
  | .membership _ _ _ _ _ welcome _ => !welcome.isEmpty
  | .application .. => false

def nextDeliveryRevision (room : RelayRoom) (codeId : CodeId) : Except String Nat :=
  let queued := ((room.queueOf codeId).getLast?.map PendingDelivery.revision).getD 0
  okOr (checkedAdd (max (room.revisionOf codeId) queued) 1) "delivery revision exhausted"

def renumberFrom : Nat → List PendingDelivery → Except String (List PendingDelivery)
  | _, [] => .ok []
  | next, d :: queue => do
    let following ← okOr (checkedAdd next 1) "delivery revision exhausted"
    let queue ← renumberFrom following queue
    .ok ({ d with revision := next } :: queue)

def renumberQueue (memberActive : Bool) (next : Nat) :
    List PendingDelivery → Except String (List PendingDelivery)
  -- The welcome at the head of an inactive member's queue keeps revision zero.
  | [] => .ok []
  | d :: queue =>
    if !memberActive && d.payload.isWelcome then do
      let queue ← renumberFrom 1 queue
      .ok ({ d with revision := 0 } :: queue)
    else renumberFrom next (d :: queue)

def compactDeliveryRevisions (room : RelayRoom) (codeId : CodeId) : Except String RelayRoom := do
  let next ← okOr (checkedAdd (room.revisionOf codeId) 1) "delivery revision exhausted"
  match room.deliveries.get? codeId with
  | none => .ok room
  | some queue => do
    let queue ← renumberQueue (room.memberActive codeId) next queue
    .ok { room with deliveries := room.deliveries.insert codeId queue }

structure GapScan where
  nextQueue : List PendingDelivery
  nextGaps : OrdMap (CodeId ×ₗ CodeId) Nat
  removed : Bool
  gapPairs : Nat

def GapScan.gap (scan : GapScan) (codeId sender : CodeId) : Option Nat :=
  scan.nextGaps.get? (toLex (codeId, sender))

def scanQueue (codeId : CodeId) (now : Nat) :
    GapScan → List PendingDelivery → Except (String × Nat) GapScan
  -- The scan stops with the pair count reached when a gap cannot be recorded.
  | scan, [] => .ok scan
  | scan, d :: queue =>
    match d.payload with
    | .membership .. => scanQueue codeId now { scan with nextQueue := scan.nextQueue ++ [d] } queue
    | .application sender _ _ _ _ =>
      if d.expiresAtMs ≤ now then
        let isNew := (scan.gap codeId sender).isNone
        if isNew && (maxExpiredGapPairsPerRoom ≤ scan.nextGaps.size ||
            maxGlobalExpiredGapPairs ≤ scan.gapPairs) then
          .error ("expired sender gap limit reached", scan.gapPairs)
        else
          let gap := (scan.gap codeId sender).getD 0
          if gapMax < gap + 1 then .error ("expired sender gap exhausted", scan.gapPairs)
          else
            let nextGaps := scan.nextGaps.insert (toLex (codeId, sender)) (gap + 1)
            match (if isNew then checkedAdd scan.gapPairs 1 else some scan.gapPairs) with
            | none => .error ("expired sender gap accounting rejected", scan.gapPairs)
            | some gapPairs =>
              scanQueue codeId now
                { scan with nextGaps := nextGaps, removed := true, gapPairs := gapPairs } queue
      else if maxRatchetBackHistory < (scan.gap codeId sender).getD 0 then
        scanQueue codeId now { scan with removed := true } queue
      else scanQueue codeId now { scan with nextQueue := scan.nextQueue ++ [d] } queue

def pruneQueue (now : Nat) (codeId : CodeId) (room : RelayRoom) (gapPairs : Nat) :
    RelayRoom × Nat × Except String Unit :=
  match room.deliveries.get? codeId with
  | none => (room, gapPairs, .ok ())
  | some queue =>
    match scanQueue codeId now ⟨[], room.expiredSenderGaps, false, gapPairs⟩ queue with
    | .error (reason, gapPairs) => (room, gapPairs, .error reason)
    | .ok scan =>
      if scan.removed then
        let room := { room with
          deliveries := room.deliveries.insert codeId scan.nextQueue
          expiredSenderGaps := scan.nextGaps }
        match compactDeliveryRevisions room codeId with
        | .error reason => (room, scan.gapPairs, .error reason)
        | .ok room => (room, scan.gapPairs, .ok ())
      else (room, scan.gapPairs, .ok ())

def pruneQueues (now : Nat) :
    List CodeId → RelayRoom → Nat → RelayRoom × Nat × Except String Unit
  | [], room, gapPairs => (room, gapPairs, .ok ())
  | codeId :: codeIds, room, gapPairs =>
    match pruneQueue now codeId room gapPairs with
    | (room, gapPairs, .error reason) => (room, gapPairs, .error reason)
    | (room, gapPairs, .ok ()) => pruneQueues now codeIds room gapPairs

def pruneExpiredApplicationDeliveries (σ : HashOrder) (room : RelayRoom) (now gapPairs : Nat) :
    RelayRoom × Nat × Except String Unit :=
  pruneQueues now (σ.codes room.roomId room.deliveries.keys) room gapPairs

def controlDelivery (room : RelayRoom) (transition : MembershipTransition) (member : Member)
    (revision : Nat) : PendingDelivery :=
  { roomId := room.roomId
    messageId := transition.messageId
    recipientCodeId := member.codeId
    epoch := transition.toEpoch
    membershipDigest := transition.membershipDigest
    revision := revision
    payload := .membership transition.fromEpoch transition.fromMembershipDigest
      transition.groupId transition.roster transition.control [] transition.authenticatedData
    createdAtMs := transition.createdAtMs
    expiresAtMs := wordMax }

def welcomeDelivery (room : RelayRoom) (transition : MembershipTransition) (member : Member) :
    PendingDelivery :=
  { roomId := room.roomId
    messageId := transition.messageId
    recipientCodeId := member.codeId
    epoch := transition.toEpoch
    membershipDigest := transition.membershipDigest
    revision := 0
    payload := .membership transition.fromEpoch transition.fromMembershipDigest
      transition.groupId transition.roster [] transition.welcome transition.authenticatedData
    createdAtMs := transition.createdAtMs
    expiresAtMs := wordMax }

def membershipDeliveries (room : RelayRoom) (transition : MembershipTransition)
    (next : OrdMap Text Member) : Except String (List PendingDelivery) := do
  let stays := room.members.entries.filter
    fun e => ¬ (e.2.codeId = room.ownerCodeId ∨ ¬ next.contains e.1)
  let controls ← mapChecked (fun e => do
    let revision ← nextDeliveryRevision room e.2.codeId
    .ok (controlDelivery room transition e.2 revision)) stays
  let joins := next.entries.filter fun e => ¬ room.members.contains e.1
  .ok (controls ++ joins.map fun e => welcomeDelivery room transition e.2)

def payloadSize : DeliveryPayload → Option Nat
  | .membership _ fromMembershipDigest groupId roster control welcome authenticatedData =>
    (checkedAdd fromMembershipDigest.length groupId.length).bind fun bytes =>
      ((rosterSizeFrom 0 roster).bind fun roster => checkedAdd bytes roster).bind fun bytes =>
        (checkedAdd bytes control.length).bind fun bytes =>
          (checkedAdd bytes welcome.length).bind fun bytes =>
            checkedAdd bytes authenticatedData.length
  | .application _ senderUsername _ ciphertext authenticatedData =>
    (checkedAdd codeIdBytes senderUsername.length).bind fun bytes =>
      (checkedAdd bytes ciphertext.length).bind fun bytes =>
        checkedAdd bytes authenticatedData.length

def deliverySize (d : PendingDelivery) : Except String Nat := do
  let payloadBytes ← okOr (payloadSize d.payload) "delivery accounting rejected"
  okOr ((checkedAdd d.roomId.length d.messageId.length).bind fun bytes =>
    (checkedAdd bytes d.membershipDigest.length).bind fun bytes =>
      checkedAdd bytes payloadBytes) "delivery accounting rejected"

def deliveryBytes (deliveries : List PendingDelivery) : Except String Nat :=
  foldChecked (fun total d => do
    let bytes ← deliverySize d
    okOr (checkedAdd total bytes) "delivery accounting rejected") 0 deliveries

end Abyssal.Rooms
