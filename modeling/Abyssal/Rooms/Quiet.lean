import Abyssal.Rooms.Balance

/-! Pruning a state in which nothing is due leaves it as it is. -/

namespace Abyssal.Rooms

open RelayRoom RoomAuthority OrdMap List

def Waiting (gaps : OrdMap (CodeId ×ₗ CodeId) Nat) (now : Nat) (c : CodeId) (d : PendingDelivery) :
    Prop :=
  ∀ sender, d.payload.sender? = some sender →
    now < d.expiresAtMs ∧ (gaps.get? (toLex (c, sender))).getD 0 ≤ maxRatchetBackHistory

structure Quiet (now ttl : Nat) (room : RelayRoom) : Prop where
  joins : ∀ id j, room.joins.get? id = some j → now < j.request.expiresAtMs
  leaves : ∀ id l, room.leaves.get? id = some l → now < l.expiresAtMs
  transition : ∀ t, room.pendingTransition = some t → now < t.expiresAtMs
  pendings : ∀ m p, room.pendingApplications.get? m = some p → now < p.admission.expiresAtMs
  replay : ∀ e ∈ room.replayIds, now - e.2 < ttl
  nonempty : ∀ c queue, room.deliveries.get? c = some queue → queue ≠ []
  waiting : ∀ c queue, room.deliveries.get? c = some queue →
    ∀ d ∈ queue, Waiting room.expiredSenderGaps now c d

variable {now : Nat}

theorem scanQueue_waiting {c : CodeId} {scan : GapScan} {queue : List PendingDelivery}
    (h : ∀ d ∈ queue, Waiting scan.nextGaps now c d) :
    scanQueue c now scan queue = .ok { scan with nextQueue := scan.nextQueue ++ queue } := by
  induction queue generalizing scan with
  | nil =>
    rw [append_nil]
    rfl
  | cons d queue ih =>
    have hrest : scanQueue c now { scan with nextQueue := scan.nextQueue ++ [d] } queue =
        .ok { scan with nextQueue := scan.nextQueue ++ (d :: queue) } := by
      have happend := @ih { scan with nextQueue := scan.nextQueue ++ [d] }
        fun d' hd' => h d' (mem_cons_of_mem _ hd')
      rw [happend, append_assoc, singleton_append]
    have hd := h d (mem_cons_self ..)
    unfold scanQueue
    cases hpayload : d.payload with
    | membership => exact hrest
    | application sender =>
      obtain ⟨hdue, hgap⟩ := hd sender (by rw [hpayload]; rfl)
      change (scan.gap c sender).getD 0 ≤ maxRatchetBackHistory at hgap
      simp only
      rw [if_neg (Nat.not_le.mpr hdue), if_neg (Nat.not_lt.mpr hgap)]
      exact hrest

variable {room : RelayRoom}

theorem pruneQueues_quiet
    (h : ∀ c queue, room.deliveries.get? c = some queue →
      ∀ d ∈ queue, Waiting room.expiredSenderGaps now c d) (cs : List CodeId) (pairs : Nat) :
    pruneQueues now cs room pairs = (room, pairs, .ok ()) := by
  induction cs with
  | nil => rfl
  | cons c cs ih =>
    have hone : pruneQueue now c room pairs = (room, pairs, .ok ()) := by
      unfold pruneQueue
      cases hq : room.deliveries.get? c with
      | none => rfl
      | some queue =>
        simp only
        rw [scanQueue_waiting (h c queue hq)]
        rfl
    rw [pruneQueues, hone]
    exact ih

namespace Quiet

variable {now ttl : Nat} {room : RelayRoom} (h : Quiet now ttl room)

include h

theorem pruneRequests : room.pruneRequests now = room := by
  have hjoins : room.joins.filter (fun _ join => now < join.request.expiresAtMs) = room.joins :=
    filter_eq_self fun id j hj => decide_eq_true (h.joins id j hj)
  have hleaves : room.leaves.filter (fun _ leave => now < leave.expiresAtMs) = room.leaves :=
    filter_eq_self fun id l hl => decide_eq_true (h.leaves id l hl)
  have htransition : room.pendingTransition.filter (fun t => now < t.expiresAtMs) =
      room.pendingTransition := by
    cases ht : room.pendingTransition with
    | none => rfl
    | some t => exact Option.filter_eq_some_iff.mpr ⟨rfl, decide_eq_true (h.transition t ht)⟩
  rw [RelayRoom.pruneRequests, hjoins, hleaves, htransition]

theorem expireApplications (σ : HashOrder) : room.expireApplications σ now = room := by
  have hnone : room.expiredApplications now = [] := by
    rw [expiredApplications, eq_nil_iff_forall_not_mem]
    intro m hm
    obtain ⟨p, hp⟩ := mem_keys.mp hm
    rw [get?_filter, Option.filter_eq_some_iff, decide_eq_true_eq] at hp
    exact absurd (h.pendings m p hp.1) (Nat.not_lt.mpr hp.2)
  rw [RelayRoom.expireApplications, hnone, (σ.ids_perm room.roomId []).eq_nil]
  rfl

theorem dropEmptyQueues : room.dropEmptyQueues = room := by
  have hqueues : room.deliveries.filter (fun _ queue => !queue.isEmpty) = room.deliveries := by
    refine filter_eq_self fun c queue hq => ?_
    have hne := h.nonempty c queue hq
    simpa using hne
  rw [RelayRoom.dropEmptyQueues, hqueues]

theorem pruneReplayIds : room.pruneReplayIds now ttl = room := by
  have hall : room.replayIds.dropWhile (fun e => decide (ttl ≤ now - e.2)) = room.replayIds := by
    cases hids : room.replayIds with
    | nil => rfl
    | cons e ids =>
      have he := h.replay e (hids ▸ mem_cons_self ..)
      exact dropWhile_cons_of_neg (by simpa using he)
  rw [RelayRoom.pruneReplayIds, hall]

theorem swept (hsized : Sized room) (hexact : Exact room)
    (σ : HashOrder) : room.swept σ now ttl = room := by
  have hpending : room.recountPending = room := by
    rw [recountPending, recount_pending hsized, ← hexact.pendingBytes]
  have hsnapshots : room.recountSnapshots = room := by
    rw [recountSnapshots, recount_snapshots hsized, ← hexact.snapshotBytes]
  rw [RelayRoom.swept, h.pruneRequests, h.expireApplications, h.dropEmptyQueues, hpending,
    hsnapshots, h.pruneReplayIds, hsnapshots]

theorem prune (hsized : Sized room) (hexact : Exact room)
    (σ : HashOrder) (pairs : Nat) : room.prune σ now ttl pairs = (room, pairs) := by
  have hqueues : room.pruneDeliveries σ now pairs = (room, pairs) := by
    rw [pruneDeliveries, pruneExpiredApplicationDeliveries, pruneQueues_quiet h.waiting]
  have hdeliveries : room.recountDeliveries = room := by
    rw [recountDeliveries, recount_deliveries hsized, ← hexact.deliveryBytes]
  rw [prune_eq, h.swept hsized hexact, hqueues]
  simp only [h.dropEmptyQueues, hdeliveries]

end Quiet

variable {s : RoomAuthority} {a : CreateArgs}

theorem pruneRooms_quiet {ttl : Nat} {rooms : OrdMap Text RelayRoom}
    (h : ∀ id room, rooms.get? id = some room → Quiet now ttl room ∧ Sized room ∧ Exact room)
    (σ : HashOrder) (ids : List Text) (pairs : Nat) :
    pruneRooms σ now ttl ids rooms pairs = (rooms, pairs) := by
  induction ids with
  | nil => rfl
  | cons id ids ih =>
    unfold pruneRooms
    cases hroom : rooms.get? id with
    | none => exact ih
    | some room =>
      obtain ⟨hquiet, hsized, hexact⟩ := h id room hroom
      simp only
      rw [hquiet.prune hsized hexact, insert_of_get? hroom]
      exact ih

theorem pruneExpired_quiet (hregular : Regular s) (hbalanced : Balanced s)
    (hreplay : s.replayTotal ≤ maxGlobalReplayIds) (h : AllRooms (Quiet now s.replayTtlMs) s)
    (σ : HashOrder) : s.pruneExpired σ now = s := by
  have hrooms : s.pruneAllRooms σ now = s := by
    rw [pruneAllRooms, pruneRooms_quiet]
    intro id room hroom
    exact ⟨h id room hroom, hregular.sized id room hroom, hbalanced.rooms id room hroom⟩
  have hcounters : s.applyAccounting s.totals = s := by
    rw [← hbalanced.counters]
    rfl
  have hrecount : s.recountAll = s := by
    rw [recountAll, accounting_ok hregular.capacity hregular.sized
      fun id r hr => (hbalanced.rooms id r hr).snapshotBytes]
    exact hcounters
  have htotal : s.globalReplayCount = s.replayTotal :=
    (congrArg AuthorityAccounting.replayCount hbalanced.counters).trans (sum_values ..)
  have htrim : s.trimReplayIds σ = (s, .ok ()) := by
    have hsum : checkedSum (s.rooms.values.map fun room => room.replayIds.length) =
        some s.globalReplayCount := by
      refine checkedSum_eq_some.mpr ⟨?_, ?_⟩
      · rw [sum_values]
        exact hreplay.trans (by decide)
      · rw [sum_values]
        exact htotal
    have hloop : ∀ fuel, trimLoop σ fuel s = (s, .ok ()) := by
      intro fuel
      cases fuel with
      | zero => rfl
      | succ fuel => exact if_neg (Nat.not_lt.mpr (htotal ▸ hreplay))
    rw [trimReplayIds, hsum]
    exact hloop s.globalReplayCount
  rw [pruneExpired, hrooms, hrecount, trimOrExhaust, htrim]

structure RoomAuthority.CreateArgs.Formed (a : CreateArgs) : Prop where
  roomId : validateRoomId a.roomId = .ok ()
  username : validateUsername a.ownerUsername = .ok ()
  groupId : validateGroupId a.groupId = .ok ()
  digest : validateDigest a.membershipDigest = .ok ()
  identity : validateStableIdentity a.stableIdentity = .ok ()
  envelope : a.stateEnvelope ≠ [] ∧ a.stateEnvelope.length ≤ maxStateBytes
  start : a.epoch = 0 ∧ a.revision = 0

def initialWeight (a : CreateArgs) : Nat :=
  a.stateEnvelope.length + (a.ownerUsername.length + a.stableIdentity.length)

structure Vacant (s : RoomAuthority) (a : CreateArgs) : Prop where
  rooms : s.rooms.size < maxRoomsTotal
  owned : (s.rooms.values.filter fun room => room.ownerCodeId = a.ownerCodeId).length < s.maxRooms
  absent : s.rooms.get? a.roomId = none
  count : s.globalSnapshotCount < maxGlobalStateSnapshots
  bytes : s.globalSnapshotBytes + initialWeight a ≤ maxGlobalStateBytes

theorem initialSnapshot_weight {name : Text} (hname : canonicalUsername a.ownerUsername = .ok name)
    (createdAt : Nat) :
    snapshotWeight (initialSnapshot a [⟨name, a.stableIdentity⟩] createdAt) = initialWeight a := by
  obtain ⟨-, rfl⟩ := canonicalUsername_eq_ok.mp hname
  simp only [snapshotWeight, initialSnapshot, rosterWeight, map_cons, map_nil,
    sum_cons, sum_nil, toAsciiLowercase, length_map, Nat.add_zero, initialWeight]

theorem createPlan_of_vacant (ha : a.Formed) (hs : Vacant s a) (createdAt : Nat) :
    ∃ plan, s.createPlan createdAt a = .ok plan := by
  have hname := canonicalUsername_eq_ok.mpr ⟨ha.username, rfl⟩
  have hweight := initialSnapshot_weight hname createdAt
  generalize hroster : ([⟨toAsciiLowercase a.ownerUsername, a.stableIdentity⟩] : List RosterMember) =
    roster at hweight
  have hbytes := hs.bytes
  have hcount := hs.count
  have hlimit : maxGlobalStateBytes ≤ wordMax := by decide
  have hcountLimit : maxGlobalStateSnapshots ≤ wordMax := by decide
  have hsplit : snapshotWeight (initialSnapshot a roster createdAt) =
      a.stateEnvelope.length + rosterWeight roster := rfl
  refine ⟨⟨initialRoom a (toAsciiLowercase a.ownerUsername) (initialSnapshot a roster createdAt)
    (snapshotWeight (initialSnapshot a roster createdAt)), s.globalSnapshotCount + 1,
    s.globalSnapshotBytes + (a.stateEnvelope.length + rosterWeight roster)⟩, ?_⟩
  subst hroster
  unfold createPlan
  refine bind_eq_ok.mpr ⟨(), ha.roomId, bind_eq_ok.mpr ⟨(), ha.username, bind_eq_ok.mpr ⟨(),
    ha.groupId, bind_eq_ok.mpr ⟨(), ha.digest, bind_eq_ok.mpr ⟨(), ha.identity,
    rejectIf_bind.mpr ⟨?_, rejectIf_bind.mpr ⟨?_,
    rejectIf_bind.mpr ⟨Nat.not_le.mpr hs.rooms, rejectIf_bind.mpr ⟨Nat.not_le.mpr hs.owned,
    rejectIf_bind.mpr ⟨?_, okOr_bind.mpr ⟨_, checkedAdd_of_le ?_, bind_eq_ok.mpr ⟨_, hname,
    bind_eq_ok.mpr ⟨_, rosterSize_eq_ok.mpr ⟨?_, rfl⟩, okOr_bind.mpr ⟨_, checkedAdd_of_le ?_,
    okOr_bind.mpr ⟨_, checkedAdd_of_le ?_,
    rejectIf_bind.mpr ⟨?_, bind_eq_ok.mpr ⟨_, snapshotSize_eq_ok.mpr ⟨?_, rfl⟩,
    rfl⟩⟩⟩⟩⟩⟩⟩⟩⟩⟩⟩⟩⟩⟩⟩⟩⟩
  · rw [not_or, Nat.not_lt]
    exact ha.envelope
  · rw [not_or, not_not, not_not]
    exact ha.start
  · rw [Bool.not_eq_true, contains_eq_false]
    exact hs.absent
  · omega
  · omega
  · omega
  · omega
  · rw [not_or, Nat.not_lt, Nat.not_lt]
    omega
  · omega

theorem call_create {σ : HashOrder} (hprune : s.pruneExpired σ now = s) (ha : a.Formed)
    (hs : Vacant s a) (createdAt : Nat) :
    ∃ plan, Created s createdAt a plan ∧ Rooms.call s (σ, .create now createdAt a) = { s with
      rooms := s.rooms.insert a.roomId plan.room
      globalSnapshotCount := plan.globalSnapshotCount
      globalSnapshotBytes := plan.globalSnapshotBytes } := by
  obtain ⟨plan, hplan⟩ := createPlan_of_vacant ha hs createdAt
  refine ⟨plan, createPlan_ok hplan, ?_⟩
  change (createWithPolicyVisibilityAndState σ now createdAt s a).1 = _
  unfold createWithPolicyVisibilityAndState
  simp only [hprune, hplan]

structure JoinArgs.Formed (a : JoinArgs) : Prop where
  username : validateUsername a.username = .ok ()
  requestId : validateRequestId a.requestId = .ok ()
  identity : validateStableIdentity a.stableIdentity = .ok ()
  keyPackage : a.keyPackage ≠ [] ∧ a.keyPackage.length ≤ maxKeyPackageBytes
  envelope : validateStateEnvelope a.stateEnvelope = .ok ()

structure Welcoming (s : RoomAuthority) (a : JoinArgs) (room : RelayRoom) : Prop where
  rooms : (s.rooms.values.filter fun room => room.knows a.codeId).length < maxRoomsPerMember
  leaves : room.leaves = .empty
  joins : room.joins = .empty
  noMember : room.members.contains (toAsciiLowercase a.username) = false
  apart : (room.members.values.any fun m =>
    m.codeId = a.codeId || m.stableIdentity = a.stableIdentity) = false
  roomCount : room.snapshots.size < maxStateSnapshots
  roomBytes : room.snapshotBytes + a.stateEnvelope.length ≤ maxStateBytes
  count : s.globalSnapshotCount < maxGlobalStateSnapshots
  bytes : s.globalSnapshotBytes + a.stateEnvelope.length ≤ maxGlobalStateBytes

theorem joinPlan_of_welcoming {a : JoinArgs} (ha : a.Formed)
    (hroom : s.rooms.get? a.roomId = some room) (hs : Welcoming s a room) (now : Nat) :
    ∃ plan, s.joinPlan now a = .ok plan ∧ NewJoin s now a room plan := by
  have hname := canonicalUsername_eq_ok.mpr ⟨ha.username, rfl⟩
  have hroomCount := hs.roomCount
  have hroomBytes := hs.roomBytes
  have hcount := hs.count
  have hbytes := hs.bytes
  have hlimits : maxStateSnapshots ≤ wordMax ∧ maxStateBytes ≤ wordMax ∧
      maxGlobalStateSnapshots ≤ wordMax ∧ maxGlobalStateBytes ≤ wordMax := by decide
  let request := a.toRequest now (saturatingAdd now s.joinTtlMs)
  have hplan : s.joinPlan now a = .ok
      ⟨{ room with joins := room.joins.insert a.requestId ⟨request, a.stateEnvelope⟩ },
        request, s.globalSnapshotCount + 1, s.globalSnapshotBytes + a.stateEnvelope.length⟩ := by
    unfold joinPlan
    refine bind_eq_ok.mpr ⟨(), ha.username, bind_eq_ok.mpr ⟨(), ha.requestId,
      bind_eq_ok.mpr ⟨(), ha.identity, rejectIf_bind.mpr ⟨?_,
      bind_eq_ok.mpr ⟨(), ha.envelope, rejectIf_bind.mpr ⟨?_,
      okOr_bind.mpr ⟨room, hroom, rejectIf_bind.mpr ⟨?_,
      bind_eq_ok.mpr ⟨_, hname, rejectIf_bind.mpr ⟨?_,
      rejectIf_bind.mpr ⟨?_, rejectIf_bind.mpr ⟨?_,
      ?_⟩⟩⟩⟩⟩⟩⟩⟩⟩⟩⟩⟩
    · rw [not_or, Nat.not_lt]
      exact ha.keyPackage
    · exact fun hfull => Nat.not_le.mpr hs.rooms hfull.2
    · rw [hs.leaves]
      exact Bool.false_ne_true
    · rw [hs.noMember, hs.apart]
      simp
    · rw [hs.joins]
      exact fun hfull => absurd hfull.1 (by decide)
    · rw [hs.joins]
      exact fun hconflict => absurd hconflict.1 Bool.false_ne_true
    · rw [hs.joins]
      refine okOr_bind.mpr ⟨room.snapshots.size + 1, ?_,
        okOr_bind.mpr ⟨0, rfl,
        okOr_bind.mpr ⟨room.snapshotBytes + a.stateEnvelope.length, ?_,
        rejectIf_bind.mpr ⟨?_,
        okOr_bind.mpr ⟨_, (checkedAdd_of_le ?_),
        okOr_bind.mpr ⟨_, (checkedAdd_of_le ?_),
        rejectIf_bind.mpr ⟨?_, rfl⟩⟩⟩⟩⟩⟩⟩
      · change (checkedAdd room.snapshots.size 0).bind _ = _
        exact checkedAdd_bind_eq_some.mpr ⟨by omega, checkedAdd_of_le (by omega)⟩
      · exact checkedAdd_bind_eq_some.mpr ⟨by omega, checkedAdd_of_le (by omega)⟩
      · omega
      · omega
      · omega
      · omega
  obtain ⟨room', hroom', hkept | hjoin⟩ := joinPlan_ok hplan
  · exact absurd hkept.2.1 (Nat.succ_ne_self _)
  · cases hroom.symm.trans hroom'
    exact ⟨_, hplan, hjoin⟩

structure Ready (now : Nat) (s : RoomAuthority) : Prop where
  regular : Regular s
  balanced : Balanced s
  replay : s.replayTotal ≤ maxGlobalReplayIds
  quiet : AllRooms (Quiet now s.replayTtlMs) s

namespace Ready

variable {σ : HashOrder} {now : Nat} {s : RoomAuthority}

theorem pruneExpired (h : Ready now s) : s.pruneExpired σ now = s :=
  pruneExpired_quiet h.regular h.balanced h.replay h.quiet σ

theorem create (h : Ready now s) (ha : a.Formed) (hs : Vacant s a) (createdAt : Nat) :
    ∃ plan, Created s createdAt a plan ∧
      Rooms.call s (σ, .create now createdAt a) = { s with
        rooms := s.rooms.insert a.roomId plan.room
        globalSnapshotCount := plan.globalSnapshotCount
        globalSnapshotBytes := plan.globalSnapshotBytes } ∧
      Ready now (Rooms.call s (σ, .create now createdAt a)) := by
  obtain ⟨plan, hplan, hcall⟩ := call_create (σ := σ) h.pruneExpired ha hs createdAt
  have hregular := h.regular.call (σ, .create now createdAt a)
  obtain ⟨name, bytes, -, -, hroom, -⟩ := hplan.roomEq
  refine ⟨plan, hplan, hcall, hregular, ?_, ?_, ?_⟩
  · rw [hcall]
    exact h.balanced.created hplan
  · have hsum := sum_insert_new hs.absent plan.room fun _ r => r.replayIds.length
    have hnone : plan.room.replayIds.length = 0 := by rw [hroom]; rfl
    rw [hcall]
    rw [hnone, Nat.add_zero] at hsum
    exact hsum.trans_le h.replay
  · rw [hcall]
    refine h.quiet.insert ?_ rfl
    rw [hroom]
    exact ⟨fun _ _ hj => (by cases hj), fun _ _ hl => (by cases hl), fun _ ht => (by cases ht),
      fun _ _ hp => (by cases hp), fun _ he => (by cases he), fun _ _ hq => (by cases hq),
      fun _ _ hq => (by cases hq)⟩

theorem join (h : Ready now s) {a : JoinArgs} (ha : a.Formed)
    (hroom : s.rooms.get? a.roomId = some room) (hs : Welcoming s a room)
    (hclock : now < saturatingAdd now s.joinTtlMs) : ∃ plan, NewJoin s now a room plan ∧
      Rooms.call s (σ, .requestJoin now a) = { s with
        rooms := s.rooms.insert a.roomId plan.room
        globalSnapshotCount := plan.globalStateCount
        globalSnapshotBytes := plan.globalStateBytes } ∧
      Ready now (Rooms.call s (σ, .requestJoin now a)) := by
  obtain ⟨plan, hplan, hjoin⟩ := joinPlan_of_welcoming ha hroom hs now
  have hcall : Rooms.call s (σ, .requestJoin now a) = { s with
      rooms := s.rooms.insert a.roomId plan.room
      globalSnapshotCount := plan.globalStateCount
      globalSnapshotBytes := plan.globalStateBytes } := by
    change (requestJoin σ now s a).1 = _
    unfold requestJoin
    simp only [h.pruneExpired, hplan]
  have hregular := h.regular.call (σ, .requestJoin now a)
  refine ⟨plan, hjoin, hcall, hregular, ?_, ?_, ?_⟩
  · rw [hcall]
    exact h.balanced.joined hroom hjoin
  · rw [hcall]
    refine le_trans (replayTotal_le fun id r hr => ?_) h.replay
    simp only [get?_insert] at hr
    split_ifs at hr with hid
    · cases hr
      refine ⟨room, hid ▸ hroom, ?_⟩
      rw [hjoin.roomEq]
    · exact ⟨r, hr, Nat.le_refl _⟩
  · rw [hcall]
    have hquiet := h.quiet _ _ hroom
    refine h.quiet.insert ?_ rfl
    rw [hjoin.roomEq]
    refine { hquiet with joins := fun id j hj => ?_ }
    simp only [get?_insert] at hj
    split_ifs at hj with hid
    · cases hj
      rw [hjoin.requestEq]
      exact hclock
    · exact hquiet.joins id j hj

end Ready

end Abyssal.Rooms
