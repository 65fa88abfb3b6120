import Abyssal.Rooms.Bounds

/-! The totals of the authority. A count over the rooms gives their sums wherever these are
words, and within the limits of a room and of the authority they always are; so pruning leaves
every counter exact. -/

namespace Abyssal.Rooms

open RelayRoom RoomAuthority OrdMap List

def RelayRoom.totals (room : RelayRoom) : AuthorityAccounting :=
  { pendingBytes := room.pendingWeight
    pendingCount := room.pendingApplications.size
    snapshotBytes := room.snapshotBytes + room.joinWeight
    snapshotCount := room.snapshots.size + room.joins.size
    replayCount := room.replayIds.length
    deliveryBytes := room.deliveryWeight
    deliveryCount := room.deliveryCount
    expiredGapPairs := room.expiredSenderGaps.size }

namespace AuthorityAccounting

def plus (a b : AuthorityAccounting) : AuthorityAccounting :=
  { pendingBytes := a.pendingBytes + b.pendingBytes
    pendingCount := a.pendingCount + b.pendingCount
    snapshotBytes := a.snapshotBytes + b.snapshotBytes
    snapshotCount := a.snapshotCount + b.snapshotCount
    replayCount := a.replayCount + b.replayCount
    deliveryBytes := a.deliveryBytes + b.deliveryBytes
    deliveryCount := a.deliveryCount + b.deliveryCount
    expiredGapPairs := a.expiredGapPairs + b.expiredGapPairs }

structure Fits (a : AuthorityAccounting) : Prop where
  pendingBytes : a.pendingBytes ≤ wordMax
  pendingCount : a.pendingCount ≤ wordMax
  snapshotBytes : a.snapshotBytes ≤ wordMax
  snapshotCount : a.snapshotCount ≤ wordMax
  replayCount : a.replayCount ≤ wordMax
  deliveryBytes : a.deliveryBytes ≤ wordMax
  deliveryCount : a.deliveryCount ≤ wordMax
  expiredGapPairs : a.expiredGapPairs ≤ maxGlobalExpiredGapPairs

theorem Fits.left {a b : AuthorityAccounting} (h : Fits (a.plus b)) : Fits a :=
  ⟨le_trans (Nat.le_add_right _ _) h.pendingBytes, le_trans (Nat.le_add_right _ _) h.pendingCount,
    le_trans (Nat.le_add_right _ _) h.snapshotBytes,
    le_trans (Nat.le_add_right _ _) h.snapshotCount,
    le_trans (Nat.le_add_right _ _) h.replayCount,
    le_trans (Nat.le_add_right _ _) h.deliveryBytes,
    le_trans (Nat.le_add_right _ _) h.deliveryCount,
    le_trans (Nat.le_add_right _ _) h.expiredGapPairs⟩

theorem plus_assoc (a b c : AuthorityAccounting) : (a.plus b).plus c = a.plus (b.plus c) := by
  simp only [plus, Nat.add_assoc]

end AuthorityAccounting

open AuthorityAccounting

variable {t : AuthorityAccounting}

theorem addQueues_eq_ok {count bytes : Nat} {queues : List (List PendingDelivery)} {p : Nat × Nat}
    (hcount : count ≤ wordMax) (hbytes : bytes ≤ wordMax) :
    foldChecked addQueue (count, bytes) queues = .ok p ↔
      (count + (queues.map List.length).sum ≤ wordMax ∧
        bytes + (queues.map queueWeight).sum ≤ wordMax) ∧
      p = (count + (queues.map List.length).sum, bytes + (queues.map queueWeight).sum) := by
  induction queues generalizing count bytes with
  | nil =>
    simp only [foldChecked, Except.ok.injEq, map_nil, sum_nil, Nat.add_zero, hcount,
      hbytes, true_and, and_self, eq_comm]
  | cons queue queues ih =>
    have hqueue := fun n => @foldChecked_add_eq_ok _ addDelivery deliveryWeight
      (fun total d n => addDelivery_eq_ok) bytes n queue hbytes
    simp only [map_cons, sum_cons, ← Nat.add_assoc]
    rw [foldChecked, bind_eq_ok]
    simp only [addQueue, bind_eq_ok, okOr_eq_ok, checkedAdd_eq_some, hqueue]
    constructor
    · rintro ⟨q, ⟨n, ⟨hn, rfl⟩, n', ⟨hn', rfl⟩, hq⟩, hrest⟩
      cases hq
      exact (ih hn hn').mp hrest
    · rintro ⟨⟨hn, hn'⟩, rfl⟩
      have hle : count + queue.length ≤ wordMax := le_trans (Nat.le_add_right _ _) hn
      have hle' : bytes + queueWeight queue ≤ wordMax := le_trans (Nat.le_add_right _ _) hn'
      exact ⟨_, ⟨_, ⟨hle, rfl⟩, _, ⟨hle', rfl⟩, rfl⟩, (ih hle hle').mpr ⟨⟨hn, hn'⟩, rfl⟩⟩

theorem addRoom_eq_ok {totals : AuthorityAccounting} {room : RelayRoom} (h : Fits totals) :
    totals.addRoom room = .ok t ↔
      Fits (totals.plus room.totals) ∧ t = totals.plus room.totals := by
  have hpending := fun n => @foldChecked_add_eq_ok _ addPending pendingWeight
    (fun total p n => addPending_eq_ok) totals.pendingBytes n room.pendingApplications.values
    h.pendingBytes
  have hjoin : ∀ total (join : PendingJoin) n, addJoinState total join = .ok n ↔
      total + join.stateEnvelope.length ≤ wordMax ∧ n = total + join.stateEnvelope.length :=
    fun total join n => okOr_eq_ok.trans checkedAdd_eq_some
  simp only [sum_values] at hpending
  simp only [AuthorityAccounting.addRoom, bind_eq_ok, okOr_eq_ok, checkedAdd_eq_some,
    checkedAdd_bind_eq_some, hpending, Option.filter_eq_some_iff, decide_eq_true_eq,
    addQueues_eq_ok h.deliveryCount h.deliveryBytes, sum_values]
  constructor
  · rintro ⟨_, ⟨hpendingCount, rfl⟩, _, ⟨hpendingBytes, rfl⟩, _, ⟨-, hsnapshotCount, rfl⟩, _,
      ⟨hsnapshotBytes, rfl⟩, _, hjoins, _, ⟨hreplay, rfl⟩, _, ⟨⟨hcount, hbytes⟩, rfl⟩, _,
      ⟨⟨-, rfl⟩, hgaps⟩, ht⟩
    obtain ⟨hjoinBytes, rfl⟩ := (foldChecked_add_eq_ok hjoin hsnapshotBytes).mp hjoins
    cases ht
    rw [sum_values] at hjoinBytes ⊢
    rw [Nat.add_assoc] at hjoinBytes hsnapshotCount
    refine ⟨⟨hpendingBytes, hpendingCount, hjoinBytes, hsnapshotCount, hreplay, hbytes, hcount,
      hgaps⟩, ?_⟩
    simp only [AuthorityAccounting.plus, RelayRoom.totals, RelayRoom.pendingWeight,
      RelayRoom.joinWeight, RelayRoom.deliveryWeight, RelayRoom.deliveryCount, Nat.add_assoc]
  · rintro ⟨hfits, rfl⟩
    have hsnapshotBytes : totals.snapshotBytes + room.snapshotBytes ≤ wordMax := by
      have := hfits.snapshotBytes
      simp only [AuthorityAccounting.plus, RelayRoom.totals] at this
      omega
    have hsnapshotCount := hfits.snapshotCount
    simp only [AuthorityAccounting.plus, RelayRoom.totals] at hsnapshotCount
    have hgaps := hfits.expiredGapPairs
    have hword : maxGlobalExpiredGapPairs ≤ wordMax := by decide
    refine ⟨_, ⟨hfits.pendingCount, rfl⟩, _, ⟨hfits.pendingBytes, rfl⟩, _,
      ⟨by omega, by omega, rfl⟩, _, ⟨hsnapshotBytes, rfl⟩, _,
      (foldChecked_add_eq_ok hjoin hsnapshotBytes).mpr ⟨?_, rfl⟩, _, ⟨hfits.replayCount, rfl⟩, _,
      ⟨⟨hfits.deliveryCount, hfits.deliveryBytes⟩, rfl⟩, _, ⟨⟨hgaps.trans hword, rfl⟩, hgaps⟩, ?_⟩
    · rw [sum_values, Nat.add_assoc]
      exact hfits.snapshotBytes
    · rw [sum_values]
      simp only [AuthorityAccounting.plus, RelayRoom.totals, RelayRoom.pendingWeight,
        RelayRoom.joinWeight, RelayRoom.deliveryWeight, RelayRoom.deliveryCount, Nat.add_assoc]

def totalOf (rooms : List RelayRoom) : AuthorityAccounting :=
  { pendingBytes := (rooms.map fun r => r.totals.pendingBytes).sum
    pendingCount := (rooms.map fun r => r.totals.pendingCount).sum
    snapshotBytes := (rooms.map fun r => r.totals.snapshotBytes).sum
    snapshotCount := (rooms.map fun r => r.totals.snapshotCount).sum
    replayCount := (rooms.map fun r => r.totals.replayCount).sum
    deliveryBytes := (rooms.map fun r => r.totals.deliveryBytes).sum
    deliveryCount := (rooms.map fun r => r.totals.deliveryCount).sum
    expiredGapPairs := (rooms.map fun r => r.totals.expiredGapPairs).sum }

theorem totalOf_cons (room : RelayRoom) (rooms : List RelayRoom) :
    totalOf (room :: rooms) = room.totals.plus (totalOf rooms) := by
  simp only [totalOf, map_cons, sum_cons, AuthorityAccounting.plus]

theorem addRooms_eq_ok {totals : AuthorityAccounting} {rooms : List RelayRoom} (h : Fits totals) :
    foldChecked AuthorityAccounting.addRoom totals rooms = .ok t ↔
      Fits (totals.plus (totalOf rooms)) ∧ t = totals.plus (totalOf rooms) := by
  induction rooms generalizing totals with
  | nil =>
    have hnil : totals.plus (totalOf []) = totals := rfl
    simp only [foldChecked, Except.ok.injEq, hnil, h, true_and, eq_comm]
  | cons room rooms ih =>
    rw [foldChecked, bind_eq_ok, totalOf_cons, ← plus_assoc]
    simp only [addRoom_eq_ok h]
    constructor
    · rintro ⟨_, ⟨hroom, rfl⟩, hrest⟩
      exact (ih hroom).mp hrest
    · rintro ⟨hfits, rfl⟩
      exact ⟨_, ⟨hfits.left, rfl⟩, (ih hfits.left).mpr ⟨hfits, rfl⟩⟩

theorem checkedAccountingExcluding_eq_ok {s : RoomAuthority} {excluded : Option Text} :
    s.checkedAccountingExcluding excluded = .ok t ↔
      Fits (totalOf (s.rooms.values.filter fun room => excluded ≠ some room.roomId)) ∧
        t = totalOf (s.rooms.values.filter fun room => excluded ≠ some room.roomId) := by
  have hzero : ∀ t : AuthorityAccounting, AuthorityAccounting.plus {} t = t := by
    intro t
    simp only [AuthorityAccounting.plus, Nat.zero_add]
  have hfits : Fits {} := by
    constructor <;> exact Nat.zero_le _
  rw [checkedAccountingExcluding, addRooms_eq_ok hfits, hzero]

namespace Sized

variable {room : RelayRoom}

theorem pendingWeight_le (h : Sized room) :
    room.pendingWeight ≤ maxPendingApplications * maxAdmissionBytes :=
  (sum_le_size_mul h.pendings).trans (Nat.mul_le_mul_right _ h.pendingCount)

theorem snapshotWeight_le (h : Sized room) :
    room.snapshotWeight ≤ maxStateSnapshots * maxGlobalStateBytes :=
  (sum_le_size_mul h.snapshots).trans (Nat.mul_le_mul_right _ h.snapshotCount)

theorem joinWeight_le (h : Sized room) : room.joinWeight ≤ maxJoinRequests * maxStateBytes :=
  (sum_le_size_mul h.joins).trans (Nat.mul_le_mul_right _ h.joinCount)

theorem queueWeight_le {queue : List PendingDelivery} {n : Nat}
    (h : ∀ d ∈ queue, deliveryWeight d ≤ n) : queueWeight queue ≤ queue.length * n := by
  induction queue with
  | nil => exact Nat.zero_le _
  | cons d queue ih =>
    have hd := h d (mem_cons_self ..)
    have hrest := ih fun d' hd' => h d' (mem_cons_of_mem _ hd')
    unfold queueWeight at hrest ⊢
    rw [map_cons, sum_cons, length_cons, Nat.add_mul]
    omega

theorem deliveryWeight_le (h : Sized room) :
    room.deliveryWeight ≤ maxDeliveriesPerRoom * maxGlobalDeliveryBytes := by
  have hqueue : ∀ c queue, room.deliveries.get? c = some queue →
      queueWeight queue ≤ queue.length * maxGlobalDeliveryBytes :=
    fun c queue hqueue => queueWeight_le (h.deliveries c queue hqueue)
  calc room.deliveryWeight
      ≤ room.deliveries.sum fun _ queue => queue.length * maxGlobalDeliveryBytes :=
        sum_le_sum hqueue
    _ = room.deliveryCount * maxGlobalDeliveryBytes := sum_mul_right ..
    _ ≤ maxDeliveriesPerRoom * maxGlobalDeliveryBytes := Nat.mul_le_mul_right _ h.deliveryCount

end Sized

variable {s s' : RoomAuthority} {room : RelayRoom} {σ : HashOrder}

def RoomAuthority.totals (s : RoomAuthority) : AuthorityAccounting := totalOf s.rooms.values

theorem rooms_sum_le (hcapacity : Capacity s) {f : RelayRoom → Nat} {n : Nat}
    (h : ∀ id room, s.rooms.get? id = some room → f room ≤ n) :
    (s.rooms.values.map f).sum ≤ maxRoomsTotal * n := by
  rw [sum_values]
  exact (sum_le_size_mul h).trans (Nat.mul_le_mul_right _ hcapacity.rooms)

theorem totals_fit (hcapacity : Capacity s) (hsized : AllRooms Sized s)
    (hbytes : AllRooms (fun r => r.snapshotBytes = r.snapshotWeight) s) : Fits s.totals := by
  refine ⟨?_, ?_, ?_, ?_, ?_, ?_, ?_, ?_⟩
  · refine (rooms_sum_le hcapacity fun id r hr => (hsized id r hr).pendingWeight_le).trans ?_
    decide
  · refine (rooms_sum_le hcapacity fun id r hr => (hsized id r hr).pendingCount).trans ?_
    decide
  · refine (rooms_sum_le (n := maxStateSnapshots * maxGlobalStateBytes +
      maxJoinRequests * maxStateBytes) hcapacity fun id r hr => ?_).trans ?_
    · have hexact := hbytes id r hr
      exact Nat.add_le_add (hexact.trans_le (hsized id r hr).snapshotWeight_le)
        (hsized id r hr).joinWeight_le
    · decide
  · refine (rooms_sum_le hcapacity fun id r hr =>
      Nat.add_le_add (hsized id r hr).snapshotCount (hsized id r hr).joinCount).trans ?_
    decide
  · exact (rooms_sum_le hcapacity hcapacity.replay).trans (by decide)
  · refine (rooms_sum_le hcapacity fun id r hr => (hsized id r hr).deliveryWeight_le).trans ?_
    decide
  · refine (rooms_sum_le hcapacity fun id r hr => (hsized id r hr).deliveryCount).trans ?_
    decide
  · have hgaps := hcapacity.gaps
    unfold gapTotal at hgaps
    rw [← sum_values] at hgaps
    exact hgaps

theorem accounting_eq_ok :
    s.checkedAccountingExcluding none = .ok t ↔ Fits s.totals ∧ t = s.totals := by
  have hall : (s.rooms.values.filter fun room => (none : Option Text) ≠ some room.roomId) =
      s.rooms.values := by
    simp
  rw [checkedAccountingExcluding_eq_ok, hall]
  rfl

theorem accounting_ok (hcapacity : Capacity s) (hsized : AllRooms Sized s)
    (hbytes : AllRooms (fun r => r.snapshotBytes = r.snapshotWeight) s) :
    s.checkedAccountingExcluding none = .ok s.totals :=
  accounting_eq_ok.mpr ⟨totals_fit hcapacity hsized hbytes, rfl⟩

theorem recomputeStateAccounting_eq (h : s.recomputeStateAccounting = .ok s') :
    s' = { s with
      globalSnapshotCount := s.totals.snapshotCount
      globalSnapshotBytes := s.totals.snapshotBytes } := by
  obtain ⟨totals, htotals, hrecount⟩ := bind_eq_ok.mp h
  obtain ⟨-, rfl⟩ := accounting_eq_ok.mp htotals
  exact (Except.ok.inj hrecount).symm

theorem recomputeStateAccounting_ok (hcapacity : Capacity s) (hsized : AllRooms Sized s)
    (hbytes : AllRooms (fun r => r.snapshotBytes = r.snapshotWeight) s) :
    s.recomputeStateAccounting = .ok { s with
      globalSnapshotCount := s.totals.snapshotCount
      globalSnapshotBytes := s.totals.snapshotBytes } := by
  rw [recomputeStateAccounting, accounting_ok hcapacity hsized hbytes, except_ok_bind]

structure Exact (room : RelayRoom) : Prop where
  pendingBytes : room.pendingBytes = room.pendingWeight
  snapshotBytes : room.snapshotBytes = room.snapshotWeight
  deliveryBytes : room.deliveryBytes = room.deliveryWeight

theorem pruneQueue_frame (now : Nat) (c : CodeId) (room : RelayRoom) (pairs : Nat) :
    ∃ deliveries gaps, (pruneQueue now c room pairs).1 =
      { room with deliveries := deliveries, expiredSenderGaps := gaps } := by
  unfold pruneQueue
  cases hq : room.deliveries.get? c with
  | none => exact ⟨room.deliveries, room.expiredSenderGaps, rfl⟩
  | some queue =>
    dsimp only
    split
    · exact ⟨room.deliveries, room.expiredSenderGaps, rfl⟩
    · split_ifs
      · split
        · exact ⟨_, _, rfl⟩
        · rename_i hc
          rw [compactDeliveryRevisions_ok hc]
          exact ⟨_, _, rfl⟩
      · exact ⟨room.deliveries, room.expiredSenderGaps, rfl⟩

theorem pruneQueues_frame (now : Nat) (cs : List CodeId) (room : RelayRoom) (pairs : Nat) :
    ∃ deliveries gaps, (pruneQueues now cs room pairs).1 =
      { room with deliveries := deliveries, expiredSenderGaps := gaps } := by
  induction cs generalizing room pairs with
  | nil => exact ⟨room.deliveries, room.expiredSenderGaps, rfl⟩
  | cons c cs ih =>
    obtain ⟨deliveries, gaps, hone⟩ := pruneQueue_frame now c room pairs
    unfold pruneQueues
    split
    · rename_i heq
      rw [heq] at hone
      exact ⟨deliveries, gaps, hone⟩
    · rename_i mid pairs' heq
      rw [heq] at hone
      dsimp only at hone
      obtain ⟨deliveries', gaps', hrest⟩ := ih mid pairs'
      rw [hone] at hrest ⊢
      exact ⟨deliveries', gaps', hrest⟩

theorem pruneDeliveries_frame (σ : HashOrder) (room : RelayRoom) (now pairs : Nat) :
    ∃ deliveries gaps bytes, (room.pruneDeliveries σ now pairs).1 =
      { room with deliveries := deliveries, expiredSenderGaps := gaps, deliveryBytes := bytes } := by
  obtain ⟨deliveries, gaps, h⟩ :=
    pruneQueues_frame now (σ.codes room.roomId room.deliveries.keys) room pairs
  unfold pruneDeliveries pruneExpiredApplicationDeliveries
  split
  · rename_i heq
    rw [heq] at h
    exact ⟨deliveries, gaps, room.deliveryBytes, h⟩
  · rename_i heq
    rw [heq] at h
    dsimp only at h ⊢
    rw [h]
    exact ⟨deliveries, gaps, wordMax, rfl⟩

theorem recount_pending (h : Sized room) :
    ((foldChecked addPending 0 room.pendingApplications.values).toOption).getD wordMax =
      room.pendingWeight := by
  have hword : room.pendingWeight ≤ wordMax := h.pendingWeight_le.trans (by decide)
  have hok := (@foldChecked_add_eq_ok _ addPending pendingWeight
    (fun total p n => addPending_eq_ok) 0 room.pendingWeight room.pendingApplications.values
    (Nat.zero_le _)).mpr
  rw [sum_values, Nat.zero_add] at hok
  rw [hok ⟨hword, rfl⟩]
  rfl

theorem recount_snapshots (h : Sized room) :
    ((snapshotTotal room.snapshots.values).toOption).getD wordMax = room.snapshotWeight := by
  have hword : room.snapshotWeight ≤ wordMax := h.snapshotWeight_le.trans (by decide)
  have hok := (@snapshotTotal_eq_ok room.snapshots.values room.snapshotWeight).mpr
  rw [sum_values] at hok
  rw [hok ⟨hword, rfl⟩]
  rfl

theorem recount_deliveries (h : Sized room) :
    ((deliveryBytes room.deliveries.values.flatten).toOption).getD wordMax =
      room.deliveryWeight := by
  have hword : room.deliveryWeight ≤ wordMax := h.deliveryWeight_le.trans (by decide)
  have hok := (@deliveryBytes_eq_ok room.deliveries.values.flatten room.deliveryWeight).mpr
  rw [queueWeight_flatten, sum_values] at hok
  rw [hok ⟨hword, rfl⟩]
  rfl

theorem swept_counters (σ : HashOrder) (now ttl : Nat) (room : RelayRoom) :
    (room.swept σ now ttl).pendingBytes =
      ((foldChecked addPending 0 (room.swept σ now ttl).pendingApplications.values).toOption).getD
        wordMax ∧
    (room.swept σ now ttl).snapshotBytes =
      ((snapshotTotal (room.swept σ now ttl).snapshots.values).toOption).getD wordMax := by
  unfold swept
  generalize ((room.pruneRequests now).expireApplications σ now).dropEmptyQueues = settled
  exact ⟨rfl, rfl⟩

variable {room' : RelayRoom}

theorem RelayRoom.PrunedTo.exact {now ttl : Nat} (h : PrunedTo σ now ttl room room')
    (hsized : Sized room') : Exact room' := by
  obtain ⟨pairs, n, rfl⟩ := h
  have hpending := recount_pending hsized
  have hsnapshots := recount_snapshots hsized
  have hdeliveries := recount_deliveries hsized
  obtain ⟨hpendingBytes, hsnapshotBytes⟩ := swept_counters σ now ttl room
  rw [prune_eq] at hpending hsnapshots hdeliveries ⊢
  obtain ⟨deliveries, gaps, bytes, hframe⟩ :=
    pruneDeliveries_frame σ (room.swept σ now ttl) now pairs
  rw [hframe] at hpending hsnapshots hdeliveries ⊢
  generalize room.swept σ now ttl = mid at *
  exact ⟨hpendingBytes.trans hpending, hsnapshotBytes.trans hsnapshots, hdeliveries⟩

def RoomAuthority.counters (s : RoomAuthority) : AuthorityAccounting :=
  { pendingBytes := s.globalPendingBytes
    pendingCount := s.globalPendingCount
    snapshotBytes := s.globalSnapshotBytes
    snapshotCount := s.globalSnapshotCount
    replayCount := s.globalReplayCount
    deliveryBytes := s.globalDeliveryBytes
    deliveryCount := s.globalDeliveryCount
    expiredGapPairs := s.globalExpiredGapPairs }

structure Balanced (s : RoomAuthority) : Prop where
  rooms : AllRooms Exact s
  counters : s.counters = s.totals

theorem totals_evicted (h : ∀ id, Option.Rel Evicted (s.rooms.get? id) (s'.rooms.get? id)) :
    s'.totals = { s.totals with replayCount := s'.replayTotal } := by
  have hsum : ∀ f : RelayRoom → Nat, (∀ r r', Evicted r r' → f r = f r') →
      (s'.rooms.values.map f).sum = (s.rooms.values.map f).sum := by
    intro f hf
    rw [sum_values, sum_values]
    exact (sum_eq_of_rel h fun _ r r' hr => hf r r' hr).symm
  have hkept : ∀ f : RelayRoom → Nat, (∀ (r : RelayRoom) ids, f { r with replayIds := ids } = f r) →
      (s'.rooms.values.map f).sum = (s.rooms.values.map f).sum := by
    refine fun f hf => hsum f fun r r' hr => ?_
    obtain ⟨n, rfl⟩ := hr
    exact (hf r _).symm
  simp only [RoomAuthority.totals, totalOf, AuthorityAccounting.mk.injEq]
  refine ⟨hkept _ fun _ _ => rfl, hkept _ fun _ _ => rfl, hkept _ fun _ _ => rfl,
    hkept _ fun _ _ => rfl, ?_, hkept _ fun _ _ => rfl, hkept _ fun _ _ => rfl,
    hkept _ fun _ _ => rfl⟩
  exact sum_values ..

variable {result : Except String Unit}

theorem trimmed_totals (h : Capacity s) (htrim : s.trimReplayIds σ = (s', result)) :
    s'.totals = { s.totals with replayCount := s'.globalReplayCount } ∧
      s'.counters = { s.counters with replayCount := s'.globalReplayCount } := by
  have hrel := trimReplayIds_rooms σ s
  obtain ⟨s'', hok, hcount, -⟩ := trimReplayIds_ok σ h
  rw [htrim] at hrel hok
  obtain ⟨rfl, -⟩ := Prod.mk.inj hok
  refine ⟨hcount ▸ totals_evicted hrel, ?_⟩
  obtain ⟨rooms, count, rfl⟩ := trimReplayIds_frame htrim
  rfl

theorem Balanced.trimmed (hcapacity : Capacity s) (hrooms : AllRooms Exact s)
    (hcounters : { s.counters with replayCount := s.totals.replayCount } = s.totals)
    (htrim : s.trimReplayIds σ = (s', result)) : Balanced s' := by
  obtain ⟨htotals, hkept⟩ := trimmed_totals hcapacity htrim
  refine ⟨fun id r' hr' => ?_, ?_⟩
  · have hrel := trimReplayIds_rooms σ s id
    rw [htrim] at hrel
    dsimp only at hrel
    rw [hr'] at hrel
    obtain ⟨r, hr, hevict⟩ := rel_some_right hrel
    obtain ⟨n, rfl⟩ := hevict
    have hexact := hrooms id r hr
    exact ⟨hexact.pendingBytes, hexact.snapshotBytes, hexact.deliveryBytes⟩
  · rw [hkept, htotals, ← hcounters]

theorem Regular.balanced_prune (h : Regular s) (σ : HashOrder) (now : Nat) :
    Balanced (s.pruneExpired σ now) := by
  have hboth : AllRooms (fun r => Sized r ∧ Exact r) (s.pruneAllRooms σ now) := by
    intro id r' hr'
    obtain ⟨r, hr, hpruned⟩ := pruneAllRooms_some hr'
    have hsized := (hpruned.tidy.invariant (I := fun r => Sized r ∧ WellFormed r)
      (fun r r' hr ht => ⟨hr.1.tidy hr.2 ht, hr.2.tidy ht⟩)
      ⟨h.sized id r hr, h.wellFormed id r hr⟩).1
    exact ⟨hsized, hpruned.exact hsized⟩
  have hcapacity := h.capacity.pruneAllRooms σ now
  have hrecount : (s.pruneAllRooms σ now).recountAll =
      (s.pruneAllRooms σ now).applyAccounting (s.pruneAllRooms σ now).totals := by
    rw [recountAll, accounting_ok hcapacity (fun id r hr => (hboth id r hr).1)
      fun id r hr => (hboth id r hr).2.snapshotBytes]
  unfold pruneExpired
  rw [hrecount]
  generalize s.pruneAllRooms σ now = mid at *
  have hcapacity' : Capacity (mid.applyAccounting mid.totals) :=
    ⟨hcapacity.rooms, hcapacity.replay, hcapacity.gaps⟩
  obtain ⟨s', htrim, -⟩ := trimReplayIds_ok σ hcapacity'
  rw [trimOrExhaust, htrim]
  exact Balanced.trimmed hcapacity' (fun id r hr => (hboth id r hr).2) rfl htrim

end Abyssal.Rooms
