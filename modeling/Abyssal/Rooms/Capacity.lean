import Abyssal.Rooms.Reachable
import Mathlib.Data.List.MinMax

/-! The limits that hold over every run: the number of rooms, of replay entries and of
expired-gap pairs. Within them replay eviction and the gap count cannot fail. -/

namespace Abyssal.Rooms

open RelayRoom RoomAuthority OrdMap List Option

variable {id : Text} {createdAt : Nat}

namespace RoomAuthority

variable {s : RoomAuthority}

def replayTotal (s : RoomAuthority) : Nat := s.rooms.sum fun _ room => room.replayIds.length

theorem replayTotal_le {s' : RoomAuthority}
    (h : ∀ id r', s'.rooms.get? id = some r' →
    ∃ r, s.rooms.get? id = some r ∧ r'.replayIds.length ≤ r.replayIds.length) :
    s'.replayTotal ≤ s.replayTotal := sum_le_sum_of_get? h

def gapTotal (s : RoomAuthority) : Nat := s.rooms.sum fun _ room => room.expiredSenderGaps.size

structure Capacity (s : RoomAuthority) : Prop where
  rooms : s.rooms.size ≤ maxRoomsTotal
  replay : ∀ id room, s.rooms.get? id = some room → room.replayIds.length ≤ maxReplayIds
  gaps : s.gapTotal ≤ maxGlobalExpiredGapPairs

theorem Capacity.replayTotal_le (h : Capacity s) : s.replayTotal ≤ maxRoomsTotal * maxReplayIds :=
  (sum_le_size_mul h.replay).trans (Nat.mul_le_mul_right _ h.rooms)

variable {rooms : OrdMap Text RelayRoom} {ids : List Text} {best : Option (Text × Nat)}

def fronts (rooms : OrdMap Text RelayRoom) (ids : List Text) : List (Text × Nat) :=
  ids.filterMap fun id =>
    ((rooms.get? id).bind fun room => room.replayIds.head?).map fun e => (id, e.2)

theorem mem_fronts {σ : HashOrder} : (id, createdAt) ∈ fronts s.rooms (σ.rooms s.rooms.keys) ↔
    ∃ room key rest, s.rooms.get? id = some room ∧
      room.replayIds = (key, createdAt) :: rest := by
  simp only [fronts, mem_filterMap, map_eq_some_iff, bind_eq_some_iff, head?_eq_some_iff,
    Prod.mk.injEq]
  constructor
  · rintro ⟨_, -, ⟨key, _⟩, ⟨room, hroom, rest, hids⟩, rfl, rfl⟩
    exact ⟨room, key, rest, hroom, hids⟩
  · rintro ⟨room, key, rest, hroom, hids⟩
    exact ⟨id, (σ.rooms_perm _).mem_iff.mpr (mem_keys.mpr ⟨room, hroom⟩), (key, createdAt),
      ⟨room, hroom, rest, hids⟩, rfl, rfl⟩

theorem oldestFront_eq_foldl : oldestFront rooms best ids =
    (fronts rooms ids).foldl (argAux fun b c => b.2 < c.2) best := by
  induction ids generalizing best with
  | nil => rfl
  | cons a ids ih =>
    rw [oldestFront, fronts, filterMap_cons]
    cases (rooms.get? a).bind fun room => room.replayIds.head? with
    | none => exact ih
    | some entry =>
      cases best with
      | none => exact ih
      | some old =>
        simp only [ih, Option.map_some, foldl_cons, argAux]
        split_ifs with hle hlt
        · exact absurd hle (Nat.not_le.mpr hlt)
        · rfl
        · rfl
        · omega

/-- The loop of the source is the search for the first smallest front. -/
theorem oldestFront_eq : oldestFront rooms none ids = argmin Prod.snd (fronts rooms ids) :=
  oldestFront_eq_foldl

theorem replayTotal_eq_zero {σ : HashOrder}
    (h : oldestFront s.rooms none (σ.rooms s.rooms.keys) = none) : s.replayTotal = 0 := by
  rw [oldestFront_eq, argmin_eq_none] at h
  refine sum_eq_zero fun id room hroom => ?_
  cases hids : room.replayIds with
  | nil => rfl
  | cons e rest =>
    have hmem := mem_fronts (σ := σ).mpr ⟨room, e.1, rest, hroom, hids⟩
    rw [h] at hmem
    cases hmem

/-- The counter of the loop is the number of entries, so it stops with the limit kept. -/
theorem trimLoop_ok (σ : HashOrder) (fuel : Nat) (s : RoomAuthority)
    (hcount : s.globalReplayCount = s.replayTotal) (hfuel : s.replayTotal ≤ fuel) :
    ∃ s', trimLoop σ fuel s = (s', .ok ()) ∧ s'.globalReplayCount = s'.replayTotal ∧
      s'.replayTotal ≤ maxGlobalReplayIds := by
  induction fuel generalizing s with
  | zero =>
    refine ⟨s, rfl, hcount, ?_⟩
    rw [Nat.le_zero.mp hfuel]
    exact Nat.zero_le _
  | succ fuel ih =>
    rw [trimLoop]
    by_cases hover : maxGlobalReplayIds < s.globalReplayCount
    · rw [if_pos hover]
      cases hold : oldestFront s.rooms none (σ.rooms s.rooms.keys) with
      | none =>
        have hzero := replayTotal_eq_zero hold
        omega
      | some front =>
        obtain ⟨id, createdAt⟩ := front
        rw [oldestFront_eq] at hold
        obtain ⟨room, key, rest, hroom, hids⟩ := mem_fronts.mp (argmin_mem hold)
        simp only [hroom, hids]
        have hold' := sum_erase_add hroom fun _ (room : RelayRoom) => room.replayIds.length
        rw [hids, length_cons] at hold'
        have hnew := sum_insert s.rooms id { room with replayIds := rest }
          fun _ (room : RelayRoom) => room.replayIds.length
        dsimp only at hnew hold'
        unfold replayTotal at hcount hfuel
        refine ih _ ?_ ?_
        · change s.globalReplayCount - 1 = (s.rooms.insert id { room with replayIds := rest }).sum
            fun _ room => room.replayIds.length
          omega
        · change ((s.rooms.insert id { room with replayIds := rest }).sum
            fun _ room => room.replayIds.length) ≤ fuel
          omega
    · rw [if_neg hover]
      exact ⟨s, rfl, hcount, hcount ▸ Nat.not_lt.mp hover⟩

theorem replayCount_eq (h : Capacity s) :
    checkedSum (s.rooms.values.map fun room => room.replayIds.length) = some s.replayTotal := by
  have hle : s.replayTotal ≤ wordMax := h.replayTotal_le.trans (by decide)
  refine checkedSum_eq_some.mpr ⟨?_, ?_⟩
  · rw [sum_values]
    exact hle
  · rw [sum_values]
    rfl

theorem trimReplayIds_ok (σ : HashOrder) (h : Capacity s) :
    ∃ s', s.trimReplayIds σ = (s', .ok ()) ∧ s'.globalReplayCount = s'.replayTotal ∧
      s'.replayTotal ≤ maxGlobalReplayIds := by
  rw [trimReplayIds, replayCount_eq h]
  exact trimLoop_ok σ s.replayTotal { s with globalReplayCount := s.replayTotal } rfl (Nat.le_refl _)

theorem gapPairTotal_eq (h : s.gapTotal ≤ maxGlobalExpiredGapPairs) :
    s.gapPairTotal = some s.gapTotal := by
  have hle : s.gapTotal ≤ wordMax := h.trans (by decide)
  refine checkedSum_eq_some.mpr ⟨?_, ?_⟩
  · rw [sum_values]
    exact hle
  · rw [sum_values]
    rfl

theorem recomputeGapAccounting_ok (h : s.gapTotal ≤ maxGlobalExpiredGapPairs) :
    s.recomputeGapAccounting = .ok { s with globalExpiredGapPairs := s.gapTotal } := by
  have hfilter : (some s.gapTotal).filter (fun n => decide (n ≤ maxGlobalExpiredGapPairs)) =
      some s.gapTotal := filter_eq_some_iff.mpr ⟨rfl, by simpa using h⟩
  rw [recomputeGapAccounting, gapPairTotal_eq h, hfilter]
  rfl

end RoomAuthority

structure Counted (size pairs size' pairs' : Nat) : Prop where
  grows : size' + pairs ≤ size + pairs'
  mono : pairs ≤ pairs'
  bound : pairs ≤ maxGlobalExpiredGapPairs → pairs' ≤ maxGlobalExpiredGapPairs

theorem Counted.refl (size pairs : Nat) : Counted size pairs size pairs :=
  ⟨Nat.le_refl _, Nat.le_refl _, id⟩

theorem Counted.trans {a p b q c r : Nat} (h : Counted a p b q) (h' : Counted b q c r) :
    Counted a p c r := by
  have hgrows := h.grows
  have hgrows' := h'.grows
  exact ⟨by omega, h.mono.trans h'.mono, fun hp => h'.bound (h.bound hp)⟩

variable {pairs : Nat}

theorem Counted.skip {size pairs' : Nat} (hmono : pairs ≤ pairs')
    (hbound : pairs ≤ maxGlobalExpiredGapPairs → pairs' ≤ maxGlobalExpiredGapPairs) :
    Counted size pairs size pairs' := ⟨Nat.add_le_add_left hmono _, hmono, hbound⟩

theorem RelayRoom.GapStep.counted {c : CodeId} {scan : GapScan}
    {gaps : OrdMap (CodeId ×ₗ CodeId) Nat} (h : GapStep c scan gaps pairs) :
    Counted scan.nextGaps.size scan.gapPairs gaps.size pairs := by
  cases h with
  | same => exact .refl _ _
  | more sender n m hold =>
    rw [size_insert_of_get? hold]
    exact .refl _ _
  | new sender n hnew _ hglobal =>
    rw [size_insert_new hnew]
    exact ⟨by omega, Nat.le_succ _, fun _ => hglobal⟩

theorem scanQueue_counted (c : CodeId) (now : Nat) (scan : GapScan) (queue : List PendingDelivery) :
    (∀ scan', scanQueue c now scan queue = .ok scan' →
      Counted scan.nextGaps.size scan.gapPairs scan'.nextGaps.size scan'.gapPairs) ∧
    ∀ reason pairs, scanQueue c now scan queue = .error (reason, pairs) →
      scan.gapPairs ≤ pairs ∧
        (scan.gapPairs ≤ maxGlobalExpiredGapPairs → pairs ≤ maxGlobalExpiredGapPairs) := by
  induction queue generalizing scan with
  | nil =>
    refine ⟨fun scan' h => ?_, fun reason pairs h => by cases h⟩
    cases h
    exact .refl _ _
  | cons d queue ih =>
    rcases scanQueue_cons c now scan d queue with
      ⟨reason, heq⟩ | heq | ⟨-, gaps, pairs, hstep, heq⟩ <;> rw [heq]
    · refine ⟨fun scan' h => (by cases h), fun reason' pairs h => ?_⟩
      cases h
      exact ⟨Nat.le_refl _, id⟩
    · exact ih _
    · obtain ⟨hok, herror⟩ := ih { scan with nextGaps := gaps, removed := true, gapPairs := pairs }
      refine ⟨fun scan' h => hstep.counted.trans (hok scan' h), fun reason pairs' h => ?_⟩
      obtain ⟨hmono, hbound⟩ := herror reason pairs' h
      exact ⟨hstep.counted.mono.trans hmono, fun hp => hbound (hstep.counted.bound hp)⟩

theorem pruneQueue_counted (now : Nat) (c : CodeId) (room : RelayRoom) (pairs : Nat) :
    Counted room.expiredSenderGaps.size pairs (pruneQueue now c room pairs).1.expiredSenderGaps.size
      (pruneQueue now c room pairs).2.1 := by
  unfold pruneQueue
  cases hq : room.deliveries.get? c with
  | none => exact .refl _ _
  | some queue =>
    obtain ⟨hok, herror⟩ := scanQueue_counted c now ⟨[], room.expiredSenderGaps, false, pairs⟩ queue
    simp only
    cases hscan : scanQueue c now ⟨[], room.expiredSenderGaps, false, pairs⟩ queue with
    | error e =>
      obtain ⟨hmono, hbound⟩ := herror e.1 e.2 hscan
      exact .skip hmono hbound
    | ok scan =>
      have hcounted := hok scan hscan
      simp only
      split_ifs
      · cases hcompact : compactDeliveryRevisions { room with
            deliveries := room.deliveries.insert c scan.nextQueue
            expiredSenderGaps := scan.nextGaps } c with
        | error reason => exact hcounted
        | ok room' =>
          rw [compactDeliveryRevisions_ok hcompact]
          exact hcounted
      · exact .skip hcounted.mono hcounted.bound

theorem pruneQueues_counted (now : Nat) (cs : List CodeId) (room : RelayRoom) (pairs : Nat) :
    Counted room.expiredSenderGaps.size pairs
      (pruneQueues now cs room pairs).1.expiredSenderGaps.size
      (pruneQueues now cs room pairs).2.1 := by
  induction cs generalizing room pairs with
  | nil => exact .refl _ _
  | cons c cs ih =>
    have hone := pruneQueue_counted now c room pairs
    unfold pruneQueues
    split
    · rename_i heq
      rw [heq] at hone
      exact hone
    · rename_i heq
      rw [heq] at hone
      exact hone.trans (ih _ _)

theorem expireApplications_rest (σ : HashOrder) (room : RelayRoom) (now : Nat) :
    (room.expireApplications σ now).expiredSenderGaps = room.expiredSenderGaps ∧
      (room.expireApplications σ now).replayIds = room.replayIds :=
  foldl_expireApplication σ _ (P := fun room' => room'.expiredSenderGaps = room.expiredSenderGaps ∧
    room'.replayIds = room.replayIds) ⟨rfl, rfl⟩ fun _ _ _ _ _ h => h

theorem pruneDeliveries_counted (σ : HashOrder) (room : RelayRoom) (now pairs : Nat) :
    Counted room.expiredSenderGaps.size pairs
      (room.pruneDeliveries σ now pairs).1.expiredSenderGaps.size
      (room.pruneDeliveries σ now pairs).2 := by
  have h := pruneQueues_counted now (σ.codes room.roomId room.deliveries.keys) room pairs
  unfold pruneDeliveries pruneExpiredApplicationDeliveries
  split <;> rename_i heq <;> rw [heq] at h <;> exact h

theorem swept_gaps (σ : HashOrder) (now ttl : Nat) (room : RelayRoom) :
    (room.swept σ now ttl).expiredSenderGaps = room.expiredSenderGaps := by
  unfold swept recountSnapshots pruneReplayIds recountPending dropEmptyQueues
  dsimp only
  rw [(expireApplications_rest σ _ now).1]
  rfl

theorem prune_counted (σ : HashOrder) (now ttl : Nat) (room : RelayRoom) (pairs : Nat) :
    Counted room.expiredSenderGaps.size pairs
      (room.prune σ now ttl pairs).1.expiredSenderGaps.size (room.prune σ now ttl pairs).2 := by
  have h := pruneDeliveries_counted σ (room.swept σ now ttl) now pairs
  rw [swept_gaps] at h
  rw [prune_eq]
  exact h

namespace RoomAuthority

theorem pruneRooms_counted (σ : HashOrder) (now ttl : Nat) (ids : List Text)
    (rooms : OrdMap Text RelayRoom) (pairs : Nat) :
    Counted (rooms.sum fun _ room => room.expiredSenderGaps.size) pairs
      ((pruneRooms σ now ttl ids rooms pairs).1.sum fun _ room => room.expiredSenderGaps.size)
      (pruneRooms σ now ttl ids rooms pairs).2 := by
  induction ids generalizing rooms pairs with
  | nil => exact .refl _ _
  | cons id ids ih =>
    rw [pruneRooms]
    cases hroom : rooms.get? id with
    | none => exact ih rooms pairs
    | some room =>
      have hone := prune_counted σ now ttl room pairs
      have hold := sum_erase_add hroom fun _ (room : RelayRoom) => room.expiredSenderGaps.size
      have hnew := sum_insert rooms id (room.prune σ now ttl pairs).1
        fun _ (room : RelayRoom) => room.expiredSenderGaps.size
      have hgrows := hone.grows
      refine Counted.trans ⟨?_, hone.mono, hone.bound⟩
        (ih (rooms.insert id (room.prune σ now ttl pairs).1) (room.prune σ now ttl pairs).2)
      omega

theorem pruneAllRooms_gapTotal (σ : HashOrder) (now : Nat) {s : RoomAuthority}
    (h : s.gapTotal ≤ maxGlobalExpiredGapPairs) :
    (s.pruneAllRooms σ now).gapTotal ≤ maxGlobalExpiredGapPairs := by
  have hcounted := pruneRooms_counted σ now s.replayTtlMs (σ.rooms s.rooms.keys) s.rooms s.gapTotal
  have hgrows := hcounted.grows
  have hbound := hcounted.bound h
  unfold gapTotal pruneAllRooms at *
  rw [gapPairTotal_eq h]
  dsimp only [getD_some, gapTotal]
  omega

end RoomAuthority

variable {room room' : RelayRoom}

theorem RelayRoom.TidyStar.replay_suffix (h : TidyStar room room') :
    room'.replayIds <:+ room.replayIds := by
  induction h with
  | refl => exact suffix_refl _
  | tail _ hstep ih =>
    refine List.IsSuffix.trans ?_ ih
    cases hstep with
    | requests | unstage | undo => exact suffix_refl _
    | trim htrim =>
      cases htrim with
      | expire | dropEmpty | recount => exact suffix_refl _
      | evict n => exact drop_suffix n _

theorem pushReplay_length {ids : List (ReplayKey × Nat)} (key : ReplayKey) (now : Nat)
    (h : ids.length ≤ maxReplayIds) : (pushReplay ids key now).length ≤ maxReplayIds := by
  have hpos : 1 ≤ maxReplayIds := by decide
  unfold pushReplay
  rw [length_append, length_singleton]
  split_ifs with hfull
  · rw [length_tail]
    omega
  · omega

theorem storedGaps_size (room : RelayRoom) (c : CodeId) (ds : List PendingDelivery) :
    (storedGaps room c ds).size ≤ room.expiredSenderGaps.size := by
  have hfold : ∀ (senders : List CodeId) (gaps : OrdMap (CodeId ×ₗ CodeId) Nat),
      (senders.foldl (fun gaps sender => gaps.erase (toLex (c, sender))) gaps).size ≤
        gaps.size := by
    intro senders
    induction senders with
    | nil => exact fun _ => Nat.le_refl _
    | cons sender senders ih =>
      exact fun gaps => (ih _).trans (size_filter_le ..)
  unfold storedGaps
  dsimp only
  split_ifs
  · exact (size_filter_le ..).trans (hfold _ _)
  · exact hfold _ _

variable {b : RoomAuthority}

theorem RoomAuthority.Effect.limits {op : Op} (he : Effect b op id room room')
    (hreplay : room.replayIds.length ≤ maxReplayIds) :
    room'.expiredSenderGaps.size ≤ room.expiredSenderGaps.size ∧
      room'.replayIds.length ≤ maxReplayIds := by
  have hevicted : ∀ {r r' : RelayRoom}, Evicted r r' →
      r.expiredSenderGaps.size ≤ room.expiredSenderGaps.size →
      r.replayIds.length ≤ maxReplayIds →
      r'.expiredSenderGaps.size ≤ room.expiredSenderGaps.size ∧
        r'.replayIds.length ≤ maxReplayIds := by
    rintro r _ ⟨n, rfl⟩ hgaps hlength
    exact ⟨hgaps, (drop_suffix n _).length_le.trans hlength⟩
  cases he with
  | evicted hevict => exact hevicted hevict (Nat.le_refl _) hreplay
  | joined hplan | left hplan | staged hplan =>
    rw [hplan.roomEq]
    exact ⟨Nat.le_refl _, hreplay⟩
  | unjoined | unleft | unstaged | admitted | rolledBack hplan | abandoned =>
    exact ⟨Nat.le_refl _, hreplay⟩
  | accepted hplan hevict =>
    refine hevicted hevict ?_ ?_ <;> rw [acceptRoom_eq]
    · exact Nat.zero_le _
    · exact pushReplay_length _ _ hreplay
  | committed hplan hevict =>
    obtain ⟨pendingBytes, hroom, -⟩ := hplan.roomEq
    rw [hroom] at hevict
    exact hevicted hevict (Nat.le_refl _) (pushReplay_length _ _ hreplay)
  | stored => exact ⟨storedGaps_size _ _ _, hreplay⟩

namespace RoomAuthority

variable {s s' : RoomAuthority} {σ : HashOrder}

theorem rooms_size_le
    (h : ∀ id room', s'.rooms.get? id = some room' → ∃ room, s.rooms.get? id = some room) :
    s'.rooms.size ≤ s.rooms.size := by
  rw [size_eq_sum, size_eq_sum]
  refine sum_le_sum_of_get? fun id room' hroom' => ?_
  obtain ⟨room, hroom⟩ := h id room' hroom'
  exact ⟨room, hroom, Nat.le_refl 1⟩

section

variable (h : Capacity s)

include h

theorem Capacity.of_rooms
    (hrooms : ∀ id room', s'.rooms.get? id = some room' → ∃ room, s.rooms.get? id = some room ∧
      room'.expiredSenderGaps.size ≤ room.expiredSenderGaps.size ∧
      room'.replayIds.length ≤ maxReplayIds) : Capacity s' := by
  refine ⟨(rooms_size_le fun id r hr => ?_).trans h.rooms, fun id r hr => ?_,
    (sum_le_sum_of_get? fun id r hr => ?_).trans h.gaps⟩
  · obtain ⟨room, hroom, -⟩ := hrooms id r hr
    exact ⟨room, hroom⟩
  · obtain ⟨-, -, -, hreplay⟩ := hrooms id r hr
    exact hreplay
  · obtain ⟨room, hroom, hgaps, -⟩ := hrooms id r hr
    exact ⟨room, hroom, hgaps⟩

theorem Capacity.evicted
    (hrel : ∀ id, Option.Rel Evicted (s.rooms.get? id) (s'.rooms.get? id)) : Capacity s' := by
  refine h.of_rooms fun id r hr => ?_
  have hrel := hrel id
  rw [hr] at hrel
  obtain ⟨room, hroom, n, rfl⟩ := rel_some_right hrel
  exact ⟨room, hroom, Nat.le_refl _, (drop_suffix n _).length_le.trans (h.replay id room hroom)⟩

theorem Capacity.pruneAllRooms (σ : HashOrder) (now : Nat) : Capacity (s.pruneAllRooms σ now) := by
  refine ⟨(rooms_size_le fun id room' hroom' => ?_).trans h.rooms, fun id room' hroom' => ?_,
    pruneAllRooms_gapTotal σ now h.gaps⟩
  · obtain ⟨room, hroom, -⟩ := pruneAllRooms_some hroom'
    exact ⟨room, hroom⟩
  · obtain ⟨room, hroom, hpruned⟩ := pruneAllRooms_some hroom'
    exact hpruned.tidy.replay_suffix.length_le.trans (h.replay id room hroom)

theorem Capacity.recountAll : Capacity s.recountAll := by
  refine h.of_rooms fun id r hr => ?_
  rw [recountAll_rooms] at hr
  exact ⟨r, hr, Nat.le_refl _, h.replay id r hr⟩

theorem Capacity.pruneExpired (σ : HashOrder) (now : Nat) : Capacity (s.pruneExpired σ now) := by
  refine (h.pruneAllRooms σ now).recountAll.evicted fun id => ?_
  rw [RoomAuthority.pruneExpired, trimOrExhaust_rooms]
  exact trimReplayIds_rooms σ _ id

theorem Capacity.base (σ : HashOrder) (op : Op) : Capacity (op.base σ s) := by
  unfold Op.base
  split
  · exact h.pruneExpired σ _
  · exact h

end

theorem Capacity.insert (h : Capacity b) (hroom : b.rooms.get? id = some room)
    (hgaps : room'.expiredSenderGaps.size ≤ room.expiredSenderGaps.size)
    (hreplay : room'.replayIds.length ≤ maxReplayIds) (hs' : s'.rooms = b.rooms.insert id room') :
    Capacity s' := by
  refine h.of_rooms fun id' r hr => ?_
  rw [hs'] at hr
  rcases get?_insert_cases hr with ⟨rfl, rfl⟩ | ⟨-, hold⟩
  · exact ⟨room, hroom, hgaps, hreplay⟩
  · exact ⟨r, hold, Nat.le_refl _, h.replay id' r hold⟩

theorem Capacity.created (h : Capacity b) {a : CreateArgs} {plan : CreatePlan}
    (hplan : Created b createdAt a plan) (hs' : s'.rooms = b.rooms.insert a.roomId plan.room) :
    Capacity s' := by
  obtain ⟨name, bytes, -, -, hroom, -⟩ := hplan.roomEq
  refine ⟨?_, fun id room hr => ?_, ?_⟩
  · rw [hs', size_insert_new hplan.absent]
    exact hplan.capacity
  · rw [hs'] at hr
    rcases get?_insert_cases hr with ⟨-, rfl⟩ | ⟨-, hr⟩
    · rw [hroom]
      exact Nat.zero_le _
    · exact h.replay id room hr
  · unfold gapTotal
    rw [hs', sum_insert_new hplan.absent, hroom]
    exact h.gaps

theorem Capacity.step {op : Op} {result : Except String Reply} (h : Capacity b)
    (hstep : Step σ b op s' result) :
    Capacity s' := by
  by_cases hcreate : ∃ now createdAt a, op = .create now createdAt a
  · cases hstep with
    | failed | replied => exact h
    | created hplan => exact h.created hplan rfl
    | _ =>
      obtain ⟨_, _, _, heq⟩ := hcreate
      cases heq
  · refine h.of_rooms fun id room' hroom' => ?_
    rcases hstep.effect hroom' with ⟨room, hroom, he⟩ | ⟨now, createdAt, a, _, heq, -⟩
    · exact ⟨room, hroom, he.limits (h.replay id room hroom)⟩
    · exact absurd ⟨now, createdAt, a, heq⟩ hcreate

theorem Capacity.call (h : Capacity s) (c : Call) : Capacity (call s c) :=
  (h.base c.1 c.2).step (exec_step c.1 s c.2)

theorem capacity_after (maxRooms pendingTtlMs : Nat) (calls : List Call) :
    Capacity (after maxRooms pendingTtlMs calls) :=
  @after_invariant Capacity _ _ ⟨Nat.zero_le _, fun _ _ h => (by cases h), Nat.zero_le _⟩
    (fun _ c hs => hs.call c) calls

variable {result : Except String Unit}

theorem Capacity.trimmed (h : Capacity s) (htrim : s.trimReplayIds σ = (s', result)) :
    Capacity s' ∧ result = .ok () := by
  obtain ⟨s'', hok, -⟩ := trimReplayIds_ok σ h
  refine ⟨h.evicted fun id => ?_, ?_⟩
  · have hrel := trimReplayIds_rooms σ s id
    rw [htrim] at hrel
    exact hrel
  · rw [hok] at htrim
    exact (Prod.mk.inj htrim).2.symm

theorem Capacity.trimmed_replay (h : Capacity s) (htrim : s.trimReplayIds σ = (s', result)) :
    s'.replayTotal ≤ maxGlobalReplayIds := by
  obtain ⟨s'', hok, -, hle⟩ := trimReplayIds_ok σ h
  rw [htrim] at hok
  exact (Prod.mk.inj hok).1 ▸ hle

variable {plan : AcceptPlan}

theorem Capacity.settled_replay {result : Except String MembershipResult} (h : Capacity s)
    (hsettle : settleAcceptance σ s plan = (s', result)) : s'.replayTotal ≤ maxGlobalReplayIds := by
  obtain ⟨trimmed, outcome, htrim, hrooms⟩ := settleAcceptance_trim hsettle
  have hle := h.trimmed_replay htrim
  unfold replayTotal at hle ⊢
  rw [hrooms]
  exact hle

theorem Capacity.settled {result : Except String MembershipResult} (h : Capacity s)
    (hsettle : settleAcceptance σ s plan = (s', result)) :
    result = .ok (.accepted plan.transition) := by
  unfold settleAcceptance at hsettle
  obtain ⟨mid, htrim, -⟩ := trimReplayIds_ok σ h
  obtain ⟨hmid, -⟩ := h.trimmed htrim
  rw [htrim] at hsettle
  simp only at hsettle
  split at hsettle
  · rename_i hgap
    have hok := hgap.symm.trans (recomputeGapAccounting_ok hmid.gaps)
    cases hok
  · exact (Prod.mk.inj hsettle).2.symm

end RoomAuthority
end Abyssal.Rooms
