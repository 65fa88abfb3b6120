import Abyssal.Rooms.Expiry

/-! Expiry over all rooms. Pruning takes out everything that is past its time limit, and records
every committed message that it takes out for that reason, exactly when the gaps can all be recorded
and no expired admission shares its message id with a committed message that expired with it. -/

namespace Abyssal.Rooms

open RelayRoom RoomAuthority OrdMap List

structure ExpiredGone (now : Nat) (room : RelayRoom) : Prop where
  deliveries : Clear now room
  pending : ∀ m p, room.pendingApplications.get? m = some p → now < p.admission.expiresAtMs
  joins : ∀ id join, room.joins.get? id = some join → now < join.request.expiresAtMs
  leaves : ∀ id leave, room.leaves.get? id = some leave → now < leave.expiresAtMs

def gapOf (room : RelayRoom) (c sender : CodeId) : Nat :=
  (room.expiredSenderGaps.get? (toLex (c, sender))).getD 0

def overdueCount (now : Nat) (room : RelayRoom) (c sender : CodeId) : Nat :=
  (room.queueOf c).countP fun d => d.overdueSender now = some sender

def overdueCopies (now : Nat) (room : RelayRoom) (messageId : Text) (c sender : CodeId) : Nat :=
  (room.queueOf c).countP fun d =>
    decide (d.overdueSender now = some sender) && decide (d.messageId = messageId)

def lapsedAdmissions (now : Nat) (room : RelayRoom) : OrdMap Text PendingApplication :=
  room.pendingApplications.filter fun _ p => p.admission.expiresAtMs ≤ now

/-- The messages of a sender, waiting for a member, that were never committed: an expired admission
has put one copy at most into each queue. -/
def uncommittedCount (now : Nat) (room : RelayRoom) (c sender : CodeId) : Nat :=
  (lapsedAdmissions now room).sum fun messageId p =>
    if p.senderCodeId = sender then min 1 (overdueCopies now room messageId c sender) else 0

/-- Pruning leaves nothing that is past its time limit, and every committed message that expired is
one more missed generation of its sender. -/
structure ExpiryComplete (σ : HashOrder) (now : Nat) (s : RoomAuthority) : Prop where
  gone : AllRooms (ExpiredGone now) (s.pruneExpired σ now)
  accounted : ∀ id room room', s.rooms.get? id = some room →
    (s.pruneExpired σ now).rooms.get? id = some room' → ∀ c sender,
      gapOf room' c sender + uncommittedCount now room c sender =
        gapOf room c sender + overdueCount now room c sender

def newGaps (now : Nat) (room : RelayRoom) : Nat :=
  (room.expiredSenderGaps.fresh (missedPairs now room)).card

structure RoomRecords (now : Nat) (room : RelayRoom) : Prop where
  pairs : 0 < newGaps now room →
    room.expiredSenderGaps.size + newGaps now room ≤ maxExpiredGapPairsPerRoom
  gaps : ∀ pair ∈ missedPairs now room, (room.expiredSenderGaps.get? pair).getD 0 +
    OrdMap.times pair (missedPairs now room) ≤ gapMax

/-- Every gap can be recorded within the limits of its room and of all rooms. -/
structure Records (now : Nat) (s : RoomAuthority) : Prop where
  rooms : AllRooms (RoomRecords now) s
  total : s.gapTotal + s.rooms.sum (fun _ room => newGaps now room) ≤ maxGlobalExpiredGapPairs

/-- An expired admission shares its message id with no other message that has expired: there is one
copy at most for each member, and it comes from the sender of the admission. -/
def Unshared (now : Nat) (s : RoomAuthority) : Prop :=
  ∀ id room, s.rooms.get? id = some room → ∀ messageId p,
    room.pendingApplications.get? messageId = some p → p.admission.expiresAtMs ≤ now →
      ∀ c sender, overdueCopies now room messageId c sender ≤
        if p.senderCodeId = sender then 1 else 0

section

variable {room room' : RelayRoom} {now : Nat}

theorem fits_iff {pairs : Nat} :
    OrdMap.Fits gapLimits room.expiredSenderGaps pairs (missedPairs now room) ↔
      RoomRecords now room ∧
        (0 < newGaps now room → pairs + newGaps now room ≤ maxGlobalExpiredGapPairs) :=
  ⟨fun h => ⟨⟨h.keys, h.count⟩, h.total⟩, fun h => ⟨h.1.pairs, h.2, h.1.gaps⟩⟩

theorem Steady.clear_iff (h : Steady room) (σ : HashOrder) (ttl pairs : Nat) :
    Clear now (room.prune σ now ttl pairs).1 ↔
      RoomRecords now room ∧
        (0 < newGaps now room → pairs + newGaps now room ≤ maxGlobalExpiredGapPairs) := by
  rw [← fits_iff]
  rcases h.prune σ now ttl pairs with ⟨hfits, hclear, -⟩ | ⟨hfits, hclear⟩
  · exact ⟨fun _ => hfits, fun _ => hclear⟩
  · exact ⟨fun h => absurd h hclear, fun h => absurd h hfits⟩

theorem Steady.recorded (h : Steady room) (σ : HashOrder) (ttl pairs : Nat)
    (hclear : Clear now (room.prune σ now ttl pairs).1) :
    (room.prune σ now ttl pairs).2 = pairs + newGaps now room ∧
      ∀ pair, ((room.prune σ now ttl pairs).1.expiredSenderGaps.get? pair).getD 0 =
        (room.expiredSenderGaps.get? pair).getD 0 + OrdMap.times pair (missedPairs now room) := by
  rcases h.prune σ now ttl pairs with ⟨-, -, hrecorded⟩ | ⟨-, hnot⟩
  · exact hrecorded
  · exact absurd hclear hnot

def newGapsOf (now : Nat) (rooms : OrdMap Text RelayRoom) (ids : List Text) : Nat :=
  (ids.map fun id => ((rooms.get? id).map (newGaps now)).getD 0).sum

theorem newGapsOf_congr {rooms rooms' : OrdMap Text RelayRoom} {ids : List Text}
    (h : ∀ id ∈ ids, rooms'.get? id = rooms.get? id) :
    newGapsOf now rooms' ids = newGapsOf now rooms ids := by
  refine congrArg List.sum (map_congr_left fun id hid => ?_)
  rw [h id hid]

theorem newGapsOf_keys (rooms : OrdMap Text RelayRoom) {ids : List Text}
    (hperm : ids.Perm rooms.keys) :
    newGapsOf now rooms ids = rooms.sum fun _ room => newGaps now room := by
  have hkeys : newGapsOf now rooms rooms.keys = rooms.sum fun _ room => newGaps now room := by
    rw [newGapsOf, OrdMap.keys, OrdMap.sum, map_map]
    refine congrArg List.sum (map_congr_left fun e he => ?_)
    rw [Function.comp_apply, get?_eq_some.mpr he]
    rfl
  rw [← hkeys]
  exact (hperm.map _).sum_eq

theorem pruneRooms_clear_iff (σ : HashOrder) (ttl : Nat) {ids : List Text} (hnd : ids.Nodup)
    (rooms : OrdMap Text RelayRoom)
    (hsteady : ∀ id ∈ ids, ∀ room, rooms.get? id = some room → Steady room) (pairs : Nat) :
    (∀ id ∈ ids, ∀ room', (pruneRooms σ now ttl ids rooms pairs).1.get? id = some room' →
        Clear now room') ↔
      (∀ id ∈ ids, ∀ room, rooms.get? id = some room → RoomRecords now room) ∧
        (0 < newGapsOf now rooms ids →
          pairs + newGapsOf now rooms ids ≤ maxGlobalExpiredGapPairs) := by
  induction ids generalizing rooms pairs with
  | nil =>
    refine ⟨fun _ => ⟨fun id hid => absurd hid not_mem_nil, fun h => ?_⟩,
      fun _ id hid => absurd hid not_mem_nil⟩
    exact absurd h (Nat.lt_irrefl 0)
  | cons id ids ih =>
    obtain ⟨hnot, hnd⟩ := nodup_cons.mp hnd
    have hsum : newGapsOf now rooms (id :: ids) =
        ((rooms.get? id).map (newGaps now)).getD 0 + newGapsOf now rooms ids := sum_cons
    have hrest := fun id' hid' => hsteady id' (mem_cons_of_mem _ hid')
    rw [hsum]
    unfold pruneRooms
    simp only [forall_mem_cons]
    cases hroom : rooms.get? id with
    | none =>
      have hid := (pruneRooms_get? σ now ttl hnd rooms pairs id).1 hnot
      simp only [hid, hroom, ih hnd rooms hrest pairs, reduceCtorEq, false_implies, implies_true,
        true_and, Option.map_none, Option.getD_none, Nat.zero_add]
    | some room =>
      have hone := hsteady id (mem_cons_self ..) room hroom
      have hothers : ∀ id' ∈ ids, (rooms.insert id (room.prune σ now ttl pairs).1).get? id' =
          rooms.get? id' :=
        fun id' hid' => get?_insert_of_ne _ _ fun heq => hnot (heq ▸ hid')
      have htail := ih hnd (rooms.insert id (room.prune σ now ttl pairs).1)
        (fun id' hid' r hr => hrest id' hid' r (hothers id' hid' ▸ hr)) (room.prune σ now ttl pairs).2
      have hid := (pruneRooms_get? σ now ttl hnd (rooms.insert id (room.prune σ now ttl pairs).1)
        (room.prune σ now ttl pairs).2 id).1 hnot
      rw [get?_insert_self] at hid
      have hsame : (∀ id' ∈ ids, ∀ r,
          (rooms.insert id (room.prune σ now ttl pairs).1).get? id' = some r → RoomRecords now r) ↔
          ∀ id' ∈ ids, ∀ r, rooms.get? id' = some r → RoomRecords now r :=
        forall₂_congr fun id' hid' => by rw [hothers id' hid']
      rw [newGapsOf_congr hothers, hsame] at htail
      simp only [hid, Option.some.injEq, forall_eq', htail, Option.map_some, Option.getD_some]
      constructor
      · rintro ⟨hclear, hrecords, htotal⟩
        obtain ⟨hroomRecords, hpairs⟩ := (hone.clear_iff σ ttl pairs).mp hclear
        rw [(hone.recorded σ ttl pairs hclear).1] at htotal
        refine ⟨⟨hroomRecords, hrecords⟩, fun hpos => ?_⟩
        omega
      · rintro ⟨⟨hroomRecords, hrecords⟩, htotal⟩
        have hclear := (hone.clear_iff σ ttl pairs).mpr ⟨hroomRecords, fun hpos => by omega⟩
        refine ⟨hclear, hrecords, fun hpos => ?_⟩
        rw [(hone.recorded σ ttl pairs hclear).1]
        omega

theorem pruneExpired_evicted (σ : HashOrder) (s : RoomAuthority) (id : Text) :
    Option.Rel Evicted ((s.pruneAllRooms σ now).rooms.get? id)
      ((s.pruneExpired σ now).rooms.get? id) := by
  have htrim := trimReplayIds_rooms σ (s.pruneAllRooms σ now).recountAll id
  rw [recountAll_rooms] at htrim
  rw [pruneExpired, trimOrExhaust_rooms]
  exact htrim

theorem RelayRoom.Evicted.clear_iff (h : Evicted room room') : Clear now room' ↔ Clear now room := by
  obtain ⟨n, rfl⟩ := h
  exact Iff.rfl

theorem RelayRoom.TrimStar.pending (h : TrimStar room room') :
    room'.pendingApplications = room.pendingApplications := by
  induction h with
  | refl => rfl
  | tail _ hstep ih =>
    rw [← ih]
    cases hstep <;> rfl

theorem RelayRoom.PrunedTo.gone {σ : HashOrder} {ttl : Nat} (h : PrunedTo σ now ttl room room')
    (hclear : Clear now room') : ExpiredGone now room' := by
  have hrequests := h.sameRequests
  refine ⟨hclear, fun m p hp => ?_, fun id join hjoin => ?_, fun id leave hleave => ?_⟩
  · rw [TrimStar.pending h.trim, expireApplications, foldl_expireApplication_pending] at hp
    split_ifs at hp with hmem
    by_contra hle
    refine hmem ((σ.ids_perm _ _).mem_iff.mpr (mem_keys.mpr ⟨p, ?_⟩))
    rw [get?_filter]
    exact Option.filter_eq_some_iff.mpr ⟨hp, by simpa using hle⟩
  · rw [hrequests.joins, pruneRequests, get?_filter] at hjoin
    simpa using (Option.filter_eq_some_iff.mp hjoin).2
  · rw [hrequests.leaves, pruneRequests, get?_filter] at hleave
    simpa using (Option.filter_eq_some_iff.mp hleave).2

theorem Regular.gone_iff {s : RoomAuthority} (h : Regular s) (σ : HashOrder) :
    AllRooms (ExpiredGone now) (s.pruneExpired σ now) ↔ Records now s := by
  have hperm := σ.rooms_perm s.rooms.keys
  have hnamed : ∀ {id room}, s.rooms.get? id = some room → id ∈ σ.rooms s.rooms.keys :=
    fun hroom => hperm.mem_iff.mpr (mem_keys.mpr ⟨_, hroom⟩)
  have hrooms := @pruneRooms_clear_iff now σ s.replayTtlMs _
    (hperm.nodup_iff.mpr (keys_nodup _)) s.rooms
    (fun id _ room hroom => h.steady id room hroom) s.gapTotal
  have hall : (∀ id ∈ σ.rooms s.rooms.keys, ∀ room',
      (s.pruneAllRooms σ now).rooms.get? id = some room' → Clear now room') ↔
      (∀ id ∈ σ.rooms s.rooms.keys, ∀ room, s.rooms.get? id = some room → RoomRecords now room) ∧
        (0 < newGapsOf now s.rooms (σ.rooms s.rooms.keys) →
          s.gapTotal + newGapsOf now s.rooms (σ.rooms s.rooms.keys) ≤ maxGlobalExpiredGapPairs) := by
    rw [pruneAllRooms, gapPairTotal_eq h.capacity.gaps]
    exact hrooms
  rw [newGapsOf_keys s.rooms hperm] at hall
  constructor
  · intro hgone
    obtain ⟨hrecords, htotal⟩ := hall.mp fun id _ room' hroom' => by
      obtain ⟨room'', hroom'', hevicted⟩ := rel_some_left (hroom' ▸ pruneExpired_evicted σ s id)
      exact hevicted.clear_iff.mp (hgone id room'' hroom'').deliveries
    refine ⟨fun id room hroom => hrecords id (hnamed hroom) room hroom, ?_⟩
    rcases Nat.eq_zero_or_pos (s.rooms.sum fun _ room => newGaps now room) with hzero | hpos
    · rw [hzero]
      exact h.capacity.gaps
    · exact htotal hpos
  · intro hrecords id room' hroom'
    obtain ⟨room, hroom, hpruned⟩ := pruneExpired_some hroom'
    obtain ⟨mid, hmid, hevicted⟩ := rel_some_right (hroom' ▸ pruneExpired_evicted σ s id)
    refine hpruned.gone (hevicted.clear_iff.mpr ?_)
    exact hall.mpr ⟨fun id _ room hroom => hrecords.rooms id room hroom, fun _ => hrecords.total⟩
      id (hnamed hroom) mid hmid

theorem countP_mem (p : PendingDelivery → Bool) {ms : List Text} (hnd : ms.Nodup)
    (queue : List PendingDelivery) :
    (queue.countP fun d => p d && decide (d.messageId ∈ ms)) =
      (ms.map fun m => queue.countP fun d => p d && decide (d.messageId = m)).sum := by
  induction ms with
  | nil => simp
  | cons m ms ih =>
    obtain ⟨hnot, hnd⟩ := nodup_cons.mp hnd
    rw [map_cons, sum_cons, ← ih hnd]
    clear ih
    induction queue with
    | nil => rfl
    | cons d queue ih =>
      simp only [countP_cons, ih]
      by_cases hp : p d = true
      · by_cases hm : d.messageId = m
        · simp [hp, hm, hnot]
          omega
        · by_cases hms : d.messageId ∈ ms
          · simp [hp, hm, hms]
            omega
          · simp [hp, hm, hms]
      · simp [hp]

theorem overdueCount_eq (room : RelayRoom) (c sender : CodeId) :
    overdueCount now room c sender = OrdMap.times (toLex (c, sender)) (missedPairs now room) +
      (lapsedAdmissions now room).sum fun messageId _ =>
        overdueCopies now room messageId c sender := by
  have hcopies : ((lapsedAdmissions now room).sum fun messageId _ =>
      overdueCopies now room messageId c sender) = (room.queueOf c).countP fun d =>
        decide (d.overdueSender now = some sender) &&
          decide (d.messageId ∈ room.expiredApplications now) := by
    refine Eq.trans ?_ (countP_mem (fun d => decide (d.overdueSender now = some sender))
      (keys_nodup (lapsedAdmissions now room)) (room.queueOf c)).symm
    rw [OrdMap.keys, map_map]
    rfl
  have hkept : OrdMap.times (toLex (c, sender)) (missedPairs now room) =
      (room.queueOf c).countP fun d => decide (d.overdueSender now = some sender) &&
        !decide (d.messageId ∈ room.expiredApplications now) := by
    rw [times_missedPairs, OrdMap.times, countP_filterMap, keptQueue, countP_filter]
    refine countP_congr fun d _ => ?_
    cases d.overdueSender now <;> simp
  rw [hcopies, hkept, overdueCount]
  induction room.queueOf c with
  | nil => rfl
  | cons d queue ih =>
    simp only [countP_cons, ih]
    by_cases hd : d.overdueSender now = some sender
    · by_cases hmem : d.messageId ∈ room.expiredApplications now <;> simp [hd, hmem] <;> omega
    · simp [hd]

theorem sum_eq_iff_of_le {K V : Type} [LinearOrder K] {m : OrdMap K V} {f g : K → V → Nat}
    (hle : ∀ k v, m.get? k = some v → f k v ≤ g k v) :
    m.sum f = m.sum g ↔ ∀ k v, m.get? k = some v → f k v = g k v := by
  refine ⟨fun h k v hv => ?_, sum_congr⟩
  have hsplit : m.sum g = m.sum f + m.sum fun k v => g k v - f k v := by
    rw [← sum_add]
    refine sum_congr fun k v hv => ?_
    have := hle k v hv
    omega
  have hterm := le_sum_of_get? hv fun k v => g k v - f k v
  have := hle k v hv
  omega

theorem accounted_iff (room : RelayRoom) (c sender : CodeId) :
    OrdMap.times (toLex (c, sender)) (missedPairs now room) +
        uncommittedCount now room c sender = overdueCount now room c sender ↔
      ∀ messageId p, (lapsedAdmissions now room).get? messageId = some p →
        overdueCopies now room messageId c sender ≤ if p.senderCodeId = sender then 1 else 0 := by
  have hterms := sum_eq_iff_of_le (m := lapsedAdmissions now room)
    (f := fun messageId p => if p.senderCodeId = sender then
      min 1 (overdueCopies now room messageId c sender) else 0)
    (g := fun messageId _ => overdueCopies now room messageId c sender) fun messageId p _ => by
      split_ifs <;> omega
  rw [overdueCount_eq, Nat.add_left_cancel_iff]
  refine hterms.trans (forall₃_congr fun messageId p _ => ?_)
  split_ifs <;> omega

theorem mem_lapsedAdmissions {messageId : Text} {p : PendingApplication} :
    (lapsedAdmissions now room).get? messageId = some p ↔
      room.pendingApplications.get? messageId = some p ∧ p.admission.expiresAtMs ≤ now := by
  rw [lapsedAdmissions, get?_filter, Option.filter_eq_some_iff]
  simp

theorem expiry_complete_iff (maxRooms pendingTtlMs : Nat) (calls : List Call) (σ : HashOrder)
    (now : Nat) :
    ExpiryComplete σ now (after maxRooms pendingTtlMs calls) ↔
      Records now (after maxRooms pendingTtlMs calls) ∧
        Unshared now (after maxRooms pendingTtlMs calls) := by
  have hregular := regular_after maxRooms pendingTtlMs calls
  generalize after maxRooms pendingTtlMs calls = s at hregular ⊢
  -- Once nothing overdue is left, the gaps of every room have grown by the missed generations.
  have hgaps : ∀ id room room', s.rooms.get? id = some room →
      (s.pruneExpired σ now).rooms.get? id = some room' → Clear now room' → ∀ c sender,
        gapOf room' c sender = gapOf room c sender +
          OrdMap.times (toLex (c, sender)) (missedPairs now room) := by
    intro id room room' hroom hroom' hclear c sender
    obtain ⟨room₁, hroom₁, pairs, hevicted⟩ := pruneExpired_some hroom'
    obtain rfl := Option.some.inj (hroom.symm.trans hroom₁)
    have hrecorded := ((hregular.steady id room hroom).recorded σ s.replayTtlMs pairs
      (hevicted.clear_iff.mp hclear)).2 (toLex (c, sender))
    obtain ⟨n, rfl⟩ := hevicted
    exact hrecorded
  have haccounted : AllRooms (ExpiredGone now) (s.pruneExpired σ now) →
      ((∀ id room room', s.rooms.get? id = some room →
        (s.pruneExpired σ now).rooms.get? id = some room' → ∀ c sender,
          gapOf room' c sender + uncommittedCount now room c sender =
            gapOf room c sender + overdueCount now room c sender) ↔ Unshared now s) := by
    intro hgone
    constructor
    · intro h id room hroom messageId p hp hexpired c sender
      obtain ⟨room', hroom', -⟩ := rel_some_left (hroom ▸ pruneExpired_rooms σ now s id)
      have hcount := h id room room' hroom hroom' c sender
      rw [hgaps id room room' hroom hroom' (hgone id room' hroom').deliveries c sender] at hcount
      refine (accounted_iff room c sender).mp ?_ messageId p (mem_lapsedAdmissions.mpr ⟨hp, hexpired⟩)
      omega
    · intro h id room room' hroom hroom' c sender
      have hcount := (accounted_iff room c sender).mpr fun messageId p hp =>
        h id room hroom messageId p (mem_lapsedAdmissions.mp hp).1 (mem_lapsedAdmissions.mp hp).2
          c sender
      rw [hgaps id room room' hroom hroom' (hgone id room' hroom').deliveries c sender]
      omega
  constructor
  · intro h
    exact ⟨(hregular.gone_iff σ).mp h.gone, (haccounted h.gone).mp h.accounted⟩
  · rintro ⟨hrecords, hunshared⟩
    have hgone := (hregular.gone_iff σ).mpr hrecords
    exact ⟨hgone, (haccounted hgone).mpr hunshared⟩

end

namespace Scenario

def day : Nat := 24 * 60 * 60 * 1000

/-- Alice's message waits for Bob; a day later its replay entry is gone and she sends the same
message id again, without a commit. -/
def sentOnNextDay : List Op :=
  bobJoins ++ [send 2 1 [50] 1 2, .commitApplication 3 lobby [50], send (day + 3) 1 [50] 1 3]

end Scenario

open Scenario in
set_option maxRecDepth 100000 in
theorem expiry_uncounted_sentOnNextDay :
    ¬ ExpiryComplete .byKey (9 * day) (after 1 (7 * day) (calls sentOnNextDay)) := by
  intro h
  have hrun : ((after 1 (7 * day) (calls sentOnNextDay)).rooms.get? lobby).any (fun room =>
      decide ((((after 1 (7 * day) (calls sentOnNextDay)).pruneExpired .byKey (9 * day)).rooms.get?
        lobby).any (fun room' => decide (gapOf room' 2 1 = 0 ∧
          uncommittedCount (9 * day) room 2 1 = 1 ∧ gapOf room 2 1 = 0 ∧
          overdueCount (9 * day) room 2 1 = 2)) = true)) = true := by decide
  obtain ⟨room, hroom, hroom'⟩ := exists_of_any hrun
  obtain ⟨room', hroom', hgap', huncommitted, hgap, hoverdue⟩ := exists_of_any hroom'
  have hcount := h.accounted lobby room room' hroom hroom' 2 1
  omega

end Abyssal.Rooms
