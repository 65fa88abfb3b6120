import Abyssal.Rooms.Ascent

/-! What each change of a room does to the weights of its tables: what is queued, stored and
pending afterwards, plus what was taken away, is what was there before plus what was added. -/

namespace Abyssal.Rooms

open RelayRoom RoomAuthority OrdMap List

def tally (w : PendingDelivery → Nat) (queues : OrdMap CodeId (List PendingDelivery)) : Nat :=
  queues.sum fun _ queue => (queue.map w).sum

theorem deliveryWeight_eq (room : RelayRoom) :
    room.deliveryWeight = tally deliveryWeight room.deliveries := rfl

theorem length_eq_sum (queue : List PendingDelivery) : (queue.map fun _ => 1).sum = queue.length := by
  simp

theorem deliveryCount_eq (room : RelayRoom) :
    room.deliveryCount = tally (fun _ => 1) room.deliveries := by
  simp only [RelayRoom.deliveryCount, tally, length_eq_sum]

section

variable (w : PendingDelivery → Nat)

theorem tally_push (ds : List PendingDelivery) (queues : OrdMap CodeId (List PendingDelivery)) :
    tally w (ds.foldl pushDelivery queues) = tally w queues + (ds.map w).sum := by
  induction ds generalizing queues with
  | nil => rfl
  | cons d ds ih =>
    have hone : tally w (pushDelivery queues d) = tally w queues + w d := by
      have hsum := sum_insert_add queues d.recipientCodeId
        ((queues.get? d.recipientCodeId).getD [] ++ [d]) fun _ queue => (queue.map w).sum
      rw [map_append, sum_append] at hsum
      simp only [map_cons, map_nil, sum_cons, sum_nil, Nat.add_zero] at hsum
      unfold tally pushDelivery
      cases hget : queues.get? d.recipientCodeId with
      | none =>
        rw [hget] at hsum
        simp only [Option.map_none, Option.getD_none, map_nil, sum_nil] at hsum ⊢
        omega
      | some queue =>
        rw [hget] at hsum
        simp only [Option.map_some, Option.getD_some] at hsum ⊢
        omega
    rw [foldl_cons, ih, hone, map_cons, sum_cons, Nat.add_assoc]

theorem tally_erase {codes : List CodeId} (hnd : codes.Nodup)
    (queues : OrdMap CodeId (List PendingDelivery)) :
    tally w (codes.foldl OrdMap.erase queues) +
      ((codes.filterMap queues.get?).flatten.map w).sum = tally w queues := by
  have h := sum_foldl_erase queues hnd fun queue => (queue.map w).sum
  rw [map_flatten, sum_flatten, map_map]
  exact h

end

section

variable {b : RoomAuthority} {room : RelayRoom}
  {revision : Nat} {messageId : Text} {plan : AcceptPlan} {owner : CodeId}

theorem admitRoom_tally (w : PendingDelivery → Nat) (a : AdmitArgs) (plan : AdmitPlan) :
    tally w (admitRoom room a plan).deliveries =
      tally w room.deliveries + (plan.deliveries.map w).sum := tally_push w ..

theorem storedWeight_add (room : RelayRoom) (c : CodeId) (snapshot : StateSnapshot) :
    ((room.snapshots.insert c snapshot).sum fun _ s => snapshotWeight s) + storedWeight room c =
      room.snapshotWeight + snapshotWeight snapshot :=
  sum_insert_add room.snapshots c snapshot fun _ s => snapshotWeight s

theorem missing_add (room : RelayRoom) (c : CodeId) (snapshot : StateSnapshot) :
    (room.snapshots.insert c snapshot).size = room.snapshots.size + missing room c := by
  unfold missing OrdMap.contains
  cases hget : room.snapshots.get? c with
  | none =>
    rw [size_insert_new hget]
    rfl
  | some s =>
    rw [size_insert_of_get? hget]
    rfl

theorem removedCodes_nodup (room : RelayRoom) (next : OrdMap Text Member) :
    (removedCodes room next).Nodup := nodup_dedup _

theorem acceptRoom_tally (w : PendingDelivery → Nat) (clock : AcceptClock)
    (hplan : Accepted b room owner messageId revision plan) :
    tally w (acceptRoom clock room owner plan).deliveries +
        ((removedQueues room plan.next).flatten.map w).sum =
      tally w room.deliveries + (plan.deliveries.map w).sum := by
  have herase := tally_erase w (removedCodes_nodup room plan.next) room.deliveries
  rw [acceptRoom_eq, tally_push, hplan.removed]
  unfold removedQueues
  omega

theorem removed_length (room : RelayRoom) (next : OrdMap Text Member) :
    (removedSnapshots room next).length = removedSnapshotCount room next := by
  unfold removedSnapshots removedSnapshotCount
  induction removedCodes room next with
  | nil => rfl
  | cons c codes ih =>
    rw [filterMap_cons, filter_cons, OrdMap.contains]
    cases room.snapshots.get? c with
    | none => exact ih
    | some snapshot => exact congrArg (· + 1) ih

theorem keptSnapshots_sum (f : StateSnapshot → Nat) {next : OrdMap Text Member} {owner : CodeId}
    (howner : IsMember next owner) (snapshot : StateSnapshot) :
    (((removedCodes room next).foldl OrdMap.erase room.snapshots).insert owner snapshot).sum
        (fun _ s => f s) + ((removedSnapshots room next).map f).sum +
        ((room.snapshots.get? owner).map f).getD 0 =
      room.snapshots.sum (fun _ s => f s) + f snapshot := by
  have herase := sum_foldl_erase room.snapshots (removedCodes_nodup room next) f
  have hinsert := sum_insert_add
    ((removedCodes room next).foldl OrdMap.erase room.snapshots) owner snapshot fun _ s => f s
  rw [foldl_erase_removed (m := room.snapshots) (fun c v hv => .inr ⟨v, hv⟩), if_pos howner]
    at hinsert
  change _ + ((room.snapshots.get? owner).map f).getD 0 = _ at hinsert
  unfold removedSnapshots
  omega

theorem owner_stays (hwell : WellFormed room)
    (hplan : Accepted b room owner messageId revision plan) : IsMember plan.next owner := by
  have hnext := nextMembers_of_resolved hwell (hwell.staging _ hplan.staged) hplan.resolved
  obtain ⟨k, m, -, hm, hcode, -⟩ := (MembersOk.next hwell hnext).owner
  exact ⟨k, m, hm, hcode.trans hplan.owner⟩

theorem acceptedJoins_sum (f : PendingJoin → Nat)
    (hplan : Accepted b room owner messageId revision plan) :
    (acceptedJoins room plan).sum (fun _ j => f j) +
        ((plan.transition.requestId.bind room.joins.get?).map f).getD 0 =
      room.joins.sum fun _ j => f j := by
  have hpending := hplan.pendingJoin
  unfold acceptedJoins
  cases hid : plan.transition.requestId with
  | none => rfl
  | some requestId =>
    rw [hid, Option.bind_some] at hpending
    rw [Option.bind_some]
    cases hget : room.joins.get? requestId with
    | none =>
      rw [hget, Option.map_none] at hpending
      rw [hpending]
      rfl
    | some join =>
      rw [hget, Option.map_some] at hpending
      rw [hpending]
      exact sum_erase_add hget fun _ j => f j

theorem acceptedSnapshots_sum_le (f : StateSnapshot → Nat) (clock : AcceptClock)
    (hwell : WellFormed room) (hplan : Accepted b room owner messageId revision plan) :
    (acceptedSnapshots clock room owner plan).sum (fun _ s => f s) +
        ((removedSnapshots room plan.next).map f).sum +
        ((room.snapshots.get? owner).map f).getD 0 ≤
      room.snapshots.sum (fun _ s => f s) +
        f (ownerSnapshot room owner plan.transition clock.storedAt) +
        (plan.pendingJoin.map fun join =>
          f (joinSnapshot room join.1 join.2 clock.joinedAt)).getD 0 := by
  have hkept := @keptSnapshots_sum room f _ _ (owner_stays hwell hplan)
    (ownerSnapshot room owner plan.transition clock.storedAt)
  unfold acceptedSnapshots
  rw [hplan.removed]
  dsimp only
  split
  · rename_i c envelope _ hjoin
    have hinsert := sum_insert_add
      (((removedCodes room plan.next).foldl OrdMap.erase room.snapshots).insert owner
        (ownerSnapshot room owner plan.transition clock.storedAt)) c
      (joinSnapshot room c envelope clock.joinedAt) fun _ s => f s
    rw [hjoin, Option.map_some, Option.getD_some]
    dsimp only
    omega
  · omega

theorem acceptedSnapshots_size (clock : AcceptClock) (hwell : WellFormed room)
    (hplan : Accepted b room owner messageId revision plan) :
    (acceptedSnapshots clock room owner plan).size + removedSnapshotCount room plan.next ≤
      room.snapshots.size + missing room owner +
        ((plan.transition.requestId.bind room.joins.get?).map fun _ => 1).getD 0 := by
  have hsizes := acceptedSnapshots_sum_le (fun _ => 1) clock hwell hplan
  have hremoved : ((removedSnapshots room plan.next).map fun _ => 1).sum =
      removedSnapshotCount room plan.next := by
    rw [← removed_length]
    simp
  have hmissing : ((room.snapshots.get? owner).map fun _ => 1).getD 0 + missing room owner = 1 := by
    unfold missing OrdMap.contains
    cases room.snapshots.get? owner <;> rfl
  have hjoined : (plan.pendingJoin.map fun _ => 1).getD 0 =
      ((plan.transition.requestId.bind room.joins.get?).map fun _ => 1).getD 0 := by
    rw [hplan.pendingJoin, Option.map_map]
    rfl
  rw [hremoved, ← size_eq_sum, ← size_eq_sum] at hsizes
  omega

end

end Abyssal.Rooms
