import Abyssal.Rooms.Budgets
import Abyssal.Rooms.Epochs

/-! Calls about one room leave every other room to maintenance. -/

namespace Abyssal.Rooms

open OrdMap RelayRoom RoomAuthority Scenario

/-- The call is not about this room; a wipe is about all rooms. -/
def Op.spares (id : Text) : Op → Prop
  | .create _ _ { roomId, .. } | .requestJoin _ { roomId, .. } | .beginMembership _ _ { roomId, .. }
  | .admitApplication _ { roomId, .. } | .storeSnapshot _ { roomId, .. }
  | .removeJoin _ _ roomId _ | .requestLeave _ _ roomId _ | .removeLeave _ _ roomId _
  | .acceptMembership _ _ roomId _ _ | .rollbackMembership _ _ roomId _ _
  | .commitApplication _ roomId _ | .rollbackApplication roomId _ | .delete _ _ roomId
  | .deliveriesForMember _ roomId _ | .memberInfo _ roomId _ | .memberCodeIds _ roomId => roomId ≠ id
  | .prune _ => True
  | .wipe => False

variable {id : Text} {room : RelayRoom}

theorem RoomAuthority.Step.spared {σ : HashOrder} {b s' : RoomAuthority} {op : Op}
    {result : Except String Reply} (h : Step σ b op s' result)
    (hroom : b.rooms.get? id = some room) (hop : op.spares id) :
    ∃ room', s'.rooms.get? id = some room' ∧ TidyStar room room' := by
  have hkept : ∀ {roomId : Text} {new : RelayRoom}, roomId ≠ id →
      (b.rooms.insert roomId new).get? id = some room := fun hne =>
    (get?_insert_of_ne _ _ hne).trans hroom
  have hevicted : ∀ {o : Option RelayRoom}, Option.Rel Evicted (some room) o →
      ∃ room', o = some room' ∧ TidyStar room room' := fun hrel =>
    (rel_some_left hrel).imp fun _ h => ⟨h.1, .single (.trim h.2.trim)⟩
  cases h with
  | failed | replied => exact ⟨room, hroom, .refl⟩
  | unjoined _ _ hcount =>
    rw [recomputeStateAccounting_rooms hcount]
    exact ⟨room, hkept hop, .refl⟩
  | stored _ _ _ hcount =>
    rw [recomputeGapAccounting_rooms hcount]
    exact ⟨room, hkept hop, .refl⟩
  -- an acceptance and a commit may evict the oldest replay ids of any room
  | accepted _ _ hsettle =>
    have hrel := hsettle ▸ settleAcceptance_rooms σ _ _ id
    rw [hkept hop] at hrel
    exact hevicted hrel
  | committed _ _ htrim =>
    have hrel := htrim ▸ trimReplayIds_rooms σ _ id
    rw [hkept hop] at hrel
    exact hevicted hrel
  | deleted => exact ⟨room, (get?_erase_of_ne _ hop).trans hroom, .refl⟩
  | wiped => exact hop.elim
  | _ => exact ⟨room, hkept hop, .refl⟩

/-- Whatever is called about other rooms, a room keeps its group, its owner and its members; its
queues are thinned, and no leave or pending application is added. -/
theorem other_rooms_kept (maxRooms pendingTtlMs : Nat) (before later : List Call)
    (hroom : (after maxRooms pendingTtlMs before).rooms.get? id = some room)
    (hspares : ∀ c ∈ later, c.2.spares id) :
    ∃ room', (after maxRooms pendingTtlMs (before ++ later)).rooms.get? id = some room' ∧
      TidyFrame room room' ∧ Lighter room room' := by
  suffices h : ∃ room', (after maxRooms pendingTtlMs (before ++ later)).rooms.get? id = some room' ∧
      TidyStar room room' from h.imp fun _ h => ⟨h.1, h.2.frame, h.2.lighter⟩
  induction later using List.reverseRecOn with
  | nil => exact ⟨room, by rwa [List.append_nil], .refl⟩
  | append_singleton later c ih =>
    obtain ⟨room₁, hroom₁, hstar⟩ := ih fun c hc => hspares c (List.mem_append_left _ hc)
    obtain ⟨mid, hmid, hpruned⟩ := @base_some c.1 _ _ _ c.2 hroom₁
    obtain ⟨room', hroom', htidy⟩ := (exec_step c.1 _ c.2).spared hmid (hspares c (by simp))
    rw [← List.append_assoc, after_append]
    exact ⟨room', hroom', (hstar.trans hpruned).trans htidy⟩

theorem other_rooms_kept_asked : ∃ room room',
    (after 2 600000 (calls [create])).rooms.get? lobby = some room ∧
    (after 2 600000 (calls [create] ++ calls (asked 1))).rooms.get? lobby = some room' ∧
    TidyFrame room room' := by
  obtain ⟨room, hroom⟩ := Option.isSome_iff_exists.mp
    (show ((after 2 600000 (calls [create])).rooms.get? lobby).isSome = true by decide)
  obtain ⟨room', hroom', hframe, -⟩ := other_rooms_kept 2 600000 _ (calls (asked 1)) hroom
    (by simp [calls, asked, Op.spares, createAs, askToJoin, roomName, lobby])
  exact ⟨room, room', hroom, hroom', hframe⟩

end Abyssal.Rooms
