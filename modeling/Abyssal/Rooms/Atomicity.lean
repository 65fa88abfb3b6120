import Abyssal.Rooms.Totals

/-! A call that fails changes nothing but what it has pruned. The steps that come after the
first change of a long operation, the eviction of replay entries, the counts and the
renumbering, cannot fail, except for a rollback that meets the largest revision. -/

namespace Abyssal.Rooms

open RelayRoom RoomAuthority

variable {room : RelayRoom}

/-- A member revision or the revision of a queued delivery is the largest word. -/
def RevisionsExhausted (room : RelayRoom) : Prop :=
  wordMax ∈ room.memberRevisions.values ∨
    ∃ queue ∈ room.deliveries.values, wordMax ∈ revisions queue

instance (room : RelayRoom) : Decidable (RevisionsExhausted room) :=
  inferInstanceAs (Decidable (_ ∨ _))

theorem recount_unjoined {b : RoomAuthority} (h : Regular b) (hexact : AllRooms Exact b)
    {roomId requestId : Text} (hroom : b.rooms.get? roomId = some room) :
    ∃ s', recomputeStateAccounting { b with
      rooms := b.rooms.insert roomId { room with joins := room.joins.erase requestId } } =
        .ok s' := by
  have hsized : Sized { room with joins := room.joins.erase requestId } := by
    refine (h.sized roomId room hroom).shrink (.of_deliveries rfl) (fun _ _ hp => hp)
      (fun _ _ hj => OrdMap.get?_of_erase hj) ?_ ?_
    · exact (h.sized roomId room hroom).snapshotCount
    · exact (h.sized roomId room hroom).snapshots
  have hbytes : AllRooms (fun r => r.snapshotBytes = r.snapshotWeight) b :=
    fun id r hr => (hexact id r hr).snapshotBytes
  have hnew : { room with joins := room.joins.erase requestId }.snapshotBytes =
      { room with joins := room.joins.erase requestId }.snapshotWeight := hbytes roomId room hroom
  exact ⟨_, recomputeStateAccounting_ok
    (h.capacity.insert hroom (by exact Nat.le_refl _)
      (by exact h.capacity.replay roomId room hroom) rfl)
    (h.sized.insert hsized rfl)
    (hbytes.insert hnew rfl)⟩

theorem Regular.capacity_effect {b : RoomAuthority} (h : Regular b) {op : Op} {id : Text}
    {room' : RelayRoom} (hroom : b.rooms.get? id = some room) (he : Effect b op id room room')
    {s' : RoomAuthority} (hs' : s'.rooms = b.rooms.insert id room') : Capacity s' := by
  obtain ⟨hgaps, hreplay⟩ := he.limits (h.capacity.replay id room hroom)
  exact h.capacity.insert hroom hgaps hreplay hs'

/-- A queue that a rollback cannot renumber has met the largest revision: that of an active
member ascends to it, and that of a joining one is far too short. -/
theorem exhausted_of_full (hwell : WellFormed room) (hrising : Throughout Rising room)
    (hsized : Sized room) {messageId : Text} {c : CodeId}
    (hfull : wordMax < room.revisionOf c + 1 + (withoutMessage messageId (room.queueOf c)).length)
    (hqueue : ∃ queue, room.deliveries.get? c = some queue) : RevisionsExhausted room := by
  obtain ⟨queue, hqueue⟩ := hqueue
  obtain ⟨k, m, hm, rfl⟩ := hwell.tables.queued c queue hqueue
  have hget : room.queueOf m.codeId = queue := by rw [queueOf, hqueue, Option.getD_some]
  have hrise := hrising k m hm
  have hsub : (withoutMessage messageId (room.queueOf m.codeId)).Sublist (room.queueOf m.codeId) :=
    List.filter_sublist
  cases hactive : m.active with
  | true =>
    rw [hactive] at hrise
    rcases hrise.full hsub hfull with hrevision | hnumber
    · obtain ⟨r, hr⟩ := (hwell.tables.revised m.codeId).mpr ⟨k, m, hm, rfl⟩
      rw [revisionOf, hr, Option.getD_some] at hrevision
      exact .inl (OrdMap.mem_values.mpr ⟨m.codeId, hrevision ▸ hr⟩)
    · rw [hget] at hnumber
      exact .inr ⟨queue, OrdMap.mem_values.mpr ⟨m.codeId, hqueue⟩, hnumber⟩
  | false =>
    have hzero := hrise.fresh hactive
    have hcount := (OrdMap.le_sum_of_get? hqueue fun _ q => q.length).trans hsized.deliveryCount
    have hlength := hsub.length_le
    have hlimit : 1 + maxDeliveriesPerRoom ≤ wordMax := by decide
    rw [hget] at hlength
    rw [hget, hzero] at hfull
    omega

theorem failed_call_only_prunes (maxRooms pendingTtlMs : Nat) (calls : List Call) (σ : HashOrder)
    (op : Op) (reason : String)
    (h : (exec σ (after maxRooms pendingTtlMs calls) op).2 = .error reason) :
    (exec σ (after maxRooms pendingTtlMs calls) op).1 =
        op.base σ (after maxRooms pendingTtlMs calls) ∨
      ∃ roomId messageId room, op = .rollbackApplication roomId messageId ∧
        (after maxRooms pendingTtlMs calls).rooms.get? roomId = some room ∧
        RevisionsExhausted room := by
  have hregular := regular_after maxRooms pendingTtlMs calls
  generalize after maxRooms pendingTtlMs calls = s at *
  have hbase := hregular.base σ op
  have hstep := exec_step σ s op
  rw [h] at hstep
  generalize (exec σ s op).1 = s' at hstep ⊢
  generalize hresult : (Except.error reason : Except String Reply) = result at hstep
  cases hstep with
  | failed => exact .inl rfl
  | @unjoinedLate now owner roomId requestId room join reason hroom _ hcount =>
    obtain ⟨s', hok⟩ := recount_unjoined hbase (hregular.balanced_prune σ now).rooms hroom
    have hne := hcount.symm.trans hok
    cases hne
  | accepted hroom hplan hsettle =>
    -- The acceptance itself keeps the limits, so that nothing after it can fail.
    have hok := Capacity.settled
      (hbase.capacity_effect hroom (.accepted hplan (.refl _)) (by rfl)) hsettle
    rw [hok] at hresult
    cases hresult
  | committed hroom hplan htrim =>
    have hok := Capacity.trimmed
      (hbase.capacity_effect hroom (.committed hplan (.refl _)) (by rfl)) htrim
    rw [hok.2] at hresult
    cases hresult
  | @abandoned roomId messageId plan room c _ selected hroom hplan hfull hqueue =>
    refine .inr ⟨roomId, messageId, room, rfl, hroom, ?_⟩
    exact exhausted_of_full (hregular.wellFormed roomId room hroom)
      (hregular.rising roomId room hroom) (hregular.sized roomId room hroom) hfull hqueue
  | storedLate hroom hvalid hplan hcount =>
    have hne := hcount.symm.trans (recomputeGapAccounting_ok
      (hbase.capacity_effect hroom (.stored hvalid hplan) (by rfl)).gaps)
    cases hne
  | _ => cases hresult

open Scenario in
theorem failed_call_only_prunes_skippedRevision : ∃ reason,
    (exec .byKey (after 1 600000 (calls bobJoins)) (send 2 1 [50] 1 7)).2 = .error reason ∧
    ((exec .byKey (after 1 600000 (calls bobJoins)) (send 2 1 [50] 1 7)).1 =
        (send 2 1 [50] 1 7).base .byKey (after 1 600000 (calls bobJoins)) ∨
      ∃ roomId messageId room, send 2 1 [50] 1 7 = .rollbackApplication roomId messageId ∧
        (after 1 600000 (calls bobJoins)).rooms.get? roomId = some room ∧
        RevisionsExhausted room) := by
  have hfails : (exec .byKey (after 1 600000 (calls bobJoins))
      (send 2 1 [50] 1 7)).2.toOption.isNone = true := by
    set_option maxRecDepth 100000 in
    decide
  obtain ⟨reason, hreason⟩ := exists_error hfails
  exact ⟨reason, hreason, failed_call_only_prunes 1 600000 _ .byKey _ reason hreason⟩

end Abyssal.Rooms
