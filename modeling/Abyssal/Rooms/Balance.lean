import Abyssal.Rooms.Atomicity
import Abyssal.Rooms.Integrity

/-! The counters of the authority over whole runs: what each operation adds to them and
subtracts from them is what it adds to the tables and takes out of them. -/

namespace Abyssal.Rooms

open RelayRoom RoomAuthority OrdMap

variable {createdAt : Nat} {plan : CreatePlan}

section

variable {b : RoomAuthority} {room : RelayRoom}

theorem Exact.admitted (h : Exact room) {now : Nat} {a : AdmitArgs} {plan : AdmitPlan}
    (hplan : Admitted b now room a plan) : Exact (admitRoom room a plan) := by
  have hdeliveries := @admitRoom_tally room deliveryWeight a plan
  have hsnapshots := storedWeight_add room a.senderCodeId plan.snapshot
  have hpending := sum_insert_new hplan.noPending plan.pending fun _ p => pendingWeight p
  refine ⟨?_, ?_, ?_⟩
  · rw [RelayRoom.pendingWeight]
    refine Eq.trans ?_ hpending.symm
    exact hplan.pendingBytes.trans (congrArg (· + pendingWeight plan.pending) h.pendingBytes)
  · have hbytes := hplan.snapshotBytes
    have hexact := h.snapshotBytes
    change plan.roomSnapshotBytes = (room.snapshots.insert a.senderCodeId plan.snapshot).sum _
    omega
  · have hbytes := hplan.deliveryBytes
    rw [deliveryWeight_eq, hdeliveries]
    exact hbytes.trans (congrArg (· + queueWeight plan.deliveries) h.deliveryBytes)

theorem Exact.created {a : CreateArgs} (hplan : Created b createdAt a plan) :
    Exact plan.room := by
  obtain ⟨name, bytes, -, hbytes, hroom, -⟩ := hplan.roomEq
  rw [hroom, hbytes]
  exact ⟨rfl, rfl, rfl⟩

theorem restored_snapshots (hwell : WellFormed room) {messageId : Text} {plan : RollbackPlan}
    (hplan : Retracting b room messageId plan) :
    ∃ previous current, plan.pending.previousSnapshot = some previous ∧
      room.snapshots.get? plan.pending.senderCodeId = some current ∧
      (rolledBackRoom room messageId plan).snapshots =
        room.snapshots.insert plan.pending.senderCodeId previous := by
  have hpending := hwell.pending messageId plan.pending hplan.pendingGet
  obtain ⟨previous, hprevious, -⟩ := hpending.snapshot
  obtain ⟨k, sender, hsender, hcode, -⟩ := hpending.active
  obtain ⟨current, hcurrent, -⟩ :=
    hwell.tables.stored plan.pending.senderCodeId ⟨k, sender, hsender, hcode⟩
  refine ⟨previous, current, hprevious, hcurrent, ?_⟩
  simp only [rolledBackRoom, rollbackRoom, restoreSender, hprevious]
  rfl

end

namespace AuthorityAccounting

theorem plus_right_cancel {a b c : AuthorityAccounting} (h : a.plus c = b.plus c) : a = b := by
  cases a
  cases b
  simp only [plus, AuthorityAccounting.mk.injEq, Nat.add_right_cancel_iff] at h
  simp only [AuthorityAccounting.mk.injEq]
  exact h

end AuthorityAccounting

theorem totals_insert {s s' : RoomAuthority} {id : Text} {room room' : RelayRoom}
    (hroom : s.rooms.get? id = some room) (hs' : s'.rooms = s.rooms.insert id room') :
    s'.totals.plus room.totals = s.totals.plus room'.totals := by
  have hsum : ∀ f : RelayRoom → Nat, (s'.rooms.values.map f).sum + f room =
      (s.rooms.values.map f).sum + f room' := by
    intro f
    have hinsert := sum_insert_add s.rooms id room' fun _ r => f r
    rw [hroom, Option.map_some, Option.getD_some] at hinsert
    rw [sum_values, sum_values, hs']
    exact hinsert
  simp only [RoomAuthority.totals, totalOf, AuthorityAccounting.plus, AuthorityAccounting.mk.injEq]
  exact ⟨hsum _, hsum _, hsum _, hsum _, hsum _, hsum _, hsum _, hsum _⟩

theorem totals_created {s s' : RoomAuthority} {id : Text} {room : RelayRoom}
    (hnone : s.rooms.get? id = none) (hs' : s'.rooms = s.rooms.insert id room) :
    s'.totals = s.totals.plus room.totals := by
  have hsum : ∀ f : RelayRoom → Nat, (s'.rooms.values.map f).sum =
      (s.rooms.values.map f).sum + f room := by
    intro f
    rw [sum_values, sum_values, hs']
    exact sum_insert_new hnone room fun _ r => f r
  simp only [RoomAuthority.totals, totalOf, AuthorityAccounting.plus, AuthorityAccounting.mk.injEq]
  exact ⟨hsum _, hsum _, hsum _, hsum _, hsum _, hsum _, hsum _, hsum _⟩

section

variable {b s' : RoomAuthority} {id : Text} {room room' : RelayRoom}

theorem Balanced.insert (h : Balanced b) (hroom : b.rooms.get? id = some room)
    (hs' : s'.rooms = b.rooms.insert id room') (hexact : Exact room')
    (hcounters : s'.counters.plus room.totals = b.counters.plus room'.totals) : Balanced s' := by
  refine ⟨h.rooms.insert hexact hs', ?_⟩
  apply AuthorityAccounting.plus_right_cancel
  show s'.counters.plus room.totals = s'.totals.plus room.totals
  rw [hcounters, h.counters, totals_insert hroom hs']

theorem Balanced.joined (h : Balanced b) {now : Nat} {a : JoinArgs} {plan : JoinPlan}
    (hroom : b.rooms.get? a.roomId = some room) (hplan : NewJoin b now a room plan) :
    Balanced { b with
      rooms := b.rooms.insert a.roomId plan.room
      globalSnapshotCount := plan.globalStateCount
      globalSnapshotBytes := plan.globalStateBytes } := by
  have hold := h.rooms a.roomId room hroom
  have hsize := size_insert_new hplan.noJoin ⟨plan.request, a.stateEnvelope⟩
  have hweight := sum_insert_new hplan.noJoin ⟨plan.request, a.stateEnvelope⟩
    fun _ join => join.stateEnvelope.length
  have hcount := hplan.stateCount
  have hbytes := hplan.stateBytes
  refine h.insert hroom rfl ?_ ?_
  · rw [hplan.roomEq]
    exact ⟨hold.pendingBytes, hold.snapshotBytes, hold.deliveryBytes⟩
  · rw [hplan.roomEq]
    simp only [RoomAuthority.counters, RelayRoom.totals, AuthorityAccounting.plus,
      RelayRoom.joinWeight, AuthorityAccounting.mk.injEq, hsize, hweight, hcount, hbytes]
    exact ⟨rfl, trivial, by omega, by omega, trivial, rfl, rfl, trivial⟩

theorem Balanced.created (h : Balanced b) {a : CreateArgs} (hplan : Created b createdAt a plan) :
    Balanced { b with
      rooms := b.rooms.insert a.roomId plan.room
      globalSnapshotCount := plan.globalSnapshotCount
      globalSnapshotBytes := plan.globalSnapshotBytes } := by
  have hexact := Exact.created hplan
  have hcount := hplan.globalSnapshotCount
  have hcounters := h.counters
  refine ⟨h.rooms.insert hexact rfl, ?_⟩
  rw [totals_created hplan.absent rfl, ← hcounters]
  obtain ⟨name, bytes, -, -, hroom, htotal⟩ := hplan.roomEq
  simp only [RoomAuthority.counters, AuthorityAccounting.plus, AuthorityAccounting.mk.injEq, hcount,
    htotal, hroom]
  exact ⟨rfl, rfl, rfl, rfl, rfl, rfl, rfl, rfl⟩

def Keyed (s : RoomAuthority) : Prop :=
  ∀ id room, s.rooms.get? id = some room → room.roomId = id

theorem Keyed.base {s : RoomAuthority} (h : Keyed s) (σ : HashOrder) (op : Op) :
    Keyed (op.base σ s) := by
  intro id mid hmid
  obtain ⟨room, hroom, hpruned⟩ := base_room hmid
  exact hpruned.tidy.frame.same.roomId.trans (h id room hroom)

theorem Keyed.step (h : Keyed b) (hwell : AllRooms WellFormed b) {σ : HashOrder} {op : Op}
    {result : Except String Reply} (hstep : Step σ b op s' result) : Keyed s' := by
  intro id room' hroom'
  rcases hstep.effect hroom' with ⟨room, hroom, he⟩ | ⟨_, createdAt, a, plan, -, hid, hplan, rfl⟩
  · exact (he.sameRoom (hwell id room hroom)).roomId.trans (h id room hroom)
  · obtain ⟨name, bytes, -, -, hplanRoom, -⟩ := hplan.roomEq
    rw [hplanRoom]
    exact hid

theorem deleted_counters (hkeyed : Keyed b) {roomId : Text} {totals : AuthorityAccounting}
    (hcount : b.checkedAccountingExcluding (some roomId) = .ok totals) :
    totals = RoomAuthority.totals { b with rooms := b.rooms.erase roomId } := by
  obtain ⟨-, rfl⟩ := checkedAccountingExcluding_eq_ok.mp hcount
  have hrest : (b.rooms.values.filter fun room => some roomId ≠ some room.roomId) =
      (b.rooms.erase roomId).values := by
    refine values_filter fun id room hroom => ?_
    rw [hkeyed id room hroom]
    simp [eq_comm]
  rw [hrest]
  rfl

end

end Abyssal.Rooms
