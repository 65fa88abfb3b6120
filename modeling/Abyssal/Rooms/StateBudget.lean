import Abyssal.Rooms.Contiguity
import Abyssal.Rooms.Quiet

/-! The limits on stored state over every run. Storing, admitting, accepting and joining check
them; opening a room and undoing an application do not. -/

namespace Abyssal.Rooms

open RelayRoom RoomAuthority OrdMap List Option

variable {σ : HashOrder} {now ttl : Nat}

section

variable {room room' : RelayRoom} {p : PendingApplication} {m : Text}

def undoneWeight (room : RelayRoom) (ids : List Text) (weigh : PendingApplication → Nat) : Nat :=
  room.pendingApplications.sum fun m p => if m ∈ ids then weigh p else 0

def restoredBytes (room : RelayRoom) (ids : List Text) : Nat :=
  undoneWeight room ids fun p => (p.previousSnapshot.map snapshotWeight).getD 0

def replacedBytes (room : RelayRoom) (ids : List Text) : Nat :=
  undoneWeight room ids fun p => storedWeight room p.senderCodeId

/-- With the snapshots before these applications put back, the room is within its limit. -/
def LightToUndo (room : RelayRoom) (ids : List Text) : Prop :=
  room.snapshotBytes + restoredBytes room ids ≤ maxStateBytes + replacedBytes room ids

instance (room : RelayRoom) (ids : List Text) : Decidable (LightToUndo room ids) :=
  inferInstanceAs (Decidable (_ ≤ _))

variable {ids : List Text} {weigh : PendingApplication → Nat}

theorem undoneWeight_nil (room : RelayRoom) : undoneWeight room [] weigh = 0 :=
  sum_eq_zero fun _ _ _ => rfl

theorem undoneWeight_absent (hm : room.pendingApplications.get? m = none) :
    undoneWeight room (m :: ids) weigh = undoneWeight room ids weigh := by
  refine sum_congr fun m' p' hp' => ?_
  have hne : m' ≠ m := by
    rintro rfl
    rw [hm] at hp'
    cases hp'
  simp only [mem_cons, hne, false_or]

theorem undoneWeight_cons (hp : room.pendingApplications.get? m = some p) :
    undoneWeight room (m :: ids) weigh = undoneWeight (room.undone m p) ids weigh + weigh p := by
  have hrest : undoneWeight (room.undone m p) (m :: ids) weigh =
      undoneWeight (room.undone m p) ids weigh := undoneWeight_absent (get?_erase_self ..)
  have hsum := sum_erase_add hp fun m' p' => if m' ∈ m :: ids then weigh p' else 0
  rw [if_pos (mem_cons_self ..)] at hsum
  rw [← hrest]
  exact hsum.symm

/-- The room with these applications undone, as far as its snapshots go. -/
structure Reweighed (room : RelayRoom) (ids : List Text) (room' : RelayRoom) : Prop where
  weight : room'.snapshotWeight + replacedBytes room ids =
    room.snapshotWeight + restoredBytes room ids
  size : room'.snapshots.size = room.snapshots.size

theorem Reweighed.congr (h : Reweighed room ids room') {room'' : RelayRoom}
    (heq : room''.snapshots = room'.snapshots) : Reweighed room ids room'' := by
  refine ⟨?_, heq ▸ h.size⟩
  rw [RelayRoom.snapshotWeight, heq]
  exact h.weight

theorem undone_snapshots (hwell : WellFormed room) (hp : room.pendingApplications.get? m = some p) :
    ∃ previous current,
      p.previousSnapshot = some previous ∧ room.snapshots.get? p.senderCodeId = some current ∧
      (room.undone m p).snapshots = room.snapshots.insert p.senderCodeId previous := by
  have hfor := hwell.pending m p hp
  obtain ⟨previous, hprevious, -⟩ := hfor.snapshot
  obtain ⟨k, sender, hsender, hcode, -⟩ := hfor.active
  obtain ⟨current, hcurrent, -⟩ := hwell.tables.stored p.senderCodeId ⟨k, sender, hsender, hcode⟩
  refine ⟨previous, current, hprevious, hcurrent, ?_⟩
  simp only [undone, restoreSender, hprevious]

theorem undone_weight (hwell : WellFormed room) (hp : room.pendingApplications.get? m = some p) :
    (room.undone m p).snapshotWeight + storedWeight room p.senderCodeId =
        room.snapshotWeight + (p.previousSnapshot.map snapshotWeight).getD 0 ∧
      (room.undone m p).snapshots.size = room.snapshots.size := by
  obtain ⟨previous, current, hprevious, hcurrent, hsnapshots⟩ := undone_snapshots hwell hp
  rw [RelayRoom.snapshotWeight, hsnapshots, hprevious]
  exact ⟨storedWeight_add room p.senderCodeId previous, size_insert_of_get? hcurrent⟩

-- A sender has one pending application, so undoing it replaces no snapshot the others look at.
theorem replacedBytes_undone (hwell : WellFormed room)
    (hp : room.pendingApplications.get? m = some p) : replacedBytes (room.undone m p) ids =
      undoneWeight (room.undone m p) ids fun p' => storedWeight room p'.senderCodeId := by
  obtain ⟨previous, current, -, -, hsnapshots⟩ := undone_snapshots hwell hp
  unfold replacedBytes undoneWeight
  refine sum_congr fun m' p' hget => ?_
  have hget : (room.pendingApplications.erase m).get? m' = some p' := hget
  rw [get?_erase] at hget
  split_ifs at hget with hne
  have hsender : p.senderCodeId ≠ p'.senderCodeId := fun heq =>
    hne (hwell.senders m p m' p' hp hget heq)
  simp only [storedWeight, hsnapshots, get?_insert_of_ne _ _ hsender]

theorem Reweighed.undone (hwell : WellFormed room) (hp : room.pendingApplications.get? m = some p)
    (h : Reweighed (room.undone m p) ids room') : Reweighed room (m :: ids) room' := by
  obtain ⟨hundone, hsame⟩ := undone_weight hwell hp
  have hweight := h.weight
  rw [replacedBytes_undone hwell hp, restoredBytes] at hweight
  refine ⟨?_, h.size.trans hsame⟩
  rw [replacedBytes, restoredBytes, undoneWeight_cons hp, undoneWeight_cons hp]
  omega

theorem Reweighed.expired (σ : HashOrder) (hwell : WellFormed room) (ids : List Text) :
    Reweighed room ids (ids.foldl (expireApplication σ) room) := by
  induction ids generalizing room with
  | nil => exact ⟨by rw [replacedBytes, restoredBytes, undoneWeight_nil, undoneWeight_nil]; rfl, rfl⟩
  | cons m ids ih =>
    rw [foldl_cons]
    cases hp : room.pendingApplications.get? m with
    | none =>
      have hsame : expireApplication σ room m = room := by simp only [expireApplication, hp]
      obtain ⟨hweight, hsize⟩ := ih hwell
      rw [hsame]
      refine ⟨?_, hsize⟩
      rw [replacedBytes, restoredBytes, undoneWeight_absent hp, undoneWeight_absent hp]
      exact hweight
    | some p =>
      obtain ⟨bytes, hroom⟩ := expireApplication_eq σ hp
      have hwell' := (hwell.tidy (.undo m p hp)).tidy
        (.trim (.recount (room.undone m p).pendingBytes (room.undone m p).snapshotBytes bytes))
      have hrest := ih hwell'
      rw [hroom]
      exact .undone hwell hp ⟨hrest.weight, hrest.size⟩

theorem Reweighed.trimmed {mid : RelayRoom} (h : Reweighed room ids mid) (htrim : TrimStar mid room') :
    Reweighed room ids room' := by
  induction htrim with
  | refl => exact h
  | tail _ hstep ih =>
    refine ih.congr ?_
    cases hstep <;> rfl

theorem Reweighed.pruned (hwell : WellFormed room) (hpruned : PrunedTo σ now ttl room room') :
    Reweighed room (room.expiredApplications now) room' := by
  have hwell' := hwell.tidyStar (pruneRequests_tidy room now)
  have hids : ∀ weigh, undoneWeight room (σ.ids room.roomId (room.expiredApplications now)) weigh =
      undoneWeight room (room.expiredApplications now) weigh := by
    intro weigh
    simp only [undoneWeight, (σ.ids_perm _ _).mem_iff]
  obtain ⟨hweight, hsize⟩ := (Reweighed.expired σ hwell'
    (σ.ids room.roomId (room.expiredApplications now))).trimmed hpruned.trim
  refine ⟨?_, hsize⟩
  rw [replacedBytes, restoredBytes, ← hids, ← hids]
  exact hweight

end

structure CoveredRoom (room : RelayRoom) : Prop where
  weight : room.snapshotWeight ≤ room.snapshotBytes
  limit : room.snapshotBytes ≤ maxStateBytes

structure Covered (s : RoomAuthority) : Prop where
  rooms : AllRooms CoveredRoom s
  bytes : s.totals.snapshotBytes ≤ s.globalSnapshotBytes
  bytesLimit : s.globalSnapshotBytes ≤ maxGlobalStateBytes
  count : s.totals.snapshotCount ≤ s.globalSnapshotCount
  countLimit : s.globalSnapshotCount ≤ maxGlobalStateSnapshots

/-- The snapshot before the application fits into its room and among all rooms. -/
structure Restorable (s : RoomAuthority) (room : RelayRoom) (p : PendingApplication) : Prop where
  roomBytes : room.snapshotBytes + (p.previousSnapshot.map snapshotWeight).getD 0 ≤
    maxStateBytes + storedWeight room p.senderCodeId
  bytes : s.globalSnapshotBytes + (p.previousSnapshot.map snapshotWeight).getD 0 ≤
    maxGlobalStateBytes + storedWeight room p.senderCodeId

section

variable {b s' : RoomAuthority} {id : Text} {room room' : RelayRoom} {s : RoomAuthority}
  {roomId : Text}

section

variable (h : Covered b)

include h

theorem Covered.insert (hroom : b.rooms.get? id = some room)
    (hs' : s'.rooms = b.rooms.insert id room') (hcovered : CoveredRoom room')
    (hbytes : room'.totals.snapshotBytes + b.globalSnapshotBytes ≤
      room.totals.snapshotBytes + s'.globalSnapshotBytes)
    (hbytesLimit : s'.globalSnapshotBytes ≤ maxGlobalStateBytes)
    (hcount : room'.totals.snapshotCount + b.globalSnapshotCount ≤
      room.totals.snapshotCount + s'.globalSnapshotCount)
    (hcountLimit : s'.globalSnapshotCount ≤ maxGlobalStateSnapshots) : Covered s' := by
  have hmoved := totals_insert hroom hs'
  simp only [AuthorityAccounting.plus, AuthorityAccounting.mk.injEq] at hmoved
  obtain ⟨-, -, hmovedBytes, hmovedCount, -⟩ := hmoved
  have hold := h.bytes
  have holdCount := h.count
  exact ⟨h.rooms.insert hcovered hs', by omega, hbytesLimit, by omega, hcountLimit⟩

theorem Covered.unstored (hroom : b.rooms.get? id = some room)
    (hs' : s'.rooms = b.rooms.insert id room') (hsnapshots : room'.snapshots = room.snapshots)
    (hsnapshotBytes : room'.snapshotBytes = room.snapshotBytes) (hjoins : room'.joins = room.joins)
    (hbytes : s'.globalSnapshotBytes = b.globalSnapshotBytes)
    (hcount : s'.globalSnapshotCount = b.globalSnapshotCount) : Covered s' := by
  have hold := h.rooms id room hroom
  have htotals : room'.totals.snapshotBytes = room.totals.snapshotBytes ∧
      room'.totals.snapshotCount = room.totals.snapshotCount := by
    simp only [RelayRoom.totals, RelayRoom.joinWeight, hsnapshots, hsnapshotBytes, hjoins, and_self]
  refine h.insert hroom hs' ⟨?_, ?_⟩ ?_ ?_ ?_ ?_
  · rw [RelayRoom.snapshotWeight, hsnapshots, hsnapshotBytes]
    exact hold.weight
  · exact hsnapshotBytes.trans_le hold.limit
  · rw [htotals.1, hbytes]
  · exact hbytes.trans_le h.bytesLimit
  · rw [htotals.2, hcount]
  · exact hcount.trans_le h.countLimit

theorem Covered.joined {a : JoinArgs} {plan : JoinPlan}
    (hroom : b.rooms.get? a.roomId = some room) (hplan : NewJoin b now a room plan) :
    Covered { b with
      rooms := b.rooms.insert a.roomId plan.room
      globalSnapshotCount := plan.globalStateCount
      globalSnapshotBytes := plan.globalStateBytes } := by
  have hold := h.rooms a.roomId room hroom
  have hsize := size_insert_new hplan.noJoin ⟨plan.request, a.stateEnvelope⟩
  have hweight := sum_insert_new hplan.noJoin ⟨plan.request, a.stateEnvelope⟩
    fun _ join => join.stateEnvelope.length
  have hcount := hplan.stateCount
  have hbytes := hplan.stateBytes
  refine h.insert hroom rfl ?_ ?_ hplan.globalBytesLimit ?_ hplan.globalCountLimit
  · rw [hplan.roomEq]
    exact ⟨hold.weight, hold.limit⟩
  · rw [hplan.roomEq]
    simp only [RelayRoom.totals, RelayRoom.joinWeight]
    dsimp only at hweight
    omega
  · rw [hplan.roomEq]
    simp only [RelayRoom.totals]
    omega

theorem Covered.replaced (hroom : b.rooms.get? id = some room)
    (hs' : s'.rooms = b.rooms.insert id room') {c : CodeId} {snapshot : StateSnapshot}
    (hsnapshots : room'.snapshots = room.snapshots.insert c snapshot)
    (hjoins : room'.joins = room.joins)
    (hroomBytes : room'.snapshotBytes + storedWeight room c =
      room.snapshotBytes + snapshotWeight snapshot)
    (hroomLimit : room'.snapshotBytes ≤ maxStateBytes)
    (hbytes : s'.globalSnapshotBytes + storedWeight room c =
      b.globalSnapshotBytes + snapshotWeight snapshot)
    (hbytesLimit : s'.globalSnapshotBytes ≤ maxGlobalStateBytes)
    (hcount : s'.globalSnapshotCount = b.globalSnapshotCount + missing room c)
    (hcountLimit : s'.globalSnapshotCount ≤ maxGlobalStateSnapshots) : Covered s' := by
  have hold := (h.rooms id room hroom).weight
  have hsum := storedWeight_add room c snapshot
  have hsize := missing_add room c snapshot
  refine h.insert hroom hs' ⟨?_, hroomLimit⟩ ?_ hbytesLimit ?_ hcountLimit
  · rw [RelayRoom.snapshotWeight, hsnapshots]
    omega
  · simp only [RelayRoom.totals, RelayRoom.joinWeight, hjoins]
    omega
  · simp only [RelayRoom.totals, hsnapshots, hjoins]
    omega

theorem Covered.rolledBack (hwell : WellFormed room) {plan : RollbackPlan}
    (hroom : b.rooms.get? roomId = some room) (hplan : Retracting b room messageId plan)
    (hfits : Restorable b room plan.pending) :
    Covered { b with
      rooms := b.rooms.insert roomId (rolledBackRoom room messageId plan)
      globalPendingCount := plan.globalPendingCount
      globalPendingBytes := plan.globalPendingBytes
      globalDeliveryCount := plan.globalDeliveryCount
      globalDeliveryBytes := plan.globalDeliveryBytes
      globalSnapshotCount := plan.globalSnapshotCount
      globalSnapshotBytes := plan.globalSnapshotBytes } := by
  obtain ⟨previous, current, hprevious, hcurrent, hsnapshots⟩ := restored_snapshots hwell hplan
  obtain ⟨hlight, hglobal⟩ := hfits
  have hroomBytes := hplan.snapshotBytes
  have hbytes := hplan.globalSnapshotBytes
  have hcount := hplan.globalSnapshotCount
  have hstored : room.snapshots.contains plan.pending.senderCodeId = true :=
    contains_eq_true.mpr ⟨current, hcurrent⟩
  have hmissing : missing room plan.pending.senderCodeId = 0 := by rw [missing, if_pos hstored]
  rw [hprevious, map_some, getD_some] at hroomBytes hbytes hlight hglobal
  rw [hprevious, isSome_some, hstored, if_pos rfl] at hcount
  have hcount' : plan.globalSnapshotCount = b.globalSnapshotCount := Nat.add_right_cancel hcount
  refine h.replaced hroom rfl hsnapshots rfl hroomBytes ?_ hbytes ?_ ?_ ?_
  · change plan.roomSnapshotBytes ≤ _
    omega
  · change plan.globalSnapshotBytes ≤ _
    omega
  · rw [hmissing]
    exact hcount'
  · exact hcount'.trans_le h.countLimit

theorem Covered.created {createdAt : Nat} {a : CreateArgs} {plan : CreatePlan}
    (hplan : Created b createdAt a plan) (hlight : initialWeight a ≤ maxStateBytes) :
    Covered { b with
      rooms := b.rooms.insert a.roomId plan.room
      globalSnapshotCount := plan.globalSnapshotCount
      globalSnapshotBytes := plan.globalSnapshotBytes } := by
  have hexact := Exact.created hplan
  have hmoved := @totals_created b { b with
    rooms := b.rooms.insert a.roomId plan.room
    globalSnapshotCount := plan.globalSnapshotCount
    globalSnapshotBytes := plan.globalSnapshotBytes } _ _ hplan.absent rfl
  have hcount := hplan.globalSnapshotCount
  have hold := h.bytes
  have holdCount := h.count
  obtain ⟨name, bytes, hname, hweight, hroom, hbytes⟩ := hplan.roomEq
  rw [initialSnapshot_weight hname] at hweight
  have hroomBytes : plan.room.snapshotBytes = bytes := by rw [hroom]; rfl
  have htotals : plan.room.totals.snapshotBytes = bytes ∧ plan.room.totals.snapshotCount = 1 := by
    rw [hroom]
    exact ⟨rfl, rfl⟩
  refine ⟨h.rooms.insert ⟨hexact.snapshotBytes.ge, ?_⟩ rfl, ?_, hplan.snapshotLimit, ?_,
    hplan.countLimit⟩
  · exact hroomBytes.trans_le (hweight.trans_le hlight)
  · rw [hmoved]
    change b.totals.snapshotBytes + plan.room.totals.snapshotBytes ≤ plan.globalSnapshotBytes
    omega
  · rw [hmoved]
    change b.totals.snapshotCount + plan.room.totals.snapshotCount ≤ plan.globalSnapshotCount
    omega

end

variable {plan : AcceptPlan}

theorem Covered.evicted (h : Covered s)
    (hrel : ∀ id, Option.Rel Evicted (s.rooms.get? id) (s'.rooms.get? id))
    (hbytes : s'.globalSnapshotBytes = s.globalSnapshotBytes)
    (hcount : s'.globalSnapshotCount = s.globalSnapshotCount) : Covered s' := by
  have htotals := totals_evicted hrel
  refine ⟨fun id r' hr' => ?_, ?_, hbytes.trans_le h.bytesLimit, ?_, hcount.trans_le h.countLimit⟩
  · have hroom := hrel id
    rw [hr'] at hroom
    obtain ⟨r, hr, n, rfl⟩ := rel_some_right hroom
    exact ⟨(h.rooms id r hr).weight, (h.rooms id r hr).limit⟩
  · rw [htotals, hbytes]
    exact h.bytes
  · rw [htotals, hcount]
    exact h.count

theorem Covered.trimmed {result : Except String Unit} (h : Covered s)
    (htrim : s.trimReplayIds σ = (s', result)) : Covered s' := by
  have hrel := trimReplayIds_rooms σ s
  rw [htrim] at hrel
  obtain ⟨rooms, count, rfl⟩ := trimReplayIds_frame htrim
  exact h.evicted hrel rfl rfl

variable {result : Except String MembershipResult}

theorem Covered.settled {mid : RoomAuthority} (hcapacity : Capacity mid)
    (h : Covered { mid with
      globalSnapshotCount := plan.globalStateCount
      globalSnapshotBytes := plan.globalStateBytes })
    (hsettle : settleAcceptance σ mid plan = (s', result)) : Covered s' := by
  have hrel := settleAcceptance_rooms σ mid plan
  obtain ⟨mid', htrim, -⟩ := trimReplayIds_ok σ hcapacity
  obtain ⟨hcapacity', -⟩ := hcapacity.trimmed htrim
  have hcounters : s'.globalSnapshotBytes = plan.globalStateBytes ∧
      s'.globalSnapshotCount = plan.globalStateCount := by
    unfold settleAcceptance at hsettle
    rw [htrim] at hsettle
    simp only at hsettle
    rw [recomputeGapAccounting_ok (by exact hcapacity'.gaps)] at hsettle
    obtain ⟨rfl, -⟩ := Prod.mk.inj hsettle
    exact ⟨rfl, rfl⟩
  rw [hsettle] at hrel
  exact h.evicted hrel hcounters.1 hcounters.2

theorem Covered.accepted (hregular : Regular b) (h : Covered b) {clock : AcceptClock}
    {owner : CodeId} {messageId : Text} {revision : Nat} (hroom : b.rooms.get? roomId = some room)
    (hplan : Accepted b room owner messageId revision plan)
    (hsettle : settleAcceptance σ { b with
      rooms := b.rooms.insert roomId (acceptRoom clock room owner plan) } plan = (s', result)) :
    Covered s' := by
  have hwell := hregular.wellFormed roomId room hroom
  have hold := (h.rooms roomId room hroom).weight
  have hweights := acceptedSnapshots_sum_le snapshotWeight clock hwell hplan
  have hsizes := acceptedSnapshots_size clock hwell hplan
  have hjoinCount := acceptedJoins_sum (fun _ => 1) hplan
  have hjoinBytes := acceptedJoins_sum (fun j => j.stateEnvelope.length) hplan
  have hroomBytes := hplan.snapshotBytes
  have hbytes := hplan.globalStateBytes
  have hcount := hplan.globalStateCount
  have hlimit := hplan.roomBytesLimit
  have hjoinedBytes : (plan.pendingJoin.map fun join => join.2.length).getD 0 =
      ((plan.transition.requestId.bind room.joins.get?).map
        fun j => j.stateEnvelope.length).getD 0 := by
    rw [hplan.pendingJoin, Option.map_map]
    rfl
  change _ + _ + storedWeight room owner ≤ room.snapshotWeight +
    (plan.transition.stateEnvelope.length + rosterWeight plan.transition.roster) +
    (plan.pendingJoin.map fun join => join.2.length).getD 0 at hweights
  change _ + _ = room.joinWeight at hjoinBytes
  rw [← size_eq_sum, ← size_eq_sum] at hjoinCount
  refine Covered.settled (hregular.capacity_effect hroom (.accepted hplan (.refl _)) (by rfl))
    (h.insert hroom rfl ?_ ?_ hplan.globalBytesLimit ?_ hplan.globalCountLimit) hsettle
  · rw [acceptRoom_eq]
    refine ⟨?_, ?_⟩
    · change (acceptedSnapshots clock room owner plan).sum _ ≤ plan.roomSnapshotBytes
      omega
    · change plan.roomSnapshotBytes ≤ maxStateBytes
      omega
  · rw [acceptRoom_eq]
    change plan.roomSnapshotBytes + (acceptedJoins room plan).sum _ + b.globalSnapshotBytes ≤
      room.snapshotBytes + room.joinWeight + plan.globalStateBytes
    omega
  · rw [acceptRoom_eq]
    change (acceptedSnapshots clock room owner plan).size + (acceptedJoins room plan).size +
      b.globalSnapshotCount ≤ room.snapshots.size + room.joins.size + plan.globalStateCount
    omega

theorem Covered.unjoined (h : Covered b) {requestId : Text} {join : PendingJoin}
    (hroom : b.rooms.get? roomId = some room) (hjoin : room.joins.get? requestId = some join) :
    Covered { b with
      rooms := b.rooms.insert roomId { room with joins := room.joins.erase requestId } } := by
  have hold := h.rooms roomId room hroom
  have hweight := sum_erase_add hjoin fun _ j => j.stateEnvelope.length
  have hsize := sum_erase_add hjoin fun _ _ => 1
  rw [← size_eq_sum, ← size_eq_sum] at hsize
  refine h.insert hroom rfl ⟨hold.weight, hold.limit⟩ ?_ h.bytesLimit ?_ h.countLimit
  · simp only [RelayRoom.totals, RelayRoom.joinWeight]
    omega
  · simp only [RelayRoom.totals]
    omega

theorem Covered.recounted (h : Covered s) : Covered { s with
    globalSnapshotCount := s.totals.snapshotCount
    globalSnapshotBytes := s.totals.snapshotBytes } :=
  ⟨h.rooms, Nat.le_refl _, h.bytes.trans h.bytesLimit, Nat.le_refl _, h.count.trans h.countLimit⟩

theorem Covered.deleted (h : Covered b) (hkeyed : Keyed b) {totals : AuthorityAccounting}
    (hcount : b.checkedAccountingExcluding (some roomId) = .ok totals) :
    Covered ({ b with rooms := b.rooms.erase roomId }.applyAccounting totals) := by
  have hless : ∀ f : RelayRoom → Nat, ((b.rooms.erase roomId).values.map f).sum ≤
      (b.rooms.values.map f).sum := by
    intro f
    rw [sum_values, sum_values]
    exact sum_le_sum_of_get? fun id r hr => ⟨r, get?_of_erase hr, Nat.le_refl _⟩
  rw [deleted_counters hkeyed hcount]
  exact ⟨fun id r hr => h.rooms id r (get?_of_erase hr), Nat.le_refl _,
    (hless _).trans (h.bytes.trans h.bytesLimit), Nat.le_refl _,
    (hless _).trans (h.count.trans h.countLimit)⟩

theorem Covered.step {op : Op} {result : Except String Reply} (hregular : Regular b)
    (hkeyed : Keyed b) (h : Covered b)
    (hcreate : ∀ now createdAt a, op = .create now createdAt a → initialWeight a ≤ maxStateBytes)
    (hrollback : ∀ roomId messageId room p, op = .rollbackApplication roomId messageId →
      b.rooms.get? roomId = some room → room.pendingApplications.get? messageId = some p →
      Restorable b room p)
    (hstep : Step σ b op s' result) : Covered s' := by
  cases hstep with
  | failed | replied => exact h
  | joined hroom hplan => exact h.joined hroom hplan
  | unjoined hroom hjoin hcount =>
    rw [recomputeStateAccounting_eq hcount]
    exact (h.unjoined hroom hjoin).recounted
  | unjoinedLate hroom hjoin => exact h.unjoined hroom hjoin
  | left hroom hplan | staged hroom hplan =>
    have hroomEq := hplan.roomEq
    subst hroomEq
    exact h.unstored hroom rfl rfl rfl rfl rfl rfl
  | unleft hroom | unstaged hroom | abandoned selected hroom =>
    exact h.unstored hroom rfl rfl rfl rfl rfl rfl
  | accepted hroom hplan hsettle => exact .accepted hregular h hroom hplan hsettle
  | admitted hroom _ hplan =>
    exact h.replaced hroom rfl rfl rfl hplan.snapshotBytes hplan.budget.roomSnapshotBytes
      hplan.globalSnapshotBytes hplan.budget.snapshotBytes hplan.globalSnapshotCount
      hplan.budget.snapshotCount
  | @committed _ roomId _ plan _ _ _ _ hroom hplan htrim =>
    obtain ⟨pendingBytes, hroomEq, -⟩ := hplan.roomEq
    have hmid : Covered { b with
        rooms := b.rooms.insert roomId plan.room
        globalPendingCount := plan.globalPendingCount
        globalPendingBytes := plan.globalPendingBytes } :=
      h.unstored hroom rfl (by rw [hroomEq]) (by rw [hroomEq]) (by rw [hroomEq]) rfl rfl
    exact hmid.trimmed htrim
  | rolledBack hroom hplan =>
    exact h.rolledBack (hregular.wellFormed _ _ hroom) hroom hplan
      (hrollback _ _ _ _ rfl hroom hplan.pendingGet)
  | stored hroom _ hplan hcount =>
    obtain ⟨pairs, -, hrecount⟩ := bind_eq_ok.mp hcount
    cases hrecount
    exact h.replaced hroom rfl rfl rfl hplan.snapshotBytes hplan.roomSnapshotLimit
      hplan.globalSnapshotBytes hplan.globalBytesLimit hplan.globalSnapshotCount
      hplan.globalCountLimit
  | storedLate hroom _ hplan =>
    exact h.replaced hroom rfl rfl rfl hplan.snapshotBytes hplan.roomSnapshotLimit
      hplan.globalSnapshotBytes hplan.globalBytesLimit hplan.globalSnapshotCount
      hplan.globalCountLimit
  | created hplan => exact h.created hplan (hcreate _ _ _ rfl)
  | deleted hcount => exact h.deleted hkeyed hcount
  | wiped =>
    exact ⟨fun id r hr => (by cases hr), Nat.zero_le _, Nat.zero_le _, Nat.zero_le _, Nat.zero_le _⟩

end

variable {s : RoomAuthority}

def openedBytes : Op → Nat
  | .create _ _ a => initialWeight a
  | _ => 0

/-- The call opens no room that is too heavy, and the snapshots that it puts back take neither a
room nor all of them over the limit on their bytes. -/
def StaysLight (s : RoomAuthority) (c : Call) : Prop :=
  openedBytes c.2 ≤ maxStateBytes ∧
  (∀ e ∈ s.rooms.entries, LightToUndo e.2 (undoneIds c.2 e.1 e.2)) ∧
  s.globalSnapshotBytes + s.rooms.sum (fun id room => restoredBytes room (undoneIds c.2 id room)) ≤
    maxGlobalStateBytes + s.rooms.sum fun id room => replacedBytes room (undoneIds c.2 id room)

instance (s : RoomAuthority) (c : Call) : Decidable (StaysLight s c) :=
  inferInstanceAs (Decidable (_ ∧ (∀ e ∈ s.rooms.entries, _) ∧ _))

variable {c : Call}

theorem StaysLight.room (h : StaysLight s c) {id : Text} {room : RelayRoom}
    (hroom : s.rooms.get? id = some room) :
    LightToUndo room (undoneIds c.2 id room) := h.2.1 (id, room) (get?_eq_some.mp hroom)

-- A rollback undoes one application, in its own room.
theorem undoneWeight_rollback {roomId messageId : Text} {room : RelayRoom} {p : PendingApplication}
    (hroom : s.rooms.get? roomId = some room) (hp : room.pendingApplications.get? messageId = some p)
    (weigh : RelayRoom → PendingApplication → Nat) :
    let weight := fun id r =>
      undoneWeight r (undoneIds (.rollbackApplication roomId messageId) id r) (weigh r)
    weight roomId room = weigh room p ∧ s.rooms.sum weight = weigh room p := by
  intro weight
  have hids : undoneIds (.rollbackApplication roomId messageId) roomId room = [messageId] := by
    simp only [undoneIds, Op.pruneClock, contains_eq_true.mpr ⟨p, hp⟩, and_self, if_true]
  have hown : weight roomId room = weigh room p := by
    simp only [weight]
    rw [hids, undoneWeight_cons hp, undoneWeight_nil, Nat.zero_add]
  have helsewhere : (s.rooms.erase roomId).sum weight = 0 := by
    refine sum_eq_zero fun id r hr => ?_
    rw [get?_erase] at hr
    split_ifs at hr with hne
    have hnone : undoneIds (.rollbackApplication roomId messageId) id r = [] := by
      simp only [undoneIds, Op.pruneClock, hne, false_and, if_false]
    simp only [weight]
    rw [hnone, undoneWeight_nil]
  have hsum := sum_erase_add hroom weight
  exact ⟨hown, by omega⟩

theorem StaysLight.rollback {roomId messageId : Text}
    (h : StaysLight s (σ, .rollbackApplication roomId messageId)) {room : RelayRoom}
    (hroom : s.rooms.get? roomId = some room) {p : PendingApplication}
    (hp : room.pendingApplications.get? messageId = some p) : Restorable s room p := by
  have hrestored := undoneWeight_rollback hroom hp fun _ p =>
    (p.previousSnapshot.map snapshotWeight).getD 0
  have hreplaced := undoneWeight_rollback hroom hp fun room p => storedWeight room p.senderCodeId
  have hlight := h.room hroom
  have hglobal := h.2.2
  unfold LightToUndo at hlight
  unfold restoredBytes replacedBytes at hlight hglobal
  simp only [hrestored, hreplaced] at hlight hglobal
  exact ⟨hlight, hglobal⟩

theorem joins_pruned {room room' : RelayRoom} (h : PrunedTo σ now ttl room room') :
    room'.joinWeight ≤ room.joinWeight ∧ room'.joins.size ≤ room.joins.size := by
  have hjoins := h.sameRequests.joins
  have hweight := room.joins.sum_filter_le (fun _ join => decide (now < join.request.expiresAtMs))
    fun _ join => join.stateEnvelope.length
  have hsize := room.joins.size_filter_le fun _ join => decide (now < join.request.expiresAtMs)
  rw [RelayRoom.joinWeight, hjoins]
  exact ⟨hweight, hsize⟩

theorem Covered.pruned (hregular : Regular s) (h : Covered s)
    (hlight : ∀ id room, s.rooms.get? id = some room →
      LightToUndo room (room.expiredApplications now))
    (hglobal : s.globalSnapshotBytes +
        s.rooms.sum (fun _ room => restoredBytes room (room.expiredApplications now)) ≤
      maxGlobalStateBytes +
        s.rooms.sum fun _ room => replacedBytes room (room.expiredApplications now)) :
    Covered (s.pruneExpired σ now) := by
  have hbalanced := hregular.balanced_prune σ now
  have hundone : ∀ id room', (s.pruneExpired σ now).rooms.get? id = some room' →
      ∃ room, s.rooms.get? id = some room ∧ Reweighed room (room.expiredApplications now) room' ∧
        room'.joinWeight ≤ room.joinWeight ∧ room'.joins.size ≤ room.joins.size := by
    intro id room' hroom'
    obtain ⟨room, hroom, hpruned⟩ := pruneExpired_some hroom'
    exact ⟨room, hroom, .pruned (hregular.wellFormed id room hroom) hpruned, joins_pruned hpruned⟩
  have hcounters := hbalanced.counters
  have hbytesEq := congrArg AuthorityAccounting.snapshotBytes hcounters
  have hcountEq := congrArg AuthorityAccounting.snapshotCount hcounters
  have hbytes : (s.pruneExpired σ now).totals.snapshotBytes ≤ maxGlobalStateBytes := by
    have hmoved : (s.pruneExpired σ now).rooms.sum (fun _ r => r.totals.snapshotBytes) +
        s.rooms.sum (fun _ r => replacedBytes r (r.expiredApplications now)) ≤
        s.rooms.sum fun _ r =>
          r.totals.snapshotBytes + restoredBytes r (r.expiredApplications now) := by
      refine sum_add_le_of_rel (pruneExpired_rooms σ now s) fun id room room' hroom hroom' hpruned => ?_
      have hweight := (Reweighed.pruned (hregular.wellFormed id room hroom) hpruned).weight
      have hexact := (hbalanced.rooms id room' hroom').snapshotBytes
      have hcovered := (h.rooms id room hroom).weight
      have hjoins := (joins_pruned hpruned).1
      simp only [RelayRoom.totals]
      omega
    have hold := h.bytes
    unfold RoomAuthority.totals totalOf at hold ⊢
    simp only [sum_values] at hold ⊢
    rw [sum_add] at hmoved
    omega
  have hcount : (s.pruneExpired σ now).totals.snapshotCount ≤ s.totals.snapshotCount := by
    unfold RoomAuthority.totals totalOf
    simp only [sum_values]
    refine sum_le_sum_of_get? fun id room' hroom' => ?_
    obtain ⟨room, hroom, hundone, -, hjoins⟩ := hundone id room' hroom'
    have hsize := hundone.size
    refine ⟨room, hroom, ?_⟩
    simp only [RelayRoom.totals]
    omega
  refine ⟨fun id room' hroom' => ?_, hbytesEq.ge, hbytesEq.trans_le hbytes, hcountEq.ge, ?_⟩
  · obtain ⟨room, hroom, hundone, -⟩ := hundone id room' hroom'
    have hexact := (hbalanced.rooms id room' hroom').snapshotBytes
    have hcovered := (h.rooms id room hroom).weight
    have hweight := hundone.weight
    have hlimit := hlight id room hroom
    unfold LightToUndo at hlimit
    exact ⟨hexact.ge, by omega⟩
  · exact hcountEq.trans_le (hcount.trans (h.count.trans h.countLimit))

theorem Covered.base (hregular : Regular s) (h : Covered s) (hguard : StaysLight s c) :
    Covered (c.2.base c.1 s) := by
  unfold Op.base
  cases hclock : c.2.pruneClock with
  | none => exact h
  | some now =>
    have hids : ∀ id room, undoneIds c.2 id room = room.expiredApplications now := by
      intro id room
      unfold undoneIds
      simp only [hclock]
    have hglobal := hguard.2.2
    simp only [hids] at hglobal
    refine h.pruned hregular (fun id room hroom => ?_) hglobal
    rw [← hids id]
    exact hguard.room hroom

theorem Covered.call (hregular : Regular s) (hkeyed : Keyed s) (h : Covered s)
    (hguard : StaysLight s c) : Covered (call s c) := by
  refine (h.base hregular hguard).step (hregular.base c.1 c.2) (hkeyed.base c.1 c.2) ?_ ?_
    (exec_step c.1 s c.2)
  · intro now createdAt a hop
    have hcreate := hguard.1
    rw [hop] at hcreate
    exact hcreate
  · intro roomId messageId room p hop hroom hp
    obtain ⟨σ, op⟩ := c
    obtain rfl : op = .rollbackApplication roomId messageId := hop
    -- A rollback does not prune, so it meets the room as the call does.
    exact hguard.rollback hroom hp

/-- The limits on stored state: of one room, and of all rooms with the join requests. -/
structure StateBudget (s : RoomAuthority) : Prop where
  roomCounter : AllRooms (fun room => room.snapshotBytes ≤ maxStateBytes) s
  roomBytes : AllRooms (fun room => room.snapshotWeight ≤ maxStateBytes) s
  roomCount : AllRooms (fun room => room.snapshots.size ≤ maxStateSnapshots) s
  bytesCounter : s.globalSnapshotBytes ≤ maxGlobalStateBytes
  bytes : s.rooms.sum (fun _ room => room.snapshotWeight + room.joinWeight) ≤ maxGlobalStateBytes
  countCounter : s.globalSnapshotCount ≤ maxGlobalStateSnapshots
  count : s.rooms.sum (fun _ room => room.snapshots.size + room.joins.size) ≤
    maxGlobalStateSnapshots

theorem Covered.stateBudget (hregular : Regular s) (h : Covered s) : StateBudget s := by
  refine ⟨fun id room hroom => (h.rooms id room hroom).limit, fun id room hroom => ?_,
    fun id room hroom => (hregular.sized id room hroom).snapshotCount, h.bytesLimit, ?_,
    h.countLimit, ?_⟩
  · exact (h.rooms id room hroom).weight.trans (h.rooms id room hroom).limit
  · refine le_trans (sum_le_sum fun id room hroom => ?_)
      ((sum_values s.rooms fun room => room.totals.snapshotBytes).ge.trans
        (h.bytes.trans h.bytesLimit))
    exact Nat.add_le_add_right (h.rooms id room hroom).weight _
  · exact (sum_values s.rooms fun room => room.totals.snapshotCount).ge.trans
      (h.count.trans h.countLimit)

theorem stateBudget_after (maxRooms pendingTtlMs : Nat) (calls : List Call)
    (h : Along StaysLight call (newWithPendingTtl maxRooms pendingTtlMs) calls) :
    StateBudget (after maxRooms pendingTtlMs calls) := by
  have hnew : Regular (newWithPendingTtl maxRooms pendingTtlMs) ∧
      Keyed (newWithPendingTtl maxRooms pendingTtlMs) ∧
      Covered (newWithPendingTtl maxRooms pendingTtlMs) :=
    ⟨.new _ _, fun _ _ hr => (by cases hr), .new _ _ _, Nat.zero_le _, Nat.zero_le _,
      Nat.zero_le _, Nat.zero_le _⟩
  have hstep : ∀ s c, Regular s ∧ Keyed s ∧ Covered s → StaysLight s c →
      Regular (call s c) ∧ Keyed (call s c) ∧ Covered (call s c) := by
    rintro s c ⟨hregular, hkeyed, hcovered⟩ hguard
    have hwell := (hregular.base c.1 c.2).wellFormed
    exact ⟨hregular.call c, (hkeyed.base c.1 c.2).step hwell (exec_step c.1 s c.2),
      .call hregular hkeyed hcovered hguard⟩
  have hrun := Along.invariant hstep hnew h
  exact hrun.2.2.stateBudget hrun.1

open Scenario in
set_option maxRecDepth 100000 in
theorem stateBudget_aliceSendsAgain :
    Along StaysLight call (newWithPendingTtl 1 600000) (calls aliceSendsAgain) ∧
      StateBudget (after 1 600000 (calls aliceSendsAgain)) := by
  have hguard : Along StaysLight call (newWithPendingTtl 1 600000) (calls aliceSendsAgain) := by
    decide
  exact ⟨hguard, stateBudget_after 1 600000 _ hguard⟩

namespace Scenario

/-- A room with the largest initial state that a creation accepts. -/
def largest : CreateArgs :=
  { ownerCodeId := 1, ownerUsername := alice, roomId := lobby, groupId, epoch := 0, revision := 0
    membershipDigest := digest 0, stableIdentity := identity 1, policy := {}
    visibility := .priv, stateEnvelope := List.replicate maxStateBytes 1 }

end Scenario

open Scenario in
/-- A creation looks at the envelope alone, and the snapshot weighs its roster too. -/
theorem largest_state_exceeds :
    ¬ StateBudget (after 1 600000 [(.byKey, .create 0 0 largest)]) := by
  intro h
  have hready : Ready 0 (newWithPendingTtl 1 600000) :=
    ⟨.new _ _, ⟨.new _ _ _, rfl⟩, Nat.zero_le _, .new _ _ _⟩
  have hlength : largest.stateEnvelope.length = maxStateBytes := length_replicate ..
  have hweight : initialWeight largest = maxStateBytes + (1 + stableIdentityBytes) := by
    rw [initialWeight, hlength]
    rfl
  have hformed : largest.Formed := by
    refine ⟨rfl, rfl, rfl, rfl, rfl, ⟨?_, hlength.le⟩, rfl, rfl⟩
    exact ne_nil_of_length_pos (hlength ▸ (by decide : 0 < maxStateBytes))
  have hvacant : Vacant (newWithPendingTtl 1 600000) largest := by
    refine ⟨by decide, by decide, rfl, by decide, ?_⟩
    rw [hweight]
    decide
  obtain ⟨plan, hplan, hcall, -⟩ := hready.create (σ := .byKey) hformed hvacant 0
  obtain ⟨name, bytes, hname, hbytes, hroom, -⟩ := hplan.roomEq
  rw [initialSnapshot_weight hname, hweight] at hbytes
  have hget : (after 1 600000 [(.byKey, .create 0 0 largest)]).rooms.get? lobby = some plan.room := by
    rw [after, runFrom, foldl_cons, foldl_nil, hcall]
    exact get?_insert_self ..
  have hlimit := h.roomCounter lobby plan.room hget
  rw [hroom] at hlimit
  change bytes ≤ maxStateBytes at hlimit
  rw [hbytes] at hlimit
  exact absurd hlimit (by decide)

end Abyssal.Rooms
