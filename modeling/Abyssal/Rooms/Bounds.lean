import Abyssal.Rooms.Flow

/-! How much a room can hold over every run. Each table has a limited number of records of a
limited weight, so every total over all rooms is far below the largest word: the counts taken
while pruning succeed, and they are exact. -/

namespace Abyssal.Rooms

open RelayRoom RoomAuthority OrdMap List

variable {room' room : RelayRoom}

def OnlyThinned (room room' : RelayRoom) : Prop :=
  ∀ c queue', room'.deliveries.get? c = some queue' →
    ∃ queue P, room.deliveries.get? c = some queue ∧ Thinned P queue queue'

variable {P : PendingDelivery → Prop} {queue queue' : List PendingDelivery}

theorem Thinned.mem (h : Thinned P queue queue') {d' : PendingDelivery} (hd' : d' ∈ queue') :
    ∃ d ∈ queue, d.unnumbered = d'.unnumbered := by
  obtain ⟨kept, hdrop, hmap⟩ := h
  have hmem : d'.unnumbered ∈ kept.map PendingDelivery.unnumbered :=
    hmap ▸ mem_map_of_mem hd'
  obtain ⟨d, hd, heq⟩ := mem_map.mp hmem
  exact ⟨d, hdrop.sublist.subset hd, heq⟩

theorem Thinned.length_le (h : Thinned P queue queue') : queue'.length ≤ queue.length := by
  obtain ⟨kept, hdrop, hmap⟩ := h
  have hlength := congrArg List.length hmap
  rw [length_map, length_map] at hlength
  exact hlength ▸ hdrop.sublist.length_le

theorem OnlyThinned.deliveryCount_le (h : OnlyThinned room room') :
    room'.deliveryCount ≤ room.deliveryCount := by
  refine sum_le_sum_of_get? fun c queue' hqueue' => ?_
  obtain ⟨queue, P, hqueue, hthin⟩ := h c queue' hqueue'
  exact ⟨queue, hqueue, hthin.length_le⟩

theorem OnlyThinned.of_deliveries (h : room'.deliveries = room.deliveries) :
    OnlyThinned room room' :=
  fun _ queue' hqueue' => ⟨queue', fun _ => True, h ▸ hqueue', .refl queue'⟩

theorem retracted_onlyThinned {room room' : RelayRoom} {m : Text} {selected : CodeId → Bool}
    (h : room'.deliveries = room.retracted m selected) : OnlyThinned room room' := by
  intro c queue' hqueue'
  rw [h, retracted_get?] at hqueue'
  obtain ⟨queue, hqueue, rfl⟩ := Option.map_eq_some_iff.mp hqueue'
  refine ⟨queue, fun d => d.messageId = m, hqueue, ?_⟩
  split_ifs
  · exact ⟨withoutMessage m queue, .of_filter fun d _ hd => (by simpa using hd),
      (renumbered_unnumbered _ _ _).symm⟩
  · exact .refl queue

theorem RelayRoom.Trim.onlyThinned (h : Trim room room') : OnlyThinned room room' := by
  cases h with
  | expire c queue thinned gaps hqueue hthin =>
    intro c' queue' hqueue'
    simp only [get?_insert] at hqueue'
    split_ifs at hqueue' with hc
    · subst hc
      cases hqueue'
      exact ⟨queue, _, hqueue, thinned, hthin, (renumbered_unnumbered _ _ _).symm⟩
    · exact ⟨queue', fun _ => True, hqueue', .refl queue'⟩
  | dropEmpty =>
    intro c queue' hqueue'
    rw [dropEmptyQueues_get?, Option.filter_eq_some_iff] at hqueue'
    exact ⟨queue', fun _ => True, hqueue'.1, .refl queue'⟩
  | evict | recount => exact .of_deliveries rfl

def maxAdmissionBytes : Nat :=
  maxApplicationCiphertextBytes + maxAuthenticatedDataBytes + maxRoomIdBytes

structure Sized (room : RelayRoom) : Prop where
  pendingCount : room.pendingApplications.size ≤ maxPendingApplications
  pendings : ∀ m p, room.pendingApplications.get? m = some p → pendingWeight p ≤ maxAdmissionBytes
  previous : ∀ m p snapshot, room.pendingApplications.get? m = some p →
    p.previousSnapshot = some snapshot → snapshotWeight snapshot ≤ maxGlobalStateBytes
  snapshotCount : room.snapshots.size ≤ maxStateSnapshots
  snapshots : ∀ c snapshot, room.snapshots.get? c = some snapshot →
    snapshotWeight snapshot ≤ maxGlobalStateBytes
  joinCount : room.joins.size ≤ maxJoinRequests
  joins : ∀ id join, room.joins.get? id = some join → join.stateEnvelope.length ≤ maxStateBytes
  deliveryCount : room.deliveryCount ≤ maxDeliveriesPerRoom
  deliveries : ∀ c queue, room.deliveries.get? c = some queue →
    ∀ d ∈ queue, deliveryWeight d ≤ maxGlobalDeliveryBytes

variable {op : Op}

section

variable {b : RoomAuthority} {room room' : RelayRoom}

theorem Sized.shrink (h : Sized room) (hqueues : OnlyThinned room room')
    (hpendings : ∀ m p, room'.pendingApplications.get? m = some p →
      room.pendingApplications.get? m = some p)
    (hjoins : ∀ id j, room'.joins.get? id = some j → room.joins.get? id = some j)
    (hcount : room'.snapshots.size ≤ maxStateSnapshots)
    (hsnapshots : ∀ c s, room'.snapshots.get? c = some s →
      snapshotWeight s ≤ maxGlobalStateBytes) : Sized room' := by
  refine ⟨?_, fun m p hp => h.pendings m p (hpendings m p hp),
    fun m p s hp => h.previous m p s (hpendings m p hp), hcount, hsnapshots, ?_,
    fun id j hj => h.joins id j (hjoins id j hj), hqueues.deliveryCount_le.trans h.deliveryCount,
    fun c queue' hqueue' d' hd' => ?_⟩
  · refine le_trans ?_ h.pendingCount
    rw [size_eq_sum, size_eq_sum]
    exact sum_le_sum_of_get? fun m p hp => ⟨p, hpendings m p hp, Nat.le_refl 1⟩
  · refine le_trans ?_ h.joinCount
    rw [size_eq_sum, size_eq_sum]
    exact sum_le_sum_of_get? fun id j hj => ⟨j, hjoins id j hj, Nat.le_refl 1⟩
  · obtain ⟨queue, P, hqueue, hthin⟩ := hqueues c queue' hqueue'
    obtain ⟨d, hd, heq⟩ := hthin.mem hd'
    have hweight := congrArg deliveryWeight heq
    exact hweight.symm.trans_le (h.deliveries c queue hqueue d hd)

theorem Sized.trim (h : Sized room) (ht : Trim room room') : Sized room' := by
  have hqueues := ht.onlyThinned
  cases ht <;>
    exact h.shrink hqueues (fun _ _ hp => hp) (fun _ _ hj => hj) h.snapshotCount h.snapshots

theorem Sized.undone (h : Sized room) (hwell : WellFormed room) {m : Text}
    {p : PendingApplication} (hp : room.pendingApplications.get? m = some p) :
    Sized (room.undone m p) := by
  have hpending := hwell.pending m p hp
  obtain ⟨snapshot, hprevious, -⟩ := hpending.snapshot
  obtain ⟨k, sender, hsender, hcode, -⟩ := hpending.active
  obtain ⟨stored, hstored, -⟩ := hwell.tables.stored p.senderCodeId ⟨k, sender, hsender, hcode⟩
  have hsnapshots : (room.undone m p).snapshots = room.snapshots.insert p.senderCodeId snapshot := by
    simp only [RelayRoom.undone, restoreSender, hprevious]
  refine h.shrink (@retracted_onlyThinned room _ m (fun _ => true) rfl)
    (fun _ _ hq => get?_of_erase hq) (fun _ _ hj => hj) ?_ fun c s hs => ?_
  · rw [hsnapshots, size_insert_of_get? hstored]
    exact h.snapshotCount
  · rw [hsnapshots, get?_insert] at hs
    split_ifs at hs
    · cases hs
      exact h.previous m p snapshot hp hprevious
    · exact h.snapshots c s hs

theorem Sized.tidy (h : Sized room) (hwell : WellFormed room) (ht : Tidy room room') :
    Sized room' := by
  cases ht with
  | requests joins leaves hjoins =>
    exact h.shrink (.of_deliveries rfl) (fun _ _ hp => hp) hjoins h.snapshotCount h.snapshots
  | unstage =>
    exact h.shrink (.of_deliveries rfl) (fun _ _ hp => hp) (fun _ _ hj => hj) h.snapshotCount
      h.snapshots
  | undo m p hp => exact h.undone hwell hp
  | trim ht => exact h.trim ht

variable {ds : List PendingDelivery} {d : PendingDelivery}

theorem mem_pushed {queues : OrdMap CodeId (List PendingDelivery)} {c : CodeId}
    (h : (ds.foldl pushDelivery queues).get? c = some queue) (hd : d ∈ queue) :
    (∃ old, queues.get? c = some old ∧ d ∈ old) ∨ d ∈ ds := by
  rw [foldl_pushDelivery_get?] at h
  split_ifs at h with hnone
  · exact .inl ⟨queue, h, hd⟩
  · cases h
    rcases mem_append.mp hd with hold | hnew
    · cases hget : queues.get? c with
      | none => simp [hget] at hold
      | some old => exact .inl ⟨old, rfl, by simpa [hget] using hold⟩
    · exact .inr (mem_of_mem_filter hnew)

theorem deliveryWeight_le_queueWeight (hd : d ∈ ds) : deliveryWeight d ≤ queueWeight ds :=
  le_sum_of_mem (mem_map_of_mem hd)

theorem Sized.joined (h : Sized room) {now : Nat} {a : JoinArgs} {plan : JoinPlan}
    (hplan : NewJoin b now a room plan) : Sized plan.room := by
  rw [hplan.roomEq]
  refine { h with joinCount := ?_, joins := fun id join hjoin => ?_ }
  · exact (size_insert_new hplan.noJoin _).trans_le hplan.capacity
  · simp only [get?_insert] at hjoin
    split_ifs at hjoin
    · cases hjoin
      exact hplan.envelope
    · exact h.joins id join hjoin

theorem Sized.admitted (h : Sized room) {now : Nat} {a : AdmitArgs} {plan : AdmitPlan}
    (hlimit : b.maxDeliveryBytes ≤ maxGlobalDeliveryBytes) (hbounds : AdmissionBounds a)
    (hplan : Admitted b now room a plan) : Sized (admitRoom room a plan) := by
  have hstate : ∀ s, snapshotWeight s ≤ maxStateBytes → snapshotWeight s ≤ maxGlobalStateBytes :=
    fun s hs => hs.trans (by decide)
  have hpending : ∀ m p, (admitRoom room a plan).pendingApplications.get? m = some p →
      p = plan.pending ∨ room.pendingApplications.get? m = some p := by
    intro m p hp
    change (room.pendingApplications.insert a.messageId plan.pending).get? m = some p at hp
    rw [get?_insert] at hp
    split_ifs at hp
    · exact .inl (Option.some.inj hp).symm
    · exact .inr hp
  refine ⟨?_, fun m p hp => ?_, fun m p s hp hs => ?_, ?_, fun c s hs => ?_, h.joinCount, h.joins,
    ?_, fun c queue hqueue d hd => ?_⟩
  · exact (size_insert_new hplan.noPending _).trans_le hplan.pendingCount
  · rcases hpending m p hp with rfl | hold
    · have hc := hbounds.ciphertext
      have hd := hbounds.data
      have hm := hbounds.messageId
      rw [hplan.pendingEq, pendingWeight, hplan.ciphertext, hplan.data, hplan.messageId,
        maxAdmissionBytes]
      omega
    · exact h.pendings m p hold
  · rcases hpending m p hp with rfl | hold
    · rw [hplan.pendingEq] at hs
      exact h.snapshots _ s hs
    · exact h.previous m p s hold hs
  · change (room.snapshots.insert a.senderCodeId plan.snapshot).size ≤ maxStateSnapshots
    have hcount := h.snapshotCount
    rw [missing_add]
    rcases hplan.snapshotCapacity with hle | hzero
    · omega
    · omega
  · change (room.snapshots.insert a.senderCodeId plan.snapshot).get? c = some s at hs
    rcases get?_insert_cases hs with ⟨rfl, rfl⟩ | ⟨-, hs⟩
    · exact hstate _ hplan.snapshotLimit
    · exact h.snapshots c s hs
  · have hcount := hplan.deliveryCount
    rw [deliveryCount_eq] at hcount ⊢
    rw [admitRoom_tally, length_eq_sum]
    exact hcount
  · rcases mem_pushed hqueue hd with ⟨old, hold, hd⟩ | hnew
    · exact h.deliveries c old hold d hd
    · exact ((deliveryWeight_le_queueWeight hnew).trans hplan.deliveryLimit).trans hlimit

theorem Sized.accepted (h : Sized room) (hwell : WellFormed room)
    (hlimit : b.maxDeliveryBytes ≤ maxGlobalDeliveryBytes) (clock : AcceptClock) {owner : CodeId}
    {messageId : Text} {revision : Nat} {plan : AcceptPlan}
    (hplan : Accepted b room owner messageId revision plan) :
    Sized (acceptRoom clock room owner plan) := by
  have hjoins : ∀ id j, (acceptedJoins room plan).get? id = some j → room.joins.get? id = some j :=
    fun id j hj => (acceptedJoins_get? hplan hj).1
  have htally := acceptRoom_tally (fun _ => 1) clock hplan
  have hcount := hplan.deliveryCount
  rw [deliveryCount_eq] at hcount
  rw [length_eq_sum, length_eq_sum, length_flatten] at htally
  refine ⟨?_, ?_, ?_, ?_, fun c s hs => ?_, ?_, fun id j hj => ?_, ?_,
    fun c queue hqueue d hd => ?_⟩
  · rw [acceptRoom_eq]
    exact h.pendingCount
  · rw [acceptRoom_eq]
    exact h.pendings
  · rw [acceptRoom_eq]
    exact h.previous
  · rw [acceptRoom_eq]
    have hsize := acceptedSnapshots_size clock hwell hplan
    have hjoins := acceptedJoins_sum (fun _ => 1) hplan
    rw [← size_eq_sum, ← size_eq_sum] at hjoins
    have hcount := hplan.stateCount
    change (acceptedSnapshots clock room owner plan).size ≤ _
    omega
  · rw [acceptRoom_eq] at hs
    rcases acceptedSnapshots_get? clock hplan c with ⟨requestId, join, -, hjoin, -, hget⟩ | ⟨-, hget⟩
    · rw [hget] at hs
      cases hs
      exact (h.joins requestId join hjoin).trans (by decide)
    · rw [hget] at hs
      split_ifs at hs
      · cases hs
        exact hplan.snapshotLimit.trans (by decide)
      · exact h.snapshots c s hs
  · rw [acceptRoom_eq]
    refine le_trans ?_ h.joinCount
    rw [size_eq_sum, size_eq_sum]
    exact sum_le_sum_of_get? fun id j hj => ⟨j, hjoins id j hj, Nat.le_refl 1⟩
  · rw [acceptRoom_eq] at hj
    exact h.joins id j (hjoins id j hj)
  · rw [deliveryCount_eq]
    omega
  · rw [acceptRoom_eq] at hqueue
    rcases mem_pushed hqueue hd with ⟨old, hold, hd⟩ | hnew
    · rw [get?_foldl_erase] at hold
      split_ifs at hold
      exact h.deliveries c old hold d hd
    · exact ((deliveryWeight_le_queueWeight hnew).trans hplan.deliveryLimit).trans hlimit

theorem storeRoom_onlyThinned (room : RelayRoom) (a : StoreArgs) (plan : StorePlan) :
    OnlyThinned room (storeRoom room a plan) := by
  intro c queue' hqueue'
  unfold storeRoom at hqueue'
  dsimp only at hqueue'
  split_ifs at hqueue'
  · rw [get?_modify] at hqueue'
    split_ifs at hqueue'
    · obtain ⟨queue, hqueue, rfl⟩ := Option.map_eq_some_iff.mp hqueue'
      exact ⟨queue, fun _ => True, hqueue, _, .of_sublist (drop_sublist _ _), rfl⟩
    · exact ⟨queue', fun _ => True, hqueue', .refl queue'⟩
  · exact ⟨queue', fun _ => True, hqueue', .refl queue'⟩

theorem Sized.stored (h : Sized room) {now : Nat} {a : StoreArgs} {plan : StorePlan}
    (hplan : Stored b now room a plan) : Sized (storeRoom room a plan) := by
  refine h.shrink (storeRoom_onlyThinned room a plan) (fun _ _ hp => hp) (fun _ _ hj => hj) ?_
    fun c s hs => ?_
  · change (room.snapshots.insert a.memberCodeId plan.snapshot).size ≤ maxStateSnapshots
    have hcount := h.snapshotCount
    rw [missing_add]
    rcases hplan.snapshotCapacity with hle | hzero
    · omega
    · omega
  · change (room.snapshots.insert a.memberCodeId plan.snapshot).get? c = some s at hs
    rcases get?_insert_cases hs with ⟨rfl, rfl⟩ | ⟨-, hs⟩
    · exact hplan.snapshotLimit.trans (by decide)
    · exact h.snapshots c s hs

theorem Sized.created {createdAt : Nat} {a : CreateArgs} {plan : CreatePlan}
    (hplan : Created b createdAt a plan) : Sized plan.room := by
  have hlimit := hplan.snapshotLimit
  obtain ⟨name, bytes, -, hbytes, hroom, htotal⟩ := hplan.roomEq
  rw [hroom]
  refine ⟨Nat.zero_le _, fun _ _ hp => (by cases hp), fun _ _ _ hp => (by cases hp), ?_,
    fun c s hs => ?_, Nat.zero_le _, fun _ _ hj => (by cases hj), Nat.zero_le _,
    fun _ _ hq => (by cases hq)⟩
  · exact (size_insert_new rfl _).trans_le (by decide)
  · change (OrdMap.empty.insert a.ownerCodeId _).get? c = some s at hs
    rcases get?_insert_cases hs with ⟨rfl, rfl⟩ | ⟨-, hs⟩
    · omega
    · cases hs

theorem Sized.effect (h : Sized room) (hwell : WellFormed room) {id : Text}
    (hlimit : b.maxDeliveryBytes ≤ maxGlobalDeliveryBytes) (he : Effect b op id room room') :
    Sized room' := by
  have hevicted : ∀ {r r' : RelayRoom}, Sized r → Evicted r r' → Sized r' :=
    fun hr hevict => hr.trim hevict.trim
  have hsame : ∀ {r : RelayRoom}, r.deliveries = room.deliveries → r.snapshots = room.snapshots →
      (∀ m p, r.pendingApplications.get? m = some p → room.pendingApplications.get? m = some p) →
      (∀ id j, r.joins.get? id = some j → room.joins.get? id = some j) → Sized r := by
    intro r hqueues hsnapshots hpendings hjoins
    refine h.shrink (.of_deliveries hqueues) hpendings hjoins ?_ ?_
    · exact hsnapshots ▸ h.snapshotCount
    · exact hsnapshots ▸ h.snapshots
  cases he with
  | evicted hevict => exact hevicted h hevict
  | joined hplan => exact h.joined hplan
  | unjoined => exact hsame rfl rfl (fun _ _ hp => hp) fun _ _ hj => get?_of_erase hj
  | left hplan | staged hplan =>
    rw [hplan.roomEq]
    exact hsame rfl rfl (fun _ _ hp => hp) fun _ _ hj => hj
  | unleft | unstaged => exact hsame rfl rfl (fun _ _ hp => hp) fun _ _ hj => hj
  | accepted hplan hevict => exact hevicted (h.accepted hwell hlimit _ hplan) hevict
  | admitted hbounds hplan => exact h.admitted hlimit hbounds hplan
  | committed hplan hevict =>
    obtain ⟨pendingBytes, hroom, -⟩ := hplan.roomEq
    refine hevicted ?_ hevict
    rw [hroom]
    exact hsame rfl rfl (fun _ _ hp => get?_of_erase hp) fun _ _ hj => hj
  | rolledBack hplan =>
    have hboth := (rolledBack_tidy hplan).invariant
      (I := fun r => Sized r ∧ WellFormed r)
      (fun r r' hr ht => ⟨hr.1.tidy hr.2 ht, hr.2.tidy ht⟩) ⟨h, hwell⟩
    exact hboth.1
  | @abandoned _ messageId _ _ _ selected hplan =>
    exact h.shrink (@retracted_onlyThinned room _ messageId selected rfl)
      (fun _ _ hp => get?_of_erase hp) (fun _ _ hj => hj) h.snapshotCount h.snapshots
  | stored _ hplan => exact h.stored hplan

end

namespace RoomAuthority

variable {s' s : RoomAuthority} {σ : HashOrder}

def settings (s : RoomAuthority) : List Nat :=
  [s.maxRooms, s.joinTtlMs, s.pendingTtlMs, s.replayTtlMs, s.maxDeliveryCount, s.maxDeliveryBytes]

theorem trimLoop_frame (σ : HashOrder) (fuel : Nat) (s : RoomAuthority) :
    ∃ rooms count, (trimLoop σ fuel s).1 =
      { s with rooms := rooms, globalReplayCount := count } := by
  induction fuel generalizing s with
  | zero => exact ⟨s.rooms, s.globalReplayCount, rfl⟩
  | succ fuel ih =>
    unfold trimLoop
    split_ifs
    · split
      · exact ⟨s.rooms, s.globalReplayCount, rfl⟩
      · split
        · obtain ⟨rooms, count, h⟩ := ih { s with globalReplayCount := s.globalReplayCount - 1 }
          exact ⟨rooms, count, h⟩
        · split
          · exact ⟨s.rooms, s.globalReplayCount, rfl⟩
          · rename_i roomId _ _ _ room _ _ _ replayIds _
            obtain ⟨rooms, count, h⟩ := ih { s with
              rooms := s.rooms.insert roomId { room with replayIds := replayIds }
              globalReplayCount := s.globalReplayCount - 1 }
            exact ⟨rooms, count, h⟩
    · exact ⟨s.rooms, s.globalReplayCount, rfl⟩

theorem trimReplayIds_frame {result : Except String Unit} (h : s.trimReplayIds σ = (s', result)) :
    ∃ rooms count, s' = { s with rooms := rooms, globalReplayCount := count } := by
  unfold trimReplayIds at h
  split at h
  · cases h
    exact ⟨s'.rooms, s'.globalReplayCount, rfl⟩
  · rename_i count _
    obtain ⟨rooms, count', hframe⟩ := trimLoop_frame σ count { s with globalReplayCount := count }
    rw [h] at hframe
    exact ⟨rooms, count', hframe⟩

theorem trimOrExhaust_settings (σ : HashOrder) (s : RoomAuthority) :
    (s.trimOrExhaust σ).settings = s.settings := by
  unfold trimOrExhaust
  split <;> rename_i heq <;> obtain ⟨rooms, count, rfl⟩ := trimReplayIds_frame heq <;> rfl

theorem recomputeGapAccounting_settings (h : s.recomputeGapAccounting = .ok s') :
    s'.settings = s.settings := by
  obtain ⟨pairs, -, h⟩ := bind_eq_ok.mp h
  cases h
  rfl

theorem settleAcceptance_settings {plan : AcceptPlan} {result : Except String MembershipResult}
    (h : settleAcceptance σ s plan = (s', result)) : s'.settings = s.settings := by
  unfold settleAcceptance at h
  split at h
  · rename_i heq
    obtain ⟨rooms, count, rfl⟩ := trimReplayIds_frame heq
    cases h
    rfl
  · rename_i heq
    obtain ⟨rooms, count, rfl⟩ := trimReplayIds_frame heq
    dsimp only at h
    split at h
    · cases h
      rfl
    · rename_i hgap
      cases h
      have hsame := recomputeGapAccounting_settings hgap
      exact hsame

theorem Step.settings {b : RoomAuthority} {result : Except String Reply} (h : Step σ b op s' result) :
    s'.settings = b.settings := by
  cases h with
  | unjoined _ _ hcount =>
    obtain ⟨totals, -, hcount⟩ := bind_eq_ok.mp hcount
    cases hcount
    rfl
  | accepted _ _ hsettle =>
    have hsame := settleAcceptance_settings hsettle
    exact hsame
  | committed _ _ htrim =>
    obtain ⟨rooms, count, rfl⟩ := trimReplayIds_frame htrim
    rfl
  | stored _ _ _ hcount =>
    have hsame := recomputeGapAccounting_settings hcount
    exact hsame
  | _ => rfl

theorem base_settings (σ : HashOrder) (s : RoomAuthority) (op : Op) :
    (op.base σ s).settings = s.settings := by
  unfold Op.base
  split
  · rw [pruneExpired, trimOrExhaust_settings, recountAll]
    split <;> rfl
  · rfl

theorem call_settings (s : RoomAuthority) (c : Call) : (call s c).settings = s.settings :=
  (exec_step c.1 s c.2).settings.trans (base_settings c.1 s c.2)

end RoomAuthority

variable {s : RoomAuthority}

/-- What holds of every state that can be reached, whatever is called. -/
structure Regular (s : RoomAuthority) : Prop where
  deliveryLimit : s.maxDeliveryBytes ≤ maxGlobalDeliveryBytes
  capacity : Capacity s
  wellFormed : AllRooms WellFormed s
  rising : AllRooms (Throughout Rising) s
  sized : AllRooms Sized s

theorem RoomAuthority.maxDeliveryBytes_eq {s' : RoomAuthority} (h : s'.settings = s.settings) :
    s'.maxDeliveryBytes = s.maxDeliveryBytes := by
  simp only [settings, List.cons.injEq] at h
  exact h.2.2.2.2.2.1

theorem Regular.base (h : Regular s) (σ : HashOrder) (op : Op) : Regular (op.base σ s) := by
  have hrooms : AllRooms (fun r => WellFormed r ∧ Throughout Rising r ∧ Sized r) s :=
    fun id r hr => ⟨h.wellFormed id r hr, h.rising id r hr, h.sized id r hr⟩
  have hbase := hrooms.base (fun r r' hr ht =>
    ⟨hr.1.tidy ht, rising_tidy hr.2.1 hr.1 ht, hr.2.2.tidy hr.1 ht⟩) σ op
  refine ⟨?_, h.capacity.base σ op, fun id r hr => (hbase id r hr).1,
    fun id r hr => (hbase id r hr).2.1, fun id r hr => (hbase id r hr).2.2⟩
  rw [maxDeliveryBytes_eq (base_settings σ s op)]
  exact h.deliveryLimit

theorem Regular.step {σ : HashOrder} {b s' : RoomAuthority} {op : Op}
    {result : Except String Reply} (h : Regular b) (hstep : Step σ b op s' result) :
    Regular s' := by
  refine ⟨?_, h.capacity.step hstep, ?_, ?_, ?_⟩
  · rw [maxDeliveryBytes_eq hstep.settings]
    exact h.deliveryLimit
  · exact h.wellFormed.step hstep (fun _ _ _ _ hr he => hr.effect he) fun _ _ _ hc => .created hc
  · exact h.rising.step hstep (fun id r _ hr hrise he => rising_effect hrise (h.wellFormed id r hr) he)
      fun _ _ _ hc => .created rising_rules hc
  · exact h.sized.step hstep
      (fun id r _ hr hsize he => hsize.effect (h.wellFormed id r hr) h.deliveryLimit he)
      fun _ _ _ hc => .created hc

theorem Regular.call (h : Regular s) (c : Call) : Regular (call s c) :=
  (h.base c.1 c.2).step (exec_step c.1 s c.2)

theorem Regular.new (maxRooms pendingTtlMs : Nat) :
    Regular (newWithPendingTtl maxRooms pendingTtlMs) :=
  ⟨Nat.le_refl _, ⟨Nat.zero_le _, fun _ _ h => (by cases h), Nat.zero_le _⟩, .new _ _ _,
    .new _ _ _, .new _ _ _⟩

theorem regular_after (maxRooms pendingTtlMs : Nat) (calls : List Call) :
    Regular (after maxRooms pendingTtlMs calls) :=
  @after_invariant Regular _ _ (.new _ _) (fun _ c hs => hs.call c) calls

end Abyssal.Rooms
