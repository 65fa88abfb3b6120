import Abyssal.Rooms.Quiet

/-! The queue limits over every run. Each operation checks the counters it adds to, and it
checks them on a state it has just pruned, where they are exact. -/

namespace Abyssal.Rooms

open RelayRoom RoomAuthority OrdMap List Nat

inductive Measure
  | rooms
  | owned (c : CodeId)
  | known (c : CodeId)
  | deliveryCount
  | deliveryBytes
  | pendingCount
  | pendingBytes
  | leaveCount

namespace Measure

def of : Measure → RelayRoom → Nat
  | rooms, _ => 1
  | owned c, room => if room.ownerCodeId = c then 1 else 0
  | known c, room => if room.knows c then 1 else 0
  | deliveryCount, room => room.deliveryCount
  | deliveryBytes, room => room.deliveryWeight
  | pendingCount, room => room.pendingApplications.size
  | pendingBytes, room => room.pendingWeight
  | leaveCount, room => room.leaves.size

def total (m : Measure) (s : RoomAuthority) : Nat := s.rooms.sum fun _ room => m.of room

def limit (s : RoomAuthority) : Measure → Nat
  | rooms => maxRoomsTotal
  | owned _ => s.maxRooms
  | known _ => maxRoomsPerMember
  | deliveryCount => maxGlobalDeliveries
  | deliveryBytes => maxGlobalDeliveryBytes
  | pendingCount => maxGlobalPendingApplications
  | pendingBytes => maxGlobalPendingBytes
  | leaveCount => maxGlobalLeaveRequests

end Measure

variable {room room' : RelayRoom} {c : CodeId}

theorem knows_eq_true : room.knows c = true ↔
    IsMember room.members c ∨ ∃ id j, room.joins.get? id = some j ∧ j.request.codeId = c := by
  simp only [RelayRoom.knows, Bool.or_eq_true, any_eq_true, decide_eq_true_eq,
    mem_values, IsMember]
  constructor
  · rintro (⟨m, ⟨k, hm⟩, hc⟩ | ⟨j, ⟨id, hj⟩, hc⟩)
    · exact .inl ⟨k, m, hm, hc⟩
    · exact .inr ⟨id, j, hj, hc⟩
  · rintro (⟨k, m, hm, hc⟩ | ⟨id, j, hj, hc⟩)
    · exact .inl ⟨m, ⟨k, hm⟩, hc⟩
    · exact .inr ⟨j, ⟨id, hj⟩, hc⟩

structure Lighter (room room' : RelayRoom) : Prop where
  owner : room'.ownerCodeId = room.ownerCodeId
  known : ∀ c, room'.knows c = true → room.knows c = true
  queues : OnlyThinned room room'
  pendings : ∀ m p, room'.pendingApplications.get? m = some p →
    room.pendingApplications.get? m = some p
  leaves : ∀ id l, room'.leaves.get? id = some l → room.leaves.get? id = some l

variable {P : PendingDelivery → Prop}

theorem Thinned.weight_le {queue queue' : List PendingDelivery} (h : Thinned P queue queue') :
    queueWeight queue' ≤ queueWeight queue := by
  obtain ⟨kept, hdrop, hmap⟩ := h
  have hsame : queueWeight queue' = queueWeight kept := by
    have hweights := congrArg (List.map deliveryWeight) hmap
    rw [map_map, map_map] at hweights
    exact (congrArg List.sum hweights).symm
  rw [hsame]
  exact (hdrop.sublist.map deliveryWeight).sum_le_sum fun _ _ => zero_le _

theorem OnlyThinned.deliveryWeight_le (h : OnlyThinned room room') :
    room'.deliveryWeight ≤ room.deliveryWeight := by
  refine sum_le_sum_of_get? fun c queue' hqueue' => ?_
  obtain ⟨queue, P, hqueue, hthin⟩ := h c queue' hqueue'
  exact ⟨queue, hqueue, hthin.weight_le⟩

theorem Thinned.trans {Q : PendingDelivery → Prop} {a b c : List PendingDelivery}
    (hab : Thinned P a b) (hbc : Thinned Q b c) : ∃ R, Thinned R a c := by
  obtain ⟨kept, hdrop, hmap⟩ := hab
  obtain ⟨kept', hdrop', hmap'⟩ := hbc
  have hsub : (kept'.map PendingDelivery.unnumbered).Sublist
      (kept.map PendingDelivery.unnumbered) := hmap ▸ hdrop'.sublist.map _
  obtain ⟨sub, hsub, heq⟩ := sublist_map_iff.mp hsub
  exact ⟨fun _ => True, sub, .of_sublist (hsub.trans hdrop.sublist), heq ▸ hmap'⟩

theorem Lighter.refl (room : RelayRoom) : Lighter room room :=
  ⟨rfl, fun _ h => h, .of_deliveries rfl, fun _ _ h => h, fun _ _ h => h⟩

theorem Lighter.trans {a b c : RelayRoom} (hab : Lighter a b) (hbc : Lighter b c) :
    Lighter a c := by
  refine ⟨hbc.owner.trans hab.owner, fun x hx => hab.known x (hbc.known x hx),
    fun x queue hqueue => ?_, fun m p hp => hab.pendings m p (hbc.pendings m p hp),
    fun id l hl => hab.leaves id l (hbc.leaves id l hl)⟩
  obtain ⟨middle, P, hmiddle, hthin⟩ := hbc.queues x queue hqueue
  obtain ⟨first, Q, hfirst, hthin'⟩ := hab.queues x middle hmiddle
  obtain ⟨R, hR⟩ := hthin'.trans hthin
  exact ⟨first, R, hfirst, hR⟩

theorem Measure.le_of_lighter (m : Measure) (h : Lighter room room') : m.of room' ≤ m.of room := by
  cases m with
  | rooms => exact le_refl 1
  | owned c =>
    change (if room'.ownerCodeId = c then 1 else 0) ≤ if room.ownerCodeId = c then 1 else 0
    rw [h.owner]
  | known c =>
    change (if room'.knows c = true then 1 else 0) ≤ if room.knows c = true then 1 else 0
    by_cases hc : room'.knows c = true
    · rw [if_pos hc, if_pos (h.known c hc)]
    · rw [if_neg hc]
      exact zero_le _
  | deliveryCount => exact h.queues.deliveryCount_le
  | deliveryBytes => exact h.queues.deliveryWeight_le
  | pendingCount =>
    simp only [Measure.of, size_eq_sum]
    exact sum_le_sum_of_get? fun id p hp => ⟨p, h.pendings id p hp, le_refl 1⟩
  | pendingBytes =>
    simp only [Measure.of, RelayRoom.pendingWeight]
    exact sum_le_sum_of_get? fun id p hp => ⟨p, h.pendings id p hp, le_refl _⟩
  | leaveCount =>
    simp only [Measure.of, size_eq_sum]
    exact sum_le_sum_of_get? fun id l hl => ⟨l, h.leaves id l hl, le_refl 1⟩

theorem Lighter.requests {joins : OrdMap Text PendingJoin} {leaves : OrdMap Text LeaveRequest}
    (hjoins : ∀ id j, joins.get? id = some j → room.joins.get? id = some j)
    (hleaves : ∀ id l, leaves.get? id = some l → room.leaves.get? id = some l) :
    Lighter room { room with joins := joins, leaves := leaves } := by
  refine ⟨rfl, fun c hc => ?_, .of_deliveries rfl, fun _ _ h => h, hleaves⟩
  rw [knows_eq_true] at hc ⊢
  rcases hc with hmember | ⟨id, j, hj, hcode⟩
  · exact .inl hmember
  · exact .inr ⟨id, j, hjoins id j hj, hcode⟩

theorem RelayRoom.Tidy.lighter (h : Tidy room room') : Lighter room room' := by
  cases h with
  | requests joins leaves hjoins hleaves => exact .requests hjoins hleaves
  | unstage => exact ⟨rfl, fun _ h => h, .of_deliveries rfl, fun _ _ h => h, fun _ _ h => h⟩
  | undo m p hp =>
    exact ⟨rfl, fun _ h => h, @retracted_onlyThinned room _ m (fun _ => true) rfl,
      fun _ _ hq => get?_of_erase hq, fun _ _ h => h⟩
  | trim htrim =>
    have hqueues := htrim.onlyThinned
    cases htrim <;> exact ⟨rfl, fun _ h => h, hqueues, fun _ _ h => h, fun _ _ h => h⟩

theorem RelayRoom.TidyStar.lighter (h : TidyStar room room') : Lighter room room' := by
  induction h with
  | refl => exact .refl room
  | tail _ hstep ih => exact ih.trans hstep.lighter

def Op.mayGrow : Op → Bool
  | .create .. => true
  | .requestJoin .. => true
  | .requestLeave .. => true
  | .acceptMembership .. => true
  | .admitApplication .. => true
  | _ => false

variable {op : Op} {b : RoomAuthority} {id : Text}

theorem RoomAuthority.Effect.lighter
    (he : Effect b op id room room') (hop : op.mayGrow = false) : Lighter room room' := by
  cases he with
  | evicted hevict => exact (Tidy.trim hevict.trim).lighter
  | unjoined => exact .requests (fun _ _ hj => get?_of_erase hj) fun _ _ hl => hl
  | unleft => exact .requests (fun _ _ hj => hj) fun _ _ hl => get?_of_erase hl
  | staged hplan =>
    rw [hplan.roomEq]
    exact ⟨rfl, fun _ h => h, .of_deliveries rfl, fun _ _ h => h, fun _ _ h => h⟩
  | unstaged => exact Tidy.unstage.lighter
  | committed hplan hevict =>
    obtain ⟨pendingBytes, hroom, -⟩ := hplan.roomEq
    refine .trans ?_ (Tidy.trim hevict.trim).lighter
    rw [hroom]
    exact ⟨rfl, fun _ h => h, .of_deliveries rfl, fun _ _ hp => get?_of_erase hp,
      fun _ _ h => h⟩
  | rolledBack hplan => exact (rolledBack_tidy hplan).lighter
  | @abandoned _ messageId _ _ _ selected _ =>
    exact ⟨rfl, fun _ h => h, @retracted_onlyThinned room _ messageId selected rfl,
      fun _ _ hp => get?_of_erase hp, fun _ _ h => h⟩
  | @stored _ a plan _ _ _ =>
    refine ⟨rfl, fun c hc => ?_, storeRoom_onlyThinned room a plan, fun _ _ h => h,
      fun _ _ h => h⟩
    rw [knows_eq_true] at hc ⊢
    rw [(storeRoom_members room a plan).isMember] at hc
    exact hc
  | _ => cases hop

variable {roomId : Text} {plan : CreatePlan}

section

variable {s s' b : RoomAuthority} {room room' : RelayRoom}

theorem Measure.total_le (m : Measure)
    (h : ∀ id r', s'.rooms.get? id = some r' → ∃ r, s.rooms.get? id = some r ∧ Lighter r r') :
    m.total s' ≤ m.total s := by
  refine sum_le_sum_of_get? fun id r' hr' => ?_
  obtain ⟨r, hr, hlighter⟩ := h id r' hr'
  exact ⟨r, hr, m.le_of_lighter hlighter⟩

theorem Measure.total_insert (m : Measure) (hroom : b.rooms.get? id = some room)
    (hs' : s'.rooms = b.rooms.insert id room') :
    m.total s' + m.of room = m.total b + m.of room' := by
  have hinsert := sum_insert_add b.rooms id room' fun _ r => m.of r
  rw [hroom, Option.map_some, Option.getD_some] at hinsert
  rw [Measure.total, hs']
  exact hinsert

theorem Measure.total_base (m : Measure) (σ : HashOrder) (op : Op) :
    m.total (op.base σ s) ≤ m.total s := by
  refine m.total_le fun id mid hmid => ?_
  obtain ⟨room, hroom, hpruned⟩ := base_room hmid
  exact ⟨room, hroom, hpruned.tidy.lighter⟩

def Measure.Within (m : Measure) (s : RoomAuthority) : Prop := m.total s ≤ m.limit s

theorem Measure.within_of_settings {m : Measure} (hsettings : s'.settings = s.settings)
    (hle : m.total s' ≤ m.limit s) : m.Within s' := by
  refine hle.trans ?_
  cases m with
  | owned c =>
    simp only [settings, List.cons.injEq] at hsettings
    exact hsettings.1.ge
  | _ => exact le_refl _

variable {now : Nat}

theorem Measure.total_joined {a : JoinArgs} {plan : JoinPlan} {m : Measure} (h : m.Within b)
    (hroom : b.rooms.get? a.roomId = some room) (hplan : NewJoin b now a room plan)
    (hs' : s'.rooms = b.rooms.insert a.roomId plan.room) : m.total s' ≤ m.limit b := by
  have hmoved := m.total_insert hroom hs'
  unfold Measure.Within at h
  have hknown : ∀ c, plan.room.knows c = true → room.knows c = true ∨ c = a.codeId := by
    intro c hc
    rw [knows_eq_true, hplan.roomEq] at hc
    rcases hc with hmember | ⟨id, j, hj, hcode⟩
    · exact .inl (knows_eq_true.mpr (.inl hmember))
    · dsimp only at hj
      rcases get?_insert_cases hj with ⟨rfl, rfl⟩ | ⟨-, hj⟩
      · rw [hplan.requestEq] at hcode
        exact .inr hcode.symm
      · exact .inl (knows_eq_true.mpr (.inr ⟨id, j, hj, hcode⟩))
  cases m with
  | known c =>
    have hof : (Measure.known c).of plan.room ≤ 1 := by
      simp only [Measure.of]
      split_ifs <;> decide
    by_cases hc : room.knows c = true
    · have hone : (Measure.known c).of room = 1 := if_pos hc
      omega
    · by_cases hnew : plan.room.knows c = true
      · -- Only the requester is new to the room, and was checked for the rooms it is in.
        have hcode := (hknown c hnew).resolve_left hc
        have hrooms := hplan.memberRooms.resolve_left (hcode ▸ hc)
        rw [← hcode, ← length_values_filter] at hrooms
        have hbelow : (Measure.known c).total b < maxRoomsPerMember := hrooms
        have hmax : (Measure.known c).limit b = maxRoomsPerMember := rfl
        omega
      · have hzero : (Measure.known c).of plan.room = 0 := if_neg hnew
        omega
  | _ =>
    rw [hplan.roomEq] at hmoved
    exact (add_right_cancel hmoved).trans_le h

theorem Balanced.deliveryCount (h : Balanced b) :
    b.globalDeliveryCount = Measure.deliveryCount.total b :=
  (congrArg AuthorityAccounting.deliveryCount h.counters).trans (sum_values ..)

theorem Balanced.deliveryBytes (h : Balanced b) :
    b.globalDeliveryBytes = Measure.deliveryBytes.total b :=
  (congrArg AuthorityAccounting.deliveryBytes h.counters).trans (sum_values ..)

theorem Balanced.pendingCount (h : Balanced b) :
    b.globalPendingCount = Measure.pendingCount.total b :=
  (congrArg AuthorityAccounting.pendingCount h.counters).trans (sum_values ..)

theorem Balanced.pendingBytes (h : Balanced b) :
    b.globalPendingBytes = Measure.pendingBytes.total b :=
  (congrArg AuthorityAccounting.pendingBytes h.counters).trans (sum_values ..)

theorem Measure.total_admitted {a : AdmitArgs} {plan : AdmitPlan} {m : Measure} (h : m.Within b)
    (hbalanced : Balanced b) (hcount : b.maxDeliveryCount ≤ maxGlobalDeliveries)
    (hbytes : b.maxDeliveryBytes ≤ maxGlobalDeliveryBytes)
    (hroom : b.rooms.get? a.roomId = some room) (hplan : Admitted b now room a plan)
    (hs' : s'.rooms = b.rooms.insert a.roomId (admitRoom room a plan)) :
    m.total s' ≤ m.limit b := by
  have hmoved := m.total_insert hroom hs'
  cases m with
  | deliveryCount =>
    have hnew : Measure.deliveryCount.of (admitRoom room a plan) =
        Measure.deliveryCount.of room + plan.deliveries.length := by
      simp only [Measure.of]
      rw [deliveryCount_eq, deliveryCount_eq, admitRoom_tally, length_eq_sum]
    have hbudget := hplan.budget.deliveryCount.trans hcount
    rw [hplan.globalDeliveryCount, hbalanced.deliveryCount] at hbudget
    change _ ≤ maxGlobalDeliveries
    omega
  | deliveryBytes =>
    have hnew : Measure.deliveryBytes.of (admitRoom room a plan) =
        Measure.deliveryBytes.of room + queueWeight plan.deliveries := by
      simp only [Measure.of]
      rw [deliveryWeight_eq, deliveryWeight_eq, admitRoom_tally]
      rfl
    have hbudget := hplan.budget.deliveryBytes.trans hbytes
    rw [hplan.globalDeliveryBytes, hbalanced.deliveryBytes] at hbudget
    change _ ≤ maxGlobalDeliveryBytes
    omega
  | pendingCount =>
    have hnew : Measure.pendingCount.of (admitRoom room a plan) = Measure.pendingCount.of room + 1 :=
      size_insert_new hplan.noPending _
    have hbudget := hplan.budget.pendingCount
    rw [hplan.globalPendingCount, hbalanced.pendingCount] at hbudget
    change _ ≤ maxGlobalPendingApplications
    omega
  | pendingBytes =>
    have hnew : Measure.pendingBytes.of (admitRoom room a plan) =
        Measure.pendingBytes.of room + pendingWeight plan.pending :=
      sum_insert_new hplan.noPending plan.pending fun _ p => Rooms.pendingWeight p
    have hbudget := hplan.budget.pendingBytes
    rw [hplan.globalPendingBytes, hbalanced.pendingBytes] at hbudget
    change _ ≤ maxGlobalPendingBytes
    omega
  | _ => exact (add_right_cancel hmoved).trans_le h

theorem Measure.total_left {codeId : CodeId} {requestId : Text} {request : LeaveRequest}
    {m : Measure} (h : m.Within b) (hroom : b.rooms.get? roomId = some room)
    (hplan : NewLeave b codeId requestId room room' request)
    (hs' : s'.rooms = b.rooms.insert roomId room') : m.total s' ≤ m.limit b := by
  have hmoved := m.total_insert hroom hs'
  rw [hplan.roomEq] at hmoved
  cases m with
  | leaveCount =>
    have hnew : Measure.leaveCount.of { room with leaves := room.leaves.insert requestId request } =
        Measure.leaveCount.of room + 1 := size_insert_new hplan.noLeave _
    have hbelow : Measure.leaveCount.total b < maxGlobalLeaveRequests := hplan.globalCapacity
    change _ ≤ maxGlobalLeaveRequests
    omega
  | _ => exact (add_right_cancel hmoved).trans_le h

theorem Measure.total_created {createdAt : Nat} {a : CreateArgs} {m : Measure} (h : m.Within b)
    (hplan : Created b createdAt a plan)
    (hleft : ∀ c, m = .known c → a.ownerCodeId = c →
      (b.rooms.values.filter fun r => r.knows c).length < maxRoomsPerMember)
    (hs' : s'.rooms = b.rooms.insert a.roomId plan.room) : m.total s' ≤ m.limit b := by
  have hmoved : m.total s' = m.total b + m.of plan.room := by
    rw [Measure.total, hs']
    exact sum_insert_new hplan.absent plan.room fun _ r => m.of r
  unfold Measure.Within at h
  have hnew : plan.room.ownerCodeId = a.ownerCodeId ∧ plan.room.deliveries = .empty ∧
      plan.room.pendingApplications = .empty ∧ plan.room.leaves = .empty ∧
      ∀ c, plan.room.knows c = true → c = a.ownerCodeId := by
    obtain ⟨name, bytes, -, -, hroom, -⟩ := hplan.roomEq
    rw [hroom]
    refine ⟨rfl, rfl, rfl, rfl, fun c hc => ?_⟩
    rcases knows_eq_true.mp hc with ⟨k, m, hm, hcode⟩ | ⟨id, j, hj, -⟩
    · simp only [initialRoom, get?_insert, get?_empty] at hm
      split_ifs at hm
      cases hm
      exact hcode.symm
    · cases hj
  obtain ⟨howner, hqueues, hpendings, hleaves, hknows⟩ := hnew
  have hrest : ∀ n, m.of plan.room = 0 → n = m.limit b → m.total s' ≤ n := by
    intro n hzero hn
    omega
  cases m with
  | rooms =>
    have hcapacity := hplan.capacity
    rw [size_eq_sum] at hcapacity
    exact hmoved.trans_le hcapacity
  | owned c =>
    by_cases hc : a.ownerCodeId = c
    · have howned := hplan.owned
      rw [← length_values_filter] at howned
      simp only [decide_eq_true_eq, hc] at howned
      have hone : (Measure.owned c).of plan.room = 1 := if_pos (howner.trans hc)
      change _ ≤ b.maxRooms
      have hbelow : (Measure.owned c).total b < b.maxRooms := howned
      omega
    · exact hrest _ (if_neg fun heq => hc (howner.symm.trans heq)) rfl
  | known c =>
    by_cases hc : plan.room.knows c = true
    · have hknown := hleft c rfl (hknows c hc).symm
      rw [← length_values_filter] at hknown
      have hone : (Measure.known c).of plan.room = 1 := if_pos hc
      change _ ≤ maxRoomsPerMember
      have hbelow : (Measure.known c).total b < maxRoomsPerMember := hknown
      omega
    · exact hrest _ (if_neg hc) rfl
  | deliveryCount | deliveryBytes | pendingCount | pendingBytes | leaveCount =>
    refine hrest _ ?_ rfl
    simp only [Measure.of, RelayRoom.deliveryCount, RelayRoom.deliveryWeight,
      RelayRoom.pendingWeight, hqueues, hpendings, hleaves]
    rfl

variable {clock : AcceptClock} {owner : CodeId} {messageId : Text} {revision : Nat}

theorem knows_accepted (hwell : WellFormed room) {plan : AcceptPlan}
    (hplan : Accepted b room owner messageId revision plan)
    (hc : (acceptRoom clock room owner plan).knows c = true) : room.knows c = true := by
  rw [knows_eq_true, acceptRoom_eq] at hc
  rw [knows_eq_true]
  rcases hc with ⟨k, m, hm, hcode⟩ | ⟨id, j, hj, hcode⟩
  · have hnext := nextMembers_of_resolved hwell (hwell.staging _ hplan.staged) hplan.resolved
    change plan.next.get? k = some m at hm
    generalize plan.next = next at hnext hm
    cases hnext with
    | addition k' requestId join _ _ hjoin =>
      rcases get?_insert_cases hm with ⟨rfl, rfl⟩ | ⟨-, hm⟩
      · exact .inr ⟨requestId, join, hjoin, hcode⟩
      · exact .inl ⟨k, m, hm, hcode⟩
    | removal => exact .inl ⟨k, m, get?_of_erase hm, hcode⟩
  · exact .inr ⟨id, j, (acceptedJoins_get? hplan hj).1, hcode⟩

variable {σ : HashOrder}

theorem Measure.total_accepted {plan : AcceptPlan} {result : Except String MembershipResult}
    {m : Measure} (h : m.Within b) (hbalanced : Balanced b)
    (hcount : b.maxDeliveryCount ≤ maxGlobalDeliveries)
    (hbytes : b.maxDeliveryBytes ≤ maxGlobalDeliveryBytes) (hwell : WellFormed room)
    (hroom : b.rooms.get? roomId = some room)
    (hplan : Accepted b room owner messageId revision plan)
    (hsettle : settleAcceptance σ { b with
      rooms := b.rooms.insert roomId (acceptRoom clock room owner plan) } plan = (s', result)) :
    m.total s' ≤ m.limit b := by
  generalize hmid : { b with rooms := _ } = mid at hsettle
  have hevicted : m.total s' ≤ m.total mid := by
    refine m.total_le fun id r' hr' => ?_
    have hrel := settleAcceptance_rooms σ mid plan id
    rw [hsettle, hr'] at hrel
    obtain ⟨r, hr, hevict⟩ := rel_some_right hrel
    exact ⟨r, hr, (Tidy.trim hevict.trim).lighter⟩
  refine hevicted.trans ?_
  have hmoved := m.total_insert hroom (congrArg RoomAuthority.rooms hmid).symm
  unfold Measure.Within at h
  generalize m.total mid = total at hmoved ⊢
  have hrest : m.of (acceptRoom clock room owner plan) ≤ m.of room → total ≤ m.limit b := by
    intro hle
    omega
  cases m with
  | rooms => exact hrest (le_refl 1)
  | owned c | pendingCount | pendingBytes =>
    refine hrest ?_
    rw [acceptRoom_eq]
    exact le_refl _
  | known c =>
    refine hrest ?_
    simp only [Measure.of]
    split_ifs with hnew hold
    · exact le_refl 1
    · exact absurd (knows_accepted hwell hplan hnew) hold
    · exact zero_le 1
    · exact le_refl 0
  | deliveryCount =>
    have htally := acceptRoom_tally (fun _ => 1) clock hplan
    have hbudget := hplan.deliveryCountLimit
    rw [length_eq_sum, length_eq_sum, length_flatten, ← deliveryCount_eq,
      ← deliveryCount_eq] at htally
    rw [hbalanced.deliveryCount] at hbudget
    simp only [Measure.of] at hmoved
    change _ ≤ maxGlobalDeliveries
    omega
  | deliveryBytes =>
    have htally := acceptRoom_tally deliveryWeight clock hplan
    have hbudget := hplan.deliveryBytesLimit
    rw [← deliveryWeight_eq, ← deliveryWeight_eq] at htally
    rw [hbalanced.deliveryBytes] at hbudget
    unfold queueWeight at hbudget
    simp only [Measure.of] at hmoved
    change _ ≤ maxGlobalDeliveryBytes
    omega
  | leaveCount =>
    refine hrest ?_
    rw [acceptRoom_eq]
    simp only [Measure.of, size_eq_sum]
    exact sum_le_sum_of_get? fun id l hl => ⟨l, (acceptedLeaves_get? hl).1, le_refl 1⟩

/-- The code opens a new room only while it is in fewer rooms than a member may be in. -/
def RoomLeft (code : CodeId) (s : RoomAuthority) (c : Call) : Prop :=
  match c.2 with
  | .create _ _ a => a.ownerCodeId = code →
    (s.rooms.values.filter fun room => room.knows code).length < maxRoomsPerMember
  | _ => True

instance (code : CodeId) (s : RoomAuthority) (c : Call) : Decidable (RoomLeft code s c) := by
  obtain ⟨_, op⟩ := c
  unfold RoomLeft
  split <;> infer_instance

variable {result : Except String Reply}

theorem Measure.within_step {m : Measure}
    (hregular : Regular b) (hbalanced : op.mayGrow = true → Balanced b)
    (hcount : b.maxDeliveryCount ≤ maxGlobalDeliveries)
    (hleft : ∀ c, m = .known c → RoomLeft c b (σ, op))
    (h : m.Within b) (hstep : Step σ b op s' result) : m.Within s' := by
  have hsettings := hstep.settings
  have hbytes := hregular.deliveryLimit
  refine within_of_settings hsettings ?_
  by_cases hop : op.mayGrow = true
  · have hexact := hbalanced hop
    cases hstep with
    | failed | replied => exact h
    | joined hroom hplan => exact total_joined h hroom hplan rfl
    | left hroom hplan => exact total_left h hroom hplan rfl
    | accepted hroom hplan hsettle =>
      exact total_accepted h hexact hcount hbytes (hregular.wellFormed _ _ hroom) hroom hplan
        hsettle
    | admitted hroom _ hplan => exact total_admitted h hexact hcount hbytes hroom hplan rfl
    | created hplan => exact total_created h hplan hleft rfl
    | _ => cases hop
  · refine (m.total_le fun id r' hr' => ?_).trans h
    rcases hstep.effect hr' with ⟨r, hr, he⟩ | ⟨_, _, _, _, hcreate, -⟩
    · exact ⟨r, hr, he.lighter (by simpa using hop)⟩
    · rw [hcreate] at hop
      exact absurd rfl hop

def Op.records : Op → Bool
  | .acceptMembership .. => true
  | .commitApplication .. => true
  | _ => false

theorem RoomAuthority.Effect.replay_suffix (he : Effect b op id room room')
    (hop : op.records = false) : room'.replayIds <:+ room.replayIds := by
  cases he with
  | evicted hevict =>
    obtain ⟨n, rfl⟩ := hevict
    exact drop_suffix n _
  | joined hplan | left hplan | staged hplan => exact hplan.roomEq ▸ suffix_refl _
  | accepted | committed => cases hop
  | _ => exact suffix_refl _

theorem replayTotal_step (hregular : Regular b)
    (h : b.replayTotal ≤ maxGlobalReplayIds) (hstep : Step σ b op s' result) :
    s'.replayTotal ≤ maxGlobalReplayIds := by
  by_cases hop : op.records = true
  · cases hstep with
    | failed | replied => exact h
    | accepted hroom hplan hsettle =>
      refine Capacity.settled_replay ?_ hsettle
      exact hregular.capacity_effect hroom (.accepted hplan (.refl _)) (by rfl)
    | committed hroom hplan htrim =>
      refine Capacity.trimmed_replay ?_ htrim
      exact hregular.capacity_effect hroom (.committed hplan (.refl _)) (by rfl)
    | _ => cases hop
  · by_cases hcreate : ∃ now createdAt a, op = .create now createdAt a
    · obtain ⟨now, createdAt, a, rfl⟩ := hcreate
      cases hstep with
      | failed | replied => exact h
      | created hplan =>
        obtain ⟨name, bytes, -, -, hroom, -⟩ := hplan.roomEq
        have hsum := fun r => sum_insert_new hplan.absent r fun _ r => r.replayIds.length
        rw [hroom]
        exact (hsum _).trans_le h
    · refine le_trans (replayTotal_le fun id r' hr' => ?_) h
      rcases hstep.effect hr' with ⟨r, hr, he⟩ | ⟨now, createdAt, a, _, hnew, -⟩
      · exact ⟨r, hr, (he.replay_suffix (by simpa using hop)).length_le⟩
      · exact absurd ⟨now, createdAt, a, hnew⟩ hcreate

end

structure RoomBudget (room : RelayRoom) : Prop where
  deliveryCount : room.deliveryCount ≤ maxDeliveriesPerRoom
  pendingCount : room.pendingApplications.size ≤ maxPendingApplications
  pendingBytes : room.pendingWeight ≤ maxPendingBytes
  joinCount : room.joins.size ≤ maxJoinRequests
  leaveCount : room.leaves.size ≤ maxLeaveRequests
  replayCount : room.replayIds.length ≤ maxReplayIds

/-- The limits on rooms, requests, queues, pending applications and replay entries, all but the one
on the rooms that a member is in. -/
structure QueueBudgets (maxRooms : Nat) (s : RoomAuthority) : Prop where
  perRoom : AllRooms RoomBudget s
  rooms : s.rooms.size ≤ maxRoomsTotal
  roomsPerOwner : ∀ c, (s.rooms.values.filter fun room => room.ownerCodeId = c).length ≤ max maxRooms 1
  deliveryCount : s.rooms.sum (fun _ room => room.deliveryCount) ≤ maxGlobalDeliveries
  deliveryBytes : s.rooms.sum (fun _ room => room.deliveryWeight) ≤ maxGlobalDeliveryBytes
  pendingCount : s.rooms.sum (fun _ room => room.pendingApplications.size) ≤
    maxGlobalPendingApplications
  pendingBytes : s.rooms.sum (fun _ room => room.pendingWeight) ≤ maxGlobalPendingBytes
  leaveCount : s.rooms.sum (fun _ room => room.leaves.size) ≤ maxGlobalLeaveRequests
  replayCount : s.rooms.sum (fun _ room => room.replayIds.length) ≤ maxGlobalReplayIds

def MemberBudget (code : CodeId) (s : RoomAuthority) : Prop :=
  (s.rooms.values.filter fun room => room.knows code).length ≤ maxRoomsPerMember

theorem Op.prunes_of_mayGrow (h : op.mayGrow = true) : ∃ now, op.pruneClock = some now := by
  cases op with
  | create now | requestJoin now | requestLeave now | admitApplication now => exact ⟨now, rfl⟩
  | acceptMembership clock => exact ⟨clock.now, rfl⟩
  | _ => cases h

def RequestBudget (room : RelayRoom) : Prop :=
  room.pendingWeight ≤ maxPendingBytes ∧ room.leaves.size ≤ maxLeaveRequests

theorem RequestBudget.lighter (h : RequestBudget room)
    (hlighter : Lighter room room') : RequestBudget room' :=
  ⟨(Measure.pendingBytes.le_of_lighter hlighter).trans h.1,
    (Measure.leaveCount.le_of_lighter hlighter).trans h.2⟩

theorem RequestBudget.effect
    (h : RequestBudget room) (hexact : op.mayGrow = true → Exact room)
    (he : Effect b op id room room') : RequestBudget room' := by
  by_cases hop : op.mayGrow = true
  · have hcounted := hexact hop
    cases he with
    | evicted hevict => exact h.lighter (Tidy.trim hevict.trim).lighter
    | joined hplan =>
      rw [hplan.roomEq]
      exact h
    | left hplan =>
      rw [hplan.roomEq]
      exact ⟨h.1, (size_insert_new hplan.noLeave _).trans_le hplan.capacity⟩
    | @accepted clock owner _ _ _ plan _ _ hplan hevict =>
      refine RequestBudget.lighter ?_ (Tidy.trim hevict.trim).lighter
      rw [acceptRoom_eq]
      refine ⟨h.1, le_trans ?_ h.2⟩
      rw [size_eq_sum, size_eq_sum]
      exact sum_le_sum_of_get? fun id l hl => ⟨l, (acceptedLeaves_get? hl).1, le_refl 1⟩
    | admitted _ hplan =>
      have hbytes := (hcounted.admitted hplan).pendingBytes
      exact ⟨hbytes.ge.trans hplan.budget.roomPendingBytes, h.2⟩
    | _ => cases hop
  · exact h.lighter (he.lighter (by simpa using hop))

structure Budgeted (maxRooms pendingTtlMs : Nat) (s : RoomAuthority) : Prop where
  regular : Regular s
  settings : s.settings = (newWithPendingTtl maxRooms pendingTtlMs).settings
  replay : s.replayTotal ≤ maxGlobalReplayIds
  requests : AllRooms RequestBudget s

theorem replayTotal_base (σ : HashOrder) (s : RoomAuthority) (op : Op) :
    (op.base σ s).replayTotal ≤ s.replayTotal := by
  refine replayTotal_le fun id mid hmid => ?_
  obtain ⟨room, hroom, hpruned⟩ := base_room hmid
  exact ⟨room, hroom, hpruned.tidy.replay_suffix.length_le⟩

variable {maxRooms pendingTtlMs : Nat} {s : RoomAuthority}

section Call

variable (h : Budgeted maxRooms pendingTtlMs s) (c : Call)

include h

theorem Budgeted.balanced (hgrow : c.2.mayGrow = true) : Balanced (c.2.base c.1 s) := by
  obtain ⟨now, hnow⟩ := Op.prunes_of_mayGrow hgrow
  rw [Op.base, hnow]
  exact h.regular.balanced_prune c.1 now

theorem Budgeted.call : Budgeted maxRooms pendingTtlMs (Rooms.call s c) := by
  have hregular := h.regular.base c.1 c.2
  have hstep := exec_step c.1 s c.2
  refine ⟨h.regular.call c, (call_settings s c).trans h.settings, ?_, ?_⟩
  · exact replayTotal_step hregular ((replayTotal_base c.1 s c.2).trans h.replay) hstep
  · refine h.requests.call c (fun _ _ hr ht => hr.lighter ht.lighter)
      (fun id room _ hroom hr he => hr.effect (fun hgrow => (h.balanced c hgrow).rooms id room hroom)
        he) fun _ _ plan hplan => ?_
    obtain ⟨name, bytes, -, -, hroom, -⟩ := hplan.roomEq
    rw [hroom]
    exact ⟨zero_le _, zero_le _⟩

theorem Budgeted.within_call {m : Measure} (hleft : ∀ code, m = .known code → RoomLeft code s c)
    (hm : m.Within s) : m.Within (Rooms.call s c) := by
  have hsettings := (base_settings c.1 s c.2).trans h.settings
  have hcount : (c.2.base c.1 s).maxDeliveryCount ≤ maxGlobalDeliveries := by
    simp only [RoomAuthority.settings, List.cons.injEq] at hsettings
    exact hsettings.2.2.2.2.1.le
  have hbase : m.Within (c.2.base c.1 s) :=
    Measure.within_of_settings (base_settings c.1 s c.2) ((m.total_base c.1 c.2).trans hm)
  refine Measure.within_step (h.regular.base c.1 c.2) (h.balanced c) hcount (fun code heq => ?_) hbase
    (exec_step c.1 s c.2)
  -- Pruning can only take rooms away from what a code is known to.
  have hguard := hleft code heq
  unfold RoomLeft at hguard ⊢
  cases hop : c.2 with
  | create now createdAt a =>
    rw [hop] at hguard
    dsimp only at hguard ⊢
    intro howner
    have hbelow := hguard howner
    rw [← length_values_filter] at hbelow ⊢
    exact ((Measure.known code).total_base c.1 _).trans_lt hbelow
  | _ => trivial

end Call

theorem Budgeted.new (maxRooms pendingTtlMs : Nat) :
    Budgeted maxRooms pendingTtlMs (newWithPendingTtl maxRooms pendingTtlMs) :=
  ⟨.new _ _, rfl, zero_le _, .new _ _ _⟩

theorem budgeted_after (maxRooms pendingTtlMs : Nat) (calls : List Call) :
    Budgeted maxRooms pendingTtlMs (after maxRooms pendingTtlMs calls) :=
  after_invariant (.new _ _) (fun _ c h => h.call c) calls

theorem Measure.within_after (m : Measure) {calls : List Call}
    (h : Along (fun s c => ∀ code, m = .known code → RoomLeft code s c) call
      (newWithPendingTtl maxRooms pendingTtlMs) calls) :
    m.Within (after maxRooms pendingTtlMs calls) :=
  (@Along.invariant _ _ call _ (fun s => Budgeted maxRooms pendingTtlMs s ∧ m.Within s)
    (fun _ c hs hleft => ⟨hs.1.call c, hs.1.within_call c hleft hs.2⟩) _ _
    ⟨.new _ _, zero_le _⟩ h).2

theorem Measure.within_after_shared {m : Measure} (hm : ∀ code, m ≠ .known code)
    (maxRooms pendingTtlMs : Nat) (calls : List Call) :
    m.Within (after maxRooms pendingTtlMs calls) :=
  m.within_after (.of_forall (fun _ _ _ code heq => absurd heq (hm code)) _)

theorem roomsPerOwner_after (maxRooms pendingTtlMs : Nat) (calls : List Call) (c : CodeId) :
    ((after maxRooms pendingTtlMs calls).rooms.values.filter fun room =>
      room.ownerCodeId = c).length ≤ max maxRooms 1 := by
  have howned := @Measure.within_after_shared (.owned c) nofun maxRooms pendingTtlMs calls
  have hsettings := (budgeted_after maxRooms pendingTtlMs calls).settings
  simp only [RoomAuthority.settings, List.cons.injEq] at hsettings
  have hmaxRooms : (after maxRooms pendingTtlMs calls).maxRooms = max maxRooms 1 := hsettings.1
  rw [← hmaxRooms, ← length_values_filter]
  simp only [decide_eq_true_eq]
  exact howned

theorem roomBudget_after (maxRooms pendingTtlMs : Nat) (calls : List Call) :
    AllRooms RoomBudget (after maxRooms pendingTtlMs calls) := by
  intro id room hroom
  have h := budgeted_after maxRooms pendingTtlMs calls
  have hsized := h.regular.sized id room hroom
  have hrequests := h.requests id room hroom
  exact ⟨hsized.deliveryCount, hsized.pendingCount, hrequests.1, hsized.joinCount, hrequests.2,
    h.regular.capacity.replay id room hroom⟩

theorem memberBudget_after {calls : List Call} {code : CodeId}
    (h : Along (RoomLeft code) call (newWithPendingTtl maxRooms pendingTtlMs) calls) :
    MemberBudget code (after maxRooms pendingTtlMs calls) := by
  have hguard := @Along.strengthen _ _ call _ (fun _ => True)
    (fun s c => ∀ code', Measure.known code = .known code' → RoomLeft code' s c)
    (fun _ _ _ _ => trivial) (fun _ _ _ hleft _ heq => Measure.known.inj heq ▸ hleft) _ _ trivial h
  have hknown := (Measure.known code).within_after hguard
  unfold MemberBudget
  rw [← length_values_filter]
  exact hknown

/-- All limits but one hold in every run, and that on the rooms of a member holds in every run in
which the member opens no room at the limit. -/
theorem queueBudgets_after (maxRooms pendingTtlMs : Nat) (calls : List Call) :
    QueueBudgets maxRooms (after maxRooms pendingTtlMs calls) ∧
    ∀ code, Along (RoomLeft code) call (newWithPendingTtl maxRooms pendingTtlMs) calls →
      MemberBudget code (after maxRooms pendingTtlMs calls) := by
  have hrooms := roomBudget_after maxRooms pendingTtlMs calls
  have howners := roomsPerOwner_after maxRooms pendingTtlMs calls
  have hbudgeted := budgeted_after maxRooms pendingTtlMs calls
  have hshared := fun m hm => @Measure.within_after_shared m hm maxRooms pendingTtlMs calls
  refine ⟨⟨hrooms, hbudgeted.regular.capacity.rooms, howners, ?_, ?_, ?_, ?_, ?_, hbudgeted.replay⟩,
    fun _ => memberBudget_after⟩
  · exact hshared .deliveryCount nofun
  · exact hshared .deliveryBytes nofun
  · exact hshared .pendingCount nofun
  · exact hshared .pendingBytes nofun
  · exact hshared .leaveCount nofun

set_option maxRecDepth 100000 in
open Scenario in
theorem queueBudgets_bobJoins :
    Along (RoomLeft 1) call (newWithPendingTtl 5 600000) (calls bobJoins) ∧
      MemberBudget 1 (after 5 600000 (calls bobJoins)) := by
  have hguard : Along (RoomLeft 1) call (newWithPendingTtl 5 600000) (calls bobJoins) := by
    decide
  exact ⟨hguard, (queueBudgets_after 5 600000 _).2 1 hguard⟩

/-! A creation looks at the rooms its owner owns and not at those the owner is in. -/

namespace Scenario

def roomName (n : Nat) : Text := [UInt8.ofNat (97 + n / 26), UInt8.ofNat (97 + n % 26)]

def createAs (codeId : CodeId) (username : Text) (n : UInt8) (roomId : Text) : CreateArgs :=
  { ownerCodeId := codeId, ownerUsername := username, roomId, groupId, epoch := 0, revision := 0
    membershipDigest := digest 0, stableIdentity := identity n, policy := {}
    visibility := .priv, stateEnvelope := [1] }

def askToJoin (roomId : Text) : JoinArgs :=
  { codeId := 1, username := alice, roomId, requestId := [49], stableIdentity := identity 1
    keyPackage := [1], stateEnvelope := [1] }

def asked : Nat → List Op
  | 0 => []
  | n + 1 => asked n ++ [.create 0 0 (createAs 2 bob 2 (roomName n)),
      .requestJoin 0 (askToJoin (roomName n))]

/-- Alice asks to join twenty-nine rooms and then opens rooms of her own. -/
def opened : Nat → List Op
  | 0 => asked 29
  | n + 1 => opened n ++ [.create 0 0 (createAs 1 alice 1 (roomName (29 + n)))]

end Scenario

section

open Scenario

variable {n : Nat}

theorem roomName_formed (hn : n < 129) : validateRoomId (roomName n) = .ok () := by
  revert n
  decide

theorem roomName_injective {m : Nat} (hm : m < 129) (hn : n < 129) (h : roomName m = roomName n) :
    m = n := by
  simp only [roomName, List.cons.injEq, ← UInt8.toNat_inj, UInt8.toNat_ofNat'] at h
  omega

structure Lobbies (mine known rooms : Nat) (s : RoomAuthority) : Prop where
  ready : Ready 0 s
  settings : s.settings = (newWithPendingTtl 100 600000).settings
  size : s.rooms.size = rooms
  owned : (Measure.owned 1).total s = mine
  knownTo : (Measure.known 1).total s = known
  names : ∀ n, rooms ≤ n → n < 129 → s.rooms.get? (roomName n) = none
  count : s.globalSnapshotCount ≤ rooms + known
  bytes : s.globalSnapshotBytes ≤ 98 * rooms + known

theorem createAs_formed (c : CodeId) {username : Text} {n : UInt8}
    (hroomId : validateRoomId roomId = .ok ()) (husername : validateUsername username = .ok ())
    (hidentity : validateStableIdentity (identity n) = .ok ()) :
    (createAs c username n roomId).Formed :=
  ⟨hroomId, husername, rfl, rfl, hidentity, ⟨cons_ne_nil _ _, (by decide : 1 ≤ maxStateBytes)⟩,
    rfl, rfl⟩

theorem initialRoom_knows (a : CreateArgs) (name : Text) (snapshot : StateSnapshot) (bytes : Nat)
    (c : CodeId) : (initialRoom a name snapshot bytes).knows c = decide (a.ownerCodeId = c) := by
  simp [RelayRoom.knows, initialRoom, OrdMap.values, OrdMap.insert, OrdMap.empty, OrdMap.insertIn]

variable {mine known rooms : Nat}

theorem Lobbies.create (h : Lobbies mine known rooms s) {name : Text}
    {n : UInt8} (hname : validateUsername name = .ok () ∧ name.length = 1)
    (hidentity : validateStableIdentity (identity n) = .ok ()) (hrooms : rooms < 129)
    (hknown : known ≤ rooms) (howned : (Measure.owned c).total s < 100) :
    ∃ plan, Created s 0 (createAs c name n (roomName rooms)) plan ∧
      (call s (.byKey, .create 0 0 (createAs c name n (roomName rooms)))).rooms =
        s.rooms.insert (roomName rooms) plan.room ∧
      Lobbies (mine + if c = 1 then 1 else 0) (known + if c = 1 then 1 else 0) (rooms + 1)
        (call s (.byKey, .create 0 0 (createAs c name n (roomName rooms)))) := by
  have hset := h.settings
  simp only [RoomAuthority.settings, List.cons.injEq] at hset
  have hsize := h.size
  have hcount := h.count
  have hbytes := h.bytes
  have hweight : initialWeight (createAs c name n (roomName rooms)) ≤ 98 := by
    unfold initialWeight
    change 1 + (name.length + stableIdentityBytes) ≤ 98
    rw [hname.2]
    decide
  have hvacant : Vacant s (createAs c name n (roomName rooms)) := by
    refine ⟨?_, ?_, h.names rooms (le_refl _) hrooms, ?_, ?_⟩
    · exact lt_of_eq_of_lt hsize (hrooms.trans (by decide))
    · rw [hset.1, ← length_values_filter]
      simp only [decide_eq_true_eq]
      exact howned
    · have hlimit : 2 * 129 ≤ maxGlobalStateSnapshots := by decide
      omega
    · have hlimit : 99 * 129 + 98 ≤ maxGlobalStateBytes := by decide
      omega
  have hformed := createAs_formed c (roomName_formed hrooms) hname.1 hidentity
  obtain ⟨plan, hplan, hcall, hready⟩ := h.ready.create (σ := .byKey) hformed hvacant 0
  obtain ⟨owner, bytes, hcanonical, hinitial, hroom, hplanBytes⟩ := hplan.roomEq
  rw [initialSnapshot_weight hcanonical] at hinitial
  have habsent := hvacant.absent
  have hinserted : ∀ m : Measure, m.total (call s (.byKey, .create 0 0
      (createAs c name n (roomName rooms)))) = m.total s + m.of plan.room := by
    intro m
    rw [hcall]
    exact sum_insert_new habsent _ _
  refine ⟨plan, hplan, by rw [hcall]; rfl, hready, ?_, ?_, ?_, ?_, ?_, ?_, ?_⟩
  · exact (call_settings ..).trans h.settings
  · rw [hcall]
    exact (size_insert_new habsent _).trans (congrArg (· + 1) hsize)
  · rw [hinserted, h.owned, hroom]
    rfl
  · rw [hinserted, h.knownTo, hroom]
    simp only [Measure.of, initialRoom_knows, decide_eq_true_eq]
    rfl
  · intro m hm hlimit
    rw [hcall]
    refine (get?_insert_of_ne _ _ ?_).trans (h.names m (le_of_succ_le hm) hlimit)
    intro heq
    have hname := roomName_injective hrooms hlimit heq
    omega
  · rw [hcall]
    change plan.globalSnapshotCount ≤ _
    rw [hplan.globalSnapshotCount]
    omega
  · rw [hcall]
    change plan.globalSnapshotBytes ≤ _
    omega

theorem Lobbies.join {s₀ : RoomAuthority} (h : Lobbies mine known (rooms + 1) s)
    (hrooms : rooms < 129) (hknown : known < maxRoomsPerMember)
    (hplan : Created s₀ 0 (createAs 2 bob 2 (roomName rooms)) plan)
    (hroom : s.rooms.get? (roomName rooms) = some plan.room) :
    Lobbies mine (known + 1) (rooms + 1)
      (call s (.byKey, .requestJoin 0 (askToJoin (roomName rooms)))) := by
  have hset := h.settings
  simp only [RoomAuthority.settings, List.cons.injEq] at hset
  have hcount := h.count
  have hbytes := h.bytes
  obtain ⟨owner, bytes, hcanonical, hinitial, hroomEq, -⟩ := hplan.roomEq
  rw [initialSnapshot_weight hcanonical] at hinitial
  cases (canonicalUsername_eq_ok.mp hcanonical).2
  have hformed : (askToJoin (roomName rooms)).Formed :=
    ⟨rfl, rfl, rfl, ⟨cons_ne_nil _ _, (by decide : 1 ≤ maxKeyPackageBytes)⟩, rfl⟩
  have hwelcoming : Welcoming s (askToJoin (roomName rooms)) plan.room := by
    refine ⟨?_, ?_, ?_, ?_, ?_, ?_, ?_, ?_, ?_⟩
    · rw [← length_values_filter]
      exact h.knownTo.trans_lt hknown
    · rw [hroomEq]; rfl
    · rw [hroomEq]; rfl
    · rw [hroomEq]; rfl
    · rw [hroomEq]; rfl
    · rw [hroomEq]
      exact (by decide : 1 < maxStateSnapshots)
    · rw [hroomEq]
      change bytes + 1 ≤ maxStateBytes
      rw [hinitial]
      exact (by decide : 1 + (1 + stableIdentityBytes) + 1 ≤ maxStateBytes)
    · have hlimit : 130 + maxRoomsPerMember < maxGlobalStateSnapshots := by decide
      omega
    · have hlimit : 98 * 130 + maxRoomsPerMember ≤ maxGlobalStateBytes := by decide
      change s.globalSnapshotBytes + 1 ≤ _
      omega
  have hclock : 0 < saturatingAdd 0 s.joinTtlMs := by
    rw [hset.2.1]
    decide
  obtain ⟨plan', hjoin, hcall, hready⟩ := h.ready.join (σ := .byKey) hformed hroom hwelcoming hclock
  have hbalance : ∀ m : Measure, m.total (call s (.byKey, .requestJoin 0
      (askToJoin (roomName rooms)))) + m.of plan.room = m.total s + m.of plan'.room := by
    intro m
    have hsum := s.rooms.sum_insert_add (roomName rooms) plan'.room fun _ r => m.of r
    rw [hroom] at hsum
    rw [hcall]
    exact hsum
  refine ⟨hready, (call_settings ..).trans h.settings, ?_, ?_, ?_, ?_, ?_, ?_⟩
  · rw [hcall]
    exact (size_insert_of_get? hroom).trans h.size
  · have hsum := hbalance (.owned 1)
    rw [hjoin.roomEq, h.owned] at hsum
    exact add_right_cancel hsum
  · have hsum := hbalance (.known 1)
    have hbefore : (Measure.known 1).of plan.room = 0 := by
      rw [hroomEq]
      rfl
    have hafter : (Measure.known 1).of plan'.room = 1 := by
      refine if_pos (knows_eq_true.mpr (.inr ⟨[49], ⟨plan'.request, [1]⟩, ?_, ?_⟩))
      · rw [hjoin.roomEq]
        exact get?_insert_self ..
      · rw [hjoin.requestEq]
        rfl
    rw [hbefore, hafter, h.knownTo, add_zero] at hsum
    exact hsum
  · intro n hn hlimit
    rw [hcall]
    refine (get?_insert_of_ne _ _ ?_).trans (h.names n hn hlimit)
    intro heq
    have hname := roomName_injective hrooms hlimit heq
    omega
  · rw [hcall]
    change plan'.globalStateCount ≤ _
    rw [hjoin.stateCount]
    omega
  · rw [hcall]
    change plan'.globalStateBytes ≤ _
    rw [hjoin.stateBytes]
    change s.globalSnapshotBytes + 1 ≤ _
    omega

theorem lobbies_asked (n : Nat) (hn : n ≤ 29) :
    Lobbies 0 n n (after 100 600000 (calls (asked n))) := by
  induction n with
  | zero =>
    exact ⟨⟨.new _ _, ⟨.new _ _ _, rfl⟩, zero_le _, .new _ _ _⟩, rfl, rfl, rfl, rfl,
      fun _ _ _ => rfl, zero_le _, zero_le _⟩
  | succ n ih =>
    have h := ih (le_of_succ_le hn)
    have howned : (Measure.owned 2).total (after 100 600000 (calls (asked n))) < 100 := by
      refine lt_of_le_of_lt (sum_le_size_mul (b := 1) fun _ _ _ => ?_) ?_
      · simp only [Measure.of]
        split_ifs
        · exact le_refl 1
        · exact zero_le 1
      · rw [h.size]
        omega
    obtain ⟨plan, hplan, hrooms, hlobbies⟩ := h.create (c := 2) (n := 2)
      (show validateUsername bob = .ok () ∧ bob.length = 1 from ⟨rfl, rfl⟩) rfl (by omega) (le_refl n) howned
    have hlobbies : Lobbies 0 n (n + 1) _ := hlobbies
    have hlimit : 29 ≤ maxRoomsPerMember := by decide
    have hjoin := hlobbies.join (by omega) (by omega) hplan
      (by rw [hrooms, get?_insert_self])
    rw [asked, calls, map_append, after, runFrom, foldl_append]
    exact hjoin

theorem lobbies_opened (n : Nat) (hn : n ≤ 100) :
    Lobbies n (29 + n) (29 + n) (after 100 600000 (calls (opened n))) := by
  induction n with
  | zero => exact lobbies_asked 29 (le_refl _)
  | succ n ih =>
    have h := ih (le_of_succ_le hn)
    obtain ⟨plan, -, -, hlobbies⟩ := h.create (c := 1) (n := 1)
      (show validateUsername alice = .ok () ∧ alice.length = 1 from ⟨rfl, rfl⟩) rfl (by omega)
      (le_refl _) (by rw [h.owned]; omega)
    rw [opened, calls, map_append]
    exact after_append .. ▸ hlobbies

theorem roomsPerMember_exceeded :
    ¬ MemberBudget 1 (after 100 600000 (calls (opened 100))) := by
  intro hknown
  have hlobbies := lobbies_opened 100 (le_refl _)
  unfold MemberBudget at hknown
  rw [← length_values_filter] at hknown
  have htotal := hlobbies.knownTo.ge.trans hknown
  exact absurd htotal (by decide)

end

end Abyssal.Rooms
