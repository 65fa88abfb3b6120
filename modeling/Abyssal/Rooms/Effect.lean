import Abyssal.Rooms.DeliveryPlans
import Abyssal.Rooms.Tidy

/-! What one call can do: the state is pruned, and one step of the call's own kind follows.
Every invariant of the state or of a room is proved from this. -/

namespace Abyssal.Rooms

open OrdMap List

def Op.pruneClock : Op → Option Nat
  | .create now _ _ => some now
  | .requestJoin now _ => some now
  | .removeJoin now _ _ _ => some now
  | .requestLeave now _ _ _ => some now
  | .removeLeave now _ _ _ => some now
  | .beginMembership now _ _ => some now
  | .acceptMembership clock _ _ _ _ => some clock.now
  | .rollbackMembership now _ _ _ _ => some now
  | .admitApplication now _ => some now
  | .commitApplication _ _ _ => none
  | .rollbackApplication _ _ => none
  | .storeSnapshot now _ => some now
  | .prune now => some now
  | .deliveriesForMember now _ _ => some now
  | .memberInfo now _ _ => some now
  | .memberCodeIds now _ => some now
  | .delete now _ _ => some now
  | .wipe => none

def Op.mayOnlyReply : Op → Bool
  | .requestJoin .. => true
  | .requestLeave .. => true
  | .prune .. => true
  | .deliveriesForMember .. => true
  | .memberInfo .. => true
  | .memberCodeIds .. => true
  | _ => false

namespace RoomAuthority

open RelayRoom

theorem retractFrom_rooms (m : Text) {cs : List CodeId} (hnd : cs.Nodup) (room : RelayRoom) :
    ∃ n, (retractFrom m cs room).1 = { room with
      deliveries := (cs.take n).foldl (fun ds c => ds.modify c fun queue =>
        renumbered (room.memberActive c) (room.revisionOf c) (withoutMessage m queue))
        room.deliveries } ∧
      ((retractFrom m cs room).2 = .ok () → cs.take n = cs) ∧
      ∀ reason, (retractFrom m cs room).2 = .error reason →
        ∃ c ∈ cs, wordMax < room.revisionOf c + 1 + (withoutMessage m (room.queueOf c)).length := by
  induction cs generalizing room with
  | nil => exact ⟨0, rfl, fun _ => rfl, fun _ h => by cases h⟩
  | cons c cs ih =>
    obtain ⟨hnot, hnd'⟩ := nodup_cons.mp hnd
    have hmodify := room.deliveries.modify_modify c (withoutMessage m)
      (renumbered (room.memberActive c) (room.revisionOf c))
    cases hc : compactDeliveryRevisions
        { room with deliveries := room.deliveries.modify c (withoutMessage m) } c with
    | error reason =>
      have herr := compactDeliveryRevisions_error hc
      simp only [retractFrom, hc]
      refine ⟨1, ?_, fun h => (by cases h), fun _ _ => ⟨c, mem_cons_self .., ?_⟩⟩
      · rw [take_succ_cons, take_zero, foldl_cons, foldl_nil, ← hmodify]
        exact congrArg (fun d => { room with deliveries := d }) herr.symm
      · by_contra hle
        have hqueue : RelayRoom.queueOf
            { room with deliveries := room.deliveries.modify c (withoutMessage m) } c =
            withoutMessage m (room.queueOf c) := by
          simp only [queueOf, get?_modify, if_true]
          cases room.deliveries.get? c <;> rfl
        obtain ⟨room', hok⟩ := @compactDeliveryRevisions_isOk
          { room with deliveries := room.deliveries.modify c (withoutMessage m) } c
          (by rw [hqueue]; exact Nat.not_lt.mp hle)
        rw [hc] at hok
        cases hok
    | ok room' =>
      have hroom' := compactDeliveryRevisions_ok hc
      simp only [retractFrom, hc]
      obtain ⟨n, heq, hall, hfail⟩ := ih hnd' room'
      have hds : room'.deliveries = room.deliveries.modify c fun queue =>
          renumbered (room.memberActive c) (room.revisionOf c) (withoutMessage m queue) := by
        rw [hroom', ← hmodify]
        rfl
      refine ⟨n + 1, ?_, fun h => ?_, fun reason h => ?_⟩
      · rw [heq, take_succ_cons, foldl_cons, ← hds, hroom']
        rfl
      · rw [take_succ_cons, hall h]
      · obtain ⟨c', hc', hlt⟩ := hfail reason h
        have hne : c ≠ c' := fun he => hnot (he ▸ hc')
        have hqueue : room'.queueOf c' = room.queueOf c' := by
          rw [queueOf, queueOf, hds, get?_modify, if_neg hne]
        have hrev : room'.revisionOf c' = room.revisionOf c' := by
          rw [hroom']
          rfl
        rw [hqueue, hrev] at hlt
        exact ⟨c', mem_cons_of_mem _ hc', hlt⟩

def rolledBackRoom (room : RelayRoom) (messageId : Text) (plan : RollbackPlan) : RelayRoom :=
  rollbackRoom { room with
    pendingApplications := room.pendingApplications.erase messageId
    deliveries := room.retracted messageId fun _ => true } plan

def abandonedRoom (room : RelayRoom) (messageId : Text) (selected : CodeId → Bool) : RelayRoom :=
  -- The room of a rollback that stopped at a queue it could not renumber.
  { room with
    pendingApplications := room.pendingApplications.erase messageId
    deliveries := room.retracted messageId selected }

/-- What a call can make of the state it has pruned, and what it answers. -/
inductive Step (σ : HashOrder) (b : RoomAuthority) :
    Op → RoomAuthority → Except String Reply → Prop
  | failed {op : Op} (reason : String) : Step σ b op b (.error reason)
  | replied {op : Op} (reply : Reply) (hop : op.mayOnlyReply = true) : Step σ b op b (.ok reply)
  | joined {now : Nat} {a : JoinArgs} {room : RelayRoom} {plan : JoinPlan}
      (hroom : b.rooms.get? a.roomId = some room) (hplan : NewJoin b now a room plan) :
      Step σ b (.requestJoin now a)
        { b with
          rooms := b.rooms.insert a.roomId plan.room
          globalSnapshotCount := plan.globalStateCount
          globalSnapshotBytes := plan.globalStateBytes } (.ok (.join plan.request))
  | unjoined {now : Nat} {owner : CodeId} {roomId requestId : Text} {room : RelayRoom}
      {join : PendingJoin} {s' : RoomAuthority} (hroom : b.rooms.get? roomId = some room)
      (hjoin : room.joins.get? requestId = some join)
      (hcount : recomputeStateAccounting { b with
        rooms := b.rooms.insert roomId { room with joins := room.joins.erase requestId } } =
          .ok s') :
      Step σ b (.removeJoin now owner roomId requestId) s' (.ok (.join join.request))
  | unjoinedLate {now : Nat} {owner : CodeId} {roomId requestId : Text} {room : RelayRoom}
      {join : PendingJoin} {reason : String} (hroom : b.rooms.get? roomId = some room)
      (hjoin : room.joins.get? requestId = some join)
      (hcount : recomputeStateAccounting { b with
        rooms := b.rooms.insert roomId { room with joins := room.joins.erase requestId } } =
          .error reason) :
      Step σ b (.removeJoin now owner roomId requestId)
        { b with rooms := b.rooms.insert roomId { room with joins := room.joins.erase requestId } }
        (.error reason)
  | left {now : Nat} {codeId : CodeId} {roomId requestId : Text} {room room' : RelayRoom}
      {request : LeaveRequest} (hroom : b.rooms.get? roomId = some room)
      (hplan : NewLeave b codeId requestId room room' request) :
      Step σ b (.requestLeave now codeId roomId requestId)
        { b with rooms := b.rooms.insert roomId room' } (.ok (.leave request))
  | unleft {now : Nat} {owner : CodeId} {roomId requestId : Text} {room : RelayRoom}
      {request : LeaveRequest} (hroom : b.rooms.get? roomId = some room)
      (hleave : room.leaves.get? requestId = some request) :
      Step σ b (.removeLeave now owner roomId requestId)
        { b with
          rooms := b.rooms.insert roomId { room with leaves := room.leaves.erase requestId } }
        (.ok (.leave request))
  | staged {now : Nat} {owner : CodeId} {t staged : MembershipTransition} {room room' : RelayRoom}
      (hroom : b.rooms.get? t.roomId = some room) (hplan : Staged b now owner t staged room room') :
      Step σ b (.beginMembership now owner t) { b with rooms := b.rooms.insert t.roomId room' }
        (.ok (.staged staged))
  | accepted {clock : AcceptClock} {owner : CodeId} {roomId messageId : Text} {revision : Nat}
      {plan : AcceptPlan} {room : RelayRoom} {s' : RoomAuthority}
      {result : Except String MembershipResult} (hroom : b.rooms.get? roomId = some room)
      (hplan : Accepted b room owner messageId revision plan)
      (hsettle : settleAcceptance σ { b with
        rooms := b.rooms.insert roomId (acceptRoom clock room owner plan) } plan = (s', result)) :
      Step σ b (.acceptMembership clock owner roomId messageId revision) s'
        (result.map .membership)
  | unstaged {now : Nat} {owner : CodeId} {roomId messageId : Text} {revision : Nat}
      {room : RelayRoom} (hroom : b.rooms.get? roomId = some room) :
      Step σ b (.rollbackMembership now owner roomId messageId revision)
        { b with rooms := b.rooms.insert roomId { room with pendingTransition := none } }
        (.ok (.membership (.rolledBack messageId revision)))
  | admitted {now : Nat} {a : AdmitArgs} {plan : AdmitPlan} {room : RelayRoom}
      (hroom : b.rooms.get? a.roomId = some room) (hbounds : AdmissionBounds a)
      (hplan : Admitted b now room a plan) :
      Step σ b (.admitApplication now a)
        { b with
          rooms := b.rooms.insert a.roomId (admitRoom room a plan)
          globalDeliveryCount := plan.globalDeliveryCount
          globalDeliveryBytes := plan.globalDeliveryBytes
          globalPendingCount := plan.globalPendingCount
          globalPendingBytes := plan.globalPendingBytes
          globalSnapshotCount := plan.globalSnapshotCount
          globalSnapshotBytes := plan.globalSnapshotBytes } (.ok (.admission plan.admission))
  | committed {now : Nat} {roomId messageId : Text} {plan : CommitPlan}
      {pending : PendingApplication} {room : RelayRoom} {s' : RoomAuthority}
      {result : Except String Unit} (hroom : b.rooms.get? roomId = some room)
      (hplan : Committed b now messageId room pending plan)
      (htrim : trimReplayIds σ { b with
        rooms := b.rooms.insert roomId plan.room
        globalPendingCount := plan.globalPendingCount
        globalPendingBytes := plan.globalPendingBytes } = (s', result)) :
      Step σ b (.commitApplication now roomId messageId) s' (result.map fun _ => .done)
  | rolledBack {roomId messageId : Text} {plan : RollbackPlan} {room : RelayRoom}
      (hroom : b.rooms.get? roomId = some room) (hplan : Retracting b room messageId plan) :
      Step σ b (.rollbackApplication roomId messageId)
        { b with
          rooms := b.rooms.insert roomId (rolledBackRoom room messageId plan)
          globalPendingCount := plan.globalPendingCount
          globalPendingBytes := plan.globalPendingBytes
          globalDeliveryCount := plan.globalDeliveryCount
          globalDeliveryBytes := plan.globalDeliveryBytes
          globalSnapshotCount := plan.globalSnapshotCount
          globalSnapshotBytes := plan.globalSnapshotBytes } (.ok .done)
  | abandoned {roomId messageId : Text} {plan : RollbackPlan} {room : RelayRoom} {c : CodeId}
      {reason : String} (selected : CodeId → Bool) (hroom : b.rooms.get? roomId = some room)
      (hplan : Retracting b room messageId plan)
      (hfull : wordMax <
        room.revisionOf c + 1 + (withoutMessage messageId (room.queueOf c)).length)
      (hqueue : ∃ queue, room.deliveries.get? c = some queue) :
      Step σ b (.rollbackApplication roomId messageId)
        { b with rooms := b.rooms.insert roomId (abandonedRoom room messageId selected) }
        (.error reason)
  | stored {now : Nat} {a : StoreArgs} {plan : StorePlan} {room : RelayRoom}
      {s' : RoomAuthority} (hroom : b.rooms.get? a.roomId = some room)
      (hvalid : validateStore a = .ok ()) (hplan : Stored b now room a plan)
      (hcount : recomputeGapAccounting { b with
        rooms := b.rooms.insert a.roomId (storeRoom room a plan)
        globalDeliveryCount := plan.globalDeliveryCount
        globalDeliveryBytes := plan.globalDeliveryBytes
        globalSnapshotCount := plan.globalSnapshotCount
        globalSnapshotBytes := plan.globalSnapshotBytes } = .ok s') :
      Step σ b (.storeSnapshot now a) s' (.ok (.snapshot plan.snapshot))
  | storedLate {now : Nat} {a : StoreArgs} {plan : StorePlan} {room : RelayRoom}
      {reason : String} (hroom : b.rooms.get? a.roomId = some room)
      (hvalid : validateStore a = .ok ()) (hplan : Stored b now room a plan)
      (hcount : recomputeGapAccounting { b with
        rooms := b.rooms.insert a.roomId (storeRoom room a plan)
        globalDeliveryCount := plan.globalDeliveryCount
        globalDeliveryBytes := plan.globalDeliveryBytes
        globalSnapshotCount := plan.globalSnapshotCount
        globalSnapshotBytes := plan.globalSnapshotBytes } = .error reason) :
      Step σ b (.storeSnapshot now a)
        { b with
          rooms := b.rooms.insert a.roomId (storeRoom room a plan)
          globalDeliveryCount := plan.globalDeliveryCount
          globalDeliveryBytes := plan.globalDeliveryBytes
          globalSnapshotCount := plan.globalSnapshotCount
          globalSnapshotBytes := plan.globalSnapshotBytes } (.error reason)
  | created {now createdAt : Nat} {a : CreateArgs} {plan : CreatePlan} {info : RoomInfo}
      (hplan : Created b createdAt a plan) :
      Step σ b (.create now createdAt a)
        { b with
          rooms := b.rooms.insert a.roomId plan.room
          globalSnapshotCount := plan.globalSnapshotCount
          globalSnapshotBytes := plan.globalSnapshotBytes } (.ok (.room info))
  | deleted {now : Nat} {owner : CodeId} {roomId : Text} {totals : AuthorityAccounting}
      {info : RoomInfo} (hcount : b.checkedAccountingExcluding (some roomId) = .ok totals) :
      Step σ b (.delete now owner roomId)
        ({ b with rooms := b.rooms.erase roomId }.applyAccounting totals) (.ok (.room info))
  | wiped : Step σ b .wipe b.wipe (.ok .done)

end RoomAuthority

/-- The state a call works on: pruned at its clock, if it prunes. -/
def Op.base (σ : HashOrder) (s : RoomAuthority) (op : Op) : RoomAuthority :=
  match op.pruneClock with
  | some now => s.pruneExpired σ now
  | none => s

variable {op : Op} {room : RelayRoom} {id : Text} {σ : HashOrder}

namespace RoomAuthority

section

open RelayRoom

variable {σ : HashOrder} {s : RoomAuthority}

def Steps (σ : HashOrder) (s : RoomAuthority) (op : Op) : Prop :=
  Step σ (op.base σ s) op (exec σ s op).1 (exec σ s op).2

theorem requestJoin_step (now : Nat) (a : JoinArgs) :
    Steps σ s (.requestJoin now a) := by
  -- The equations for all the calls are not needed for one.
  delta Steps exec Op.base Op.pruneClock
  simp only [requestJoin]
  -- Nothing here depends on how the base was pruned.
  generalize s.pruneExpired σ now = b
  cases hplan : b.joinPlan now a with
  | error reason => exact .failed reason
  | ok plan =>
    obtain ⟨room, hroom, hcases⟩ := joinPlan_ok hplan
    rcases hcases with ⟨heq, hcount, hbytes⟩ | hnew
    · simp only [heq, hcount, hbytes, insert_of_get? hroom]
      exact .replied _ rfl
    · exact .joined hroom hnew

theorem removeJoin_step (now : Nat) (owner : CodeId) (roomId requestId : Text) :
    Steps σ s (.removeJoin now owner roomId requestId) := by
  delta Steps exec Op.base Op.pruneClock
  simp only [removeJoin]
  generalize s.pruneExpired σ now = b
  cases hplan : b.removeJoinPlan owner roomId requestId with
  | error reason => exact .failed reason
  | ok plan =>
    obtain ⟨room', request⟩ := plan
    obtain ⟨room, join, hroom, hjoin, rfl, rfl⟩ := removeJoinPlan_ok hplan
    simp only
    split
    · rename_i hcount
      exact .unjoinedLate hroom hjoin hcount
    · rename_i hcount
      exact .unjoined hroom hjoin hcount

theorem requestLeave_step (now : Nat) (codeId : CodeId) (roomId requestId : Text) :
    Steps σ s (.requestLeave now codeId roomId requestId) := by
  delta Steps exec Op.base Op.pruneClock
  simp only [requestLeave]
  generalize s.pruneExpired σ now = b
  cases hplan : b.leavePlan now codeId roomId requestId
      (saturatingAdd now s.joinTtlMs) with
  | error reason => exact .failed reason
  | ok plan =>
    obtain ⟨room', request⟩ := plan
    obtain ⟨room, hroom, hcases⟩ := leavePlan_ok hplan
    rcases hcases with rfl | hnew
    · simp only [insert_of_get? hroom]
      exact .replied _ rfl
    · exact .left hroom hnew

theorem removeLeave_step (now : Nat) (owner : CodeId) (roomId requestId : Text) :
    Steps σ s (.removeLeave now owner roomId requestId) := by
  delta Steps exec Op.base Op.pruneClock
  simp only [removeLeave]
  generalize s.pruneExpired σ now = b
  cases hplan : b.removeLeavePlan owner roomId requestId with
  | error reason => exact .failed reason
  | ok plan =>
    obtain ⟨room', request⟩ := plan
    obtain ⟨room, hroom, hleave, rfl⟩ := removeLeavePlan_ok hplan
    exact .unleft hroom hleave

theorem beginMembership_step (now : Nat) (owner : CodeId) (t : MembershipTransition) :
    Steps σ s (.beginMembership now owner t) := by
  delta Steps exec Op.base Op.pruneClock
  simp only [beginMembership]
  generalize s.pruneExpired σ now = b
  cases hplan : b.beginPlan now owner t with
  | error reason => exact .failed reason
  | ok plan =>
    obtain ⟨room, hroom, hstaged⟩ := beginPlan_ok hplan
    exact .staged hroom hstaged

theorem acceptMembership_step (clock : AcceptClock) (owner : CodeId) (roomId messageId : Text)
    (revision : Nat) :
    Steps σ s (.acceptMembership clock owner roomId messageId revision) := by
  delta Steps exec Op.base Op.pruneClock
  simp only [acceptMembership]
  generalize s.pruneExpired σ clock.now = b
  cases hroom : b.rooms.get? roomId with
  | none => exact .failed _
  | some room =>
    simp only
    cases hplan : b.acceptPlan room owner messageId revision with
    | error reason => exact .failed reason
    | ok plan =>
      simp only [Outcome.reply]
      generalize hsettle : settleAcceptance σ _ plan = outcome
      obtain ⟨s', result⟩ := outcome
      exact .accepted hroom (acceptPlan_ok hplan) hsettle

theorem rollbackMembership_step (now : Nat) (owner : CodeId) (roomId messageId : Text)
    (revision : Nat) :
    Steps σ s (.rollbackMembership now owner roomId messageId revision) := by
  delta Steps exec Op.base Op.pruneClock
  simp only [rollbackMembership]
  generalize s.pruneExpired σ now = b
  cases hplan : b.rollbackMembershipPlan owner roomId messageId revision with
  | error reason => exact .failed reason
  | ok plan =>
    obtain ⟨room, hroom, rfl⟩ := rollbackMembershipPlan_ok hplan
    exact .unstaged hroom

theorem admitApplication_step (now : Nat) (a : AdmitArgs) :
    Steps σ s (.admitApplication now a) := by
  delta Steps exec Op.base Op.pruneClock
  simp only [admitApplicationForPlatform]
  generalize s.pruneExpired σ now = b
  cases hvalid : validateAdmission a with
  | error reason => exact .failed reason
  | ok u =>
    simp only
    cases hroom : b.rooms.get? a.roomId with
    | none => exact .failed _
    | some room =>
      simp only
      cases hplan : b.admitPlan now room a with
      | error reason => exact .failed reason
      | ok plan => exact .admitted hroom (validateAdmission_ok hvalid) (admitPlan_ok hplan)

theorem commitApplication_step (now : Nat) (roomId messageId : Text) :
    Steps σ s (.commitApplication now roomId messageId) := by
  delta Steps exec Op.base Op.pruneClock
  simp only [commitApplication]
  cases hplan : s.commitPlan now roomId messageId with
  | error reason => exact .failed reason
  | ok plan =>
    obtain ⟨room, pending, hroom, hcommit⟩ := commitPlan_ok hplan
    simp only [Outcome.reply]
    generalize htrim : trimReplayIds σ _ = outcome
    obtain ⟨s', result⟩ := outcome
    exact .committed hroom hcommit htrim

theorem rollbackApplication_step (roomId messageId : Text) :
    Steps σ s (.rollbackApplication roomId messageId) := by
  delta Steps exec Op.base Op.pruneClock
  simp only [rollbackApplication]
  cases hroom : s.rooms.get? roomId with
  | none => exact .failed _
  | some room =>
    simp only
    cases hplan : s.rollbackPlan room messageId with
    | error reason => exact .failed reason
    | ok plan =>
      simp only
      have hperm := σ.codes_perm room.roomId room.deliveries.keys
      have hnd : (σ.codes room.roomId room.deliveries.keys).Nodup :=
        hperm.nodup_iff.mpr room.deliveries.keys_nodup
      obtain ⟨n, hrooms, hall, hfail⟩ := retractFrom_rooms messageId hnd
        { room with pendingApplications := room.pendingApplications.erase messageId }
      have hfold : ∀ cs : List CodeId, cs.Nodup → cs.foldl (fun ds c => ds.modify c fun queue =>
          renumbered (room.memberActive c) (room.revisionOf c)
            (withoutMessage messageId queue)) room.deliveries =
          room.retracted messageId fun c => c ∈ cs := fun cs hcs => foldl_retract_eq hcs
      generalize retractFrom messageId (σ.codes room.roomId room.deliveries.keys)
        { room with pendingApplications := room.pendingApplications.erase messageId } = ret at *
      obtain ⟨after, result⟩ := ret
      cases result with
      | error reason =>
        obtain ⟨c, hc, hfull⟩ := hfail reason rfl
        have hafter : after = abandonedRoom room messageId
            (fun c => c ∈ (σ.codes room.roomId room.deliveries.keys).take n) :=
          hrooms.trans (congrArg (fun d => { room with
            pendingApplications := room.pendingApplications.erase messageId
            deliveries := d }) (hfold _ (hnd.sublist (take_sublist _ _))))
        rw [hafter]
        exact .abandoned _ hroom (rollbackPlan_ok hplan) hfull
          (mem_keys.mp (hperm.mem_iff.mp hc))
      | ok u =>
        rw [hall rfl] at hrooms
        have hafter : after = { room with
            pendingApplications := room.pendingApplications.erase messageId
            deliveries := room.retracted messageId fun _ => true } :=
          hrooms.trans (congrArg (fun d => { room with
            pendingApplications := room.pendingApplications.erase messageId
            deliveries := d }) ((hfold _ hnd).trans (retracted_keys hperm)))
        rw [hafter]
        exact .rolledBack hroom (rollbackPlan_ok hplan)

theorem storeSnapshot_step (now : Nat) (a : StoreArgs) :
    Steps σ s (.storeSnapshot now a) := by
  delta Steps exec Op.base Op.pruneClock
  simp only [storeSnapshot]
  generalize s.pruneExpired σ now = b
  cases hvalid : validateStore a with
  | error reason => exact .failed reason
  | ok u =>
    simp only
    cases hroom : b.rooms.get? a.roomId with
    | none => exact .failed _
    | some room =>
      simp only
      cases hplan : b.storePlan now room a with
      | error reason => exact .failed reason
      | ok plan =>
        simp only
        split
        · rename_i hcount
          exact .storedLate hroom hvalid (storePlan_ok hplan) hcount
        · rename_i hcount
          exact .stored hroom hvalid (storePlan_ok hplan) hcount

theorem create_step (now createdAt : Nat) (a : CreateArgs) :
    Steps σ s (.create now createdAt a) := by
  delta Steps exec Op.base Op.pruneClock
  simp only [createWithPolicyVisibilityAndState]
  generalize s.pruneExpired σ now = b
  cases hplan : b.createPlan createdAt a with
  | error reason => exact .failed reason
  | ok plan => exact .created (createPlan_ok hplan)

theorem delete_step (now : Nat) (owner : CodeId) (roomId : Text) :
    Steps σ s (.delete now owner roomId) := by
  delta Steps exec Op.base Op.pruneClock
  simp only [delete]
  generalize s.pruneExpired σ now = b
  cases hplan : b.deletePlan owner roomId with
  | error reason => exact .failed reason
  | ok plan =>
    obtain ⟨room, _, hplan⟩ := bind_eq_ok.mp hplan
    obtain ⟨_, _, hplan⟩ := bind_eq_ok.mp hplan
    obtain ⟨totals, hcount, hplan⟩ := bind_eq_ok.mp hplan
    cases hplan
    exact .deleted hcount

theorem query_step {α : Type} (hop : op.mayOnlyReply = true) (now : Nat)
    (read : RoomAuthority → Except String α) (f : α → Reply) :
    Step σ (s.pruneExpired σ now) op ((query σ now s read).reply f).1
      ((query σ now s read).reply f).2 := by
  unfold query Outcome.reply
  cases read (s.pruneExpired σ now) with
  | error reason => exact .failed reason
  | ok value => exact .replied _ hop

variable (σ s) in
theorem exec_step (op : Op) :
    Step σ (op.base σ s) op (exec σ s op).1 (exec σ s op).2 := by
  cases op with
  | create => exact create_step ..
  | requestJoin => exact requestJoin_step ..
  | removeJoin => exact removeJoin_step ..
  | requestLeave => exact requestLeave_step ..
  | removeLeave => exact removeLeave_step ..
  | beginMembership => exact beginMembership_step ..
  | acceptMembership => exact acceptMembership_step ..
  | rollbackMembership => exact rollbackMembership_step ..
  | admitApplication => exact admitApplication_step ..
  | commitApplication => exact commitApplication_step ..
  | rollbackApplication => exact rollbackApplication_step ..
  | storeSnapshot => exact storeSnapshot_step ..
  | prune now => exact .replied _ rfl
  | deliveriesForMember now roomId codeId | memberInfo now roomId codeId
  | memberCodeIds now roomId => exact query_step rfl now _ _
  | delete => exact delete_step ..
  | wipe => exact .wiped

end

open RelayRoom

variable {s' s b : RoomAuthority} {room' : RelayRoom}

/-- What a step from `b` can do to the room under an id. -/
inductive Effect (b : RoomAuthority) : Op → Text → RelayRoom → RelayRoom → Prop
  | evicted {op : Op} {id : Text} {room room' : RelayRoom} (hevict : Evicted room room') :
      Effect b op id room room'
  | joined {now : Nat} {a : JoinArgs} {plan : JoinPlan} {room : RelayRoom}
      (hplan : NewJoin b now a room plan) :
      Effect b (.requestJoin now a) a.roomId room plan.room
  | unjoined {now : Nat} {owner : CodeId} {roomId requestId : Text} {room : RelayRoom} :
      Effect b (.removeJoin now owner roomId requestId) roomId room
        { room with joins := room.joins.erase requestId }
  | left {now : Nat} {codeId : CodeId} {roomId requestId : Text} {room room' : RelayRoom}
      {request : LeaveRequest} (hplan : NewLeave b codeId requestId room room' request) :
      Effect b (.requestLeave now codeId roomId requestId) roomId room room'
  | unleft {now : Nat} {owner : CodeId} {roomId requestId : Text} {room : RelayRoom} :
      Effect b (.removeLeave now owner roomId requestId) roomId room
        { room with leaves := room.leaves.erase requestId }
  | staged {now : Nat} {owner : CodeId} {t staged : MembershipTransition} {room room' : RelayRoom}
      (hplan : Staged b now owner t staged room room') :
      Effect b (.beginMembership now owner t) t.roomId room room'
  | accepted {clock : AcceptClock} {owner : CodeId} {roomId messageId : Text} {revision : Nat}
      {plan : AcceptPlan} {room room' : RelayRoom}
      (hplan : Accepted b room owner messageId revision plan)
      (hevict : Evicted (acceptRoom clock room owner plan) room') :
      Effect b (.acceptMembership clock owner roomId messageId revision) roomId room room'
  | unstaged {now : Nat} {owner : CodeId} {roomId messageId : Text} {revision : Nat}
      {room : RelayRoom} :
      Effect b (.rollbackMembership now owner roomId messageId revision) roomId room
        { room with pendingTransition := none }
  | admitted {now : Nat} {a : AdmitArgs} {plan : AdmitPlan} {room : RelayRoom}
      (hbounds : AdmissionBounds a) (hplan : Admitted b now room a plan) :
      Effect b (.admitApplication now a) a.roomId room (admitRoom room a plan)
  | committed {now : Nat} {roomId messageId : Text} {plan : CommitPlan}
      {pending : PendingApplication} {room room' : RelayRoom}
      (hplan : Committed b now messageId room pending plan) (hevict : Evicted plan.room room') :
      Effect b (.commitApplication now roomId messageId) roomId room room'
  | rolledBack {roomId messageId : Text} {plan : RollbackPlan} {room : RelayRoom}
      (hplan : Retracting b room messageId plan) :
      Effect b (.rollbackApplication roomId messageId) roomId room
        (rolledBackRoom room messageId plan)
  | abandoned {roomId messageId : Text} {plan : RollbackPlan} {room : RelayRoom} {c : CodeId}
      (selected : CodeId → Bool) (hplan : Retracting b room messageId plan)
      (hfull : wordMax <
        room.revisionOf c + 1 + (withoutMessage messageId (room.queueOf c)).length)
      (hqueue : ∃ queue, room.deliveries.get? c = some queue) :
      Effect b (.rollbackApplication roomId messageId) roomId room
        (abandonedRoom room messageId selected)
  | stored {now : Nat} {a : StoreArgs} {plan : StorePlan} {room : RelayRoom}
      (hvalid : validateStore a = .ok ()) (hplan : Stored b now room a plan) :
      Effect b (.storeSnapshot now a) a.roomId room (storeRoom room a plan)

def CreatedBy (b : RoomAuthority) (op : Op) (id : Text) (room' : RelayRoom) : Prop :=
  ∃ now createdAt a plan, op = .create now createdAt a ∧ a.roomId = id ∧
    Created b createdAt a plan ∧ room' = plan.room

def HasEffect (b : RoomAuthority) (op : Op) (id : Text) (room' : RelayRoom) : Prop :=
  ∃ room, b.rooms.get? id = some room ∧ Effect b op id room room'

theorem HasEffect.same (h : b.rooms.get? id = some room) :
    HasEffect b op id room :=
  ⟨room, h, .evicted (.refl room)⟩

variable {roomId : Text} {new : RelayRoom}

theorem HasEffect.insert (hroom : b.rooms.get? roomId = some room)
    (heffect : Effect b op roomId room new) (h : (b.rooms.insert roomId new).get? id = some room') :
    HasEffect b op id room' := by
  rw [get?_insert] at h
  split_ifs at h with hid
  · subst hid
    cases h
    exact ⟨room, hroom, heffect⟩
  · exact .same h

theorem HasEffect.evict (hroom : b.rooms.get? roomId = some room)
    (heffect : ∀ after, Evicted new after → Effect b op roomId room after)
    (hrel : Option.Rel Evicted ((b.rooms.insert roomId new).get? id) (s'.rooms.get? id))
    (h : s'.rooms.get? id = some room') : HasEffect b op id room' := by
  rw [h] at hrel
  obtain ⟨before, hbefore, hevict⟩ := rel_some_right hrel
  rw [get?_insert] at hbefore
  split_ifs at hbefore with hid
  · subst hid
    cases hbefore
    exact ⟨room, hroom, heffect room' hevict⟩
  · exact ⟨before, hbefore, .evicted hevict⟩

theorem recomputeGapAccounting_rooms (h : s.recomputeGapAccounting = .ok s') :
    s'.rooms = s.rooms := by
  obtain ⟨pairs, -, h⟩ := bind_eq_ok.mp h
  cases h
  rfl

theorem recomputeStateAccounting_rooms (h : s.recomputeStateAccounting = .ok s') :
    s'.rooms = s.rooms := by
  obtain ⟨totals, -, h⟩ := bind_eq_ok.mp h
  cases h
  rfl

theorem settleAcceptance_rooms (σ : HashOrder) (s : RoomAuthority) (plan : AcceptPlan)
    (id : Text) :
    Option.Rel Evicted (s.rooms.get? id) ((settleAcceptance σ s plan).1.rooms.get? id) := by
  have htrim := trimReplayIds_rooms σ s id
  unfold settleAcceptance
  split
  · rename_i heq
    rw [heq] at htrim
    exact htrim
  · rename_i heq
    rw [heq] at htrim
    simp only
    split
    · exact htrim
    · rename_i hgap
      rw [recomputeGapAccounting_rooms hgap]
      exact htrim

theorem settleAcceptance_trim {plan : AcceptPlan} {result : Except String MembershipResult}
    (h : settleAcceptance σ s plan = (s', result)) :
    ∃ trimmed outcome, s.trimReplayIds σ = (trimmed, outcome) ∧ s'.rooms = trimmed.rooms := by
  unfold settleAcceptance at h
  split at h
  · rename_i heq
    cases h
    exact ⟨_, _, heq, rfl⟩
  · rename_i trimmed heq
    refine ⟨trimmed, _, heq, ?_⟩
    dsimp only at h
    split at h
    · cases h
      rfl
    · rename_i hgap
      cases h
      have hrooms := recomputeGapAccounting_rooms hgap
      exact hrooms

theorem Step.effect {result : Except String Reply} (h : Step σ b op s' result)
    (hroom' : s'.rooms.get? id = some room') :
    HasEffect b op id room' ∨ CreatedBy b op id room' := by
  cases h with
  | failed | replied => exact .inl (.same hroom')
  | joined hroom hplan => exact .inl (.insert hroom (.joined hplan) hroom')
  | unjoined hroom hjoin hcount =>
    rw [recomputeStateAccounting_rooms hcount] at hroom'
    exact .inl (.insert hroom .unjoined hroom')
  | unjoinedLate hroom => exact .inl (.insert hroom .unjoined hroom')
  | left hroom hplan => exact .inl (.insert hroom (.left hplan) hroom')
  | unleft hroom => exact .inl (.insert hroom .unleft hroom')
  | staged hroom hplan => exact .inl (.insert hroom (.staged hplan) hroom')
  | @accepted clock owner roomId _ _ plan room _ _ hroom hplan hsettle =>
    have hrel := settleAcceptance_rooms σ { b with
      rooms := b.rooms.insert roomId (acceptRoom clock room owner plan) } plan id
    rw [hsettle] at hrel
    exact .inl (.evict hroom (fun _ hevict => .accepted hplan hevict) hrel hroom')
  | unstaged hroom => exact .inl (.insert hroom .unstaged hroom')
  | admitted hroom hbounds hplan => exact .inl (.insert hroom (.admitted hbounds hplan) hroom')
  | @committed _ roomId _ plan _ _ _ _ hroom hplan htrim =>
    have hrel := trimReplayIds_rooms σ { b with
      rooms := b.rooms.insert roomId plan.room
      globalPendingCount := plan.globalPendingCount
      globalPendingBytes := plan.globalPendingBytes } id
    rw [htrim] at hrel
    exact .inl (.evict hroom (fun _ hevict => .committed hplan hevict) hrel hroom')
  | rolledBack hroom hplan => exact .inl (.insert hroom (.rolledBack hplan) hroom')
  | abandoned selected hroom hplan hfull hqueue =>
    exact .inl (.insert hroom (.abandoned selected hplan hfull hqueue) hroom')
  | stored hroom hvalid hplan hcount =>
    rw [recomputeGapAccounting_rooms hcount] at hroom'
    exact .inl (.insert hroom (.stored hvalid hplan) hroom')
  | storedLate hroom hvalid hplan => exact .inl (.insert hroom (.stored hvalid hplan) hroom')
  | created hplan =>
    simp only [get?_insert] at hroom'
    split_ifs at hroom' with hid
    · cases hroom'
      exact .inr ⟨_, _, _, _, rfl, hid, hplan, rfl⟩
    · exact .inl (.same hroom')
  | deleted =>
    simp only [applyAccounting, get?_erase] at hroom'
    split_ifs at hroom' with hid
    exact .inl (.same hroom')
  | wiped => cases hroom'

end RoomAuthority

open RelayRoom

def PrunedBy (σ : HashOrder) (s : RoomAuthority) (op : Op) (room mid : RelayRoom) : Prop :=
  match op.pruneClock with
  | some now => PrunedTo σ now s.replayTtlMs room mid
  | none => mid = room

variable {mid : RelayRoom} {s : RoomAuthority}

theorem PrunedBy.tidy (h : PrunedBy σ s op room mid) :
    TidyStar room mid := by
  unfold PrunedBy at h
  cases hclock : op.pruneClock with
  | none =>
    rw [hclock] at h
    subst h
    exact .refl
  | some now =>
    rw [hclock] at h
    exact h.tidy

theorem base_room (h : (op.base σ s).rooms.get? id = some mid) :
    ∃ room, s.rooms.get? id = some room ∧ PrunedBy σ s op room mid := by
  unfold Op.base at h
  unfold PrunedBy
  cases hclock : op.pruneClock with
  | none =>
    rw [hclock] at h
    exact ⟨mid, h, rfl⟩
  | some now =>
    rw [hclock] at h
    exact RoomAuthority.pruneExpired_some h

end Abyssal.Rooms
