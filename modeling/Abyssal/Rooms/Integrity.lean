import Abyssal.Rooms.Reachable

/-! Structural well-formedness of every room, in runs where a staged commit is settled
before anything touches the room's requests. -/

namespace Abyssal.Rooms

open RelayRoom RoomAuthority OrdMap Option

variable {room room' : RelayRoom}

def StagingOver (s : RoomAuthority) (roomId : Text) (now : Nat) : Prop :=
  match (s.rooms.get? roomId).bind RelayRoom.pendingTransition with
  | none => True
  | some t => t.expiresAtMs ≤ now

instance (s : RoomAuthority) (roomId : Text) (now : Nat) : Decidable (StagingOver s roomId now) := by
  unfold StagingOver
  split <;> infer_instance

/-- No request of a room is filed or removed between `begin_membership` and the
`accept_membership` or `rollback_membership` that settles it. -/
def Bracketed (s : RoomAuthority) (c : Call) : Prop :=
  match c.2 with
  | .requestJoin now a => StagingOver s a.roomId now
  | .removeJoin now _ roomId _ => StagingOver s roomId now
  | .requestLeave now _ roomId _ => StagingOver s roomId now
  | .removeLeave now _ roomId _ => StagingOver s roomId now
  | _ => True

instance (s : RoomAuthority) (c : Call) : Decidable (Bracketed s c) := by
  unfold Bracketed
  split <;> infer_instance

variable {s : RoomAuthority}

theorem StagingOver.base {σ : HashOrder} {op : Op} {roomId : Text} {now : Nat} {mid : RelayRoom}
    (h : StagingOver s roomId now) (hclock : op.pruneClock = some now)
    (hmid : (op.base σ s).rooms.get? roomId = some mid) : mid.pendingTransition = none := by
  obtain ⟨room, hroom, hpruned⟩ := base_room hmid
  unfold PrunedBy at hpruned
  rw [hclock] at hpruned
  rw [hpruned.sameRequests.transition]
  unfold StagingOver at h
  rw [hroom, bind_some] at h
  change room.pendingTransition.filter (fun t => decide (now < t.expiresAtMs)) = none
  cases ht : room.pendingTransition with
  | none => rfl
  | some t =>
    rw [ht] at h
    exact filter_eq_none_iff.mpr fun t' ht' => by
      obtain rfl := some.inj ht'
      simpa using h

structure Enclosed (room : RelayRoom) : Prop where
  wellFormed : WellFormed room
  snapshots : ∀ c snapshot, room.snapshots.get? c = some snapshot → IsMember room.members c
  removal : ∀ t id, room.pendingTransition = some t → t.welcome = [] → t.requestId = some id →
    room.joins.get? id = none

section

variable (h : Enclosed room)

include h

theorem Enclosed.undone {m : Text} {p : PendingApplication}
    (hp : room.pendingApplications.get? m = some p) : Enclosed (room.undone m p) := by
  have hpending := h.wellFormed.pending m p hp
  obtain ⟨k, mem, hmem, hcode, -⟩ := hpending.active
  refine ⟨h.wellFormed.undone hp, fun c snapshot hs => ?_, h.removal⟩
  obtain ⟨previous, hprevious, -⟩ := hpending.snapshot
  simp only [RelayRoom.undone, restoreSender, hprevious, get?_insert] at hs
  split_ifs at hs with hc
  · exact ⟨k, mem, hmem, hcode.trans hc⟩
  · exact h.snapshots c snapshot hs

theorem Enclosed.tidy (ht : Tidy room room') : Enclosed room' := by
  have hw := h.wellFormed.tidy ht
  cases ht with
  | requests joins leaves hjoins hleaves =>
    refine ⟨hw, h.snapshots, fun t id ht hwelcome hid => ?_⟩
    have hnone := h.removal t id ht hwelcome hid
    cases hj : joins.get? id with
    | none => rfl
    | some j =>
      rw [hjoins id j hj] at hnone
      cases hnone
  | unstage => exact ⟨hw, h.snapshots, fun t id ht => nomatch ht⟩
  | undo m p hp => exact h.undone hp
  | trim htrim => cases htrim <;> exact ⟨hw, h.snapshots, h.removal⟩

theorem Enclosed.tidyStar (ht : TidyStar room room') :
    Enclosed room' := ht.invariant (fun _ _ hr => hr.tidy) h

theorem Enclosed.evicted (he : Evicted room room') : Enclosed room' := h.tidy (.trim he.trim)

theorem Enclosed.staged {now : Nat} {owner : CodeId} {t staged : MembershipTransition}
    (hplan : Staged s now owner t staged room room') :
    Enclosed room' := by
  have hw := h.wellFormed.staged hplan
  obtain ⟨next, -, k, -, -, -, -, -, -, hcheck⟩ := hplan.roster
  have heq := hplan.roomEq
  have hstaged := hplan.stagedEq
  subst heq
  refine ⟨hw, h.snapshots, fun t' id ht' hwelcome hid => ?_⟩
  obtain rfl := some.inj ht'
  rw [hstaged] at hwelcome hid
  change t.welcome = [] at hwelcome
  change t.requestId = some id at hid
  have hremoval := checkChange_welcome hcheck
  rw [hwelcome, List.isEmpty_nil, Bool.not_true] at hremoval
  rw [checkChange, if_neg (by simp [hremoval])] at hcheck
  obtain ⟨_, -, hcheck⟩ := bind_eq_ok.mp hcheck
  simp only [hid] at hcheck
  obtain ⟨leave, hleave, -⟩ := bind_eq_ok.mp hcheck
  have hleave := okOr_eq_ok.mp hleave
  change room.joins.get? id = none
  cases hj : room.joins.get? id with
  | none => rfl
  | some j =>
    rw [h.wellFormed.requests.oneKind id j hj] at hleave
    cases hleave

end

theorem Enclosed.accepted {owner : CodeId} {messageId : Text} {revision : Nat} {plan : AcceptPlan}
    (clock : AcceptClock) (h : Enclosed room)
    (hplan : Accepted s room owner messageId revision plan) :
    Enclosed (acceptRoom clock room owner plan) := by
  have hwell := h.wellFormed
  have hw := hwell.accepted clock hplan
  have hnext := nextMembers_of_resolved hwell (hwell.staging _ hplan.staged) hplan.resolved
  rw [acceptRoom_eq] at hw ⊢
  refine ⟨hw, fun c snapshot hs => ?_, fun t id ht => nomatch ht⟩
  change (acceptedSnapshots clock room owner plan).get? c = some snapshot at hs
  rcases acceptedSnapshots_get? clock hplan c with ⟨requestId, join, hid, hjoin, hcode, -⟩ | ⟨-, hget⟩
  · -- The only request a commit settles with a snapshot is that of the member it adds.
    change IsMember plan.next c
    generalize plan.next = next at hnext ⊢
    cases hnext with
    | addition k requestId' join' _ hid' hjoin' =>
      rw [hid] at hid'
      obtain rfl := some.inj hid'
      rw [hjoin] at hjoin'
      obtain rfl := some.inj hjoin'
      exact ⟨k, join.member, get?_insert_self .., hcode⟩
    | removal _ _ _ _ hwelcome =>
      rw [h.removal _ requestId hplan.staged hwelcome hid] at hjoin
      cases hjoin
  · rw [hget] at hs
    split_ifs at hs with howner hmember
    · obtain ⟨k, m, -, hm, hmc, -⟩ := MembersOk.next hwell hnext |>.owner
      exact ⟨k, m, hm, hmc.trans (hplan.owner.trans howner)⟩
    · exact hmember

theorem Enclosed.effect {σ : HashOrder} {op : Op} {id : Text} (h : Enclosed room)
    (hguard : Bracketed s (σ, op)) (hroom : (op.base σ s).rooms.get? id = some room)
    (he : Effect (op.base σ s) op id room room') :
    Enclosed room' := by
  have hw := h.wellFormed.effect he
  have hunstaged : room.pendingTransition = none → ∀ t id, room.pendingTransition = some t →
      t.welcome = [] → t.requestId = some id → room'.joins.get? id = none := by
    intro hnone t id ht
    rw [hnone] at ht
    cases ht
  cases he with
  | evicted hevict => exact h.evicted hevict
  | joined hplan =>
    have hnone := StagingOver.base hguard rfl hroom
    refine ⟨hw, ?_, ?_⟩
    · rw [hplan.roomEq]
      exact h.snapshots
    · intro t id ht
      rw [hplan.roomEq] at ht
      exact hunstaged hnone t id ht
  | unjoined => exact ⟨hw, h.snapshots, hunstaged (StagingOver.base hguard rfl hroom)⟩
  | left hplan =>
    rw [hplan.roomEq] at hw ⊢
    exact ⟨hw, h.snapshots, h.removal⟩
  | unleft | abandoned selected hplan => exact ⟨hw, h.snapshots, h.removal⟩
  | staged hplan => exact h.staged hplan
  | accepted hplan hevict => exact (h.accepted _ hplan).evicted hevict
  | unstaged => exact h.tidy .unstage
  | admitted _ hplan =>
    refine ⟨hw, fun c snapshot hs => ?_, h.removal⟩
    obtain ⟨k, m, hm, hc, -⟩ := hplan.sender
    simp only [admitRoom, get?_insert] at hs
    split_ifs at hs with heq
    · exact ⟨k, m, hm, hc.trans heq⟩
    · exact h.snapshots c snapshot hs
  | committed hplan hevict =>
    obtain ⟨pendingBytes, hplanRoom, -⟩ := hplan.roomEq
    obtain ⟨n, rfl⟩ := hevict
    rw [hplanRoom] at hw ⊢
    exact ⟨hw, h.snapshots, h.removal⟩
  | rolledBack hplan => exact h.tidyStar (rolledBack_tidy hplan)
  | stored _ hplan =>
    refine ⟨hw, fun c snapshot hs => ?_, h.removal⟩
    obtain ⟨member, hmember, hcode⟩ := hplan.member
    rw [(storeRoom_members _ _ _).isMember]
    simp only [storeRoom, get?_insert] at hs
    split_ifs at hs with heq
    · exact ⟨_, member, hmember, hcode.trans heq⟩
    · exact h.snapshots c snapshot hs

theorem Enclosed.created {createdAt : Nat} {a : CreateArgs} {plan : CreatePlan}
    (hplan : Created s createdAt a plan) : Enclosed plan.room := by
  have hw := WellFormed.created hplan
  obtain ⟨name, bytes, -, -, hroom, -⟩ := hplan.roomEq
  rw [hroom] at hw ⊢
  refine ⟨hw, fun c snapshot hs => ?_, fun t id ht => nomatch ht⟩
  simp only [initialRoom, get?_insert, get?_empty] at hs
  split_ifs at hs with hc
  exact ⟨name, _, get?_insert_self .., hc⟩

theorem enclosed_after {maxRooms pendingTtlMs : Nat} {calls : List Call}
    (h : Along Bracketed call (newWithPendingTtl maxRooms pendingTtlMs) calls) :
    AllRooms Enclosed (after maxRooms pendingTtlMs calls) := by
  refine Along.invariant (fun s c hs hguard => ?_) (AllRooms.new Enclosed _ _) h
  exact hs.call c (fun _ _ hr => hr.tidy) (fun _ _ _ hroom hr he => hr.effect hguard hroom he)
    fun _ _ _ hplan => .created hplan

/-- The tables of a room fit together. -/
structure StructurallySound (room : RelayRoom) : Prop where
  owner_active : ∃ k m, room.members.get? k = some m ∧ m.codeId = room.ownerCodeId ∧
    m.active = true
  usernames : ∀ k m k' m', room.members.get? k = some m → room.members.get? k' = some m' →
    canonicalUsername m.username = canonicalUsername m'.username → k = k'
  codes : ∀ k m k' m', room.members.get? k = some m → room.members.get? k' = some m' →
    m.codeId = m'.codeId → k = k'
  identities : ∀ k m k' m', room.members.get? k = some m → room.members.get? k' = some m' →
    m.stableIdentity = m'.stableIdentity → k = k'
  revisions : ∀ c, room.memberRevisions.contains c = true ↔ IsMember room.members c
  queues : ∀ c, room.deliveries.contains c = true → IsMember room.members c
  /-- The recipient of a sender gap is a member; the sender may have left. -/
  gaps : ∀ pair, room.expiredSenderGaps.contains pair = true → IsMember room.members (ofLex pair).1
  snapshots : ∀ c, room.snapshots.contains c = true ↔ IsMember room.members c
  snapshot_revisions : ∀ c snapshot, room.snapshots.get? c = some snapshot →
    room.memberRevisions.get? c = some snapshot.revision
  joins_apart : ∀ id join id' join', room.joins.get? id = some join →
    room.joins.get? id' = some join' → id ≠ id' →
    canonicalUsername join.request.username ≠ canonicalUsername join'.request.username ∧
      join.request.codeId ≠ join'.request.codeId ∧
      join.request.stableIdentity ≠ join'.request.stableIdentity
  joins_new : ∀ id join k m, room.joins.get? id = some join → room.members.get? k = some m →
    canonicalUsername m.username ≠ canonicalUsername join.request.username ∧
      m.codeId ≠ join.request.codeId ∧ m.stableIdentity ≠ join.request.stableIdentity
  leaves_named : ∀ id leave, room.leaves.get? id = some leave →
    leave.codeId ≠ room.ownerCodeId ∧ ∃ k m, room.members.get? k = some m ∧
      m.codeId = leave.codeId ∧ m.username = leave.username ∧
      m.stableIdentity = leave.stableIdentity
  one_kind : ∀ id, ¬ (room.joins.contains id = true ∧ room.leaves.contains id = true)

theorem Enclosed.structurallySound (h : Enclosed room) : StructurallySound room := by
  obtain ⟨⟨hmembers, htables, hrequests, -, -, -⟩, hsnapshots, -⟩ := h
  have hcontains : ∀ c, room.snapshots.contains c = true ↔ IsMember room.members c := by
    intro c
    rw [contains_eq_true]
    constructor
    · rintro ⟨snapshot, hs⟩
      exact hsnapshots c snapshot hs
    · intro hc
      obtain ⟨snapshot, hs, -⟩ := htables.stored c hc
      exact ⟨snapshot, hs⟩
  refine ⟨?_, fun k m k' m' hm hm' heq => ?_, hmembers.codes, hmembers.identities,
    fun c => contains_eq_true.trans (htables.revised c), fun c hc => ?_, fun pair hp => ?_,
    hcontains, fun c snapshot hs => ?_, fun id j id' j' hj hj' hne => ?_, fun id j k m hj hm => ?_,
    hrequests.leaveNamed, ?_⟩
  · obtain ⟨k, m, -, hm, hcode, hactive⟩ := hmembers.owner
    exact ⟨k, m, hm, hcode, hactive⟩
  · rw [hmembers.canonical k m hm, hmembers.canonical k' m' hm'] at heq
    exact Except.ok.inj heq
  · obtain ⟨queue, hq⟩ := contains_eq_true.mp hc
    exact htables.queued c queue hq
  · obtain ⟨n, hn⟩ := contains_eq_true.mp hp
    exact htables.gapped pair n hn
  · obtain ⟨snapshot', hs', hrevision⟩ := htables.stored c (hsnapshots c snapshot hs)
    rw [hs] at hs'
    obtain rfl := some.inj hs'
    exact hrevision
  · have hapart := hrequests.joinsApart id j id' j' hj hj' hne
    refine ⟨fun heq => ?_, hapart.code, hapart.identity⟩
    obtain ⟨k, hk, -⟩ := (hrequests.joinNew id j hj).name
    obtain ⟨k', hk', -⟩ := (hrequests.joinNew id' j' hj').name
    rw [hk, hk'] at heq
    refine hapart.name ?_
    rw [← (canonicalUsername_eq_ok.mp hk).2, ← (canonicalUsername_eq_ok.mp hk').2]
    exact Except.ok.inj heq
  · have hnew := hrequests.joinNew id j hj
    refine ⟨fun heq => ?_, hnew.apart k m hm⟩
    obtain ⟨k', hk', hnone⟩ := hnew.name
    rw [hmembers.canonical k m hm, hk'] at heq
    rw [← Except.ok.inj heq, hm] at hnone
    cases hnone
  · rintro id ⟨hj, hl⟩
    obtain ⟨j, hj⟩ := contains_eq_true.mp hj
    rw [contains_eq_false.mpr (hrequests.oneKind id j hj)] at hl
    cases hl

theorem structurallySound_after (maxRooms pendingTtlMs : Nat) (calls : List Call)
    (h : Along Bracketed call (newWithPendingTtl maxRooms pendingTtlMs) calls) :
    AllRooms StructurallySound (after maxRooms pendingTtlMs calls) :=
  fun id room hroom => (enclosed_after h id room hroom).structurallySound

namespace Scenario

def addCarol : MembershipTransition :=
  transition [50] (some [50]) 1 2 [(alice, 1), (bob, 2), (carol, 3)] [1]

def removeCarol : MembershipTransition := transition [51] none 2 4 [(alice, 1), (bob, 2)] []

/-- Carol joins, sends a message that stays queued for Bob, and is removed; then it expires. -/
def carolGone : List Op :=
  bobJoins ++ [requestJoin 1 3 carol 3 [50], begin 1 addCarol, accept 1 addCarol,
    store 1 3 [50] 2 0, send 1 3 [57] 2 1, .commitApplication 1 lobby [57], store 1 1 [57] 2 3,
    begin 1 removeCarol, accept 1 removeCarol, .prune 600001]

end Scenario

open Scenario in
set_option maxRecDepth 100000 in
theorem structurallySound_carolGone :
    Along Bracketed call (newWithPendingTtl 1 600000) (calls carolGone) ∧
      AllRooms StructurallySound (after 1 600000 (calls carolGone)) :=
  ⟨by decide, structurallySound_after 1 600000 _ (by decide +kernel)⟩

open Scenario in
set_option maxRecDepth 100000 in
theorem gap_of_removed_sender :
    Along Bracketed call (newWithPendingTtl 1 600000) (calls carolGone) ∧
      ∃ room, (after 1 600000 (calls carolGone)).rooms.get? lobby = some room ∧
        room.expiredSenderGaps.get? (toLex (2, 3)) = some 1 ∧ ¬ IsMember room.members 3 := by
  have hrun : ((after 1 600000 (calls carolGone)).rooms.get? lobby).any (fun room =>
      decide (room.expiredSenderGaps.get? (toLex (2, 3)) = some 1 ∧ ¬ IsMember room.members 3)) =
      true := by decide
  exact ⟨by decide, exists_of_any hrun⟩

end Abyssal.Rooms
