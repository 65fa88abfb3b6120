import Abyssal.Rooms.Queues

/-! The structural invariant of a room, over whole runs: its members, the tables keyed by
member, its requests, a staged transition and the pending applications fit together. -/

namespace Abyssal.Rooms

open RelayRoom RoomAuthority OrdMap

variable {room room' : RelayRoom} {members : OrdMap Text Member}

def IsMember (members : OrdMap Text Member) (c : CodeId) : Prop :=
  ∃ k m, members.get? k = some m ∧ m.codeId = c

structure MembersOk (members : OrdMap Text Member) (owner : CodeId) (ownerUsername : Text) :
    Prop where
  canonical : ∀ k m, members.get? k = some m → canonicalUsername m.username = .ok k
  codes : DistinctCodes members
  identities : ∀ k m k' m', members.get? k = some m → members.get? k' = some m' →
    m.stableIdentity = m'.stableIdentity → k = k'
  owner : ∃ k m, canonicalUsername ownerUsername = .ok k ∧ members.get? k = some m ∧
    m.codeId = owner ∧ m.active = true

structure TablesOk (members : OrdMap Text Member) (revisions : OrdMap CodeId Nat)
    (deliveries : OrdMap CodeId (List PendingDelivery)) (gaps : OrdMap (CodeId ×ₗ CodeId) Nat)
    (snapshots : OrdMap CodeId StateSnapshot) : Prop where
  revised : ∀ c, (∃ r, revisions.get? c = some r) ↔ IsMember members c
  queued : ∀ c queue, deliveries.get? c = some queue → IsMember members c
  gapped : ∀ pair n, gaps.get? pair = some n → IsMember members (ofLex pair).1
  stored : ∀ c, IsMember members c →
    ∃ snapshot, snapshots.get? c = some snapshot ∧ revisions.get? c = some snapshot.revision

structure JoinNew (members : OrdMap Text Member) (join : PendingJoin) : Prop where
  name : ∃ k, canonicalUsername join.request.username = .ok k ∧ members.get? k = none
  apart : ∀ k m, members.get? k = some m →
    m.codeId ≠ join.request.codeId ∧ m.stableIdentity ≠ join.request.stableIdentity

structure JoinsApart (join join' : PendingJoin) : Prop where
  name : toAsciiLowercase join.request.username ≠ toAsciiLowercase join'.request.username
  code : join.request.codeId ≠ join'.request.codeId
  identity : join.request.stableIdentity ≠ join'.request.stableIdentity

def LeaveNamed (members : OrdMap Text Member) (owner : CodeId) (leave : LeaveRequest) : Prop :=
  leave.codeId ≠ owner ∧ ∃ k m, members.get? k = some m ∧ m.codeId = leave.codeId ∧
    m.username = leave.username ∧ m.stableIdentity = leave.stableIdentity

structure RequestsOk (members : OrdMap Text Member) (owner : CodeId)
    (joins : OrdMap Text PendingJoin) (leaves : OrdMap Text LeaveRequest) : Prop where
  joinNew : ∀ id join, joins.get? id = some join → JoinNew members join
  joinsApart : ∀ id join id' join', joins.get? id = some join → joins.get? id' = some join' →
    id ≠ id' → JoinsApart join join'
  leaveNamed : ∀ id leave, leaves.get? id = some leave → LeaveNamed members owner leave
  oneKind : ∀ id join, joins.get? id = some join → leaves.get? id = none

structure StagedFor (room : RelayRoom) (t : MembershipTransition) : Prop where
  bounds : TransitionBounds t
  fromEpoch : t.fromEpoch = room.epoch
  fromDigest : t.fromMembershipDigest = room.membershipDigest
  fromDigestLength : t.fromMembershipDigest.length = membershipDigestBytes
  toEpoch : t.toEpoch = t.fromEpoch + 1
  groupId : t.groupId = room.groupId
  noPending : room.pendingApplications.size = 0
  queue : room.queueOf room.ownerCodeId = []
  revision : ∃ r, room.memberRevisions.get? room.ownerCodeId = some r ∧ t.revision = r + 1 ∧
    r + 1 ≤ wordMax
  roster : ∃ requested ownerName r k, rosterMap t.roster = .ok requested ∧
    canonicalUsername room.ownerUsername = .ok ownerName ∧ requested.get? ownerName = some r ∧
    OneChange room.members requested (!t.welcome.isEmpty) k

structure PendingFor (room : RelayRoom) (messageId : Text) (p : PendingApplication) : Prop where
  key : p.admission.messageId = messageId
  active : ∃ k m, room.members.get? k = some m ∧ m.codeId = p.senderCodeId ∧ m.active = true
  noTransition : room.pendingTransition = none
  revision : ∃ r, room.memberRevisions.get? p.senderCodeId = some r ∧ p.previousSenderRevision < r
  snapshot : ∃ snapshot, p.previousSnapshot = some snapshot ∧
    snapshot.revision = p.previousSenderRevision

structure WellFormed (room : RelayRoom) : Prop where
  members : MembersOk room.members room.ownerCodeId room.ownerUsername
  tables : TablesOk room.members room.memberRevisions room.deliveries room.expiredSenderGaps
    room.snapshots
  requests : RequestsOk room.members room.ownerCodeId room.joins room.leaves
  staging : ∀ t, room.pendingTransition = some t → StagedFor room t
  pending : ∀ m p, room.pendingApplications.get? m = some p → PendingFor room m p
  senders : ∀ m p m' p', room.pendingApplications.get? m = some p →
    room.pendingApplications.get? m' = some p' → p.senderCodeId = p'.senderCodeId → m = m'

theorem RequestsOk.mono {owner : CodeId} {joins joins' : OrdMap Text PendingJoin}
    {leaves leaves' : OrdMap Text LeaveRequest} (h : RequestsOk members owner joins leaves)
    (hjoins : ∀ id j, joins'.get? id = some j → joins.get? id = some j)
    (hleaves : ∀ id l, leaves'.get? id = some l → leaves.get? id = some l) :
    RequestsOk members owner joins' leaves' := by
  refine ⟨fun id j hj => h.joinNew id j (hjoins id j hj),
    fun id j id' j' hj hj' => h.joinsApart id j id' j' (hjoins id j hj) (hjoins id' j' hj'),
    fun id l hl => h.leaveNamed id l (hleaves id l hl), fun id j hj => ?_⟩
  have hnone := h.oneKind id j (hjoins id j hj)
  cases hl : leaves'.get? id with
  | none => rfl
  | some l =>
    rw [hleaves id l hl] at hnone
    cases hnone

variable {deliveries : OrdMap CodeId (List PendingDelivery)}
  {snapshots : OrdMap CodeId StateSnapshot} {revisions : OrdMap CodeId Nat}

theorem TablesOk.queuesOf {deliveries' : OrdMap CodeId (List PendingDelivery)}
    {gaps gaps' : OrdMap (CodeId ×ₗ CodeId) Nat}
    (h : TablesOk members revisions deliveries gaps snapshots)
    (hqueues : ∀ c q, deliveries'.get? c = some q → ∃ q', deliveries.get? c = some q')
    (hgaps : ∀ pair n, gaps'.get? pair = some n → IsMember members (ofLex pair).1) :
    TablesOk members revisions deliveries' gaps' snapshots := by
  refine ⟨h.revised, fun c q hq => ?_, hgaps, h.stored⟩
  obtain ⟨q', hq'⟩ := hqueues c q hq
  exact h.queued c q' hq'

theorem TablesOk.restore {gaps : OrdMap (CodeId ×ₗ CodeId) Nat}
    (h : TablesOk members revisions deliveries gaps snapshots) {c : CodeId}
    (hc : IsMember members c) (snapshot : StateSnapshot) :
    TablesOk members (revisions.insert c snapshot.revision) deliveries gaps
      (snapshots.insert c snapshot) := by
  refine ⟨fun c' => ?_, h.queued, h.gapped, fun c' hc' => ?_⟩
  · rw [get?_insert]
    split_ifs with heq
    · exact ⟨fun _ => heq ▸ hc, fun _ => ⟨_, rfl⟩⟩
    · exact h.revised c'
  · rw [get?_insert, get?_insert]
    split_ifs with heq
    · exact ⟨snapshot, rfl, rfl⟩
    · exact h.stored c' hc'

theorem retracted_get? (room : RelayRoom) (m : Text) (selected : CodeId → Bool) (c : CodeId) :
    (room.retracted m selected).get? c = (room.deliveries.get? c).map fun queue =>
      if selected c then
        renumbered (room.memberActive c) (room.revisionOf c) (withoutMessage m queue)
      else queue := get?_mapValues ..

theorem dropEmptyQueues_get? (room : RelayRoom) (c : CodeId) :
    room.dropEmptyQueues.deliveries.get? c =
      (room.deliveries.get? c).filter fun queue => !queue.isEmpty := get?_filter ..

theorem dropEmptyQueues_queueOf (room : RelayRoom) (c : CodeId) :
    room.dropEmptyQueues.queueOf c = room.queueOf c := by
  rw [queueOf, queueOf, dropEmptyQueues_get?]
  cases room.deliveries.get? c with
  | none => rfl
  | some queue => cases queue <;> rfl

structure SameCore (room room' : RelayRoom) : Prop where
  owner : room'.ownerCodeId = room.ownerCodeId
  username : room'.ownerUsername = room.ownerUsername
  groupId : room'.groupId = room.groupId
  epoch : room'.epoch = room.epoch
  digest : room'.membershipDigest = room.membershipDigest
  members : room'.members = room.members
  revisions : room'.memberRevisions = room.memberRevisions
  pending : room'.pendingApplications = room.pendingApplications

theorem StagedFor.frame {t : MembershipTransition} (h : StagedFor room t)
    (hcore : SameCore room room') (hqueue : room'.queueOf room.ownerCodeId = []) :
    StagedFor room' t := by
  refine ⟨h.bounds, hcore.epoch ▸ h.fromEpoch, hcore.digest ▸ h.fromDigest, h.fromDigestLength,
    h.toEpoch, hcore.groupId ▸ h.groupId, hcore.pending ▸ h.noPending, hcore.owner ▸ hqueue, ?_, ?_⟩
  · rw [hcore.owner, hcore.revisions]
    exact h.revision
  · rw [hcore.username, hcore.members]
    exact h.roster

variable {m : Text} {p : PendingApplication} (h : WellFormed room)

include h

theorem WellFormed.noTransition
    (hp : room.pendingApplications.get? m = some p) (t : MembershipTransition) :
    room.pendingTransition ≠ some t := by
  rw [(h.pending m p hp).noTransition]
  exact Option.some_ne_none t |>.symm

theorem WellFormed.of_core (hcore : SameCore room room')
    (htables : TablesOk room.members room.memberRevisions room'.deliveries room'.expiredSenderGaps
      room'.snapshots)
    (hrequests : RequestsOk room.members room.ownerCodeId room'.joins room'.leaves)
    (htransition : ∀ t, room'.pendingTransition = some t → room.pendingTransition = some t)
    (hqueue : room.queueOf room.ownerCodeId = [] → room'.queueOf room.ownerCodeId = []) :
    WellFormed room' := by
  refine ⟨?_, ?_, ?_, fun t ht => ?_, fun m p hp => ?_, ?_⟩
  · rw [hcore.members, hcore.owner, hcore.username]
    exact h.members
  · rw [hcore.members, hcore.revisions]
    exact htables
  · rw [hcore.members, hcore.owner]
    exact hrequests
  · have hs := h.staging t (htransition t ht)
    exact hs.frame hcore (hqueue hs.queue)
  · rw [hcore.pending] at hp
    have hq := h.pending m p hp
    refine ⟨hq.key, ?_, ?_, ?_, hq.snapshot⟩
    · rw [hcore.members]
      exact hq.active
    · cases ht : room'.pendingTransition with
      | none => rfl
      | some t => exact absurd (htransition t ht) (h.noTransition hp t)
    · rw [hcore.revisions]
      exact hq.revision
  · rw [hcore.pending]
    exact h.senders

theorem WellFormed.undone (hp : room.pendingApplications.get? m = some p) :
    WellFormed (room.undone m p) := by
  have hpending := h.pending m p hp
  obtain ⟨snapshot, hsnapshot, hrevision⟩ := hpending.snapshot
  obtain ⟨k, mem, hmem, hcode, hactive⟩ := hpending.active
  have hmember : IsMember room.members p.senderCodeId := ⟨k, mem, hmem, hcode⟩
  have hpendings : ∀ m' p', (room.pendingApplications.erase m).get? m' = some p' →
      m ≠ m' ∧ room.pendingApplications.get? m' = some p' := by
    intro m' p' hp'
    rw [get?_erase] at hp'
    split_ifs at hp' with hne
    exact ⟨hne, hp'⟩
  refine ⟨h.members, ?_, h.requests, fun t ht => absurd ht (h.noTransition hp t), ?_, ?_⟩
  · have hqueues : TablesOk room.members room.memberRevisions
        (room.retracted m fun _ => true) room.expiredSenderGaps room.snapshots := by
      refine h.tables.queuesOf (fun c q hq => ?_) h.tables.gapped
      rw [retracted_get?] at hq
      cases hd : room.deliveries.get? c with
      | none =>
        rw [hd] at hq
        cases hq
      | some q' => exact ⟨q', rfl⟩
    have hrestored := hqueues.restore hmember snapshot
    rw [hrevision] at hrestored
    simp only [RelayRoom.undone, restoreSender, hsnapshot]
    exact hrestored
  · intro m' p' hp'
    obtain ⟨hne, hget⟩ := hpendings m' p' hp'
    have hother := h.pending m' p' hget
    obtain ⟨r, hr, hlt⟩ := hother.revision
    -- Every other pending application has another sender.
    have hsender : p.senderCodeId ≠ p'.senderCodeId :=
      fun heq => hne (h.senders m p m' p' hp hget heq)
    refine ⟨hother.key, hother.active, hother.noTransition, ⟨r, ?_, hlt⟩, hother.snapshot⟩
    exact (get?_insert_of_ne _ _ hsender).trans hr
  · intro m₁ p₁ m₂ p₂ h₁ h₂
    exact h.senders m₁ p₁ m₂ p₂ (hpendings m₁ p₁ h₁).2 (hpendings m₂ p₂ h₂).2

theorem WellFormed.trim (ht : Trim room room') : WellFormed room' := by
  cases ht with
  | expire c queue thinned gaps hqueue hthin hgaps =>
    refine h.of_core ⟨rfl, rfl, rfl, rfl, rfl, rfl, rfl, rfl⟩ ?_ h.requests (fun _ ht => ht) ?_
    · refine h.tables.queuesOf (fun c' q hq => ?_) fun pair n hp => ?_
      · rw [get?_insert] at hq
        split_ifs at hq with heq
        · exact ⟨queue, heq ▸ hqueue⟩
        · exact ⟨q, hq⟩
      · rcases hgaps pair n hp with hc | hold
        · exact hc ▸ h.tables.queued c queue hqueue
        · exact h.tables.gapped pair n hold
    · intro howner
      simp only [queueOf, get?_insert] at howner ⊢
      split_ifs with hc
      · rw [← hc, hqueue, Option.getD_some] at howner
        subst howner
        cases hthin
        rw [renumbered_nil, Option.getD_some]
      · exact howner
  | dropEmpty =>
    refine h.of_core ⟨rfl, rfl, rfl, rfl, rfl, rfl, rfl, rfl⟩ ?_ h.requests (fun _ ht => ht)
      (dropEmptyQueues_queueOf room room.ownerCodeId).trans
    refine h.tables.queuesOf (fun c q hq => ?_) h.tables.gapped
    rw [dropEmptyQueues_get?] at hq
    exact ⟨q, (Option.filter_eq_some_iff.mp hq).1⟩
  | evict n | recount pendingBytes snapshotBytes deliveryBytes =>
    exact h.of_core ⟨rfl, rfl, rfl, rfl, rfl, rfl, rfl, rfl⟩ h.tables h.requests (fun _ ht => ht) id

theorem WellFormed.tidy (ht : Tidy room room') : WellFormed room' := by
  cases ht with
  | requests joins leaves hjoins hleaves =>
    exact h.of_core ⟨rfl, rfl, rfl, rfl, rfl, rfl, rfl, rfl⟩ h.tables
      (h.requests.mono hjoins hleaves) (fun _ ht => ht) id
  | unstage =>
    exact h.of_core ⟨rfl, rfl, rfl, rfl, rfl, rfl, rfl, rfl⟩ h.tables h.requests
      (fun _ ht => nomatch ht) id
  | undo m p hp => exact h.undone hp
  | trim htrim => exact h.trim htrim

theorem WellFormed.evicted (he : Evicted room room') : WellFormed room' := by
  obtain ⟨n, rfl⟩ := he
  exact h.trim (.evict n)

end Abyssal.Rooms
