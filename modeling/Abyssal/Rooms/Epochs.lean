import Abyssal.Rooms.Capacity

/-! The history of one room's group is linear: its epoch, digest and members move only with
an accepted commit, one epoch and one member at a time. -/

namespace Abyssal.Rooms

open RelayRoom RoomAuthority Option

variable {room room' c a : RelayRoom} {b : RoomAuthority}

def memberAt (room : RelayRoom) (k : Text) : Option (Text × CodeId × Bytes) :=
  (room.members.get? k).map fun m => (m.username, m.codeId, m.stableIdentity)

/-- What never changes about a room. -/
structure SameRoom (room room' : RelayRoom) : Prop where
  roomId : room'.roomId = room.roomId
  groupId : room'.groupId = room.groupId
  owner : room'.ownerCodeId = room.ownerCodeId
  username : room'.ownerUsername = room.ownerUsername

structure SameGroup (room room' : RelayRoom) : Prop where
  epoch : room'.epoch = room.epoch
  digest : room'.membershipDigest = room.membershipDigest
  members : ∀ k, memberAt room' k = memberAt room k

inductive OneMember (room room' : RelayRoom) : Prop
  | added (k : Text) (hnew : memberAt room k = none) (hadded : (memberAt room' k).isSome = true)
      (hrest : ∀ k', k' ≠ k → memberAt room' k' = memberAt room k')
  | removed (k : Text) (m : Member) (hmember : room.members.get? k = some m)
      (hnotOwner : m.codeId ≠ room.ownerCodeId) (hremoved : memberAt room' k = none)
      (hrest : ∀ k', k' ≠ k → memberAt room' k' = memberAt room k')

/-- The room moves on by its staged transition. -/
structure Advanced (room room' : RelayRoom) (t : MembershipTransition) : Prop where
  staged : room.pendingTransition = some t
  fromEpoch : t.fromEpoch = room.epoch
  fromDigest : t.fromMembershipDigest = room.membershipDigest
  epoch : room'.epoch = room.epoch + 1
  digest : room'.membershipDigest = t.membershipDigest
  oneMember : OneMember room room'

theorem SameRoom.trans {b : RelayRoom} (hab : SameRoom a b) (hbc : SameRoom b c) : SameRoom a c :=
  ⟨hbc.roomId.trans hab.roomId, hbc.groupId.trans hab.groupId, hbc.owner.trans hab.owner,
    hbc.username.trans hab.username⟩

theorem SameGroup.trans {b : RelayRoom} (hab : SameGroup a b) (hbc : SameGroup b c) :
    SameGroup a c :=
  ⟨hbc.epoch.trans hab.epoch, hbc.digest.trans hab.digest,
    fun k => (hbc.members k).trans (hab.members k)⟩

structure TidyFrame (room room' : RelayRoom) : Prop where
  same : SameRoom room room'
  epoch : room'.epoch = room.epoch
  digest : room'.membershipDigest = room.membershipDigest
  members : room'.members = room.members
  transition : ∀ t, room'.pendingTransition = some t → room.pendingTransition = some t

theorem TidyFrame.group (h : TidyFrame room room') : SameGroup room room' := by
  refine ⟨h.epoch, h.digest, fun k => ?_⟩
  rw [memberAt, h.members, memberAt]

theorem RelayRoom.TidyStar.frame (h : TidyStar room room') : TidyFrame room room' := by
  induction h with
  | refl => exact ⟨⟨rfl, rfl, rfl, rfl⟩, rfl, rfl, rfl, fun _ ht => ht⟩
  | tail _ hstep ih =>
    have hone : ∀ {r r' : RelayRoom}, Tidy r r' → TidyFrame r r' := by
      intro r r' hstep
      cases hstep with
      | requests | undo => exact ⟨⟨rfl, rfl, rfl, rfl⟩, rfl, rfl, rfl, fun _ ht => ht⟩
      | unstage => exact ⟨⟨rfl, rfl, rfl, rfl⟩, rfl, rfl, rfl, fun _ ht => nomatch ht⟩
      | trim htrim =>
        cases htrim <;> exact ⟨⟨rfl, rfl, rfl, rfl⟩, rfl, rfl, rfl, fun _ ht => ht⟩
    have h := hone hstep
    exact ⟨ih.same.trans h.same, h.epoch.trans ih.epoch, h.digest.trans ih.digest,
      h.members.trans ih.members, fun t ht => ih.transition t (h.transition t ht)⟩

theorem storeRoom_memberAt (room : RelayRoom) (a : StoreArgs) (plan : StorePlan) (k : Text) :
    memberAt (storeRoom room a plan) k = memberAt room k := by
  have hactivated := storeRoom_members room a plan
  unfold memberAt
  cases hm : room.members.get? k with
  | none => rw [hactivated.none.mpr hm]
  | some m =>
    obtain ⟨m', hm', ha⟩ := hactivated.new hm
    rw [hm', map_some, map_some, ha.username, ha.code, ha.identity]

variable {op : Op}

theorem RoomAuthority.Effect.sameGroup {id : Text} (he : Effect b op id room room')
    (hop : ∀ clock owner roomId messageId revision,
      op ≠ .acceptMembership clock owner roomId messageId revision) :
    SameRoom room room' ∧ SameGroup room room' := by
  cases he with
  | evicted hevict =>
    obtain ⟨n, rfl⟩ := hevict
    exact ⟨⟨rfl, rfl, rfl, rfl⟩, rfl, rfl, fun _ => rfl⟩
  | joined hplan | left hplan | staged hplan =>
    rw [hplan.roomEq]
    exact ⟨⟨rfl, rfl, rfl, rfl⟩, rfl, rfl, fun _ => rfl⟩
  | unjoined | unleft | unstaged | admitted | rolledBack | abandoned =>
    exact ⟨⟨rfl, rfl, rfl, rfl⟩, rfl, rfl, fun _ => rfl⟩
  | accepted => exact absurd rfl (hop _ _ _ _ _)
  | committed hplan hevict =>
    obtain ⟨n, rfl⟩ := hevict
    obtain ⟨pendingBytes, hroom, -⟩ := hplan.roomEq
    rw [hroom]
    exact ⟨⟨rfl, rfl, rfl, rfl⟩, rfl, rfl, fun _ => rfl⟩
  | stored => exact ⟨⟨rfl, rfl, rfl, rfl⟩, rfl, rfl, storeRoom_memberAt _ _ _⟩

theorem NextMembers.oneMember {t : MembershipTransition} {next : OrdMap Text Member}
    (hnext : NextMembers room t next) (hroom' : room'.members = next) : OneMember room room' := by
  have hat : ∀ k, memberAt room' k =
      (next.get? k).map fun m => (m.username, m.codeId, m.stableIdentity) := by
    intro k
    rw [memberAt, hroom']
  cases hnext with
  | addition k requestId join hnew =>
    refine .added k ?_ ?_ fun k' hk' => ?_
    · rw [memberAt, hnew, map_none]
    · rw [hat, OrdMap.get?_insert_self]
      rfl
    · rw [hat, OrdMap.get?_insert_of_ne _ _ (Ne.symm hk')]
      rfl
  | removal k m hmember hnotOwner =>
    refine .removed k m hmember hnotOwner ?_ fun k' hk' => ?_
    · rw [hat, OrdMap.get?_erase_self, map_none]
    · rw [hat, OrdMap.get?_erase_of_ne _ (Ne.symm hk')]
      rfl

variable {owner : CodeId} {messageId : Text} {revision : Nat} {clock : AcceptClock}

theorem RoomAuthority.Accepted.advanced {plan : AcceptPlan}
    (hplan : Accepted b room owner messageId revision plan) (h : WellFormed room)
    (hevict : Evicted (acceptRoom clock room owner plan) room') :
    SameRoom room room' ∧ Advanced room room' plan.transition := by
  have hstaged := h.staging _ hplan.staged
  have hnext := nextMembers_of_resolved h hstaged hplan.resolved
  obtain ⟨n, rfl⟩ := hevict
  rw [acceptRoom_eq]
  refine ⟨⟨rfl, rfl, rfl, rfl⟩, hplan.staged, hstaged.fromEpoch, hstaged.fromDigest, ?_, rfl,
    hnext.oneMember rfl⟩
  exact hstaged.toEpoch.trans (by rw [hstaged.fromEpoch])

theorem RoomAuthority.Effect.sameRoom {id : Text} (he : Effect b op id room room')
    (h : WellFormed room) : SameRoom room room' := by
  by_cases hop : ∃ clock owner roomId messageId revision,
      op = .acceptMembership clock owner roomId messageId revision
  · obtain ⟨clock, owner, roomId, messageId, revision, rfl⟩ := hop
    cases he with
    | evicted hevict =>
      obtain ⟨n, rfl⟩ := hevict
      exact ⟨rfl, rfl, rfl, rfl⟩
    | accepted hplan hevict => exact (hplan.advanced h hevict).1
  · push Not at hop
    exact (he.sameGroup hop).1

theorem OneMember.of_members {b : RelayRoom} (hmembers : b.members = a.members)
    (howner : b.ownerCodeId = a.ownerCodeId) (h : OneMember b c) : OneMember a c := by
  have hat : ∀ k, memberAt b k = memberAt a k := by
    intro k
    rw [memberAt, hmembers, memberAt]
  cases h with
  | added k hnew hadded hrest =>
    exact .added k (hat k ▸ hnew) hadded fun k' hk' => (hrest k' hk').trans (hat k')
  | removed k m hmember hnotOwner hremoved hrest =>
    exact .removed k m (hmembers ▸ hmember) (howner ▸ hnotOwner) hremoved
      fun k' hk' => (hrest k' hk').trans (hat k')

/-- The call is an acceptance by the owner of the room's staged transition, and it succeeds. -/
def AcceptsStaged (s : RoomAuthority) (c : Call) (id : Text) (room : RelayRoom)
    (t : MembershipTransition) : Prop :=
  (∃ clock, c.2 = .acceptMembership clock room.ownerCodeId id t.messageId t.revision) ∧
    (exec c.1 s c.2).2 = .ok (.membership (.accepted t))

theorem base_some {σ : HashOrder} {s : RoomAuthority} {id : Text} {room : RelayRoom} (op : Op)
    (h : s.rooms.get? id = some room) :
    ∃ mid, (op.base σ s).rooms.get? id = some mid ∧ TidyStar room mid := by
  unfold Op.base
  cases op.pruneClock with
  | none => exact ⟨room, h, .refl⟩
  | some now =>
    have hrel := pruneExpired_rooms σ now s id
    rw [h] at hrel
    obtain ⟨mid, hmid, hpruned⟩ := rel_some_left hrel
    exact ⟨mid, hmid, hpruned.tidy⟩

theorem RoomAuthority.Step.accept_cases {σ : HashOrder} {s' : RoomAuthority} {roomId : Text}
    {result : Except String Reply}
    (hstep : Step σ b (.acceptMembership clock owner roomId messageId revision) s' result)
    (hcapacity : Capacity b) {id : Text} (hroom : b.rooms.get? id = some room)
    (hroom' : s'.rooms.get? id = some room') :
    Evicted room room' ∨ roomId = id ∧ ∃ plan, Accepted b room owner messageId revision plan ∧
      Evicted (acceptRoom clock room owner plan) room' ∧
      result = .ok (.membership (.accepted plan.transition)) := by
  have hkept : ∀ r, b.rooms.get? id = some r → Evicted r room' → Evicted room room' := by
    intro r hr hevict
    rw [hroom] at hr
    exact some.inj hr ▸ hevict
  cases hstep with
  | failed => exact .inl (hkept room' hroom' (.refl room'))
  | replied _ hop => cases hop
  | @accepted _ _ _ _ _ plan target _ settled htarget hplan hsettle =>
    -- The room itself is within the limits, so nothing after the change fails.
    have hlimits := (@Effect.accepted b clock owner roomId messageId revision plan target _ hplan
      (.refl _)).limits (hcapacity.replay roomId target htarget)
    have hok : settled = .ok (.accepted plan.transition) :=
      (hcapacity.insert htarget hlimits.1 hlimits.2 rfl).settled hsettle
    have hrel := settleAcceptance_rooms σ { b with
      rooms := b.rooms.insert roomId (acceptRoom clock target owner plan) } plan id
    rw [hsettle, hroom'] at hrel
    obtain ⟨before, hbefore, hevict⟩ := rel_some_right hrel
    rw [OrdMap.get?_insert] at hbefore
    split_ifs at hbefore with hid
    · subst hid
      rw [hroom] at htarget
      obtain rfl := some.inj htarget
      obtain rfl := some.inj hbefore
      exact .inr ⟨rfl, plan, hplan, hevict, by rw [hok]; rfl⟩
    · exact .inl (hkept before hbefore hevict)

theorem epoch_linear (maxRooms pendingTtlMs : Nat) (calls : List Call) (c : Call) (id : Text)
    (room room' : RelayRoom) (hroom : (after maxRooms pendingTtlMs calls).rooms.get? id = some room)
    (hroom' : (call (after maxRooms pendingTtlMs calls) c).rooms.get? id = some room') :
    SameRoom room room' ∧ (SameGroup room room' ∨
      ∃ t, AcceptsStaged (after maxRooms pendingTtlMs calls) c id room t ∧
        Advanced room room' t) := by
  have hcapacity := capacity_after maxRooms pendingTtlMs calls
  have hwell := wellFormed_after maxRooms pendingTtlMs calls
  generalize after maxRooms pendingTtlMs calls = s at *
  obtain ⟨σ, op⟩ := c
  obtain ⟨mid, hmid, htidy⟩ := @base_some σ _ _ _ op hroom
  have hframe := htidy.frame
  have hmidWell : WellFormed mid := (hwell id room hroom).tidyStar htidy
  have hstep := exec_step σ s op
  by_cases hop : ∃ clock owner roomId messageId revision,
      op = .acceptMembership clock owner roomId messageId revision
  · obtain ⟨clock, owner, roomId, messageId, revision, rfl⟩ := hop
    rcases hstep.accept_cases (hcapacity.base σ _) hmid hroom' with
      ⟨n, rfl⟩ | ⟨rfl, plan, hplan, hevict, hreply⟩
    · exact ⟨hframe.same.trans ⟨rfl, rfl, rfl, rfl⟩,
        .inl (hframe.group.trans ⟨rfl, rfl, fun _ => rfl⟩)⟩
    · obtain ⟨hsame, hadvanced⟩ := hplan.advanced hmidWell hevict
      refine ⟨hframe.same.trans hsame, .inr ⟨plan.transition, ⟨⟨clock, ?_⟩, hreply⟩,
        hframe.transition _ hplan.staged, hadvanced.fromEpoch.trans hframe.epoch,
        hadvanced.fromDigest.trans hframe.digest, hframe.epoch ▸ hadvanced.epoch, hadvanced.digest,
        hadvanced.oneMember.of_members hframe.members hframe.same.owner⟩⟩
      rw [hplan.messageId, hplan.revision, ← hplan.owner, hframe.same.owner]
  · -- Nothing else is an acceptance, and a room that is there before the call is not created.
    push Not at hop
    have heffect : Effect (op.base σ s) op id mid room' := by
      rcases hstep.effect hroom' with ⟨mid', hmid', he⟩ | ⟨_, _, a, plan, -, rfl, hplan, -⟩
      · rw [hmid] at hmid'
        exact some.inj hmid' ▸ he
      · rw [hplan.absent] at hmid
        cases hmid
    obtain ⟨hsame, hgroup⟩ := heffect.sameGroup hop
    exact ⟨hframe.same.trans hsame, .inl (hframe.group.trans hgroup)⟩

open Scenario in
set_option maxRecDepth 100000 in
theorem epoch_linear_addBob : ∃ room room',
    (after 1 600000 (calls (bobJoins.take 3))).rooms.get? lobby = some room ∧
    (call (after 1 600000 (calls (bobJoins.take 3))) (.byKey, accept 1 addBob)).rooms.get? lobby =
      some room' ∧
    SameRoom room room' ∧ (SameGroup room room' ∨
      ∃ t, AcceptsStaged (after 1 600000 (calls (bobJoins.take 3))) (.byKey, accept 1 addBob) lobby
        room t ∧ Advanced room room' t) ∧ room.epoch = 0 ∧ room'.epoch = 1 := by
  have hbefore : ((after 1 600000 (calls (bobJoins.take 3))).rooms.get? lobby).any
      (fun room => decide (room.epoch = 0)) = true := by decide
  have hafter : ((call (after 1 600000 (calls (bobJoins.take 3))) (.byKey, accept 1 addBob)
      ).rooms.get? lobby).any (fun room => decide (room.epoch = 1)) = true := by decide
  obtain ⟨room, hroom, hepoch⟩ := exists_of_any hbefore
  obtain ⟨room', hroom', hepoch'⟩ := exists_of_any hafter
  obtain ⟨hsame, hmoved⟩ := epoch_linear 1 600000 _ _ lobby room room' hroom hroom'
  exact ⟨room, room', hroom, hroom', hsame, hmoved, hepoch, hepoch'⟩

end Abyssal.Rooms
