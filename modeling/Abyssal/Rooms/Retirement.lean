import Abyssal.Rooms.Acceptance

/-! What a stored snapshot acknowledges: the welcome of an inactive member, a consecutively
numbered front part of an active member's queue, or nothing at all. -/

namespace Abyssal.Rooms

open RelayRoom RoomAuthority List Option

variable {a : StoreArgs} {room : RelayRoom} {n r : Nat} {queue : List PendingDelivery}

theorem retireLoop_ok {revision expected : Nat} (h : retireLoop revision queue expected n = .ok r) :
    ∃ k, r = n + (k + 1) ∧ revision = expected + k ∧ k < queue.length ∧
      revisions (queue.take (k + 1)) = List.range' expected (k + 1) := by
  induction queue generalizing expected n with
  | nil => cases h
  | cons d queue ih =>
    obtain ⟨_, hd, h⟩ := bind_eq_ok.mp h
    obtain ⟨n', hn, h⟩ := okOr_bind.mp h
    have hd := not_not.mp (rejectIf_eq_ok.mp hd)
    obtain ⟨-, rfl⟩ := checkedAdd_eq_some.mp hn
    by_cases hlast : expected = revision
    · rw [if_pos hlast] at h
      cases h
      refine ⟨0, rfl, hlast.symm, Nat.zero_lt_succ _, ?_⟩
      simp only [take_succ_cons, take_zero, revisions, map_cons, map_nil, hd]
      rfl
    · rw [if_neg hlast] at h
      obtain ⟨expected', hexpected, h⟩ := okOr_bind.mp h
      obtain ⟨-, rfl⟩ := checkedAdd_eq_some.mp hexpected
      obtain ⟨k, hr, hrev, hk, htake⟩ := ih h
      refine ⟨k + 1, by omega, by omega, Nat.succ_lt_succ hk, ?_⟩
      rw [take_succ_cons, range'_succ, ← htake, revisions, map_cons, hd]
      rfl

def PendingDelivery.At (d : PendingDelivery) (a : StoreArgs) : Prop :=
  d.messageId = a.messageId ∧ d.epoch = a.epoch ∧ d.membershipDigest = a.membershipDigest

inductive Retires (room : RelayRoom) (a : StoreArgs) : Nat → Prop
  | welcome (d : PendingDelivery) (rest : List PendingDelivery)
      (hactive : room.memberActive a.memberCodeId = false)
      (hqueue : room.queueOf a.memberCodeId = d :: rest) (hwelcome : d.payload.isWelcome = true)
      (hat : d.At a) (hrevision : a.revision = room.revisionOf a.memberCodeId)
      (hnumber : d.revision = a.revision) : Retires room a 1
  | front (n : Nat) (d : PendingDelivery) (hactive : room.memberActive a.memberCodeId = true)
      (hrevision : a.revision = room.revisionOf a.memberCodeId + (n + 1))
      (hnumbers : revisions ((room.queueOf a.memberCodeId).take (n + 1)) =
        List.range' (room.revisionOf a.memberCodeId + 1) (n + 1))
      (hlast : (room.queueOf a.memberCodeId)[n]? = some d) (hat : d.At a) : Retires room a (n + 1)
  | nothing (hactive : room.memberActive a.memberCodeId = true)
      (hrevision : a.revision = room.revisionOf a.memberCodeId)
      (hsnapshot : ∀ snapshot, room.snapshots.get? a.memberCodeId = some snapshot →
        snapshot.epoch = a.epoch ∧ snapshot.messageId = a.messageId ∧
          snapshot.membershipDigest = a.membershipDigest ∧
          snapshot.stateEnvelope = a.stateEnvelope) : Retires room a 0

theorem checkWelcome_ok (h : checkWelcome room a queue r = .ok n) :
    ∃ d rest, queue = d :: rest ∧ n = 1 ∧ d.payload.isWelcome = true ∧ d.At a ∧ a.revision = r ∧
      d.revision = a.revision := by
  obtain ⟨d, hd, h⟩ := okOr_bind.mp h
  obtain ⟨hrevision, h⟩ := rejectIf_bind.mp h
  obtain ⟨hmessage, h⟩ := rejectIf_bind.mp h
  obtain ⟨hcheckpoint, h⟩ := rejectIf_bind.mp h
  push Not at hrevision hcheckpoint
  obtain ⟨rest, hqueue⟩ := head?_eq_some_iff.mp hd
  have hat : d.At a := ⟨not_not.mp hmessage, hcheckpoint⟩
  cases hpayload : d.payload with
  | application => simp only [hpayload, reduceCtorEq] at h
  | membership fromEpoch fromDigest groupId roster control welcome data =>
    simp only [hpayload] at h
    split_ifs at h with hw
    cases h
    refine ⟨d, rest, hqueue, rfl, ?_, hat, hrevision⟩
    simp [hpayload, DeliveryPayload.isWelcome, hw.2]

theorem RoomAuthority.Stored.retires {s : RoomAuthority} {now : Nat} {plan : StorePlan}
    (h : Stored s now room a plan) : Retires room a plan.retired := by
  have hretired := h.retired
  have hcheck := h.checkpoint
  unfold retireCount at hretired
  unfold checkCheckpoint at hcheck
  cases hactive : room.memberActive a.memberCodeId with
  | false =>
    rw [hactive, Bool.not_false, if_pos rfl] at hretired
    obtain ⟨d, rest, hqueue, hn, hwelcome, hat, hrevision, hnumber⟩ := checkWelcome_ok hretired
    rw [hn]
    exact .welcome d rest hactive hqueue hwelcome hat hrevision hnumber
  | true =>
    rw [hactive, Bool.not_true, if_neg Bool.false_ne_true] at hretired hcheck
    by_cases hahead : room.revisionOf a.memberCodeId < a.revision
    · rw [if_pos hahead] at hretired
      obtain ⟨queue, hqueue, hrest⟩ := okOr_bind.mp hretired
      obtain ⟨expected, hexpected, hrest⟩ := okOr_bind.mp hrest
      obtain ⟨n, hloop, hrest⟩ := bind_eq_ok.mp hrest
      obtain ⟨_, hmessage, hdone⟩ := bind_eq_ok.mp hrest
      have hmessage := not_not.mp (rejectIf_eq_ok.mp hmessage)
      obtain ⟨-, rfl⟩ := checkedAdd_eq_some.mp hexpected
      obtain ⟨k, hn, hrevision, hk, htake⟩ := retireLoop_ok hloop
      have hn' := Except.ok.inj hdone
      rw [Nat.zero_add] at hn
      have hof : room.queueOf a.memberCodeId = queue := by rw [queueOf, hqueue, getD_some]
      rw [← hn', hn]
      rw [← hn', hn, if_pos (Nat.succ_pos k)] at hcheck
      obtain ⟨target, htarget, hcheck⟩ := okOr_bind.mp hcheck
      have hcheck := rejectIf_eq_ok.mp hcheck
      push Not at hcheck
      rw [hqueue, bind_some, Nat.add_sub_cancel] at htarget
      rw [hn, Nat.add_sub_cancel, htarget, map_some] at hmessage
      refine .front k target hactive (by omega) (hof ▸ htake) (hof ▸ htarget) ?_
      exact ⟨Option.some.inj hmessage, hcheck⟩
    · rw [if_neg hahead] at hretired
      have hretired := Except.ok.inj hretired
      rw [← hretired, if_neg (Nat.lt_irrefl 0)] at hcheck
      rw [← hretired]
      refine .nothing hactive (Nat.le_antisymm (Nat.not_lt.mp hahead) h.notBehind) fun snap hsnap => ?_
      rw [hsnap] at hcheck
      have hcheck := rejectIf_eq_ok.mp hcheck
      push Not at hcheck
      exact ⟨hcheck.1, hcheck.2.2.1, hcheck.2.2.2.1, hcheck.2.2.2.2⟩

theorem Retires.of_queue_nil (h : Retires room a n) (hqueue : room.queueOf a.memberCodeId = []) :
    n = 0 ∧ a.revision = room.revisionOf a.memberCodeId := by
  cases h with
  | welcome d rest _ hcons =>
    rw [hqueue] at hcons
    cases hcons
  | front n d _ _ _ hlast =>
    rw [hqueue] at hlast
    cases hlast
  | nothing _ hrevision => exact ⟨rfl, hrevision⟩

theorem storeRoom_queueOf (room : RelayRoom) (a : StoreArgs) (plan : StorePlan) (c : CodeId) :
    (storeRoom room a plan).queueOf c =
      if a.memberCodeId = c then (room.queueOf c).drop plan.retired else room.queueOf c := by
  unfold storeRoom queueOf
  dsimp only
  by_cases hretired : 0 < plan.retired
  · rw [if_pos hretired, OrdMap.get?_modify]
    split_ifs with hc
    · cases room.deliveries.get? c with
      | none => rw [map_none, getD_none, drop_nil]
      | some queue => rfl
    · rfl
  · rw [if_neg hretired, Nat.eq_zero_of_not_pos hretired, drop_zero, ite_self]

structure Activated (m m' : Member) : Prop where
  username : m'.username = m.username
  code : m'.codeId = m.codeId
  identity : m'.stableIdentity = m.stableIdentity
  active : m.active = true → m'.active = true

def ActivatedFrom (members members' : OrdMap Text Member) : Prop :=
  ∀ k, Option.Rel Activated (members.get? k) (members'.get? k)

namespace ActivatedFrom

variable {members members' : OrdMap Text Member} (h : ActivatedFrom members members')
include h

variable {k : Text}

theorem old {m' : Member} (hm' : members'.get? k = some m') :
    ∃ m, members.get? k = some m ∧ Activated m m' := by
  have hrel := h k
  rw [hm'] at hrel
  exact rel_some_right hrel

theorem new {m : Member} (hm : members.get? k = some m) :
    ∃ m', members'.get? k = some m' ∧ Activated m m' := by
  have hrel := h k
  rw [hm] at hrel
  exact rel_some_left hrel

theorem none {k : Text} : members'.get? k = none ↔ members.get? k = none := by
  cases hm : members.get? k with
  | none =>
    have hrel := h k
    rw [hm] at hrel
    exact ⟨fun _ => rfl, fun _ => rel_none_left hrel⟩
  | some m =>
    obtain ⟨m', hm', -⟩ := h.new hm
    rw [hm']
    exact ⟨nofun, nofun⟩

theorem isMember {c : CodeId} : IsMember members' c ↔ IsMember members c := by
  constructor
  · rintro ⟨k, m', hm', hc⟩
    obtain ⟨m, hm, ha⟩ := h.old hm'
    exact ⟨k, m, hm, ha.code.symm.trans hc⟩
  · rintro ⟨k, m, hm, hc⟩
    obtain ⟨m', hm', ha⟩ := h.new hm
    exact ⟨k, m', hm', ha.code.trans hc⟩

theorem identity (k : Text) : (members'.get? k).map Member.stableIdentity =
    (members.get? k).map Member.stableIdentity := by
  cases hm : members.get? k with
  | none => rw [h.none.mpr hm]
  | some m =>
    obtain ⟨m', hm', ha⟩ := h.new hm
    rw [hm', map_some, map_some, ha.identity]

variable {owner : CodeId}

theorem membersOk {username : Text} (hm : MembersOk members owner username) :
    MembersOk members' owner username := by
  refine ⟨fun k m' hm' => ?_, fun k₁ m₁ k₂ m₂ h₁ h₂ heq => ?_, fun k₁ m₁ k₂ m₂ h₁ h₂ heq => ?_, ?_⟩
  · obtain ⟨m, hget, ha⟩ := h.old hm'
    rw [ha.username]
    exact hm.canonical k m hget
  · obtain ⟨n₁, hn₁, ha₁⟩ := h.old h₁
    obtain ⟨n₂, hn₂, ha₂⟩ := h.old h₂
    exact hm.codes k₁ n₁ k₂ n₂ hn₁ hn₂ (ha₁.code.symm.trans (heq.trans ha₂.code))
  · obtain ⟨n₁, hn₁, ha₁⟩ := h.old h₁
    obtain ⟨n₂, hn₂, ha₂⟩ := h.old h₂
    exact hm.identities k₁ n₁ k₂ n₂ hn₁ hn₂ (ha₁.identity.symm.trans (heq.trans ha₂.identity))
  · obtain ⟨k, m, hname, hget, hcode, hactive⟩ := hm.owner
    obtain ⟨m', hm', ha⟩ := h.new hget
    exact ⟨k, m', hname, hm', ha.code.trans hcode, ha.active hactive⟩

theorem requestsOk {joins : OrdMap Text PendingJoin} {leaves : OrdMap Text LeaveRequest}
    (hr : RequestsOk members owner joins leaves) : RequestsOk members' owner joins leaves := by
  refine ⟨fun id join hj => ?_, hr.joinsApart, fun id leave hl => ?_, hr.oneKind⟩
  · have hnew := hr.joinNew id join hj
    obtain ⟨k, hname, hnone⟩ := hnew.name
    refine ⟨⟨k, hname, h.none.mpr hnone⟩, fun k m' hm' => ?_⟩
    obtain ⟨m, hm, ha⟩ := h.old hm'
    rw [ha.code, ha.identity]
    exact hnew.apart k m hm
  · obtain ⟨hne, k, m, hm, hcode, hname, hidentity⟩ := hr.leaveNamed id leave hl
    obtain ⟨m', hm', ha⟩ := h.new hm
    exact ⟨hne, k, m', hm', ha.code.trans hcode, ha.username.trans hname,
      ha.identity.trans hidentity⟩

theorem oneChange {requested : OrdMap Text Member} {added : Bool}
    (hc : OneChange members requested added k) : OneChange members' requested added k := by
  cases hc with
  | addition _ r hnew hadded hrest =>
    exact .addition k r (h.none.mpr hnew) hadded fun k' hk' => (hrest k' hk').trans
      (h.identity k').symm
  | removal _ m hmember hremoved hrest =>
    obtain ⟨m', hm', -⟩ := h.new hmember
    exact .removal k m' hm' hremoved fun k' hk' => (hrest k' hk').trans (h.identity k').symm

end ActivatedFrom

theorem storeRoom_members (room : RelayRoom) (a : StoreArgs) (plan : StorePlan) :
    ActivatedFrom room.members (storeRoom room a plan).members := by
  intro k
  have hrefl : ∀ m : Member, Activated m m := fun m => ⟨rfl, rfl, rfl, id⟩
  simp only [storeRoom, OrdMap.get?_modify]
  cases room.members.get? k with
  | none => split_ifs <;> exact .none
  | some m =>
    split_ifs
    · exact .some ⟨rfl, rfl, rfl, fun _ => rfl⟩
    · exact .some (hrefl m)

end Abyssal.Rooms
