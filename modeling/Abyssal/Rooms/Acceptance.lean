import Abyssal.Rooms.Structure

/-! What an accepted commit makes of a room: exactly one username is added or taken away,
and every table follows the new members. -/

namespace Abyssal.Rooms

open RelayRoom RoomAuthority OrdMap List

variable {room : RelayRoom} {c owner : CodeId} {t : MembershipTransition} {plan : AcceptPlan}

def PendingJoin.member (join : PendingJoin) : Member :=
  ⟨join.request.username, join.request.codeId, join.request.stableIdentity, false⟩

/-- The members after a commit: one more, from the join request the commit names, or one less,
who is not the owner. -/
inductive NextMembers (room : RelayRoom) (t : MembershipTransition) : OrdMap Text Member → Prop
  | addition (k requestId : Text) (join : PendingJoin) (hnew : room.members.get? k = none)
      (hid : t.requestId = some requestId) (hjoin : room.joins.get? requestId = some join)
      (hname : canonicalUsername join.request.username = .ok k) (hwelcome : t.welcome ≠ []) :
      NextMembers room t (room.members.insert k join.member)
  | removal (k : Text) (m : Member) (hmember : room.members.get? k = some m)
      (hnotOwner : m.codeId ≠ room.ownerCodeId) (hwelcome : t.welcome = []) :
      NextMembers room t (room.members.erase k)

theorem nextMembers_of_resolved {next : OrdMap Text Member} (h : WellFormed room)
    (hstaged : StagedFor room t) (hresolved : resolveNextRoster room t = .ok next) :
    NextMembers room t next := by
  obtain ⟨requested, hmap, hout, hin⟩ := resolveNextRoster_ok hresolved
  obtain ⟨requested', ownerName, r, k, hmap', hname, howner, hchange⟩ := hstaged.roster
  obtain rfl : requested = requested' := by
    rw [hmap] at hmap'
    exact Except.ok.inj hmap'
  -- Every other username resolves to the member it already has.
  have hrest : ∀ k', ((requested.get? k').map Member.stableIdentity =
      (room.members.get? k').map Member.stableIdentity) → next.get? k' = room.members.get? k' := by
    intro k' hsame
    cases hreq : requested.get? k' with
    | none =>
      rw [hreq] at hsame
      rw [hout k' hreq, Option.map_eq_none_iff.mp hsame.symm]
    | some r' =>
      obtain ⟨m, hres, hm⟩ := hin k' r' hreq
      cases hres with
      | kept current hcurrent _ => rw [hm, hcurrent]
      | joined _ _ hnew =>
        rw [hreq, hnew] at hsame
        cases hsame
  cases hw : t.welcome.isEmpty with
  | false =>
    rw [hw, Bool.not_false] at hchange
    cases hchange with
    | addition _ r' hnew hadded hothers =>
      obtain ⟨m, hres, hm⟩ := hin k r' hadded
      cases hres with
      | kept current hcurrent _ =>
        rw [hnew] at hcurrent
        cases hcurrent
      | joined requestId join _ hid hjoin hjname hidentity =>
        have hnext : next = room.members.insert k join.member := by
          apply ext_get?
          intro k'
          rw [get?_insert]
          split_ifs with hk
          · rw [← hk, hm, ← hidentity]
            rfl
          · exact hrest k' (hothers k' (Ne.symm hk))
        rw [hnext]
        exact .addition k requestId join hnew hid hjoin hjname (by simpa using hw)
  | true =>
    rw [hw, Bool.not_true] at hchange
    cases hchange with
    | removal _ m hmember hremoved hothers =>
      have hnext : next = room.members.erase k := by
        apply ext_get?
        intro k'
        rw [get?_erase]
        split_ifs with hk
        · exact hk ▸ hout k hremoved
        · exact hrest k' (hothers k' (Ne.symm hk))
      rw [hnext]
      refine .removal k m hmember (fun hcode => ?_) (by simpa using hw)
      obtain ⟨k', m', hname', hm', hcode', -⟩ := h.members.owner
      obtain rfl : ownerName = k' := by
        rw [hname] at hname'
        exact Except.ok.inj hname'
      obtain rfl := h.members.codes k m ownerName m' hmember hm' (hcode.trans hcode'.symm)
      rw [hremoved] at howner
      cases howner

theorem MembersOk.next {next : OrdMap Text Member} (h : WellFormed room)
    (hnext : NextMembers room t next) :
    MembersOk next room.ownerCodeId room.ownerUsername := by
  obtain ⟨ko, mo, hko, hmo, hcode, hactive⟩ := h.members.owner
  cases hnext with
  | addition k requestId join hnew _ hjoin hname _ =>
    have hjoinNew := h.requests.joinNew requestId join hjoin
    refine ⟨fun k' m' hm' => ?_, fun k₁ m₁ k₂ m₂ h₁ h₂ heq => ?_, fun k₁ m₁ k₂ m₂ h₁ h₂ heq => ?_,
      ko, mo, hko, ?_, hcode, hactive⟩
    · rcases get?_insert_cases hm' with ⟨rfl, rfl⟩ | ⟨-, hold⟩
      · exact hname
      · exact h.members.canonical k' m' hold
    · rcases get?_insert_cases h₁ with ⟨rfl, rfl⟩ | ⟨-, hold₁⟩ <;>
        rcases get?_insert_cases h₂ with ⟨rfl, rfl⟩ | ⟨-, hold₂⟩
      · rfl
      · exact absurd heq.symm (hjoinNew.apart k₂ m₂ hold₂).1
      · exact absurd heq (hjoinNew.apart k₁ m₁ hold₁).1
      · exact h.members.codes k₁ m₁ k₂ m₂ hold₁ hold₂ heq
    · rcases get?_insert_cases h₁ with ⟨rfl, rfl⟩ | ⟨-, hold₁⟩ <;>
        rcases get?_insert_cases h₂ with ⟨rfl, rfl⟩ | ⟨-, hold₂⟩
      · rfl
      · exact absurd heq.symm (hjoinNew.apart k₂ m₂ hold₂).2
      · exact absurd heq (hjoinNew.apart k₁ m₁ hold₁).2
      · exact h.members.identities k₁ m₁ k₂ m₂ hold₁ hold₂ heq
    · rw [get?_insert_of_ne _ _ fun hk => by rw [hk, hmo] at hnew; cases hnew]
      exact hmo
  | removal k m hmember hnotOwner _ =>
    have hsub : ∀ k' m', (room.members.erase k).get? k' = some m' →
        room.members.get? k' = some m' := by
      intro k' m' hm'
      rw [get?_erase] at hm'
      split_ifs at hm' with hk
      exact hm'
    refine ⟨fun k' m' hm' => h.members.canonical k' m' (hsub k' m' hm'),
      fun k₁ m₁ k₂ m₂ h₁ h₂ => h.members.codes k₁ m₁ k₂ m₂ (hsub k₁ m₁ h₁) (hsub k₂ m₂ h₂),
      fun k₁ m₁ k₂ m₂ h₁ h₂ => h.members.identities k₁ m₁ k₂ m₂ (hsub k₁ m₁ h₁) (hsub k₂ m₂ h₂),
      ko, mo, hko, ?_, hcode, hactive⟩
    rw [get?_erase_of_ne]
    · exact hmo
    · rintro rfl
      rw [hmember] at hmo
      exact hnotOwner (Option.some.inj hmo ▸ hcode)

variable {k : Text} {m : Member} {next : OrdMap Text Member}

theorem NextMembers.kept (hnext : NextMembers room t next) {m' : Member}
    (hm : room.members.get? k = some m) (hm' : next.get? k = some m') : m' = m := by
  cases hnext with
  | addition k' _ _ hnew =>
    have hne : k' ≠ k := by
      rintro rfl
      rw [hm] at hnew
      cases hnew
    rw [get?_insert_of_ne _ _ hne, hm] at hm'
    exact (Option.some.inj hm').symm
  | removal k' =>
    rw [get?_erase] at hm'
    split_ifs at hm' with hk
    rw [hm] at hm'
    exact (Option.some.inj hm').symm

variable {members : OrdMap Text Member}

theorem isMember_iff : IsMember members c ↔ c ∈ members.values.map Member.codeId := by
  rw [mem_map]
  constructor
  · rintro ⟨k, m, hm, hc⟩
    exact ⟨m, mem_values.mpr ⟨k, hm⟩, hc⟩
  · rintro ⟨m, hm, hc⟩
    obtain ⟨k, hk⟩ := mem_values.mp hm
    exact ⟨k, m, hk, hc⟩

instance (members : OrdMap Text Member) (c : CodeId) : Decidable (IsMember members c) :=
  decidable_of_iff _ isMember_iff.symm

/-- What a commit queues for one code: its control message to a member that stays, its welcome
to the one that joins, and nothing to the owner or to anyone else. -/
inductive Receives (room : RelayRoom) (t : MembershipTransition) (next : OrdMap Text Member)
    (c : CodeId) : List PendingDelivery → Prop
  | control (k : Text) (m : Member) (d : PendingDelivery) (hm : room.members.get? k = some m)
      (hstay : next.get? k = some m) (hc : m.codeId = c) (hne : c ≠ room.ownerCodeId)
      (hd : IsControl room t m d) : Receives room t next c [d]
  | welcome (k : Text) (m : Member) (hnew : room.members.get? k = none)
      (hm : next.get? k = some m) (hc : m.codeId = c) :
      Receives room t next c [welcomeDelivery room t m]
  | nothing (hc : c = room.ownerCodeId ∨ ¬ IsMember next c) : Receives room t next c []

theorem receives_of_membershipDeliveries {ds : List PendingDelivery} (h : WellFormed room)
    (hnext : NextMembers room t next) (hds : membershipDeliveries room t next = .ok ds)
    (c : CodeId) :
    Receives room t next c (forRecipient c ds) := by
  obtain ⟨controls, rfl, hcontrols⟩ := membershipDeliveries_ok hds
  have hcodes := (MembersOk.next h hnext).codes
  have hwelcomes : List.Forall₂ (fun (e : Text × Member) d => d = welcomeDelivery room t e.2 ∧
      d.recipientCodeId = e.2.codeId) (next.entries.filter fun e => ¬ room.members.contains e.1)
      ((next.entries.filter fun e => ¬ room.members.contains e.1).map
        fun e => welcomeDelivery room t e.2) := by
    rw [forall₂_map_right_iff, forall₂_same]
    exact fun _ _ => ⟨rfl, rfl⟩
  obtain ⟨hcontrol, hnoControl⟩ := forRecipient_forall₂ hcontrols
    (h.members.codes.entries_nodup.sublist (filter_sublist.map _)) c
  obtain ⟨hwelcome, hnoWelcome⟩ := forRecipient_forall₂ hwelcomes
    (hcodes.entries_nodup.sublist (filter_sublist.map _)) c
  simp only [mem_filter, decide_eq_true_eq, not_or, not_not, contains_eq_true]
    at hcontrol hnoControl
  simp only [mem_filter, decide_eq_true_eq, contains_eq_true, not_exists]
    at hwelcome hnoWelcome
  rw [forRecipient_append]
  by_cases hmember : IsMember next c
  · obtain ⟨k, m, hm, hc⟩ := hmember
    by_cases howner : c = room.ownerCodeId
    · obtain ⟨ko, mo, -, hmo, hmoCode, -⟩ := h.members.owner
      obtain ⟨ko', mo', hko, hmo', hmoCode', -⟩ := (MembersOk.next h hnext).owner
      obtain ⟨ko'', mo'', hko'', hmo'', -⟩ := h.members.owner
      obtain rfl : ko' = ko'' := by
        rw [hko] at hko''
        exact Except.ok.inj hko''
      rw [hnoControl fun e he hec => he.2.1 (hec.trans howner), hnoWelcome fun e he hec => ?_]
      · exact .nothing (.inl howner)
      · have hkey := hcodes e.1 e.2 ko' mo' (get?_eq_some.mpr he.1) hmo'
          (hec.trans (howner.trans hmoCode'.symm))
        exact he.2 mo'' (hkey ▸ hmo'')
    · cases hold : room.members.get? k with
      | some m₀ =>
        obtain rfl := hnext.kept hold hm
        obtain ⟨d, hd, hcs⟩ := hcontrol (k, m) ⟨get?_eq_some.mp hold,
          fun he => howner (hc.symm.trans he), m, hm⟩ hc
        rw [hcs, hnoWelcome fun e he hec => ?_]
        · exact .control k m d hold hm hc howner hd
        · have hkey := hcodes e.1 e.2 k m (get?_eq_some.mpr he.1) hm (hec.trans hc.symm)
          exact he.2 m (hkey ▸ hold)
      | none =>
        obtain ⟨d, rfl, hws⟩ := hwelcome (k, m) ⟨get?_eq_some.mp hm, fun m' hm' => by
          rw [hold] at hm'
          cases hm'⟩ hc
        rw [hws, hnoControl fun e he hec => ?_]
        · exact .welcome k m hold hm hc
        · obtain ⟨m', hm'⟩ := he.2.2
          have heq := hnext.kept (get?_eq_some.mpr he.1) hm'
          subst heq
          have hkey := hcodes e.1 e.2 k m hm' hm (hec.trans hc.symm)
          have hget := get?_eq_some.mpr he.1
          rw [hkey, hold] at hget
          cases hget
  · rw [hnoControl fun e he hec => ?_, hnoWelcome fun e he hec => ?_]
    · exact .nothing (.inr hmember)
    · exact hmember ⟨e.1, e.2, get?_eq_some.mpr he.1, hec⟩
    · obtain ⟨m', hm'⟩ := he.2.2
      have heq := hnext.kept (get?_eq_some.mpr he.1) hm'
      subst heq
      exact hmember ⟨e.1, e.2, hm', hec⟩

theorem foldl_fill_get? (cs : List CodeId) (m : OrdMap CodeId Nat) (c : CodeId) :
    (cs.foldl (fun m c => if m.contains c then m else m.insert c 0) m).get? c =
      if c ∈ cs then some ((m.get? c).getD 0) else m.get? c := by
  induction cs generalizing m with
  | nil => rfl
  | cons b cs ih =>
    have hstep : (if m.contains b then m else m.insert b 0).get? c =
        if b = c then some ((m.get? c).getD 0) else m.get? c := by
      by_cases hb : m.contains b = true
      · rw [if_pos hb]
        obtain ⟨v, hv⟩ := contains_eq_true.mp hb
        split_ifs with hbc
        · rw [← hbc, hv, Option.getD_some]
        · rfl
      · rw [if_neg hb, get?_insert]
        rw [Bool.not_eq_true, contains_eq_false] at hb
        split_ifs with hbc
        · rw [← hbc, hb, Option.getD_none]
        · rfl
    rw [foldl_cons, ih, hstep]
    by_cases hbc : b = c
    · simp only [hbc, if_true, Option.getD_some, mem_cons, true_or, ite_self]
    · simp only [hbc, Ne.symm hbc, if_false, mem_cons, false_or]

theorem acceptedRevisions_get? : (acceptedRevisions room owner plan).get? c =
      if IsMember plan.next c then
        some (if owner = c then plan.transition.revision else room.revisionOf c)
      else none := by
  simp only [acceptedRevisions, foldl_fill_get?, get?_filter, get?_insert,
    ← isMember_iff]
  by_cases hc : IsMember plan.next c
  · rw [if_pos hc, if_pos hc]
    split_ifs with howner
    · simp [hc, Option.filter]
    · cases hr : room.memberRevisions.get? c <;> simp [RelayRoom.revisionOf, hr, hc, Option.filter]
  · rw [if_neg hc, if_neg hc]
    simp [hc]

theorem mem_removedCodes :
    c ∈ removedCodes room next ↔
      ((∃ q, room.deliveries.get? c = some q) ∨ ∃ v, room.snapshots.get? c = some v) ∧
        ¬ IsMember next c := by
  have hany : (next.values.any fun m => decide (m.codeId = c)) = true ↔ IsMember next c := by
    simp only [any_eq_true, decide_eq_true_eq, isMember_iff, mem_map]
  rw [removedCodes, mem_dedup, mem_filter, mem_append, OrdMap.mem_keys,
    OrdMap.mem_keys, decide_eq_true_eq, hany]

theorem foldl_erase_removed {V : Type} {m : OrdMap CodeId V}
    (hm : ∀ c v, m.get? c = some v →
      (∃ q, room.deliveries.get? c = some q) ∨ ∃ v, room.snapshots.get? c = some v) (c : CodeId) :
    ((removedCodes room next).foldl OrdMap.erase m).get? c =
      if IsMember next c then m.get? c else none := by
  rw [get?_foldl_erase]
  by_cases hc : IsMember next c
  · rw [if_pos hc, if_neg fun hin => (mem_removedCodes.mp hin).2 hc]
  · rw [if_neg hc]
    split_ifs with hin
    · rfl
    · cases hv : m.get? c with
      | none => rfl
      | some v => exact absurd (mem_removedCodes.mpr ⟨hm c v hv, hc⟩) hin

/-! The request that a commit settles is gone, and a joiner has its own snapshot. -/

def acceptedJoins (room : RelayRoom) (plan : AcceptPlan) : OrdMap Text PendingJoin :=
  match plan.transition.requestId, plan.pendingJoin with
  | some requestId, some _ => room.joins.erase requestId
  | _, _ => room.joins

def acceptedLeaves (room : RelayRoom) (plan : AcceptPlan) : OrdMap Text LeaveRequest :=
  let leaves := room.leaves.filter fun _ leave => leave.codeId ∈ plan.next.values.map Member.codeId
  match plan.transition.requestId, plan.pendingJoin, plan.pendingLeave with
  | some requestId, none, some _ => leaves.erase requestId
  | _, _, _ => leaves

def acceptedSnapshots (clock : AcceptClock) (room : RelayRoom) (owner : CodeId)
    (plan : AcceptPlan) : OrdMap CodeId StateSnapshot :=
  let snapshots := (plan.removedCodeIds.foldl OrdMap.erase room.snapshots).insert owner
    (ownerSnapshot room owner plan.transition clock.storedAt)
  match plan.transition.requestId, plan.pendingJoin with
  | some _, some (c, envelope) => snapshots.insert c (joinSnapshot room c envelope clock.joinedAt)
  | _, _ => snapshots

theorem acceptRoom_eq (clock : AcceptClock) (room : RelayRoom) (owner : CodeId)
    (plan : AcceptPlan) : acceptRoom clock room owner plan = { room with
      pendingTransition := none
      replayIds := pushReplay room.replayIds ⟨.membership, plan.transition.messageId⟩
        clock.replayedAt
      deliveries := plan.deliveries.foldl pushDelivery
        (plan.removedCodeIds.foldl OrdMap.erase room.deliveries)
      deliveryBytes := plan.roomDeliveryBytes
      members := plan.next
      expiredSenderGaps := .empty
      epoch := plan.transition.toEpoch
      memberRevisions := acceptedRevisions room owner plan
      joins := acceptedJoins room plan
      leaves := acceptedLeaves room plan
      membershipDigest := plan.transition.membershipDigest
      snapshotBytes := plan.roomSnapshotBytes
      snapshots := acceptedSnapshots clock room owner plan } := by
  unfold acceptRoom acceptedJoins acceptedLeaves acceptedSnapshots
  dsimp only
  cases plan.transition.requestId <;> cases plan.pendingJoin <;> cases plan.pendingLeave <;> rfl

variable {s : RoomAuthority} {messageId : Text} {revision : Nat} {join : PendingJoin}

theorem acceptedJoins_get? (h : Accepted s room owner messageId revision plan) {id : Text}
    (hj : (acceptedJoins room plan).get? id = some join) :
    room.joins.get? id = some join ∧ plan.transition.requestId ≠ some id := by
  have hpending := h.pendingJoin
  unfold acceptedJoins at hj
  cases hid : plan.transition.requestId with
  | none =>
    rw [hid] at hj
    exact ⟨hj, nofun⟩
  | some requestId =>
    rw [hid, Option.bind_some] at hpending
    cases hget : room.joins.get? requestId with
    | none =>
      rw [hget, Option.map_none] at hpending
      rw [hid, hpending] at hj
      refine ⟨hj, fun heq => ?_⟩
      cases heq
      rw [hget] at hj
      cases hj
    | some join' =>
      rw [hget, Option.map_some] at hpending
      rw [hid, hpending, get?_erase] at hj
      split_ifs at hj with hne
      exact ⟨hj, fun heq => hne (Option.some.inj heq)⟩

theorem acceptedLeaves_get? {id : Text} {leave : LeaveRequest}
    (hl : (acceptedLeaves room plan).get? id = some leave) :
    room.leaves.get? id = some leave ∧ IsMember plan.next leave.codeId := by
  have hfilter : (room.leaves.filter fun _ leave =>
      leave.codeId ∈ plan.next.values.map Member.codeId).get? id = some leave := by
    unfold acceptedLeaves at hl
    split at hl
    · rw [get?_erase] at hl
      split_ifs at hl with hne
      exact hl
    · exact hl
  rw [get?_filter, Option.filter_eq_some_iff, decide_eq_true_eq] at hfilter
  exact ⟨hfilter.1, isMember_iff.mpr hfilter.2⟩

theorem acceptedSnapshots_get? (clock : AcceptClock)
    (h : Accepted s room owner messageId revision plan) (c : CodeId) :
    (∃ requestId join, plan.transition.requestId = some requestId ∧
      room.joins.get? requestId = some join ∧ join.request.codeId = c ∧
      (acceptedSnapshots clock room owner plan).get? c =
        some (joinSnapshot room c join.stateEnvelope clock.joinedAt)) ∨
    ((∀ requestId join, plan.transition.requestId = some requestId →
        room.joins.get? requestId = some join → join.request.codeId ≠ c) ∧
      (acceptedSnapshots clock room owner plan).get? c =
        if owner = c then some (ownerSnapshot room owner plan.transition clock.storedAt)
        else if IsMember plan.next c then room.snapshots.get? c else none) := by
  have hbase : ((plan.removedCodeIds.foldl OrdMap.erase room.snapshots).insert owner
      (ownerSnapshot room owner plan.transition clock.storedAt)).get? c =
      if owner = c then some (ownerSnapshot room owner plan.transition clock.storedAt)
      else if IsMember plan.next c then room.snapshots.get? c else none := by
    rw [get?_insert, h.removed,
      foldl_erase_removed (m := room.snapshots) (fun c v hv => .inr ⟨v, hv⟩)]
  have hpending := h.pendingJoin
  unfold acceptedSnapshots
  cases hid : plan.transition.requestId with
  | none => exact .inr ⟨nofun, hbase⟩
  | some requestId =>
    rw [hid, Option.bind_some] at hpending
    cases hget : room.joins.get? requestId with
    | none =>
      rw [hget, Option.map_none] at hpending
      rw [hpending]
      refine .inr ⟨fun requestId' join heq hj => ?_, hbase⟩
      cases heq
      rw [hget] at hj
      cases hj
    | some join =>
      rw [hget, Option.map_some] at hpending
      rw [hpending]
      dsimp only
      by_cases hc : join.request.codeId = c
      · exact .inl ⟨requestId, join, rfl, hget, hc, by rw [hc, get?_insert_self]⟩
      · refine .inr ⟨fun requestId' join' heq hj => ?_, ?_⟩
        · cases heq
          rw [hget] at hj
          cases hj
          exact hc
        · rw [get?_insert_of_ne _ _ hc]
          exact hbase

theorem TablesOk.revisionOf_new (h : WellFormed room) (hc : ¬ IsMember room.members c) :
    room.revisionOf c = 0 := by
  cases hr : room.memberRevisions.get? c with
  | none => rw [RelayRoom.revisionOf, hr, Option.getD_none]
  | some r => exact absurd ((h.tables.revised c).mp ⟨r, hr⟩) hc

theorem JoinNew.not_member (h : JoinNew members join) : ¬ IsMember members join.request.codeId := by
  rintro ⟨k, m, hm, hc⟩
  exact (h.apart k m hm).1 hc

theorem NextMembers.isMember (hnext : NextMembers room t next) (hc : IsMember next c) :
    IsMember room.members c ∨ ∃ requestId join,
      t.requestId = some requestId ∧ room.joins.get? requestId = some join ∧
        join.request.codeId = c := by
  obtain ⟨k', m', hm', hcode⟩ := hc
  cases hnext with
  | addition k requestId join _ hid hjoin =>
    rcases get?_insert_cases hm' with ⟨rfl, rfl⟩ | ⟨-, hm'⟩
    · exact .inr ⟨requestId, join, hid, hjoin, hcode⟩
    · exact .inl ⟨k', m', hm', hcode⟩
  | removal k =>
    rw [get?_erase] at hm'
    split_ifs at hm' with hk
    exact .inl ⟨k', m', hm', hcode⟩

theorem NextMembers.joiner (hnext : NextMembers room t next) (hnew : room.members.get? k = none)
    (hm : next.get? k = some m) :
    ∃ requestId join, t.requestId = some requestId ∧
      room.joins.get? requestId = some join ∧ m = join.member ∧ t.welcome ≠ [] := by
  cases hnext with
  | addition k' requestId join _ hid hjoin _ hwelcome =>
    rw [get?_insert] at hm
    split_ifs at hm with hk
    · exact ⟨requestId, join, hid, hjoin, (Option.some.inj hm).symm, hwelcome⟩
    · rw [hnew] at hm
      cases hm
  | removal k' =>
    rw [get?_of_erase hm] at hnew
    cases hnew

theorem WellFormed.queueOf_stranger (h : WellFormed room) (hc : ¬ IsMember room.members c) :
    room.queueOf c = [] := by
  cases hq : room.deliveries.get? c with
  | none => rw [queueOf, hq, Option.getD_none]
  | some q => exact absurd (h.tables.queued c q hq) hc

theorem TablesOk.accepted (clock : AcceptClock) (h : WellFormed room)
    (hplan : Accepted s room owner messageId revision plan)
    (hnext : NextMembers room plan.transition plan.next) :
    TablesOk plan.next (acceptedRevisions room owner plan)
      (plan.deliveries.foldl pushDelivery (plan.removedCodeIds.foldl OrdMap.erase room.deliveries))
      .empty (acceptedSnapshots clock room owner plan) := by
  refine ⟨fun c => ?_, fun c queue hq => ?_, fun pair n hg => ?_, fun c hc => ?_⟩
  · rw [acceptedRevisions_get?]
    by_cases hc : IsMember plan.next c
    · rw [if_pos hc]
      exact ⟨fun _ => hc, fun _ => ⟨_, rfl⟩⟩
    · rw [if_neg hc]
      exact ⟨fun ⟨r, hr⟩ => (by cases hr), fun hm => absurd hm hc⟩
  · rw [foldl_pushDelivery_get?] at hq
    have hreceives := receives_of_membershipDeliveries h hnext hplan.deliveries c
    cases hds : forRecipient c plan.deliveries with
    | nil =>
      rw [if_pos hds, hplan.removed,
        foldl_erase_removed (m := room.deliveries) (fun c v hv => .inl ⟨v, hv⟩)] at hq
      split_ifs at hq with hc
      exact hc
    | cons d ds =>
      rw [hds] at hreceives
      cases hreceives with
      | control k m _ _ hstay hc => exact ⟨k, m, hstay, hc⟩
      | welcome k m _ hm hc => exact ⟨k, m, hm, hc⟩
  · rw [get?_empty] at hg
    cases hg
  · rw [acceptedRevisions_get?, if_pos hc]
    rcases acceptedSnapshots_get? clock hplan c with
      ⟨requestId, join, hid, hjoin, hcode, hget⟩ | ⟨hother, hget⟩
    · -- The joiner starts at revision zero.
      have hnew := (h.requests.joinNew requestId join hjoin).not_member
      rw [hcode] at hnew
      refine ⟨_, hget, ?_⟩
      rw [if_neg, TablesOk.revisionOf_new h hnew]
      · rfl
      · rintro rfl
        obtain ⟨k, m, -, hm, hmc, -⟩ := h.members.owner
        exact hnew ⟨k, m, hm, hmc.trans hplan.owner⟩
    · rw [hget, if_pos hc]
      split_ifs with howner
      · exact ⟨_, rfl, rfl⟩
      · rcases hnext.isMember hc with hold | ⟨requestId, join, hid, hjoin, hcode⟩
        · obtain ⟨snapshot, hs, hr⟩ := h.tables.stored c hold
          refine ⟨snapshot, hs, ?_⟩
          rw [RelayRoom.revisionOf, hr, Option.getD_some]
        · exact absurd hcode (hother requestId join hid hjoin)

theorem RequestsOk.accepted (h : WellFormed room)
    (hplan : Accepted s room owner messageId revision plan)
    (hnext : NextMembers room plan.transition plan.next) :
    RequestsOk plan.next room.ownerCodeId (acceptedJoins room plan) (acceptedLeaves room plan) := by
  have hmono : RequestsOk room.members room.ownerCodeId (acceptedJoins room plan)
      (acceptedLeaves room plan) :=
    h.requests.mono (fun id j hj => (acceptedJoins_get? hplan hj).1)
      (fun id l hl => (acceptedLeaves_get? hl).1)
  refine ⟨fun id join hj => ?_, hmono.joinsApart, fun id leave hl => ?_, hmono.oneKind⟩
  · have hold := hmono.joinNew id join hj
    obtain ⟨hget, hother⟩ := acceptedJoins_get? hplan hj
    generalize plan.next = next at hnext ⊢
    cases hnext with
    | addition k requestId join' hnew hid hjoin' hname =>
      have hapart := h.requests.joinsApart id join requestId join' hget hjoin'
        fun heq => hother (heq ▸ hid)
      obtain ⟨k', hname', hnone⟩ := hold.name
      refine ⟨⟨k', hname', ?_⟩, fun k'' m hm => ?_⟩
      · rw [get?_insert_of_ne, hnone]
        rintro rfl
        exact hapart.name ((canonicalUsername_eq_ok.mp hname').2.symm.trans
          (canonicalUsername_eq_ok.mp hname).2)
      · rcases get?_insert_cases hm with ⟨rfl, rfl⟩ | ⟨-, hm⟩
        · exact ⟨hapart.code.symm, hapart.identity.symm⟩
        · exact hold.apart k'' m hm
    | removal k =>
      obtain ⟨k', hname', hnone⟩ := hold.name
      refine ⟨⟨k', hname', ?_⟩, fun k'' m hm => ?_⟩
      · rw [get?_erase, hnone, ite_self]
      · rw [get?_erase] at hm
        split_ifs at hm with hk
        exact hold.apart k'' m hm
  · obtain ⟨hget, k', m', hm', hcode'⟩ := acceptedLeaves_get? hl
    obtain ⟨hnotOwner, k, m, hm, hcode, hrest⟩ := h.requests.leaveNamed id leave hget
    generalize plan.next = next at hnext hm' ⊢
    refine ⟨hnotOwner, k', m', hm', hcode', ?_⟩
    -- The member with the leaver's code is the same record before and after.
    have hsame : m' = m := by
      cases hnext with
      | addition kn requestId join hnew hid hjoin =>
        rcases get?_insert_cases hm' with ⟨rfl, rfl⟩ | ⟨-, hm'⟩
        · have := (h.requests.joinNew requestId join hjoin).apart k m hm
          exact absurd (hcode.trans hcode'.symm) this.1
        · exact h.members.codes.member_eq hm' hm (hcode'.trans hcode.symm)
      | removal kr =>
        rw [get?_erase] at hm'
        split_ifs at hm' with hk
        exact h.members.codes.member_eq hm' hm (hcode'.trans hcode.symm)
    rw [hsame]
    exact hrest

theorem WellFormed.accepted (clock : AcceptClock) (h : WellFormed room)
    (hplan : Accepted s room owner messageId revision plan) :
    WellFormed (acceptRoom clock room owner plan) := by
  have hnext := nextMembers_of_resolved h (h.staging _ hplan.staged) hplan.resolved
  have hidle : ∀ m p, room.pendingApplications.get? m ≠ some p := fun m p => by
    rw [get?_of_size_eq_zero hplan.noPending]
    exact (Option.some_ne_none p).symm
  have hmembers := MembersOk.next h hnext
  have htables := TablesOk.accepted clock h hplan hnext
  have hrequests := RequestsOk.accepted h hplan hnext
  rw [acceptRoom_eq]
  exact ⟨hmembers, htables, hrequests, fun t ht => (nomatch ht),
    fun m p hp => absurd hp (hidle m p), fun m p m' p' hp => absurd hp (hidle m p)⟩

end Abyssal.Rooms
