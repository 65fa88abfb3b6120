import Abyssal.Rooms.History

/-! Rules for numbered queues: a property of a member's revision and queue that every new
delivery and every acknowledgement keeps is kept by admissions, commits, snapshots and
creation. Maintenance is left to each property. -/

namespace Abyssal.Rooms

open RelayRoom RoomAuthority List

/-- How a property of queues behaves: of an active member's or a joining one's, after the given
revision. -/
structure QueueRules (Q : Bool → Nat → List PendingDelivery → Prop) : Prop where
  empty : ∀ r, r ≤ wordMax → Q true r []
  welcome : ∀ d, d.payload.isWelcome = true → d.revision = 0 → Q false 0 [d]
  push : ∀ active r q d, Q active r q →
    d.revision = max r ((revisions q).getLast?.getD 0) + 1 → d.revision ≤ wordMax →
    Q active r (q ++ [d])
  retire : ∀ r q n, Q true r q → n < q.length →
    revisions (q.take (n + 1)) = List.range' (r + 1) (n + 1) → Q true (r + (n + 1)) (q.drop (n + 1))
  activate : ∀ r d rest, Q false r (d :: rest) → d.payload.isWelcome = true → d.revision = r →
    Q true r rest

def Throughout (Q : Bool → Nat → List PendingDelivery → Prop) (room : RelayRoom) : Prop :=
  ∀ k m, room.members.get? k = some m →
    Q m.active (room.revisionOf m.codeId) (room.queueOf m.codeId)

section

variable {Q : Bool → Nat → List PendingDelivery → Prop} {room room' : RelayRoom}

theorem Throughout.same (h : Throughout Q room) (hmembers : room'.members = room.members)
    (hrevisions : room'.memberRevisions = room.memberRevisions)
    (hdeliveries : room'.deliveries = room.deliveries) : Throughout Q room' := by
  intro k m hm
  rw [revisionOf, hrevisions, queueOf, hdeliveries]
  exact h k m (hmembers ▸ hm)

theorem nextDeliveryRevision_ok {c : CodeId} {n : Nat} (h : nextDeliveryRevision room c = .ok n) :
    n = max (room.revisionOf c) ((revisions (room.queueOf c)).getLast?.getD 0) + 1 ∧
      n ≤ wordMax := by
  obtain ⟨hword, hn⟩ := checkedAdd_eq_some.mp (okOr_eq_ok.mp h)
  rw [revisions, getLast?_map]
  exact ⟨hn, hn ▸ hword⟩

theorem revisionOf_insert (revisions : OrdMap CodeId Nat) (c c' : CodeId) (r : Nat) :
    ((revisions.insert c r).get? c').getD 0 = if c = c' then r else (revisions.get? c').getD 0 := by
  rw [OrdMap.get?_insert]
  split_ifs <;> rfl

variable {b : RoomAuthority}

theorem Throughout.admitted (hQ : QueueRules Q) {now : Nat} {a : AdmitArgs} {plan : AdmitPlan}
    (h : Throughout Q room) (hwell : WellFormed room) (hplan : Admitted b now room a plan) :
    Throughout Q (admitRoom room a plan) := by
  obtain ⟨k, sender, hsender, hcode, hactive, -⟩ := hplan.sender
  intro k' m hm
  change room.members.get? k' = some m at hm
  have hrevision : (admitRoom room a plan).revisionOf m.codeId =
      if a.senderCodeId = m.codeId then a.senderRevision else room.revisionOf m.codeId :=
    revisionOf_insert room.memberRevisions _ _ _
  by_cases hc : a.senderCodeId = m.codeId
  · obtain rfl := hwell.members.codes.member_eq hsender hm (hcode.trans hc)
    rw [hrevision, if_pos hc, hcode, admitRoom_sender hwell hplan, hactive]
    exact hQ.empty _ hplan.revisionWord
  · rw [hrevision, if_neg hc, admitRoom_queueOf]
    rcases admitted_cases hwell hplan m.codeId with
      ⟨_, m', d, -, hc', -, -, hfor, r, hr, rfl⟩ | ⟨hfor, -⟩
    · obtain ⟨hnext, hword⟩ := nextDeliveryRevision_ok hr
      rw [hfor]
      exact hQ.push _ _ _ _ (h k' m hm) (hc' ▸ hnext) hword
    · rw [hfor, append_nil]
      exact h k' m hm

theorem Throughout.accepted (hQ : QueueRules Q) {owner : CodeId} {messageId : Text} {revision : Nat}
    {plan : AcceptPlan} (h : Throughout Q room) (hwell : WellFormed room) (clock : AcceptClock)
    (hplan : Accepted b room owner messageId revision plan) :
    Throughout Q (acceptRoom clock room owner plan) := by
  have hstaged := hwell.staging _ hplan.staged
  have hnext := nextMembers_of_resolved hwell hstaged hplan.resolved
  have hmembers := MembersOk.next hwell hnext
  intro k m hm
  rw [acceptRoom_eq] at hm
  change plan.next.get? k = some m at hm
  have hmember : IsMember plan.next m.codeId := ⟨k, m, hm, rfl⟩
  have hrevision : (acceptRoom clock room owner plan).revisionOf m.codeId =
      if owner = m.codeId then plan.transition.revision else room.revisionOf m.codeId := by
    rw [acceptRoom_eq, revisionOf, acceptedRevisions_get?, if_pos hmember, Option.getD_some]
  rw [hrevision, acceptRoom_queueOf clock hplan, if_pos hmember]
  have hreceives := receives_of_membershipDeliveries hwell hnext hplan.deliveries m.codeId
  generalize forRecipient m.codeId plan.deliveries = ds at hreceives
  cases hreceives with
  | control k' m' d hm' hstay hc hne hd =>
    obtain rfl := hmembers.codes.member_eq hstay hm hc
    obtain ⟨r, hr, rfl⟩ := hd
    obtain ⟨hnumber, hword⟩ := nextDeliveryRevision_ok hr
    rw [if_neg fun heq => hne (heq.symm.trans hplan.owner.symm)]
    exact hQ.push _ _ _ _ (h k' m' hm') hnumber hword
  | welcome k' m' hnew hm' hc =>
    obtain rfl := hmembers.codes.member_eq hm' hm hc
    obtain ⟨requestId, join, -, hjoin, hmember', hwelcome⟩ := hnext.joiner hnew hm'
    have hstranger : ¬ IsMember room.members m'.codeId := by
      rw [hmember']
      exact (hwell.requests.joinNew requestId join hjoin).not_member
    obtain ⟨k₀, m₀, -, hm₀, hcode₀, -⟩ := hwell.members.owner
    rw [if_neg fun heq => hstranger ⟨k₀, m₀, hm₀, hcode₀.trans (hplan.owner.trans heq)⟩,
      TablesOk.revisionOf_new hwell hstranger, hwell.queueOf_stranger hstranger, nil_append,
      show m'.active = false from hmember' ▸ rfl]
    refine hQ.welcome _ ?_ rfl
    simpa [welcomeDelivery, DeliveryPayload.isWelcome] using hwelcome
  | nothing hc =>
    have hc := hc.resolve_right (not_not_intro hmember)
    obtain ⟨k', m', -, hm', hcode, hactive⟩ := hmembers.owner
    obtain rfl := hmembers.codes.member_eq hm' hm (hcode.trans hc.symm)
    obtain ⟨r, -, hr, hword⟩ := hstaged.revision
    rw [if_pos (hplan.owner.symm.trans hc.symm), hc, hstaged.queue, hactive]
    exact hQ.empty _ (hr ▸ hword)

theorem Throughout.stored (hQ : QueueRules Q) {now : Nat} {a : StoreArgs} {plan : StorePlan}
    (h : Throughout Q room) (hwell : WellFormed room) (hplan : Stored b now room a plan) :
    Throughout Q (storeRoom room a plan) := by
  obtain ⟨member, hmember, hcode⟩ := hplan.member
  intro k m hm
  change (room.members.modify plan.memberUsername _).get? k = some m at hm
  have hrevision : (storeRoom room a plan).revisionOf m.codeId =
      if a.memberCodeId = m.codeId then a.revision else room.revisionOf m.codeId :=
    revisionOf_insert room.memberRevisions _ _ _
  rw [hrevision, storeRoom_queueOf]
  rw [OrdMap.get?_modify] at hm
  split_ifs at hm with hk
  · subst hk
    rw [hmember] at hm
    obtain rfl := Option.some.inj hm
    have hqueue := h _ member hmember
    rw [← memberActive_of_get? hwell hmember, hcode] at hqueue
    simp only [hcode, if_true]
    have hretires := hplan.retires
    generalize plan.retired = retired at hretires
    cases hretires with
    | welcome d rest hactive hcons hwelcome _ hnow hnumber =>
      rw [hactive, hcons, ← hnow] at hqueue
      rw [hcons, drop_succ_cons, drop_zero]
      exact hQ.activate _ d rest hqueue hwelcome hnumber
    | front n d hactive hnow hnumbers hlast =>
      rw [hactive] at hqueue
      rw [hnow]
      exact hQ.retire _ _ n hqueue (List.getElem?_eq_some_iff.mp hlast).1 hnumbers
    | nothing hactive hnow =>
      rw [hactive, ← hnow] at hqueue
      exact hqueue
  · have hne : a.memberCodeId ≠ m.codeId := fun heq =>
      hk (hwell.members.codes _ member _ m hmember hm (hcode.trans heq))
    rw [if_neg hne, if_neg hne]
    exact h k m hm

theorem Throughout.created (hQ : QueueRules Q) {createdAt : Nat} {a : CreateArgs}
    {plan : CreatePlan} (hplan : Created b createdAt a plan) :
    Throughout Q plan.room := by
  obtain ⟨name, bytes, -, -, hroom, -⟩ := hplan.roomEq
  rw [hroom]
  intro k m hm
  change (OrdMap.empty.insert name _).get? k = some m at hm
  rcases OrdMap.get?_insert_cases hm with ⟨rfl, rfl⟩ | ⟨-, hm⟩
  · have hrevision : (initialRoom a name (initialSnapshot a [⟨name, a.stableIdentity⟩] createdAt)
        bytes).revisionOf a.ownerCodeId = 0 :=
      (revisionOf_insert OrdMap.empty _ _ _).trans (if_pos rfl)
    rw [hrevision]
    exact hQ.empty 0 (Nat.zero_le _)
  · cases hm

theorem Compacted.keeps {P : PendingDelivery → Prop} {m : Member} {queue : List PendingDelivery}
    (hqueue : Compacted P room m.codeId queue)
    (hactive : room.memberActive m.codeId = m.active)
    (h : Q m.active (room.revisionOf m.codeId) (room.queueOf m.codeId))
    (hthin : ∀ kept, Dropping P (room.queueOf m.codeId) kept →
      Q m.active (room.revisionOf m.codeId)
        (renumbered m.active (room.revisionOf m.codeId) kept)) :
    Q m.active (room.revisionOf m.codeId) queue := by
  cases hqueue with
  | same => exact h
  | thinned kept hdrop =>
    rw [hactive]
    exact hthin kept hdrop

theorem Throughout.effect (hQ : QueueRules Q) {op : Op} {id : Text} (h : Throughout Q room)
    (hwell : WellFormed room) (he : Effect b op id room room')
    (hrolledBack : ∀ messageId plan, op = .rollbackApplication id messageId →
      Retracting b room messageId plan → Throughout Q (rolledBackRoom room messageId plan))
    (habandoned : ∀ messageId plan selected, op = .rollbackApplication id messageId →
      Retracting b room messageId plan → Throughout Q (abandonedRoom room messageId selected)) :
    Throughout Q room' := by
  cases he with
  | evicted hevict =>
    obtain ⟨n, rfl⟩ := hevict
    exact h.same rfl rfl rfl
  | joined hplan | left hplan | staged hplan =>
    rw [hplan.roomEq]
    exact h.same rfl rfl rfl
  | unjoined | unleft | unstaged => exact h.same rfl rfl rfl
  | accepted hplan hevict =>
    obtain ⟨n, rfl⟩ := hevict
    exact (h.accepted hQ hwell _ hplan).same rfl rfl rfl
  | admitted _ hplan => exact h.admitted hQ hwell hplan
  | committed hplan hevict =>
    obtain ⟨n, rfl⟩ := hevict
    obtain ⟨pendingBytes, hplanned, -⟩ := hplan.roomEq
    rw [hplanned]
    exact h.same rfl rfl rfl
  | rolledBack hplan => exact hrolledBack _ _ rfl hplan
  | abandoned selected hplan => exact habandoned _ _ selected rfl hplan
  | stored _ hplan => exact h.stored hQ hwell hplan

end

theorem revisions_length (queue : List PendingDelivery) :
    (revisions queue).length = queue.length := length_map ..

theorem revisions_push (queue : List PendingDelivery) (d : PendingDelivery) :
    revisions (queue ++ [d]) = revisions queue ++ [d.revision] := map_append ..

theorem renumbered_length (active : Bool) (revision : Nat) (queue : List PendingDelivery) :
    (renumbered active revision queue).length = queue.length := by
  have h := congrArg List.length (renumbered_unnumbered active revision queue)
  rwa [length_map, length_map] at h

theorem assigned_active (revision : Nat) (queue : List PendingDelivery) :
    assigned true revision queue = List.range' (revision + 1) queue.length := by
  cases queue <;> rfl

theorem assigned_welcome {d : PendingDelivery} (hd : d.payload.isWelcome = true) (revision : Nat)
    (queue : List PendingDelivery) :
    assigned false revision (d :: queue) = List.range' 0 (d :: queue).length := by
  rw [assigned, Bool.not_false, hd, Bool.and_self, if_pos rfl, length_cons,
    range'_succ]

theorem undone_queueOf (room : RelayRoom) (m : Text) (p : PendingApplication) (c : CodeId) :
    Compacted (fun d => d.messageId = m) room c ((room.undone m p).queueOf c) :=
  retracted_compacted room m _ c

theorem undone_revisionOf (room : RelayRoom) (m : Text) (p : PendingApplication) (c : CodeId) :
    (room.undone m p).revisionOf c =
      if p.senderCodeId = c then p.previousSenderRevision else room.revisionOf c :=
  revisionOf_insert room.memberRevisions _ _ _

end Abyssal.Rooms
