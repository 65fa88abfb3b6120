import Abyssal.Rooms.Retirement

/-! Every room of every reachable state is well formed: each effect of a call keeps the
structural invariant, and so does every run. -/

namespace Abyssal.Rooms

open RelayRoom RoomAuthority OrdMap Option

variable {room room' : RelayRoom} {s : RoomAuthority}

abbrev Call := HashOrder × Op

def call (s : RoomAuthority) (c : Call) : RoomAuthority := (exec c.1 s c.2).1

def after (maxRooms pendingTtlMs : Nat) (calls : List Call) : RoomAuthority :=
  runFrom call (newWithPendingTtl maxRooms pendingTtlMs) calls

theorem after_append (maxRooms pendingTtlMs : Nat) (calls : List Call) (c : Call) :
    after maxRooms pendingTtlMs (calls ++ [c]) = call (after maxRooms pendingTtlMs calls) c :=
  List.foldl_append ..

theorem after_invariant {P : RoomAuthority → Prop} {maxRooms pendingTtlMs : Nat}
    (hnew : P (newWithPendingTtl maxRooms pendingTtlMs)) (hcall : ∀ s c, P s → P (call s c))
    (calls : List Call) : P (after maxRooms pendingTtlMs calls) := run_invariant hcall hnew calls

variable {now : Nat}

theorem WellFormed.joined {a : JoinArgs} {plan : JoinPlan} (h : WellFormed room)
    (hplan : NewJoin s now a room plan) : WellFormed plan.room := by
  have hname : plan.request.username = a.username ∧ plan.request.codeId = a.codeId ∧
      plan.request.stableIdentity = a.stableIdentity := by
    rw [hplan.requestEq]
    exact ⟨rfl, rfl, rfl⟩
  obtain ⟨husername, hcode, hidentity⟩ := hname
  -- Every earlier request is of another user, code and identity.
  have hfresh : ∀ id join, room.joins.get? id = some join →
      JoinsApart join ⟨plan.request, a.stateEnvelope⟩ := by
    intro id join hj
    obtain ⟨k, hk, -⟩ := (h.requests.joinNew id join hj).name
    have hconflict := hplan.fresh id join hj
    simp only [PendingJoin.conflictsWith, hk, Bool.or_eq_false_iff, decide_eq_false_iff_not]
      at hconflict
    rw [(canonicalUsername_eq_ok.mp hk).2] at hconflict
    exact ⟨husername ▸ hconflict.1.1, hcode ▸ hconflict.1.2, hidentity ▸ hconflict.2⟩
  have hrequests : RequestsOk room.members room.ownerCodeId
      (room.joins.insert a.requestId ⟨plan.request, a.stateEnvelope⟩) room.leaves := by
    refine ⟨fun id join hj => ?_, fun id₁ j₁ id₂ j₂ h₁ h₂ hne => ?_, h.requests.leaveNamed,
      fun id join hj => ?_⟩
    · rcases get?_insert_cases hj with ⟨-, rfl⟩ | ⟨-, hold⟩
      · refine ⟨⟨toAsciiLowercase a.username, ?_, hplan.noMember⟩, fun k m hm => ?_⟩
        · rw [husername]
          exact hplan.username
        · rw [hcode, hidentity]
          exact hplan.apart k m hm
      · exact h.requests.joinNew id join hold
    · rcases get?_insert_cases h₁ with ⟨rfl, rfl⟩ | ⟨-, hold₁⟩ <;>
        rcases get?_insert_cases h₂ with ⟨rfl, rfl⟩ | ⟨-, hold₂⟩
      · exact absurd rfl hne
      · have hapart := hfresh id₂ j₂ hold₂
        exact ⟨hapart.name.symm, hapart.code.symm, hapart.identity.symm⟩
      · exact hfresh id₁ j₁ hold₁
      · exact h.requests.joinsApart id₁ j₁ id₂ j₂ hold₁ hold₂ hne
    · rcases get?_insert_cases hj with ⟨rfl, -⟩ | ⟨-, hold⟩
      · exact hplan.noLeave
      · exact h.requests.oneKind id join hold
  rw [hplan.roomEq]
  exact h.of_core ⟨rfl, rfl, rfl, rfl, rfl, rfl, rfl, rfl⟩ h.tables hrequests (fun _ ht => ht) id

theorem WellFormed.left {codeId : CodeId} {requestId : Text} {request : LeaveRequest}
    (h : WellFormed room) (hplan : NewLeave s codeId requestId room room' request) :
    WellFormed room' := by
  have hrequests : RequestsOk room.members room.ownerCodeId room.joins
      (room.leaves.insert requestId request) := by
    refine ⟨h.requests.joinNew, h.requests.joinsApart, fun id leave hl => ?_, fun id join hj => ?_⟩
    · rcases get?_insert_cases hl with ⟨rfl, rfl⟩ | ⟨-, hl⟩
      · obtain ⟨k, m, hm, hc, -, husername, hidentity⟩ := hplan.member
        exact ⟨hplan.code ▸ hplan.notOwner.symm, k, m, hm, hc.trans hplan.code.symm,
          husername.symm, hidentity.symm⟩
      · exact h.requests.leaveNamed id leave hl
    · rw [get?_insert_of_ne]
      · exact h.requests.oneKind id join hj
      · rintro rfl
        rw [hplan.noJoin] at hj
        cases hj
  rw [hplan.roomEq]
  exact h.of_core ⟨rfl, rfl, rfl, rfl, rfl, rfl, rfl, rfl⟩ h.tables hrequests (fun _ ht => ht) id

variable {t : MembershipTransition}

theorem checkChange_welcome {next : OrdMap Text Member} {k : Text}
    (h : checkChange room t next k = .ok ()) : next.contains k = !t.welcome.isEmpty := by
  unfold checkChange at h
  cases hc : next.contains k with
  | true =>
    rw [hc, if_pos rfl] at h
    obtain ⟨_, hw, -⟩ := bind_eq_ok.mp h
    have hw := rejectIf_eq_ok.mp hw
    simpa using hw
  | false =>
    rw [hc, if_neg Bool.false_ne_true] at h
    obtain ⟨_, hw, -⟩ := bind_eq_ok.mp h
    have hw := not_not.mp (rejectIf_eq_ok.mp hw)
    simp [hw]

theorem RoomAuthority.Staged.stagedFor {owner : CodeId} {staged : MembershipTransition}
    (hplan : Staged s now owner t staged room room') :
    StagedFor room' staged := by
  obtain ⟨next, ownerName, k, hresolved, -, hname, hcontains, hchanged, hsame, hcheck⟩ :=
    hplan.roster
  obtain ⟨requested, hmap, hout, hin⟩ := resolveNextRoster_ok hresolved
  have hchange := oneChange_of_changed hout hin hchanged hsame
  rw [checkChange_welcome hcheck] at hchange
  obtain ⟨r, hr⟩ : ∃ r, requested.get? ownerName = some r := by
    obtain ⟨m, hm⟩ := contains_eq_true.mp hcontains
    cases hreq : requested.get? ownerName with
    | none =>
      rw [hout ownerName hreq] at hm
      cases hm
    | some r => exact ⟨r, rfl⟩
  have hb := hplan.bounds
  rw [hplan.roomEq, hplan.stagedEq]
  exact ⟨⟨hb.roomId, hb.messageId, hb.groupId, hb.digest, hb.control, hb.welcome, hb.data, hb.state⟩,
    hplan.fromEpoch.symm, hplan.fromDigest.symm, hplan.fromDigestLength, hplan.toEpoch,
    hplan.groupId.symm, hplan.noPending, hplan.owner ▸ hplan.queue, hplan.owner ▸ hplan.revision,
    requested, ownerName, r, k, hmap, hname, hr, hchange⟩

theorem WellFormed.staged {owner : CodeId} {staged : MembershipTransition} (h : WellFormed room)
    (hplan : Staged s now owner t staged room room') : WellFormed room' := by
  have hstaged := hplan.stagedFor
  have hidle : ∀ m p, room.pendingApplications.get? m ≠ some p := fun m p => by
    rw [get?_of_size_eq_zero hplan.noPending]
    exact (some_ne_none p).symm
  have heq := hplan.roomEq
  subst heq
  refine ⟨h.members, h.tables, h.requests, fun t' ht' => ?_, fun m p hp => absurd hp (hidle m p),
    fun m p m' p' hp => absurd hp (hidle m p)⟩
  obtain rfl := some.inj ht'
  exact hstaged

theorem TablesOk.admitted {a : AdmitArgs} {plan : AdmitPlan} (h : WellFormed room)
    (hplan : Admitted s now room a plan) :
    TablesOk room.members (room.memberRevisions.insert a.senderCodeId a.senderRevision)
      (plan.deliveries.foldl pushDelivery room.deliveries) room.expiredSenderGaps
      (room.snapshots.insert a.senderCodeId plan.snapshot) := by
  obtain ⟨k, m, hm, hc, -⟩ := hplan.sender
  obtain ⟨fallback, -, hsnapshot⟩ := hplan.roster
  have hrestored := h.tables.restore ⟨k, m, hm, hc⟩ plan.snapshot
  rw [show plan.snapshot.revision = a.senderRevision from hsnapshot ▸ rfl] at hrestored
  refine ⟨hrestored.revised, fun c queue hq => ?_, hrestored.gapped, hrestored.stored⟩
  by_contra hnot
  obtain ⟨-, hnone⟩ := admitted_forRecipient hplan h.members.codes c
  rw [foldl_pushDelivery_get?, if_pos (hnone fun k' m' hm' hc' => absurd ⟨k', m', hm', hc'⟩ hnot)]
    at hq
  exact hnot (h.tables.queued c queue hq)

theorem WellFormed.admitted {a : AdmitArgs} {plan : AdmitPlan} (h : WellFormed room)
    (hplan : Admitted s now room a plan) :
    WellFormed (admitRoom room a plan) := by
  obtain ⟨k, m, hm, hc, hactive, -⟩ := hplan.sender
  have hsender : plan.pending.senderCodeId = a.senderCodeId := by rw [hplan.pendingEq]
  have hprevious : plan.pending.previousSnapshot = room.snapshots.get? a.senderCodeId := by
    rw [hplan.pendingEq]
  have hkey : plan.pending.admission.messageId = a.messageId := by
    rw [hplan.pendingEq]
    exact hplan.messageId
  refine ⟨h.members, TablesOk.admitted h hplan, h.requests, fun t ht => ?_, fun m' p hp => ?_,
    fun m₁ p₁ m₂ p₂ h₁ h₂ heq => ?_⟩
  · rw [show (admitRoom room a plan).pendingTransition = none from hplan.noTransition] at ht
    cases ht
  · rcases get?_insert_cases hp with ⟨rfl, rfl⟩ | ⟨-, hold⟩
    · obtain ⟨snapshot, hs, hr⟩ := h.tables.stored a.senderCodeId ⟨k, m, hm, hc⟩
      rw [hplan.revision] at hr
      refine ⟨hkey, ⟨k, m, hm, hc.trans hsender.symm, hactive⟩, hplan.noTransition,
        ⟨a.senderRevision, ?_, ?_⟩, snapshot, hprevious.trans hs, (some.inj hr).symm⟩
      · rw [hsender]
        exact get?_insert_self ..
      · rw [hplan.senderRevision]
        exact Nat.lt_succ_self _
    · have hq := h.pending m' p hold
      obtain ⟨r, hr, hlt⟩ := hq.revision
      refine ⟨hq.key, hq.active, hq.noTransition, ⟨r, ?_, hlt⟩, hq.snapshot⟩
      exact (get?_insert_of_ne _ _ (hplan.idle m' p hold).symm).trans hr
  · rcases get?_insert_cases h₁ with ⟨rfl, rfl⟩ | ⟨-, hold₁⟩ <;>
      rcases get?_insert_cases h₂ with ⟨rfl, rfl⟩ | ⟨-, hold₂⟩
    · rfl
    · exact absurd (heq.symm.trans hsender) (hplan.idle m₂ p₂ hold₂)
    · exact absurd (heq.trans hsender) (hplan.idle m₁ p₁ hold₁)
    · exact h.senders m₁ p₁ m₂ p₂ hold₁ hold₂ heq

variable {m : Text}

theorem WellFormed.forget (h : WellFormed room) {p : PendingApplication}
    (hp : room.pendingApplications.get? m = some p)
    {deliveries : OrdMap CodeId (List PendingDelivery)} (pendingBytes : Nat)
    (replayIds : List (ReplayKey × Nat))
    (hqueues : ∀ c q, deliveries.get? c = some q → ∃ q', room.deliveries.get? c = some q') :
    WellFormed { room with
      pendingApplications := room.pendingApplications.erase m
      deliveries := deliveries
      pendingBytes := pendingBytes
      replayIds := replayIds } := by
  have hold : ∀ m' p', (room.pendingApplications.erase m).get? m' = some p' →
      room.pendingApplications.get? m' = some p' := by
    intro m' p' hp'
    rw [get?_erase] at hp'
    split_ifs at hp' with hne
    exact hp'
  refine ⟨h.members, h.tables.queuesOf hqueues h.tables.gapped, h.requests,
    fun t ht => absurd ht (h.noTransition hp t), fun m' p' hp' => ?_,
    fun m₁ p₁ m₂ p₂ h₁ h₂ => h.senders m₁ p₁ m₂ p₂ (hold m₁ p₁ h₁) (hold m₂ p₂ h₂)⟩
  have hq := h.pending m' p' (hold m' p' hp')
  exact ⟨hq.key, hq.active, hq.noTransition, hq.revision, hq.snapshot⟩

theorem rolledBack_tidy {plan : RollbackPlan} (hplan : Retracting s room m plan) :
    TidyStar room (rolledBackRoom room m plan) :=
  .tail (.tail (.single (.undo m plan.pending hplan.pendingGet)) (.trim .dropEmpty))
    (.trim (.recount plan.roomPendingBytes plan.roomSnapshotBytes plan.roomDeliveryBytes))

theorem WellFormed.tidyStar (h : WellFormed room) (ht : TidyStar room room') : WellFormed room' :=
  ht.invariant (fun _ _ hr => hr.tidy) h

theorem storedGaps_old {c : CodeId} {ds : List PendingDelivery} {pair : CodeId ×ₗ CodeId} {n : Nat}
    (h : (storedGaps room c ds).get? pair = some n) :
    room.expiredSenderGaps.get? pair = some n := by
  have hfold : ∀ (senders : List CodeId) (gaps : OrdMap (CodeId ×ₗ CodeId) Nat),
      (senders.foldl (fun gaps sender => gaps.erase (toLex (c, sender))) gaps).get? pair = some n →
      gaps.get? pair = some n := by
    intro senders
    induction senders with
    | nil => exact fun _ h => h
    | cons sender senders ih =>
      intro gaps h
      have h := ih _ h
      rw [get?_erase] at h
      split_ifs at h with hne
      exact h
  unfold storedGaps at h
  dsimp only at h
  split_ifs at h
  · rw [get?_filter, filter_eq_some_iff] at h
    exact hfold _ _ h.1
  · exact hfold _ _ h

theorem RelayRoom.memberActive_of_get? (h : WellFormed room) {k : Text} {m : Member}
    (hm : room.members.get? k = some m) : room.memberActive m.codeId = m.active :=
  memberActive_eq h.members.codes hm

theorem StagedFor.stored {a : StoreArgs} {plan : StorePlan} (h : StagedFor room t)
    (hplan : Stored s now room a plan) : StagedFor (storeRoom room a plan) t := by
  refine ⟨h.bounds, h.fromEpoch, h.fromDigest, h.fromDigestLength, h.toEpoch, h.groupId,
    h.noPending, ?_, ?_, ?_⟩
  · rw [storeRoom_queueOf, show (storeRoom room a plan).ownerCodeId = room.ownerCodeId from rfl,
      h.queue, List.drop_nil, ite_self]
  · obtain ⟨r, hr, hrest⟩ := h.revision
    refine ⟨r, ?_, hrest⟩
    change (room.memberRevisions.insert a.memberCodeId a.revision).get? room.ownerCodeId = some r
    rw [get?_insert]
    split_ifs with howner
    · -- The owner has nothing queued, so it can only repeat its snapshot.
      obtain ⟨-, hrevision⟩ := hplan.retires.of_queue_nil (howner ▸ h.queue)
      rw [hrevision, howner, RelayRoom.revisionOf, hr, getD_some]
    · exact hr
  · obtain ⟨requested, ownerName, r, k, hmap, hname, hget, hchange⟩ := h.roster
    exact ⟨requested, ownerName, r, k, hmap, hname, hget,
      (storeRoom_members room a plan).oneChange hchange⟩

theorem WellFormed.stored {a : StoreArgs} {plan : StorePlan} (h : WellFormed room)
    (hplan : Stored s now room a plan) :
    WellFormed (storeRoom room a plan) := by
  obtain ⟨member, hmember, hcode⟩ := hplan.member
  have hactivated := storeRoom_members room a plan
  have hrestored := h.tables.restore ⟨_, member, hmember, hcode⟩ plan.snapshot
  rw [show plan.snapshot.revision = a.revision by rw [hplan.snapshotEq]] at hrestored
  refine ⟨hactivated.membersOk h.members, ⟨fun c => ?_, fun c q hq => ?_, fun pair n hg => ?_,
    fun c hc => ?_⟩, hactivated.requestsOk h.requests, fun t ht => (h.staging t ht).stored hplan,
    fun m p hp => ?_, h.senders⟩
  · rw [hactivated.isMember]
    exact hrestored.revised c
  · rw [hactivated.isMember]
    change (if 0 < plan.retired then room.deliveries.modify a.memberCodeId
      fun queue => queue.drop plan.retired else room.deliveries).get? c = some q at hq
    split_ifs at hq
    · rw [get?_modify] at hq
      split_ifs at hq
      · obtain ⟨q', hq', -⟩ := map_eq_some_iff.mp hq
        exact h.tables.queued c q' hq'
      · exact h.tables.queued c q hq
    · exact h.tables.queued c q hq
  · rw [hactivated.isMember]
    exact h.tables.gapped pair n (storedGaps_old hg)
  · exact hrestored.stored c (hactivated.isMember.mp hc)
  · have hq := h.pending m p hp
    obtain ⟨k, mem, hget, hmc, hactive⟩ := hq.active
    obtain ⟨mem', hget', hact⟩ := hactivated.new hget
    obtain ⟨r, hr, hlt⟩ := hq.revision
    refine ⟨hq.key, ⟨k, mem', hget', hact.code.trans hmc, hact.active hactive⟩, hq.noTransition, ?_,
      hq.snapshot⟩
    change ∃ r, (room.memberRevisions.insert a.memberCodeId a.revision).get? p.senderCodeId =
      some r ∧ p.previousSenderRevision < r
    rw [get?_insert]
    split_ifs with hsender
    · have hbehind := hplan.notBehind
      rw [hsender, RelayRoom.revisionOf, hr, getD_some] at hbehind
      exact ⟨a.revision, rfl, lt_of_lt_of_le hlt hbehind⟩
    · exact ⟨r, hr, hlt⟩

theorem WellFormed.created {createdAt : Nat} {a : CreateArgs} {plan : CreatePlan}
    (hplan : Created s createdAt a plan) : WellFormed plan.room := by
  obtain ⟨name, bytes, hname, -, hroom, -⟩ := hplan.roomEq
  have hone : ∀ k m, (OrdMap.empty.insert name (⟨a.ownerUsername, a.ownerCodeId, a.stableIdentity,
      true⟩ : Member)).get? k = some m → name = k ∧
        (⟨a.ownerUsername, a.ownerCodeId, a.stableIdentity, true⟩ : Member) = m := by
    intro k m hm
    rw [get?_insert, get?_empty] at hm
    split_ifs at hm with hk
    exact ⟨hk, some.inj hm⟩
  have hmember : ∀ c, IsMember (OrdMap.empty.insert name (⟨a.ownerUsername, a.ownerCodeId,
      a.stableIdentity, true⟩ : Member)) c ↔ a.ownerCodeId = c := by
    intro c
    constructor
    · rintro ⟨k, m, hm, hc⟩
      obtain ⟨-, rfl⟩ := hone k m hm
      exact hc
    · exact fun hc => ⟨name, _, get?_insert_self .., hc⟩
  rw [hroom]
  refine ⟨⟨fun k m hm => ?_, fun k₁ m₁ k₂ m₂ h₁ h₂ _ => ?_, fun k₁ m₁ k₂ m₂ h₁ h₂ _ => ?_, name, _,
    hname, get?_insert_self .., rfl, rfl⟩, ⟨fun c => ?_, fun c q hq => ?_,
    fun pair n hg => ?_, fun c hc => ?_⟩, ⟨fun id j hj => ?_, fun id j id' j' hj => ?_,
    fun id l hl => ?_, fun id j hj => ?_⟩, fun t ht => (nomatch ht), fun m p hp => ?_,
    fun m p m' p' hp => ?_⟩
  · obtain ⟨rfl, rfl⟩ := hone k m hm
    exact hname
  · exact (hone k₁ m₁ h₁).1.symm.trans (hone k₂ m₂ h₂).1
  · exact (hone k₁ m₁ h₁).1.symm.trans (hone k₂ m₂ h₂).1
  · refine Iff.trans ?_ (hmember c).symm
    change (∃ r, (OrdMap.empty.insert a.ownerCodeId 0).get? c = some r) ↔ _
    rw [get?_insert, get?_empty]
    split_ifs with hc
    · exact ⟨fun _ => hc, fun _ => ⟨0, rfl⟩⟩
    · exact ⟨fun ⟨r, hr⟩ => (by cases hr), fun h => absurd h hc⟩
  · cases hq
  · cases hg
  · obtain rfl := (hmember c).mp hc
    exact ⟨_, get?_insert_self .., get?_insert_self ..⟩
  · cases hj
  · cases hj
  · cases hl
  · cases hj
  · cases hp
  · cases hp

theorem WellFormed.effect {b : RoomAuthority} {op : Op} {id : Text} (h : WellFormed room)
    (he : Effect b op id room room') : WellFormed room' := by
  cases he with
  | evicted hevict => exact h.evicted hevict
  | joined hplan => exact h.joined hplan
  | @unjoined _ _ _ requestId =>
    refine h.tidy (.requests (room.joins.erase requestId) room.leaves (fun id j hj => ?_)
      fun id l hl => hl)
    rw [get?_erase] at hj
    split_ifs at hj with hne
    exact hj
  | left hplan => exact h.left hplan
  | @unleft _ _ _ requestId =>
    refine h.tidy (.requests room.joins (room.leaves.erase requestId) (fun id j hj => hj)
      fun id l hl => ?_)
    rw [get?_erase] at hl
    split_ifs at hl with hne
    exact hl
  | staged hplan => exact h.staged hplan
  | accepted hplan hevict => exact (h.accepted _ hplan).evicted hevict
  | unstaged => exact h.tidy .unstage
  | admitted _ hplan => exact h.admitted hplan
  | committed hplan hevict =>
    obtain ⟨pendingBytes, hroom, -⟩ := hplan.roomEq
    rw [hroom] at hevict
    exact (h.forget hplan.pendingGet pendingBytes _ fun _ q hq => ⟨q, hq⟩).evicted hevict
  | rolledBack hplan => exact h.tidyStar (rolledBack_tidy hplan)
  | abandoned selected hplan =>
    refine h.forget hplan.pendingGet _ _ fun _ _ hq => ?_
    rw [retracted_get?] at hq
    obtain ⟨q, hq, -⟩ := map_eq_some_iff.mp hq
    exact ⟨q, hq⟩
  | stored _ hplan => exact h.stored hplan

def AllRooms (P : RelayRoom → Prop) (s : RoomAuthority) : Prop :=
  ∀ id room, s.rooms.get? id = some room → P room

section

variable {P : RelayRoom → Prop} {s : RoomAuthority}

theorem AllRooms.new (P : RelayRoom → Prop) (maxRooms pendingTtlMs : Nat) :
    AllRooms P (newWithPendingTtl maxRooms pendingTtlMs) := by
  intro id room hroom
  cases hroom

theorem AllRooms.insert (h : AllRooms P s) {id : Text} (hroom : P room) {s' : RoomAuthority}
    (hs' : s'.rooms = s.rooms.insert id room) : AllRooms P s' := by
  intro id' r hr
  rw [hs', get?_insert] at hr
  split_ifs at hr
  · exact some.inj hr ▸ hroom
  · exact h id' r hr

theorem AllRooms.base (h : AllRooms P s)
    (htidy : ∀ room room', P room → Tidy room room' → P room') (σ : HashOrder) (op : Op) :
    AllRooms P (op.base σ s) := by
  intro id mid hmid
  obtain ⟨room, hroom, hpruned⟩ := base_room hmid
  exact hpruned.tidy.invariant htidy (h id room hroom)

theorem AllRooms.step {σ : HashOrder} {b s' : RoomAuthority} {op : Op}
    {result : Except String Reply} (h : AllRooms P b) (hstep : Step σ b op s' result)
    (heffect : ∀ id room room', b.rooms.get? id = some room → P room →
      Effect b op id room room' → P room')
    (hcreate : ∀ createdAt a plan, Created b createdAt a plan → P plan.room) : AllRooms P s' := by
  intro id room' hroom'
  rcases hstep.effect hroom' with ⟨room, hroom, he⟩ | ⟨_, createdAt, a, plan, -, -, hplan, rfl⟩
  · exact heffect id room room' hroom (h id room hroom) he
  · exact hcreate createdAt a plan hplan

theorem AllRooms.call (h : AllRooms P s) (c : Call)
    (htidy : ∀ room room', P room → Tidy room room' → P room')
    (heffect : ∀ id room room', (c.2.base c.1 s).rooms.get? id = some room → P room →
      Effect (c.2.base c.1 s) c.2 id room room' → P room')
    (hcreate : ∀ createdAt a plan, Created (c.2.base c.1 s) createdAt a plan → P plan.room) :
    AllRooms P (call s c) :=
  (h.base htidy c.1 c.2).step (exec_step c.1 s c.2) heffect hcreate

end

theorem AllRooms.wellFormed_call (h : AllRooms WellFormed s) (c : Call) :
    AllRooms WellFormed (Rooms.call s c) :=
  h.call c (fun _ _ hr => hr.tidy) (fun _ _ _ _ hr he => hr.effect he)
    fun _ _ _ hplan => .created hplan

theorem wellFormed_after (maxRooms pendingTtlMs : Nat) (calls : List Call) :
    AllRooms WellFormed (after maxRooms pendingTtlMs calls) :=
  @after_invariant (AllRooms WellFormed) _ _ (.new _ _ _) (fun _ c hs => hs.wellFormed_call c) calls

/-! The runs below use one room, `lobby`, owned by `alice`, whose code is 1. Its checkpoint at
epoch `n` has the digest of `n`s. -/

namespace Scenario

def lobby : Text := [108]
def alice : Text := [97]
def bob : Text := [98]
def carol : Text := [99]
def groupId : Bytes := List.replicate groupIdBytes 7
def digest (epoch : Nat) : Bytes := List.replicate membershipDigestBytes (UInt8.ofNat epoch)
def identity (n : UInt8) : Bytes := List.replicate stableIdentityBytes n

def create : Op :=
  .create 0 0
    { ownerCodeId := 1, ownerUsername := alice, roomId := lobby, groupId, epoch := 0, revision := 0
      membershipDigest := digest 0, stableIdentity := identity 1, policy := {}
      visibility := .priv, stateEnvelope := [1] }

def requestJoin (now : Nat) (codeId : CodeId) (username : Text) (n : UInt8) (requestId : Text) :
    Op :=
  .requestJoin now
    { codeId, username, roomId := lobby, requestId, stableIdentity := identity n
      keyPackage := [1], stateEnvelope := [1] }

def transition (messageId : Text) (requestId : Option Text) (epoch revision : Nat)
    (members : List (Text × UInt8)) (welcome : Bytes) : MembershipTransition :=
  { roomId := lobby, messageId, requestId, fromEpoch := epoch, toEpoch := epoch + 1, revision
    groupId, fromMembershipDigest := digest epoch, membershipDigest := digest (epoch + 1)
    roster := members.map fun e => ⟨e.1, identity e.2⟩
    control := [1], welcome, authenticatedData := [1], stateEnvelope := [1]
    createdAtMs := 0, expiresAtMs := 0 }

def begin (now : Nat) (t : MembershipTransition) : Op := .beginMembership now 1 t

def accept (now : Nat) (t : MembershipTransition) : Op :=
  .acceptMembership ⟨now, now, now, now⟩ 1 lobby t.messageId t.revision

def send (now : Nat) (senderCodeId : CodeId) (messageId : Text) (epoch senderRevision : Nat) : Op :=
  .admitApplication now
    { senderCodeId, senderPlatform := .web, roomId := lobby, messageId, groupId, epoch
      senderRevision, membershipDigest := digest epoch, ciphertext := [1]
      authenticatedData := [1], stateEnvelope := [1] }

def store (now : Nat) (memberCodeId : CodeId) (messageId : Text) (epoch revision : Nat) : Op :=
  .storeSnapshot now
    { memberCodeId, roomId := lobby, messageId, epoch, revision
      membershipDigest := digest epoch, stateEnvelope := [1] }

def calls (ops : List Op) : List Call := ops.map fun op => (.byKey, op)

def addBob : MembershipTransition :=
  transition [49] (some [49]) 0 1 [(alice, 1), (bob, 2)] [1]

/-- Bob, whose code is 2, joins and stores the snapshot of his welcome. -/
def bobJoins : List Op :=
  [create, requestJoin 1 2 bob 2 [49], begin 1 addBob, accept 1 addBob, store 1 2 [49] 1 0]

end Scenario

end Abyssal.Rooms
