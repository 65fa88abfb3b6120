import Abyssal.Rooms.History
import Mathlib.Data.List.Infix

/-! The chain of checkpoints behind every queue. A member's stored snapshot, or the welcome of
one who is still joining, is where its queue starts; applications stay at their checkpoint,
commits move it on by one epoch, and the last one is the room's own. -/

namespace Abyssal.Rooms

open RelayRoom RoomAuthority OrdMap List Option

variable {p q : Checkpoint} {queue : List PendingDelivery} {log : List Event} {d : PendingDelivery}

structure Checkpoint where
  epoch : Nat
  digest : Bytes
  roster : List RosterMember

def StateSnapshot.checkpoint (snapshot : StateSnapshot) : Checkpoint :=
  ⟨snapshot.epoch, snapshot.membershipDigest, snapshot.roster⟩

def MembershipTransition.checkpoint (t : MembershipTransition) : Checkpoint :=
  ⟨t.toEpoch, t.membershipDigest, t.roster⟩

/-- The checkpoint is the room's, and its roster names the room's members. -/
structure Checkpoint.Current (p : Checkpoint) (room : RelayRoom) : Prop where
  epoch : p.epoch = room.epoch
  digest : p.digest = room.membershipDigest
  names : Names p.roster room.members

/-- What a member that stands at one checkpoint makes of a delivery. -/
inductive Moves : Checkpoint → PendingDelivery → Checkpoint → Prop
  | application {p : Checkpoint} {d : PendingDelivery}
      (hpayload : d.payload.isApplication = true) (hepoch : d.epoch = p.epoch)
      (hdigest : d.membershipDigest = p.digest) : Moves p d p
  | membership {p : Checkpoint} {d : PendingDelivery} {groupId : Bytes}
      {roster : List RosterMember} {control welcome data : Bytes}
      (hpayload : d.payload =
        .membership p.epoch p.digest groupId roster control welcome data)
      (hepoch : d.epoch = p.epoch + 1) : Moves p d ⟨d.epoch, d.membershipDigest, roster⟩

/-- The member's queue leads from where the member stands to the room's checkpoint. -/
inductive Chained (room : RelayRoom) (m : Member) : Prop
  | active (snapshot : StateSnapshot) (last : Checkpoint) (hactive : m.active = true)
      (hsnapshot : room.snapshots.get? m.codeId = some snapshot)
      (hpath : Path Moves snapshot.checkpoint (room.queueOf m.codeId) last)
      (hlast : last.Current room)
  | joining (before first last : Checkpoint) (d : PendingDelivery) (rest : List PendingDelivery)
      (hactive : m.active = false) (hqueue : room.queueOf m.codeId = d :: rest)
      (hwelcome : d.payload.isWelcome = true) (hfirst : Moves before d first)
      (hpath : Path Moves first rest last) (hlast : last.Current room)

theorem Moves.of_unnumbered {d' : PendingDelivery} (heq : d.unnumbered = d'.unnumbered)
    (h : Moves p d q) : Moves p d' q := by
  have hpayload := PendingDelivery.payload_of_unnumbered heq
  have hepoch : d.unnumbered.epoch = d'.unnumbered.epoch := by rw [heq]
  have hdigest : d.unnumbered.membershipDigest = d'.unnumbered.membershipDigest := by rw [heq]
  change d.epoch = d'.epoch at hepoch
  change d.membershipDigest = d'.membershipDigest at hdigest
  cases h with
  | application h₁ h₂ h₃ => exact .application (hpayload ▸ h₁) (hepoch ▸ h₂) (hdigest ▸ h₃)
  | membership h₁ h₂ =>
    rw [hepoch, hdigest]
    exact .membership (hpayload ▸ h₁) (hepoch ▸ h₂)

theorem Moves.application_stays (hd : d.payload.isApplication = true) (h : Moves p d q) :
    q = p := by
  cases h with
  | application => rfl
  | membership hpayload =>
    rw [hpayload] at hd
    cases hd

theorem Moves.at_delivery (h : Moves p d q) :
    q.epoch = d.epoch ∧ q.digest = d.membershipDigest := by
  cases h with
  | application _ hepoch hdigest => exact ⟨hepoch.symm, hdigest.symm⟩
  | membership => exact ⟨rfl, rfl⟩

theorem path_of_forall (h : ∀ d ∈ queue, Moves p d p) : Path Moves p queue p := by
  induction queue with
  | nil => exact .nil p
  | cons d queue ih =>
    exact .cons (h d (mem_cons_self ..)) (ih fun d' hd' => h d' (mem_cons_of_mem _ hd'))

variable {queue' : List PendingDelivery}

theorem Thinned.path (h : Thinned (fun d => d.payload.isApplication = true) queue queue')
    (hpath : Path Moves p queue q) : Path Moves p queue' q := by
  obtain ⟨kept, hdrop, heq⟩ := h
  have hkept := hpath.dropping (fun d hd s t hmoves => hmoves.application_stays hd) hdrop
  exact hkept.of_map_eq (fun _ _ _ _ heq hmoves => hmoves.of_unnumbered heq) heq

variable {P : PendingDelivery → Prop}

theorem Thinned.forall {R : PendingDelivery → Prop} (h : Thinned P queue queue')
    (hR : ∀ d d', d.unnumbered = d'.unnumbered → R d → R d') (hqueue : ∀ d ∈ queue, R d) :
    ∀ d ∈ queue', R d := by
  obtain ⟨kept, hdrop, heq⟩ := h
  intro d' hd'
  have hmem : d'.unnumbered ∈ kept.map PendingDelivery.unnumbered :=
    heq ▸ mem_map_of_mem hd'
  obtain ⟨d, hd, hdd⟩ := mem_map.mp hmem
  exact hR d d' hdd (hqueue d (hdrop.sublist.subset hd))

theorem Thinned.cons {rest : List PendingDelivery}
    (h : Thinned (fun d => d.payload.isApplication = true) (d :: rest) queue')
    (hd : d.payload.isApplication = false) : ∃ d' rest', queue' = d' :: rest' ∧
      d.unnumbered = d'.unnumbered ∧
      Thinned (fun d => d.payload.isApplication = true) rest rest' := by
  obtain ⟨kept, hdrop, heq⟩ := h
  cases hdrop with
  | keep _ hrest =>
    cases queue' with
    | nil => simp at heq
    | cons d' rest' =>
      obtain ⟨hhead, htail⟩ := cons_eq_cons.mp heq
      exact ⟨d', rest', rfl, hhead, _, hrest, htail⟩
  | drop happlication =>
    rw [hd] at happlication
    cases happlication

def commitIds (log : List Event) : List Text :=
  log.filterMap fun e => match e with
    | .commit t => some t.messageId
    | .message .. => none

def messageIds (log : List Event) : List Text :=
  log.filterMap fun e => match e with
    | .commit _ => none
    | .message a _ => some a.messageId

/-- No application has had the message id of a commit. -/
def DistinctIds (log : List Event) : Prop := ∀ m ∈ commitIds log, m ∉ messageIds log

instance (log : List Event) : Decidable (DistinctIds log) :=
  inferInstanceAs (Decidable (∀ m ∈ commitIds log, m ∉ messageIds log))

variable {t : MembershipTransition} {room : RelayRoom}

theorem Chronicled.retracted_thinned (h : Chronicled log room) (hids : DistinctIds log) {m : Text}
    {p : PendingApplication} (hp : room.pendingApplications.get? m = some p)
    (selected : CodeId → Bool) (c : CodeId) :
    Thinned (fun d => d.payload.isApplication = true) (room.queueOf c)
      (((room.retracted m selected).get? c).getD []) := by
  obtain ⟨kept, hdrop, heq⟩ := (retracted_compacted room m selected c).queue
  refine ⟨kept, hdrop.imp fun d hd hid => ?_, heq⟩
  obtain ⟨a, admission, hmem, ha⟩ := h.pending m p hp
  obtain ⟨e, he, hdelivers⟩ := (h.queues c).exists_of_mem hd
  cases e with
  | commit t =>
    have hcommit : d.messageId = t.messageId := by
      obtain ⟨r, member, hcontrol | hwelcome⟩ := hdelivers
      · exact congrArg PendingDelivery.messageId hcontrol
      · exact congrArg PendingDelivery.messageId hwelcome
    have hshared : m ∈ commitIds log :=
      mem_filterMap.mpr ⟨_, he, congrArg some (hcommit.symm.trans hid)⟩
    exact hids m hshared (mem_filterMap.mpr ⟨_, hmem, congrArg some ha⟩) |>.elim
  | message a' admission' =>
    obtain ⟨now, c', happlication⟩ := hdelivers
    have hpayload := congrArg PendingDelivery.payload happlication
    change d.payload = .application .. at hpayload
    rw [hpayload]
    rfl

/-- What undoing an admission needs: its sender was at the room's checkpoint, and has only been
sent applications since. -/
def Undoable (room : RelayRoom) (p : PendingApplication) : Prop :=
  ∃ snapshot, p.previousSnapshot = some snapshot ∧ snapshot.checkpoint.Current room ∧
    ∀ d ∈ room.queueOf p.senderCodeId, Moves snapshot.checkpoint d snapshot.checkpoint

structure Linked (room : RelayRoom) : Prop where
  chained : ∀ k m, room.members.get? k = some m → Chained room m
  undoable : ∀ id p, room.pendingApplications.get? id = some p → Undoable room p

section

variable {room room' : RelayRoom}
  {m : Member} {log : List Event} {p : Checkpoint} {ds : List PendingDelivery}

theorem Chained.thin (h : Chained room m)
    (hthin : Thinned (fun d => d.payload.isApplication = true) (room.queueOf m.codeId)
      (room'.queueOf m.codeId))
    (hsnapshot : room'.snapshots.get? m.codeId = room.snapshots.get? m.codeId)
    (hcurrent : ∀ p : Checkpoint, p.Current room → p.Current room') : Chained room' m := by
  cases h with
  | active snapshot last hactive hsnap hpath hlast =>
    exact .active snapshot last hactive (hsnapshot.trans hsnap) (hthin.path hpath)
      (hcurrent last hlast)
  | joining before first last d rest hactive hqueue hwelcome hfirst hpath hlast =>
    rw [hqueue] at hthin
    obtain ⟨d', rest', hqueue', heq, hrest⟩ :=
      hthin.cons (DeliveryPayload.not_application hwelcome)
    have hpayload := PendingDelivery.payload_of_unnumbered heq
    exact .joining before first last d' rest' hactive hqueue' (hpayload ▸ hwelcome)
      (hfirst.of_unnumbered heq) (hrest.path hpath) (hcurrent last hlast)

theorem Undoable.thin {p : PendingApplication} (h : Undoable room p)
    (hthin : Thinned P (room.queueOf p.senderCodeId) (room'.queueOf p.senderCodeId))
    (hcurrent : ∀ p : Checkpoint, p.Current room → p.Current room') : Undoable room' p := by
  obtain ⟨snapshot, hprevious, hat, hqueue⟩ := h
  exact ⟨snapshot, hprevious, hcurrent _ hat,
    hthin.forall (fun _ _ heq hmoves => hmoves.of_unnumbered heq) hqueue⟩

theorem Checkpoint.Current.of_eq (h : p.Current room) (hepoch : room'.epoch = room.epoch)
    (hdigest : room'.membershipDigest = room.membershipDigest)
    (hmembers : room'.members = room.members) : p.Current room' :=
  ⟨h.epoch.trans hepoch.symm, h.digest.trans hdigest.symm, hmembers ▸ h.names⟩

theorem Linked.thin (h : Linked room)
    (hthin : ∀ c, Thinned (fun d => d.payload.isApplication = true) (room.queueOf c)
      (room'.queueOf c))
    (hpending : ∀ m p, room'.pendingApplications.get? m = some p →
      room.pendingApplications.get? m = some p)
    (hsnapshots : room'.snapshots = room.snapshots) (hepoch : room'.epoch = room.epoch)
    (hdigest : room'.membershipDigest = room.membershipDigest)
    (hmembers : room'.members = room.members) : Linked room' := by
  have hcurrent : ∀ p : Checkpoint, p.Current room → p.Current room' :=
    fun p hp => hp.of_eq hepoch hdigest hmembers
  refine ⟨fun k m hm => ?_, fun id p hp => (h.undoable id p (hpending id p hp)).thin
    (hthin _) hcurrent⟩
  exact (h.chained k m (hmembers ▸ hm)).thin (hthin m.codeId) (by rw [hsnapshots]) hcurrent

theorem Linked.same (h : Linked room) (hdeliveries : room'.deliveries = room.deliveries)
    (hpending : room'.pendingApplications = room.pendingApplications)
    (hsnapshots : room'.snapshots = room.snapshots) (hepoch : room'.epoch = room.epoch)
    (hdigest : room'.membershipDigest = room.membershipDigest)
    (hmembers : room'.members = room.members) : Linked room' := by
  refine h.thin (fun c => ?_) (fun m p hp => hpending ▸ hp) hsnapshots hepoch hdigest hmembers
  rw [queueOf, queueOf, hdeliveries]
  exact .refl _

theorem Linked.undone (h : Linked room) (hwell : WellFormed room) (hlog : Chronicled log room)
    (hids : DistinctIds log) {m : Text} {p : PendingApplication}
    (hp : room.pendingApplications.get? m = some p) : Linked (room.undone m p) := by
  have hthin : ∀ c, Thinned (fun d => d.payload.isApplication = true) (room.queueOf c)
      ((room.undone m p).queueOf c) := fun c => hlog.retracted_thinned hids hp _ c
  have hcurrent : ∀ q : Checkpoint, q.Current room → q.Current (room.undone m p) :=
    fun q hq => hq.of_eq rfl rfl rfl
  obtain ⟨snapshot, hprevious, hat, hqueue⟩ := h.undoable m p hp
  obtain ⟨k, sender, hsender, hcode, hactive⟩ := (hwell.pending m p hp).active
  have hsnapshots : (room.undone m p).snapshots = room.snapshots.insert p.senderCodeId snapshot := by
    simp only [RelayRoom.undone, restoreSender, hprevious]
  refine ⟨fun k' m' hm' => ?_, fun id q hq => (h.undoable id q (get?_of_erase hq)).thin
    (hthin _) hcurrent⟩
  by_cases hc : p.senderCodeId = m'.codeId
  · obtain rfl := hwell.members.codes.member_eq hsender hm' (hcode.trans hc)
    refine .active snapshot snapshot.checkpoint hactive ?_ (path_of_forall ?_) (hcurrent _ hat)
    · rw [hsnapshots, hc, get?_insert_self]
    · exact (hthin _).forall (fun _ _ heq hmoves => hmoves.of_unnumbered heq) (hc ▸ hqueue)
  · refine (h.chained k' m' hm').thin (hthin _) ?_ hcurrent
    rw [hsnapshots, get?_insert_of_ne _ _ hc]

structure Kept (log : List Event) (room : RelayRoom) : Prop where
  wellFormed : WellFormed room
  chronicled : Chronicled log room
  linked : Linked room

theorem Kept.tidy (hids : DistinctIds log) (h : Kept log room) (ht : Tidy room room') :
    Kept log room' := by
  refine ⟨h.wellFormed.tidy ht, h.chronicled.tidy ht, ?_⟩
  have hlinked := h.linked
  cases ht with
  | requests | unstage => exact hlinked.same rfl rfl rfl rfl rfl rfl
  | undo m p hp => exact hlinked.undone h.wellFormed h.chronicled hids hp
  | trim htrim =>
    have hthin := fun c => (htrim.compacted c).queue
    cases htrim <;> exact hlinked.thin hthin (fun _ _ hp => hp) rfl rfl rfl rfl

theorem Kept.tidyStar (hids : DistinctIds log) (h : Kept log room) (ht : TidyStar room room') :
    Kept log room' := ht.invariant (fun _ _ hr => hr.tidy hids) h

theorem Chained.extend (h : Chained room m)
    (hqueue : room'.queueOf m.codeId = room.queueOf m.codeId ++ ds)
    (hsnapshot : room'.snapshots.get? m.codeId = room.snapshots.get? m.codeId)
    (hnext : ∀ p : Checkpoint, p.Current room → ∃ q, Path Moves p ds q ∧ q.Current room') :
    Chained room' m := by
  cases h with
  | active snapshot last hactive hsnap hpath hlast =>
    obtain ⟨q, hmore, hq⟩ := hnext last hlast
    refine .active snapshot q hactive (hsnapshot.trans hsnap) ?_ hq
    rw [hqueue]
    exact hpath.append hmore
  | joining before first last d rest hactive hold hwelcome hfirst hpath hlast =>
    obtain ⟨q, hmore, hq⟩ := hnext last hlast
    refine .joining before first q d (rest ++ ds) hactive ?_ hwelcome hfirst (hpath.append hmore) hq
    rw [hqueue, hold, cons_append]

theorem Chained.of_queue_nil (h : Chained room m) (hqueue : room.queueOf m.codeId = []) :
    ∃ snapshot,
      room.snapshots.get? m.codeId = some snapshot ∧ snapshot.checkpoint.Current room := by
  cases h with
  | active snapshot last _ hsnapshot hpath hlast =>
    rw [hqueue] at hpath
    cases hpath
    exact ⟨snapshot, hsnapshot, hlast⟩
  | joining _ _ _ d rest _ hcons =>
    rw [hqueue] at hcons
    cases hcons

variable {now : Nat}

theorem Linked.admitted {b : RoomAuthority} {a : AdmitArgs} {plan : AdmitPlan} (h : Linked room)
    (hwell : WellFormed room) (hplan : Admitted b now room a plan) :
    Linked (admitRoom room a plan) := by
  have hcurrent : ∀ p : Checkpoint, p.Current room → p.Current (admitRoom room a plan) :=
    fun p hp => hp.of_eq rfl rfl rfl
  -- What is queued for anyone is at the room's checkpoint.
  have hmoves : ∀ c (p : Checkpoint), p.Current room →
      ∀ d ∈ forRecipient c plan.deliveries, Moves p d p := by
    intro c p hp d hd
    rcases admitted_cases hwell hplan c with ⟨_, m, d', -, -, -, -, hfor, r, -, rfl⟩ | ⟨hfor, -⟩
    · rw [hfor] at hd
      obtain rfl := mem_singleton.mp hd
      exact .application rfl (hplan.epoch.symm.trans hp.epoch.symm)
        (hplan.digest.symm.trans hp.digest.symm)
    · rw [hfor] at hd
      cases hd
  obtain ⟨k, sender, hsender, hcode, hactive, -⟩ := hplan.sender
  obtain ⟨snapshot, hsnapshot, hat⟩ := (h.chained k sender hsender).of_queue_nil
    (hcode ▸ hplan.queue)
  have hempty := admitRoom_sender hwell hplan
  refine ⟨fun k' m hm => ?_, fun id p hp => ?_⟩
  · by_cases hc : a.senderCodeId = m.codeId
    · obtain rfl := hwell.members.codes.member_eq hsender hm (hcode.trans hc)
      obtain ⟨fallback, -, hnew⟩ := hplan.roster
      rw [hcode] at hsnapshot
      rw [hsnapshot, map_some, getD_some] at hnew
      have hcheckpoint : plan.snapshot.checkpoint = snapshot.checkpoint := by
        rw [hnew]
        exact congrArg₂ (Checkpoint.mk · · snapshot.roster) (hplan.epoch.symm.trans hat.epoch.symm)
          (hplan.digest.symm.trans hat.digest.symm)
      refine .active plan.snapshot snapshot.checkpoint hactive ?_ ?_ (hcurrent _ hat)
      · rw [hcode]
        exact get?_insert_self ..
      · rw [hcode, hempty, hcheckpoint]
        exact .nil _
    · refine (h.chained k' m hm).extend (admitRoom_queueOf room a plan m.codeId)
        (get?_insert_of_ne _ _ hc) fun p hp => ?_
      exact ⟨p, path_of_forall (hmoves m.codeId p hp), hcurrent p hp⟩
  · change (room.pendingApplications.insert a.messageId plan.pending).get? id = some p at hp
    rcases get?_insert_cases hp with ⟨rfl, rfl⟩ | ⟨-, hp⟩
    · refine ⟨snapshot, ?_, hcurrent _ hat, fun d hd => ?_⟩
      · rw [hplan.pendingEq, ← hcode]
        exact hsnapshot
      · rw [hplan.pendingEq] at hd
        change d ∈ (admitRoom room a plan).queueOf a.senderCodeId at hd
        rw [hempty] at hd
        cases hd
    · obtain ⟨before, hprevious, hbefore, hqueue⟩ := h.undoable id p hp
      refine ⟨before, hprevious, hcurrent _ hbefore, fun d hd => ?_⟩
      rw [admitRoom_queueOf] at hd
      rcases mem_append.mp hd with hd | hd
      · exact hqueue d hd
      · exact hmoves _ _ hbefore d hd

theorem names_of_resolved {next : OrdMap Text Member} (h : resolveNextRoster room t = .ok next) :
    Names t.roster next := by
  obtain ⟨requested, hmap, hout, hin⟩ := resolveNextRoster_ok h
  refine ⟨requested, hmap, fun k => ?_⟩
  cases hreq : requested.get? k with
  | none => rw [hout k hreq]
  | some r =>
    obtain ⟨m, hres, hm⟩ := hin k r hreq
    rw [hm, map_some, map_some]
    cases hres with
    | kept _ _ hidentity => rw [hidentity]
    | joined => rfl

theorem StagedFor.control_moves (h : StagedFor room t) (hp : p.Current room) (m : Member) (r : Nat) :
    Moves p (controlDelivery room t m r) t.checkpoint := by
  have hepoch : t.fromEpoch = p.epoch := h.fromEpoch.trans hp.epoch.symm
  have hdigest : t.fromMembershipDigest = p.digest := h.fromDigest.trans hp.digest.symm
  have hpayload : (controlDelivery room t m r).payload = .membership p.epoch p.digest t.groupId
      t.roster t.control [] t.authenticatedData := by
    rw [← hepoch, ← hdigest]
    rfl
  exact .membership hpayload (hepoch ▸ h.toEpoch)

variable {b : RoomAuthority} {messageId : Text}

theorem acceptedSnapshots_member {owner : CodeId} {revision : Nat} {plan : AcceptPlan}
    (hwell : WellFormed room) (clock : AcceptClock)
    (hplan : Accepted b room owner messageId revision plan) {c : CodeId}
    (hold : IsMember room.members c) (hnew : IsMember plan.next c) :
    (acceptRoom clock room owner plan).snapshots.get? c =
      if owner = c then some (ownerSnapshot room owner plan.transition clock.storedAt)
      else room.snapshots.get? c := by
  rw [acceptRoom_eq]
  rcases acceptedSnapshots_get? clock hplan c with ⟨requestId, join, -, hjoin, rfl, -⟩ | ⟨-, hget⟩
  · exact absurd hold (hwell.requests.joinNew requestId join hjoin).not_member
  · rw [hget, if_pos hnew]

theorem Linked.accepted {owner : CodeId} {revision : Nat} {plan : AcceptPlan} (h : Linked room)
    (hwell : WellFormed room) (clock : AcceptClock)
    (hplan : Accepted b room owner messageId revision plan) :
    Linked (acceptRoom clock room owner plan) := by
  have hstaged := hwell.staging _ hplan.staged
  have hnext := nextMembers_of_resolved hwell hstaged hplan.resolved
  have hmembers := MembersOk.next hwell hnext
  have hat : plan.transition.checkpoint.Current (acceptRoom clock room owner plan) := by
    rw [acceptRoom_eq]
    exact ⟨rfl, rfl, names_of_resolved hplan.resolved⟩
  refine ⟨fun k m hm => ?_, fun id p hp => ?_⟩
  · rw [acceptRoom_eq] at hm
    change plan.next.get? k = some m at hm
    have hmember : IsMember plan.next m.codeId := ⟨k, m, hm, rfl⟩
    have hqueue := acceptRoom_queueOf clock hplan m.codeId
    rw [if_pos hmember] at hqueue
    have hreceives := receives_of_membershipDeliveries hwell hnext hplan.deliveries m.codeId
    generalize forRecipient m.codeId plan.deliveries = ds at hreceives hqueue
    cases hreceives with
    | control k' m' d hm' hstay hc hne hd =>
      obtain rfl := hmembers.codes.member_eq hstay hm hc
      obtain ⟨r, -, rfl⟩ := hd
      have hsnapshot := acceptedSnapshots_member hwell clock hplan ⟨k', m', hm', rfl⟩ hmember
      rw [if_neg fun heq => hne (heq.symm.trans hplan.owner.symm)] at hsnapshot
      exact (h.chained k' m' hm').extend hqueue hsnapshot fun p hp =>
        ⟨plan.transition.checkpoint, .cons (hstaged.control_moves hp m' r) (.nil _), hat⟩
    | welcome k' m' hnew hm' hc =>
      obtain rfl := hmembers.codes.member_eq hm' hm hc
      obtain ⟨requestId, join, -, hjoin, hmember', hwelcome⟩ := hnext.joiner hnew hm'
      have hempty : room.queueOf m'.codeId = [] := by
        rw [hmember']
        exact hwell.queueOf_stranger (hwell.requests.joinNew requestId join hjoin).not_member
      rw [hempty, nil_append] at hqueue
      refine .joining ⟨plan.transition.fromEpoch, plan.transition.fromMembershipDigest, []⟩
        plan.transition.checkpoint _ _ [] (hmember' ▸ rfl) hqueue ?_
        (.membership rfl hstaged.toEpoch) (.nil _) hat
      simpa [welcomeDelivery, DeliveryPayload.isWelcome] using hwelcome
    | nothing hc =>
      have hc := hc.resolve_right (not_not_intro hmember)
      obtain ⟨k', m', -, hm', hcode, hactive⟩ := hmembers.owner
      obtain rfl := hmembers.codes.member_eq hm' hm (hcode.trans hc.symm)
      obtain ⟨k₀, m₀, -, hm₀, hcode₀, -⟩ := hwell.members.owner
      have hsnapshot := acceptedSnapshots_member hwell clock hplan
        ⟨k₀, m₀, hm₀, hcode₀.trans hc.symm⟩ hmember
      rw [if_pos (hplan.owner.symm.trans hc.symm)] at hsnapshot
      refine .active _ plan.transition.checkpoint hactive hsnapshot ?_ hat
      rw [hqueue, hc, hstaged.queue]
      exact .nil _
  · rw [acceptRoom_eq] at hp
    change room.pendingApplications.get? id = some p at hp
    rw [get?_of_size_eq_zero hplan.noPending] at hp
    cases hp

theorem Moves.roster (h : Moves p d q) {stored roster : List RosterMember}
    (hstored : d.payload.isApplication = true → p.roster = stored)
    (hstep : rosterAfterStep stored d = .ok roster) : q.roster = roster := by
  unfold rosterAfterStep at hstep
  cases h with
  | application hpayload =>
    cases hd : d.payload with
    | application =>
      rw [hd] at hstep
      exact (hstored hpayload).trans (Except.ok.inj hstep)
    | membership =>
      rw [hd] at hpayload
      cases hpayload
  | membership hpayload =>
    rw [hpayload] at hstep
    obtain ⟨_, -, hdone⟩ := bind_eq_ok.mp hstep
    exact Except.ok.inj hdone

theorem path_roster (h : Path Moves p ds q) {roster : List RosterMember}
    (hfold : foldChecked rosterAfterStep p.roster ds = .ok roster) : q.roster = roster := by
  induction h with
  | nil p => exact Except.ok.inj hfold
  | cons hmoves _ ih =>
    obtain ⟨mid, hmid, hrest⟩ := bind_eq_ok.mp hfold
    refine ih ?_
    rw [hmoves.roster (fun _ => rfl) hmid]
    exact hrest

theorem path_reroster (h : Path Moves p ds q) (roster : List RosterMember) :
    q.roster = p.roster ∨ Path Moves { p with roster } ds q := by
  induction h with
  | nil p => exact .inl rfl
  | @cons p mid q d ds hmoves hrest ih =>
    cases hmoves with
    | application hpayload hepoch hdigest =>
      rcases ih with hsame | hpath
      · exact .inl hsame
      · exact .inr (.cons (.application hpayload hepoch hdigest) hpath)
    | membership hpayload hepoch => exact .inr (.cons (.membership hpayload hepoch) hrest)

theorem Chained.inactive (h : Chained room m) (hactive : m.active = false) :
    ∃ before first last d rest, room.queueOf m.codeId = d :: rest ∧ Moves before d first ∧
      Path Moves first rest last ∧ last.Current room := by
  cases h with
  | active _ _ htrue =>
    rw [hactive] at htrue
    cases htrue
  | joining before first last d rest _ hqueue _ hfirst hpath hlast =>
    exact ⟨before, first, last, d, rest, hqueue, hfirst, hpath, hlast⟩

theorem Chained.started (h : Chained room m) (hactive : m.active = true) :
    ∃ snapshot last, room.snapshots.get? m.codeId = some snapshot ∧
      Path Moves snapshot.checkpoint (room.queueOf m.codeId) last ∧ last.Current room := by
  cases h with
  | active snapshot last _ hsnapshot hpath hlast => exact ⟨snapshot, last, hsnapshot, hpath, hlast⟩
  | joining _ _ _ _ _ hfalse =>
    rw [hactive] at hfalse
    cases hfalse

theorem Chained.stored {a : StoreArgs} {plan : StorePlan} (h : Chained room m)
    (hplan : Stored b now room a plan)
    (hcode : m.codeId = a.memberCodeId) (hactive : room.memberActive m.codeId = m.active) :
    ∃ last, Path Moves plan.snapshot.checkpoint
      ((room.queueOf m.codeId).drop plan.retired) last ∧ last.Current room := by
  have hcheckpoint : plan.snapshot.checkpoint =
      ⟨a.epoch, a.membershipDigest, plan.snapshot.roster⟩ := by
    rw [hplan.snapshotEq]
    rfl
  obtain ⟨roster, hfold, hroster⟩ := bind_eq_ok.mp hplan.roster
  have hretires := hplan.retires
  rw [hplan.retiring] at hfold
  rw [hcode] at hactive ⊢
  generalize plan.retired = retired at hretires hroster hfold ⊢
  cases hretires with
  | welcome d rest hinactive hqueue hwelcome hat =>
    obtain ⟨before, first, last, d', rest', hqueue', hfirst, hpath, hlast⟩ :=
      h.inactive (hactive.symm.trans hinactive)
    rw [hcode, hqueue] at hqueue'
    obtain ⟨rfl, rfl⟩ := cons_eq_cons.mp hqueue'
    rw [if_neg fun hcond => absurd hcond.2.2 Nat.one_ne_zero] at hroster
    rw [hqueue] at hfold
    obtain ⟨mid, hmid, hdone⟩ := bind_eq_ok.mp hfold
    have hfirstRoster : first.roster = plan.snapshot.roster := by
      rw [← Except.ok.inj hroster, ← Except.ok.inj hdone]
      refine hfirst.roster (fun happlication => ?_) hmid
      rw [DeliveryPayload.not_application hwelcome] at happlication
      cases happlication
    have hfirstEq : plan.snapshot.checkpoint = first := by
      rw [hcheckpoint, ← hfirstRoster, ← hat.2.1, ← hat.2.2, ← hfirst.at_delivery.1,
        ← hfirst.at_delivery.2]
    refine ⟨last, ?_, hlast⟩
    rw [hqueue, hfirstEq]
    exact hpath
  | front n d htrue _ _ hd hat =>
    obtain ⟨snapshot, last, hsnapshot, hpath, hlast⟩ := h.started (hactive.symm.trans htrue)
    rw [hcode] at hsnapshot hpath
    rw [if_neg fun hcond => absurd hcond.2.2 (Nat.succ_ne_zero n)] at hroster
    rw [← take_append_drop (n + 1) (room.queueOf a.memberCodeId)] at hpath
    obtain ⟨t, htaken, hrest⟩ := hpath.split
    have htRoster : t.roster = plan.snapshot.roster := by
      rw [← Except.ok.inj hroster]
      refine path_roster htaken ?_
      rw [hsnapshot] at hfold
      exact hfold
    -- The last acknowledged delivery is at the checkpoint that the snapshot names.
    rw [take_add_one, hd, toList_some] at htaken
    obtain ⟨q, -, hone⟩ := htaken.split
    cases hone with
    | cons hmoves hnil =>
      cases hnil
      have hEq : plan.snapshot.checkpoint = t := by
        rw [hcheckpoint, ← htRoster, ← hat.2.1, ← hat.2.2, ← hmoves.at_delivery.1,
          ← hmoves.at_delivery.2]
      exact ⟨last, hEq ▸ hrest, hlast⟩
  | nothing htrue _ hsame =>
    obtain ⟨snapshot, last, hsnapshot, hpath, hlast⟩ := h.started (hactive.symm.trans htrue)
    rw [hcode] at hsnapshot hpath
    obtain ⟨hepoch, -, hdigest, -⟩ := hsame snapshot hsnapshot
    rw [take_zero, hsnapshot] at hfold
    have hstored : snapshot.roster = roster := Except.ok.inj hfold
    have hEq : plan.snapshot.checkpoint =
        { snapshot.checkpoint with roster := plan.snapshot.roster } := by
      rw [hcheckpoint, ← hepoch, ← hdigest]
      rfl
    refine ⟨last, ?_, hlast⟩
    rw [drop_zero, hEq]
    split_ifs at hroster with hempty
    · -- A snapshot without a roster is only possible behind a commit that brings one.
      rcases path_reroster hpath plan.snapshot.roster with hlastRoster | hnew
      · obtain ⟨requested, hmap, -⟩ := hlast.names
        exact absurd (hlastRoster.trans (hstored.trans hempty.1)) (rosterMap_ok hmap).nonempty
      · exact hnew
    · rw [← Except.ok.inj hroster, ← hstored]
      exact hpath

theorem Linked.stored {a : StoreArgs} {plan : StorePlan} (h : Linked room) (hwell : WellFormed room)
    (hplan : Stored b now room a plan) :
    Linked (storeRoom room a plan) := by
  have hcurrent : ∀ p : Checkpoint, p.Current room → p.Current (storeRoom room a plan) := by
    intro p hp
    obtain ⟨requested, hmap, hnames⟩ := hp.names
    exact ⟨hp.epoch, hp.digest, requested, hmap, fun k =>
      (hnames k).trans ((storeRoom_members room a plan).identity k).symm⟩
  obtain ⟨member, hmember, hcode⟩ := hplan.member
  refine ⟨fun k m hm => ?_, fun id p hp =>
    (h.undoable id p hp).thin (storeRoom_thinned room a plan _) hcurrent⟩
  change (room.members.modify plan.memberUsername _).get? k = some m at hm
  rw [get?_modify] at hm
  split_ifs at hm with hk
  · subst hk
    rw [hmember] at hm
    obtain rfl := some.inj hm
    obtain ⟨last, hpath, hlast⟩ := (h.chained _ member hmember).stored hplan hcode
      (RelayRoom.memberActive_of_get? hwell hmember)
    refine .active plan.snapshot last rfl ?_ ?_ (hcurrent last hlast)
    · change (room.snapshots.insert a.memberCodeId plan.snapshot).get? member.codeId = _
      rw [hcode, get?_insert_self]
    · change Path Moves _ ((storeRoom room a plan).queueOf member.codeId) last
      rw [storeRoom_queueOf, if_pos hcode.symm]
      exact hpath
  · have hne : a.memberCodeId ≠ m.codeId := fun heq =>
      hk (hwell.members.codes _ member _ m hmember hm (hcode.trans heq))
    refine (h.chained k m hm).thin ?_ (get?_insert_of_ne _ _ hne) hcurrent
    rw [storeRoom_queueOf, if_neg hne]
    exact .refl _

theorem Linked.created {createdAt : Nat} {a : CreateArgs} {plan : CreatePlan}
    (hplan : Created b createdAt a plan) : Linked plan.room := by
  obtain ⟨name, bytes, hname, -, hroom, -⟩ := hplan.roomEq
  rw [hroom]
  refine ⟨fun k m hm => ?_, fun id p hp => by cases hp⟩
  change (OrdMap.empty.insert name _).get? k = some m at hm
  rcases get?_insert_cases hm with ⟨rfl, rfl⟩ | ⟨-, hm⟩
  · exact .active _ _ rfl (get?_insert_self ..) (.nil _)
      ⟨rfl, rfl, names_single (canonicalUsername_idem hname) hplan.identity rfl⟩
  · cases hm

theorem Kept.effect (hids : DistinctIds log) (h : Kept log room) {op : Op} {id : Text}
    (he : Effect b op id room room') : Linked room' := by
  have hlinked := h.linked
  cases he with
  | evicted hevict =>
    obtain ⟨n, rfl⟩ := hevict
    exact hlinked.same rfl rfl rfl rfl rfl rfl
  | joined hplan | left hplan | staged hplan =>
    rw [hplan.roomEq]
    exact hlinked.same rfl rfl rfl rfl rfl rfl
  | unjoined | unleft | unstaged => exact hlinked.same rfl rfl rfl rfl rfl rfl
  | accepted hplan hevict =>
    obtain ⟨n, rfl⟩ := hevict
    exact (hlinked.accepted h.wellFormed _ hplan).same rfl rfl rfl rfl rfl rfl
  | admitted _ hplan => exact hlinked.admitted h.wellFormed hplan
  | committed hplan hevict =>
    obtain ⟨n, rfl⟩ := hevict
    obtain ⟨pendingBytes, hroom, -⟩ := hplan.roomEq
    rw [hroom]
    exact hlinked.thin (fun c => .refl _) (fun _ _ hp => get?_of_erase hp) rfl rfl rfl rfl
  | rolledBack hplan => exact (h.tidyStar hids (rolledBack_tidy hplan)).linked
  | abandoned selected hplan =>
    exact hlinked.thin (h.chronicled.retracted_thinned hids hplan.pendingGet selected)
      (fun _ _ hp => get?_of_erase hp) rfl rfl rfl rfl
  | stored _ hplan => exact hlinked.stored h.wellFormed hplan

end

theorem linked_after (maxRooms pendingTtlMs : Nat) (calls : List Call) (id : Text)
    (hids : ∀ pre ∈ calls.inits, DistinctIds (history maxRooms pendingTtlMs pre id))
    (hroom : (after maxRooms pendingTtlMs calls).rooms.get? id = some room) :
    Linked room := by
  induction calls using List.reverseRecOn generalizing room with
  | nil => cases hroom
  | append_singleton calls c ih =>
    have hpre : ∀ pre ∈ calls.inits, DistinctIds (history maxRooms pendingTtlMs pre id) :=
      fun pre hpre => hids pre ((mem_inits pre _).mpr
        (((mem_inits pre _).mp hpre).trans (prefix_append ..)))
    have hdistinct := hpre calls ((mem_inits calls _).mpr prefix_rfl)
    rw [after_append] at hroom
    rcases (exec_step c.1 _ c.2).effect hroom with ⟨mid, hmid, he⟩ | ⟨_, _, _, _, -, -, hplan, rfl⟩
    · obtain ⟨before, hbefore, hpruned⟩ := base_room hmid
      have hkept : Kept (history maxRooms pendingTtlMs calls id) before :=
        ⟨wellFormed_after maxRooms pendingTtlMs calls id before hbefore,
          chronicled_after maxRooms pendingTtlMs calls hbefore, ih hpre hbefore⟩
      exact (hkept.tidyStar hdistinct hpruned.tidy).effect hdistinct he
    · exact .created hplan

theorem queue_chains_to_room (maxRooms pendingTtlMs : Nat) (calls : List Call) (id : Text)
    (hids : ∀ pre ∈ calls.inits, DistinctIds (history maxRooms pendingTtlMs pre id))
    (room : RelayRoom) (hroom : (after maxRooms pendingTtlMs calls).rooms.get? id = some room)
    (k : Text) (m : Member) (hm : room.members.get? k = some m) :
    Chained room m ∧ (room.queueOf m.codeId = [] → ∃ snapshot,
      room.snapshots.get? m.codeId = some snapshot ∧ snapshot.checkpoint.Current room) := by
  have hchained := (linked_after maxRooms pendingTtlMs calls id hids hroom).chained k m hm
  exact ⟨hchained, hchained.of_queue_nil⟩

open Scenario in
set_option maxRecDepth 100000 in
theorem queue_chains_to_room_aliceSends : ∃ room m,
    (after 1 600000 (calls (bobJoins ++ [send 2 1 [50] 1 2]))).rooms.get? lobby = some room ∧
    room.members.get? bob = some m ∧ (room.queueOf m.codeId).length = 1 ∧ Chained room m ∧
    (room.queueOf m.codeId = [] → ∃ snapshot, room.snapshots.get? m.codeId = some snapshot ∧
      snapshot.checkpoint.Current room) := by
  have hids : ∀ pre ∈ (calls (bobJoins ++ [send 2 1 [50] 1 2])).inits,
      DistinctIds (history 1 600000 pre lobby) := by decide
  have hlobby : ((after 1 600000 (calls (bobJoins ++ [send 2 1 [50] 1 2]))).rooms.get? lobby).any
      (fun room => decide ((room.members.get? bob).any
        (fun m => decide ((room.queueOf m.codeId).length = 1)) = true)) = true := by decide
  obtain ⟨room, hroom, hbob⟩ := exists_of_any hlobby
  obtain ⟨m, hm, hlength⟩ := exists_of_any hbob
  have hchained := queue_chains_to_room 1 600000 _ lobby hids room hroom bob m hm
  exact ⟨room, m, hroom, hm, hlength, hchained.1, hchained.2⟩

end Abyssal.Rooms
