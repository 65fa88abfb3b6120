import Abyssal.Rooms.Epochs

/-! The order of what happens in a room. A history records every accepted commit and every
admitted application; each queue is a subsequence of it, however often queues are thinned,
renumbered and acknowledged. -/

namespace Abyssal.Rooms

open RelayRoom RoomAuthority OrdMap Option

inductive Event
  | commit (t : MembershipTransition)
  | message (a : AdmitArgs) (admission : ApplicationAdmission)

/-- The delivery brings the event to one member, under whatever revision. -/
def Delivers : Event → PendingDelivery → Prop
  | .commit t, d => ∃ room m, d.unnumbered = controlDelivery room t m 0 ∨
      d.unnumbered = welcomeDelivery room t m
  | .message a admission, d => ∃ now c, d.unnumbered =
      applicationDelivery a admission.senderUsername now admission.expiresAtMs (c, 0)

/-- The events of a successful call in one room. -/
def events (op : Op) (reply : Reply) (id : Text) : List Event :=
  match op, reply with
  | .acceptMembership _ _ roomId _ _, .membership (.accepted t) =>
    if roomId = id then [.commit t] else []
  | .admitApplication _ a, .admission admission =>
    if a.roomId = id then [.message a admission] else []
  | _, _ => []

def recorded (log : Text → List Event) (op : Op) (result : Except String Reply) (id : Text) :
    List Event :=
  -- The histories of all rooms after a call; a new room starts without one.
  match op, result with
  | .create _ _ a, .ok _ => if a.roomId = id then [] else log id
  | _, .ok reply => log id ++ events op reply id
  | _, .error _ => log id

def chronicleStep (p : RoomAuthority × (Text → List Event)) (c : Call) :
    RoomAuthority × (Text → List Event) :=
  (call p.1 c, recorded p.2 c.2 (exec c.1 p.1 c.2).2)

def chronicle (maxRooms pendingTtlMs : Nat) (calls : List Call) :
    RoomAuthority × (Text → List Event) :=
  runFrom chronicleStep (newWithPendingTtl maxRooms pendingTtlMs, fun _ => []) calls

def history (maxRooms pendingTtlMs : Nat) (calls : List Call) (id : Text) : List Event :=
  (chronicle maxRooms pendingTtlMs calls).2 id

theorem chronicle_state (maxRooms pendingTtlMs : Nat) (calls : List Call) :
    (chronicle maxRooms pendingTtlMs calls).1 = after maxRooms pendingTtlMs calls := by
  have hrun : ∀ (calls : List Call) (p : RoomAuthority × (Text → List Event)),
      (runFrom chronicleStep p calls).1 = runFrom call p.1 calls := by
    intro calls
    induction calls with
    | nil => exact fun _ => rfl
    | cons c calls ih => exact fun p => ih (chronicleStep p c)
  exact hrun calls _

variable {op : Op} {id : Text}

theorem recorded_grows (log : Text → List Event) (result : Except String Reply)
    (hop : ∀ now createdAt a, op = .create now createdAt a → a.roomId ≠ id) :
    ∃ es, recorded log op result id = log id ++ es := by
  cases result with
  | error reason => exact ⟨[], by cases op <;> simp [recorded]⟩
  | ok reply =>
    by_cases hcreate : ∃ now createdAt a, op = .create now createdAt a
    · obtain ⟨now, createdAt, a, rfl⟩ := hcreate
      exact ⟨[], by simp [recorded, hop now createdAt a rfl]⟩
    · refine ⟨events op reply id, ?_⟩
      cases op with
      | create now createdAt a => exact absurd ⟨now, createdAt, a, rfl⟩ hcreate
      | _ => rfl

/-- The queue without some deliveries, all of which satisfy `P`, and with other revisions. -/
def Thinned (P : PendingDelivery → Prop) (queue queue' : List PendingDelivery) : Prop :=
  ∃ kept, Dropping P queue kept ∧
    kept.map PendingDelivery.unnumbered = queue'.map PendingDelivery.unnumbered

variable {P : PendingDelivery → Prop}

theorem Thinned.refl (queue : List PendingDelivery) :
    Thinned P queue queue := ⟨queue, .refl queue, rfl⟩

inductive Compacted (P : PendingDelivery → Prop) (room : RelayRoom) (c : CodeId) :
    List PendingDelivery → Prop
  | same : Compacted P room c (room.queueOf c)
  | thinned (kept : List PendingDelivery) (hdrop : Dropping P (room.queueOf c) kept) :
      Compacted P room c (renumbered (room.memberActive c) (room.revisionOf c) kept)

variable {room : RelayRoom}

theorem Compacted.queue {c : CodeId} {queue : List PendingDelivery} (h : Compacted P room c queue) :
    Thinned P (room.queueOf c) queue := by
  cases h with
  | same => exact .refl _
  | thinned kept hdrop => exact ⟨kept, hdrop, (renumbered_unnumbered _ _ kept).symm⟩

theorem retracted_compacted (room : RelayRoom) (m : Text) (selected : CodeId → Bool)
    (c : CodeId) : Compacted (fun d => d.messageId = m) room c
      (((room.retracted m selected).get? c).getD []) := by
  have hsame := @Compacted.same (fun d => d.messageId = m) room c
  have hdrop : Dropping (fun d => d.messageId = m) (room.queueOf c)
      (withoutMessage m (room.queueOf c)) := .of_filter fun d _ hd => by simpa using hd
  have hthinned := Compacted.thinned (P := fun d => d.messageId = m) _ hdrop
  rw [queueOf] at hsame hthinned
  rw [retracted_get?]
  cases hq : room.deliveries.get? c with
  | none =>
    rw [hq] at hsame
    exact hsame
  | some queue =>
    rw [hq] at hsame hthinned
    simp only [map_some, getD_some] at hsame hthinned ⊢
    split_ifs
    · exact hthinned
    · exact hsame

variable {room' : RelayRoom}

theorem RelayRoom.Trim.compacted (h : Trim room room') (c : CodeId) :
    Compacted (fun d => d.payload.isApplication = true) room c (room'.queueOf c) := by
  cases h with
  | expire c' queue thinned gaps hqueue hthin =>
    have hold : room.queueOf c' = queue := by rw [queueOf, hqueue, getD_some]
    simp only [queueOf, get?_insert]
    split_ifs with hc
    · subst hc
      exact .thinned thinned (hold ▸ hthin)
    · exact .same
  | dropEmpty =>
    rw [dropEmptyQueues_queueOf]
    exact .same
  | evict | recount => exact .same

theorem Delivers.of_unnumbered {e : Event} {d d' : PendingDelivery}
    (heq : d.unnumbered = d'.unnumbered) (h : Delivers e d) : Delivers e d' := by
  cases e with
  | commit t | message a admission =>
    simp only [Delivers, heq] at h
    exact h

theorem Thinned.sublist {queue queue' : List PendingDelivery} (h : Thinned P queue queue') :
    (queue'.map PendingDelivery.unnumbered).Sublist (queue.map PendingDelivery.unnumbered) := by
  obtain ⟨kept, hdrop, heq⟩ := h
  rw [← heq]
  exact hdrop.sublist.map _

/-- Queues lose deliveries and admissions are settled, and nothing is added. -/
structure Thins (room room' : RelayRoom) : Prop where
  queues : ∀ c, ((room'.queueOf c).map PendingDelivery.unnumbered).Sublist
    ((room.queueOf c).map PendingDelivery.unnumbered)
  pending : ∀ m p, room'.pendingApplications.get? m = some p →
    room.pendingApplications.get? m = some p

/-- What a call makes of a room in which it has these events. -/
structure Grows (es : List Event) (room room' : RelayRoom) : Prop where
  queues : ∀ c, Extends Delivers PendingDelivery.unnumbered es (room.queueOf c) (room'.queueOf c)
  pending : ∀ m p, room'.pendingApplications.get? m = some p →
    room.pendingApplications.get? m = some p ∨
      ∃ a admission, .message a admission ∈ es ∧ a.messageId = m

structure Chronicled (log : List Event) (room : RelayRoom) : Prop where
  queues : ∀ c, Subsequence Delivers log (room.queueOf c)
  pending : ∀ m p, room.pendingApplications.get? m = some p →
    ∃ a admission, .message a admission ∈ log ∧ a.messageId = m

variable {now : Nat} {a : AdmitArgs}

section

variable {log es : List Event} {room mid room' : RelayRoom} {b : RoomAuthority}

theorem Thins.trans (h : Thins room mid) (h' : Thins mid room') : Thins room room' :=
  ⟨fun c => (h'.queues c).trans (h.queues c), fun m p hp => h.pending m p (h'.pending m p hp)⟩

theorem Thins.same (hqueues : room'.deliveries = room.deliveries)
    (hpending : room'.pendingApplications = room.pendingApplications) : Thins room room' := by
  refine ⟨fun c => ?_, fun m p hp => hpending ▸ hp⟩
  rw [queueOf, queueOf, hqueues]

theorem Thins.grows (h : Thins room room') (es : List Event) : Grows es room room' :=
  ⟨fun c => .of_sublist (h.queues c), fun m p hp => .inl (h.pending m p hp)⟩

theorem Grows.after (h : Thins room mid) (h' : Grows es mid room') : Grows es room room' :=
  ⟨fun c => .sublist_left (h.queues c) (h'.queues c),
    fun m p hp => (h'.pending m p hp).imp_left (h.pending m p)⟩

theorem Grows.same (h : Grows es room mid) (hqueues : room'.deliveries = mid.deliveries)
    (hpending : room'.pendingApplications = mid.pendingApplications) : Grows es room room' := by
  refine ⟨fun c => ?_, fun m p hp => h.pending m p (hpending ▸ hp)⟩
  have hsame : room'.queueOf c = mid.queueOf c := by rw [queueOf, queueOf, hqueues]
  rw [hsame]
  exact h.queues c

theorem RelayRoom.Tidy.thins (ht : Tidy room room') : Thins room room' := by
  cases ht with
  | requests | unstage => exact .same rfl rfl
  | undo m pending =>
    exact ⟨fun c => (retracted_compacted room m _ c).queue.sublist, fun _ _ hp => get?_of_erase hp⟩
  | trim htrim =>
    refine ⟨fun c => (htrim.compacted c).queue.sublist, fun m p hp => ?_⟩
    cases htrim <;> exact hp

theorem RelayRoom.TidyStar.thins (ht : TidyStar room room') : Thins room room' :=
  @TidyStar.invariant _ _ (Thins room) (fun _ _ h ht => h.trans ht.thins) ht (.same rfl rfl)

theorem Chronicled.grows (h : Chronicled log room) (hgrows : Grows es room room') :
    Chronicled (log ++ es) room' := by
  refine ⟨fun c => (h.queues c).extend (fun _ _ _ => .of_unnumbered) (hgrows.queues c),
    fun m p hp => ?_⟩
  rcases hgrows.pending m p hp with hp | ⟨a, admission, hmem, hid⟩
  · obtain ⟨a, admission, hmem, hid⟩ := h.pending m p hp
    exact ⟨a, admission, List.mem_append_left es hmem, hid⟩
  · exact ⟨a, admission, List.mem_append_right log hmem, hid⟩

theorem Chronicled.tidy (h : Chronicled log room) (ht : Tidy room room') :
    Chronicled log room' := by
  have hgrown := h.grows (ht.thins.grows [])
  rwa [List.append_nil] at hgrown

variable {plan : AdmitPlan}

theorem admitted_cases (h : WellFormed room) (hplan : Admitted b now room a plan) (c : CodeId) :
    (∃ k m d, room.members.get? k = some m ∧ m.codeId = c ∧ m.active = true ∧
      c ≠ a.senderCodeId ∧ forRecipient c plan.deliveries = [d] ∧
      IsApplication room a plan.admission.senderUsername now plan.admission.expiresAtMs m d) ∨
    forRecipient c plan.deliveries = [] ∧ ∀ k m, room.members.get? k = some m → m.codeId = c →
      m.active = true → c = a.senderCodeId := by
  obtain ⟨hone, hnone⟩ := admitted_forRecipient hplan h.members.codes c
  by_cases hc : ∃ k m, room.members.get? k = some m ∧ m.codeId = c ∧ m.active = true ∧
      c ≠ a.senderCodeId
  · obtain ⟨k, m, hm, hcode, hactive, hne⟩ := hc
    obtain ⟨d, hd, hfor⟩ := hone k m hm hcode hactive hne
    exact .inl ⟨k, m, d, hm, hcode, hactive, hne, hfor, hd⟩
  · push Not at hc
    refine .inr ⟨hnone fun k m hm hcode => ?_, hc⟩
    cases hactive : m.active with
    | false => exact .inl rfl
    | true => exact .inr (hc k m hm hcode hactive)

theorem admitRoom_queueOf (room : RelayRoom) (a : AdmitArgs) (plan : AdmitPlan) (c : CodeId) :
    (admitRoom room a plan).queueOf c = room.queueOf c ++ forRecipient c plan.deliveries :=
  foldl_pushDelivery_getD _ _ _

theorem admitRoom_sender (h : WellFormed room) (hplan : Admitted b now room a plan) :
    (admitRoom room a plan).queueOf a.senderCodeId = [] := by
  rw [admitRoom_queueOf, hplan.queue, List.nil_append]
  rcases admitted_cases h hplan a.senderCodeId with ⟨_, _, _, -, -, -, hne, -⟩ | ⟨hfor, -⟩
  · exact absurd rfl hne
  · exact hfor

theorem Grows.admitted (hwell : WellFormed room) (hplan : Admitted b now room a plan) :
    Grows [.message a plan.admission] room (admitRoom room a plan) := by
  refine ⟨fun c => ?_, fun m p hp => ?_⟩
  · rw [admitRoom_queueOf]
    rcases admitted_cases hwell hplan c with ⟨_, m, d, -, -, -, -, hfor, r, -, rfl⟩ | ⟨hfor, -⟩
    · rw [hfor]
      exact .snoc (.refl _) ⟨now, m.codeId, rfl⟩
    · rw [hfor, List.append_nil]
      exact .of_sublist (.refl _)
  · change (room.pendingApplications.insert a.messageId plan.pending).get? m = some p at hp
    rw [get?_insert] at hp
    split_ifs at hp with hid
    · exact .inr ⟨a, plan.admission, List.mem_singleton_self _, hid⟩
    · exact .inl hp

variable {messageId : Text}

theorem acceptRoom_queueOf {owner : CodeId} {revision : Nat} {plan : AcceptPlan}
    (clock : AcceptClock) (hplan : Accepted b room owner messageId revision plan) (c : CodeId) :
    (acceptRoom clock room owner plan).queueOf c =
      (if IsMember plan.next c then room.queueOf c else []) ++ forRecipient c plan.deliveries := by
  rw [acceptRoom_eq, queueOf, hplan.removed, foldl_pushDelivery_getD,
    foldl_erase_removed (fun c q hq => .inl ⟨q, hq⟩)]
  split_ifs <;> rfl

theorem Grows.accepted {owner : CodeId} {revision : Nat} {plan : AcceptPlan}
    (hwell : WellFormed room) (clock : AcceptClock)
    (hplan : Accepted b room owner messageId revision plan) :
    Grows [.commit plan.transition] room (acceptRoom clock room owner plan) := by
  have hnext := nextMembers_of_resolved hwell (hwell.staging _ hplan.staged) hplan.resolved
  refine ⟨fun c => ?_, fun m p hp => .inl (by rw [acceptRoom_eq] at hp; exact hp)⟩
  rw [acceptRoom_queueOf clock hplan]
  have hkept : ((if IsMember plan.next c then room.queueOf c else []).map
      PendingDelivery.unnumbered).Sublist ((room.queueOf c).map PendingDelivery.unnumbered) := by
    split_ifs
    · exact .refl _
    · exact List.nil_sublist _
  have hreceives := receives_of_membershipDeliveries hwell hnext hplan.deliveries c
  generalize forRecipient c plan.deliveries = ds at hreceives
  cases hreceives with
  | control k m d _ _ _ _ hd =>
    obtain ⟨r, -, rfl⟩ := hd
    exact .snoc hkept ⟨room, m, .inl rfl⟩
  | welcome k m => exact .snoc hkept ⟨room, m, .inr rfl⟩
  | nothing =>
    rw [List.append_nil]
    exact .of_sublist hkept

theorem storeRoom_thinned (room : RelayRoom) (a : StoreArgs) (plan : StorePlan) (c : CodeId) :
    Thinned (fun _ => True) (room.queueOf c) ((storeRoom room a plan).queueOf c) := by
  rw [storeRoom_queueOf]
  split_ifs
  · exact ⟨_, .of_sublist (List.drop_sublist ..), rfl⟩
  · exact .refl _

theorem RoomAuthority.Effect.thins (he : Effect b op id room room')
    (haccept : ∀ clock owner roomId messageId revision,
      op ≠ .acceptMembership clock owner roomId messageId revision)
    (hsend : ∀ now a, op ≠ .admitApplication now a) : Thins room room' := by
  cases he with
  | evicted hevict =>
    obtain ⟨n, rfl⟩ := hevict
    exact .same rfl rfl
  | joined hplan | left hplan | staged hplan =>
    rw [hplan.roomEq]
    exact .same rfl rfl
  | unjoined | unleft | unstaged => exact .same rfl rfl
  | accepted => exact absurd rfl (haccept _ _ _ _ _)
  | admitted => exact absurd rfl (hsend _ _)
  | committed hplan hevict =>
    obtain ⟨n, rfl⟩ := hevict
    obtain ⟨pendingBytes, hroom, -⟩ := hplan.roomEq
    rw [hroom]
    exact ⟨fun c => .refl _, fun _ _ hp => get?_of_erase hp⟩
  | rolledBack hplan => exact (rolledBack_tidy hplan).thins
  | abandoned selected hplan =>
    exact ⟨fun c => (retracted_compacted room _ selected c).queue.sublist,
      fun _ _ hp => get?_of_erase hp⟩
  | stored _ hplan => exact ⟨fun c => (storeRoom_thinned room _ _ c).sublist, fun _ _ hp => hp⟩

end

variable {result : Except String Reply}

theorem RoomAuthority.Step.admit_cases {σ : HashOrder} {b s' : RoomAuthority}
    (hstep : Step σ b (.admitApplication now a) s' result)
    (hroom : b.rooms.get? id = some room)
    (hroom' : s'.rooms.get? id = some room') :
    room' = room ∨ a.roomId = id ∧ ∃ plan, Admitted b now room a plan ∧
      room' = admitRoom room a plan ∧ result = .ok (.admission plan.admission) := by
  cases hstep with
  | failed =>
    rw [hroom] at hroom'
    exact .inl (some.inj hroom').symm
  | replied _ hop => cases hop
  | @admitted _ _ plan target htarget _ hplan =>
    change (b.rooms.insert a.roomId (admitRoom target a plan)).get? id = some room' at hroom'
    rw [get?_insert] at hroom'
    split_ifs at hroom' with hid
    · subst hid
      rw [hroom] at htarget
      obtain rfl := some.inj htarget
      exact .inr ⟨rfl, plan, hplan, (some.inj hroom').symm, rfl⟩
    · rw [hroom] at hroom'
      exact .inl (some.inj hroom').symm

structure Accurate (p : RoomAuthority × (Text → List Event)) : Prop where
  wellFormed : AllRooms WellFormed p.1
  capacity : Capacity p.1
  chronicled : ∀ id room, p.1.rooms.get? id = some room → Chronicled (p.2 id) room

theorem RoomAuthority.Step.grows {σ : HashOrder} {b s' : RoomAuthority} (log : Text → List Event)
    (hstep : Step σ b op s' result)
    (hwell : AllRooms WellFormed b) (hcapacity : Capacity b) (hroom : b.rooms.get? id = some room)
    (he : Effect b op id room room') (hroom' : s'.rooms.get? id = some room') :
    ∃ es, recorded log op result id = log id ++ es ∧ Grows es room room' := by
  -- A call that leaves a room in place has not created it.
  by_cases hop : ∃ now createdAt a, op = .create now createdAt a ∧ a.roomId = id
  · obtain ⟨now, createdAt, a, rfl, rfl⟩ := hop
    cases hstep with
    | failed =>
      cases he with
      | evicted hevict =>
        obtain ⟨n, rfl⟩ := hevict
        have hsame : Thins room { room with replayIds := room.replayIds.drop n } := .same rfl rfl
        exact ⟨[], by simp [recorded], hsame.grows []⟩
    | replied _ hop => cases hop
    | created hplan =>
      rw [hplan.absent] at hroom
      cases hroom
  · obtain ⟨es, hgrows⟩ := recorded_grows log result
      fun now createdAt a heq hid => hop ⟨now, createdAt, a, heq, hid⟩
    by_cases haccept : ∃ clock owner roomId messageId revision,
        op = .acceptMembership clock owner roomId messageId revision
    · obtain ⟨clock, owner, roomId, messageId, revision, rfl⟩ := haccept
      rcases hstep.accept_cases hcapacity hroom hroom' with
        ⟨n, rfl⟩ | ⟨rfl, plan, hplan, ⟨n, rfl⟩, rfl⟩
      · have hsame : Thins room { room with replayIds := room.replayIds.drop n } := .same rfl rfl
        exact ⟨es, hgrows, hsame.grows es⟩
      · refine ⟨[.commit plan.transition], by simp [recorded, events], ?_⟩
        have haccepted := Grows.accepted (hwell roomId room hroom) clock hplan
        exact haccepted.same rfl rfl
    · by_cases hsend : ∃ now a, op = .admitApplication now a
      · obtain ⟨now, a, rfl⟩ := hsend
        rcases hstep.admit_cases hroom hroom' with rfl | ⟨rfl, plan, hplan, rfl, rfl⟩
        · exact ⟨es, hgrows, Thins.grows (.same rfl rfl) es⟩
        · exact ⟨[.message a plan.admission], by simp [recorded, events],
            .admitted (hwell a.roomId room hroom) hplan⟩
      · push Not at haccept hsend
        exact ⟨es, hgrows, (he.thins haccept hsend).grows es⟩

section Call

variable {p : RoomAuthority × (Text → List Event)} (h : Accurate p) (c : Call)

include h

theorem Accurate.call_grows (hroom' : (call p.1 c).rooms.get? id = some room') :
    (∃ room es, p.1.rooms.get? id = some room ∧
      (chronicleStep p c).2 id = p.2 id ++ es ∧ Grows es room room') ∨
    p.1.rooms.get? id = none ∧ (∀ code, room'.queueOf code = []) ∧
      room'.pendingApplications = .empty := by
  have hwell := h.wellFormed.base (fun _ _ hr => hr.tidy) c.1 c.2
  have hstep := exec_step c.1 p.1 c.2
  rcases hstep.effect hroom' with ⟨mid, hmid, he⟩ | ⟨_, _, a, _, -, rfl, hplan, rfl⟩
  · obtain ⟨room, hroom, hpruned⟩ := base_room hmid
    obtain ⟨es, hlog, hgrows⟩ := hstep.grows p.2 hwell (h.capacity.base c.1 c.2) hmid he hroom'
    exact .inl ⟨room, es, hroom, hlog, .after hpruned.tidy.thins hgrows⟩
  · refine .inr ⟨?_, ?_⟩
    · cases hroom : p.1.rooms.get? a.roomId with
      | none => rfl
      | some room =>
        obtain ⟨mid, hmid, -⟩ := @base_some c.1 _ _ _ c.2 hroom
        rw [hplan.absent] at hmid
        cases hmid
    · obtain ⟨name, bytes, -, -, hroom, -⟩ := hplan.roomEq
      rw [hroom]
      exact ⟨fun _ => rfl, rfl⟩

theorem Accurate.step : Accurate (chronicleStep p c) := by
  refine ⟨h.wellFormed.wellFormed_call c, h.capacity.call c, fun id room' hroom' => ?_⟩
  rcases h.call_grows c hroom' with ⟨room, es, hroom, hlog, hgrows⟩ | ⟨-, hqueues, hpending⟩
  · rw [hlog]
    exact (h.chronicled id room hroom).grows hgrows
  · refine ⟨fun code => ?_, fun m p hp => ?_⟩
    · rw [hqueues]
      exact .nil _
    · rw [hpending] at hp
      cases hp

end Call

theorem accurate_chronicle (maxRooms pendingTtlMs : Nat) (calls : List Call) :
    Accurate (chronicle maxRooms pendingTtlMs calls) := by
  have hnew : Accurate (newWithPendingTtl maxRooms pendingTtlMs, fun _ => []) :=
    ⟨.new _ _ _, capacity_after maxRooms pendingTtlMs [], fun id room hroom => by cases hroom⟩
  exact run_invariant (fun _ c h => h.step c) hnew calls

theorem chronicled_after (maxRooms pendingTtlMs : Nat) (calls : List Call)
    (hroom : (after maxRooms pendingTtlMs calls).rooms.get? id = some room) :
    Chronicled (history maxRooms pendingTtlMs calls id) room := by
  rw [← chronicle_state] at hroom
  exact (accurate_chronicle maxRooms pendingTtlMs calls).chronicled id room hroom

/-- A history, with every queued delivery marked by the position of its event in it. -/
structure MarkedHistory where
  chronicle : RoomAuthority × (Text → List Event)
  accurate : Accurate chronicle
  marks : Text → CodeId → List (Nat × PendingDelivery)
  marking : ∀ id room, chronicle.1.rooms.get? id = some room → ∀ code,
    Marking Delivers (chronicle.2 id) (room.queueOf code) (marks id code)

namespace MarkedHistory

variable (x : MarkedHistory) (c : Call)

theorem exists_marks : ∃ marks : Text → CodeId → List (Nat × PendingDelivery),
    ∀ id code room', (call x.chronicle.1 c).rooms.get? id = some room' →
      Marking Delivers ((chronicleStep x.chronicle c).2 id) (room'.queueOf code) (marks id code) ∧
      ∀ room, x.chronicle.1.rooms.get? id = some room →
        Carries PendingDelivery.unnumbered (x.chronicle.2 id).length (x.marks id code)
          (marks id code) := by
  have hone : ∀ id code, ∃ marked : List (Nat × PendingDelivery), ∀ room',
      (call x.chronicle.1 c).rooms.get? id = some room' →
      Marking Delivers ((chronicleStep x.chronicle c).2 id) (room'.queueOf code) marked ∧
      ∀ room, x.chronicle.1.rooms.get? id = some room →
        Carries PendingDelivery.unnumbered (x.chronicle.2 id).length (x.marks id code) marked := by
    intro id code
    cases hroom' : (call x.chronicle.1 c).rooms.get? id with
    | none => exact ⟨[], fun _ heq => by cases heq⟩
    | some room' =>
      rcases x.accurate.call_grows c hroom' with
        ⟨room, es, hroom, hlog, hgrows⟩ | ⟨hnone, hqueues, -⟩
      · obtain ⟨marked, hmarking, hcarries⟩ := (x.marking id room hroom code).extend
          (fun _ _ _ => .of_unnumbered) (hgrows.queues code)
        refine ⟨marked, fun room'' heq => ?_⟩
        obtain rfl := some.inj heq
        rw [hlog]
        exact ⟨hmarking, fun _ _ => hcarries⟩
      · refine ⟨[], fun room'' heq => ⟨?_, fun room hroom => ?_⟩⟩
        · obtain rfl := some.inj heq
          rw [hqueues]
          exact ⟨rfl, .nil, fun p hp => by cases hp⟩
        · rw [hnone] at hroom
          cases hroom
  choose marks hmarks using hone
  exact ⟨marks, hmarks⟩

noncomputable def step : MarkedHistory where
  chronicle := chronicleStep x.chronicle c
  accurate := x.accurate.step c
  marks := (x.exists_marks c).choose
  marking id room' hroom' code := ((x.exists_marks c).choose_spec id code room' hroom').1

variable {x c}

theorem step_carries (hroom : x.chronicle.1.rooms.get? id = some room)
    (hroom' : (x.step c).chronicle.1.rooms.get? id = some room') (code : CodeId) :
    Carries PendingDelivery.unnumbered (x.chronicle.2 id).length (x.marks id code)
      ((x.step c).marks id code) :=
  ((x.exists_marks c).choose_spec id code room' hroom').2 room hroom

def start (maxRooms pendingTtlMs : Nat) : MarkedHistory where
  chronicle := Rooms.chronicle maxRooms pendingTtlMs []
  accurate := accurate_chronicle maxRooms pendingTtlMs []
  marks _ _ := []
  marking _ _ hroom := by cases hroom

noncomputable def run (maxRooms pendingTtlMs : Nat) (calls : List Call) : MarkedHistory :=
  runFrom step (start maxRooms pendingTtlMs) calls

theorem run_chronicle (maxRooms pendingTtlMs : Nat) (calls : List Call) :
    (run maxRooms pendingTtlMs calls).chronicle = Rooms.chronicle maxRooms pendingTtlMs calls := by
  have hrun : ∀ (calls : List Call) (x : MarkedHistory),
      (runFrom step x calls).chronicle = runFrom chronicleStep x.chronicle calls := by
    intro calls
    induction calls with
    | nil => exact fun _ => rfl
    | cons c calls ih => exact fun x => ih (x.step c)
  exact hrun calls _

end MarkedHistory

/-- Every queue is a subsequence of the history of its room: the deliveries in it are marked with
increasing positions of events that they bring. A delivery is marked when it is queued, with the
position of the event that queues it for all its recipients, and keeps its mark. So two queues have
the events they share in the same order. -/
theorem queues_in_one_order (maxRooms pendingTtlMs : Nat) :
    ∃ marks : List Call → Text → CodeId → List (Nat × PendingDelivery),
      (∀ calls id room, (after maxRooms pendingTtlMs calls).rooms.get? id = some room → ∀ c,
        Marking Delivers (history maxRooms pendingTtlMs calls id) (room.queueOf c)
          (marks calls id c)) ∧
      (∀ calls call id room room', (after maxRooms pendingTtlMs calls).rooms.get? id = some room →
        (after maxRooms pendingTtlMs (calls ++ [call])).rooms.get? id = some room' → ∀ c,
        Carries PendingDelivery.unnumbered (history maxRooms pendingTtlMs calls id).length
          (marks calls id c) (marks (calls ++ [call]) id c)) ∧
      ∀ calls id room, (after maxRooms pendingTtlMs calls).rooms.get? id = some room →
        ∀ (c c' : CodeId) (i j i' j' n n' : Nat), ((marks calls id c).map Prod.fst)[i]? = some n →
          ((marks calls id c').map Prod.fst)[i']? = some n →
          ((marks calls id c).map Prod.fst)[j]? = some n' →
          ((marks calls id c').map Prod.fst)[j']? = some n' → i < j → i' < j' := by
  have hchronicle := MarkedHistory.run_chronicle maxRooms pendingTtlMs
  have hmarking : ∀ calls id room, (after maxRooms pendingTtlMs calls).rooms.get? id = some room →
      ∀ c, Marking Delivers (history maxRooms pendingTtlMs calls id) (room.queueOf c)
        ((MarkedHistory.run maxRooms pendingTtlMs calls).marks id c) := by
    intro calls id room hroom c
    rw [← chronicle_state, ← hchronicle] at hroom
    rw [history, ← hchronicle]
    exact (MarkedHistory.run maxRooms pendingTtlMs calls).marking id room hroom c
  refine ⟨fun calls => (MarkedHistory.run maxRooms pendingTtlMs calls).marks, hmarking, ?_, ?_⟩
  · intro calls call id room room' hroom hroom' c
    have hsnoc : MarkedHistory.run maxRooms pendingTtlMs (calls ++ [call]) =
        (MarkedHistory.run maxRooms pendingTtlMs calls).step call := List.foldl_append ..
    rw [← chronicle_state, ← hchronicle] at hroom hroom'
    rw [hsnoc] at hroom'
    beta_reduce
    rw [history, ← hchronicle, hsnoc]
    exact MarkedHistory.step_carries hroom hroom' c
  · intro calls id room hroom c c' i j i' j' n n' hi hi' hj hj'
    exact (hmarking calls id room hroom c).same_order (hmarking calls id room hroom c') hi hi' hj hj'

end Abyssal.Rooms
