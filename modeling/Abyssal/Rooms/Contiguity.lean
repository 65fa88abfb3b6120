import Abyssal.Rooms.QueueRules

/-! The numbers in a queue. An active member's deliveries are numbered on from its revision,
and those of a joining member from its welcome, as long as no application is undone while its
sender has other deliveries waiting. -/

namespace Abyssal.Rooms

open RelayRoom RoomAuthority OrdMap List Option

variable {queue kept : List PendingDelivery} {revision : Nat} {active : Bool}
  {P : PendingDelivery → Prop} {d : PendingDelivery}

/-- The revisions in the member's queue follow one another without gap or repeat. -/
def Contiguous (room : RelayRoom) (m : Member) : Prop :=
  if m.active then
    revisions (room.queueOf m.codeId) =
      List.range' (room.revisionOf m.codeId + 1) (room.queueOf m.codeId).length
  else
    (∃ d rest, room.queueOf m.codeId = d :: rest ∧ d.payload.isWelcome = true) ∧
      revisions (room.queueOf m.codeId) = List.range (room.queueOf m.codeId).length

structure Follows (revision : Nat) (queue : List PendingDelivery) : Prop where
  numbers : revisions queue = List.range' (revision + 1) queue.length
  word : revision + queue.length ≤ wordMax

structure Welcomed (queue : List PendingDelivery) : Prop where
  welcome : ∃ d rest, queue = d :: rest ∧ d.payload.isWelcome = true
  numbers : revisions queue = List.range' 0 queue.length
  word : queue.length ≤ wordMax + 1

/-- A queue is numbered as it should be: an active member's, or a joining one's. -/
inductive Numbered : Bool → Nat → List PendingDelivery → Prop
  | active {revision : Nat} {queue : List PendingDelivery} (hqueue : Follows revision queue) :
      Numbered true revision queue
  | joining {queue : List PendingDelivery} (hqueue : Welcomed queue) : Numbered false 0 queue

theorem Numbered.follows (h : Numbered true revision queue) : Follows revision queue := by
  cases h with
  | active hqueue => exact hqueue

theorem Numbered.welcomed (h : Numbered false revision queue) : revision = 0 ∧ Welcomed queue := by
  cases h with
  | joining hqueue => exact ⟨rfl, hqueue⟩

theorem Numbered.word (h : Numbered active revision queue) : revision ≤ wordMax := by
  cases h with
  | active hqueue => exact le_trans (Nat.le_add_right _ _) hqueue.word
  | joining => exact Nat.zero_le _

theorem Numbered.contiguous {room : RelayRoom} {m : Member}
    (h : Numbered m.active (room.revisionOf m.codeId) (room.queueOf m.codeId)) :
    Contiguous room m := by
  unfold Contiguous
  cases hactive : m.active with
  | true =>
    rw [hactive] at h
    rw [if_pos rfl]
    exact h.follows.numbers
  | false =>
    rw [hactive] at h
    rw [if_neg (by simp)]
    have hqueue := h.welcomed.2
    exact ⟨hqueue.welcome, hqueue.numbers.trans range_eq_range'.symm⟩

theorem Follows.nil (h : revision ≤ wordMax) : Follows revision [] := ⟨rfl, h⟩

theorem Follows.compacted (h : Follows revision queue) (hdrop : Dropping P queue kept) :
    Follows revision (renumbered true revision kept) := by
  have hword := h.word
  have hle : kept.length ≤ queue.length := hdrop.sublist.length_le
  refine ⟨?_, by rw [renumbered_length]; omega⟩
  rw [renumbered_length, ← assigned_active]
  rcases Nat.lt_or_eq_of_le hle with hlt | heq
  · obtain ⟨queue', hqueue'⟩ := @renumberQueue_isOk true revision kept (by omega)
    rw [renumbered, checkedAdd_of_le (by omega)]
    simp only [hqueue']
    exact renumberQueue_revisions hqueue'
  · obtain rfl := hdrop.sublist.eq_of_length heq
    rcases renumbered_cases true revision kept with hnew | hsame
    · exact hnew
    · rw [hsame, assigned_active]
      exact h.numbers

theorem renumbered_welcome (hd : d.payload.isWelcome = true) (h : 1 + queue.length ≤ wordMax) :
    revisions (renumbered false 0 (d :: queue)) = List.range' 0 (d :: queue).length := by
  obtain ⟨rest, hrest⟩ := renumberFrom_isOk h
  have hqueue : renumberQueue false (0 + 1) (d :: queue) = .ok ({ d with revision := 0 } :: rest) := by
    rw [renumberQueue, Bool.not_false, hd, Bool.and_self, if_pos rfl, hrest, except_ok_bind]
  rw [renumbered, checkedAdd_of_le (by omega)]
  simp only [hqueue]
  rw [← assigned_welcome hd 0 queue]
  exact renumberQueue_revisions hqueue

theorem Welcomed.compacted (h : Welcomed queue) (hdrop : Dropping P queue kept)
    (hhead : ∀ d, queue.head? = some d → ¬ P d) : Welcomed (renumbered false 0 kept) := by
  obtain ⟨d, rest, rfl, hd⟩ := h.welcome
  have hword := h.word
  have hle := hdrop.sublist.length_le
  cases hdrop with
  | drop hp => exact absurd hp (hhead d rfl)
  | @keep _ _ kept hkept =>
    have hshape : ∃ d' rest', renumbered false 0 (d :: kept) = d' :: rest' ∧
        d'.payload.isWelcome = true := by
      have hmap := renumbered_unnumbered false 0 (d :: kept)
      cases hq : renumbered false 0 (d :: kept) with
      | nil => simp [hq] at hmap
      | cons d' rest' =>
        rw [hq] at hmap
        have hpayload := PendingDelivery.payload_of_unnumbered (cons_eq_cons.mp hmap).1
        exact ⟨d', rest', rfl, hpayload ▸ hd⟩
    refine ⟨hshape, ?_, by rw [renumbered_length]; omega⟩
    rw [renumbered_length]
    rcases Nat.lt_or_eq_of_le hle with hlt | heq
    · refine renumbered_welcome hd ?_
      simp only [length_cons] at hlt hword
      omega
    · obtain rfl : kept = rest := hkept.sublist.eq_of_length (by simpa using heq)
      rcases renumbered_cases false 0 (d :: kept) with hnew | hsame
      · rw [hnew, assigned_welcome hd]
      · rw [hsame]
        exact h.numbers

theorem Numbered.compacted (h : Numbered active revision queue) (hdrop : Dropping P queue kept)
    (hhead : active = false → ∀ d, queue.head? = some d → ¬ P d) :
    Numbered active revision (renumbered active revision kept) := by
  cases h with
  | active hqueue => exact .active (hqueue.compacted hdrop)
  | joining hqueue => exact .joining (hqueue.compacted hdrop (hhead rfl))

theorem Numbered.push (h : Numbered active revision queue)
    (hnext : d.revision = max revision ((revisions queue).getLast?.getD 0) + 1)
    (hword : d.revision ≤ wordMax) : Numbered active revision (queue ++ [d]) := by
  have hlength : (queue ++ [d]).length = queue.length + 1 := by
    rw [length_append, length_singleton]
  cases h with
  | active hqueue =>
    have hlast : d.revision = revision + 1 + queue.length := by
      rw [hnext, hqueue.numbers, getLast?_range']
      split_ifs with hempty
      · rw [hempty, getD_none, Nat.max_zero, Nat.add_zero]
      · rw [getD_some]
        omega
    refine .active ⟨?_, ?_⟩
    · rw [revisions_push, hlength, hqueue.numbers, range'_concat, hlast, Nat.one_mul]
    · rw [hlength]
      omega
  | joining hqueue =>
    obtain ⟨d₀, rest, hcons, hwelcome⟩ := hqueue.welcome
    have hlast : d.revision = 0 + queue.length := by
      rw [hnext, hqueue.numbers, getLast?_range', hcons, length_cons]
      simp
    refine .joining ⟨⟨d₀, rest ++ [d], ?_, hwelcome⟩, ?_, ?_⟩
    · rw [hcons, cons_append]
    · rw [revisions_push, hlength, hqueue.numbers, range'_concat, hlast, Nat.one_mul]
    · rw [hlength]
      omega

theorem Follows.retire {n : Nat} (h : Follows revision queue) (hn : n < queue.length) :
    Follows (revision + (n + 1)) (queue.drop (n + 1)) := by
  have hword := h.word
  refine ⟨?_, ?_⟩
  · rw [revisions, map_drop, ← revisions, h.numbers, drop_range', length_drop,
      Nat.mul_one]
    congr 1
    omega
  · rw [length_drop]
    omega

theorem Welcomed.activate {rest : List PendingDelivery} (h : Welcomed (d :: rest)) :
    Follows 0 rest := by
  have hnumbers := h.numbers
  have hword := h.word
  rw [length_cons] at hnumbers hword
  rw [revisions, map_cons, range'_succ] at hnumbers
  exact ⟨(cons_eq_cons.mp hnumbers).2, by omega⟩

theorem numbered_rules : QueueRules Numbered where
  empty _ hr := .active (.nil hr)
  welcome d hd hzero := .joining ⟨⟨d, [], rfl, hd⟩, by simp [revisions, hzero], Nat.le_add_left ..⟩
  push _ _ _ _ h hnext hword := h.push hnext hword
  retire _ _ _ h hn _ := .active (h.follows.retire hn)
  activate r d rest h _ _ := by
    obtain ⟨rfl, hqueue⟩ := h.welcomed
    exact .active hqueue.activate

section

variable {room room' : RelayRoom} {m : Text} {p : PendingApplication} {ids : List Text}

theorem numbered_trim (h : Throughout Numbered room) (hwell : WellFormed room)
    (htrim : Trim room room') : Throughout Numbered room' := by
  have hcompacted := htrim.compacted
  have hsame : room'.members = room.members ∧ room'.memberRevisions = room.memberRevisions := by
    cases htrim <;> exact ⟨rfl, rfl⟩
  intro k m hm
  rw [hsame.1] at hm
  have hnumbered := h k m hm
  rw [revisionOf, hsame.2, ← revisionOf]
  refine (hcompacted m.codeId).keeps (memberActive_of_get? hwell hm) hnumbered fun kept hdrop => ?_
  refine hnumbered.compacted hdrop fun hfalse d hd happlication => ?_
  -- A joining member's queue starts with its welcome, which maintenance never takes out.
  rw [hfalse] at hnumbered
  obtain ⟨d', rest, hqueue, hwelcome⟩ := hnumbered.welcomed.2.welcome
  rw [hqueue, head?_cons] at hd
  obtain rfl := some.inj hd
  rw [DeliveryPayload.not_application hwelcome] at happlication
  cases happlication

/-- The applications with these ids can be undone together: their senders have nothing else
waiting, and none of the ids is that of a joining member's welcome. -/
def SafeToUndo (room : RelayRoom) (ids : List Text) : Prop :=
  (∀ e ∈ room.pendingApplications.entries, e.1 ∈ ids →
    ∀ d ∈ room.queueOf e.2.senderCodeId, d.messageId ∈ ids) ∧
  ∀ e ∈ room.members.entries, e.2.active = false →
    ∀ d ∈ (room.queueOf e.2.codeId).head?, d.messageId ∉ ids

instance (room : RelayRoom) (ids : List Text) : Decidable (SafeToUndo room ids) :=
  inferInstanceAs (Decidable (_ ∧ _))

theorem SafeToUndo.sender (h : SafeToUndo room ids) (hp : room.pendingApplications.get? m = some p)
    (hm : m ∈ ids) : ∀ d ∈ room.queueOf p.senderCodeId, d.messageId ∈ ids :=
  h.1 (m, p) (get?_eq_some.mp hp) hm

theorem SafeToUndo.welcome {ids : List Text} (h : SafeToUndo room ids) {k : Text} {m : Member}
    (hm : room.members.get? k = some m) (hactive : m.active = false) {d : PendingDelivery}
    (hd : (room.queueOf m.codeId).head? = some d) : d.messageId ∉ ids :=
  h.2 (k, m) (get?_eq_some.mp hm) hactive d hd

def NumberedBut (ids : List Text) (room : RelayRoom) : Prop :=
  ∀ k m, room.members.get? k = some m →
    Numbered m.active (room.revisionOf m.codeId) (room.queueOf m.codeId) ∨
    m.active = true ∧ room.revisionOf m.codeId ≤ wordMax ∧
      ∀ d ∈ room.queueOf m.codeId, d.messageId ∈ ids

theorem NumberedBut.all (h : NumberedBut [] room) : Throughout Numbered room := by
  intro k m hm
  rcases h k m hm with hnumbered | ⟨hactive, hword, hnone⟩
  · exact hnumbered
  · have hempty : room.queueOf m.codeId = [] :=
      eq_nil_iff_forall_not_mem.mpr fun d hd => not_mem_nil (hnone d hd)
    rw [hempty, hactive]
    exact .active (.nil hword)

theorem mem_undone_queueOf {c : CodeId} {d : PendingDelivery}
    (hd : d ∈ (room.undone m p).queueOf c) :
    d.messageId ≠ m ∧ ∃ d' ∈ room.queueOf c, d'.messageId = d.messageId := by
  have hq : (room.undone m p).queueOf c = renumbered (room.memberActive c) (room.revisionOf c)
      (withoutMessage m (room.queueOf c)) := by
    change ((room.retracted m fun _ => true).get? c).getD [] = _
    rw [retracted_get?, queueOf]
    cases room.deliveries.get? c with
    | none => exact (renumbered_nil _ _).symm
    | some q => rfl
  have hids := map_renumbered PendingDelivery.messageId
    (fun _ _ heq => PendingDelivery.messageId_of_unnumbered heq) (room.memberActive c)
    (room.revisionOf c) (withoutMessage m (room.queueOf c))
  have hmem : d.messageId ∈ (withoutMessage m (room.queueOf c)).map PendingDelivery.messageId := by
    rw [← hids, ← hq]
    exact mem_map_of_mem hd
  obtain ⟨d', hd', heq⟩ := mem_map.mp hmem
  obtain ⟨hin, hne⟩ := mem_filter.mp hd'
  exact ⟨heq ▸ of_decide_eq_true hne, d', hin, heq⟩

theorem NumberedBut.undone (hwell : WellFormed room) (h : NumberedBut (m :: ids) room)
    (hp : room.pendingApplications.get? m = some p) (hsafe : SafeToUndo room (m :: ids)) :
    NumberedBut ids (room.undone m p) := by
  intro k mem hmem
  change room.members.get? k = some mem at hmem
  have hids : ∀ c, (∀ d ∈ room.queueOf c, d.messageId ∈ m :: ids) →
      ∀ d ∈ (room.undone m p).queueOf c, d.messageId ∈ ids := by
    intro c hall d hd
    obtain ⟨hne, d', hd', heq⟩ := mem_undone_queueOf hd
    exact heq ▸ mem_of_ne_of_mem (heq ▸ hne) (hall d' hd')
  have hpending := hwell.pending m p hp
  have hrevision := undone_revisionOf room m p mem.codeId
  by_cases hc : p.senderCodeId = mem.codeId
  · -- The sender goes back to its earlier revision, and what is left for it goes too.
    rw [if_pos hc] at hrevision
    obtain ⟨k', sender, hsender, hcode, hactive⟩ := hpending.active
    obtain rfl := hwell.members.codes.member_eq hsender hmem (hcode.trans hc)
    refine .inr ⟨hactive, ?_, hids _ (hc ▸ hsafe.sender hp (mem_cons_self ..))⟩
    obtain ⟨r, hr, hlt⟩ := hpending.revision
    have hword : room.revisionOf sender.codeId ≤ wordMax := by
      rcases h k sender hmem with hnumbered | ⟨-, hword, -⟩
      · exact hnumbered.word
      · exact hword
    rw [revisionOf, ← hc, hr, getD_some] at hword
    rw [hrevision]
    exact le_trans (Nat.le_of_lt hlt) hword
  · rw [if_neg hc] at hrevision
    rcases h k mem hmem with hnumbered | ⟨hactive, hword, hall⟩
    · rw [hrevision]
      refine .inl ((undone_queueOf room m p _).keeps (memberActive_of_get? hwell hmem) hnumbered
        fun kept hdrop => hnumbered.compacted hdrop fun hfalse d hd heq => ?_)
      exact hsafe.welcome hmem hfalse hd (heq ▸ mem_cons_self ..)
    · exact .inr ⟨hactive, hrevision ▸ hword, hids _ hall⟩

theorem SafeToUndo.undone (h : SafeToUndo room (m :: ids)) (p : PendingApplication) :
    SafeToUndo (room.undone m p) ids := by
  refine ⟨fun e he hid d hd => ?_, fun e he hactive d hd => ?_⟩
  · obtain ⟨hne, d', hd', heq⟩ := mem_undone_queueOf hd
    have hold : room.pendingApplications.get? e.1 = some e.2 :=
      get?_of_erase (get?_eq_some.mpr he)
    exact heq ▸ mem_of_ne_of_mem (heq ▸ hne)
      (h.sender hold (mem_cons_of_mem _ hid) d' hd')
  · have hwelcome := fun d hd => @SafeToUndo.welcome _ _ h _ _ (get?_eq_some.mpr he) hactive d hd
    have hqueue := undone_queueOf room m p e.2.codeId
    rw [mem_def] at hd
    generalize (room.undone m p).queueOf e.2.codeId = queue at hqueue hd
    cases hqueue with
    | same => exact fun hin => hwelcome d hd (mem_cons_of_mem _ hin)
    | thinned kept hdrop =>
      cases hold : room.queueOf e.2.codeId with
      | nil =>
        rw [hold] at hdrop
        cases hdrop
        rw [renumbered_nil] at hd
        cases hd
      | cons d₀ rest =>
        rw [hold] at hdrop hwelcome
        have hnot := hwelcome d₀ rfl
        cases hdrop with
        | drop heq => exact absurd (heq ▸ mem_cons_self ..) hnot
        | @keep _ _ kept' _ =>
          have hmap := renumbered_unnumbered (room.memberActive e.2.codeId)
            (room.revisionOf e.2.codeId) (d₀ :: kept')
          obtain ⟨tail, htail⟩ := head?_eq_some_iff.mp hd
          rw [htail] at hmap
          rw [PendingDelivery.messageId_of_unnumbered (cons_eq_cons.mp hmap).1]
          exact fun hin => hnot (mem_cons_of_mem _ hin)

theorem NumberedBut.expired {σ : HashOrder} {ids : List Text} (hwell : WellFormed room)
    (h : NumberedBut ids room) (hsafe : SafeToUndo room ids) (hnodup : ids.Nodup)
    (hpending : ∀ m ∈ ids, ∃ p, room.pendingApplications.get? m = some p) :
    Throughout Numbered (ids.foldl (expireApplication σ) room) ∧
      WellFormed (ids.foldl (expireApplication σ) room) := by
  induction ids generalizing room with
  | nil => exact ⟨h.all, hwell⟩
  | cons m ids ih =>
    obtain ⟨p, hp⟩ := hpending m (mem_cons_self ..)
    obtain ⟨bytes, hundone⟩ := expireApplication_eq σ hp
    obtain ⟨hnot, hnodup⟩ := nodup_cons.mp hnodup
    rw [foldl_cons]
    refine ih (hwell.tidyStar (foldl_expireApplication_tidy σ room [m])) ?_ ?_ hnodup fun m' hm' => ?_
    · rw [hundone]
      intro k mem hmem
      rcases h.undone hwell hp hsafe k mem hmem with hnumbered | hleft
      · exact .inl hnumbered
      · exact .inr hleft
    · rw [hundone]
      exact hsafe.undone p
    · obtain ⟨p', hp'⟩ := hpending m' (mem_cons_of_mem _ hm')
      refine ⟨p', ?_⟩
      have hne : m ≠ m' := fun heq => hnot (heq ▸ hm')
      rw [hundone]
      exact (get?_erase_of_ne _ hne).trans hp'

theorem numbered_pruned {σ : HashOrder} {now ttl : Nat} (h : Throughout Numbered room)
    (hwell : WellFormed room) (hsafe : SafeToUndo room (room.expiredApplications now))
    (hpruned : PrunedTo σ now ttl room room') : Throughout Numbered room' := by
  have hperm := σ.ids_perm room.roomId (room.expiredApplications now)
  have hrequests : Throughout Numbered (room.pruneRequests now) := h.same rfl rfl rfl
  have hwell' : WellFormed (room.pruneRequests now) :=
    hwell.tidyStar (pruneRequests_tidy room now)
  have hsafe' : SafeToUndo (room.pruneRequests now)
      (σ.ids room.roomId (room.expiredApplications now)) := by
    refine ⟨fun e he hid d hd => ?_, fun e he hactive d hd hid => ?_⟩
    · exact hperm.mem_iff.mpr (hsafe.1 e he (hperm.mem_iff.mp hid) d hd)
    · exact hsafe.2 e he hactive d hd (hperm.mem_iff.mp hid)
  have hexpired := @NumberedBut.expired _ σ _ hwell' (fun k m hm => .inl (hrequests k m hm)) hsafe'
    (hperm.nodup_iff.mpr (keys_nodup _)) fun m hm => ?_
  · have hfinal : Throughout Numbered room' ∧ WellFormed room' := by
      refine @TrimStar.invariant _ _ (fun r => Throughout Numbered r ∧ WellFormed r) ?_
        hpruned.trim hexpired
      exact fun r r' hr ht => ⟨numbered_trim hr.1 hr.2 ht, hr.2.trim ht⟩
    exact hfinal.1
  · obtain ⟨p, hp⟩ := mem_keys.mp (hperm.mem_iff.mp hm)
    rw [get?_filter, filter_eq_some_iff] at hp
    exact ⟨p, hp.1⟩

end

variable {s : RoomAuthority}

def undoneIds (op : Op) (id : Text) (room : RelayRoom) : List Text :=
  match op, op.pruneClock with
  | _, some now => room.expiredApplications now
  | .rollbackApplication roomId messageId, none =>
    if roomId = id ∧ room.pendingApplications.contains messageId = true then [messageId] else []
  | _, none => []

/-- Whatever the call undoes can be undone safely. -/
def UndoesSafely (s : RoomAuthority) (c : Call) : Prop :=
  ∀ e ∈ s.rooms.entries, SafeToUndo e.2 (undoneIds c.2 e.1 e.2)

instance (s : RoomAuthority) (c : Call) : Decidable (UndoesSafely s c) :=
  inferInstanceAs (Decidable (∀ e ∈ s.rooms.entries, SafeToUndo e.2 (undoneIds c.2 e.1 e.2)))

theorem UndoesSafely.room {s : RoomAuthority} {c : Call} (h : UndoesSafely s c) {id : Text}
    {room : RelayRoom} (hroom : s.rooms.get? id = some room) :
    SafeToUndo room (undoneIds c.2 id room) := h (id, room) (get?_eq_some.mp hroom)

theorem UndoesSafely.rollback {σ : HashOrder} {s : RoomAuthority} {roomId messageId : Text}
    (h : UndoesSafely s (σ, .rollbackApplication roomId messageId)) {room : RelayRoom}
    (hroom : s.rooms.get? roomId = some room) {p : PendingApplication}
    (hp : room.pendingApplications.get? messageId = some p) : SafeToUndo room [messageId] := by
  have hids := h.room hroom
  simp only [undoneIds, Op.pruneClock, contains_eq_true.mpr ⟨p, hp⟩, and_self, if_true]
    at hids
  exact hids

theorem numbered_base {σ : HashOrder} {op : Op} {id : Text} {room mid : RelayRoom}
    (h : Throughout Numbered room) (hwell : WellFormed room) (hroom : s.rooms.get? id = some room)
    (hguard : UndoesSafely s (σ, op)) (hpruned : PrunedBy σ s op room mid) :
    Throughout Numbered mid := by
  have hsafe := hguard.room hroom
  unfold PrunedBy at hpruned
  unfold undoneIds at hsafe
  cases hclock : op.pruneClock with
  | none =>
    rw [hclock] at hpruned
    exact hpruned ▸ h
  | some now =>
    simp only [hclock] at hpruned hsafe
    exact numbered_pruned h hwell hsafe hpruned

theorem numbered_effect {σ : HashOrder} {op : Op} {id : Text} {room room' : RelayRoom}
    (h : Throughout Numbered room) (hwell : WellFormed room) (hguard : UndoesSafely s (σ, op))
    (hroom : (op.base σ s).rooms.get? id = some room) (he : Effect (op.base σ s) op id room room') :
    Throughout Numbered room' := by
  refine h.effect numbered_rules hwell he ?_ ?_
  · rintro messageId plan rfl hplan
    have hsafe := UndoesSafely.rollback hguard hroom hplan.pendingGet
    have hundone : Throughout Numbered (room.undone messageId plan.pending) :=
      NumberedBut.all (NumberedBut.undone hwell (fun k m hm => .inl (h k m hm)) hplan.pendingGet
        hsafe)
    have hwell' := hwell.tidy (.undo messageId plan.pending hplan.pendingGet)
    exact (numbered_trim hundone hwell' .dropEmpty).same rfl rfl rfl
  · rintro messageId plan selected rfl hplan k m hm
    have hsafe := UndoesSafely.rollback hguard hroom hplan.pendingGet
    have hnumbered := h k m hm
    refine (retracted_compacted room messageId selected m.codeId).keeps
      (memberActive_of_get? hwell hm) hnumbered fun kept hdrop =>
        hnumbered.compacted hdrop fun hfalse d hd heq => ?_
    exact hsafe.welcome hm hfalse hd (heq ▸ mem_singleton_self _)

theorem numbered_call {c : Call} (hwell : AllRooms WellFormed s)
    (h : AllRooms (Throughout Numbered) s) (hguard : UndoesSafely s c) :
    AllRooms (Throughout Numbered) (call s c) := by
  have hbase : AllRooms (Throughout Numbered) (c.2.base c.1 s) := by
    intro id mid hmid
    obtain ⟨room, hroom, hpruned⟩ := base_room hmid
    exact numbered_base (h id room hroom) (hwell id room hroom) hroom hguard hpruned
  have hwell' := hwell.base (fun _ _ hr => hr.tidy) c.1 c.2
  refine hbase.step (exec_step c.1 s c.2) (fun id room room' hroom hr he => ?_)
    fun _ _ _ hplan => .created numbered_rules hplan
  exact numbered_effect hr (hwell' id room hroom) hguard hroom he

theorem queues_contiguous (maxRooms pendingTtlMs : Nat) (calls : List Call)
    (h : Along UndoesSafely call (newWithPendingTtl maxRooms pendingTtlMs) calls) (id : Text)
    (room : RelayRoom) (hroom : (after maxRooms pendingTtlMs calls).rooms.get? id = some room)
    (k : Text) (m : Member) (hm : room.members.get? k = some m) : Contiguous room m := by
  have hstep : ∀ s c, AllRooms WellFormed s ∧ AllRooms (Throughout Numbered) s → UndoesSafely s c →
      AllRooms WellFormed (call s c) ∧ AllRooms (Throughout Numbered) (call s c) :=
    fun s c hs hguard => ⟨hs.1.wellFormed_call c, numbered_call hs.1 hs.2 hguard⟩
  have hrun := Along.invariant hstep ⟨.new _ _ _, .new _ _ _⟩ h
  exact (hrun.2 id room hroom k m hm).contiguous

namespace Scenario

def rollback (messageId : Text) : Op := .rollbackApplication lobby messageId

/-- Alice takes back a message at once and sends another. -/
def aliceSendsAgain : List Op := bobJoins ++ [send 2 1 [50] 1 2, rollback [50], send 3 1 [51] 1 2]

/-- Alice takes back a message after Bob has acknowledged it and answered. -/
def aliceRollsBackLate : List Op :=
  bobJoins ++ [send 2 1 [50] 1 2, store 3 2 [50] 1 1, send 4 2 [51] 1 2, rollback [50]]

end Scenario

open Scenario in
set_option maxRecDepth 100000 in
theorem queues_contiguous_aliceSendsAgain : ∃ room m,
    Along UndoesSafely call (newWithPendingTtl 1 600000) (calls aliceSendsAgain) ∧
    (after 1 600000 (calls aliceSendsAgain)).rooms.get? lobby = some room ∧
    room.members.get? bob = some m ∧ revisions (room.queueOf m.codeId) = [1] ∧
    Contiguous room m := by
  have hguard : Along UndoesSafely call (newWithPendingTtl 1 600000) (calls aliceSendsAgain) := by
    decide
  have hlobby : ((after 1 600000 (calls aliceSendsAgain)).rooms.get? lobby).any
      (fun room => decide ((room.members.get? bob).any
        (fun m => decide (revisions (room.queueOf m.codeId) = [1])) = true)) = true := by
    decide
  obtain ⟨room, hroom, hbob⟩ := exists_of_any hlobby
  obtain ⟨m, hm, hrevisions⟩ := exists_of_any hbob
  exact ⟨room, m, hguard, hroom, hm, hrevisions,
    queues_contiguous 1 600000 _ hguard lobby room hroom bob m hm⟩

/-- Compaction numbers Alice's queue from the revision she had while her message was pending;
then that revision is taken back, and her queue starts two above the one she has now. -/
theorem late_rollback_leaves_gap : ∃ room m,
    (after 1 600000 (Scenario.calls Scenario.aliceRollsBackLate)).rooms.get? Scenario.lobby =
      some room ∧ room.members.get? Scenario.alice = some m ∧ m.active = true ∧
    room.revisionOf m.codeId = 1 ∧ revisions (room.queueOf m.codeId) = [3] ∧
    ¬ Contiguous room m := by
  have hlobby : ((after 1 600000 (Scenario.calls Scenario.aliceRollsBackLate)).rooms.get?
      Scenario.lobby).any (fun room => decide ((room.members.get? Scenario.alice).any
        (fun m => decide (m.active = true ∧ room.revisionOf m.codeId = 1 ∧
          revisions (room.queueOf m.codeId) = [3])) = true)) = true := by
    set_option maxRecDepth 100000 in
    decide
  obtain ⟨room, hroom, halice⟩ := exists_of_any hlobby
  obtain ⟨m, hm, hactive, hrevision, hrevisions⟩ := exists_of_any halice
  refine ⟨room, m, hroom, hm, hactive, hrevision, hrevisions, fun hcontiguous => ?_⟩
  have hlength : (room.queueOf m.codeId).length = 1 := by
    rw [← revisions_length, hrevisions]
    rfl
  rw [Contiguous, if_pos hactive, hrevisions, hrevision, hlength] at hcontiguous
  cases hcontiguous

end Abyssal.Rooms
