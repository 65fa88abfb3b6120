import Abyssal.Rooms.QueueRules

/-! Whatever is undone or expires, the revisions in a queue ascend: an active member's lie above
its own, and none is larger than a word. So a queue runs out of revisions only next to the
largest word. -/

namespace Abyssal.Rooms

open RelayRoom RoomAuthority List

variable {revision n : Nat} {queue : List PendingDelivery} {active : Bool}

structure Rising (active : Bool) (revision : Nat) (queue : List PendingDelivery) : Prop where
  ascending : (revisions queue).Pairwise (· < ·)
  above : active = true → ∀ n ∈ revisions queue, revision < n
  fresh : active = false → revision = 0
  word : revision ≤ wordMax
  words : ∀ n ∈ revisions queue, n ≤ wordMax

theorem Rising.sublist {kept : List PendingDelivery} (h : Rising active revision queue)
    (hkept : kept.Sublist queue) : Rising active revision kept := by
  have hsub : (revisions kept).Sublist (revisions queue) := hkept.map _
  exact ⟨h.ascending.sublist hsub, fun hactive n hn => h.above hactive n (hsub.subset hn), h.fresh,
    h.word, fun n hn => h.words n (hsub.subset hn)⟩

theorem Rising.lower {earlier : Nat} (h : Rising true revision queue) (hle : earlier ≤ revision) :
    Rising true earlier queue :=
  ⟨h.ascending, fun hactive n hn => lt_of_le_of_lt hle (h.above hactive n hn), nofun,
    le_trans hle h.word, h.words⟩

theorem renumberFrom_word {q q' : List PendingDelivery} (h : renumberFrom n q = .ok q') :
    ∀ r ∈ revisions q', r ≤ wordMax := by
  induction q generalizing n q' with
  | nil =>
    cases h
    exact fun r hr => absurd hr not_mem_nil
  | cons d q ih =>
    obtain ⟨next, hnext, h⟩ := okOr_bind.mp h
    obtain ⟨rest, hrest, h⟩ := bind_eq_ok.mp h
    cases h
    obtain ⟨hword, -⟩ := checkedAdd_eq_some.mp hnext
    intro r hr
    rcases mem_cons.mp hr with rfl | hr
    · exact le_trans (Nat.le_add_right _ 1) hword
    · exact ih hrest r hr

theorem renumberQueue_word {q q' : List PendingDelivery} (h : renumberQueue active n q = .ok q') :
    ∀ r ∈ revisions q', r ≤ wordMax := by
  cases q with
  | nil =>
    cases h
    exact fun r hr => absurd hr not_mem_nil
  | cons d q =>
    rw [renumberQueue] at h
    split_ifs at h
    · obtain ⟨rest, hrest, h⟩ := bind_eq_ok.mp h
      cases h
      intro r hr
      rcases mem_cons.mp hr with rfl | hr
      · exact Nat.zero_le _
      · exact renumberFrom_word hrest r hr
    · exact renumberFrom_word h

theorem renumbered_word (h : ∀ r ∈ revisions queue, r ≤ wordMax) :
    ∀ r ∈ revisions (renumbered active revision queue), r ≤ wordMax := by
  unfold renumbered
  split
  · exact h
  · split
    · exact h
    · exact renumberQueue_word ‹_›

theorem assigned_ascending (active : Bool) (revision : Nat) (queue : List PendingDelivery) :
    (assigned active revision queue).Pairwise (· < ·) := by
  cases queue with
  | nil => exact .nil
  | cons d queue =>
    rw [assigned]
    split_ifs
    · have hrange : 0 :: List.range' 1 queue.length = List.range' 0 (queue.length + 1) := rfl
      rw [hrange]
      exact pairwise_lt_range'
    · exact pairwise_lt_range'

theorem Rising.renumbered (h : Rising active revision queue) :
    Rising active revision (renumbered active revision queue) := by
  rcases renumbered_cases active revision queue with hnew | hsame
  · refine ⟨hnew ▸ assigned_ascending .., fun hactive n hn => ?_, h.fresh, h.word,
      renumbered_word h.words⟩
    rw [hnew, hactive, assigned_active, mem_range'_1] at hn
    exact hn.1
  · rw [hsame]
    exact h

theorem le_getLast_of_ascending {l : List Nat} (h : l.Pairwise (· < ·)) (hn : n ∈ l) :
    n ≤ l.getLast?.getD 0 := by
  rcases eq_nil_or_concat l with rfl | ⟨front, last, rfl⟩
  · cases hn
  · rw [concat_eq_append, getLast?_concat, Option.getD_some]
    rw [concat_eq_append] at h hn
    rcases mem_append.mp hn with hfront | hlast
    · exact le_of_lt ((pairwise_append.mp h).2.2 n hfront last (mem_singleton_self _))
    · exact le_of_eq (mem_singleton.mp hlast)

variable {d : PendingDelivery}

theorem Rising.push (h : Rising active revision queue)
    (hnext : d.revision = max revision ((revisions queue).getLast?.getD 0) + 1)
    (hword : d.revision ≤ wordMax) : Rising active revision (queue ++ [d]) := by
  have hlast : ∀ n ∈ revisions queue, n < d.revision := fun n hn => by
    have := le_getLast_of_ascending h.ascending hn
    omega
  refine ⟨?_, fun hactive n hn => ?_, h.fresh, h.word, fun n hn => ?_⟩
  · rw [revisions_push, pairwise_append]
    exact ⟨h.ascending, pairwise_singleton .., fun n hn n' hn' =>
      mem_singleton.mp hn' ▸ hlast n hn⟩
  · rw [revisions_push, mem_append, mem_singleton] at hn
    rcases hn with hn | rfl
    · exact h.above hactive n hn
    · omega
  · rw [revisions_push, mem_append, mem_singleton] at hn
    rcases hn with hn | rfl
    · exact h.words n hn
    · exact hword

theorem Rising.retire (h : Rising true revision queue)
    (hnumbers : revisions (queue.take (n + 1)) = List.range' (revision + 1) (n + 1)) :
    Rising true (revision + (n + 1)) (queue.drop (n + 1)) := by
  have hsplit : revisions (queue.take (n + 1)) ++ revisions (queue.drop (n + 1)) =
      revisions queue := by
    rw [revisions, revisions, ← map_append, take_append_drop, revisions]
  have hlast : revision + (n + 1) ∈ revisions (queue.take (n + 1)) := by
    rw [hnumbers, mem_range'_1]
    omega
  have hrest := h.sublist (drop_sublist (n + 1) queue)
  have hpairs := h.ascending
  rw [← hsplit, pairwise_append] at hpairs
  refine ⟨hrest.ascending, fun _ x hx => hpairs.2.2 _ hlast x hx, fun h => (by cases h), ?_,
    hrest.words⟩
  exact h.words _ (hsplit ▸ mem_append_left _ hlast)

theorem Rising.activate {rest : List PendingDelivery} (h : Rising false d.revision (d :: rest)) :
    Rising true d.revision rest := by
  have hrest := h.sublist (sublist_cons_self d rest)
  have hhead := (pairwise_cons.mp h.ascending).1
  exact ⟨hrest.ascending, fun _ n hn => hhead n hn, nofun, h.word, hrest.words⟩

theorem rising_rules : QueueRules Rising where
  empty _ hr := ⟨.nil, fun _ _ hn => absurd hn not_mem_nil, nofun, hr,
    fun _ hn => absurd hn not_mem_nil⟩
  welcome d _ hzero := by
    refine ⟨pairwise_singleton .., nofun, fun _ => rfl, Nat.zero_le _, fun n hn => ?_⟩
    rw [mem_singleton.mp hn, hzero]
    exact Nat.zero_le _
  push _ _ _ _ h hnext hword := h.push hnext hword
  retire _ _ _ h _ hnumbers := h.retire hnumbers
  activate r d rest h _ hd := by
    subst hd
    exact h.activate

section

variable {room room' : RelayRoom} (h : Throughout Rising room)

include h

theorem rising_compacted {P : PendingDelivery → Prop}
    (hwell : WellFormed room) {k : Text} {m : Member} (hm : room.members.get? k = some m)
    (hqueue : Compacted P room m.codeId queue) :
    Rising m.active (room.revisionOf m.codeId) queue :=
  hqueue.keeps (memberActive_of_get? hwell hm) (h k m hm) fun _ hdrop =>
    ((h k m hm).sublist hdrop.sublist).renumbered

theorem rising_trim (hwell : WellFormed room)
    (htrim : Trim room room') : Throughout Rising room' := by
  have hcompacted := htrim.compacted
  have hsame : room'.members = room.members ∧ room'.memberRevisions = room.memberRevisions := by
    cases htrim <;> exact ⟨rfl, rfl⟩
  intro k m hm
  rw [hsame.1] at hm
  rw [revisionOf, hsame.2, ← revisionOf]
  exact rising_compacted h hwell hm (hcompacted m.codeId)

theorem rising_tidy (hwell : WellFormed room) (ht : Tidy room room') : Throughout Rising room' := by
  cases ht with
  | requests | unstage => exact h.same rfl rfl rfl
  | trim htrim => exact rising_trim h hwell htrim
  | undo messageId p hp =>
    intro k m hm
    have hrising := rising_compacted h hwell hm (undone_queueOf room messageId p m.codeId)
    rw [undone_revisionOf]
    split_ifs with hc
    · -- The sender is active and goes back to a lower revision.
      obtain ⟨k', sender, hsender, hcode, hactive⟩ := (hwell.pending messageId p hp).active
      obtain ⟨r, hr, hlt⟩ := (hwell.pending messageId p hp).revision
      obtain rfl := hwell.members.codes.member_eq hsender hm (hcode.trans hc)
      rw [hactive] at hrising ⊢
      refine hrising.lower (le_of_lt ?_)
      rw [revisionOf, ← hc, hr, Option.getD_some]
      exact hlt
    · exact hrising

theorem rising_effect {b : RoomAuthority} {op : Op} {id : Text}
    (hwell : WellFormed room) (he : Effect b op id room room') : Throughout Rising room' := by
  refine h.effect rising_rules hwell he ?_ ?_
  · intro messageId plan _ hplan
    have hundone := rising_tidy h hwell (.undo messageId plan.pending hplan.pendingGet)
    have hwell' := hwell.tidy (.undo messageId plan.pending hplan.pendingGet)
    exact (rising_trim hundone hwell' .dropEmpty).same rfl rfl rfl
  · intro messageId plan selected _ _ k m hm
    exact rising_compacted h hwell hm (retracted_compacted room messageId selected m.codeId)

end

theorem exists_le_of_ascending {r : Nat} {l : List Nat} (h : l.Pairwise (· < ·))
    (habove : ∀ n ∈ l, r < n) (hne : l ≠ []) : ∃ n ∈ l, r + l.length ≤ n := by
  induction l generalizing r with
  | nil => exact absurd rfl hne
  | cons a l ih =>
    obtain ⟨ha, hl⟩ := pairwise_cons.mp h
    have hr := habove a (mem_cons_self ..)
    cases l with
    | nil => exact ⟨a, mem_cons_self .., hr⟩
    | cons b l =>
      obtain ⟨n, hn, hle⟩ := ih hl ha (cons_ne_nil b l)
      refine ⟨n, mem_cons_of_mem _ hn, ?_⟩
      rw [length_cons]
      omega

theorem Rising.full {kept : List PendingDelivery} (h : Rising true revision queue)
    (hkept : kept.Sublist queue) (hfull : wordMax < revision + 1 + kept.length) :
    revision = wordMax ∨ wordMax ∈ revisions queue := by
  have hword := h.word
  have hrising := h.sublist hkept
  by_cases hempty : kept = []
  · rw [hempty, length_nil] at hfull
    exact .inl (by omega)
  · have hne : revisions kept ≠ [] := fun heq => hempty (map_eq_nil_iff.mp heq)
    obtain ⟨n, hn, hle⟩ := exists_le_of_ascending hrising.ascending (hrising.above rfl) hne
    have hlast := hrising.words n hn
    rw [revisions_length] at hle
    obtain rfl : n = wordMax := by omega
    exact .inr ((hkept.map PendingDelivery.revision).subset hn)

end Abyssal.Rooms
