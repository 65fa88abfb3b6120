import Abyssal.Rooms.Prune
import Abyssal.Base.Runs

/-! Renumbering of a delivery queue. It changes nothing but the revisions, it gives
consecutive ones, and it can fail only at the largest word. -/

namespace Abyssal.Rooms

open List

variable {q q' : List PendingDelivery} {n : Nat}

/-- A delivery apart from its number in the queue. -/
def PendingDelivery.unnumbered (d : PendingDelivery) : PendingDelivery := { d with revision := 0 }

theorem PendingDelivery.messageId_of_unnumbered {d d' : PendingDelivery}
    (h : d.unnumbered = d'.unnumbered) : d.messageId = d'.messageId := by
  have hid := congrArg PendingDelivery.messageId h
  exact hid

theorem PendingDelivery.payload_of_unnumbered {d d' : PendingDelivery}
    (h : d.unnumbered = d'.unnumbered) : d.payload = d'.payload := by
  have hpayload := congrArg PendingDelivery.payload h
  exact hpayload

def revisions (queue : List PendingDelivery) : List Nat := queue.map PendingDelivery.revision

theorem renumberFrom_unnumbered (h : renumberFrom n q = .ok q') :
    q'.map PendingDelivery.unnumbered = q.map PendingDelivery.unnumbered := by
  induction q generalizing n q' with
  | nil =>
    cases h
    rfl
  | cons d q ih =>
    obtain ⟨n', -, h⟩ := bind_eq_ok.mp h
    obtain ⟨rest, hrest, h⟩ := bind_eq_ok.mp h
    cases h
    rw [map_cons, map_cons, ih hrest]
    rfl

theorem renumberFrom_revisions (h : renumberFrom n q = .ok q') :
    revisions q' = List.range' n q.length := by
  induction q generalizing n q' with
  | nil =>
    cases h
    rfl
  | cons d q ih =>
    obtain ⟨n', hn, h⟩ := okOr_bind.mp h
    obtain ⟨rest, hrest, h⟩ := bind_eq_ok.mp h
    cases h
    obtain ⟨-, rfl⟩ := checkedAdd_eq_some.mp hn
    have hr : rest.map PendingDelivery.revision = List.range' (n + 1) q.length := ih hrest
    rw [revisions, map_cons, length_cons, range'_succ, hr]

theorem renumberFrom_isOk (h : n + q.length ≤ wordMax) : ∃ q', renumberFrom n q = .ok q' := by
  induction q generalizing n with
  | nil => exact ⟨[], rfl⟩
  | cons d q ih =>
    rw [length_cons] at h
    obtain ⟨rest, hrest⟩ := ih (n := n + 1) (by omega)
    refine ⟨{ d with revision := n } :: rest, ?_⟩
    rw [renumberFrom, checkedAdd_of_le (by omega)]
    simp only [okOr, except_ok_bind, hrest]

def assigned (active : Bool) (revision : Nat) : List PendingDelivery → List Nat
  | [] => []
  | d :: queue =>
    if !active && d.payload.isWelcome then 0 :: List.range' 1 queue.length
    else List.range' (revision + 1) (queue.length + 1)

theorem renumberQueue_unnumbered {active : Bool} (h : renumberQueue active n q = .ok q') :
    q'.map PendingDelivery.unnumbered = q.map PendingDelivery.unnumbered := by
  cases q with
  | nil =>
    cases h
    rfl
  | cons d q =>
    simp only [renumberQueue] at h
    split_ifs at h
    · obtain ⟨rest, hrest, h⟩ := bind_eq_ok.mp h
      cases h
      rw [map_cons, map_cons, renumberFrom_unnumbered hrest]
      rfl
    · exact renumberFrom_unnumbered h

theorem renumberQueue_revisions {active : Bool} {r : Nat}
    (h : renumberQueue active (r + 1) q = .ok q') : revisions q' = assigned active r q := by
  cases q with
  | nil =>
    cases h
    rfl
  | cons d q =>
    simp only [renumberQueue] at h
    simp only [assigned]
    split_ifs at h ⊢
    · obtain ⟨rest, hrest, h⟩ := bind_eq_ok.mp h
      cases h
      have hr : rest.map PendingDelivery.revision = List.range' 1 q.length :=
        renumberFrom_revisions hrest
      rw [revisions, map_cons, hr]
    · exact renumberFrom_revisions h

theorem renumberQueue_isOk {active : Bool} {r : Nat} {q : List PendingDelivery}
    (h : r + 1 + q.length ≤ wordMax) : ∃ q', renumberQueue active (r + 1) q = .ok q' := by
  cases q with
  | nil => exact ⟨[], rfl⟩
  | cons d q =>
    simp only [renumberQueue]
    split_ifs
    · rw [length_cons] at h
      obtain ⟨rest, hrest⟩ := renumberFrom_isOk (n := 1) (q := q) (by omega)
      exact ⟨{ d with revision := 0 } :: rest, by rw [hrest, except_ok_bind]⟩
    · exact renumberFrom_isOk h

def renumbered (active : Bool) (revision : Nat) (queue : List PendingDelivery) :
    List PendingDelivery :=
  match checkedAdd revision 1 with
  | none => queue
  | some next =>
    match renumberQueue active next queue with
    | .error _ => queue
    | .ok queue => queue

theorem renumbered_unnumbered (active : Bool) (r : Nat) (q : List PendingDelivery) :
    (renumbered active r q).map PendingDelivery.unnumbered =
      q.map PendingDelivery.unnumbered := by
  unfold renumbered
  split
  · rfl
  · split
    · rfl
    · exact renumberQueue_unnumbered ‹_›

theorem renumbered_cases (active : Bool) (r : Nat) (q : List PendingDelivery) :
    revisions (renumbered active r q) = assigned active r q ∨ renumbered active r q = q := by
  unfold renumbered
  split
  · exact .inr rfl
  · rename_i next hnext
    obtain ⟨-, rfl⟩ := checkedAdd_eq_some.mp hnext
    split
    · exact .inr rfl
    · exact .inl (renumberQueue_revisions ‹_›)

theorem renumbered_nil (active : Bool) (r : Nat) : renumbered active r [] = [] := by
  unfold renumbered
  split <;> rfl

theorem map_renumbered {α : Type} (f : PendingDelivery → α)
    (hf : ∀ d d' : PendingDelivery, d.unnumbered = d'.unnumbered → f d = f d')
    (active : Bool) (r : Nat) (q : List PendingDelivery) :
    (renumbered active r q).map f = q.map f := by
  have h := renumbered_unnumbered active r q
  generalize renumbered active r q = q' at h
  induction q generalizing q' with
  | nil =>
    obtain rfl : q' = [] := by simpa using h
    rfl
  | cons d q ih =>
    cases q' with
    | nil => simp at h
    | cons d' q' =>
      obtain ⟨hhead, htail⟩ := cons_eq_cons.mp h
      rw [map_cons, map_cons, hf d' d hhead, ih q' htail]

theorem compactDeliveryRevisions_ok {room room' : RelayRoom} {c : CodeId}
    (h : compactDeliveryRevisions room c = .ok room') :
    room' = { room with deliveries :=
      room.deliveries.modify c (renumbered (room.memberActive c) (room.revisionOf c)) } := by
  unfold compactDeliveryRevisions at h
  obtain ⟨next, hnext, h⟩ := okOr_bind.mp h
  unfold OrdMap.modify
  cases hq : room.deliveries.get? c with
  | none =>
    rw [hq] at h
    cases h
    rfl
  | some q =>
    rw [hq] at h
    obtain ⟨q', hq', h⟩ := bind_eq_ok.mp h
    cases h
    simp only [renumbered, hnext, hq']

theorem compactDeliveryRevisions_error {room : RelayRoom} {c : CodeId} {reason : String}
    (h : compactDeliveryRevisions room c = .error reason) :
    room.deliveries.modify c (renumbered (room.memberActive c) (room.revisionOf c)) =
      room.deliveries := by
  unfold compactDeliveryRevisions at h
  unfold OrdMap.modify
  cases hq : room.deliveries.get? c with
  | none => rfl
  | some q =>
    rw [hq] at h
    have hsame : renumbered (room.memberActive c) (room.revisionOf c) q = q := by
      unfold renumbered
      cases hnext : checkedAdd (room.revisionOf c) 1 with
      | none => rfl
      | some next =>
        rw [hnext] at h
        cases hq' : renumberQueue (room.memberActive c) next q with
        | error e => simp only [hq']
        | ok q' =>
          simp only [okOr, except_ok_bind, hq'] at h
          cases h
    simp only [hsame, OrdMap.insert_of_get? hq]

theorem compactDeliveryRevisions_isOk {room : RelayRoom} {c : CodeId}
    (h : room.revisionOf c + 1 + (room.queueOf c).length ≤ wordMax) :
    ∃ room', compactDeliveryRevisions room c = .ok room' := by
  unfold compactDeliveryRevisions
  rw [checkedAdd_of_le (by omega)]
  simp only [okOr, except_ok_bind]
  cases hq : room.deliveries.get? c with
  | none => exact ⟨room, rfl⟩
  | some q =>
    have hlen : room.revisionOf c + 1 + q.length ≤ wordMax := by
      simpa [RelayRoom.queueOf, hq] using h
    obtain ⟨q', hq'⟩ := @renumberQueue_isOk (room.memberActive c) _ _ hlen
    exact ⟨{ room with deliveries := room.deliveries.insert c q' }, by
      simp only [hq', except_ok_bind]⟩

end Abyssal.Rooms
