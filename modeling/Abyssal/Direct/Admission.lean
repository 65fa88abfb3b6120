import Abyssal.Base.Runs
import Abyssal.Direct.Pending

/-! The three stages of an admission on the pending queues. A validated plan is always carried
out, each planned queue gains one frame at its end, and a rollback right after the commit
gives back every queue and the byte total. -/

namespace Abyssal.Direct

open OrdMap List Option Function

variable {s s' : State} {queue queue' : List PendingFrame} {plan plan' : PendingQueuePlan}
  {pendingFrame : PendingFrame} {sim sim' : Simulation} {key : PendingKey}
  {pending : PendingQueues} {es : List ((Text × OutboundMessage) × PendingQueuePlan)} {α : Type}

def queueBytes (queue : List PendingFrame) : Nat :=
  (queue.map fun pendingFrame => outboundFrameBytes pendingFrame.frame).sum

def totalBytes (pending : PendingQueues) : Nat := pending.sum fun _ queue => queueBytes queue

@[simp] theorem queueBytes_nil : queueBytes [] = 0 := rfl

@[simp] theorem queueBytes_append (queue queue' : List PendingFrame) :
    queueBytes (queue ++ queue') = queueBytes queue + queueBytes queue' := by
  simp [queueBytes]

@[simp] theorem queueBytes_singleton (pendingFrame : PendingFrame) :
    queueBytes [pendingFrame] = outboundFrameBytes pendingFrame.frame := by
  simp [queueBytes]

theorem queueBytes_eraseIdx {index : Nat} (h : queue[index]? = some pendingFrame) :
    queueBytes (queue.eraseIdx index) + outboundFrameBytes pendingFrame.frame =
      queueBytes queue := by
  obtain ⟨hlt, rfl⟩ := List.getElem?_eq_some_iff.mp h
  have hperm := ((getElem_cons_eraseIdx_perm hlt).map
    fun pendingFrame => outboundFrameBytes pendingFrame.frame).sum_eq
  rw [map_cons, sum_cons] at hperm
  unfold queueBytes
  omega

theorem queueBytes_filter_add (p : PendingFrame → Bool) (queue : List PendingFrame) :
    queueBytes (queue.filter p) + queueBytes (queue.filter fun pendingFrame => !p pendingFrame) =
      queueBytes queue := by
  have hperm := ((filter_append_perm p queue).map
    fun pendingFrame => outboundFrameBytes pendingFrame.frame).sum_eq
  rw [map_append, sum_append] at hperm
  exact hperm

theorem queueOf_insert (pending : PendingQueues) (key key' : PendingKey)
    (queue : List PendingFrame) :
    queueOf (pending.insert key queue) key' = if key = key' then queue else queueOf pending key' := by
  unfold queueOf
  rw [get?_insert]
  split_ifs <;> rfl

theorem queueOf_of_get? (h : pending.get? key = some queue) : queueOf pending key = queue := by
  rw [queueOf, h, getD_some]

theorem get?_of_queueOf_ne_nil (h : queueOf pending key ≠ []) :
    pending.get? key = some (queueOf pending key) := by
  unfold queueOf at h ⊢
  cases hget : pending.get? key with
  | none => rw [hget] at h; exact absurd rfl h
  | some queue => rfl

theorem totalBytes_insert (pending : PendingQueues) (key : PendingKey)
    (queue : List PendingFrame) :
    totalBytes (pending.insert key queue) + queueBytes (queueOf pending key) =
      totalBytes pending + queueBytes queue := by
  have h := pending.sum_insert_add key queue fun _ queue => queueBytes queue
  unfold totalBytes queueOf
  cases hget : pending.get? key <;> simpa [hget] using h

theorem queueBytes_le_totalBytes (pending : PendingQueues) (key : PendingKey) :
    queueBytes (queueOf pending key) ≤ totalBytes pending := by
  unfold queueOf
  cases hget : pending.get? key with
  | none => exact Nat.zero_le _
  | some queue => exact le_sum_of_get? hget fun _ queue => queueBytes queue

theorem queueOf_filter (pending : PendingQueues) (p : PendingKey → List PendingFrame → Bool)
    (key : PendingKey) :
    queueOf (pending.filter p) key =
      if p key (queueOf pending key) then queueOf pending key else [] := by
  unfold queueOf
  rw [get?_filter]
  cases hget : pending.get? key with
  | none => simp
  | some queue => cases hp : p key queue <;> simp [Option.filter, hp]

variable {pending' : PendingQueues}

theorem totalBytes_le
    (h : ∀ key, queueBytes (queueOf pending key) ≤ queueBytes (queueOf pending' key)) :
    totalBytes pending ≤ totalBytes pending' := by
  -- Only queues that weigh something have to be found on the other side.
  have hsplit := pending.sum_filter_add (fun _ queue => decide (0 < queueBytes queue))
    fun _ queue => queueBytes queue
  have hlight : (pending.filter fun _ queue => !decide (0 < queueBytes queue)).sum
      (fun _ queue => queueBytes queue) = 0 := by
    refine sum_eq_zero fun key queue hget => ?_
    rw [get?_filter, filter_eq_some_iff] at hget
    simpa using hget.2
  have hheavy : (pending.filter fun _ queue => decide (0 < queueBytes queue)).sum
      (fun _ queue => queueBytes queue) ≤ totalBytes pending' := by
    refine sum_le_sum_of_get? ?_
    intro key queue hget
    rw [get?_filter, filter_eq_some_iff, decide_eq_true_eq] at hget
    have hle := h key
    rw [queueOf_of_get? hget.1] at hle
    have hne : queueOf pending' key ≠ [] := by
      intro hnil
      rw [hnil, queueBytes_nil] at hle
      omega
    exact ⟨_, get?_of_queueOf_ne_nil hne, hle⟩
  unfold totalBytes at hheavy ⊢
  omega

theorem totalBytes_congr (h : ∀ key, queueOf pending key = queueOf pending' key) :
    totalBytes pending = totalBytes pending' :=
  le_antisymm (totalBytes_le fun key => (congrArg queueBytes (h key)).le)
    (totalBytes_le fun key => (congrArg queueBytes (h key)).ge)

theorem totalBytes_le_add {left right : PendingQueues}
    (h : ∀ key, queueOf pending key = queueOf left key ∨ queueOf pending key = queueOf right key) :
    totalBytes pending ≤ totalBytes left + totalBytes right := by
  have hsplit := pending.sum_filter_add (fun key queue => decide (queue = queueOf left key))
    fun _ queue => queueBytes queue
  have hleft : totalBytes (pending.filter fun key queue => decide (queue = queueOf left key)) ≤
      totalBytes left := by
    apply totalBytes_le
    intro key
    rw [queueOf_filter]
    split_ifs with hkey
    · rw [decide_eq_true_eq] at hkey
      rw [hkey]
    · exact Nat.zero_le _
  have hright : totalBytes (pending.filter fun key queue => !decide (queue = queueOf left key)) ≤
      totalBytes right := by
    apply totalBytes_le
    intro key
    rw [queueOf_filter]
    split_ifs with hkey
    · rw [Bool.not_eq_true', decide_eq_false_iff_not] at hkey
      rw [(h key).resolve_left hkey]
    · exact Nat.zero_le _
  unfold totalBytes at hleft hright ⊢
  omega

/-- What holds of the pending store between operations. -/
structure State.Sound (s : State) : Prop where
  balanced : s.pendingBytes = totalBytes s.pending
  bounded : s.pendingBytes ≤ maxPendingBytes
  occupied : ∀ key queue, s.pending.get? key = some queue → queue ≠ []

theorem foldl_sub_bytes (expired : List PendingFrame) (bytes : Nat) :
    expired.foldl (fun bytes pendingFrame => bytes - outboundFrameBytes pendingFrame.frame) bytes =
      bytes - queueBytes expired := by
  induction expired generalizing bytes with
  | nil => rfl
  | cons pendingFrame expired ih =>
    rw [foldl_cons, ih, queueBytes, queueBytes, map_cons, sum_cons, Nat.sub_sub]

theorem queueOf_retained (pendingMessageTtlMs now : Nat) (pending : PendingQueues)
    (key : PendingKey) :
    queueOf (retainedQueues pendingMessageTtlMs now pending) key =
      (queueOf pending key).filter
        fun pendingFrame => !pendingFrame.expired pendingMessageTtlMs now := by
  unfold retainedQueues
  rw [queueOf_filter]
  have hmap : queueOf (pending.mapValues fun _ queue =>
      queue.filter fun pendingFrame => !pendingFrame.expired pendingMessageTtlMs now) key =
      (queueOf pending key).filter
        fun pendingFrame => !pendingFrame.expired pendingMessageTtlMs now := by
    unfold queueOf
    rw [get?_mapValues]
    cases pending.get? key <;> rfl
  rw [hmap]
  split_ifs with hempty
  · rfl
  · rw [Bool.not_eq_true', Bool.not_eq_false, List.isEmpty_iff] at hempty
    exact hempty.symm

theorem totalBytes_retained (pendingMessageTtlMs now : Nat) (pending : PendingQueues) :
    totalBytes (retainedQueues pendingMessageTtlMs now pending) +
      queueBytes (expiredFrames pendingMessageTtlMs now pending) = totalBytes pending := by
  have hexpired : queueBytes (expiredFrames pendingMessageTtlMs now pending) =
      pending.sum fun _ queue =>
        queueBytes (queue.filter (PendingFrame.expired pendingMessageTtlMs now)) := by
    rw [← pending.sum_values fun queue =>
      queueBytes (queue.filter (PendingFrame.expired pendingMessageTtlMs now))]
    unfold expiredFrames
    induction pending.values with
    | nil => rfl
    | cons queue queues ih =>
      rw [flatMap_cons, queueBytes_append, ih, map_cons, sum_cons]
  have hretained : totalBytes (retainedQueues pendingMessageTtlMs now pending) =
      pending.sum fun _ queue => queueBytes
        (queue.filter fun pendingFrame => !pendingFrame.expired pendingMessageTtlMs now) := by
    rw [← pending.sum_mapValues (fun _ queue =>
      queue.filter fun pendingFrame => !pendingFrame.expired pendingMessageTtlMs now)
        fun _ queue => queueBytes queue]
    apply totalBytes_congr
    intro key
    rw [queueOf_retained]
    unfold queueOf
    rw [get?_mapValues]
    cases pending.get? key <;> rfl
  rw [hexpired, hretained, ← sum_add]
  apply sum_congr
  intro key queue hget
  have h := queueBytes_filter_add (PendingFrame.expired pendingMessageTtlMs now) queue
  omega

theorem State.Sound.prune (h : s.Sound) (pendingMessageTtlMs now : Nat) :
    (prunePendingQueues pendingMessageTtlMs now s).Sound where
  balanced := by
    have htotal := totalBytes_retained pendingMessageTtlMs now s.pending
    rw [← h.balanced] at htotal
    change List.foldl _ _ _ = _
    rw [foldl_sub_bytes]
    exact Nat.sub_eq_of_eq_add htotal.symm
  bounded := by
    change List.foldl _ _ _ ≤ _
    rw [foldl_sub_bytes]
    exact (Nat.sub_le _ _).trans h.bounded
  occupied _ _ hget := by
    change (retainedQueues ..).get? _ = _ at hget
    rw [retainedQueues, get?_filter, filter_eq_some_iff] at hget
    simpa using hget.2

/-- One frame placed at the end of its queue. A queue with room only grows; a full one first
gives up the planned frame, which holds no prekey. -/
inductive Placed (pendingFrame : PendingFrame) (plan : PendingQueuePlan)
    (queue : List PendingFrame) : List PendingFrame → PendingQueuePlan → Prop
  | appended (hroom : queue.length < maxPendingFramesPerRoom)
      (hnone : plan.evictionIndex = none) :
      Placed pendingFrame plan queue (queue ++ [pendingFrame]) plan
  | evicting {index : Nat} {evicted : PendingFrame}
      (hfull : maxPendingFramesPerRoom ≤ queue.length) (hindex : plan.evictionIndex = some index)
      (hget : queue[index]? = some evicted) (hprekey : isPrekeyFrame evicted.frame = false) :
      Placed pendingFrame plan queue (queue.eraseIdx index ++ [pendingFrame])
        { plan with evicted := some evicted }

structure CommitStep (s s' : State) (pendingFrame : PendingFrame)
    (plan plan' : PendingQueuePlan) : Prop where
  placed : Placed pendingFrame plan (queueOf s.pending plan.key)
    (queueOf s'.pending plan.key) plan'
  pending : s'.pending = s.pending.insert plan.key (queueOf s'.pending plan.key)
  bytes : totalBytes s.pending ≤ s.pendingBytes →
    s'.pendingBytes + totalBytes s.pending = s.pendingBytes + totalBytes s'.pending
  rest : s' = { s with pending := s'.pending, pendingBytes := s'.pendingBytes }

theorem pushFrame_ok {incomingBytes : Nat}
    (hvalid : validatedOutboundFrameBytes pendingFrame.frame = some incomingBytes)
    (hbytes : s.pendingBytes + incomingBytes ≤ wordMax) :
    pushFrame s queue pendingFrame plan =
      ({ s with
          pending := s.pending.insert plan.key (queue ++ [pendingFrame])
          pendingBytes := s.pendingBytes + incomingBytes }, .ok plan) := by
  unfold pushFrame
  rw [hvalid]
  simp only
  rw [checkedAdd_of_le hbytes]

structure Mirrors (sim : Simulation) (s : State) : Prop where
  bytes : sim.bytes = s.pendingBytes
  queues : ∀ key, sim.queues key = weigh (queueOf s.pending key)

theorem mirrors_of_simulate {reason : String} (h : simulate s reason = .ok sim) :
    Mirrors sim s := by
  unfold simulate at h
  split_ifs at h
  cases h
  exact ⟨rfl, fun _ => rfl⟩

theorem makeRoom_ok (hmirror : Mirrors sim s) {full : String} {eviction : Option Nat}
    (h : sim.makeRoom key full = .ok (eviction, sim')) :
    ((queueOf s.pending key).length < maxPendingFramesPerRoom ∧ eviction = none ∧ sim' = sim) ∨
      ∃ index evicted, maxPendingFramesPerRoom ≤ (queueOf s.pending key).length ∧
        eviction = some index ∧ (queueOf s.pending key)[index]? = some evicted ∧
        isPrekeyFrame evicted.frame = false ∧
        sim'.bytes = s.pendingBytes - outboundFrameBytes evicted.frame ∧
        sim'.queues = update sim.queues key
          (weigh ((queueOf s.pending key).eraseIdx index)) := by
  have hlength : (sim.queues key).length = (queueOf s.pending key).length := by
    rw [hmirror.queues, weigh, length_map]
  unfold Simulation.makeRoom at h
  rw [hlength] at h
  split_ifs at h with hfull
  · right
    cases hfind : (sim.queues key).findIdx? fun weight => !weight.2 with
    | none => rw [hfind] at h; cases h
    | some index =>
      rw [hfind] at h
      simp only [Except.ok.injEq, Prod.mk.injEq] at h
      obtain ⟨rfl, rfl⟩ := h
      obtain ⟨hlt, hweight, -⟩ := findIdx?_eq_some_iff_getElem.mp hfind
      have hlt' : index < (queueOf s.pending key).length := hlength ▸ hlt
      have hget : (sim.queues key)[index]? =
          some (outboundFrameBytes (queueOf s.pending key)[index].frame,
            isPrekeyFrame (queueOf s.pending key)[index].frame) := by
        rw [hmirror.queues, weigh, getElem?_map, getElem?_eq_getElem hlt', map_some]
      refine ⟨index, (queueOf s.pending key)[index], hfull, rfl,
        getElem?_eq_getElem hlt', ?_, ?_, ?_⟩
      · rw [getElem?_eq_getElem hlt, Option.some.injEq] at hget
        rw [hget] at hweight
        simpa using hweight
      · rw [hget, hmirror.bytes]
        rfl
      · rw [hmirror.queues, weigh, weigh, eraseIdx_map]
  · left
    simp only [Except.ok.injEq, Prod.mk.injEq] at h
    exact ⟨Nat.lt_of_not_le hfull, h.1.symm, h.2.symm⟩

theorem push_ok {frame : OutboundMessage} {budget : String}
    (h : sim.push key frame budget = .ok sim') :
    validatedOutboundFrameBytes frame = some (outboundFrameBytes frame) ∧
      sim.bytes + outboundFrameBytes frame ≤ wordMax ∧
      sim'.bytes = sim.bytes + outboundFrameBytes frame ∧ sim'.bytes ≤ maxPendingBytes ∧
      sim'.queues = update sim.queues key
        (sim.queues key ++ [(outboundFrameBytes frame, isPrekeyFrame frame)]) := by
  obtain ⟨incoming, hincoming, h⟩ := okOr_bind.mp h
  obtain ⟨next, hnext, h⟩ := okOr_bind.mp h
  obtain ⟨hbudget, h⟩ := rejectIf_bind.mp h
  cases h
  obtain rfl := validatedOutboundFrameBytes_eq_some hincoming
  obtain ⟨hle, rfl⟩ := checkedAdd_eq_some.mp hnext
  exact ⟨hincoming, hle, rfl, Nat.le_of_not_lt hbudget, rfl⟩

theorem mirrors_push {sim₁ : Simulation} (hmirror : Mirrors sim s) (key : PendingKey)
    (queue : List PendingFrame) (pendingFrame : PendingFrame)
    (hqueue : sim₁.queues = update sim.queues key (weigh queue))
    (hpush : sim'.queues = update sim₁.queues key (sim₁.queues key ++
      [(outboundFrameBytes pendingFrame.frame, isPrekeyFrame pendingFrame.frame)]))
    (hpending : s'.pending = s.pending.insert key (queue ++ [pendingFrame]))
    (hbytes : sim'.bytes = s'.pendingBytes) : Mirrors sim' s' := by
  refine ⟨hbytes, fun key' => ?_⟩
  rw [hpush, hqueue, hpending, queueOf_insert]
  by_cases hkey : key = key'
  · subst hkey
    rw [update_self, update_self, if_pos rfl]
    simp [weigh]
  · rw [update_of_ne (Ne.symm hkey), update_of_ne (Ne.symm hkey), if_neg hkey]
    exact hmirror.queues key'

variable {e : (Text × OutboundMessage) × PendingQueuePlan}

theorem commitFrame_of_validateStep (hmirror : Mirrors sim s) (h : validateStep sim e = .ok sim')
    (now : Nat) (platform : ClientPlatform) :
    ∃ s' plan', commitFrame s ⟨e.1.2, now, platform⟩ e.2 = (s', .ok plan') ∧
      CommitStep s s' ⟨e.1.2, now, platform⟩ e.2 plan' ∧ Mirrors sim' s' ∧
      s'.pendingBytes ≤ maxPendingBytes ∧ e.2.evicted = none := by
  obtain ⟨⟨eviction, sim₁⟩, hroom, h⟩ := bind_eq_ok.mp h
  obtain ⟨⟨⟩, hindex, h⟩ := bind_eq_ok.mp h
  obtain ⟨⟨⟩, hevicted, hpush⟩ := bind_eq_ok.mp h
  rw [rejectIf_eq_ok, not_not] at hindex
  rw [rejectIf_eq_ok, not_isSome_iff_eq_none] at hevicted
  obtain ⟨hvalid, hword, hbytes, hbudget, hqueues⟩ := push_ok hpush
  rcases makeRoom_ok hmirror hroom with
    ⟨hlt, heviction, hsame⟩ | ⟨index, evicted, hfull, heviction, hget, hprekey, hbytes₁, hqueues₁⟩
  · subst hsame
    have hnone : e.2.evictionIndex = none := hindex ▸ heviction
    rw [hmirror.bytes] at hword hbytes
    have hcommit : commitFrame s ⟨e.1.2, now, platform⟩ e.2 =
        ({ s with
          pending := s.pending.insert e.2.key
            (queueOf s.pending e.2.key ++ [⟨e.1.2, now, platform⟩])
          pendingBytes := s.pendingBytes + outboundFrameBytes e.1.2 }, .ok e.2) := by
      simp only [commitFrame]
      rw [if_neg (Nat.not_le.mpr hlt), hnone, if_neg (by simp)]
      exact pushFrame_ok hvalid hword
    refine ⟨_, _, hcommit, ⟨?_, ?_, ?_, rfl⟩, ?_, ?_, hevicted⟩
    · rw [queueOf_insert, if_pos rfl]
      exact .appended hlt hnone
    · rw [queueOf_insert, if_pos rfl]
    · intro _
      have htotal := totalBytes_insert s.pending e.2.key
        (queueOf s.pending e.2.key ++ [⟨e.1.2, now, platform⟩])
      rw [queueBytes_append, queueBytes_singleton] at htotal
      simp only at htotal ⊢
      omega
    · refine mirrors_push hmirror e.2.key (queueOf s.pending e.2.key) ⟨e.1.2, now, platform⟩ ?_
        hqueues rfl hbytes
      rw [← hmirror.queues, update_eq_self]
    · exact hbytes ▸ hbudget
  · have hsome : e.2.evictionIndex = some index := hindex ▸ heviction
    rw [hbytes₁] at hword hbytes
    have hcommit : commitFrame s ⟨e.1.2, now, platform⟩ e.2 =
        ({ s with
          pending := s.pending.insert e.2.key
            ((queueOf s.pending e.2.key).eraseIdx index ++ [⟨e.1.2, now, platform⟩])
          pendingBytes := s.pendingBytes - outboundFrameBytes evicted.frame +
            outboundFrameBytes e.1.2 }, .ok { e.2 with evicted := some evicted }) := by
      simp only [commitFrame]
      rw [if_pos hfull, hsome, bind_some, hget, map_some]
      simp only [hprekey, Bool.false_eq_true, if_false]
      exact pushFrame_ok hvalid hword
    refine ⟨_, _, hcommit, ⟨?_, ?_, ?_, rfl⟩, ?_, ?_, hevicted⟩
    · rw [queueOf_insert, if_pos rfl]
      exact .evicting hfull hsome hget hprekey
    · rw [queueOf_insert, if_pos rfl]
    · intro hbalanced
      have htotal := totalBytes_insert s.pending e.2.key
        ((queueOf s.pending e.2.key).eraseIdx index ++ [⟨e.1.2, now, platform⟩])
      have herase := queueBytes_eraseIdx hget
      have hle := queueBytes_le_totalBytes s.pending e.2.key
      rw [queueBytes_append, queueBytes_singleton] at htotal
      simp only at htotal ⊢
      omega
    · exact mirrors_push hmirror e.2.key _ ⟨e.1.2, now, platform⟩ hqueues₁ hqueues rfl hbytes
    · exact hbytes ▸ hbudget

structure Commits (now : Nat) (platform : ClientPlatform) (s s' : State)
    (es : List ((Text × OutboundMessage) × PendingQueuePlan)) (plans : List PendingQueuePlan) :
    Prop where
  placed : List.Forall₂ (fun e plan => Placed ⟨e.1.2, now, platform⟩ e.2
    (queueOf s.pending e.2.key) (queueOf s'.pending e.2.key) plan ∧ plan.key = e.2.key ∧
      e.2.evicted = none) es plans
  untouched : ∀ key, (∀ e ∈ es, e.2.key ≠ key) → s'.pending.get? key = s.pending.get? key
  bytes : s.pendingBytes = totalBytes s.pending → s'.pendingBytes = totalBytes s'.pending
  bounded : s.pendingBytes ≤ maxPendingBytes → s'.pendingBytes ≤ maxPendingBytes
  occupied : (∀ key queue, s.pending.get? key = some queue → queue ≠ []) →
    ∀ key queue, s'.pending.get? key = some queue → queue ≠ []
  rest : s' = { s with pending := s'.pending, pendingBytes := s'.pendingBytes }

theorem Placed.key_eq (h : Placed pendingFrame plan queue queue' plan') : plan'.key = plan.key := by
  cases h <;> rfl

theorem Placed.ne_nil (h : Placed pendingFrame plan queue queue' plan') : queue' ≠ [] := by
  cases h <;> simp

theorem CommitStep.queueOf_of_ne (h : CommitStep s s' pendingFrame plan plan')
    (hkey : plan.key ≠ key) : s'.pending.get? key = s.pending.get? key := by
  rw [h.pending, get?_insert_of_ne _ _ hkey]

variable {β : Type}

theorem forall₂_left {R : α → β → Prop} {as : List α} {bs : List β} (h : List.Forall₂ R as bs)
    {a : α} (ha : a ∈ as) : ∃ b, R a b := by
  obtain ⟨b, -, hab⟩ := @forall₂_mem_right _ _ (flip R) _ _ h.flip a ha
  exact ⟨b, hab⟩

variable {now : Nat} {platform : ClientPlatform} {plans : List PendingQueuePlan}

theorem CommitStep.commits {s₁ : State} (hstep : CommitStep s s₁ ⟨e.1.2, now, platform⟩ e.2 plan)
    (hbound : s₁.pendingBytes ≤ maxPendingBytes) (hevicted : e.2.evicted = none)
    (hrest : Commits now platform s₁ s' es plans) (hfresh : ∀ e' ∈ es, e'.2.key ≠ e.2.key) :
    Commits now platform s s' (e :: es) (plan :: plans) where
  placed := by
    refine .cons ⟨?_, hstep.placed.key_eq, hevicted⟩ ?_
    · have hsame : queueOf s'.pending e.2.key = queueOf s₁.pending e.2.key := by
        rw [queueOf, hrest.untouched _ hfresh, queueOf]
      rw [hsame]
      exact hstep.placed
    · refine ((forall₂_and_left (p := (· ∈ es)) _ _).mpr ⟨fun _ he => he, hrest.placed⟩).imp ?_
      rintro e' plan' ⟨he', hplaced, hkey, hnone⟩
      have hsame : queueOf s₁.pending e'.2.key = queueOf s.pending e'.2.key := by
        rw [queueOf, hstep.queueOf_of_ne (Ne.symm (hfresh e' he')), queueOf]
      rw [hsame] at hplaced
      exact ⟨hplaced, hkey, hnone⟩
  untouched key hkey := by
    rw [hrest.untouched key fun e' he' => hkey e' (mem_cons_of_mem _ he'),
      hstep.queueOf_of_ne (hkey e (mem_cons_self ..))]
  bytes hbalanced := by
    apply hrest.bytes
    have h := hstep.bytes hbalanced.ge
    omega
  bounded _ := hrest.bounded hbound
  occupied hoccupied := by
    apply hrest.occupied
    intro key queue hget
    by_cases hkey : e.2.key = key
    · subst hkey
      rw [← queueOf_of_get? hget]
      exact hstep.placed.ne_nil
    · rw [hstep.queueOf_of_ne hkey] at hget
      exact hoccupied key queue hget
  rest := by
    rw [hrest.rest, hstep.rest]

theorem Commits.others (h : Commits now platform s s' es plans) :
    s'.accounts = s.accounts ∧ s'.replayIds = s.replayIds ∧ s'.prekeyLeases = s.prekeyLeases := by
  rw [h.rest]
  exact ⟨rfl, rfl, rfl⟩

theorem Commits.nil (now : Nat) (platform : ClientPlatform) (s : State) :
    Commits now platform s s [] [] where
  placed := .nil
  untouched _ _ := rfl
  bytes h := h
  bounded h := h
  occupied h := h
  rest := rfl

theorem commits_of_validate (hmirror : Mirrors sim s) (hnodup : (es.map fun e => e.2.key).Nodup)
    (h : foldChecked validateStep sim es = .ok sim') (now : Nat) (platform : ClientPlatform) :
    ∃ s' plans, commitFrames now platform s es = (s', .ok plans) ∧
      Commits now platform s s' es plans := by
  induction es generalizing sim s with
  | nil => exact ⟨s, [], rfl, .nil now platform s⟩
  | cons e es ih =>
    obtain ⟨sim₁, hfirst, hlater⟩ := bind_eq_ok.mp h
    obtain ⟨hnot, hnodup⟩ := nodup_cons.mp hnodup
    obtain ⟨s₁, plan, hcommit, hstep, hmirror₁, hbound, hevicted⟩ :=
      commitFrame_of_validateStep hmirror hfirst now platform
    obtain ⟨s', plans, hcommits, hrest⟩ := ih hmirror₁ hnodup hlater
    refine ⟨s', plan :: plans, ?_, hstep.commits hbound hevicted hrest ?_⟩
    · simp only [commitFrames, hcommit, hcommits]
    · intro e' he' heq
      exact hnot (mem_map.mpr ⟨e', he', heq⟩)

theorem rposition_append_singleton {p : α → Bool} (as : List α) {a : α} (h : p a = true) :
    rposition p (as ++ [a]) = some as.length := by
  induction as with
  | nil => simp [rposition, h]
  | cons b as ih => simp [rposition, ih]

theorem Placed.undo (h : Placed pendingFrame plan queue queue' plan') (hnone : plan.evicted = none)
    {bytes : Nat} (hle : queueBytes queue' ≤ bytes)
    (hword : bytes - queueBytes queue' + queueBytes queue ≤ wordMax) :
    restoreEvicted plan' (withdraw pendingFrame.frame queue' bytes).1
        (withdraw pendingFrame.frame queue' bytes).2 =
      (queue, bytes - queueBytes queue' + queueBytes queue) := by
  have hsame : sameMessage pendingFrame.frame pendingFrame = true := by simp [sameMessage]
  have hwithdraw : ∀ kept, withdraw pendingFrame.frame (kept ++ [pendingFrame]) bytes =
      (kept, bytes - outboundFrameBytes pendingFrame.frame) := by
    intro kept
    rw [withdraw, rposition_append_singleton kept hsame]
    simp only [getElem?_concat_length, map_some, getD_some, eraseIdx_append_of_length_le le_rfl,
      Nat.sub_self, eraseIdx_cons_zero, append_nil]
  cases h with
  | appended hroom hindex =>
    rw [queueBytes_append, queueBytes_singleton] at hle ⊢
    rw [hwithdraw, restoreEvicted, hnone]
    simp only [Prod.mk.injEq, true_and]
    omega
  | @evicting index evicted hfull hindex hget hprekey =>
    have herase := queueBytes_eraseIdx hget
    rw [queueBytes_append, queueBytes_singleton] at hle hword ⊢
    obtain ⟨hlt, rfl⟩ := List.getElem?_eq_some_iff.mp hget
    have hlength := length_eraseIdx_of_lt hlt
    rw [hwithdraw]
    simp only [restoreEvicted, hindex, getD_some, Prod.mk.injEq]
    constructor
    · rw [Nat.min_eq_left (by omega)]
      exact insertIdx_eraseIdx_getElem hlt
    · rw [saturatingAdd, Nat.min_eq_left] <;> omega

/-- Somewhere between the committed store `s'` and the store `s` from before the commit: the
queues of `es` still have to be given back. -/
structure Midway (s s' t : State) (es : List ((Text × OutboundMessage) × PendingQueuePlan)) :
    Prop where
  balanced : t.pendingBytes = totalBytes t.pending
  ahead : ∀ e ∈ es, queueOf t.pending e.2.key = queueOf s'.pending e.2.key
  behind : ∀ key, (∀ e ∈ es, e.2.key ≠ key) → queueOf t.pending key = queueOf s.pending key

variable {t : State}

theorem Midway.step {es : List ((Text × OutboundMessage) × PendingQueuePlan)}
    (h : Midway s s' t (e :: es)) (hnot : ∀ e' ∈ es, e'.2.key ≠ e.2.key)
    (hplaced : Placed ⟨e.1.2, now, platform⟩ e.2 (queueOf s.pending e.2.key)
      (queueOf s'.pending e.2.key) plan) (hkey : plan.key = e.2.key) (hnone : e.2.evicted = none)
    (hword : totalBytes s.pending + totalBytes s'.pending ≤ wordMax) :
    Midway s s' (rollbackFrame t (e.1, plan)) es ∧
      rollbackFrame t (e.1, plan) = { t with
        pending := (rollbackFrame t (e.1, plan)).pending
        pendingBytes := (rollbackFrame t (e.1, plan)).pendingBytes } := by
  have hahead := h.ahead e (mem_cons_self ..)
  have hget : t.pending.get? e.2.key = some (queueOf s'.pending e.2.key) := by
    rw [← hahead]
    apply get?_of_queueOf_ne_nil
    rw [hahead]
    exact hplaced.ne_nil
  -- the store with this queue given back still mixes the two, so its total is a word
  have htotal := totalBytes_insert t.pending e.2.key (queueOf s.pending e.2.key)
  rw [hahead] at htotal
  have hmixed : totalBytes (t.pending.insert e.2.key (queueOf s.pending e.2.key)) ≤
      totalBytes s.pending + totalBytes s'.pending := by
    apply totalBytes_le_add
    intro key
    rw [queueOf_insert]
    split_ifs with hsame
    · exact .inl (by rw [hsame])
    · by_cases hkey : ∃ e' ∈ e :: es, e'.2.key = key
      · obtain ⟨e, he, rfl⟩ := hkey
        exact .inr (h.ahead e he)
      · exact .inl (h.behind key fun e he heq => hkey ⟨e, he, heq⟩)
  have hle : queueBytes (queueOf s'.pending e.2.key) ≤ t.pendingBytes := by
    rw [h.balanced, ← hahead]
    exact queueBytes_le_totalBytes t.pending e.2.key
  have hback : t.pendingBytes - queueBytes (queueOf s'.pending e.2.key) +
      queueBytes (queueOf s.pending e.2.key) =
        totalBytes (t.pending.insert e.2.key (queueOf s.pending e.2.key)) := by
    rw [h.balanced] at hle ⊢
    omega
  have hundo := hplaced.undo hnone hle (by omega)
  have hstep : rollbackFrame t (e.1, plan) =
      { t with
        pending := t.pending.insert e.2.key (queueOf s.pending e.2.key)
        pendingBytes := totalBytes (t.pending.insert e.2.key (queueOf s.pending e.2.key)) } := by
    rw [hback] at hundo
    simp only [rollbackFrame, hkey, hget]
    simp only at hundo
    rw [hundo]
  rw [hstep]
  refine ⟨⟨rfl, ?_, ?_⟩, rfl⟩
  · intro e' he'
    rw [queueOf_insert, if_neg (Ne.symm (hnot e' he'))]
    exact h.ahead e' (mem_cons_of_mem _ he')
  · intro key hfresh
    rw [queueOf_insert]
    split_ifs with hsame
    · rw [hsame]
    · refine h.behind key fun e' he' => ?_
      rcases mem_cons.mp he' with rfl | he'
      · exact hsame
      · exact hfresh e' he'

theorem Midway.rollback {es : List ((Text × OutboundMessage) × PendingQueuePlan)}
    (h : Midway s s' t es) (hnodup : (es.map fun e => e.2.key).Nodup)
    (hplaced : List.Forall₂ (fun e plan => Placed ⟨e.1.2, now, platform⟩ e.2
      (queueOf s.pending e.2.key) (queueOf s'.pending e.2.key) plan ∧ plan.key = e.2.key ∧
        e.2.evicted = none) es plans)
    (hword : totalBytes s.pending + totalBytes s'.pending ≤ wordMax) :
    Midway s s' (((es.map Prod.fst).zip plans).foldl rollbackFrame t) [] ∧
      ((es.map Prod.fst).zip plans).foldl rollbackFrame t = { t with
        pending := (((es.map Prod.fst).zip plans).foldl rollbackFrame t).pending
        pendingBytes := (((es.map Prod.fst).zip plans).foldl rollbackFrame t).pendingBytes } := by
  induction hplaced generalizing t with
  | nil => exact ⟨h, rfl⟩
  | @cons e plan es plans hhead _ ih =>
    obtain ⟨hnot, hnodup⟩ := nodup_cons.mp hnodup
    have hfresh : ∀ e' ∈ es, e'.2.key ≠ e.2.key := fun e' he' heq =>
      hnot (mem_map.mpr ⟨e', he', heq⟩)
    obtain ⟨hmidway, hrest⟩ := h.step hfresh hhead.1 hhead.2.1 hhead.2.2 hword
    obtain ⟨hdone, hrest'⟩ := ih hmidway hnodup
    rw [map_cons, zip_cons_cons, foldl_cons]
    refine ⟨hdone, ?_⟩
    rw [hrest', hrest]

/-- A rollback right after a commit gives back the queues and the byte total, however the rest
of the state changed in between. -/
theorem rollback_restores {es : List ((Text × OutboundMessage) × PendingQueuePlan)}
    (hsound : s.Sound) (hcommits : Commits now platform s s' es plans)
    (hnodup : (es.map fun e => e.2.key).Nodup) (hpending : t.pending = s'.pending)
    (hbytes : t.pendingBytes = s'.pendingBytes) :
    rollbackPendingFrames t (es.map Prod.fst) plans =
      { t with pending := s.pending, pendingBytes := s.pendingBytes } := by
  have hbalanced := hcommits.bytes hsound.balanced
  have hword : totalBytes s.pending + totalBytes s'.pending ≤ wordMax := by
    have hleft := hsound.bounded
    have hright := hcommits.bounded hsound.bounded
    have hmax : maxPendingBytes + maxPendingBytes ≤ wordMax := by decide
    rw [← hsound.balanced, ← hbalanced]
    omega
  have hmidway : Midway s s' t es := by
    refine ⟨?_, ?_, ?_⟩
    · rw [hbytes, hpending, hbalanced]
    · intro e _
      rw [hpending]
    · intro key hfresh
      rw [hpending, queueOf, hcommits.untouched key hfresh, queueOf]
  obtain ⟨hdone, hrest⟩ := hmidway.rollback hnodup hcommits.placed hword
  unfold rollbackPendingFrames
  simp only
  generalize ((es.map Prod.fst).zip plans).foldl rollbackFrame t = u at hdone hrest
  have hqueues : ∀ key, queueOf u.pending key = queueOf s.pending key := fun key =>
    hdone.behind key fun e he => absurd he (not_mem_nil)
  have hpending' : (u.pending.filter fun _ queue => !queue.isEmpty) = s.pending := by
    apply ext_get?
    intro key
    have hkey := hqueues key
    rw [get?_filter]
    cases hs : s.pending.get? key with
    | none =>
      rw [queueOf, queueOf, hs] at hkey
      cases hu : u.pending.get? key with
      | none => rfl
      | some queue =>
        rw [hu] at hkey
        change queue = [] at hkey
        rw [hkey]
        rfl
    | some queue =>
      have hne := hsound.occupied key queue hs
      rw [queueOf_of_get? hs] at hkey
      have hu := get?_of_queueOf_ne_nil (hkey ▸ hne)
      rw [hu, hkey]
      simp [Option.filter, hne]
  rw [hrest]
  simp only [hpending']
  rw [hdone.balanced, totalBytes_congr hqueues, ← hsound.balanced]

end Abyssal.Direct
