import Abyssal.Direct.Steps

/-! One call of the router either leaves the relay as pruning alone would, or delivers the
message to each expected recipient exactly once. -/

namespace Abyssal.Direct

def prunedAt (setup : Setup) (readings : List Nat) (s : State) : State :=
  readings.foldl (fun s now => prunePendingQueues setup.pendingMessageTtlMs now s) s

/-- Nothing but pruning: at the readings the call had made, if it had made any. -/
structure Unmoved (setup : Setup) (clock : RouteClock) (s s' : State) : Prop where
  queues : ∃ readings ∈ [[], [clock.admission], [clock.admission, clock.preflight]],
    s'.pending = (prunedAt setup readings s).pending ∧
      s'.pendingBytes = (prunedAt setup readings s).pendingBytes
  replayIds : s'.replayIds = s.replayIds ∨
    s'.replayIds = freshReplayIds clock.register s.replayIds
  accounts : s'.accounts = s.accounts

/-- One more frame at the end. Only a full queue gives up a frame, and then a single one that
holds no prekey. -/
def Appended (queue queue' : List PendingFrame) (pendingFrame : PendingFrame) : Prop :=
  (queue.length < maxPendingFramesPerRoom ∧ queue' = queue ++ [pendingFrame]) ∨
    (maxPendingFramesPerRoom ≤ queue.length ∧ ∃ index evicted, queue[index]? = some evicted ∧
      isPrekeyFrame evicted.frame = false ∧ queue' = queue.eraseIdx index ++ [pendingFrame])

/-- The message has reached the queue of each of its recipients, and no other queue. -/
structure Delivered (setup : Setup) (clock : RouteClock) (s s' : State) (a : RouteArgs)
    (p : Prepared) : Prop where
  appended : ∀ e ∈ p.frames, Appended
    (queueOf (prunedAt setup [clock.admission, clock.preflight] s).pending ⟨a.chatId, e.1⟩)
    (queueOf s'.pending ⟨a.chatId, e.1⟩)
    ⟨e.2, clock.commit, p.sender.client.platform⟩
  others : ∀ key, (∀ recipient ∈ p.recipients, key ≠ ⟨a.chatId, recipient⟩) →
    s'.pending.get? key =
      (prunedAt setup [clock.admission, clock.preflight] s).pending.get? key
  registered :
    (freshReplayIds clock.register s.replayIds).get? (a.replayKey p.sender.client.username) =
      none ∧
    s'.replayIds = (freshReplayIds clock.register s.replayIds).insert
      (a.replayKey p.sender.client.username) clock.register
  identity : ∃ account account' envelope identityPublic,
    s.accounts.get? p.sender.client.codeId = some account ∧
    account.Records account' a.identityUpdate envelope identityPublic ∧
    s'.accounts = s.accounts.insert p.sender.client.codeId account'

theorem Placed.appended_of {pendingFrame : PendingFrame} {plan plan' : PendingQueuePlan}
    {queue queue' : List PendingFrame} (h : Placed pendingFrame plan queue queue' plan') :
    Appended queue queue' pendingFrame := by
  cases h with
  | appended hroom hnone => exact .inl ⟨hroom, rfl⟩
  | evicting hfull hindex hget hprekey => exact .inr ⟨hfull, _, _, hget, hprekey, rfl⟩

/-- For every state of the relay and every call of the router: a rejected message leaves
queues, byte total, replay table and identity states as pruning would, and an accepted one is
delivered, registered and recorded in its sender's identity state once. -/
theorem route_all_or_nothing (setup : Setup) (env : Surroundings) (s : RelayState)
    (a : RouteArgs) (clock : RouteClock) :
    (∀ reason, (routeEncryptedMessageWithDirectory setup env s.toState a clock).2 =
        .error reason →
      Unmoved setup clock s.toState
        (routeEncryptedMessageWithDirectory setup env s.toState a clock).1) ∧
    ((routeEncryptedMessageWithDirectory setup env s.toState a clock).2 = .ok () →
      ∃ p : Prepared, p.Checked setup env s.accounts a ∧ p.recipients.Nodup ∧
        Delivered setup clock s.toState
          (routeEncryptedMessageWithDirectory setup env s.toState a clock).1 a p) := by
  have hrouted := routed setup env s.sound a clock
  generalize s.toState = s at hrouted ⊢
  generalize routeEncryptedMessageWithDirectory setup env s a clock = r at hrouted ⊢
  obtain ⟨s', result⟩ := r
  simp only at hrouted ⊢
  cases hrouted with
  | refused reason =>
    refine ⟨fun _ _ => ⟨⟨[], by simp, rfl, rfl⟩, .inl rfl, rfl⟩, nofun⟩
  | unleased reason =>
    refine ⟨fun _ _ => ⟨⟨[clock.admission], by simp, rfl, rfl⟩, .inl rfl, rfl⟩, nofun⟩
  | unplanned reason =>
    refine ⟨fun _ _ => ⟨⟨[clock.admission, clock.preflight], by simp, rfl, rfl⟩, .inl rfl, rfl⟩,
      nofun⟩
  | undone reason =>
    refine ⟨fun _ _ => ⟨⟨[clock.admission, clock.preflight], by simp, rfl, rfl⟩, .inr rfl, rfl⟩,
      nofun⟩
  | @accepted p s₁ es plans accounts' hchecked hleased hframes hkeys hcommits hnew hidentity =>
    refine ⟨nofun, fun _ => ⟨p, hchecked, hchecked.nodup, ?_, ?_, ⟨hnew, rfl⟩, ?_⟩⟩
    · intro e he
      rw [← hframes] at he
      obtain ⟨planned, hplanned, rfl⟩ := List.mem_map.mp he
      obtain ⟨plan, hplaced, -, -⟩ := forall₂_left hcommits.placed hplanned
      rw [hkeys planned hplanned] at hplaced
      exact hplaced.appended_of
    · intro key hkey
      refine hcommits.untouched key ?_
      intro planned hplanned heq
      have hmem : planned.1.1 ∈ p.recipients := by
        rw [← hchecked.addressed, ← hframes, List.map_map]
        exact List.mem_map_of_mem hplanned
      rw [hkeys planned hplanned] at heq
      exact hkey _ hmem heq.symm
    · obtain ⟨envelope, identityPublic, account, account', haccount, -, -, hrecords, heq⟩ :=
        applyIdentityState_ok hidentity
      exact ⟨account, account', envelope, identityPublic, haccount, hrecords, heq⟩

end Abyssal.Direct
