import Abyssal.Direct.Routing

/-! The operations of the relay as one step function, and what each step can do. -/

namespace Abyssal.Direct

variable {s s' : State} {setup : Setup}

inductive Op
  | lease (a : LeaseArgs) (clock : LeaseClock)
  | release (a : ReleaseArgs)
  | route (a : RouteArgs) (clock : RouteClock)
  | acknowledge (a : AckArgs) (now : Nat)
  | prune (now : Nat)

structure Call where
  env : Surroundings
  op : Op

def exec (setup : Setup) (s : State) (call : Call) : State × Except String Unit :=
  match call.op with
  | .lease a clock =>
    ((leasePrekey setup call.env s a clock).1,
      (leasePrekey setup call.env s a clock).2.map fun _ => ())
  | .release a => releaseUnusedPrekeyLease call.env s a
  | .route a clock => routeEncryptedMessageWithDirectory setup call.env s a clock
  | .acknowledge a now => acknowledgeMessage setup call.env s a now
  | .prune now => (prunePendingQueues setup.pendingMessageTtlMs now s, .ok ())

def step (setup : Setup) (s : State) (call : Call) : State := (exec setup s call).1

def start (accounts : Accounts) : State := ⟨accounts, .empty, 0, .empty, .empty⟩

def after (setup : Setup) (accounts : Accounts) (calls : List Call) : State :=
  runFrom (step setup) (start accounts) calls

inductive Leased (setup : Setup) (env : Surroundings) (s : State) (a : LeaseArgs)
    (clock : LeaseClock) : State → Prop
  | refused : Leased setup env s a clock s
  | pruned : Leased setup env s a clock (prunePendingQueues setup.pendingMessageTtlMs clock.prune s)
  | unchanged : Leased setup env s a clock
      { prunePendingQueues setup.pendingMessageTtlMs clock.prune s with
        prekeyLeases := prunePrekeyLeases
          (prunePendingQueues setup.pendingMessageTtlMs clock.prune s).prekeyLeases
          (prunePendingQueues setup.pendingMessageTtlMs clock.prune s).pending clock.leases }
  | granted {senderUsername prekeyId : Text} {codeId : CodeId} {account : Account}
      {pool : List Text} (haccount : findAccount s.accounts a.recipientUsername =
        some (codeId, account))
      (hpool : setup.crypto.prekeyIds account.identityPublic = some pool)
      (hmem : prekeyId ∈ pool)
      (hfree : (prunePrekeyLeases
          (prunePendingQueues setup.pendingMessageTtlMs clock.prune s).prekeyLeases
          (prunePendingQueues setup.pendingMessageTtlMs clock.prune s).pending
          clock.leases).get? ⟨codeId, prekeyId⟩ = none) :
      Leased setup env s a clock
        { prunePendingQueues setup.pendingMessageTtlMs clock.prune s with
          prekeyLeases := (prunePrekeyLeases
            (prunePendingQueues setup.pendingMessageTtlMs clock.prune s).prekeyLeases
            (prunePendingQueues setup.pendingMessageTtlMs clock.prune s).pending
            clock.leases).insert ⟨codeId, prekeyId⟩
              ⟨a.chatId, a.messageId, senderUsername, a.recipientUsername, clock.leases⟩ }

variable {now : Nat}

theorem chooseLease_ok {leases leases' : PrekeyLeases} {a : LeaseArgs} {senderUsername : Text}
    {codeId : CodeId} {account : Account} {pool : List Text} {reply : LeaseReply}
    (h : chooseLease setup now leases a senderUsername codeId account pool = .ok (reply, leases')) :
    leases' = leases ∨ ∃ prekeyId ∈ pool, leases.get? ⟨codeId, prekeyId⟩ = none ∧
      leases' = leases.insert ⟨codeId, prekeyId⟩
        ⟨a.chatId, a.messageId, senderUsername, a.recipientUsername, now⟩ := by
  unfold chooseLease at h
  simp only at h
  split at h
  · cases h
    exact .inl rfl
  · cases h
  · split_ifs at h
    cases hfind : pool.find? fun id => !leases.contains ⟨codeId, id⟩ with
    | none => rw [hfind] at h; cases h
    | some prekeyId =>
      rw [hfind] at h
      cases h
      have hfree := List.find?_some hfind
      rw [Bool.not_eq_true', OrdMap.contains_eq_false] at hfree
      exact .inr ⟨prekeyId, List.mem_of_find?_eq_some hfind, hfree, rfl⟩

theorem leased (setup : Setup) (env : Surroundings) (s : State) (a : LeaseArgs)
    (clock : LeaseClock) :
    Leased setup env s a clock (leasePrekey setup env s a clock).1 := by
  unfold leasePrekey
  cases leaseChecks env s.accounts a with
  | error reason => exact .refused
  | ok senderUsername =>
    simp only
    cases haccount : findAccount
        (prunePendingQueues setup.pendingMessageTtlMs clock.prune s).accounts
        a.recipientUsername with
    | none => exact .pruned
    | some e =>
      obtain ⟨codeId, account⟩ := e
      simp only
      cases hpool : setup.crypto.prekeyIds account.identityPublic with
      | none => exact .pruned
      | some pool =>
        simp only
        cases hchoose : chooseLease setup clock.leases (prunePrekeyLeases
            (prunePendingQueues setup.pendingMessageTtlMs clock.prune s).prekeyLeases
            (prunePendingQueues setup.pendingMessageTtlMs clock.prune s).pending clock.leases)
            a senderUsername codeId account pool with
        | error reason => exact .unchanged
        | ok r =>
          obtain ⟨reply, leases'⟩ := r
          rcases chooseLease_ok hchoose with rfl | ⟨prekeyId, hmem, hfree, rfl⟩
          · exact .unchanged
          · exact .granted haccount hpool hmem hfree

theorem released (env : Surroundings) (s : State) (a : ReleaseArgs) :
    (releaseUnusedPrekeyLease env s a).1 = s ∨ ∃ key lease, s.prekeyLeases.get? key = some lease ∧
      pendingContainsLeasedFrame s.pending key lease = false ∧
      (releaseUnusedPrekeyLease env s a).1 =
        { s with prekeyLeases := s.prekeyLeases.erase key } := by
  unfold releaseUnusedPrekeyLease
  cases hchecks : releaseChecks env s a with
  | error reason => exact .inl rfl
  | ok key =>
    obtain ⟨⟨⟩, -, hchecks⟩ := bind_eq_ok.mp hchecks
    obtain ⟨client, -, hchecks⟩ := bind_eq_ok.mp hchecks
    obtain ⟨⟨codeId, account⟩, -, hchecks⟩ := bind_eq_ok.mp hchecks
    obtain ⟨lease, hlease, hchecks⟩ := okOr_bind.mp hchecks
    obtain ⟨⟨⟩, hbound, hchecks⟩ := bind_eq_ok.mp hchecks
    cases hchecks
    rw [rejectIf_eq_ok, not_or] at hbound
    exact .inr ⟨_, lease, hlease, (Bool.not_eq_true _).mp hbound.2, rfl⟩

structure Acknowledged (setup : Setup) (s : State) (a : AckArgs) (client : ClientHandle)
    (s' : State) : Prop where
  identity : applyIdentityStateLockedWithConsumed setup.crypto s.accounts client.codeId
    a.identityUpdate = .ok s'.accounts
  queue : ∃ queue index pendingFrame, s.pending.get? ⟨a.chatId, client.username⟩ = some queue ∧
    queue[index]? = some pendingFrame ∧ a.acknowledges pendingFrame = true ∧
    s'.pending = (if (queue.eraseIdx index).isEmpty then
      s.pending.erase ⟨a.chatId, client.username⟩
      else s.pending.insert ⟨a.chatId, client.username⟩ (queue.eraseIdx index)) ∧
    s'.pendingBytes = s.pendingBytes - outboundFrameBytes pendingFrame.frame
  pool : ∃ nextPublic nextPool,
    decodeExact setup.crypto a.identityPublicB64 identityPublicBytes = .ok nextPublic ∧
    setup.crypto.prekeyIds nextPublic = some nextPool ∧
    leasesForRecipientMissingFromPool s.prekeyLeases client.codeId nextPool a.consumed = false
  claim : a.usedPrekeyId ≠ [] → ∃ lease,
    s.prekeyLeases.get? ⟨client.codeId, a.usedPrekeyId⟩ = some lease ∧
    lease.boundTo a.chatId a.messageId a.originalSender client.username = true
  leases : s'.prekeyLeases = if a.usedPrekeyId = [] then s.prekeyLeases
    else s.prekeyLeases.erase ⟨client.codeId, a.usedPrekeyId⟩
  replayIds : s'.replayIds = s.replayIds

variable {a : AckArgs}

theorem ackIndex_ok {queue : List PendingFrame} {index : Nat} (h : ackIndex a queue = .ok index) :
    ∃ pendingFrame, queue[index]? = some pendingFrame ∧ a.acknowledges pendingFrame = true := by
  unfold ackIndex at h
  split at h
  · rename_i index' hfilter
    cases h
    have hmem : index ∈ (List.range queue.length).filter
        fun i => (queue[i]?).any a.acknowledges := by
      rw [hfilter]
      exact List.mem_singleton_self _
    have hany := (List.mem_filter.mp hmem).2
    cases hget : queue[index]? with
    | none => rw [hget] at hany; cases hany
    | some pendingFrame =>
      rw [hget] at hany
      exact ⟨pendingFrame, rfl, hany⟩
  · cases h

variable {client : ClientHandle}

theorem acknowledged (h : acknowledgePlan setup s a client = .ok s') :
    Acknowledged setup s a client s' := by
  obtain ⟨queue, hqueue, h⟩ := okOr_bind.mp h
  obtain ⟨index, hindex, h⟩ := bind_eq_ok.mp h
  obtain ⟨⟨⟩, -, h⟩ := bind_eq_ok.mp h
  obtain ⟨⟨⟩, hclaim, h⟩ := bind_eq_ok.mp h
  obtain ⟨nextPublic, hpublic, h⟩ := bind_eq_ok.mp h
  obtain ⟨nextPool, hpool, h⟩ := okOr_bind.mp h
  obtain ⟨⟨⟩, hmissing, h⟩ := bind_eq_ok.mp h
  obtain ⟨accounts, hidentity, h⟩ := bind_eq_ok.mp h
  obtain ⟨pendingFrame, hget, hmatch⟩ := ackIndex_ok hindex
  rw [rejectIf_eq_ok, Bool.not_eq_true] at hmissing
  cases h
  refine ⟨hidentity, ⟨queue, index, pendingFrame, hqueue, hget, hmatch, rfl, ?_⟩,
    ⟨nextPublic, nextPool, hpublic, hpool, hmissing⟩, ?_, rfl, rfl⟩
  · simp only [hget, Option.map_some, Option.getD_some]
  · intro hused
    rw [checkClaim, if_neg hused] at hclaim
    obtain ⟨lease, hlease, hbound⟩ := okOr_bind.mp hclaim
    rw [rejectIf_eq_ok, not_not] at hbound
    exact ⟨lease, hlease, hbound⟩

theorem acknowledge_cases (setup : Setup) (env : Surroundings) (s : State) (a : AckArgs)
    (now : Nat) :
    (acknowledgeMessage setup env s a now).1 =
        prunePendingQueues setup.pendingMessageTtlMs now s ∨
      ∃ client, env.clients.get? a.senderId = some client ∧
        Acknowledged setup (prunePendingQueues setup.pendingMessageTtlMs now s) a client
          (acknowledgeMessage setup env s a now).1 := by
  unfold acknowledgeMessage
  simp only
  cases haccess : ackAccess setup env
      (prunePendingQueues setup.pendingMessageTtlMs now s).accounts a with
  | error reason => exact .inl rfl
  | ok client =>
    simp only
    cases hplan : acknowledgePlan setup (prunePendingQueues setup.pendingMessageTtlMs now s) a
        client with
    | error reason => exact .inl rfl
    | ok s' =>
      refine .inr ⟨client, ?_, acknowledged hplan⟩
      obtain ⟨⟨⟩, -, haccess⟩ := bind_eq_ok.mp haccess
      obtain ⟨client', hclient, haccess⟩ := okOr_bind.mp haccess
      obtain ⟨access, -, haccess⟩ := bind_eq_ok.mp haccess
      obtain ⟨⟨⟩, -, haccess⟩ := bind_eq_ok.mp haccess
      obtain ⟨identityPublic, -, haccess⟩ := bind_eq_ok.mp haccess
      obtain ⟨signature, -, haccess⟩ := bind_eq_ok.mp haccess
      obtain ⟨⟨⟩, -, haccess⟩ := bind_eq_ok.mp haccess
      cases haccess
      exact hclient

theorem Acknowledged.sound (h : Acknowledged setup s a client s') (hsound : s.Sound) :
    s'.Sound := by
  obtain ⟨queue, index, pendingFrame, hqueue, hget, -, hpending, hbytes⟩ := h.queue
  have herase := queueBytes_eraseIdx hget
  have hold := OrdMap.sum_erase_add hqueue fun _ queue => queueBytes queue
  refine ⟨?_, ?_, ?_⟩
  · rw [hbytes, hpending, hsound.balanced]
    split_ifs with hempty
    · rw [List.isEmpty_iff] at hempty
      rw [hempty, queueBytes_nil] at herase
      unfold totalBytes
      omega
    · have hnew := s.pending.sum_insert ⟨a.chatId, client.username⟩ (queue.eraseIdx index)
        fun _ queue => queueBytes queue
      unfold totalBytes
      omega
  · rw [hbytes]
    exact (Nat.sub_le _ _).trans hsound.bounded
  · intro key queue' hget'
    rw [hpending] at hget'
    split_ifs at hget' with hempty
    · exact hsound.occupied key queue' (OrdMap.get?_of_erase hget')
    · rcases OrdMap.get?_insert_cases hget' with ⟨rfl, rfl⟩ | ⟨-, hget'⟩
      · simpa using hempty
      · exact hsound.occupied key queue' hget'

theorem State.Sound.congr (h : s.Sound) (hpending : s'.pending = s.pending)
    (hbytes : s'.pendingBytes = s.pendingBytes) : s'.Sound := by
  refine ⟨?_, ?_, ?_⟩
  · rw [hbytes, hpending, h.balanced]
  · rw [hbytes]
    exact h.bounded
  · rw [hpending]
    exact h.occupied

theorem Commits.sound {platform : ClientPlatform}
    {es : List ((Text × OutboundMessage) × PendingQueuePlan)} {plans : List PendingQueuePlan}
    (h : Commits now platform s s' es plans) (hsound : s.Sound) : s'.Sound :=
  ⟨h.bytes hsound.balanced, h.bounded hsound.bounded, h.occupied hsound.occupied⟩

variable {env : Surroundings}

theorem Routed.sound {a : RouteArgs} {clock : RouteClock} {result : Except String Unit}
    (h : Routed setup env s a clock s' result) (hsound : s.Sound) : s'.Sound := by
  cases h with
  | refused reason => exact hsound
  | unleased reason => exact hsound.atAdmission setup clock
  | unplanned reason => exact hsound.atPreflight setup clock
  | undone reason => exact (hsound.atPreflight setup clock).congr rfl rfl
  | accepted hprepared hleased hframes hkeys hcommits hnew hidentity =>
    exact (hcommits.sound (hsound.atPreflight setup clock)).congr rfl rfl

theorem Leased.sound {a : LeaseArgs} {clock : LeaseClock} (h : Leased setup env s a clock s')
    (hsound : s.Sound) : s'.Sound := by
  have hpruned := hsound.prune setup.pendingMessageTtlMs clock.prune
  cases h with
  | refused => exact hsound
  | pruned => exact hpruned
  | unchanged | granted haccount hpool hmem hfree => exact hpruned.congr rfl rfl

theorem State.Sound.step {s : State} (h : s.Sound) (setup : Setup) (call : Call) :
    (step setup s call).Sound := by
  obtain ⟨env, op⟩ := call
  cases op with
  | lease a clock => exact (leased setup env s a clock).sound h
  | release a =>
    change (releaseUnusedPrekeyLease env s a).1.Sound
    rcases released env s a with hsame | ⟨key, lease, -, -, hsame⟩
    · rw [hsame]
      exact h
    · rw [hsame]
      exact h.congr rfl rfl
  | route a clock => exact (routed setup env h a clock).sound h
  | acknowledge a now =>
    have hpruned := h.prune setup.pendingMessageTtlMs now
    change (acknowledgeMessage setup env s a now).1.Sound
    rcases acknowledge_cases setup env s a now with hsame | ⟨client, -, hack⟩
    · rw [hsame]
      exact hpruned
    · exact hack.sound hpruned
  | prune now => exact h.prune setup.pendingMessageTtlMs now

structure RelayState extends State where
  sound : toState.Sound

namespace RelayState

def start (accounts : Accounts) : RelayState where
  toState := Direct.start accounts
  sound := ⟨rfl, Nat.zero_le _, fun _ _ hget => by cases hget⟩

end RelayState

/-- Over any run, the bytes on account are those of the queued frames and within the limit. -/
theorem pending_store_sound (setup : Setup) (accounts : Accounts) (calls : List Call) :
    (after setup accounts calls).Sound :=
  run_invariant (fun _ call h => h.step setup call) (RelayState.start accounts).sound calls

end Abyssal.Direct
