import Abyssal.Direct.Route
import Abyssal.Direct.Admission

/-! What one call of the router can do, stage by stage. -/

namespace Abyssal.Direct

open List

variable {env : Surroundings} {a : RouteArgs} {s : State} {setup : Setup} {accounts : Accounts}
  {plan : List PendingQueuePlan} {p : Prepared} {sender : Sender}

structure FrameFor (a : RouteArgs) (sender : Sender) (envelopes : EnvelopeMap) (recipient : Text)
    (frame : OutboundMessage) : Prop where
  chatId : frame.chatId = a.chatId
  messageId : frame.messageId = a.messageId
  senderUsername : frame.senderUsername = sender.client.username
  envelope : ∃ envelope, envelopes.get? recipient = some envelope ∧
    frame.prekeyId = envelope.prekeyId ∧ frame.isPrekey = envelope.isPrekey

theorem prepareOutboundMessagePadding_ok {random : Nat → UInt8} {frame frame' : OutboundMessage}
    (h : prepareOutboundMessagePadding random frame = .ok frame') :
    ∃ bucket padding, frame' = { frame with paddingBucket := bucket, padding := padding } := by
  obtain ⟨⟨bucket, emptyLen⟩, -, h⟩ := bind_eq_ok.mp h
  obtain ⟨fillerLen, -, h⟩ := bind_eq_ok.mp h
  obtain ⟨filler, -, h⟩ := bind_eq_ok.mp h
  obtain ⟨serializedLen, -, h⟩ := bind_eq_ok.mp h
  obtain ⟨⟨⟩, -, h⟩ := bind_eq_ok.mp h
  cases h
  exact ⟨bucket, filler, rfl⟩

variable {senderPublicKeyB64 : Text} {envelopes : EnvelopeMap}

theorem prepareStep_ok {acc acc' : List (Text × OutboundMessage) × Nat} {recipient : Text}
    (h : prepareStep env a sender senderPublicKeyB64 envelopes acc recipient = .ok acc') :
    ∃ frame, acc'.1 = acc.1 ++ [(recipient, frame)] ∧
      FrameFor a sender envelopes recipient frame := by
  obtain ⟨envelope, henvelope, h⟩ := okOr_bind.mp h
  obtain ⟨frame, hframe, h⟩ := bind_eq_ok.mp h
  obtain ⟨frameBytes, -, h⟩ := bind_eq_ok.mp h
  obtain ⟨charged, -, h⟩ := bind_eq_ok.mp h
  obtain ⟨total, -, h⟩ := bind_eq_ok.mp h
  obtain ⟨⟨⟩, -, h⟩ := bind_eq_ok.mp h
  cases h
  obtain ⟨bucket, padding, rfl⟩ := prepareOutboundMessagePadding_ok hframe
  exact ⟨_, rfl, rfl, rfl, rfl, envelope, henvelope, rfl, rfl⟩

variable {recipients : List Text}

theorem prepareFrames_ok {acc acc' : List (Text × OutboundMessage) × Nat}
    (h : foldChecked (prepareStep env a sender senderPublicKeyB64 envelopes) acc recipients =
      .ok acc') :
    ∃ frames, acc'.1 = acc.1 ++ frames ∧ frames.map Prod.fst = recipients ∧
      ∀ e ∈ frames, FrameFor a sender envelopes e.1 e.2 := by
  induction recipients generalizing acc with
  | nil =>
    cases h
    exact ⟨[], by simp, rfl, by simp⟩
  | cons recipient recipients ih =>
    obtain ⟨acc₁, hstep, hrest⟩ := bind_eq_ok.mp h
    obtain ⟨frame, hacc₁, hframe⟩ := prepareStep_ok hstep
    obtain ⟨frames, hacc', hrecipients, hframes⟩ := ih hrest
    refine ⟨(recipient, frame) :: frames, ?_, ?_, ?_⟩
    · rw [hacc', hacc₁, append_assoc, singleton_append]
    · rw [map_cons, hrecipients]
    · intro e he
      rcases mem_cons.mp he with rfl | he
      · exact hframe
      · exact hframes e he

structure Prepared.Checked (setup : Setup) (env : Surroundings) (accounts : Accounts)
    (a : RouteArgs) (p : Prepared) : Prop where
  client : env.clients.get? a.senderId = some p.sender.client
  recipients : ∃ access,
    conversationAccess env accounts p.sender.client.username a.chatId = some access ∧
    expectedRecipients env accounts p.sender.client.username a.chatId access = .ok p.recipients
  envelopes : checkEnvelopes setup a p.sender p.recipients = .ok p.envelopes
  addressed : p.frames.map Prod.fst = p.recipients
  frames : ∀ e ∈ p.frames, FrameFor a p.sender p.envelopes e.1 e.2

theorem checkSender_client (h : checkSender setup env accounts a = .ok sender) :
    env.clients.get? a.senderId = some sender.client := by
  obtain ⟨stamp, -, h⟩ := bind_eq_ok.mp h
  obtain ⟨⟨⟩, -, h⟩ := bind_eq_ok.mp h
  obtain ⟨nonce, -, h⟩ := bind_eq_ok.mp h
  obtain ⟨ciphertext, -, h⟩ := bind_eq_ok.mp h
  obtain ⟨identityEnvelope, -, h⟩ := bind_eq_ok.mp h
  obtain ⟨client, hclient, h⟩ := okOr_bind.mp h
  obtain ⟨identityPublic, -, h⟩ := bind_eq_ok.mp h
  obtain ⟨⟨⟩, -, h⟩ := bind_eq_ok.mp h
  obtain ⟨account, -, h⟩ := bind_eq_ok.mp h
  obtain ⟨⟨⟩, -, h⟩ := bind_eq_ok.mp h
  cases h
  exact hclient

theorem prepareMessage_ok (h : prepareMessage setup env accounts a = .ok p) :
    p.Checked setup env accounts a := by
  obtain ⟨sender, hsender, h⟩ := bind_eq_ok.mp h
  obtain ⟨access, haccess, h⟩ := okOr_bind.mp h
  obtain ⟨attachment, -, h⟩ := bind_eq_ok.mp h
  obtain ⟨recipients, hrecipients, h⟩ := bind_eq_ok.mp h
  obtain ⟨⟨⟩, -, h⟩ := bind_eq_ok.mp h
  obtain ⟨envelopes, henvelopes, h⟩ := bind_eq_ok.mp h
  obtain ⟨account, -, h⟩ := bind_eq_ok.mp h
  obtain ⟨⟨frames, total⟩, hframes, h⟩ := bind_eq_ok.mp h
  cases h
  obtain ⟨frames', hacc, haddressed, hframes⟩ := prepareFrames_ok hframes
  rw [nil_append] at hacc
  simp only at hacc
  subst hacc
  exact ⟨checkSender_client hsender, ⟨access, haccess, hrecipients⟩, henvelopes,
    haddressed, hframes⟩

theorem Prepared.Checked.nodup (h : p.Checked setup env accounts a) : p.recipients.Nodup := by
  obtain ⟨access, -, hrecipients⟩ := h.recipients
  cases access with
  | mlsRoom => cases hrecipients
  | room =>
    rw [← Except.ok.inj hrecipients]
    exact (env.order_perm _).nodup_iff.mpr (nodup_dedup _)
  | direct =>
    obtain ⟨peer, -, hrecipients⟩ := bind_eq_ok.mp hrecipients
    rw [← Except.ok.inj hrecipients]
    exact nodup_singleton _

variable {frames : List (Text × OutboundMessage)}

theorem preflightFold_keys {acc acc' : Simulation × List PendingQueuePlan}
    (h : foldChecked preflightStep acc frames = .ok acc') :
    acc'.2.map PendingQueuePlan.key =
      acc.2.map PendingQueuePlan.key ++ frames.map fun e => ⟨e.2.chatId, e.1⟩ := by
  induction frames generalizing acc with
  | nil =>
    cases h
    simp
  | cons e frames ih =>
    obtain ⟨acc₁, hstep, hrest⟩ := bind_eq_ok.mp h
    obtain ⟨⟨index, sim⟩, -, hstep⟩ := bind_eq_ok.mp hstep
    obtain ⟨sim', -, hstep⟩ := bind_eq_ok.mp hstep
    cases hstep
    rw [ih hrest, map_append, append_assoc]
    rfl

theorem preflightPlan_keys (h : preflightPlan s frames = .ok plan) :
    plan.map PendingQueuePlan.key = frames.map fun e => ⟨e.2.chatId, e.1⟩ := by
  obtain ⟨sim, -, h⟩ := bind_eq_ok.mp h
  obtain ⟨⟨sim', plan'⟩, hfold, h⟩ := bind_eq_ok.mp h
  cases h
  exact preflightFold_keys hfold

def atAdmission (setup : Setup) (clock : RouteClock) (s : State) : State :=
  let s := prunePendingQueues setup.pendingMessageTtlMs clock.admission s
  { s with prekeyLeases := prunePrekeyLeases s.prekeyLeases s.pending clock.leases }

def atPreflight (setup : Setup) (clock : RouteClock) (s : State) : State :=
  prunePendingQueues setup.pendingMessageTtlMs clock.preflight (atAdmission setup clock s)

def freshReplayIds (now : Nat) (replayIds : OrdMap ReplayKey Nat) : OrdMap ReplayKey Nat :=
  replayIds.filter fun _ seenAt => now - seenAt < replayWindowMs

inductive Routed (setup : Setup) (env : Surroundings) (s : State) (a : RouteArgs)
    (clock : RouteClock) : State → Except String Unit → Prop
  | refused (reason : String) : Routed setup env s a clock s (.error reason)
  | unleased (reason : String) :
      Routed setup env s a clock (atAdmission setup clock s) (.error reason)
  | unplanned (reason : String) :
      Routed setup env s a clock (atPreflight setup clock s) (.error reason)
  | undone (reason : String) :
      Routed setup env s a clock
        { atPreflight setup clock s with
          replayIds := freshReplayIds clock.register s.replayIds } (.error reason)
  | accepted {p : Prepared} {s₁ : State}
      {es : List ((Text × OutboundMessage) × PendingQueuePlan)} {plans : List PendingQueuePlan}
      {accounts : Accounts} (hprepared : p.Checked setup env s.accounts a)
      (hleased : ∀ username ∈ p.recipients,
        leaseStep setup (atAdmission setup clock s) a p username = .ok ())
      (hframes : es.map Prod.fst = p.frames)
      (hkeys : ∀ e ∈ es, e.2.key = ⟨a.chatId, e.1.1⟩)
      (hcommits : Commits clock.commit p.sender.client.platform (atPreflight setup clock s) s₁ es
        plans)
      (hnew : (freshReplayIds clock.register s.replayIds).get?
        (a.replayKey p.sender.client.username) = none)
      (hidentity : applyIdentityStateLockedWithConsumed setup.crypto s.accounts
        p.sender.client.codeId a.identityUpdate = .ok accounts) :
      Routed setup env s a clock
        { s₁ with
          replayIds := (freshReplayIds clock.register s.replayIds).insert
            (a.replayKey p.sender.client.username) clock.register
          accounts := accounts } (.ok ())

theorem State.Sound.atAdmission (h : s.Sound) (setup : Setup) (clock : RouteClock) :
    (atAdmission setup clock s).Sound := by
  have hpruned := h.prune setup.pendingMessageTtlMs clock.admission
  exact ⟨hpruned.balanced, hpruned.bounded, hpruned.occupied⟩

theorem State.Sound.atPreflight (h : s.Sound) (setup : Setup) (clock : RouteClock) :
    (atPreflight setup clock s).Sound :=
  (h.atAdmission setup clock).prune setup.pendingMessageTtlMs clock.preflight

theorem foldChecked_unit {α : Type} {f : α → Except String Unit} {as : List α}
    (h : foldChecked (fun _ a => f a) () as = .ok ()) : ∀ a ∈ as, f a = .ok () := by
  intro a ha
  obtain ⟨⟨⟩, ⟨⟩, hstep⟩ := foldChecked_forall h ha
  exact hstep

theorem registerMessageId_eq (now : Nat) (s : State) (key : ReplayKey) :
    (∃ reason, registerMessageId now s key =
      ({ s with replayIds := freshReplayIds now s.replayIds }, .error reason)) ∨
    (freshReplayIds now s.replayIds).get? key = none ∧ registerMessageId now s key =
      ({ s with replayIds := (freshReplayIds now s.replayIds).insert key now }, .ok ()) := by
  simp only [registerMessageId]
  split_ifs with hcontains hsender hglobal
  · exact .inl ⟨_, rfl⟩
  · exact .inl ⟨_, rfl⟩
  · exact .inl ⟨_, rfl⟩
  · rw [Bool.not_eq_true, OrdMap.contains_eq_false] at hcontains
    exact .inr ⟨hcontains, rfl⟩

theorem commitPendingFrames_cases (now : Nat) (s : State) (frames : List (Text × OutboundMessage))
    (platform : ClientPlatform) (hnodup : (plan.map PendingQueuePlan.key).Nodup) :
    (∃ reason, commitPendingFrames now s frames plan platform = (s, .error reason)) ∨
      ∃ s' plans, commitPendingFrames now s frames plan platform = (s', .ok plans) ∧
        frames.length = plan.length ∧ Commits now platform s s' (frames.zip plan) plans := by
  unfold commitPendingFrames
  split_ifs with hlength
  · exact .inl ⟨_, rfl⟩
  · rw [not_not] at hlength
    cases hvalidate : validatePlan s frames plan with
    | error reason => exact .inl ⟨reason, rfl⟩
    | ok u =>
      obtain ⟨sim, hsim, hvalidate⟩ := bind_eq_ok.mp hvalidate
      obtain ⟨sim', hfold, -⟩ := bind_eq_ok.mp hvalidate
      have hkeys : ((frames.zip plan).map fun e => e.2.key).Nodup := by
        have hzip := congrArg (List.map PendingQueuePlan.key) (map_snd_zip hlength.ge)
        rw [map_map] at hzip
        rw [← hzip] at hnodup
        exact hnodup
      obtain ⟨s', plans, hcommit, hcommits⟩ :=
        commits_of_validate (mirrors_of_simulate hsim) hkeys hfold now platform
      exact .inr ⟨s', plans, hcommit, hlength, hcommits⟩

theorem plan_keys (hchecked : p.Checked setup env accounts a)
    (hplan : preflightPlan s p.frames = .ok plan) :
    plan.map PendingQueuePlan.key = p.recipients.map (PendingKey.mk a.chatId) := by
  rw [preflightPlan_keys hplan, ← hchecked.addressed, map_map]
  apply map_congr_left
  intro e he
  rw [(hchecked.frames e he).chatId]
  rfl

theorem finishRoute_cases {s₁ : State} {clock : RouteClock} {plans : List PendingQueuePlan}
    (hsound : s.Sound) (hchecked : p.Checked setup env s.accounts a)
    (hleased : ∀ username ∈ p.recipients,
      leaseStep setup (atAdmission setup clock s) a p username = .ok ())
    (hkeys : plan.map PendingQueuePlan.key = p.recipients.map (PendingKey.mk a.chatId))
    (hlength : p.frames.length = plan.length)
    (hcommits : Commits clock.commit p.sender.client.platform (atPreflight setup clock s) s₁
      (p.frames.zip plan) plans) :
    Routed setup env s a clock (finishRoute setup s₁ a p plans clock).1
      (finishRoute setup s₁ a p plans clock).2 := by
  have hfst : (p.frames.zip plan).map Prod.fst = p.frames := map_fst_zip hlength.le
  have hsnd : (p.frames.zip plan).map Prod.snd = plan := map_snd_zip hlength.ge
  have hzip : (p.frames.zip plan).map (fun e => e.2.key) =
      (p.frames.zip plan).map fun e => ⟨a.chatId, e.1.1⟩ := by
    have hleft := congrArg (List.map PendingQueuePlan.key) hsnd
    have hright := congrArg (List.map fun e => PendingKey.mk a.chatId e.1) hfst
    have haddressed := congrArg (List.map (PendingKey.mk a.chatId)) hchecked.addressed
    rw [map_map] at hleft hright haddressed
    exact hleft.trans (hkeys.trans (haddressed.symm.trans hright.symm))
  have hnodup : ((p.frames.zip plan).map fun e => e.2.key).Nodup := by
    have hleft := congrArg (List.map PendingQueuePlan.key) hsnd
    rw [map_map, hkeys] at hleft
    change (List.map (PendingQueuePlan.key ∘ Prod.snd) _).Nodup
    rw [hleft]
    refine hchecked.nodup.map ?_
    intro left right heq
    injection heq
  have haccounts : s₁.accounts = s.accounts := hcommits.others.1
  have hreplay : s₁.replayIds = s.replayIds := hcommits.others.2.1
  have hleases := hcommits.others.2.2
  -- whichever stage rejects, the rollback sees the committed queues
  have hback : ∀ accounts replayIds leases, rollbackPendingFrames
      ⟨accounts, s₁.pending, s₁.pendingBytes, replayIds, leases⟩ p.frames plans =
        ⟨accounts, (atPreflight setup clock s).pending, (atPreflight setup clock s).pendingBytes,
          replayIds, leases⟩ := by
    intro accounts replayIds leases
    have h := @rollback_restores _ _ _ _ _
      ⟨accounts, s₁.pending, s₁.pendingBytes, replayIds, leases⟩ _
      (hsound.atPreflight setup clock) hcommits hnodup rfl rfl
    rw [hfst] at h
    exact h
  simp only [finishRoute]
  rcases registerMessageId_eq clock.register s₁ (a.replayKey p.sender.client.username) with
    ⟨reason, hregister⟩ | ⟨hnew, hregister⟩
  · rw [hregister]
    simp only
    rw [hback, haccounts, hreplay, hleases]
    exact .undone reason
  · rw [hregister]
    simp only
    rw [hreplay] at hnew ⊢
    rw [haccounts]
    cases hidentity : applyIdentityStateLockedWithConsumed setup.crypto s.accounts
        p.sender.client.codeId a.identityUpdate with
    | error reason =>
      simp only [unregisterMessageId]
      rw [hback, OrdMap.erase_insert_self, OrdMap.erase_of_get?_none hnew, hleases]
      exact .undone reason
    | ok accounts =>
      refine .accepted hchecked hleased hfst ?_ hcommits hnew hidentity
      exact map_inj_left.mp hzip

theorem routed (setup : Setup) (env : Surroundings) (hsound : s.Sound) (a : RouteArgs)
    (clock : RouteClock) :
    Routed setup env s a clock (routeEncryptedMessageWithDirectory setup env s a clock).1
      (routeEncryptedMessageWithDirectory setup env s a clock).2 := by
  unfold routeEncryptedMessageWithDirectory
  cases hprepare : prepareMessage setup env s.accounts a with
  | error reason => exact .refused reason
  | ok p =>
    have hchecked := prepareMessage_ok hprepare
    have hstage : admitPrekeyLeases setup s a p clock = (atAdmission setup clock s,
        foldChecked (fun _ username => leaseStep setup (atAdmission setup clock s) a p username) ()
          p.recipients) := rfl
    simp only [hstage]
    cases hleased : foldChecked
        (fun _ username => leaseStep setup (atAdmission setup clock s) a p username) ()
          p.recipients with
    | error reason => exact .unleased reason
    | ok u =>
      have hleases := foldChecked_unit hleased
      simp only [preflightPendingFrames]
      cases hfanout : foldChecked fanoutStep 0 p.frames with
      | error reason => exact .unleased reason
      | ok total =>
        cases hplan : preflightPlan (prunePendingQueues setup.pendingMessageTtlMs clock.preflight
            (atAdmission setup clock s)) p.frames with
        | error reason =>
          simp only
          exact .unplanned reason
        | ok plan =>
          simp only
          have hkeys := plan_keys hchecked hplan
          have hnodup : (plan.map PendingQueuePlan.key).Nodup := by
            rw [hkeys]
            refine hchecked.nodup.map ?_
            intro left right heq
            injection heq
          rcases commitPendingFrames_cases clock.commit
              (atPreflight setup clock s) p.frames p.sender.client.platform hnodup with
            ⟨reason, hcommit⟩ | ⟨s₁, plans, hcommit, hlength, hcommits⟩
          · rw [atPreflight] at hcommit
            rw [hcommit]
            exact .unplanned reason
          · rw [atPreflight] at hcommit
            rw [hcommit]
            exact finishRoute_cases hsound hchecked hleases hkeys hlength hcommits

end Abyssal.Direct
