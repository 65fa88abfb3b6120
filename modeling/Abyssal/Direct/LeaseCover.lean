import Abyssal.Direct.Steps

/-! Prekey leases and the pending frames that hold them. The lease of a message is checked
before its frames are queued and at an earlier clock reading, so the cover is kept by calls
whose leases outlive that gap. -/

namespace Abyssal.Direct

open OrdMap List

variable {s s' : State} {setup : Setup} {f : PendingFrame} {accounts : Accounts}
  {claim : PrekeyLease} {now : Nat} {key : PrekeyLeaseKey} {client : ClientHandle} {a : RouteArgs}
  {chatId messageId senderUsername : Text} {pending : PendingQueues} {codeId : CodeId}
  {clock : RouteClock} {platform : ClientPlatform} {env : Surroundings}
  {plans : List PendingQueuePlan} {queue : List PendingFrame} {claims : PrekeyLeases}
  {es : List ((Text × OutboundMessage) × PendingQueuePlan)}

def SameSend (left right : OutboundMessage) : Prop :=
  left.chatId = right.chatId ∧ left.messageId = right.messageId ∧
    left.senderUsername = right.senderUsername

instance (left right : OutboundMessage) : Decidable (SameSend left right) :=
  inferInstanceAs (Decidable (_ ∧ _ ∧ _))

def DistinctNames (accounts : Accounts) : Prop := (accounts.values.map Account.username).Nodup

instance (accounts : Accounts) : Decidable (DistinctNames accounts) :=
  inferInstanceAs (Decidable (List.Nodup _))

def HasLease (setup : Setup) (s : State) (recipient : Text) (frame : OutboundMessage) : Prop :=
  ∃ codeId account lease pool, s.accounts.get? codeId = some account ∧
    account.username = recipient ∧
    s.prekeyLeases.get? ⟨codeId, frame.prekeyId⟩ = some lease ∧
    lease.boundTo frame.chatId frame.messageId frame.senderUsername recipient = true ∧
    setup.crypto.prekeyIds account.identityPublic = some pool ∧ frame.prekeyId ∈ pool

structure Covered (setup : Setup) (s : State) : Prop where
  sound : s.Sound
  names : DistinctNames s.accounts
  chats : ∀ key, ∀ f ∈ queueOf s.pending key, f.frame.chatId = key.chatId
  together : ∀ key key', ∀ f ∈ queueOf s.pending key, ∀ g ∈ queueOf s.pending key',
    SameSend f.frame g.frame → f.enqueuedAtMs = g.enqueuedAtMs
  once : ∀ key, (queueOf s.pending key).Pairwise fun f g => ¬ SameSend f.frame g.frame
  leased : ∀ key, ∀ f ∈ queueOf s.pending key, f.frame.isPrekey = true →
    HasLease setup s key.recipientUsername f.frame
  offered : ∀ key lease, s.prekeyLeases.get? key = some lease →
    ∃ account pool, s.accounts.get? key.codeId = some account ∧
      setup.crypto.prekeyIds account.identityPublic = some pool ∧ key.prekeyId ∈ pool

theorem distinctNames_iff : DistinctNames accounts ↔ ∀ left right a b,
    accounts.get? left = some a → accounts.get? right = some b → a.username = b.username →
      left = right := by
  unfold DistinctNames OrdMap.values
  rw [map_map, nodup_map_iff_inj_on (.of_map _ accounts.keys_nodup)]
  simp only [get?_eq_some]
  constructor
  · intro h left right a b ha hb hname
    exact congrArg Prod.fst (h _ ha _ hb hname)
  · intro h left hleft right hright hname
    have hcode := h left.1 right.1 left.2 right.2 hleft hright hname
    have hl := get?_eq_some.mpr hleft
    rw [hcode, get?_eq_some.mpr hright, Option.some.injEq] at hl
    exact Prod.ext hcode hl.symm

theorem DistinctNames.codeId_eq (h : DistinctNames accounts) {left right : CodeId} {a b : Account}
    (ha : accounts.get? left = some a) (hb : accounts.get? right = some b)
    (hname : a.username = b.username) : left = right :=
  distinctNames_iff.mp h _ _ _ _ ha hb hname

variable {accounts' : Accounts}

theorem DistinctNames.of_usernames (h : DistinctNames accounts)
    (hnames : ∀ codeId, (accounts'.get? codeId).map Account.username =
      (accounts.get? codeId).map Account.username) : DistinctNames accounts' := by
  refine distinctNames_iff.mpr ?_
  intro left right a b ha hb hname
  have hleft := hnames left
  have hright := hnames right
  rw [ha, Option.map_some, eq_comm, Option.map_eq_some_iff] at hleft
  rw [hb, Option.map_some, eq_comm, Option.map_eq_some_iff] at hright
  obtain ⟨a', ha', hname_a⟩ := hleft
  obtain ⟨b', hb', hname_b⟩ := hright
  exact h.codeId_eq ha' hb' (by rw [hname_a, hname_b, hname])

variable {username : Text} {account : Account}

theorem findAccount_eq_some (h : findAccount accounts username = some (codeId, account)) :
    accounts.get? codeId = some account ∧ account.username = username := by
  refine ⟨get?_eq_some.mpr (mem_of_find?_eq_some h), ?_⟩
  simpa using find?_some h

theorem exists_expired {pendingMessageTtlMs : Nat} {d : LeaseDetails}
    (h : d ∈ (expiredFrames pendingMessageTtlMs now pending).filterMap
      fun pendingFrame => prekeyLeaseDetails pendingFrame.frame) :
    ∃ key, ∃ f ∈ queueOf pending key, f.expired pendingMessageTtlMs now = true ∧
      d = ⟨f.frame.chatId, f.frame.messageId, f.frame.senderUsername, f.frame.prekeyId⟩ := by
  obtain ⟨f, hf, hdetails⟩ := mem_filterMap.mp h
  obtain ⟨queue, hqueue, hf⟩ := mem_flatMap.mp hf
  obtain ⟨hf, hexpired⟩ := mem_filter.mp hf
  obtain ⟨key, hget⟩ := mem_values.mp hqueue
  unfold prekeyLeaseDetails at hdetails
  split_ifs at hdetails
  cases hdetails
  exact ⟨key, f, by rwa [queueOf_of_get? hget], hexpired, rfl⟩

theorem mem_queueOf_prune {pendingMessageTtlMs : Nat} {key : PendingKey} :
    f ∈ queueOf (prunePendingQueues pendingMessageTtlMs now s).pending key ↔
      f ∈ queueOf s.pending key ∧ f.expired pendingMessageTtlMs now = false := by
  change f ∈ queueOf (retainedQueues _ now s.pending) key ↔ _
  rw [queueOf_retained, mem_filter, Bool.not_eq_true']

variable {details : List LeaseDetails}

theorem get?_foldl_release :
    (details.foldl releasePrekeyLeaseDetails claims).get? key = some claim ↔
      claims.get? key = some claim ∧ ∀ d ∈ details, ¬ (claim.chatId = d.chatId ∧
        claim.messageId = d.messageId ∧ claim.senderUsername = d.senderUsername ∧
        key.prekeyId = d.prekeyId) := by
  induction details generalizing claims with
  | nil => simp
  | cons d details ih =>
    rw [foldl_cons, ih, releasePrekeyLeaseDetails, get?_filter, Option.filter_eq_some_iff,
      forall_mem_cons, and_assoc]
    simp only [Bool.not_eq_true', ← Bool.not_eq_true, Bool.and_eq_true, decide_eq_true_eq, and_assoc]

theorem get?_prunePrekeyLeases : (prunePrekeyLeases claims pending now).get? key = some claim ↔
    claims.get? key = some claim ∧ (now - claim.createdAtMs < prekeyLeaseTtlMs ∨
      pendingContainsLeasedFrame pending key claim = true) := by
  rw [prunePrekeyLeases, get?_filter, Option.filter_eq_some_iff, Bool.or_eq_true,
    decide_eq_true_eq]

theorem PrekeyLease.boundTo_iff {recipientUsername : Text} :
    claim.boundTo chatId messageId senderUsername recipientUsername = true ↔
      claim.chatId = chatId ∧ claim.messageId = messageId ∧
        claim.senderUsername = senderUsername ∧ claim.recipientUsername = recipientUsername := by
  simp [PrekeyLease.boundTo, and_assoc]

theorem pendingContains_of_mem {key : PendingKey} (hf : f ∈ queueOf pending key)
    (hprekey : f.frame.isPrekey = true) (codeId : CodeId)
    (hbound : claim.boundTo f.frame.chatId f.frame.messageId
      f.frame.senderUsername key.recipientUsername = true) :
    pendingContainsLeasedFrame pending ⟨codeId, f.frame.prekeyId⟩ claim = true := by
  have hne : queueOf pending key ≠ [] := ne_nil_of_mem hf
  have hentry := get?_eq_some.mp (get?_of_queueOf_ne_nil hne)
  obtain ⟨hchat, hmessage, hsender, hrecipient⟩ := PrekeyLease.boundTo_iff.mp hbound
  refine any_eq_true.mpr ⟨_, hentry, ?_⟩
  rw [Bool.and_eq_true, decide_eq_true_eq]
  refine ⟨hrecipient.symm, any_eq_true.mpr ⟨f, hf, ?_⟩⟩
  simp [PrekeyLease.heldBy, hprekey, hchat, hmessage, hsender]

section

variable (h : Covered setup s)

include h

theorem Covered.shrink (hsound : s'.Sound) (haccounts : s'.accounts = s.accounts)
    (hqueues : ∀ key, (queueOf s'.pending key).Sublist (queueOf s.pending key))
    (hleases : ∀ key lease, s'.prekeyLeases.get? key = some lease →
      s.prekeyLeases.get? key = some lease)
    (hkeep : ∀ key, ∀ f ∈ queueOf s'.pending key, f.frame.isPrekey = true →
      ∀ codeId lease, s.prekeyLeases.get? ⟨codeId, f.frame.prekeyId⟩ = some lease →
        lease.boundTo f.frame.chatId f.frame.messageId f.frame.senderUsername
          key.recipientUsername = true →
        s'.prekeyLeases.get? ⟨codeId, f.frame.prekeyId⟩ = some lease) :
    Covered setup s' where
  sound := hsound
  names := haccounts ▸ h.names
  chats key f hf := h.chats key f ((hqueues key).subset hf)
  together key key' f hf g hg :=
    h.together key key' f ((hqueues key).subset hf) g ((hqueues key').subset hg)
  once key := (h.once key).sublist (hqueues key)
  leased key f hf hprekey := by
    obtain ⟨codeId, account, lease, pool, haccount, hname, hlease, hbound, hpool, hmem⟩ :=
      h.leased key f ((hqueues key).subset hf) hprekey
    exact ⟨codeId, account, lease, pool, haccounts ▸ haccount, hname,
      hkeep key f hf hprekey codeId lease hlease hbound, hbound, hpool, hmem⟩
  offered key lease hget := by
    obtain ⟨account, pool, haccount, hpool, hmem⟩ := h.offered key lease (hleases key lease hget)
    exact ⟨account, pool, haccounts ▸ haccount, hpool, hmem⟩

theorem Covered.reaccount (hnames : ∀ codeId, (accounts.get? codeId).map Account.username =
      (s.accounts.get? codeId).map Account.username)
    (hoffered : ∀ key lease, s.prekeyLeases.get? key = some lease →
      ∃ account pool, accounts.get? key.codeId = some account ∧
        setup.crypto.prekeyIds account.identityPublic = some pool ∧ key.prekeyId ∈ pool) :
    Covered setup { s with accounts := accounts } where
  sound := h.sound.congr rfl rfl
  names := h.names.of_usernames hnames
  chats := h.chats
  together := h.together
  once := h.once
  leased key f hf hprekey := by
    obtain ⟨codeId, account, lease, -, haccount, hname, hlease, hbound, -, -⟩ :=
      h.leased key f hf hprekey
    obtain ⟨account', pool, haccount', hpool, hmem⟩ := hoffered _ lease hlease
    have hsame := hnames codeId
    rw [haccount, haccount', Option.map_some, Option.map_some, Option.some.injEq] at hsame
    exact ⟨codeId, account', lease, pool, haccount', hsame.trans hname, hlease, hbound, hpool, hmem⟩
  offered := hoffered

theorem Covered.grant (hfree : s.prekeyLeases.get? key = none) (lease : PrekeyLease)
    {pool : List Text} (haccount : s.accounts.get? key.codeId = some account)
    (hpool : setup.crypto.prekeyIds account.identityPublic = some pool)
    (hmem : key.prekeyId ∈ pool) :
    Covered setup { s with prekeyLeases := s.prekeyLeases.insert key lease } where
  sound := h.sound.congr rfl rfl
  names := h.names
  chats := h.chats
  together := h.together
  once := h.once
  leased key' f hf hprekey := by
    obtain ⟨codeId, account', lease', pool', haccount', hname, hlease, hrest⟩ :=
      h.leased key' f hf hprekey
    refine ⟨codeId, account', lease', pool', haccount', hname, ?_, hrest⟩
    have hne : key ≠ ⟨codeId, f.frame.prekeyId⟩ := by
      rintro rfl
      rw [hfree] at hlease
      cases hlease
    change (s.prekeyLeases.insert key lease).get? _ = _
    rw [get?_insert_of_ne _ _ hne, hlease]
  offered key' lease' hget := by
    change (s.prekeyLeases.insert key lease).get? _ = _ at hget
    rw [get?_insert] at hget
    split_ifs at hget with hkey
    · subst hkey
      exact ⟨account, pool, haccount, hpool, hmem⟩
    · exact h.offered key' lease' hget

theorem Covered.prune (now : Nat) :
    Covered setup (prunePendingQueues setup.pendingMessageTtlMs now s) := by
  refine h.shrink (h.sound.prune _ now) rfl ?_ ?_ ?_
  · intro key
    change (queueOf (retainedQueues _ now s.pending) key).Sublist _
    rw [queueOf_retained]
    exact filter_sublist
  · intro key lease hget
    exact (get?_foldl_release.mp (get?_prunePrekeyLeases.mp hget).1).1
  · intro key f hf hprekey codeId lease hlease hbound
    have hcontains := pendingContains_of_mem hf hprekey codeId hbound
    obtain ⟨hf, halive⟩ := mem_queueOf_prune.mp hf
    refine get?_prunePrekeyLeases.mpr ⟨get?_foldl_release.mpr ⟨hlease, ?_⟩, .inr hcontains⟩
    · -- an expired frame that would take the lease along was queued with this one
      rintro d hd ⟨hchat, hmessage, hsender, -⟩
      obtain ⟨key', g, hg, hexpired, rfl⟩ := exists_expired hd
      have hbound := PrekeyLease.boundTo_iff.mp hbound
      have hsame : SameSend f.frame g.frame :=
        ⟨hbound.1.symm.trans hchat, hbound.2.1.symm.trans hmessage,
          hbound.2.2.1.symm.trans hsender⟩
      have htime := h.together key key' f hf g hg hsame
      rw [PendingFrame.expired, ← htime] at hexpired
      rw [PendingFrame.expired, hexpired] at halive
      cases halive

theorem Covered.pruneLeases (now : Nat) :
    Covered setup { s with prekeyLeases := prunePrekeyLeases s.prekeyLeases s.pending now } := by
  refine h.shrink (h.sound.congr rfl rfl) rfl (fun _ => .refl _) ?_ ?_
  · intro key lease hget
    exact (get?_prunePrekeyLeases.mp hget).1
  · intro key f hf hprekey codeId lease hlease hbound
    exact get?_prunePrekeyLeases.mpr
      ⟨hlease, .inr (pendingContains_of_mem hf hprekey codeId hbound)⟩

end

variable {u : IdentityUpdate}

theorem Account.Records.same {account' : Account} {envelope identityPublic : Bytes}
    (h : account.Records account' u envelope identityPublic) :
    account'.username = account.username ∧ account'.identityPublic = identityPublic := by
  cases h with
  | advanced hlt hle heq =>
    subst heq
    exact ⟨rfl, rfl⟩
  | remembered hle hsame hlag hfresh heq | tooOld hle hsame hlag hreuse heq =>
    subst heq
    exact ⟨rfl, hsame⟩

theorem applyIdentityState_pools {crypto : Crypto}
    (h : applyIdentityStateLockedWithConsumed crypto accounts codeId u = .ok accounts') :
    (∀ other, (accounts'.get? other).map Account.username =
      (accounts.get? other).map Account.username) ∧
    (∀ other, codeId ≠ other → accounts'.get? other = accounts.get? other) ∧
    ∃ account account' nextPublic previous next, accounts.get? codeId = some account ∧
      accounts'.get? codeId = some account' ∧
      decodeExact crypto u.identityPublicB64 identityPublicBytes = .ok nextPublic ∧
      account'.identityPublic = nextPublic ∧
      crypto.prekeyIds account.identityPublic = some previous ∧
      crypto.prekeyIds nextPublic = some next ∧
      (∀ id ∈ previous, u.consumedPrekeyId ≠ some id → id ∈ next) := by
  obtain ⟨envelope, nextPublic, account, account', haccount, hdecode, htransition, hrecords, rfl⟩ :=
    applyIdentityState_ok h
  obtain ⟨hname, hpublic⟩ := hrecords.same
  refine ⟨?_, fun other hne => get?_insert_of_ne _ _ hne, ?_⟩
  · intro other
    rw [get?_insert]
    split_ifs with hcode
    · subst hcode
      rw [haccount, Option.map_some, Option.map_some, hname]
    · rfl
  · obtain ⟨previous, hprevious, htransition⟩ := okOr_bind.mp htransition
    obtain ⟨next, hnext, htransition⟩ := okOr_bind.mp htransition
    refine ⟨account, account', nextPublic, previous, next, haccount, get?_insert_self ..,
      hdecode, hpublic, hprevious, hnext, ?_⟩
    intro id hid hconsumed
    cases hu : u.consumedPrekeyId with
    | none =>
      rw [hu] at htransition
      rw [rejectIf_eq_ok, not_not] at htransition
      rwa [← htransition]
    | some consumed =>
      rw [hu] at htransition hconsumed
      simp only [rejectIf_eq_ok, not_not] at htransition
      by_contra hnot
      have hremoved : id ∈ previous.filter fun id => ¬ next.contains id := by
        rw [mem_filter]
        exact ⟨hid, by simpa using hnot⟩
      rw [htransition.1, mem_singleton] at hremoved
      exact hconsumed (by rw [hremoved])

theorem offered_of_identity {crypto : Crypto}
    (h : applyIdentityStateLockedWithConsumed crypto accounts codeId u = .ok accounts')
    (hconsumed : codeId = key.codeId → u.consumedPrekeyId ≠ some key.prekeyId)
    (hoffered : ∃ account pool, accounts.get? key.codeId = some account ∧
      crypto.prekeyIds account.identityPublic = some pool ∧ key.prekeyId ∈ pool) :
    ∃ account pool, accounts'.get? key.codeId = some account ∧
      crypto.prekeyIds account.identityPublic = some pool ∧ key.prekeyId ∈ pool := by
  obtain ⟨account, pool, haccount, hpool, hmem⟩ := hoffered
  obtain ⟨-, hothers, old, new, nextPublic, previous, next, hold, hnew, -, hpublic, hprevious,
    hnext, hkeep⟩ := applyIdentityState_pools h
  by_cases hcode : codeId = key.codeId
  · rw [hcode] at hold hnew
    rw [haccount, Option.some.injEq] at hold
    subst hold
    rw [hpool, Option.some.injEq] at hprevious
    subst hprevious
    exact ⟨new, next, hnew, by rw [hpublic]; exact hnext, hkeep _ hmem (hconsumed hcode)⟩
  · exact ⟨account, pool, (hothers _ hcode).trans haccount, hpool, hmem⟩

theorem sameSend_symm {left right : OutboundMessage} (h : SameSend left right) :
    SameSend right left := ⟨h.1.symm, h.2.1.symm, h.2.2.symm⟩

theorem not_sameSend_of_mem_eraseIdx {index : Nat} {g : PendingFrame}
    (h : queue.Pairwise fun f g => ¬ SameSend f.frame g.frame) (hget : queue[index]? = some g)
    (hf : f ∈ queue.eraseIdx index) : ¬ SameSend f.frame g.frame := by
  obtain ⟨hlt, rfl⟩ := List.getElem?_eq_some_iff.mp hget
  have hperm := getElem_cons_eraseIdx_perm hlt
  have hpairwise := (hperm.pairwise_iff (fun hne hsame => hne (sameSend_symm hsame))).mpr h
  intro hsame
  exact (pairwise_cons.mp hpairwise).1 f hf (sameSend_symm hsame)

theorem AckArgs.acknowledges_iff {a : AckArgs} :
    a.acknowledges f = true ↔ f.frame.chatId = a.chatId ∧ f.frame.messageId = a.messageId ∧
      f.frame.senderUsername = a.originalSender ∧
      (if a.usedPrekeyId = [] then f.frame.isPrekey = false ∧ f.frame.prekeyId = []
        else f.frame.isPrekey = true ∧ f.frame.prekeyId = a.usedPrekeyId) := by
  unfold AckArgs.acknowledges pendingFrameMatchesAck
  split_ifs <;> simp [and_assoc]

def ClientHandle.Names (client : ClientHandle) (accounts : Accounts) : Prop :=
  (accounts.get? client.codeId).map Account.username = some client.username

instance (client : ClientHandle) (accounts : Accounts) : Decidable (client.Names accounts) :=
  inferInstanceAs (Decidable (_ = _))

theorem Acknowledged.taken {a : AckArgs} (h : Acknowledged setup s a client s') :
    ∃ index g, (queueOf s.pending ⟨a.chatId, client.username⟩)[index]? = some g ∧
      a.acknowledges g = true ∧
      queueOf s'.pending ⟨a.chatId, client.username⟩ =
        (queueOf s.pending ⟨a.chatId, client.username⟩).eraseIdx index ∧
      ∀ key, key ≠ ⟨a.chatId, client.username⟩ →
        queueOf s'.pending key = queueOf s.pending key := by
  obtain ⟨queue, index, g, hqueue, hget, hmatch, hpending, -⟩ := h.queue
  rw [queueOf_of_get? hqueue]
  refine ⟨index, g, hget, hmatch, ?_, ?_⟩
  · rw [hpending]
    split_ifs with hempty
    · rw [queueOf, get?_erase_self]
      exact (List.isEmpty_iff.mp hempty).symm
    · rw [queueOf_insert, if_pos rfl]
  · intro key hne
    rw [hpending]
    split_ifs with hempty
    · rw [queueOf, get?_erase_of_ne _ (Ne.symm hne), queueOf]
    · rw [queueOf_insert, if_neg (Ne.symm hne)]

theorem Acknowledged.sublist {a : AckArgs}
    (h : Acknowledged setup s a client s') (key : PendingKey) :
    (queueOf s'.pending key).Sublist (queueOf s.pending key) := by
  obtain ⟨index, g, -, -, hthere, helse⟩ := h.taken
  by_cases hkey : key = ⟨a.chatId, client.username⟩
  · rw [hkey, hthere]
    exact eraseIdx_sublist _ _
  · rw [helse key hkey]

variable {lease : PrekeyLease}

theorem Acknowledged.lease_ne {a : AckArgs} (hack : Acknowledged setup s a client s')
    (h : Covered setup s) (hused : a.usedPrekeyId ≠ []) {key : PendingKey}
    (hf : f ∈ queueOf s'.pending key)
    (hlease : s.prekeyLeases.get? ⟨codeId, f.frame.prekeyId⟩ = some lease)
    (hbound : lease.boundTo f.frame.chatId f.frame.messageId f.frame.senderUsername
      key.recipientUsername = true) :
    (⟨client.codeId, a.usedPrekeyId⟩ : PrekeyLeaseKey) ≠ ⟨codeId, f.frame.prekeyId⟩ := by
  intro hkey
  obtain ⟨claim, hclaim, hclaimed⟩ := hack.claim hused
  rw [hkey, hlease, Option.some.injEq] at hclaim
  subst hclaim
  rw [PrekeyLease.boundTo_iff] at hbound hclaimed
  obtain ⟨index, g, hget, hmatch, hthere, -⟩ := hack.taken
  rw [AckArgs.acknowledges_iff] at hmatch
  have hsame : SameSend f.frame g.frame :=
    ⟨by rw [hmatch.1, ← hclaimed.1, hbound.1], by rw [hmatch.2.1, ← hclaimed.2.1, hbound.2.1],
      by rw [hmatch.2.2.1, ← hclaimed.2.2.1, hbound.2.2.1]⟩
  have hchat : key.chatId = a.chatId := by
    rw [← h.chats key f ((hack.sublist key).subset hf), ← hbound.1, hclaimed.1]
  have hqueue : key = ⟨a.chatId, client.username⟩ := by
    rw [← hchat, ← hclaimed.2.2.2, hbound.2.2.2]
  rw [hqueue, hthere] at hf
  exact not_sameSend_of_mem_eraseIdx (h.once _) hget hf hsame

theorem Acknowledged.covered {a : AckArgs} (hack : Acknowledged setup s a client s')
    (h : Covered setup s) : Covered setup s' := by
  have hsame : s' = { ({ s' with accounts := s.accounts } : State) with
    accounts := s'.accounts } := rfl
  have hleases : ∀ key lease, s'.prekeyLeases.get? key = some lease →
      s.prekeyLeases.get? key = some lease ∧
        (a.usedPrekeyId = [] ∨ key ≠ ⟨client.codeId, a.usedPrekeyId⟩) := by
    intro key lease hget
    rw [hack.leases] at hget
    split_ifs at hget with hused
    · exact ⟨hget, .inl hused⟩
    · refine ⟨get?_of_erase hget, .inr ?_⟩
      rintro rfl
      rw [get?_erase_self] at hget
      cases hget
  rw [hsame]
  apply Covered.reaccount
  · refine h.shrink ((hack.sound h.sound).congr rfl rfl) rfl hack.sublist ?_ ?_
    · intro key lease hget
      exact (hleases key lease hget).1
    · intro key f hf _ codeId lease hlease hbound
      change s'.prekeyLeases.get? _ = _
      rw [hack.leases]
      split_ifs with hused
      · exact hlease
      · rw [get?_erase_of_ne _ (hack.lease_ne h hused hf hlease hbound), hlease]
  · exact (applyIdentityState_pools hack.identity).1
  · intro key lease hget
    obtain ⟨hget, hkept⟩ := hleases key lease hget
    refine offered_of_identity hack.identity (fun hcode hconsumed => ?_) (h.offered key lease hget)
    change a.consumed = _ at hconsumed
    unfold AckArgs.consumed at hconsumed
    split_ifs at hconsumed with hused
    rw [Option.some.injEq] at hconsumed
    refine hkept.resolve_left hused ?_
    rw [hcode, hconsumed]

variable {pendingFrame : PendingFrame} {plan plan' : PendingQueuePlan} {queue' : List PendingFrame}

theorem Placed.mem (h : Placed pendingFrame plan queue queue' plan') (hf : f ∈ queue') :
    f ∈ queue ∨ f = pendingFrame := by
  cases h with
  | appended hroom hnone => exact (mem_append.mp hf).imp_right mem_singleton.mp
  | evicting hfull hindex hget hprekey =>
    exact (mem_append.mp hf).imp (fun hmem => mem_of_mem_eraseIdx hmem)
      mem_singleton.mp

theorem Placed.pairwise {R : PendingFrame → PendingFrame → Prop}
    (h : Placed pendingFrame plan queue queue' plan') (hqueue : queue.Pairwise R)
    (hnew : ∀ f ∈ queue, R f pendingFrame) : queue'.Pairwise R := by
  cases h with
  | appended hroom hnone =>
    refine pairwise_append.mpr ⟨hqueue, pairwise_singleton _ _, ?_⟩
    intro f hf g hg
    rw [mem_singleton.mp hg]
    exact hnew f hf
  | evicting hfull hindex hget hprekey =>
    refine pairwise_append.mpr
      ⟨hqueue.sublist (eraseIdx_sublist _ _), pairwise_singleton _ _, ?_⟩
    intro f hf g hg
    rw [mem_singleton.mp hg]
    exact hnew f (mem_of_mem_eraseIdx hf)

theorem Commits.mem (h : Commits now platform s s' es plans) {key : PendingKey}
    (hf : f ∈ queueOf s'.pending key) :
    f ∈ queueOf s.pending key ∨ ∃ e ∈ es, e.2.key = key ∧ f = ⟨e.1.2, now, platform⟩ := by
  by_cases hplanned : ∃ e ∈ es, e.2.key = key
  · obtain ⟨e, he, rfl⟩ := hplanned
    obtain ⟨plan, hplaced, -, -⟩ := forall₂_left h.placed he
    exact (hplaced.mem hf).imp_right fun heq => ⟨e, he, rfl, heq⟩
  · rw [queueOf, h.untouched key fun e he heq => hplanned ⟨e, he, heq⟩] at hf
    exact .inl hf

theorem Commits.once (h : Commits now platform s s' es plans)
    (hfresh : ∀ key, ∀ f ∈ queueOf s.pending key, ∀ e ∈ es, ¬ SameSend f.frame e.1.2)
    (honce : ∀ key, (queueOf s.pending key).Pairwise fun f g => ¬ SameSend f.frame g.frame)
    (key : PendingKey) :
    (queueOf s'.pending key).Pairwise fun f g => ¬ SameSend f.frame g.frame := by
  by_cases hplanned : ∃ e ∈ es, e.2.key = key
  · obtain ⟨e, he, rfl⟩ := hplanned
    obtain ⟨plan, hplaced, -, -⟩ := forall₂_left h.placed he
    exact hplaced.pairwise (honce _) fun f hf => hfresh _ f hf e he
  · rw [queueOf, h.untouched key fun e he heq => hplanned ⟨e, he, heq⟩]
    exact honce key

def Unqueued (s : State) (chatId messageId senderUsername : Text) : Prop :=
  ∀ key, ∀ f ∈ queueOf s.pending key, ¬ (f.frame.chatId = chatId ∧
    f.frame.messageId = messageId ∧ f.frame.senderUsername = senderUsername)

theorem Covered.commit (h : Covered setup s) (hcommits : Commits now platform s s' es plans)
    (hkeys : ∀ e ∈ es, e.2.key = ⟨chatId, e.1.1⟩)
    (hframes : ∀ e ∈ es, e.1.2.chatId = chatId ∧ e.1.2.messageId = messageId ∧
      e.1.2.senderUsername = senderUsername)
    (hunqueued : Unqueued s chatId messageId senderUsername)
    (hleases : ∀ e ∈ es, e.1.2.isPrekey = true → HasLease setup s e.1.1 e.1.2) :
    Covered setup s' := by
  obtain ⟨haccounts, -, hsame⟩ := hcommits.others
  have hfresh : ∀ key, ∀ f ∈ queueOf s.pending key, ∀ e ∈ es, ¬ SameSend f.frame e.1.2 := by
    intro key f hf e he hsend
    obtain ⟨hchat, hmessage, hsender⟩ := hframes e he
    exact hunqueued key f hf
      ⟨hsend.1.trans hchat, hsend.2.1.trans hmessage, hsend.2.2.trans hsender⟩
  refine ⟨hcommits.sound h.sound, haccounts ▸ h.names, ?_, ?_, ?_, ?_, ?_⟩
  · intro key f hf
    rcases hcommits.mem hf with hf | ⟨e, he, hkey, rfl⟩
    · exact h.chats key f hf
    · rw [← hkey, hkeys e he]
      exact (hframes e he).1
  · intro key key' f hf g hg hsend
    rcases hcommits.mem hf with hf | ⟨e, he, -, rfl⟩
    · rcases hcommits.mem hg with hg | ⟨e', he', -, rfl⟩
      · exact h.together key key' f hf g hg hsend
      · exact absurd hsend (hfresh key f hf e' he')
    · rcases hcommits.mem hg with hg | ⟨e', he', -, rfl⟩
      · exact absurd (sameSend_symm hsend) (hfresh key' g hg e he)
      · rfl
  · exact hcommits.once hfresh h.once
  · intro key f hf hprekey
    rw [HasLease, haccounts, hsame]
    rcases hcommits.mem hf with hf | ⟨e, he, hkey, rfl⟩
    · exact h.leased key f hf hprekey
    · rw [← hkey, hkeys e he]
      exact hleases e he hprekey
  · rw [haccounts, hsame]
    exact h.offered

variable {recipient : Text} {envelope : InboundRecipientEnvelope}

theorem checkEnvelopes_mem {sender : Sender} {expected : List Text} {envelopes : EnvelopeMap}
    (h : checkEnvelopes setup a sender expected = .ok envelopes)
    (hget : envelopes.get? recipient = some envelope) :
    envelope ∈ a.envelopes ∧ envelope.recipientUsername = recipient := by
  obtain ⟨⟨⟩, -, h⟩ := bind_eq_ok.mp h
  obtain ⟨envelopes', hfold, h⟩ := bind_eq_ok.mp h
  obtain ⟨⟨⟩, -, h⟩ := bind_eq_ok.mp h
  cases h
  refine foldChecked_induction (P := fun envelopes : EnvelopeMap => ∀ recipient envelope,
    envelopes.get? recipient = some envelope →
      envelope ∈ a.envelopes ∧ envelope.recipientUsername = recipient) ?_ ?_ hfold recipient
        envelope hget
  · intro map next map' hnext hmap hstep recipient envelope hget
    obtain ⟨⟨⟩, -, hstep⟩ := bind_eq_ok.mp hstep
    obtain ⟨⟨⟩, -, hstep⟩ := bind_eq_ok.mp hstep
    obtain ⟨⟨⟩, -, hstep⟩ := bind_eq_ok.mp hstep
    obtain ⟨wrapped, -, hstep⟩ := bind_eq_ok.mp hstep
    obtain ⟨⟨⟩, -, hstep⟩ := bind_eq_ok.mp hstep
    obtain ⟨signature, -, hstep⟩ := bind_eq_ok.mp hstep
    obtain ⟨⟨⟩, -, hstep⟩ := bind_eq_ok.mp hstep
    cases hstep
    rw [get?_insert] at hget
    split_ifs at hget with hkey
    · cases hget
      exact ⟨hnext, hkey⟩
    · exact hmap recipient envelope hget
  · intro recipient envelope hget
    cases hget

variable {p : Prepared}

theorem leaseStep_ok (h : leaseStep setup s a p username = .ok ())
    (henvelope : p.envelopes.get? username = some envelope) (hprekey : envelope.isPrekey = true) :
    ∃ codeId account pool lease, findAccount s.accounts username = some (codeId, account) ∧
      setup.crypto.prekeyIds account.identityPublic = some pool ∧ envelope.prekeyId ∈ pool ∧
      s.prekeyLeases.get? ⟨codeId, envelope.prekeyId⟩ = some lease ∧
      lease.boundTo a.chatId a.messageId p.sender.client.username username = true := by
  obtain ⟨envelope', henvelope', h⟩ := bind_eq_ok.mp h
  rw [okOr_eq_ok, henvelope, Option.some.injEq] at henvelope'
  subst henvelope'
  rw [if_neg (by rw [hprekey]; simp)] at h
  obtain ⟨⟨codeId, account⟩, haccount, h⟩ := bind_eq_ok.mp h
  obtain ⟨pool, hpool, h⟩ := okOr_bind.mp h
  obtain ⟨⟨⟩, hmem, h⟩ := bind_eq_ok.mp h
  obtain ⟨lease, hlease, hbound⟩ := okOr_bind.mp h
  rw [rejectIf_eq_ok, not_not] at hmem hbound
  exact ⟨codeId, account, pool, lease, okOr_eq_ok.mp haccount, hpool,
    by simpa using hmem, hlease, hbound⟩

theorem exists_of_pendingContains (h : pendingContainsLeasedFrame pending key claim = true) :
    ∃ pendingKey, ∃ f ∈ queueOf pending pendingKey, f.frame.chatId = claim.chatId ∧
      f.frame.messageId = claim.messageId ∧ f.frame.senderUsername = claim.senderUsername := by
  obtain ⟨e, he, h⟩ := any_eq_true.mp h
  rw [Bool.and_eq_true] at h
  obtain ⟨f, hf, hheld⟩ := any_eq_true.mp h.2
  simp only [PrekeyLease.heldBy, Bool.and_eq_true, decide_eq_true_eq] at hheld
  refine ⟨e.1, f, ?_, hheld.1.1.1.2, hheld.1.1.2, hheld.1.2⟩
  rwa [queueOf_of_get? (get?_eq_some.mpr he)]

/-- Once the replay id of the message has left its window, so that the message is not refused for
it, the frames still pending from an earlier call have expired. -/
def Lapsed (setup : Setup) (env : Surroundings) (s : State) (a : RouteArgs)
    (clock : RouteClock) : Prop :=
  ∀ client ∈ env.clients.get? a.senderId,
    (freshReplayIds clock.register s.replayIds).get? (a.replayKey client.username) = none →
    ∀ e ∈ s.pending.entries, ∀ f ∈ e.2, f.frame.chatId = a.chatId →
      f.frame.messageId = a.messageId → f.frame.senderUsername = client.username →
      f.expired setup.pendingMessageTtlMs clock.admission = true

/-- No lease the message uses runs out between the reading at which it is checked and the
reading at which the queues are pruned for the last time. -/
def Outlasting (s : State) (a : RouteArgs) (clock : RouteClock) : Prop :=
  ∀ e ∈ s.prekeyLeases.entries, ∀ envelope ∈ a.envelopes, envelope.isPrekey = true →
    envelope.prekeyId = e.1.prekeyId → envelope.recipientUsername = e.2.recipientUsername →
    e.2.chatId = a.chatId → e.2.messageId = a.messageId →
    clock.leases - e.2.createdAtMs < prekeyLeaseTtlMs →
    clock.preflight - e.2.createdAtMs < prekeyLeaseTtlMs

def Careful (setup : Setup) (s : State) (call : Call) : Prop :=
  match call.op with
  | .route a clock => Lapsed setup call.env s a clock ∧ Outlasting s a clock
  | _ => True

instance (setup : Setup) (env : Surroundings) (s : State) (a : RouteArgs) (clock : RouteClock) :
    Decidable (Lapsed setup env s a clock) := by
  unfold Lapsed
  infer_instance

instance (s : State) (a : RouteArgs) (clock : RouteClock) : Decidable (Outlasting s a clock) := by
  unfold Outlasting
  infer_instance

instance (setup : Setup) : ∀ s call, Decidable (Careful setup s call)
  | s, ⟨env, .route a clock⟩ =>
    inferInstanceAs (Decidable (Lapsed setup env s a clock ∧ Outlasting s a clock))
  | _, ⟨_, .lease _ _⟩ => .isTrue trivial
  | _, ⟨_, .release _⟩ => .isTrue trivial
  | _, ⟨_, .acknowledge _ _⟩ => .isTrue trivial
  | _, ⟨_, .prune _⟩ => .isTrue trivial

theorem Lapsed.unqueued (h : Lapsed setup env s a clock)
    (hclient : env.clients.get? a.senderId = some client)
    (hnew : (freshReplayIds clock.register s.replayIds).get? (a.replayKey client.username) = none) :
    Unqueued (atAdmission setup clock s) a.chatId a.messageId client.username := by
  rintro key f hf ⟨hchat, hmessage, hsender⟩
  have hf := (@mem_queueOf_prune s f clock.admission _ key).mp hf
  have hne : queueOf s.pending key ≠ [] := ne_nil_of_mem hf.1
  have hexpired := h client hclient hnew _ (get?_eq_some.mp (get?_of_queueOf_ne_nil hne)) f hf.1
    hchat hmessage hsender
  rw [hexpired] at hf
  cases hf.2

theorem Unqueued.prune (h : Unqueued s chatId messageId senderUsername)
    (pendingMessageTtlMs now : Nat) :
    Unqueued (prunePendingQueues pendingMessageTtlMs now s) chatId messageId senderUsername := by
  intro key f hf
  exact h key f (mem_queueOf_prune.mp hf).1

theorem Unqueued.lease_kept (h : Unqueued s chatId messageId senderUsername)
    (hlease : s.prekeyLeases.get? key = some lease)
    (hbound : lease.boundTo chatId messageId senderUsername recipient = true)
    (hfresh : now - lease.createdAtMs < prekeyLeaseTtlMs) (pendingMessageTtlMs : Nat) :
    (prunePendingQueues pendingMessageTtlMs now s).prekeyLeases.get? key = some lease := by
  rw [PrekeyLease.boundTo_iff] at hbound
  refine get?_prunePrekeyLeases.mpr ⟨get?_foldl_release.mpr ⟨hlease, ?_⟩, .inl hfresh⟩
  rintro d hd ⟨hchat, hmessage, hsender, -⟩
  obtain ⟨pendingKey, g, hg, -, rfl⟩ := exists_expired hd
  exact h pendingKey g hg ⟨hchat.symm.trans hbound.1, hmessage.symm.trans hbound.2.1,
    hsender.symm.trans hbound.2.2.1⟩

theorem Covered.atAdmission (h : Covered setup s) (clock : RouteClock) :
    Covered setup (atAdmission setup clock s) :=
  (h.prune clock.admission).pruneLeases clock.leases

theorem hasLease_atPreflight (hchecked : p.Checked setup env s.accounts a)
    (hleased : ∀ username ∈ p.recipients,
      leaseStep setup (atAdmission setup clock s) a p username = .ok ())
    (hunqueued : Unqueued (atAdmission setup clock s) a.chatId a.messageId p.sender.client.username)
    (houtlasting : Outlasting s a clock) {e : Text × OutboundMessage} (he : e ∈ p.frames)
    (hprekey : e.2.isPrekey = true) :
    HasLease setup (atPreflight setup clock s) e.1 e.2 := by
  obtain ⟨hchat, hmessage, hsender, envelope, henvelope, hid, hflag⟩ := hchecked.frames e he
  have hrecipient : e.1 ∈ p.recipients := by
    rw [← hchecked.addressed]
    exact mem_map_of_mem he
  have hflagged : envelope.isPrekey = true := hflag ▸ hprekey
  obtain ⟨codeId, account, pool, lease, haccount, hpool, hmem, hlease, hbound⟩ :=
    leaseStep_ok (hleased e.1 hrecipient) henvelope hflagged
  obtain ⟨haccount, hname⟩ := findAccount_eq_some haccount
  have hfresh : clock.preflight - lease.createdAtMs < prekeyLeaseTtlMs := by
    -- nothing pending holds the lease, so at the lease check it was kept for its age
    obtain ⟨hkept, hyoung⟩ := get?_prunePrekeyLeases.mp hlease
    have hyoung := hyoung.resolve_right fun hcontains => by
      obtain ⟨pendingKey, f, hf, hheld⟩ := exists_of_pendingContains hcontains
      obtain ⟨hchat, hmessage, hsender, -⟩ := PrekeyLease.boundTo_iff.mp hbound
      exact hunqueued pendingKey f hf
        ⟨hheld.1.trans hchat, hheld.2.1.trans hmessage, hheld.2.2.trans hsender⟩
    have hbefore := (get?_foldl_release.mp (get?_prunePrekeyLeases.mp hkept).1).1
    obtain ⟨hmem, hto⟩ := checkEnvelopes_mem hchecked.envelopes henvelope
    obtain ⟨hchat, hmessage, -, hrecipient⟩ := PrekeyLease.boundTo_iff.mp hbound
    exact houtlasting _ (get?_eq_some.mp hbefore) envelope hmem hflagged rfl
      (hto.trans hrecipient.symm) hchat hmessage hyoung
  refine ⟨codeId, account, lease, pool, haccount, hname, ?_, ?_, hpool, hid ▸ hmem⟩
  · rw [hid]
    exact hunqueued.lease_kept hlease hbound hfresh setup.pendingMessageTtlMs
  · rw [hchat, hmessage, hsender]
    exact hbound

theorem Routed.covered {result : Except String Unit}
    (hrouted : Routed setup env s a clock s' result) (h : Covered setup s)
    (hlapsed : Lapsed setup env s a clock) (houtlasting : Outlasting s a clock) :
    Covered setup s' := by
  have hadmission := h.atAdmission clock
  have hpreflight : Covered setup (atPreflight setup clock s) := hadmission.prune clock.preflight
  cases hrouted with
  | refused reason => exact h
  | unleased reason => exact hadmission
  | unplanned reason => exact hpreflight
  | undone reason =>
    exact hpreflight.shrink (hpreflight.sound.congr rfl rfl) rfl (fun _ => .refl _)
      (fun _ _ hget => hget) fun _ _ _ _ _ _ hlease _ => hlease
  | @accepted p s₁ es plans accounts hchecked hleased hframes hkeys hcommits hnew hidentity =>
    have hmem : ∀ e ∈ es, e.1 ∈ p.frames := fun e he => by
      rw [← hframes]
      exact mem_map_of_mem he
    have hunqueued := hlapsed.unqueued hchecked.client hnew
    have hcommitted : Covered setup s₁ := by
      refine hpreflight.commit hcommits hkeys ?_ (hunqueued.prune _ clock.preflight) ?_
      · intro e he
        obtain ⟨hchat, hmessage, hsender, -⟩ := hchecked.frames e.1 (hmem e he)
        exact ⟨hchat, hmessage, hsender⟩
      · intro e he hprekey
        exact hasLease_atPreflight hchecked hleased hunqueued houtlasting (hmem e he) hprekey
    have haccounts : s₁.accounts = s.accounts := hcommits.others.1
    have hreaccounted : Covered setup { s₁ with accounts := accounts } := by
      refine hcommitted.reaccount ?_ fun key lease hget => ?_
      · rw [haccounts]
        exact (applyIdentityState_pools hidentity).1
      · have hoffered := hcommitted.offered key lease hget
        rw [haccounts] at hoffered
        exact offered_of_identity hidentity nofun hoffered
    exact hreaccounted.shrink (hreaccounted.sound.congr rfl rfl) rfl (fun _ => .refl _)
      (fun _ _ hget => hget) fun _ _ _ _ _ _ hlease _ => hlease

theorem Covered.step (h : Covered setup s) (call : Call) (hcareful : Careful setup s call) :
    Covered setup (step setup s call) := by
  obtain ⟨env, op⟩ := call
  cases op with
  | lease a clock =>
    have hpruned := h.prune clock.prune
    have hleases := hpruned.pruneLeases clock.leases
    have hleased : Leased setup env s a clock (Direct.step setup s ⟨env, .lease a clock⟩) :=
      Direct.leased setup env s a clock
    generalize Direct.step setup s ⟨env, .lease a clock⟩ = s' at hleased
    cases hleased with
    | refused => exact h
    | pruned => exact hpruned
    | unchanged => exact hleases
    | granted haccount hpool hmem hfree =>
      exact hleases.grant hfree _ (findAccount_eq_some haccount).1 hpool hmem
  | release a =>
    change Covered setup (releaseUnusedPrekeyLease env s a).1
    rcases released env s a with hsame | ⟨key, lease, hlease, hunheld, hsame⟩
    · rw [hsame]
      exact h
    · rw [hsame]
      refine h.shrink (h.sound.congr rfl rfl) rfl (fun _ => .refl _)
        (fun _ _ hget => get?_of_erase hget) ?_
      intro pendingKey f hf hprekey codeId lease' hlease' hbound
      have hne : key ≠ ⟨codeId, f.frame.prekeyId⟩ := by
        rintro rfl
        rw [hlease, Option.some.injEq] at hlease'
        subst hlease'
        rw [pendingContains_of_mem hf hprekey codeId hbound] at hunheld
        cases hunheld
      exact (get?_erase_of_ne _ hne).trans hlease'
  | route a clock => exact (routed setup env h.sound a clock).covered h hcareful.1 hcareful.2
  | acknowledge a now =>
    change Covered setup (acknowledgeMessage setup env s a now).1
    rcases acknowledge_cases setup env s a now with hsame | ⟨client, -, hack⟩
    · rw [hsame]
      exact h.prune now
    · exact hack.covered (h.prune now)
  | prune now => exact h.prune now

theorem covered_start (setup : Setup) (hnames : DistinctNames accounts) :
    Covered setup (start accounts) where
  sound := (RelayState.start accounts).sound
  names := hnames
  chats _ _ hf := by cases hf
  together _ _ _ hf := by cases hf
  once _ := .nil
  leased _ _ hf := by cases hf
  offered _ _ hget := by cases hget

end Abyssal.Direct
