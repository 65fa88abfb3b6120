import Abyssal.Direct.Receipts
import Abyssal.Direct.LeaseRuns

/-! Every message is pending at most once. The queues are not searched when a message is
admitted; the receipt of its transaction outlives its frames, and a lapsed receipt is evidence
that the frames have lapsed too. -/

namespace Abyssal.Direct

open OrdMap List Option

section

variable {setup : Setup} {s : Relay} {id senderId : Uuid} {key : TransactionKey}
  {ticket : TransactionTicket} {clock : RouteClock} {s' core : State} {now : Nat} {a : RouteArgs}
  {request : Request} {accounts : Accounts} {client : ClientHandle} {f : PendingFrame}

structure Thinned (s s' : State) : Prop where
  names : ∀ codeId, (s'.accounts.get? codeId).map Account.username =
    (s.accounts.get? codeId).map Account.username
  sublist : ∀ key, (queueOf s'.pending key).Sublist (queueOf s.pending key)

structure Queued (setup : Setup) (s : State) (a : RouteArgs) (client : ClientHandle)
    (clock : RouteClock) (s' : State) : Prop where
  names : ∀ codeId, (s'.accounts.get? codeId).map Account.username =
    (s.accounts.get? codeId).map Account.username
  mem : ∀ key, ∀ f ∈ queueOf s'.pending key, f ∈ queueOf s.pending key ∨
    f.enqueuedAtMs = clock.commit ∧ f.frame.chatId = a.chatId ∧ f.frame.messageId = a.messageId ∧
      f.frame.senderUsername = client.username
  once : Unqueued (atAdmission setup clock s) a.chatId a.messageId client.username →
    (∀ key, (queueOf s.pending key).Pairwise fun f g => ¬ SameSend f.frame g.frame) →
    ∀ key, (queueOf s'.pending key).Pairwise fun f g => ¬ SameSend f.frame g.frame

theorem Thinned.refl (s : State) : Thinned s s := ⟨fun _ => rfl, fun _ => .refl _⟩

theorem Thinned.trans {s s₁ : State} (h : Thinned s s₁) (h' : Thinned s₁ s') : Thinned s s' :=
  ⟨fun codeId => (h'.names codeId).trans (h.names codeId),
    fun key => (h'.sublist key).trans (h.sublist key)⟩

theorem thinned_of_eq {s : State} (haccounts : s'.accounts = s.accounts)
    (hpending : s'.pending = s.pending) : Thinned s s' := by
  refine ⟨fun _ => by rw [haccounts], fun _ => ?_⟩
  rw [hpending]

theorem thinned_prune (pendingMessageTtlMs now : Nat) (s : State) :
    Thinned s (prunePendingQueues pendingMessageTtlMs now s) := by
  refine ⟨fun _ => rfl, fun key => ?_⟩
  change (queueOf (retainedQueues _ now s.pending) key).Sublist _
  rw [queueOf_retained]
  exact filter_sublist

theorem thinned_atAdmission (setup : Setup) (clock : RouteClock) (s : State) :
    Thinned s (atAdmission setup clock s) :=
  (thinned_prune _ clock.admission s).trans (thinned_of_eq rfl rfl)

theorem Acknowledged.thinned {s : State} {a : AckArgs} (h : Acknowledged setup s a client s') :
    Thinned s s' :=
  ⟨(applyIdentityState_pools h.identity).1, h.sublist⟩

theorem Leased.thinned {env : Surroundings} {s : State} {a : LeaseArgs} {clock : LeaseClock}
    (h : Leased setup env s a clock s') : Thinned s s' := by
  have hpruned := thinned_prune setup.pendingMessageTtlMs clock.prune s
  cases h with
  | refused => exact .refl _
  | pruned => exact hpruned
  | unchanged | granted haccount hpool hmem hfree => exact hpruned.trans (thinned_of_eq rfl rfl)

theorem Routed.thinned_or_queued {env : Surroundings} {s : State} {result : Except String Unit}
    (h : Routed setup env s a clock s' result) :
    Thinned s s' ∨ result = .ok () ∧ ∃ client, env.clients.get? a.senderId = some client ∧
      Queued setup s a client clock s' := by
  have hpreflight : Thinned s (atPreflight setup clock s) :=
    (thinned_atAdmission setup clock s).trans (thinned_prune _ clock.preflight _)
  cases h with
  | refused reason => exact .inl (.refl _)
  | unleased reason => exact .inl (thinned_atAdmission setup clock s)
  | unplanned reason => exact .inl hpreflight
  | undone reason => exact .inl (hpreflight.trans (thinned_of_eq rfl rfl))
  | @accepted p s₁ es plans accounts hchecked hleased hframes hkeys hcommits hnew hidentity =>
    have hsent : ∀ e ∈ es, e.1.2.chatId = a.chatId ∧ e.1.2.messageId = a.messageId ∧
        e.1.2.senderUsername = p.sender.client.username := fun e he => by
      have hmem : e.1 ∈ p.frames := by
        rw [← hframes]
        exact mem_map_of_mem he
      obtain ⟨hchat, hmessage, hsender, -⟩ := hchecked.frames e.1 hmem
      exact ⟨hchat, hmessage, hsender⟩
    refine .inr ⟨rfl, p.sender.client, hchecked.client, ?_, ?_, ?_⟩
    · exact (applyIdentityState_pools hidentity).1
    · intro key f hf
      rcases hcommits.mem hf with hf | ⟨e, he, -, rfl⟩
      · exact .inl ((hpreflight.sublist key).subset hf)
      · exact .inr ⟨rfl, hsent e he⟩
    · intro hunqueued honce
      refine hcommits.once ?_ fun key => (honce key).sublist (hpreflight.sublist key)
      intro key f hf e he hsend
      obtain ⟨hchat, hmessage, hsender⟩ := hsent e he
      exact hunqueued.prune _ clock.preflight key f hf
        ⟨hsend.1.trans hchat, hsend.2.1.trans hmessage, hsend.2.2.trans hsender⟩

theorem route_recoverable {env : Surroundings} {s : State}
    (h : (routeEncryptedMessageWithDirectory setup env s a clock).2 = .ok ()) :
    (Request.message a).recoverable = true := by
  unfold routeEncryptedMessageWithDirectory at h
  cases hprepare : prepareMessage setup env s.accounts a with
  | error reason =>
    rw [hprepare] at h
    cases h
  | ok p =>
    obtain ⟨sender, hsender, -⟩ := bind_eq_ok.mp hprepare
    obtain ⟨stamp, -, hsender⟩ := bind_eq_ok.mp hsender
    obtain ⟨⟨⟩, hvalid, -⟩ := bind_eq_ok.mp hsender
    simp only [rejectIf_eq_ok, not_or, not_not] at hvalid
    exact Bool.and_eq_true_iff.mpr ⟨hvalid.2.2, hvalid.2.1⟩

def SentAs (accounts : Accounts) (key : TransactionKey) (frame : OutboundMessage) : Prop :=
  key.kind = .message ∧ key.conversationId = frame.chatId ∧ key.messageId = frame.messageId ∧
    (accounts.get? key.accountId).map Account.username = some frame.senderUsername

theorem SentAs.key_eq (hnames : DistinctNames accounts) {key' : TransactionKey}
    {frame frame' : OutboundMessage} (h : SentAs accounts key frame)
    (h' : SentAs accounts key' frame') (hsame : SameSend frame frame') : key = key' := by
  obtain ⟨hkind, hchat, hmessage, hsender⟩ := h
  obtain ⟨hkind', hchat', hmessage', hsender'⟩ := h'
  obtain ⟨account, haccount, hname⟩ := map_eq_some_iff.mp hsender
  obtain ⟨account', haccount', hname'⟩ := map_eq_some_iff.mp hsender'
  have hcode := hnames.codeId_eq haccount haccount' (by rw [hname, hname', hsame.2.2])
  cases key
  cases key'
  simp only at hkind hchat hmessage hcode hkind' hchat' hmessage'
  rw [hkind, hchat, hmessage, hcode, hkind', hchat', hmessage', hsame.1, hsame.2.1]

theorem SentAs.congr {accounts' : Accounts} {frame : OutboundMessage}
    (h : SentAs accounts' key frame)
    (hnames : ∀ codeId, (accounts'.get? codeId).map Account.username =
      (accounts.get? codeId).map Account.username) : SentAs accounts key frame :=
  ⟨h.1, h.2.1, h.2.2.1, (hnames _).symm.trans h.2.2.2⟩

theorem expired_mono {ttl later : Nat} (h : f.expired ttl now = true) (hle : now ≤ later) :
    f.expired ttl later = true := by
  simp only [PendingFrame.expired, decide_eq_true_eq] at h ⊢
  omega

/-- Why the transaction that queued a frame cannot be begun again while the frame is alive. -/
inductive Held (setup : Setup) (s : Relay) (key : TransactionKey) (f : PendingFrame) : Prop
  | lapsed (h : f.expired setup.pendingMessageTtlMs s.clock = true)
  | receipted (receipt : Receipt) (hreceipt : s.receipts.get? key = some receipt)
      (hlong : saturatingAdd f.enqueuedAtMs setup.pendingMessageTtlMs ≤ receipt.expiresAtMs)
  | answering (senderId : Uuid) (ticket : TransactionTicket) (accepted : Bool)
      (hhandler : s.handlers.get? senderId = some (.answering ticket accepted))
      (hkey : ticket.key = key)

structure Tracked (setup : Setup) (s : Relay) : Prop where
  sound : s.core.Sound
  names : DistinctNames s.core.accounts
  once : ∀ key, (queueOf s.core.pending key).Pairwise fun f g => ¬ SameSend f.frame g.frame
  past : ∀ key, ∀ f ∈ queueOf s.core.pending key, f.enqueuedAtMs ≤ s.clock
  held : ∀ key, ∀ f ∈ queueOf s.core.pending key, ∀ transaction,
    SentAs s.core.accounts transaction f.frame → Held setup s transaction f
  settled : ∀ id request ticket, s.handlers.get? id = some (.executing request (some ticket)) →
    ∀ key, ∀ f ∈ queueOf s.core.pending key, SentAs s.core.accounts ticket.key f.frame →
      f.expired setup.pendingMessageTtlMs s.clock = true
  sender : ∀ id request ticket, s.handlers.get? id = some (.executing request ticket) →
    request.senderId = id
  labelled : ∀ id request ticket, s.handlers.get? id = some (.executing request (some ticket)) →
    ticket.key = request.transactionKey ticket.key.accountId
  unlabelled : ∀ id request, s.handlers.get? id = some (.executing request none) →
    request.recoverable = false
  reserved : ∀ id handler ticket, s.handlers.get? id = some handler →
    handler.ticket = some ticket → ∃ receipt, s.receipts.get? ticket.key = some receipt ∧
      receipt.frameDigest = ticket.frameDigest ∧ receipt.accepted = none
  exclusive : ∀ id id' handler handler' ticket ticket', s.handlers.get? id = some handler →
    s.handlers.get? id' = some handler' → handler.ticket = some ticket →
    handler'.ticket = some ticket' → ticket.key = ticket'.key → id = id'

theorem Held.mono {s' : Relay} (h : Held setup s key f) (hclock : s.clock ≤ s'.clock)
    (hreceipts : ∀ receipt, s.receipts.get? key = some receipt →
      s'.receipts.get? key = some receipt)
    (hhandlers : ∀ id ticket accepted, s.handlers.get? id = some (.answering ticket accepted) →
      ticket.key = key → s'.handlers.get? id = some (.answering ticket accepted)) :
    Held setup s' key f := by
  cases h with
  | lapsed h => exact .lapsed (expired_mono h hclock)
  | receipted receipt hreceipt hlong => exact .receipted receipt (hreceipts _ hreceipt) hlong
  | answering id ticket accepted hhandler hkey =>
    exact .answering id ticket accepted (hhandlers id ticket accepted hhandler hkey) hkey

section

variable (h : Tracked setup s)

include h

theorem Tracked.tick (hle : s.clock ≤ now) : Tracked setup { s with clock := now } :=
  { h with
    past := fun key f hf => (h.past key f hf).trans hle
    held := fun key f hf transaction hsent =>
      (h.held key f hf transaction hsent).mono hle (fun _ h => h) fun _ _ _ h _ => h
    settled := fun id request ticket hget key f hf hsent =>
      expired_mono (h.settled id request ticket hget key f hf hsent) hle }

/-- Dropping the receipts that have run out. A frame whose receipt goes has run out with it,
as long as the clock has not reached the last word, where expiry times pile up. -/
theorem Tracked.expire (hearly : s.clock < wordMax)
    (hfinished : ∀ key receipt, s.receipts.get? key = some receipt →
      receipt.accepted = none → s.clock < receipt.expiresAtMs) :
    Tracked setup { s with receipts := removeExpired s.receipts s.clock } := by
  have hkeep : ∀ {key receipt}, s.receipts.get? key = some receipt →
      s.clock < receipt.expiresAtMs →
      (removeExpired s.receipts s.clock).get? key = some receipt := by
    intro key receipt hget hlt
    rw [removeExpired, get?_filter, hget, filter_eq_some_iff]
    exact ⟨rfl, by simpa using hlt⟩
  refine { h with held := ?_, reserved := ?_ }
  · intro key f hf transaction hsent
    cases h.held key f hf transaction hsent with
    | lapsed hlapsed => exact .lapsed hlapsed
    | answering senderId ticket accepted hhandler hkey =>
      exact .answering senderId ticket accepted hhandler hkey
    | receipted receipt hreceipt hlong =>
      by_cases hlt : s.clock < receipt.expiresAtMs
      · exact .receipted receipt (hkeep hreceipt hlt) hlong
      · apply Held.lapsed
        show f.expired setup.pendingMessageTtlMs s.clock = true
        rw [saturatingAdd] at hlong
        simp only [PendingFrame.expired, decide_eq_true_eq]
        omega
  · intro id handler ticket hget hticket
    obtain ⟨receipt, hreceipt, hdigest, hopen⟩ := h.reserved id handler ticket hget hticket
    exact ⟨receipt, hkeep hreceipt (hfinished _ receipt hreceipt hopen), hdigest, hopen⟩

theorem Tracked.unused (hfree : s.receipts.get? key = none)
    {handler : Handler} (hget : s.handlers.get? id = some handler)
    (hticket : handler.ticket = some ticket) : key ≠ ticket.key := by
  rintro rfl
  obtain ⟨receipt, hthere, -⟩ := h.reserved id handler ticket hget hticket
  rw [hfree] at hthere
  cases hthere

theorem Tracked.lapsed (hfree : s.receipts.get? key = none)
    {pendingKey : PendingKey} (hf : f ∈ queueOf s.core.pending pendingKey)
    (hsent : SentAs s.core.accounts key f.frame) :
    f.expired setup.pendingMessageTtlMs s.clock = true := by
  cases h.held pendingKey f hf key hsent with
  | lapsed hlapsed => exact hlapsed
  | receipted receipt hthere hlong =>
    rw [hfree] at hthere
    cases hthere
  | answering senderId ticket accepted hhandler heq =>
    exact absurd heq.symm (h.unused hfree hhandler rfl)

theorem Tracked.insert_receipt (hfree : s.receipts.get? key = none)
    (receipt : Receipt) : Tracked setup { s with receipts := s.receipts.insert key receipt } := by
  refine { h with held := ?_, reserved := ?_ }
  · intro pendingKey f hf transaction hsent
    by_cases heq : key = transaction
    · subst heq
      exact .lapsed (h.lapsed hfree hf hsent)
    · exact (h.held pendingKey f hf transaction hsent).mono le_rfl
        (fun _ => (get?_insert_of_ne _ _ heq).trans) fun _ _ _ h _ => h
  · intro id handler ticket hget hticket
    obtain ⟨receipt', hthere, hopen⟩ := h.reserved id handler ticket hget hticket
    exact ⟨receipt', (get?_insert_of_ne _ _ (h.unused hfree hget hticket)).trans hthere,
      hopen⟩

end

structure Launchable (setup : Setup) (s : Relay) (request : Request)
    (ticket : TransactionTicket) : Prop where
  key : ticket.key = request.transactionKey ticket.key.accountId
  reserved : ∃ receipt, s.receipts.get? ticket.key = some receipt ∧
    receipt.frameDigest = ticket.frameDigest ∧ receipt.accepted = none
  unused : ∀ id handler ticket', s.handlers.get? id = some handler →
    handler.ticket = some ticket' → ticket.key ≠ ticket'.key
  lapsed : ∀ key, ∀ f ∈ queueOf s.core.pending key, SentAs s.core.accounts ticket.key f.frame →
    f.expired setup.pendingMessageTtlMs s.clock = true

variable {accepted : Bool}

section

variable (h : Tracked setup s)

include h

theorem Tracked.launch (hidle : s.handlers.get? request.senderId = none)
    {ticket : Option TransactionTicket} (hnone : ticket = none → request.recoverable = false)
    (hsome : ∀ t, ticket = some t → Launchable setup s request t) :
    Tracked setup { s with
      handlers := s.handlers.insert request.senderId (.executing request ticket) } := by
  refine { h with held := ?_, settled := ?_, sender := ?_, labelled := ?_, unlabelled := ?_,
                  reserved := ?_, exclusive := ?_ }
  · intro key f hf transaction hsent
    refine (h.held key f hf transaction hsent).mono le_rfl (fun _ h => h) ?_
    intro senderId ticket' accepted hhandler _
    have hne : request.senderId ≠ senderId := by
      rintro rfl
      rw [hidle] at hhandler
      cases hhandler
    exact (get?_insert_of_ne _ _ hne).trans hhandler
  · intro id request' ticket' hget
    rcases get?_insert_cases hget with ⟨-, heq⟩ | ⟨-, hget⟩
    · cases heq
      exact (hsome ticket' rfl).lapsed
    · exact h.settled id request' ticket' hget
  · intro id request' ticket' hget
    rcases get?_insert_cases hget with ⟨rfl, heq⟩ | ⟨-, hget⟩
    · cases heq
      rfl
    · exact h.sender id request' ticket' hget
  · intro id request' ticket' hget
    rcases get?_insert_cases hget with ⟨-, heq⟩ | ⟨-, hget⟩
    · cases heq
      exact (hsome ticket' rfl).key
    · exact h.labelled id request' ticket' hget
  · intro id request' hget
    rcases get?_insert_cases hget with ⟨-, heq⟩ | ⟨-, hget⟩
    · cases heq
      exact hnone rfl
    · exact h.unlabelled id request' hget
  · intro id handler ticket' hget hticket
    rcases get?_insert_cases hget with ⟨-, rfl⟩ | ⟨-, hget⟩
    · exact (hsome ticket' hticket).reserved
    · exact h.reserved id handler ticket' hget hticket
  · intro id id' handler handler' ticket₁ ticket₂ hget hget' hticket hticket' heq
    rcases get?_insert_cases hget with ⟨rfl, rfl⟩ | ⟨-, hget⟩
    · rcases get?_insert_cases hget' with ⟨rfl, -⟩ | ⟨-, hget'⟩
      · rfl
      · exact absurd heq ((hsome ticket₁ hticket).unused _ _ _ hget' hticket')
    · rcases get?_insert_cases hget' with ⟨rfl, rfl⟩ | ⟨-, hget'⟩
      · exact absurd heq.symm ((hsome ticket₂ hticket').unused _ _ _ hget hticket)
      · exact h.exclusive id id' handler handler' ticket₁ ticket₂ hget hget' hticket hticket' heq

theorem Tracked.thin (hsound : core.Sound) (hthin : Thinned s.core core) :
    Tracked setup { s with core := core } where
  sound := hsound
  names := h.names.of_usernames hthin.names
  once key := (h.once key).sublist (hthin.sublist key)
  past key f hf := h.past key f ((hthin.sublist key).subset hf)
  held key f hf transaction hsent :=
    (h.held key f ((hthin.sublist key).subset hf) transaction (hsent.congr hthin.names)).mono
      le_rfl (fun _ h => h) fun _ _ _ h _ => h
  settled id request ticket hget key f hf hsent :=
    h.settled id request ticket hget key f ((hthin.sublist key).subset hf)
      (hsent.congr hthin.names)
  sender := h.sender
  labelled := h.labelled
  unlabelled := h.unlabelled
  reserved := h.reserved
  exclusive := h.exclusive

theorem Tracked.answer
    (hrunning : s.handlers.get? id = some (.executing request (some ticket))) (accepted : Bool) :
    Tracked setup { s with handlers := s.handlers.insert id (.answering ticket accepted) } := by
  -- the new handler has the ticket of the one it replaces
  have hbefore : ∀ {id' handler ticket'}, (s.handlers.insert id (.answering ticket accepted)).get?
      id' = some handler → handler.ticket = some ticket' →
      ∃ handler₀, s.handlers.get? id' = some handler₀ ∧ handler₀.ticket = some ticket' := by
    intro id' handler ticket' hget hticket
    rcases get?_insert_cases hget with ⟨rfl, rfl⟩ | ⟨-, hget⟩
    · exact ⟨_, hrunning, hticket⟩
    · exact ⟨handler, hget, hticket⟩
  have hexecuting : ∀ {id' request' ticket'},
      (s.handlers.insert id (.answering ticket accepted)).get? id' =
        some (.executing request' ticket') →
      s.handlers.get? id' = some (.executing request' ticket') := by
    intro id' request' ticket' hget
    rcases get?_insert_cases hget with ⟨-, heq⟩ | ⟨-, hget⟩
    · cases heq
    · exact hget
  refine { h with held := ?_, settled := fun _ _ _ hget => h.settled _ _ _ (hexecuting hget),
                  sender := fun _ _ _ hget => h.sender _ _ _ (hexecuting hget),
                  labelled := fun _ _ _ hget => h.labelled _ _ _ (hexecuting hget),
                  unlabelled := fun _ _ hget => h.unlabelled _ _ (hexecuting hget),
                  reserved := ?_, exclusive := ?_ }
  · intro key f hf transaction hsent
    refine (h.held key f hf transaction hsent).mono le_rfl (fun _ h => h) ?_
    intro senderId ticket' accepted' hhandler _
    have hne : id ≠ senderId := by
      rintro rfl
      rw [hrunning] at hhandler
      cases hhandler
    exact (get?_insert_of_ne _ _ hne).trans hhandler
  · intro id' handler ticket' hget hticket
    obtain ⟨handler₀, hget₀, hticket₀⟩ := hbefore hget hticket
    exact h.reserved id' handler₀ ticket' hget₀ hticket₀
  · intro id₁ id₂ handler handler' ticket₁ ticket₂ hget hget' hticket hticket' heq
    obtain ⟨left, hleft, hticket_left⟩ := hbefore hget hticket
    obtain ⟨right, hright, hticket_right⟩ := hbefore hget' hticket'
    exact h.exclusive id₁ id₂ left right ticket₁ ticket₂ hleft hright hticket_left hticket_right heq

theorem Tracked.leave (id : Uuid) (receipts : Receipts)
    (hreceipts : ∀ id' handler ticket, id' ≠ id → s.handlers.get? id' = some handler →
      handler.ticket = some ticket → receipts.get? ticket.key = s.receipts.get? ticket.key)
    (hheld : ∀ key, ∀ f ∈ queueOf s.core.pending key, ∀ transaction,
      SentAs s.core.accounts transaction f.frame →
      Held setup { s with receipts := receipts, handlers := s.handlers.erase id } transaction f) :
    Tracked setup { s with receipts := receipts, handlers := s.handlers.erase id } where
  sound := h.sound
  names := h.names
  once := h.once
  past := h.past
  held := hheld
  settled id' request ticket hget := h.settled id' request ticket (get?_of_erase hget)
  sender id' request ticket hget := h.sender id' request ticket (get?_of_erase hget)
  labelled id' request ticket hget := h.labelled id' request ticket (get?_of_erase hget)
  unlabelled id' request hget := h.unlabelled id' request (get?_of_erase hget)
  reserved id' handler ticket hget hticket := by
    have hne : id' ≠ id := by
      rintro rfl
      change (s.handlers.erase id').get? id' = _ at hget
      rw [get?_erase_self] at hget
      cases hget
    have hbefore := get?_of_erase hget
    obtain ⟨receipt, hthere, hopen⟩ := h.reserved id' handler ticket hbefore hticket
    exact ⟨receipt, (hreceipts id' handler ticket hne hbefore hticket).trans hthere, hopen⟩
  exclusive id₁ id₂ handler handler' ticket ticket' hget hget' :=
    h.exclusive id₁ id₂ handler handler' ticket ticket' (get?_of_erase hget)
      (get?_of_erase hget')

theorem Tracked.leave_unlabelled (hrunning : s.handlers.get? id = some (.executing request none)) :
    Tracked setup { s with handlers := s.handlers.erase id } := by
  refine h.leave id s.receipts (fun _ _ _ _ _ _ => rfl) ?_
  intro key f hf transaction hsent
  refine (h.held key f hf transaction hsent).mono le_rfl (fun _ h => h) ?_
  intro senderId ticket accepted hhandler _
  have hne : id ≠ senderId := by
    rintro rfl
    rw [hrunning] at hhandler
    cases hhandler
  exact (get?_erase_of_ne _ hne).trans hhandler

theorem Tracked.finish (hanswering : s.handlers.get? id = some (.answering ticket accepted)) :
    Tracked setup { s with
      receipts := (finishTransaction setup.pendingMessageTtlMs s.receipts ticket accepted
        s.clock).1
      handlers := s.handlers.erase id } := by
  obtain ⟨receipt, hreceipt, hdigest, hopen⟩ := h.reserved id _ ticket hanswering rfl
  have hfinish : (finishTransaction setup.pendingMessageTtlMs s.receipts ticket accepted
      s.clock).1 = s.receipts.insert ticket.key ⟨receipt.frameDigest, some accepted,
        saturatingAdd s.clock setup.pendingMessageTtlMs⟩ := by
    simp [finishTransaction, hreceipt, hdigest, hopen]
  rw [hfinish]
  refine h.leave id _ ?_ ?_
  · intro id' handler ticket' hne hget hticket
    refine get?_insert_of_ne _ _ fun heq => hne ?_
    exact h.exclusive id' id handler _ ticket' ticket hget hanswering hticket rfl heq.symm
  · intro key f hf transaction hsent
    by_cases heq : ticket.key = transaction
    · subst heq
      refine .receipted _ (get?_insert_self ..) ?_
      have hpast := h.past key f hf
      show saturatingAdd _ _ ≤ saturatingAdd _ _
      unfold saturatingAdd
      omega
    · refine (h.held key f hf transaction hsent).mono le_rfl
        (fun _ => (get?_insert_of_ne _ _ heq).trans) ?_
      intro senderId ticket' accepted' hhandler hkey
      have hne : id ≠ senderId := by
        rintro rfl
        rw [hanswering] at hhandler
        cases hhandler
        exact heq hkey
      exact (get?_erase_of_ne _ hne).trans hhandler

theorem Tracked.queue (hanswering : s.handlers.get? id = some (.answering ticket accepted))
    (hkey : ticket.key = (Request.message a).transactionKey client.codeId)
    (hnames : client.Names s.core.accounts) (hsound : core.Sound)
    (hqueued : Queued setup s.core a client clock core)
    (hunqueued : Unqueued (atAdmission setup clock s.core) a.chatId a.messageId client.username)
    (hcommit : clock.commit ≤ s.clock) : Tracked setup { s with core := core } := by
  have hnew : ∀ {f : PendingFrame} {transaction}, f.frame.chatId = a.chatId →
      f.frame.messageId = a.messageId → f.frame.senderUsername = client.username →
      SentAs core.accounts transaction f.frame → ticket.key = transaction := by
    intro f transaction hchat hmessage hsender hsent
    have hown : SentAs s.core.accounts ticket.key f.frame := by
      rw [hkey]
      exact ⟨rfl, hchat.symm, hmessage.symm, by rw [hsender]; exact hnames⟩
    exact hown.key_eq h.names (hsent.congr hqueued.names) ⟨rfl, rfl, rfl⟩
  refine { h with sound := hsound, names := h.names.of_usernames hqueued.names,
                  once := hqueued.once hunqueued h.once, past := ?_, held := ?_, settled := ?_ }
  · intro key f hf
    rcases hqueued.mem key f hf with hf | ⟨htime, -⟩
    · exact h.past key f hf
    · rw [htime]
      exact hcommit
  · intro key f hf transaction hsent
    rcases hqueued.mem key f hf with hf | ⟨-, hchat, hmessage, hsender⟩
    · exact (h.held key f hf transaction (hsent.congr hqueued.names)).mono le_rfl
        (fun _ h => h) fun _ _ _ h _ => h
    · exact .answering id ticket accepted hanswering (hnew hchat hmessage hsender hsent)
  · intro id' request ticket' hget key f hf hsent
    rcases hqueued.mem key f hf with hf | ⟨-, hchat, hmessage, hsender⟩
    · exact h.settled id' request ticket' hget key f hf (hsent.congr hqueued.names)
    · -- the only handler with this key is the one that is answering
      have heq := hnew hchat hmessage hsender hsent
      have hid := h.exclusive id id' _ _ ticket ticket' hanswering hget rfl rfl heq
      rw [← hid, hanswering] at hget
      cases hget

end

/-- The clock does not run backwards, and handles name their accounts and keep them while a request
runs. -/
def Orderly (s : Relay) (m : Moment) : Prop :=
  (s.clock :: m.event.readings).Pairwise (· ≤ ·) ∧
  (∀ e ∈ m.env.clients.entries, e.2.Names s.core.accounts) ∧
  match m.event with
  | .execute senderId _ => ∀ ticket ∈ (s.handlers.get? senderId).bind Handler.ticket,
      ∀ client ∈ m.env.clients.get? senderId, client.codeId = ticket.key.accountId
  | _ => True

/-- When a frame is received, no reservation has run out whose transaction is not finished. -/
def Punctual (s : Relay) (m : Moment) : Prop :=
  match m.event with
  | .receive _ _ now => ∀ e ∈ s.receipts.entries, e.2.accepted = none → now < e.2.expiresAtMs
  | _ => True

/-- The clock has not reached its last word. -/
def Event.Early (event : Event) : Prop := ∀ now ∈ event.readings, now < wordMax

theorem Tracked.receive (h : Tracked setup s) (digest : Text → Bytes) (env : Surroundings)
    (request : Request) (exactFrame : Text) (hearly : s.clock < wordMax)
    (hfinished : ∀ e ∈ s.receipts.entries, e.2.accepted = none → s.clock < e.2.expiresAtMs) :
    Tracked setup (s.receive digest setup.pendingMessageTtlMs env request exactFrame s.clock) := by
  unfold Relay.receive
  split_ifs with hbusy hsafe
  · exact h
  · rw [not_isSome_iff_eq_none] at hbusy
    cases hclient : clientIdentity env request.senderId with
    | error reason => exact h
    | ok client =>
      have hexpired := h.expire hearly fun key receipt hget =>
        hfinished _ (get?_eq_some.mp hget)
      rcases beginTransaction_cases digest setup.pendingMessageTtlMs s.receipts
        (request.transactionKey client.codeId) exactFrame s.clock with
        ⟨result, hbegin, hrefused⟩ | ⟨hfree, hbegin, -⟩
      · simp only [hbegin]
        exact hexpired
      · simp only [hbegin]
        have hinserted := hexpired.insert_receipt hfree
          ⟨digest exactFrame, none, saturatingAdd s.clock setup.pendingMessageTtlMs⟩
        refine hinserted.launch hbusy nofun fun ticket heq => ?_
        cases heq
        exact ⟨rfl, ⟨_, get?_insert_self .., rfl, rfl⟩,
          fun id handler ticket' hget hticket => hexpired.unused hfree hget hticket,
          fun key f hf hsent => hexpired.lapsed hfree hf hsent⟩
  · rw [not_isSome_iff_eq_none] at hbusy
    exact h.launch hbusy (fun _ => by simpa using hsafe) nofun

theorem Tracked.execute_thin (h : Tracked setup s) {ticket : Option TransactionTicket}
    (hget : s.handlers.get? senderId = some (.executing request ticket)) (hsound : core.Sound)
    (hthin : Thinned s.core core) (accepted : Bool) :
    Tracked setup (({ s with core := core } : Relay).answered senderId ticket accepted) := by
  have hthinned := h.thin hsound hthin
  cases ticket with
  | none => exact hthinned.leave_unlabelled hget
  | some ticket => exact hthinned.answer hget accepted

theorem Tracked.unqueued (h : Tracked setup s)
    (hget : s.handlers.get? senderId = some (.executing (.message a) (some ticket)))
    (hkey : ticket.key = (Request.message a).transactionKey client.codeId)
    (hnames : client.Names s.core.accounts) (hstart : s.clock ≤ clock.admission) :
    Unqueued (atAdmission setup clock s.core) a.chatId a.messageId client.username := by
  rintro key f hf ⟨hchat, hmessage, hsender⟩
  have hf := (@mem_queueOf_prune s.core f clock.admission _ key).mp hf
  have hsent : SentAs s.core.accounts ticket.key f.frame := by
    rw [hkey]
    exact ⟨rfl, hchat.symm, hmessage.symm, by rw [hsender]; exact hnames⟩
  have hlapsed := expired_mono (h.settled senderId _ ticket hget key f hf.1 hsent) hstart
  rw [hlapsed] at hf
  cases hf.2

theorem acknowledge_thinned (setup : Setup) (env : Surroundings) (s : State) (a : AckArgs)
    (now : Nat) : Thinned s (acknowledgeMessage setup env s a now).1 := by
  have hpruned := thinned_prune setup.pendingMessageTtlMs now s
  rcases acknowledge_cases setup env s a now with heq | ⟨client, -, hack⟩
  · rw [heq]
    exact hpruned
  · exact hpruned.trans hack.thinned

theorem Tracked.execute (h : Tracked setup s) {env : Surroundings}
    (hclients : ∀ e ∈ env.clients.entries, e.2.Names s.core.accounts)
    (hsame : ∀ ticket ∈ (s.handlers.get? senderId).bind Handler.ticket,
      ∀ client ∈ env.clients.get? senderId, client.codeId = ticket.key.accountId)
    (hstart : s.clock ≤ clock.admission) (hcommit : clock.admission ≤ clock.commit)
    (hend : clock.commit ≤ clock.register) :
    Tracked setup (({ s with clock := clock.register } : Relay).execute setup env senderId
      clock) := by
  have hticked := h.tick (hstart.trans (hcommit.trans hend))
  unfold Relay.execute
  simp only
  cases hget : s.handlers.get? senderId with
  | none => exact hticked
  | some handler =>
    cases handler with
    | answering ticket accepted => exact hticked
    | executing request ticket =>
      have hsound := h.sound.step setup ⟨env, request.op clock⟩
      cases request with
      | acknowledgement a =>
        exact hticked.execute_thin hget hsound
          (acknowledge_thinned setup env s.core a clock.admission) _
      | message a =>
        rcases (routed setup env h.sound a clock).thinned_or_queued with
          hthin | ⟨hok, client, hclient, hqueued⟩
        · exact hticked.execute_thin hget hsound hthin _
        · cases ticket with
          | none =>
            have hrejected := h.unlabelled senderId _ hget
            rw [route_recoverable hok] at hrejected
            cases hrejected
          | some ticket =>
            have hid : a.senderId = senderId := h.sender senderId _ _ hget
            have hnames := hclients _ (get?_eq_some.mp hclient)
            rw [hid] at hclient
            have hcode : client.codeId = ticket.key.accountId :=
              hsame ticket (by rw [hget]; rfl) client hclient
            have hkey : ticket.key = (Request.message a).transactionKey client.codeId := by
              rw [hcode]
              exact h.labelled senderId _ ticket hget
            have hanswered := hticked.answer hget
              (exec setup s.core ⟨env, .route a clock⟩).2.isOk
            exact hanswered.queue (get?_insert_self ..) hkey hnames hsound hqueued
              (h.unqueued hget hkey hnames hstart) hend

theorem Tracked.core_step (h : Tracked setup s) (call : Call)
    (hthin : Thinned s.core (Direct.step setup s.core call)) (hle : s.clock ≤ now) :
    Tracked setup { s with core := Direct.step setup s.core call, clock := now } :=
  (h.tick hle).thin (h.sound.step setup call) hthin

theorem Tracked.step {digest : Text → Bytes} (h : Tracked setup s) (m : Moment)
    (horderly : Orderly s m) (hpunctual : Punctual s m) (hearly : m.event.Early) :
    Tracked setup (s.step setup digest m) := by
  obtain ⟨env, event⟩ := m
  obtain ⟨hclock, hclients, hrest⟩ := horderly
  cases event with
  | receive request exactFrame now =>
    have hle : s.clock ≤ now := rel_of_pairwise_cons hclock (mem_singleton_self _)
    have hnow : now < wordMax := hearly now (mem_singleton_self _)
    have hreceived := (h.tick hle).receive digest env request exactFrame hnow hpunctual
    -- the handler does not look at the last reading, so the clock may be moved first
    have hcommute : s.step setup digest ⟨env, .receive request exactFrame now⟩ =
        ({ s with clock := now } : Relay).receive digest setup.pendingMessageTtlMs env request
          exactFrame now := by
      simp only [Relay.step, Relay.act, Relay.receive]
      split_ifs
      · rfl
      · cases clientIdentity env request.senderId with
        | error reason => rfl
        | ok client =>
          simp only
          split <;> rfl
      · rfl
    rw [hcommute]
    exact hreceived
  | execute senderId clock =>
    simp only [Event.readings, pairwise_cons, mem_cons, not_mem_nil, or_false,
      forall_eq_or_imp, forall_eq] at hclock
    have hexecuted := h.execute hclients hrest hclock.1.1 hclock.2.1.2.2.1 hclock.2.2.2.2.1
    have hcommute : s.step setup digest ⟨env, .execute senderId clock⟩ =
        ({ s with clock := clock.register } : Relay).execute setup env senderId clock := by
      simp only [Relay.step, Relay.act, Relay.execute]
      split
      · rename_i request ticket _
        cases ticket with
        | none | some ticket => rfl
      · rfl
    rw [hcommute]
    exact hexecuted
  | finish senderId now =>
    have hle : s.clock ≤ now := rel_of_pairwise_cons hclock (mem_singleton_self _)
    have hticked := h.tick hle
    change Tracked setup { s.finish setup.pendingMessageTtlMs senderId now with clock := now }
    unfold Relay.finish
    cases hget : s.handlers.get? senderId with
    | none => exact hticked
    | some handler =>
      cases handler with
      | executing request ticket => exact hticked
      | answering ticket accepted => exact hticked.finish hget
  | lease a clock =>
    simp only [Event.readings, pairwise_cons, mem_cons, not_mem_nil, or_false,
      forall_eq_or_imp, forall_eq] at hclock
    exact h.core_step ⟨env, .lease a clock⟩ (leased setup env s.core a clock).thinned hclock.1.2
  | release a =>
    refine h.core_step ⟨env, .release a⟩ ?_ le_rfl
    change Thinned s.core (releaseUnusedPrekeyLease env s.core a).1
    rcases released env s.core a with hsame | ⟨key, lease, -, -, hsame⟩
    · rw [hsame]
      exact .refl _
    · rw [hsame]
      exact thinned_of_eq rfl rfl
  | prune now =>
    have hle : s.clock ≤ now := rel_of_pairwise_cons hclock (mem_singleton_self _)
    exact h.core_step ⟨env, .prune now⟩ (thinned_prune _ now s.core) hle

theorem tracked_start (setup : Setup) (hnames : DistinctNames accounts) :
    Tracked setup (Relay.start accounts) where
  sound := (RelayState.start accounts).sound
  names := hnames
  once _ := .nil
  past _ _ hf := by cases hf
  held _ _ hf := by cases hf
  settled _ _ _ hget := by cases hget
  sender _ _ _ hget := by cases hget
  labelled _ _ _ hget := by cases hget
  unlabelled _ _ hget := by cases hget
  reserved _ _ _ hget := by cases hget
  exclusive _ _ _ _ _ _ hget := by cases hget

def ackMatches (a : AckArgs) (queue : List PendingFrame) : List Nat :=
  (List.range queue.length).filter fun i => (queue[i]?).any a.acknowledges

/-- No message is pending twice for a recipient, and no acknowledgement, at whatever time it
prunes the queue, has two frames to choose from. -/
structure PendingOnce (setup : Setup) (s : State) : Prop where
  once : ∀ key, (queueOf s.pending key).Pairwise fun f g => ¬ SameSend f.frame g.frame
  matched : ∀ (a : AckArgs) (key : PendingKey) (now : Nat),
    (ackMatches a (queueOf (prunePendingQueues setup.pendingMessageTtlMs now s).pending
      key)).length ≤ 1

theorem length_le_one_of_nodup {l : List Nat} (hnodup : l.Nodup)
    (hall : ∀ i ∈ l, ∀ j ∈ l, i = j) : l.length ≤ 1 := by
  match l, hnodup, hall with
  | [], _, _ => exact Nat.zero_le 1
  | [_], _, _ => exact le_rfl
  | i :: j :: l, hnodup, hall =>
    have heq := hall i (by simp) j (by simp)
    rw [heq] at hnodup
    simp at hnodup

theorem ackMatches_length_le_one (a : AckArgs) {queue : List PendingFrame}
    (hqueue : queue.Pairwise fun f g => ¬ SameSend f.frame g.frame) :
    (ackMatches a queue).length ≤ 1 := by
  have hfound : ∀ i ∈ ackMatches a queue, ∃ f, queue[i]? = some f ∧ a.acknowledges f = true := by
    intro i hi
    have hany := (mem_filter.mp hi).2
    cases hget : queue[i]? with
    | none => rw [hget] at hany; cases hany
    | some f =>
      rw [hget] at hany
      exact ⟨f, rfl, hany⟩
  apply length_le_one_of_nodup (nodup_range.filter _)
  intro i hi j hj
  obtain ⟨f, hf, hmatch_f⟩ := hfound i hi
  obtain ⟨g, hg, hmatch_g⟩ := hfound j hj
  have hleft := AckArgs.acknowledges_iff.mp hmatch_f
  have hright := AckArgs.acknowledges_iff.mp hmatch_g
  exact eq_of_pairwise_not (R := fun f g => SameSend f.frame g.frame) hqueue
    (fun _ _ => sameSend_symm) hf hg ⟨hleft.1.trans hright.1.symm,
      hleft.2.1.trans hright.2.1.symm, hleft.2.2.1.trans hright.2.2.1.symm⟩

/-- In every orderly run whose transactions are finished in time, and whose clock stays below its
last word, each message is pending at most once. -/
theorem pending_once (setup : Setup) (digest : Text → Bytes) {accounts : Accounts}
    (hnames : DistinctNames accounts) {moments : List Moment}
    (hrun : Along (fun s m => Orderly s m ∧ Punctual s m ∧ m.event.Early)
      (Relay.step setup digest) (Relay.start accounts) moments) :
    PendingOnce setup (Relay.after setup digest accounts moments).core := by
  have htracked : Tracked setup (Relay.after setup digest accounts moments) :=
    Along.invariant (fun _ m h hm => h.step m hm.1 hm.2.1 hm.2.2) (tracked_start setup hnames) hrun
  exact ⟨htracked.once, fun a key now => ackMatches_length_le_one a
    ((htracked.once key).sublist ((thinned_prune _ now _).sublist key))⟩

end

instance (event : Event) : Decidable event.Early :=
  inferInstanceAs (Decidable (∀ now ∈ event.readings, now < wordMax))

instance (s : Relay) : ∀ m, Decidable (Orderly s m)
  | ⟨_, .receive _ _ _⟩ => inferInstanceAs (Decidable (_ ∧ _ ∧ True))
  | ⟨_, .execute _ _⟩ => inferInstanceAs (Decidable (_ ∧ _ ∧ _))
  | ⟨_, .finish _ _⟩ => inferInstanceAs (Decidable (_ ∧ _ ∧ True))
  | ⟨_, .lease _ _⟩ => inferInstanceAs (Decidable (_ ∧ _ ∧ True))
  | ⟨_, .release _⟩ => inferInstanceAs (Decidable (_ ∧ _ ∧ True))
  | ⟨_, .prune _⟩ => inferInstanceAs (Decidable (_ ∧ _ ∧ True))

instance (s : Relay) : ∀ m, Decidable (Punctual s m)
  | ⟨_, .receive _ _ _⟩ => inferInstanceAs (Decidable (∀ e ∈ s.receipts.entries, _ → _))
  | ⟨_, .execute _ _⟩ => instDecidableTrue
  | ⟨_, .finish _ _⟩ => instDecidableTrue
  | ⟨_, .lease _ _⟩ => instDecidableTrue
  | ⟨_, .release _⟩ => instDecidableTrue
  | ⟨_, .prune _⟩ => instDecidableTrue

namespace Scenario

def digest (text : Text) : Bytes := text

def day : Nat := 24 * 60 * 60 * 1000

/-- The keys are written so long that a frame needs little padding. -/
def longKeys : Setup :=
  { setup with crypto := { crypto with encode := fun _ => List.replicate 1800 65 } }

def delivery (env : Surroundings) (request : Request) (frame : Text) (now : Nat) : List Moment :=
  [⟨env, .receive request frame now⟩,
    ⟨env, .execute request.senderId ⟨now, now, now, now, now⟩⟩,
    ⟨env, .finish request.senderId now⟩]

/-- The message is sent, and again 25 hours later. -/
def twice (now : Nat) : List Moment :=
  ⟨env, .lease ⟨1, chat, message, bob⟩ ⟨now, now⟩⟩ ::
    delivery env (.message (send 1)) [1] now ++
    delivery env (.message (send 2)) [2] (now + 25 * 60 * 60 * 1000)

/-- A message of an established session, from one of Alice's connections. -/
def reply (connection : Uuid) (revision : Nat) : RouteArgs :=
  { send revision with senderId := connection, envelopes := [⟨bob, [1], [], false, [16]⟩] }

def acknowledgement : AckArgs where
  senderId := 2
  chatId := chat
  messageId := [120]
  originalSender := alice
  revision := 1
  envelopeB64 := [4]
  identityPublicB64 := [152]
  currentPrekeyId := [49]
  stateSignatureB64 := [16]
  ackSignatureB64 := [16]
  usedPrekeyId := []

def reconnected : Surroundings :=
  { env with
    clients := (OrdMap.empty.insert 2 ⟨2, bob, .android⟩).insert 3 ⟨1, alice, .android⟩ }

/-- The relay sleeps for seven days while Alice's message waits to be routed. Then it is routed, a
frame of Bob's is received, which drops the reservation of her transaction, and both transactions
are finished. On her next connection Alice sends the message again. -/
def late : List Moment :=
  [⟨env, .receive (.message (reply 1 1)) [1] 0⟩,
    ⟨env, .execute 1 ⟨7 * day, 7 * day, 7 * day, 7 * day, 7 * day⟩⟩] ++
  delivery env (.acknowledgement acknowledgement) [2] (7 * day) ++
  [⟨env, .finish 1 (7 * day)⟩] ++
  delivery reconnected (.message (reply 3 2)) [3] (8 * day)

end Scenario

open Scenario

set_option maxRecDepth 100000 in
theorem once_runs :
    (DistinctNames accounts ∧
      Along (fun s m => Orderly s m ∧ Punctual s m ∧ m.event.Early) (Relay.step longKeys digest)
        (Relay.start accounts) (twice 0) ∧
      (queueOf (Relay.after longKeys digest accounts (twice 0)).core.pending
        ⟨chat, bob⟩).length = 1) ∧
    (Along (fun s m => Orderly s m ∧ Punctual s m) (Relay.step longKeys digest)
        (Relay.start accounts) (twice (wordMax - 25 * 60 * 60 * 1000)) ∧
      ¬ (queueOf (Relay.after longKeys digest accounts
        (twice (wordMax - 25 * 60 * 60 * 1000))).core.pending ⟨chat, bob⟩).Pairwise
          fun f g => ¬ SameSend f.frame g.frame) ∧
    Along (fun s m => Orderly s m ∧ m.event.Early) (Relay.step longKeys digest)
      (Relay.start accounts) late ∧
    (Relay.after longKeys digest accounts late).handlers.entries.length = 0 ∧
    ¬ (queueOf (Relay.after longKeys digest accounts late).core.pending ⟨chat, bob⟩).Pairwise
      fun f g => ¬ SameSend f.frame g.frame := by
  decide +kernel

theorem pending_once_retried :
    (queueOf (Relay.after longKeys digest accounts (twice 0)).core.pending
      ⟨chat, bob⟩).length = 1 ∧
    PendingOnce longKeys (Relay.after longKeys digest accounts (twice 0)).core :=
  have ⟨hnames, hrun, hlength⟩ := once_runs.1
  ⟨hlength, pending_once longKeys digest hnames hrun⟩

/-- At the last word of the clock every receipt has run out, and the frame has not. -/
theorem pending_twice_at_last_word :
    Along (fun s m => Orderly s m ∧ Punctual s m) (Relay.step longKeys digest)
      (Relay.start accounts) (twice (wordMax - 25 * 60 * 60 * 1000)) ∧
    ¬ PendingOnce longKeys (Relay.after longKeys digest accounts
      (twice (wordMax - 25 * 60 * 60 * 1000))).core := by
  obtain ⟨hrun, htwice⟩ := once_runs.2.1
  exact ⟨hrun, fun honce => htwice (honce.once _)⟩

/-- Every transaction of the run is finished, at ordinary readings of the clock, and the message is
pending twice. -/
theorem pending_twice_after_sleep :
    DistinctNames accounts ∧
    Along (fun s m => Orderly s m ∧ m.event.Early) (Relay.step longKeys digest)
      (Relay.start accounts) late ∧
    (Relay.after longKeys digest accounts late).handlers.entries = [] ∧
    ¬ PendingOnce longKeys (Relay.after longKeys digest accounts late).core := by
  obtain ⟨⟨hnames, -⟩, -, hrun, hfinished, htwice⟩ := once_runs
  exact ⟨hnames, hrun, length_eq_zero_iff.mp hfinished, fun honce => htwice (honce.once _)⟩

end Abyssal.Direct
