import Abyssal.Direct.LeaseCover

/-! Prekey leases over whole runs: every pending prekey frame has its recipient's lease, no two
frames hold one prekey, and each can be acknowledged. -/

namespace Abyssal.Direct

open List

/-- What the leases promise to the recipients of pending frames. -/
structure LeaseCover (setup : Setup) (s : State) : Prop where
  names : DistinctNames s.accounts
  leased : ∀ key, ∀ f ∈ queueOf s.pending key, f.frame.isPrekey = true →
    HasLease setup s key.recipientUsername f.frame
  distinct : ∀ (key key' : PendingKey) (i j : Nat) (f g : PendingFrame),
    (queueOf s.pending key)[i]? = some f → (queueOf s.pending key')[j]? = some g →
    key.recipientUsername = key'.recipientUsername → f.frame.isPrekey = true →
    g.frame.isPrekey = true → f.frame.prekeyId = g.frame.prekeyId → key = key' ∧ i = j
  acknowledgeable : ∀ (env : Surroundings) (a : AckArgs) (now : Nat) (client : ClientHandle)
    (f : PendingFrame), f ∈ queueOf s.pending ⟨a.chatId, client.username⟩ →
    f.frame.isPrekey = true → f.expired setup.pendingMessageTtlMs now = false →
    a.acknowledges f = true → ackAccess setup env s.accounts a = .ok client →
    client.Names s.accounts →
    (∃ accounts, applyIdentityStateLockedWithConsumed setup.crypto s.accounts client.codeId
      a.identityUpdate = .ok accounts) →
    (acknowledgeMessage setup env s a now).2 = .ok ()

variable {queue : List PendingFrame} {i j : Nat} {f g : PendingFrame}

theorem eq_of_pairwise_not {R : PendingFrame → PendingFrame → Prop}
    (hqueue : queue.Pairwise fun f g => ¬ R f g) (hsymm : ∀ f g, R f g → R g f)
    (hf : queue[i]? = some f) (hg : queue[j]? = some g) (h : R f g) : i = j := by
  obtain ⟨hi, rfl⟩ := List.getElem?_eq_some_iff.mp hf
  obtain ⟨hj, rfl⟩ := List.getElem?_eq_some_iff.mp hg
  rw [pairwise_iff_getElem] at hqueue
  rcases Nat.lt_trichotomy i j with hlt | heq | hgt
  · exact absurd h (hqueue i j hi hj hlt)
  · exact heq
  · exact absurd (hsymm _ _ h) (hqueue j i hj hi hgt)

variable {s : State}

theorem Covered.distinct {setup : Setup} (h : Covered setup s) {key key' : PendingKey}
    (hf : (queueOf s.pending key)[i]? = some f) (hg : (queueOf s.pending key')[j]? = some g)
    (hrecipient : key.recipientUsername = key'.recipientUsername)
    (hprekey_f : f.frame.isPrekey = true) (hprekey_g : g.frame.isPrekey = true)
    (hid : f.frame.prekeyId = g.frame.prekeyId) : key = key' ∧ i = j := by
  have hmem_f := mem_of_getElem? hf
  have hmem_g := mem_of_getElem? hg
  obtain ⟨left, a, lease, -, ha, hname, hlease, hbound, -⟩ := h.leased key f hmem_f hprekey_f
  obtain ⟨right, b, lease', -, hb, hname', hlease', hbound', -⟩ :=
    h.leased key' g hmem_g hprekey_g
  -- one recipient is one account, so both frames hold the same lease
  have hcode : left = right := h.names.codeId_eq ha hb (by rw [hname, hname', hrecipient])
  rw [hcode, hid, hlease', Option.some.injEq] at hlease
  subst hlease
  rw [PrekeyLease.boundTo_iff] at hbound hbound'
  have hsame : SameSend f.frame g.frame :=
    ⟨hbound.1.symm.trans hbound'.1, hbound.2.1.symm.trans hbound'.2.1,
      hbound.2.2.1.symm.trans hbound'.2.2.1⟩
  have hkey : key = key' := by
    have hchat : key.chatId = key'.chatId := by
      rw [← h.chats key f hmem_f, ← h.chats key' g hmem_g, hsame.1]
    cases key
    cases key'
    rw [PendingKey.mk.injEq]
    exact ⟨hchat, hrecipient⟩
  subst hkey
  exact ⟨rfl, eq_of_pairwise_not (R := fun f g => SameSend f.frame g.frame) (h.once key)
    (fun _ _ => sameSend_symm) hf hg hsame⟩

theorem eq_singleton_of_nodup {l : List Nat} (hnodup : l.Nodup) (hi : i ∈ l) (hall : ∀ j ∈ l, j = i) :
    l = [i] := by
  match l, hnodup, hi, hall with
  | [j], _, hi, _ => rw [mem_singleton.mp hi]
  | j :: k :: l, hnodup, _, hall =>
    have hj := hall j (by simp)
    have hk := hall k (by simp)
    rw [hj, hk] at hnodup
    simp at hnodup

variable {a : AckArgs}

theorem ackIndex_of_once {index : Nat}
    (hqueue : queue.Pairwise fun f g => ¬ SameSend f.frame g.frame) (hget : queue[index]? = some f)
    (hmatch : a.acknowledges f = true) : ackIndex a queue = .ok index := by
  have hlt : index < queue.length := (List.getElem?_eq_some_iff.mp hget).1
  have hfilter : (List.range queue.length).filter (fun i => (queue[i]?).any a.acknowledges) =
      [index] := by
    apply eq_singleton_of_nodup (nodup_range.filter _)
    · rw [mem_filter, mem_range, hget]
      exact ⟨hlt, hmatch⟩
    · intro j hj
      rw [mem_filter] at hj
      cases hj' : queue[j]? with
      | none =>
        rw [hj'] at hj
        cases hj.2
      | some g =>
        rw [hj'] at hj
        have hf := AckArgs.acknowledges_iff.mp hmatch
        have hg := AckArgs.acknowledges_iff.mp hj.2
        have hsame : SameSend g.frame f.frame :=
          ⟨hg.1.trans hf.1.symm, hg.2.1.trans hf.2.1.symm, hg.2.2.1.trans hf.2.2.1.symm⟩
        exact eq_of_pairwise_not (R := fun f g => SameSend f.frame g.frame) hqueue
          (fun _ _ => sameSend_symm) hj' hget hsame
  rw [ackIndex, hfilter]

theorem Covered.acknowledge {setup : Setup} (h : Covered setup s) {client : ClientHandle}
    (hf : f ∈ queueOf s.pending ⟨a.chatId, client.username⟩) (hprekey : f.frame.isPrekey = true)
    (hmatch : a.acknowledges f = true) (hnames : client.Names s.accounts) {accounts : Accounts}
    (hidentity : applyIdentityStateLockedWithConsumed setup.crypto s.accounts client.codeId
      a.identityUpdate = .ok accounts) : ∃ s', acknowledgePlan setup s a client = .ok s' := by
  obtain ⟨index, hlt, hget⟩ := getElem_of_mem hf
  have hget? : (queueOf s.pending ⟨a.chatId, client.username⟩)[index]? = some f :=
    List.getElem?_eq_some_iff.mpr ⟨hlt, hget⟩
  have hused : a.usedPrekeyId ≠ [] ∧ f.frame.prekeyId = a.usedPrekeyId := by
    have hlast := (AckArgs.acknowledges_iff.mp hmatch).2.2.2
    split_ifs at hlast with hnil
    · rw [hprekey] at hlast
      cases hlast.1
    · exact ⟨hnil, hlast.2⟩
  have hbytes : ¬ s.pendingBytes < outboundFrameBytes f.frame := by
    have hle := queueBytes_le_totalBytes s.pending ⟨a.chatId, client.username⟩
    have herase := queueBytes_eraseIdx hget?
    rw [h.sound.balanced]
    omega
  have hclaim : checkClaim s a client = .ok () := by
    obtain ⟨codeId, account, lease, -, haccount, hname, hlease, hbound, -⟩ :=
      h.leased _ f hf hprekey
    obtain ⟨account', haccount', hname'⟩ := Option.map_eq_some_iff.mp hnames
    have hcode : codeId = client.codeId :=
      h.names.codeId_eq haccount haccount' (hname.trans hname'.symm)
    rw [hcode, hused.2] at hlease
    obtain ⟨hchat, hmessage, hsender, -⟩ := AckArgs.acknowledges_iff.mp hmatch
    rw [hchat, hmessage, hsender] at hbound
    rw [checkClaim, if_neg hused.1]
    refine okOr_bind.mpr ⟨lease, hlease, rejectIf_eq_ok.mpr ?_⟩
    rw [not_not]
    exact hbound
  obtain ⟨-, -, account, account', nextPublic, previous, next, haccount, -, hdecode, -, hprevious,
    hnext, hkeep⟩ := applyIdentityState_pools hidentity
  have hmissing : ¬ leasesForRecipientMissingFromPool s.prekeyLeases client.codeId next
      a.consumed = true := by
    intro hany
    obtain ⟨key, hkey, hlost⟩ := any_eq_true.mp hany
    simp only [Bool.and_eq_true, decide_eq_true_eq, Bool.not_eq_true'] at hlost
    obtain ⟨lease, hlease⟩ := OrdMap.mem_keys.mp hkey
    obtain ⟨owner, pool, howner, hpool, hmem⟩ := h.offered key lease hlease
    rw [hlost.1.1, haccount, Option.some.injEq] at howner
    subst howner
    rw [hprevious, Option.some.injEq] at hpool
    subst hpool
    have hstays := hkeep _ hmem hlost.1.2
    have hgone := hlost.2
    rw [contains_eq_mem, decide_eq_false_iff_not] at hgone
    exact hgone hstays
  have hne : queueOf s.pending ⟨a.chatId, client.username⟩ ≠ [] := ne_nil_of_mem hf
  have hweight : rejectIf (s.pendingBytes <
      (((queueOf s.pending ⟨a.chatId, client.username⟩)[index]?).map fun pendingFrame =>
        outboundFrameBytes pendingFrame.frame).getD 0) "message acknowledgement rejected" =
      .ok () := by
    rw [hget?]
    exact rejectIf_eq_ok.mpr hbytes
  exact ⟨_, okOr_bind.mpr ⟨_, (get?_of_queueOf_ne_nil hne),
    bind_eq_ok.mpr ⟨index, ackIndex_of_once (h.once _) hget? hmatch,
    bind_eq_ok.mpr ⟨(), hweight, bind_eq_ok.mpr ⟨(), hclaim, bind_eq_ok.mpr ⟨nextPublic, hdecode,
    okOr_bind.mpr ⟨next, hnext,
    rejectIf_bind.mpr ⟨hmissing,
    bind_eq_ok.mpr ⟨accounts, hidentity, rfl⟩⟩⟩⟩⟩⟩⟩⟩⟩

theorem Covered.leaseCover {setup : Setup} (h : Covered setup s) :
    LeaseCover setup s where
  names := h.names
  leased := h.leased
  distinct key key' i j f g hf hg hrecipient hprekey_f hprekey_g hid :=
    h.distinct hf hg hrecipient hprekey_f hprekey_g hid
  acknowledgeable env a now client f hf hprekey halive hmatch haccess hnames hidentity := by
    obtain ⟨accounts, hidentity⟩ := hidentity
    have hstill : f ∈ queueOf (prunePendingQueues setup.pendingMessageTtlMs now s).pending
        ⟨a.chatId, client.username⟩ := mem_queueOf_prune.mpr ⟨hf, halive⟩
    obtain ⟨s', hplan⟩ := (h.prune now).acknowledge hstill hprekey hmatch hnames hidentity
    have haccess' : ackAccess setup env
        (prunePendingQueues setup.pendingMessageTtlMs now s).accounts a = .ok client := haccess
    simp only [acknowledgeMessage, haccess', hplan]

/-- In every run that routes no message again while its frames are pending and its replay id is
forgotten, and whose leases outlast their own admission, the leases cover the pending frames. -/
theorem leases_cover_pending (setup : Setup) {accounts : Accounts}
    (hnames : DistinctNames accounts) {calls : List Call}
    (hcareful : Along (Careful setup) (step setup) (start accounts) calls) :
    LeaseCover setup (after setup accounts calls) := by
  have hcovered : Covered setup (after setup accounts calls) :=
    Along.invariant (fun _ call h hcareful => h.step call hcareful)
      (covered_start setup hnames) hcareful
  exact hcovered.leaseCover

namespace Scenario

/-- Keys and signatures are always in order, and a text of one byte stands for four times as
many bytes. Every account offers the same two prekeys. -/
def crypto : Crypto where
  decode
    | [n] => some (identityEnvelopeVersion :: List.replicate (4 * n.toNat - 1) 0)
    | _ => none
  encode _ := []
  validateBundle _ _ := true
  prekeyIds _ := some [[49], [50]]
  directoryDigest _ _ _ := [8]
  verifyState _ _ _ _ _ := true
  verifyMessage _ _ _ _ _ _ _ _ _ _ _ := .ok ()
  verifyAck _ _ _ _ _ _ := .ok ()

def setup : Setup where
  crypto := crypto
  nodeId := [110]
  interopPolicy := ⟨true, true⟩
  pendingMessageTtlMs := 168 * 60 * 60 * 1000

def alice : Text := [97]
def bob : Text := [98]
def chat : Text := [99]
def message : Text := [109]

def accountOf (username : Text) : Account where
  username := username
  identityPublic := identityEnvelopeVersion :: List.replicate (identityPublicBytes - 1) 0
  identityEnvelope := []
  prekeyId := [49]
  stateRevision := 0
  stateRevisionWindow := 1
  clientPlatform := some .android

def accounts : Accounts := (OrdMap.empty.insert 1 (accountOf alice)).insert 2 (accountOf bob)

def env : Surroundings where
  clients := (OrdMap.empty.insert 1 ⟨1, alice, .android⟩).insert 2 ⟨2, bob, .android⟩
  mlsMembers := .empty
  roomCatalog := []
  directCatalog := OrdMap.empty.insert chat ⟨alice, bob⟩
  stagedAttachment _ _ _ := .ok none
  order l := l
  order_perm _ := .refl _
  random _ _ := 0

def leaseAt (now : Nat) : Call := ⟨env, .lease ⟨1, chat, message, bob⟩ ⟨now, now⟩⟩

def send (revision : Nat) : RouteArgs where
  senderId := 1
  chatId := chat
  version := e2eeProtocolVersion
  messageId := message
  nonceB64 := [3]
  ciphertextB64 := [1]
  envelopes := [⟨bob, [1], [49], true, [16]⟩]
  stateRevision := revision
  identityEnvelopeB64 := [4]
  identityPublicB64 := [152]
  prekeyId := [49]
  stateSignatureB64 := [16]
  directoryEvidence := some ⟨[110], 2, [8]⟩

def inTime : List Call := [leaseAt 0, ⟨env, .route (send 1) ⟨1, 2, 3, 4, 5⟩⟩]

/-- The lease is checked in its last millisecond and has run out at the next reading. -/
def justInTime : List Call :=
  [leaseAt 0, ⟨env, .route (send 1) ⟨29999, 29999, 30000, 30000, 30000⟩⟩]

end Scenario

open Scenario

set_option maxRecDepth 100000 in
theorem lease_runs :
    (DistinctNames accounts ∧ Along (Careful setup) (step setup) (start accounts) inTime ∧
      (queueOf (after setup accounts inTime).pending ⟨chat, bob⟩).length = 1) ∧
    (∃ f ∈ queueOf (after setup accounts justInTime).pending ⟨chat, bob⟩,
      f.frame.isPrekey = true) ∧
    (after setup accounts justInTime).prekeyLeases.entries = [] := by
  decide +kernel

theorem leases_cover_pending_inTime :
    (queueOf (after setup accounts inTime).pending ⟨chat, bob⟩).length = 1 ∧
    LeaseCover setup (after setup accounts inTime) :=
  have ⟨hnames, hrun, hlength⟩ := lease_runs.1
  ⟨hlength, leases_cover_pending setup hnames hrun⟩

theorem lease_lost_before_queueing :
    ¬ LeaseCover setup (after setup accounts justInTime) := by
  intro hcover
  obtain ⟨⟨f, hf, hprekey⟩, hleases⟩ := lease_runs.2
  obtain ⟨codeId, account, lease, pool, -, -, hlease, -⟩ := hcover.leased _ f hf hprekey
  have hmem := OrdMap.get?_eq_some.mp hlease
  rw [hleases] at hmem
  cases hmem

end Abyssal.Direct
