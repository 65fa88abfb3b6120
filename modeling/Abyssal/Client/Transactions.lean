import Abyssal.Client.Session

/-! A direct-message session changes by whole calls. A failed encryption or decryption puts its
checkpoint back, an open transaction refuses every other call, and rolling it back gives the session
that the encryption started from. -/

namespace Abyssal.Client

open OrdMap Command
open List hiding Vector

variable {Account Session : Type} {P : Platform Account Session}
  {s s₁ s₂ : E2eeState Account Session} {session : E2eeSession Account Session}

variable (P s) in
theorem restored_sessions :
    OrdMap.ofList ((checkpointState P s).peers.map fun peer =>
      (peer.peer, peer.sessions.map P.olm.sessionFromPickle)) = s.sessions := by
  have hpickle : P.olm.sessionFromPickle ∘ P.olm.pickleSession = id :=
    funext P.olm.session_pickle
  have hread : ((checkpointState P s).peers.map fun peer =>
      (peer.peer, peer.sessions.map P.olm.sessionFromPickle)) =
      (P.readOrder s.sessions.keys).map fun peer => (peer, sessionsOf s peer) := by
    simp only [checkpointState, map_map, Function.comp_def]
    refine map_congr_left fun peer _ => ?_
    rw [← Function.comp_def, hpickle, map_id]
  have hperm := P.readOrder_perm s.sessions.keys
  rw [hread]
  refine ext_get? fun key => ?_
  have hnodup : (((P.readOrder s.sessions.keys).map fun peer =>
      (peer, sessionsOf s peer)).map Prod.fst).Nodup := by
    rw [map_map, Function.comp_def, map_id']
    exact hperm.nodup_iff.mpr s.sessions.keys_nodup
  rw [get?_ofList hnodup]
  cases hget : s.sessions.get? key with
  | none =>
    refine lookupIn_eq_none.mpr fun e he hkey => ?_
    obtain ⟨peer, hpeer, rfl⟩ := mem_map.mp he
    obtain ⟨v, hv⟩ := mem_keys.mp (hperm.mem_iff.mp hpeer)
    rw [show peer = key from hkey, hget] at hv
    cases hv
  | some sessions =>
    have hmem : key ∈ P.readOrder s.sessions.keys :=
      hperm.mem_iff.mpr (mem_keys.mpr ⟨sessions, hget⟩)
    have hof : sessionsOf s key = sessions := by rw [sessionsOf, hget]; rfl
    rw [(lookupIn_eq_some hnodup).mpr (mem_map_of_mem hmem), hof]

variable (P) in
theorem restore_checkpoint (s s' : E2eeState Account Session) :
    restoreState P s' (checkpointState P s) = { s with pendingOutbound := s'.pendingOutbound } := by
  rw [restoreState, restored_sessions]
  simp only [checkpointState, P.olm.account_pickle]

variable {bytes : Bytes}

theorem restoreStateFromCheckpoint_run (h : checkpointStateBytes P s = .ok bytes)
    (s' : E2eeState Account Session) :
    restoreStateFromCheckpoint P bytes s' =
      (.ok (), { s with pendingOutbound := s'.pendingOutbound }) := by
  have hdecode := P.decode_encode (okOr_eq_ok.mp h)
  rw [restoreStateFromCheckpoint, hdecode, ← restore_checkpoint P s s']
  rfl

def E2eeState.frame (s : E2eeState Account Session) : Nat × Bytes × Option PendingOutbound :=
  (s.revision, s.fallbackPublic, s.pendingOutbound)

def Blind {A : Type} (g : E2eeState Account Session → A) : Prop :=
  ∀ s sessions sessionPrekeys,
    g { s with sessions := sessions, sessionPrekeys := sessionPrekeys } = g s

section

variable {A : Type} {g : E2eeState Account Session → A}

theorem openOutbound_keeps (hg : Blind g) (recipient : RecipientPublicKey) (draw : Nat) :
    Keeps g (openOutbound P recipient draw) :=
  .bind .get fun _ => .ite
    (.bind (.check _) fun _ => .bind (.check _) fun _ => .bind (.check _) fun _ =>
      .modify fun _ => hg _ _ _)
    (.pure _)

theorem encryptWithLast_keeps (hg : Blind g) (contentKey aad : Bytes)
    (recipient : RecipientPublicKey) (draw : Nat) :
    Keeps g (encryptWithLast P contentKey aad recipient draw) :=
  .bind .get fun _ => .bind (.check _) fun _ => .bind (.check _) fun _ =>
    .bind (.modify fun s => hg s _ s.sessionPrekeys) fun _ => .bind (.check _) fun _ =>
      .bind (.check _) fun _ => .bind (.check _) fun _ => .pure _

theorem wrapFor_keeps (hg : Blind g) (contentKey aad : Bytes) (ratchet : Text → Nat)
    (recipient : RecipientPublicKey) : Keeps g (wrapFor P contentKey aad ratchet recipient) :=
  .bind (.bind (openOutbound_keeps hg _ _) fun _ => encryptWithLast_keeps hg _ _ _ _) fun _ => .pure _

theorem openMessage_keeps (key : Text) (senderIdentity : Bytes) (message : OlmMessage)
    (prekeyId : Text) : Keeps E2eeState.frame (openMessage P key senderIdentity message prekeyId) := by
  cases message with
  | preKey oneTimeKey id body =>
    refine .bind .get fun s => ?_
    cases decryptWith P (.preKey oneTimeKey id body) id (sessionsOf s key) with
    | some opened => exact .bind (.modify fun _ => rfl) fun _ => .bind (.check _) fun _ => .pure _
    | none =>
      exact .bind (.check _) fun _ => .bind (.modify fun _ => rfl) fun _ =>
        .bind (.check _) fun _ => .bind (.modify fun _ => rfl) fun _ => .pure _
  | normal body =>
    exact .bind .get fun _ => .bind (.check _) fun _ => .bind (.modify fun _ => rfl) fun _ =>
      .bind (.check _) fun _ => .pure _

theorem replenishConsumedPrekey_keeps (consumedId : Text) (draw : Nat) :
    Keeps E2eeState.frame (replenishConsumedPrekey P consumedId draw) :=
  .bind .get fun _ => .bind (.check _) fun _ => .bind (.modify fun _ => rfl) fun _ =>
    .bind (.check _) fun _ => .bind (.check _) fun _ => .bind (.check _) fun _ =>
      .bind (.modify fun _ => rfl) fun _ => .bind .get fun _ => .bind (.check _) fun _ => .check _

theorem openPayload_keeps (input : DecryptInput) (draw : Nat) :
    Keeps E2eeState.frame (openPayload P input draw) :=
  .bind
    (.bind (.check _) fun _ => .bind (.check _) fun _ => .bind (.check _) fun _ =>
      .bind (openMessage_keeps _ _ _ _) fun _ => .bind (.check _) fun _ => .bind (.check _) fun _ =>
        .pure _)
    fun _ => .bind (.check _) fun _ => .bind (.check _) fun _ =>
      .bind (.ite (replenishConsumedPrekey_keeps _ _) (.pure _)) fun _ => .pure _

theorem advanceState_keeps (sealing : SealingMaterial) (nonce : Vector UInt8 nonceBytes) :
    Keeps E2eeState.pendingOutbound (advanceState P sealing nonce) :=
  .bind .get fun _ => .bind (.check _) fun _ => .bind (.modify fun _ => rfl) fun _ =>
    .bind .get fun _ => .bind (.check _) fun _ => .bind (.check _) fun _ => .pure _

theorem encryptWork_keeps (messageId : Text) (aad ciphertext : Bytes)
    (recipients : List RecipientPublicKey) (sealing : SealingMaterial) (draws : EncryptDraws) :
    Keeps E2eeState.pendingOutbound
      (encryptWork P messageId aad ciphertext recipients sealing draws) :=
  .bind (.each (wrapFor_keeps (fun _ _ _ => rfl) _ _ _) _) fun _ => .bind (.check _) fun _ =>
    .bind (advanceState_keeps _ _) fun _ => .bind .get fun _ => .bind (.check _) fun _ => .pure _

theorem decryptWork_keeps (input : DecryptInput) (sealing : SealingMaterial)
    (draws : DecryptDraws) :
    Keeps E2eeState.pendingOutbound (decryptWork P input sealing draws) :=
  .bind ((openPayload_keeps _ _).comp (·.2.2)) fun _ =>
    .bind (advanceState_keeps _ _) fun _ => .pure _

end

variable {messageId : Text} {revision : Nat} {session' : E2eeSession Account Session} {α : Type}
  {sealing : SealingMaterial}

structure Advanced (P : Platform Account Session) (sealing : SealingMaterial)
    (nonce : Vector UInt8 nonceBytes) (s : E2eeState Account Session) (published : PublishedState)
    (s' : E2eeState Account Session) : Prop where
  state_eq : s' = { s with revision := s.revision + 1 }
  bound : s.revision + 1 ≤ wordMax
  revision_eq : published.stateRevision = s'.revision
  sealed : sealState P s' sealing nonce = .ok published.identityEnvelope
  public_eq : published.identityPublic = publicKeyFromState P s'
  prekeyId_eq : published.prekeyId = firstPrekeyId s'
  bundle : validateIdentityPublicBundle P.keys (publicKeyFromState P s') (some (firstPrekeyId s')) =
    .ok ()

theorem advanceState_ok {nonce : Vector UInt8 nonceBytes} {published : PublishedState}
    (h : advanceState P sealing nonce s = (.ok published, s₁)) :
    Advanced P sealing nonce s published s₁ := by
  rw [advanceState, get_bind] at h
  obtain ⟨_, hrevision, h⟩ := check_bind_eq_ok.mp h
  obtain ⟨hbound, rfl⟩ := checkedAdd_eq_some.mp (okOr_eq_ok.mp hrevision)
  rw [modify_bind, get_bind] at h
  obtain ⟨envelope, hsealed, h⟩ := check_bind_eq_ok.mp h
  obtain ⟨signature, hsigned, h⟩ := check_bind_eq_ok.mp h
  obtain ⟨rfl, rfl⟩ := pure_eq_ok.mp h
  obtain ⟨transcript, htranscript, -⟩ := bind_eq_ok.mp hsigned
  obtain ⟨_, hfields, -⟩ := bind_eq_ok.mp htranscript
  obtain ⟨_, -, hbundle⟩ := bind_eq_ok.mp hfields
  exact ⟨rfl, hbound, rfl, hsealed, rfl, rfl, mapErr_eq_ok.mp hbundle⟩

structure Begun (P : Platform Account Session) (messageId : Text) (s : E2eeState Account Session)
    (revision : Nat) (s₁ : E2eeState Account Session) : Prop where
  idle : s.pendingOutbound = none
  valid : validateOutboundMessageId messageId = .ok ()
  revision_eq : revision = s.revision + 1
  bound : s.revision + 1 ≤ wordMax
  opened : ∃ checkpoint, checkpointStateBytes P s = .ok checkpoint ∧
    s₁ = { s with pendingOutbound := some ⟨messageId, revision, checkpoint⟩ }
  run : (beginOutbound P messageId s).2 = s₁

theorem beginOutbound_ok (h : beginOutbound P messageId s = (.ok revision, s₁)) :
    Begun P messageId s revision s₁ := by
  have hrun : (beginOutbound P messageId s).2 = s₁ := by rw [h]
  rw [beginOutbound, get_bind] at h
  obtain ⟨_, hidle, h⟩ := check_bind_eq_ok.mp h
  obtain ⟨_, hvalid, h⟩ := check_bind_eq_ok.mp h
  obtain ⟨_, hrevision, h⟩ := check_bind_eq_ok.mp h
  obtain ⟨checkpoint, hcheckpoint, h⟩ := check_bind_eq_ok.mp h
  obtain ⟨hbound, rfl⟩ := checkedAdd_eq_some.mp (okOr_eq_ok.mp hrevision)
  rw [modify_bind] at h
  obtain ⟨rfl, rfl⟩ := pure_eq_ok.mp h
  exact ⟨by simpa using rejectIf_eq_ok.mp hidle, hvalid, rfl, hbound,
    ⟨checkpoint, hcheckpoint, rfl⟩, hrun⟩

theorem beginOutbound_atomic (messageId : Text) :
    (beginOutbound P messageId).Atomic :=
  Atomic.get_bind fun s e s' h => by
    refine Atomic.check_bind (fun _ _ => .check_bind fun _ _ => .check_bind fun _ _ =>
      .check_bind fun _ _ => ?_) s e s' h
    intro s e s' h
    cases h

theorem rollbackPendingOutbound_run (h : Begun P messageId s revision s₁)
    (hkept : s₂.pendingOutbound = s₁.pendingOutbound) :
    rollbackPendingOutbound P s₂ = (.ok (), s) := by
  obtain ⟨checkpoint, hcheckpoint, rfl⟩ := h.opened
  have hidle : { s with pendingOutbound := none } = s := by rw [← h.idle]
  have hrestore := restoreStateFromCheckpoint_run hcheckpoint { s₂ with pendingOutbound := none }
  rw [hidle] at hrestore
  simp only [rollbackPendingOutbound, get_bind, hkept]
  exact handle_of_ok hrestore

variable {work : Command (E2eeState Account Session) α}

/-- Work in a transaction: either it counts as one revision and the transaction stays open, or
nothing has happened. -/
theorem settleOutbound_cases (hwork : work.Keeps E2eeState.pendingOutbound)
    (h : Begun P messageId s revision s₁) :
    (∃ result s₂, settleOutbound P revision work s₁ = (.ok result, s₂) ∧
      work s₁ = (.ok result, s₂) ∧ s₂.revision = revision ∧
      s₂.pendingOutbound = s₁.pendingOutbound) ∨
    ∃ e, settleOutbound P revision work s₁ = (.error e, s) := by
  have hkept := hwork s₁
  have hundo : ∀ {s₂ : E2eeState Account Session} (e : String),
      s₂.pendingOutbound = s₁.pendingOutbound →
      (do rollbackPendingOutbound P; fail e : Command _ α) s₂ = (.error e, s) :=
    fun e hkept => bind_of_ok (rollbackPendingOutbound_run h hkept)
  cases hrun : work s₁ with
  | mk result s₂ =>
    rw [hrun] at hkept
    cases result with
    | error e =>
      exact .inr ⟨e, (handle_of_error hrun).trans (hundo e hkept)⟩
    | ok result =>
      by_cases hrevision : s₂.revision = revision
      · refine .inl ⟨result, s₂, (handle_of_ok hrun).trans ?_, rfl, hrevision, hkept⟩
        rw [get_bind, if_neg (not_not.mpr hrevision)]
        rfl
      · refine .inr ⟨"Identity unavailable", (handle_of_ok hrun).trans ?_⟩
        rw [get_bind, if_pos hrevision]
        exact hundo _ hkept

theorem transaction_atomic (hwork : work.Keeps E2eeState.pendingOutbound) :
    (do let revision ← beginOutbound P messageId
        settleOutbound P revision work).Atomic := by
  intro s e s' h
  cases hbegin : beginOutbound P messageId s with
  | mk result s₁ =>
    cases result with
    | error e =>
      rw [bind_of_error hbegin] at h
      rw [← (Prod.mk.inj h).2]
      exact beginOutbound_atomic messageId s e s₁ hbegin
    | ok revision =>
      rw [bind_of_ok hbegin] at h
      obtain ⟨result, s₂, hok, -⟩ | ⟨e, herror⟩ :=
        settleOutbound_cases hwork (beginOutbound_ok hbegin)
      · rw [hok] at h
        cases h
      · rw [herror] at h
        exact (Prod.mk.inj h).2.symm

variable {work : SealingMaterial → Command (E2eeState Account Session) α}

theorem onState_atomic (h : ∀ sealing, (work sealing).Atomic) : (onState work).Atomic :=
  Atomic.get_bind fun session e session' hrun =>
    Atomic.check_bind (fun sealing _ => .zoom (fun _ => rfl) (h sealing)) session e session'
      hrun

theorem onState_ok {result : α} (h : onState work session = (.ok result, session')) : ∃ sealing s',
      session.sealing = some sealing ∧ work sealing session.state = (.ok result, s') ∧
      session' = { session with state := s' } := by
  rw [onState, get_bind] at h
  obtain ⟨sealing, hsealing, h⟩ := check_bind_eq_ok.mp h
  obtain ⟨hresult, rfl⟩ := Prod.mk.inj h
  exact ⟨sealing, _, okOr_eq_ok.mp hsealing, Prod.ext hresult rfl, rfl⟩

variable {aad ciphertext : Bytes}

theorem signEnvelope_wrappedKey {nonce identityPublic : Bytes}
    {envelopes signed : List RecipientEnvelope}
    (h : mapChecked (signEnvelope P s aad nonce ciphertext identityPublic) envelopes = .ok signed) :
    signed.map (·.wrappedKey) = envelopes.map (·.wrappedKey) := by
  have hall := mapChecked_forall₂ h
  clear h
  induction hall with
  | nil => rfl
  | cons hsign _ ih =>
    obtain ⟨_, -, hsign⟩ := bind_eq_ok.mp hsign
    cases hsign
    rw [map_cons, map_cons, ih]

variable {recipients : List RecipientPublicKey} {draws : EncryptDraws} {payload : E2eePayload}

theorem encryptWork_ok
    (h : encryptWork P messageId aad ciphertext recipients sealing draws s₁ = (.ok payload, s₂)) :
    ∃ envelopes s', each (wrapFor P draws.contentKey.toList aad draws.ratchet) recipients s₁ =
        (.ok envelopes, s') ∧
      payload.envelopes.map (·.wrappedKey) = envelopes.map (·.wrappedKey) ∧
      Advanced P sealing draws.sealNonce s' ⟨payload.stateRevision, payload.identityEnvelope,
        payload.identityPublic, payload.prekeyId, payload.stateSignature⟩ s₂ := by
  obtain ⟨envelopes, s', heach, h⟩ := ok_bind.mp h
  obtain ⟨_, -, h⟩ := check_bind_eq_ok.mp h
  obtain ⟨published, s₃, hadvance, h⟩ := ok_bind.mp h
  rw [get_bind] at h
  obtain ⟨signed, hsigned, h⟩ := check_bind_eq_ok.mp h
  obtain ⟨rfl, rfl⟩ := pure_eq_ok.mp h
  exact ⟨envelopes, s', heach, signEnvelope_wrappedKey hsigned, advanceState_ok hadvance⟩

variable {input : DecryptInput} {decryption : E2eeDecryption}

theorem decryptWork_ok {draws : DecryptDraws}
    (h : decryptWork P input sealing draws s = (.ok decryption, s₂)) :
    ∃ s', openPayload P input draws.prekey s = (.ok decryption.plaintext, s') ∧
      Advanced P sealing draws.sealNonce s' ⟨decryption.stateRevision, decryption.identityEnvelope,
        decryption.identityPublic, decryption.prekeyId, decryption.stateSignature⟩ s₂ := by
  obtain ⟨plaintext, s', hopen, h⟩ := ok_bind.mp h
  obtain ⟨published, s₃, hadvance, h⟩ := ok_bind.mp h
  obtain ⟨rfl, rfl⟩ := pure_eq_ok.mp h
  exact ⟨s', hopen, advanceState_ok hadvance⟩

theorem encrypt_atomic (chatId messageId senderUsername : Text) (plaintext : Bytes)
    (recipients : List RecipientPublicKey) (draws : EncryptDraws) :
    (encrypt P chatId messageId senderUsername plaintext recipients draws).Atomic :=
  .check_bind fun _ _ => .check_bind fun _ _ => .check_bind fun _ _ => .check_bind fun _ _ =>
    .check_bind fun _ _ => .check_bind fun _ _ => onState_atomic fun _ =>
      transaction_atomic (encryptWork_keeps _ _ _ _ _ _)

structure Encrypted (P : Platform Account Session) (session : E2eeSession Account Session)
    (chatId messageId senderUsername : Text) (recipients : List RecipientPublicKey)
    (draws : EncryptDraws) (payload : E2eePayload) (s₂ : E2eeState Account Session) : Prop where
  context_valid : validateMessageContext chatId messageId senderUsername = .ok ()
  recipients_valid : validateRecipients P [] recipients = .ok ()
  worked : ∃ s₁ sealing ciphertext revision, session.sealing = some sealing ∧
    Begun P messageId session.state revision s₁ ∧ s₂.revision = revision ∧
    s₂.pendingOutbound = s₁.pendingOutbound ∧
    encryptWork P messageId (messageAad chatId messageId senderUsername) ciphertext recipients
      sealing draws s₁ = (.ok payload, s₂)

theorem encrypt_ok {chatId senderUsername : Text} {plaintext : Bytes}
    (h : encrypt P chatId messageId senderUsername plaintext recipients draws session =
      (.ok payload, session')) : ∃ s₂, session' = { session with state := s₂ } ∧
      Encrypted P session chatId messageId senderUsername recipients draws payload s₂ := by
  obtain ⟨_, hcontext, h⟩ := check_bind_eq_ok.mp h
  obtain ⟨_, _, h⟩ := check_bind_eq_ok.mp h
  obtain ⟨_, _, h⟩ := check_bind_eq_ok.mp h
  obtain ⟨_, hrecipients, h⟩ := check_bind_eq_ok.mp h
  obtain ⟨padded, _, h⟩ := check_bind_eq_ok.mp h
  obtain ⟨ciphertext, _, h⟩ := check_bind_eq_ok.mp h
  obtain ⟨sealing, s₂, hsealing, hinner, hsession⟩ := onState_ok h
  obtain ⟨revision, s₁, hbegin, hrun⟩ := ok_bind.mp hinner
  have hbegun := beginOutbound_ok hbegin
  obtain ⟨result, s₃, hsettle, hwork, hrevision, hpending⟩ | ⟨e, herror⟩ :=
    settleOutbound_cases (encryptWork_keeps messageId (messageAad chatId messageId senderUsername)
      ciphertext recipients sealing draws) hbegun
  · rw [hsettle] at hrun
    obtain ⟨hresult, rfl⟩ := Prod.mk.inj hrun
    obtain rfl := Except.ok.inj hresult
    exact ⟨s₃, hsession, hcontext, hrecipients, s₁, sealing, ciphertext, revision, hsealing, hbegun,
      hrevision, hpending, hwork⟩
  · rw [herror] at hrun
    cases hrun

structure Decrypted (P : Platform Account Session) (session : E2eeSession Account Session)
    (input : DecryptInput) (draws : DecryptDraws) (decryption : E2eeDecryption)
    (s₂ : E2eeState Account Session) : Prop where
  input_valid : input.validate P = .ok ()
  idle : session.state.pendingOutbound = none
  worked : ∃ sealing, session.sealing = some sealing ∧
    decryptWork P input sealing draws session.state = (.ok decryption, s₂)

theorem decryptState_atomic (input : DecryptInput) (draws : DecryptDraws)
    (sealing : SealingMaterial) : (decryptState P input draws sealing).Atomic := by
  refine Atomic.get_bind fun s e s' h => ?_
  by_cases hidle : s.pendingOutbound = none
  · rw [hidle] at h
    cases hcheckpoint : checkpointStateBytes P s with
    | error e =>
      rw [hcheckpoint] at h
      exact (Prod.mk.inj h).2.symm
    | ok checkpoint =>
      rw [hcheckpoint] at h
      change (decryptWork P input sealing draws).handle _ _ s = _ at h
      have hkept := decryptWork_keeps (P := P) input sealing draws s
      cases hrun : decryptWork P input sealing draws s with
      | mk result s₂ =>
        rw [hrun] at hkept
        cases result with
        | ok decryption =>
          rw [handle_of_ok hrun] at h
          cases h
        | error e =>
          rw [handle_of_error hrun,
            bind_of_ok (restoreStateFromCheckpoint_run hcheckpoint s₂), hkept] at h
          exact (Prod.mk.inj h).2.symm
  · have hopen : s.pendingOutbound.isSome := Option.isSome_iff_ne_none.mpr hidle
    rw [rejectIf_of hopen] at h
    exact (Prod.mk.inj h).2.symm

theorem decrypt_atomic (input : DecryptInput) (draws : DecryptDraws) :
    (decrypt P input draws).Atomic :=
  .check_bind fun _ _ => onState_atomic (decryptState_atomic input draws)

theorem decrypt_ok {draws : DecryptDraws}
    (h : decrypt P input draws session = (.ok decryption, session')) :
    ∃ s₂, session' = { session with state := s₂ } ∧
      Decrypted P session input draws decryption s₂ := by
  obtain ⟨_, hinput, h⟩ := check_bind_eq_ok.mp h
  obtain ⟨sealing, s₂, hsealing, hinner, hsession⟩ := onState_ok h
  rw [decryptState, get_bind] at hinner
  obtain ⟨_, hidle, hinner⟩ := check_bind_eq_ok.mp hinner
  obtain ⟨checkpoint, hcheckpoint, hinner⟩ := check_bind_eq_ok.mp hinner
  have hnone : session.state.pendingOutbound = none := by simpa using rejectIf_eq_ok.mp hidle
  refine ⟨s₂, hsession, hinput, hnone, sealing, hsealing, ?_⟩
  cases hrun : decryptWork P input sealing draws session.state with
  | mk result s₃ =>
    cases result with
    | ok decryption' =>
      rw [handle_of_ok hrun] at hinner
      exact hinner
    | error e =>
      rw [handle_of_error hrun,
        bind_of_ok (restoreStateFromCheckpoint_run hcheckpoint s₃)] at hinner
      cases hinner

theorem matchPending_ok {u : Unit} (h : matchPending s messageId revision = .ok u) :
    s.revision = revision ∧
      ∃ pending, s.pendingOutbound = some pending ∧ pending.messageId = messageId ∧
        pending.revision = revision := by
  obtain ⟨pending, hpending, h⟩ := okOr_bind.mp h
  have hsame := rejectIf_eq_ok.mp h
  simp only [not_or, not_not] at hsame
  exact ⟨hsame.2.2, pending, hpending, hsame.1, hsame.2.1⟩

theorem rollbackPendingOutbound_atomic :
    (rollbackPendingOutbound P : Command (E2eeState Account Session) Unit).Atomic := by
  refine Atomic.get_bind fun s e s' h => ?_
  cases hpending : s.pendingOutbound with
  | none =>
    rw [hpending] at h
    exact (Prod.mk.inj h).2.symm
  | some pending =>
    rw [hpending] at h
    change (restoreStateFromCheckpoint P pending.checkpoint).handle _ _
      { s with pendingOutbound := none } = _ at h
    cases hdecode : P.decodeState pending.checkpoint with
    | some stored =>
      have hrestore : restoreStateFromCheckpoint P pending.checkpoint
          { s with pendingOutbound := none } =
          (.ok (), restoreState P { s with pendingOutbound := none } stored) := by
        rw [restoreStateFromCheckpoint, hdecode]
        rfl
      rw [handle_of_ok hrestore] at h
      cases h
    | none =>
      have hrefused : restoreStateFromCheckpoint P pending.checkpoint
          { s with pendingOutbound := none } =
          (.error "Identity unavailable", { s with pendingOutbound := none }) := by
        rw [restoreStateFromCheckpoint, hdecode]
        rfl
      rw [handle_of_error hrefused] at h
      rw [← (Prod.mk.inj h).2, ← hpending]

theorem commitOutbound_atomic (messageId : Text) (revision : Nat) :
    (commitOutbound messageId revision :
      Command (E2eeSession Account Session) Unit).Atomic :=
  .check_bind fun _ _ => .get_bind fun session e session' h =>
    Atomic.check_bind (fun _ _ => .modify _) session e session' h

theorem rollbackOutbound_atomic (messageId : Text) (revision : Nat) :
    (rollbackOutbound P messageId revision).Atomic :=
  .check_bind fun _ _ => .get_bind fun session e session' h =>
    Atomic.check_bind (fun _ _ => .zoom (fun _ => rfl) rollbackPendingOutbound_atomic)
      session e session' h

theorem commitOutbound_ok (h : commitOutbound messageId revision session = (.ok (), session')) :
    matchPending session.state messageId revision = .ok () ∧
      session' = { session with state := { session.state with pendingOutbound := none } } := by
  obtain ⟨_, -, h⟩ := check_bind_eq_ok.mp h
  rw [get_bind] at h
  obtain ⟨_, hmatch, h⟩ := check_bind_eq_ok.mp h
  exact ⟨hmatch, (Prod.mk.inj h).2.symm⟩

theorem rollbackOutbound_ok
    (h : rollbackOutbound P messageId revision session = (.ok (), session')) :
    matchPending session.state messageId revision = .ok () ∧ ∃ s',
      rollbackPendingOutbound P session.state = (.ok (), s') ∧
      session' = { session with state := s' } := by
  obtain ⟨_, -, h⟩ := check_bind_eq_ok.mp h
  rw [get_bind] at h
  obtain ⟨_, hmatch, h⟩ := check_bind_eq_ok.mp h
  obtain ⟨hresult, rfl⟩ := Prod.mk.inj h
  exact ⟨hmatch, _, Prod.ext hresult rfl, rfl⟩

theorem rollbackPendingOutbound_closes (h : rollbackPendingOutbound P s = (.ok (), s₁)) :
    s₁.pendingOutbound = none := by
  rw [rollbackPendingOutbound, get_bind] at h
  obtain ⟨pending, -, h⟩ := check_bind_eq_ok.mp h
  rw [modify_bind] at h
  cases hrestore : restoreStateFromCheckpoint P pending.checkpoint
      { s with pendingOutbound := none } with
  | mk result s' =>
    cases result with
    | error e =>
      rw [handle_of_error hrestore] at h
      cases h
    | ok u =>
      rw [handle_of_ok hrestore] at h
      obtain ⟨-, rfl⟩ := pure_eq_ok.mp h
      obtain ⟨stored, -, hmodify⟩ := check_bind_eq_ok.mp hrestore
      rw [← (Prod.mk.inj hmodify).2]
      rfl

end Abyssal.Client
