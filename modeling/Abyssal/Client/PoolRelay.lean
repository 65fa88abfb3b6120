import Abyssal.Client.Prekeys
import Abyssal.Client.Naming

/-! The relay's view of a session's prekey pool. The relay keeps the bundle of the last report and
compares the ids of the next one with it. A session that reports its steps in order is never
refused, and what the relay keeps is the bundle of the session. -/

namespace Abyssal.Client

open List hiding Vector

variable {Account Session : Type} {P : Platform Account Session} (crypto : Direct.Crypto)
  {session : E2eeSession Account Session} {s s₁ s₂ : E2eeState Account Session} {stored : Bytes}

def relayCrypto (P : Platform Account Session) (crypto : Direct.Crypto) : Direct.Crypto :=
  -- The relay reads the ids of a bundle with the shared parser.
  { crypto with prekeyIds := fun bundle => (prekeyIdsFromIdentityPublic P.keys bundle).toOption }

def relayAccepts (P : Platform Account Session) (crypto : Direct.Crypto) (stored next : Bytes)
    (consumed : Option Text) : Except String Unit :=
  Direct.validatePrekeyPoolTransition (relayCrypto P crypto) stored next consumed

theorem relay_prekeyIds (h : Pooled P s) :
    (relayCrypto P crypto).prekeyIds (publicKeyFromState P s) = some (s.prekeys.map (·.id)) := by
  change (prekeyIdsFromIdentityPublic P.keys (publicKeyFromState P s)).toOption = _
  rw [prekeyIds_publicKey h.shape h.bundle]
  rfl

theorem Pooled.nodup (h : Pooled P s) : (s.prekeys.map (·.id)).Nodup :=
  h.shape.sorted.imp fun hlt => ne_of_lt hlt

theorem differences_of_replaced {previous next : List Text} {consumed new : Text}
    (hprevious : previous.Nodup) (hnext : next.Nodup) (hconsumed : consumed ∈ previous)
    (hnew : new ∉ previous)
    (hmem : ∀ id, id ∈ next ↔ id ∈ previous ∧ id ≠ consumed ∨ id = new) :
    (previous.filter fun id => ¬ next.contains id) = [consumed] ∧
      (next.filter fun id => ¬ previous.contains id).length = 1 ∧ ¬ next.contains consumed := by
  have hgone : consumed ∉ next := by
    intro h
    obtain ⟨-, hne⟩ | rfl := (hmem consumed).mp h
    · exact hne rfl
    · exact hnew hconsumed
  have hremoved : (previous.filter fun id => ¬ next.contains id) =
      previous.filter fun id => id = consumed := by
    refine filter_congr fun id hid => ?_
    simp only [contains_iff_mem, hmem, decide_eq_decide]
    constructor
    · intro h
      by_contra hne
      exact h (.inl ⟨hid, hne⟩)
    · rintro rfl h
      exact hgone ((hmem _).mpr h)
  have hadded : (next.filter fun id => ¬ previous.contains id) = next.filter fun id => id = new := by
    refine filter_congr fun id hid => ?_
    simp only [contains_iff_mem, decide_eq_decide]
    constructor
    · intro h
      obtain ⟨hold, -⟩ | rfl := (hmem id).mp hid
      · exact absurd hold h
      · rfl
    · rintro rfl
      exact hnew
  refine ⟨?_, ?_, by rwa [contains_iff_mem]⟩
  · rw [hremoved, filter_eq, count_eq_one_of_mem hprevious hconsumed]
    rfl
  · rw [hadded, filter_eq, length_replicate]
    exact count_eq_one_of_mem hnext ((hmem new).mpr (.inr rfl))

theorem relayAccepts_same (h : Pooled P s) (h₁ : Pooled P s₁) (hsame : s₁.prekeys = s.prekeys) :
    relayAccepts P crypto (publicKeyFromState P s) (publicKeyFromState P s₁) none = .ok () := by
  unfold relayAccepts Direct.validatePrekeyPoolTransition
  simp only [relay_prekeyIds crypto h, relay_prekeyIds crypto h₁, hsame]
  exact rejectIf_eq_ok.mpr (not_not.mpr rfl)

variable {consumedId : Text} {draw : Nat}

theorem Replenished.mem_ids (h : Replenished P consumedId draw s s₁)
    (hnodup : (s.prekeys.map (·.id)).Nodup) :
    ∃ new, new ∉ s.prekeys.map (·.id) ∧ ∀ id, id ∈ s₁.prekeys.map (·.id) ↔
      id ∈ s.prekeys.map (·.id) ∧ id ≠ consumedId ∨ id = new := by
  obtain ⟨replacement, -, hfresh, rfl⟩ := h.replaced
  have herase : (s.prekeys.eraseP (·.id = consumedId)).map (·.id) =
      (s.prekeys.map (·.id)).filter (· != consumedId) := by
    rw [← hnodup.erase_eq_filter, erase_eq_eraseP, eraseP_map]
    refine congrArg (List.map _) (congrArg (List.eraseP · s.prekeys) (funext fun prekey => ?_))
    exact Bool.eq_iff_iff.mpr (decide_eq_true_iff.trans (eq_comm.trans beq_iff_eq.symm))
  refine ⟨replacement.id, ?_, fun id => ?_⟩
  · rw [mem_map]
    rintro ⟨prekey, hmem, heq⟩
    exact hfresh prekey hmem heq
  · have hperm := (perm_insertionSort (fun a b : StoredPrekey => a.id ≤ b.id)
      (s.prekeys.eraseP (·.id = consumedId) ++ [replacement])).map (·.id)
    rw [sortPrekeys, hperm.mem_iff, map_append, herase]
    simp

theorem relayAccepts_replenished (h : Pooled P s) (h₂ : Pooled P s₂)
    (hsame : s₁.prekeys = s.prekeys) (hreplenished : Replenished P consumedId draw s₁ s₂) :
    relayAccepts P crypto (publicKeyFromState P s) (publicKeyFromState P s₂) (some consumedId) =
      .ok () := by
  have hconsumed : consumedId ∈ s.prekeys.map (·.id) := by
    obtain ⟨prekey, hmem, hid⟩ := hreplenished.consumed
    exact mem_map.mpr ⟨prekey, hsame ▸ hmem, hid⟩
  obtain ⟨new, hnew, hmem⟩ := hreplenished.mem_ids (hsame ▸ h.nodup)
  rw [hsame] at hnew hmem
  unfold relayAccepts Direct.validatePrekeyPoolTransition
  simp only [relay_prekeyIds crypto h, relay_prekeyIds crypto h₂]
  exact rejectIf_eq_ok.mpr (not_not.mpr
    (differences_of_replaced h.nodup h₂.nodup hconsumed hnew hmem))

def opensInbound (P : Platform Account Session) (s : E2eeState Account Session)
    (input : DecryptInput) : Bool :=
  (P.decodeMessage input.wrappedKey).any fun message =>
    message.isPreKey && (heldSession P s (peerKey input.senderUsername) message).isNone

/-- What a successful call reports: the next bundle, and the prekey that was consumed. -/
def report (P : Platform Account Session) (session : E2eeSession Account Session) :
    Call → Option (Bytes × Option Text)
  | .encrypt chatId messageId senderUsername plaintext recipients draws =>
    (encrypt P chatId messageId senderUsername plaintext recipients draws session).1.toOption.map
      fun payload => (payload.identityPublic, none)
  | .decrypt input draws =>
    (decrypt P input draws session).1.toOption.map fun decryption =>
      (decryption.identityPublic,
        if opensInbound P session.state input then some input.recipientPrekeyId else none)
  | _ => none

variable {input : DecryptInput}

theorem openPayload_accepted {plaintext : Bytes}
    (h : openPayload P input draw s = (.ok plaintext, s₁)) (hs : Pooled P s) (hs₁ : Pooled P s₁) :
    relayAccepts P crypto (publicKeyFromState P s) (publicKeyFromState P s₁)
      (if opensInbound P s input then some input.recipientPrekeyId else none) = .ok () := by
  obtain ⟨message, hdecoded, ⟨hheld, hsame⟩ | ⟨hprekey, hnone, s', hs', hreplenished⟩⟩ :=
    openPayload_prekeys h
  · have hclosed : opensInbound P s input = false := by
      rw [opensInbound, hdecoded, Option.any_some, Option.isNone_eq_false_iff.mpr
        (Option.ne_none_iff_isSome.mp hheld), Bool.and_false]
    rw [hclosed]
    exact relayAccepts_same crypto hs hs₁ (congrArg Prod.snd hsame)
  · have hopens : opensInbound P s input = true := by
      rw [opensInbound, hdecoded, Option.any_some, hprekey, hnone]
      rfl
    rw [hopens]
    exact relayAccepts_replenished crypto hs hs₁ hs' hreplenished

theorem Decrypted.accepted {draws : DecryptDraws} {decryption : E2eeDecryption}
    (h : Decrypted P session input draws decryption s₂) (hpooled : Pooled P session.state) :
    decryption.identityPublic = publicKeyFromState P s₂ ∧
      relayAccepts P crypto (publicKeyFromState P session.state) decryption.identityPublic
        (if opensInbound P session.state input then some input.recipientPrekeyId else none) =
          .ok () := by
  obtain ⟨sealing, -, hwork⟩ := h.worked
  obtain ⟨s', hopen, hadvanced⟩ := decryptWork_ok hwork
  have hpooled' := (pooled_stable P).unwraps session input draws trivial h.input_valid hpooled _ s'
    hopen hadvanced.bundleValid
  have hpublic : decryption.identityPublic = publicKeyFromState P s₂ := hadvanced.public_eq
  have hcounted : publicKeyFromState P s₂ = publicKeyFromState P s' := by
    rw [hadvanced.state_eq]
    rfl
  refine ⟨hpublic, ?_⟩
  rw [hpublic, hcounted]
  exact openPayload_accepted crypto hopen hpooled hpooled'

theorem Encrypted.published {chatId messageId senderUsername : Text}
    {recipients : List RecipientPublicKey} {draws : EncryptDraws} {payload : E2eePayload}
    (h : Encrypted P session chatId messageId senderUsername recipients draws payload s₂) :
    payload.identityPublic = publicKeyFromState P s₂ ∧
      Client.published P s₂ = Client.published P session.state := by
  obtain ⟨s₁, sealing, ciphertext, revision, -, hbegun, -, -, hwork⟩ := h.worked
  obtain ⟨checkpoint, -, hs₁⟩ := hbegun.opened
  obtain ⟨envelopes, s', heach, -, hadvanced⟩ := encryptWork_ok hwork
  refine ⟨hadvanced.public_eq, ?_⟩
  calc Client.published P s₂ = Client.published P s' := by rw [hadvanced.state_eq]; rfl
    _ = Client.published P s₁ := wraps_published heach
    _ = Client.published P session.state := by rw [hs₁]; rfl

def relayStep (P : Platform Account Session) (crypto : Direct.Crypto) (stored : Bytes)
    (session : E2eeSession Account Session) (call : Call) : Except String Bytes :=
  -- The relay after a call: an unreported one leaves what it stores.
  match report P session call with
  | none => .ok stored
  | some (next, consumed) => do
    relayAccepts P crypto stored next consumed
    .ok next

/-- Every report of a run given to the relay in order. -/
def relayRun (P : Platform Account Session) (crypto : Direct.Crypto) :
    Bytes → E2eeSession Account Session → List Call → Except String Bytes
  | stored, _, [] => .ok stored
  | stored, session, call :: calls => do
    let stored ← relayStep P crypto stored session call
    relayRun P crypto stored (step P session call) calls

structure Synced (P : Platform Account Session) (stored : Bytes)
    (session : E2eeSession Account Session) : Prop where
  pooled : Held P (Pooled P) session.state
  stored : Held P (publicKeyFromState P · = stored) session.state

def Call.isDecrypt : Call → Bool
  | .decrypt .. => true
  | _ => false

variable (P stored) in
theorem publicKey_stable :
    Stable P (fun _ call => call.isDecrypt = false) (publicKeyFromState P · = stored) where
  frame _ _ _ h := h
  wraps := by
    intro session chatId messageId sender plaintext recipients draws _ _ h s₁ envelopes s' _ hs₁
      heach _
    have hkept : publicKeyFromState P s' = publicKeyFromState P s₁ :=
      congrArg Prod.fst (wraps_published heach)
    have hstart : publicKeyFromState P s₁ = publicKeyFromState P session.state := by
      rw [hs₁]
      rfl
    exact (hkept.trans hstart).trans h
  unwraps := by
    intro session input draws hguard
    cases hguard

section

variable (h : Synced P stored session)

include h

theorem Synced.step_of_not_decrypt {call : Call}
    (hcall : call.isDecrypt = false) : Synced P stored (step P session call) :=
  ⟨(pooled_stable P).step h.pooled trivial, (publicKey_stable P stored).step h.stored hcall⟩

theorem relayStep_decrypt (input : DecryptInput)
    (draws : DecryptDraws) : ∃ next, relayStep P crypto stored session (.decrypt input draws) =
      .ok next ∧ Synced P next (step P session (.decrypt input draws)) := by
  have hpooled := @Stable.step _ _ P _ session _ (pooled_stable P) (.decrypt input draws) h.pooled trivial
  cases hrun : decrypt P input draws session with
  | mk result session' =>
    have hstep : step P session (.decrypt input draws) = session' := by
      rw [step, Call.run, Command.map_run, hrun]
    cases result with
    | error e =>
      refine ⟨stored, by simp [relayStep, report, hrun, Except.toOption], ?_⟩
      rw [hstep, decrypt_atomic input draws session e session' hrun]
      exact h
    | ok decryption =>
      obtain ⟨s₂, rfl, hdec⟩ := decrypt_ok hrun
      obtain ⟨hpublic, haccepted⟩ := hdec.accepted crypto h.pooled.now
      rw [h.stored.now] at haccepted
      refine ⟨decryption.identityPublic, ?_, ?_⟩
      · simp only [relayStep, report, hrun, Except.toOption, Option.map_some, haccepted]
        rfl
      · obtain ⟨sealing, -, hwork⟩ := hdec.worked
        have hkept := decryptWork_keeps (P := P) input sealing draws session.state
        rw [hwork] at hkept
        rw [hstep] at hpooled ⊢
        exact ⟨hpooled, .of_idle hpublic.symm (hkept.trans hdec.idle)⟩

theorem relayStep_encrypt (chatId messageId senderUsername : Text)
    (plaintext : Bytes) (recipients : List RecipientPublicKey) (draws : EncryptDraws) :
    relayStep P crypto stored session
      (.encrypt chatId messageId senderUsername plaintext recipients draws) = .ok stored := by
  cases hrun : encrypt P chatId messageId senderUsername plaintext recipients draws session with
  | mk result session' =>
    cases result with
    | error e => simp [relayStep, report, hrun, Except.toOption]
    | ok payload =>
      obtain ⟨s₂, rfl, henc⟩ := encrypt_ok hrun
      obtain ⟨hpublic, hsame⟩ := henc.published
      have hkey : payload.identityPublic = stored :=
        (hpublic.trans (congrArg Prod.fst hsame)).trans h.stored.now
      have haccepted : relayAccepts P crypto stored stored none = .ok () := by
        rw [← h.stored.now]
        exact relayAccepts_same crypto h.pooled.now h.pooled.now rfl
      simp only [relayStep, report, hrun, Except.toOption, Option.map_some, hkey, haccepted]
      rfl

theorem relayStep_synced (call : Call) : ∃ next, relayStep P crypto stored session call = .ok next ∧
      Synced P next (step P session call) := by
  cases call with
  | decrypt input draws => exact relayStep_decrypt crypto h input draws
  | encrypt chatId messageId senderUsername plaintext recipients draws =>
    exact ⟨stored, relayStep_encrypt crypto h chatId messageId senderUsername plaintext recipients draws,
      h.step_of_not_decrypt rfl⟩
  | commitOutbound | rollbackOutbound | requiresPrekey | sealIdentity =>
    exact ⟨stored, rfl, h.step_of_not_decrypt rfl⟩

theorem relayRun_synced (calls : List Call) :
    ∃ next, relayRun P crypto stored session calls = .ok next ∧
      Synced P next (after P session calls) := by
  induction calls generalizing stored session with
  | nil => exact ⟨stored, rfl, h⟩
  | cons call calls ih =>
    obtain ⟨next, hstep, hnext⟩ := relayStep_synced crypto h call
    obtain ⟨last, hrun, hlast⟩ := ih hnext
    exact ⟨last, bind_eq_ok.mpr ⟨next, hstep, hrun⟩, hlast⟩

end

/-- Client and relay agree on the next change of the pool, whatever the next call is. -/
structure PoolAgreed (P : Platform Account Session) (crypto : Direct.Crypto)
    (session : E2eeSession Account Session) : Prop where
  opened : ∀ input draws decryption session',
    decrypt P input draws session = (.ok decryption, session') →
    opensInbound P session.state input = true →
    relayAccepts P crypto (publicKeyFromState P session.state) decryption.identityPublic
      (some input.recipientPrekeyId) = .ok ()
  held : ∀ input draws decryption session',
    decrypt P input draws session = (.ok decryption, session') →
    opensInbound P session.state input = false →
    relayAccepts P crypto (publicKeyFromState P session.state) decryption.identityPublic none = .ok ()
  encrypted : ∀ chatId messageId senderUsername plaintext recipients draws payload session',
    encrypt P chatId messageId senderUsername plaintext recipients draws session =
      (.ok payload, session') →
    relayAccepts P crypto (publicKeyFromState P session.state) payload.identityPublic none = .ok ()
  ids : ∃ ids, prekeyIdsFromIdentityPublic P.keys (publicKeyFromState P session.state) = .ok ids ∧
    ids.length = prekeyPoolSize ∧ ids.Pairwise (· < ·)
  valid : validateIdentityPublicBundle P.keys (publicKeyFromState P session.state)
    (some (firstPrekeyId session.state)) = .ok ()

theorem Pooled.agreed (h : Pooled P session.state) : PoolAgreed P crypto session where
  opened input draws decryption session' hrun hopens := by
    obtain ⟨s₂, -, hdec⟩ := decrypt_ok hrun
    have haccepted := (hdec.accepted crypto h).2
    rwa [hopens] at haccepted
  held input draws decryption session' hrun hclosed := by
    obtain ⟨s₂, -, hdec⟩ := decrypt_ok hrun
    have haccepted := (hdec.accepted crypto h).2
    rwa [hclosed] at haccepted
  encrypted chatId messageId senderUsername plaintext recipients draws payload session' hrun := by
    obtain ⟨s₂, -, henc⟩ := encrypt_ok hrun
    obtain ⟨hpublic, hsame⟩ := henc.published
    rw [hpublic, show publicKeyFromState P s₂ = publicKeyFromState P session.state from
      congrArg Prod.fst hsame]
    exact relayAccepts_same crypto h h rfl
  ids := ⟨_, prekeyIds_publicKey h.shape h.bundle, by rw [length_map]; exact h.shape.size,
    h.shape.sorted⟩
  valid := h.bundle

/-- Every report of a run is accepted in its turn, the relay ends with the bundle of the session,
and whatever the session does next is accepted on that bundle. -/
theorem pool_transitions_accepted (crypto : Direct.Crypto) {start : E2eeSession Account Session}
    (hstart : Started P start) (calls : List Call) :
    relayRun P crypto (publicKeyFromState P start.state) start calls =
        .ok (publicKeyFromState P (after P start calls).state) ∧
      PoolAgreed P crypto (after P start calls) := by
  obtain ⟨hpooled, hidle⟩ := hstart.pooled
  obtain ⟨next, hrun, hsynced⟩ := relayRun_synced crypto
    (⟨.of_idle hpooled hidle, .of_idle rfl hidle⟩ : Synced P _ start) calls
  refine ⟨?_, hsynced.pooled.now.agreed crypto⟩
  rw [hrun, ← hsynced.stored.now]

namespace Inbound

/-! The first message of a new peer: it opens an inbound session and consumes a prekey. -/

open Clear (platform)
open SecondKey (exportKey start bob draws)

def opening : Call := .sealIdentity exportKey (ascii "node") (Vector.replicate nonceBytes 0)

def receiver : E2eeSession Clear.Account Clear.Session := step platform start opening

def message : Option (E2eePayload × RecipientEnvelope) :=
  (encrypt platform (ascii "chat") (ascii "m1") (ascii "alice") [1] [bob 1] (draws 1)
    receiver).1.toOption.bind fun payload => payload.envelopes.head?.map (payload, ·)

def received : Option Call :=
  message.map fun (payload, envelope) => .decrypt
    ⟨ascii "chat", ascii "m1", ascii "alice", payload.identityPublic, payload.version,
      payload.identityPublic, payload.nonce, payload.ciphertext, envelope.signature,
      envelope.wrappedKey, envelope.prekeyId, envelope.isPrekey, ascii "bob"⟩
    ⟨0, Vector.replicate nonceBytes 0⟩

def relay : Direct.Crypto where
  decode _ := none
  encode _ := []
  validateBundle _ _ := false
  prekeyIds _ := none
  directoryDigest _ _ _ := []
  verifyState _ _ _ _ _ := false
  verifyMessage _ _ _ _ _ _ _ _ _ _ _ := .ok ()
  verifyAck _ _ _ _ _ _ := .ok ()

theorem received_consumes :
    (received.bind (report platform receiver)).any (fun r => r.2.isSome) = true := by
  decide +kernel

theorem consumption_accepted :
    (received.bind (report platform receiver)).any (fun r => r.2.isSome) = true ∧
      relayRun platform relay (publicKeyFromState platform start.state) start
          (opening :: received.toList) =
        .ok (publicKeyFromState platform (after platform start (opening :: received.toList)).state) :=
  ⟨received_consumes, (pool_transitions_accepted relay (.created (ok_get SecondKey.created)) _).1⟩

end Inbound

end Abyssal.Client
