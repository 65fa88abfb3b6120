import Abyssal.Client.Effects
import Abyssal.Client.TransactionRuns

/-! Invariants of a session over whole runs. A property of the persistent state has to survive the
ratchet steps and the count of the revision. Then it holds after any run, since a rollback returns to
a state that had it. -/

namespace Abyssal.Client

open Command

variable {Account Session : Type} {P : Platform Account Session}
  {I : E2eeState Account Session → Prop} {session : E2eeSession Account Session}
  {s s₁ s₂ : E2eeState Account Session} {guard : E2eeSession Account Session → Call → Prop}

/-- The state has the property, and so has the one that a rollback would return to. -/
structure Held (P : Platform Account Session) (I : E2eeState Account Session → Prop)
    (s : E2eeState Account Session) : Prop where
  now : I s
  before : ∀ pending, s.pendingOutbound = some pending →
    ∃ s₀, s₀.pendingOutbound = none ∧ checkpointStateBytes P s₀ = .ok pending.checkpoint ∧ I s₀

theorem Held.of_idle (h : I s) (hidle : s.pendingOutbound = none) : Held P I s := by
  refine ⟨h, fun pending hpending => ?_⟩
  rw [hidle] at hpending
  cases hpending

def BundleValid (P : Platform Account Session) (s : E2eeState Account Session) : Prop :=
  validateIdentityPublicBundle P.keys (publicKeyFromState P s) (some (firstPrekeyId s)) = .ok ()

/-- What a property has to survive, for the calls that a guard admits. The transaction and the
revision are not part of what it speaks about. -/
structure Stable (P : Platform Account Session) (guard : E2eeSession Account Session → Call → Prop)
    (I : E2eeState Account Session → Prop) : Prop where
  frame : ∀ s revision pending, I s → I { s with revision := revision, pendingOutbound := pending }
  wraps : ∀ session chatId messageId senderUsername plaintext recipients draws,
    guard session (.encrypt chatId messageId senderUsername plaintext recipients draws) →
    validateRecipients P [] recipients = .ok () → I session.state →
    ∀ s₁ envelopes s', (beginOutbound P messageId session.state).2 = s₁ →
      s₁ = { session.state with pendingOutbound := s₁.pendingOutbound } →
      Command.each (wrapFor P draws.contentKey.toList (messageAad chatId messageId senderUsername)
        draws.ratchet) recipients s₁ = (.ok envelopes, s') → BundleValid P s' → I s'
  unwraps : ∀ session input draws, guard session (.decrypt input draws) →
    input.validate P = .ok () → I session.state → ∀ plaintext s',
      openPayload P input draws.prekey session.state = (.ok plaintext, s') → BundleValid P s' → I s'

theorem Stable.pending (hI : Stable P guard I) (h : I s) (pending : Option PendingOutbound) :
    I { s with pendingOutbound := pending } :=
  hI.frame s s.revision pending h

variable {sealing : SealingMaterial} {nonce : Vector UInt8 nonceBytes} {published : PublishedState}

theorem Stable.advanced (hI : Stable P guard I) (h : I s)
    (hadvanced : Advanced P sealing nonce s published s₁) : I s₁ := by
  rw [hadvanced.state_eq]
  exact hI.frame s _ s.pendingOutbound h

theorem Advanced.bundleValid (h : Advanced P sealing nonce s published s₁) : BundleValid P s := by
  have hbundle := h.bundle
  rw [h.state_eq] at hbundle
  exact hbundle

theorem Held.rolled_back (h : Held P I s) (hrollback : rollbackPendingOutbound P s = (.ok (), s₁)) :
    Held P I s₁ := by
  have hclosed := rollbackPendingOutbound_closes hrollback
  rw [rollbackPendingOutbound, get_bind] at hrollback
  obtain ⟨pending, hpending, hrollback⟩ := check_bind_eq_ok.mp hrollback
  rw [modify_bind] at hrollback
  obtain ⟨s₀, hidle, hcheckpoint, hbefore⟩ := h.before pending (okOr_eq_ok.mp hpending)
  have hrestore := restoreStateFromCheckpoint_run hcheckpoint { s with pendingOutbound := none }
  rw [handle_of_ok hrestore] at hrollback
  obtain ⟨-, rfl⟩ := pure_eq_ok.mp hrollback
  have hsame : { s₀ with pendingOutbound := none } = s₀ := by rw [← hidle]
  exact .of_idle (hsame ▸ hbefore) rfl

theorem Stable.encrypted (hI : Stable P guard I) {chatId messageId senderUsername : Text}
    {plaintext : Bytes} {recipients : List RecipientPublicKey} {draws : EncryptDraws}
    {payload : E2eePayload}
    (hguard : guard session (.encrypt chatId messageId senderUsername plaintext recipients draws))
    (h : Held P I session.state)
    (henc : Encrypted P session chatId messageId senderUsername recipients draws payload s₂) :
    Held P I s₂ := by
  obtain ⟨s₁, sealing, ciphertext, revision, -, hbegun, -, hkept, hwork⟩ := henc.worked
  obtain ⟨checkpoint, hcheckpoint, hs₁⟩ := hbegun.opened
  obtain ⟨envelopes, s', heach, -, hadvanced⟩ := encryptWork_ok hwork
  have hwrapped : I s' := hI.wraps session chatId messageId senderUsername plaintext recipients draws
    hguard henc.recipients_valid h.now s₁ envelopes s' hbegun.run (by rw [hs₁]) heach
    hadvanced.bundleValid
  refine ⟨hI.advanced hwrapped hadvanced, fun pending hpending => ?_⟩
  rw [hkept, hs₁] at hpending
  obtain rfl := Option.some.inj hpending
  exact ⟨session.state, hbegun.idle, hcheckpoint, h.now⟩

theorem Stable.decrypted (hI : Stable P guard I) {input : DecryptInput} {draws : DecryptDraws}
    {decryption : E2eeDecryption} (hguard : guard session (.decrypt input draws))
    (h : Held P I session.state) (hdec : Decrypted P session input draws decryption s₂) :
    Held P I s₂ := by
  obtain ⟨sealing, -, hwork⟩ := hdec.worked
  have hkept := decryptWork_keeps (P := P) input sealing draws session.state
  rw [hwork] at hkept
  obtain ⟨s', hopen, hadvanced⟩ := decryptWork_ok hwork
  have hunwrapped := hI.unwraps session input draws hguard hdec.input_valid h.now _ s' hopen
    hadvanced.bundleValid
  exact .of_idle (hI.advanced hunwrapped hadvanced) (hkept.trans hdec.idle)

theorem Stable.step (hI : Stable P guard I) {call : Call} (h : Held P I session.state)
    (hguard : guard session call) :
    Held P I (step P session call).state := by
  obtain ⟨_, _, _, heq, hstep⟩ := exists_stepped P session call
  rw [heq]
  cases hstep with
  | same | keyed => exact h
  | encrypted plaintext henc => exact hI.encrypted hguard h henc
  | committed => exact .of_idle (hI.pending h.now none) rfl
  | rolledBack _ hrollback => exact h.rolled_back hrollback
  | decrypted hdec => exact hI.decrypted hguard h hdec

theorem Stable.run (hI : Stable P guard I) {start : E2eeSession Account Session}
    (h : Held P I start.state) {calls : List Call}
    (hcalls : Along guard (Client.step P) start calls) : Held P I (after P start calls).state :=
  @Along.invariant _ _ (Client.step P) guard (fun session => Held P I session.state)
    (fun _ _ => hI.step) _ _ h hcalls

end Abyssal.Client
