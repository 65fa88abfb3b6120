import Abyssal.Client.Transactions

/-! Runs of a direct-message session as sequences of transactions. -/

namespace Abyssal.Client

open Command

variable {Account Session : Type} (P : Platform Account Session)

def succeeded {α : Type} : Except String α → Nat
  | .ok _ => 1
  | .error _ => 0

def opened (session : E2eeSession Account Session) : Call → Nat
  | .encrypt chatId messageId senderUsername plaintext recipients draws =>
    succeeded (encrypt P chatId messageId senderUsername plaintext recipients draws session).1
  | _ => 0

def closed (session : E2eeSession Account Session) : Call → Nat
  | .commitOutbound messageId revision => succeeded (commitOutbound messageId revision session).1
  | .rollbackOutbound messageId revision =>
    succeeded (rollbackOutbound P messageId revision session).1
  | _ => 0

def total (weight : E2eeSession Account Session → Call → Nat) :
    E2eeSession Account Session → List Call → Nat
  | _, [] => 0
  | session, call :: calls => weight session call + total weight (step P session call) calls

def openTransactions (session : E2eeSession Account Session) : Nat :=
  if session.state.pendingOutbound.isSome then 1 else 0

def Call.isCipher : Call → Prop
  | .encrypt .. => True
  | .decrypt .. => True
  | _ => False

def Call.ends (messageId : Text) (revision : Nat) : Call → Prop
  | .commitOutbound m r => m = messageId ∧ r = revision
  | .rollbackOutbound m r => m = messageId ∧ r = revision
  | _ => False

structure Transactional (session : E2eeSession Account Session) : Prop where
  failed : ∀ (call : Call) (error : String) (session' : E2eeSession Account Session),
    call.isCipher → call.run P session = (.error error, session') → session' = session
  counted : ∀ (call : Call) (reply : Reply) (session' : E2eeSession Account Session),
    call.isCipher → call.run P session = (.ok reply, session') →
      session'.state.revision = session.state.revision + 1
  /-- Whatever was called since, rolling a message back gives the session from before it. -/
  undone : ∀ (chatId messageId senderUsername : Text) (plaintext : Bytes)
    (recipients : List RecipientPublicKey) (draws : EncryptDraws) (payload : E2eePayload)
    (session' : E2eeSession Account Session),
    encrypt P chatId messageId senderUsername plaintext recipients draws session =
      (.ok payload, session') →
    ∀ calls : List Call, (∀ call ∈ calls, ¬ call.ends messageId payload.stateRevision) →
      rollbackOutbound P messageId payload.stateRevision (after P session' calls) =
        (.ok (), session)
  unmatched : ∀ (messageId : Text) (revision : Nat),
    (∀ pending, session.state.pendingOutbound = some pending →
      ¬ (pending.messageId = messageId ∧ pending.revision = revision)) →
    step P session (.commitOutbound messageId revision) = session ∧
      step P session (.rollbackOutbound messageId revision) = session
  /-- Only its own end changes a session with an open transaction. -/
  exclusive : ∀ pending, session.state.pendingOutbound = some pending →
    ∀ call : Call, ¬ call.ends pending.messageId pending.revision → step P session call = session

variable {P} {session session' : E2eeSession Account Session}
  {messageId chatId senderUsername : Text} {recipients : List RecipientPublicKey}
  {draws : EncryptDraws} {payload : E2eePayload} {pending : PendingOutbound} {plaintext : Bytes}
  {call : Call}

/-- What a call makes of a session, and how many transactions it opens and closes. -/
inductive Stepped (P : Platform Account Session) (session : E2eeSession Account Session) :
    Call → Nat → Nat → E2eeSession Account Session → Prop
  | same (call : Call) : Stepped P session call 0 0 session
  | encrypted {chatId messageId senderUsername recipients draws payload s₂} (plaintext : Bytes)
      (h : Encrypted P session chatId messageId senderUsername recipients draws payload s₂) :
      Stepped P session (.encrypt chatId messageId senderUsername plaintext recipients draws) 1 0
        { session with state := s₂ }
  | committed {messageId revision}
      (hmatch : matchPending session.state messageId revision = .ok ()) :
      Stepped P session (.commitOutbound messageId revision) 0 1
        { session with state := { session.state with pendingOutbound := none } }
  | rolledBack {messageId revision s'}
      (hmatch : matchPending session.state messageId revision = .ok ())
      (h : rollbackPendingOutbound P session.state = (.ok (), s')) :
      Stepped P session (.rollbackOutbound messageId revision) 0 1 { session with state := s' }
  | decrypted {input draws decryption s₂} (h : Decrypted P session input draws decryption s₂) :
      Stepped P session (.decrypt input draws) 0 0 { session with state := s₂ }
  | keyed {exportKey context} (nonce : Vector UInt8 nonceBytes)
      (hidle : session.state.pendingOutbound = none)
      (hexport : validateExportKey exportKey = .ok ()) (hcontext : validateContext context = .ok ()) :
      Stepped P session (.sealIdentity exportKey context nonce) 0 0
        { session with sealing := some ⟨identityWrapKey P exportKey context, context⟩ }

theorem requiresPrekey_keeps (peer : Text) : (requiresPrekey P peer).Keeps id :=
  .bind (.check _) fun _ => .bind .get fun _ => .bind (.check _) fun _ => .pure _

theorem sealIdentity_stepped (P : Platform Account Session) (exportKey context : Bytes)
    (nonce : Vector UInt8 nonceBytes) (session : E2eeSession Account Session) :
    Stepped P session (.sealIdentity exportKey context nonce) 0 0
      (sealIdentity P exportKey context nonce session).2 := by
  rw [sealIdentity]
  cases hexport : validateExportKey exportKey with
  | error e => exact .same _
  | ok _ =>
    cases hcontext : validateContext context with
    | error e => exact .same _
    | ok _ =>
      change Stepped P session _ 0 0 ((Command.check
        (rejectIf (session.state.pendingOutbound.isSome = true) _) >>= _) session).2
      by_cases hopen : session.state.pendingOutbound.isSome = true
      · rw [rejectIf_of hopen]
        exact .same _
      · rw [rejectIf_eq_ok (u := ()).mpr hopen]
        exact .keyed nonce (by simpa using hopen) hexport hcontext

theorem step_stepped (P : Platform Account Session) (session : E2eeSession Account Session)
    (call : Call) :
    Stepped P session call (opened P session call) (closed P session call) (step P session call) := by
  rw [step]
  cases call with
  | encrypt chatId messageId senderUsername plaintext recipients draws =>
    simp only [Call.run, map_run, opened, closed]
    obtain ⟨e, h⟩ | ⟨payload, session', h⟩ := (encrypt_atomic (P := P) chatId messageId
      senderUsername plaintext recipients draws).cases session
    · rw [h]
      exact .same _
    · obtain ⟨s₂, rfl, henc⟩ := encrypt_ok h
      rw [h]
      exact .encrypted plaintext henc
  | commitOutbound messageId revision =>
    simp only [Call.run, map_run, opened, closed]
    obtain ⟨e, h⟩ | ⟨_, session', h⟩ := (commitOutbound_atomic messageId revision).cases session
    · rw [h]
      exact .same _
    · obtain ⟨hmatch, rfl⟩ := commitOutbound_ok h
      rw [h]
      exact .committed hmatch
  | rollbackOutbound messageId revision =>
    simp only [Call.run, map_run, opened, closed]
    obtain ⟨e, h⟩ | ⟨_, session', h⟩ :=
      (rollbackOutbound_atomic (P := P) messageId revision).cases session
    · rw [h]
      exact .same _
    · obtain ⟨hmatch, s', hrollback, rfl⟩ := rollbackOutbound_ok h
      rw [h]
      exact .rolledBack hmatch hrollback
  | decrypt input draws =>
    simp only [Call.run, map_run, opened, closed]
    obtain ⟨e, h⟩ | ⟨decryption, session', h⟩ := (decrypt_atomic (P := P) input draws).cases session
    · rw [h]
      exact .same _
    · obtain ⟨s₂, rfl, hdec⟩ := decrypt_ok h
      rw [h]
      exact .decrypted hdec
  | requiresPrekey peer =>
    have hsame : (requiresPrekey P peer session).2 = session := requiresPrekey_keeps peer session
    simp only [Call.run, map_run, opened, closed, hsame]
    exact .same _
  | sealIdentity exportKey context nonce =>
    rw [Call.run, map_run]
    exact sealIdentity_stepped P exportKey context nonce session

variable (P session call) in
theorem exists_stepped : ∃ opens closes session', step P session call = session' ∧
    Stepped P session call opens closes session' :=
  ⟨_, _, _, rfl, step_stepped P session call⟩

variable {input : DecryptInput} {decryption : E2eeDecryption} {revision : Nat}

theorem step_unmatched
    (h : ∀ pending, session.state.pendingOutbound = some pending →
      ¬ (pending.messageId = messageId ∧ pending.revision = revision)) :
    step P session (.commitOutbound messageId revision) = session ∧
      step P session (.rollbackOutbound messageId revision) = session := by
  have hmatch : matchPending session.state messageId revision ≠ .ok () := by
    intro hok
    obtain ⟨-, pending, hpending, hid, hrevision⟩ := matchPending_ok hok
    exact h pending hpending ⟨hid, hrevision⟩
  constructor
  · obtain ⟨_, _, _, heq, hstep⟩ := exists_stepped P session (.commitOutbound messageId revision)
    rw [heq]
    cases hstep with
    | same => rfl
    | committed hok => exact absurd hok hmatch
  · obtain ⟨_, _, _, heq, hstep⟩ := exists_stepped P session (.rollbackOutbound messageId revision)
    rw [heq]
    cases hstep with
    | same => rfl
    | rolledBack hok => exact absurd hok hmatch

theorem step_while_open (h : session.state.pendingOutbound = some pending)
    (hcall : ¬ call.ends pending.messageId pending.revision) : step P session call = session := by
  have hends : ∀ {messageId : Text} {revision : Nat},
      matchPending session.state messageId revision = .ok () →
      messageId = pending.messageId ∧ revision = pending.revision := by
    intro messageId revision hmatch
    obtain ⟨-, p, hp, hid, hrevision⟩ := matchPending_ok hmatch
    obtain rfl : pending = p := Option.some.inj (h.symm.trans hp)
    exact ⟨hid.symm, hrevision.symm⟩
  obtain ⟨_, _, _, heq, hstep⟩ := exists_stepped P session call
  rw [heq]
  cases hstep with
  | same => rfl
  | encrypted _ henc =>
    obtain ⟨_, _, _, _, -, hbegun, -⟩ := henc.worked
    cases h.symm.trans hbegun.idle
  | committed hmatch | rolledBack hmatch => exact absurd (hends hmatch) hcall
  | decrypted hdec => cases h.symm.trans hdec.idle
  | keyed _ hidle => cases h.symm.trans hidle

variable {calls : List Call}

theorem after_while_open (h : session.state.pendingOutbound = some pending)
    (hcalls : ∀ call ∈ calls, ¬ call.ends pending.messageId pending.revision) :
    after P session calls = session := by
  induction calls with
  | nil => rfl
  | cons call calls ih =>
    have hstep := step_while_open (P := P) h (hcalls call (List.mem_cons_self ..))
    rw [after, runFrom, List.foldl_cons, hstep]
    exact ih fun c hc => hcalls c (List.mem_cons_of_mem _ hc)

section

variable (h : encrypt P chatId messageId senderUsername plaintext recipients draws session =
  (.ok payload, session'))

include h

theorem encrypt_revision : session'.state.revision = session.state.revision + 1 ∧
      payload.stateRevision = session'.state.revision := by
  obtain ⟨s₂, rfl, henc⟩ := encrypt_ok h
  obtain ⟨s₁, sealing, _, revision, -, hbegun, hrevision, -, hwork⟩ := henc.worked
  obtain ⟨_, _, -, -, hadvanced⟩ := encryptWork_ok hwork
  exact ⟨hrevision.trans hbegun.revision_eq, hadvanced.revision_eq⟩

theorem encrypt_undone
    (hcalls : ∀ call ∈ calls, ¬ call.ends messageId payload.stateRevision) :
    rollbackOutbound P messageId payload.stateRevision (after P session' calls) =
      (.ok (), session) := by
  have hpublished := (encrypt_revision h).2
  obtain ⟨s₂, rfl, henc⟩ := encrypt_ok h
  obtain ⟨s₁, sealing, _, revision, -, hbegun, hrevision, hkept, -⟩ := henc.worked
  obtain ⟨checkpoint, -, hs₁⟩ := hbegun.opened
  have hpending : s₂.pendingOutbound = some ⟨messageId, revision, checkpoint⟩ := by
    rw [hkept, hs₁]
  have hsame : payload.stateRevision = revision := hpublished.trans hrevision
  rw [hsame] at hcalls ⊢
  rw [after_while_open hpending hcalls]
  have hmatch : matchPending s₂ messageId revision = .ok () := by
    rw [matchPending, hpending]
    change rejectIf _ _ = _
    exact rejectIf_eq_ok.mpr (by simp [hrevision])
  rw [rollbackOutbound, hbegun.valid]
  change ((Command.check (matchPending s₂ messageId revision)) >>= _) _ = _
  rw [hmatch]
  change Command.zoom _ _ _ _ = _
  rw [Command.zoom, rollbackPendingOutbound_run hbegun hkept]

end

theorem Decrypted.counted {draws : DecryptDraws} {s₂ : E2eeState Account Session}
    (hdec : Decrypted P session input draws decryption s₂) :
    s₂.revision = session.state.revision + 1 ∧ s₂.pendingOutbound = none := by
  obtain ⟨sealing, -, hwork⟩ := hdec.worked
  obtain ⟨s', hopen, hadvanced⟩ := decryptWork_ok hwork
  have hframe := openPayload_keeps (P := P) input draws.prekey session.state
  rw [hopen] at hframe
  have hrevision : s'.revision = session.state.revision := congrArg (·.1) hframe
  have hpending : s'.pendingOutbound = session.state.pendingOutbound := congrArg (·.2.2) hframe
  rw [hadvanced.state_eq]
  exact ⟨congrArg (· + 1) hrevision, hpending.trans hdec.idle⟩

theorem transactional (P : Platform Account Session) (session : E2eeSession Account Session) :
    Transactional P session where
  failed := by
    intro call error session' hcipher h
    cases call with
    | encrypt => exact encrypt_atomic _ _ _ _ _ _ session error session' (map_run_error h)
    | decrypt => exact decrypt_atomic _ _ session error session' (map_run_error h)
    | _ => cases hcipher
  counted := by
    intro call reply session' hcipher h
    cases call with
    | encrypt =>
      obtain ⟨payload, h, -⟩ := map_run_ok h
      exact (encrypt_revision h).1
    | decrypt =>
      obtain ⟨decryption, h, -⟩ := map_run_ok h
      obtain ⟨s₂, rfl, hdec⟩ := decrypt_ok h
      exact hdec.counted.1
    | _ => cases hcipher
  undone _ _ _ _ _ _ _ _ h _ := encrypt_undone h
  unmatched _ _ := step_unmatched
  exclusive _ h _ := step_while_open h

theorem openTransactions_of_none (h : session.state.pendingOutbound = none) :
    openTransactions session = 0 := by
  rw [openTransactions, h]
  rfl

theorem openTransactions_of_some (h : session.state.pendingOutbound = some pending) :
    openTransactions session = 1 := by
  rw [openTransactions, h]
  rfl

theorem openTransactions_of_match (h : matchPending session.state messageId revision = .ok ()) :
    openTransactions session = 1 := by
  obtain ⟨-, pending, hpending, -⟩ := matchPending_ok h
  exact openTransactions_of_some hpending

theorem opened_step (P : Platform Account Session) (session : E2eeSession Account Session)
    (call : Call) : opened P session call + openTransactions session =
      closed P session call + openTransactions (step P session call) := by
  have hstep := step_stepped P session call
  generalize opened P session call = opens at hstep ⊢
  generalize closed P session call = closes at hstep ⊢
  generalize step P session call = session' at hstep ⊢
  cases hstep with
  | same | keyed => rfl
  | @encrypted _ _ _ _ _ _ s₂ _ henc =>
    obtain ⟨s₁, _, _, _, -, hbegun, -, hkept, -⟩ := henc.worked
    obtain ⟨checkpoint, -, hs₁⟩ := hbegun.opened
    rw [openTransactions_of_none hbegun.idle,
      @openTransactions_of_some _ _ ⟨s₂, session.sealing⟩ _ (hkept.trans (by rw [hs₁]))]
  | committed hmatch => rw [openTransactions_of_match hmatch, openTransactions_of_none rfl]
  | @rolledBack _ _ s' hmatch hrollback =>
    rw [openTransactions_of_match hmatch, @openTransactions_of_none _ _ ⟨s', session.sealing⟩
      (rollbackPendingOutbound_closes hrollback)]
  | @decrypted _ _ _ s₂ hdec =>
    rw [openTransactions_of_none hdec.idle,
      @openTransactions_of_none _ _ ⟨s₂, session.sealing⟩ hdec.counted.2]

/-- After any run no more than one of the transactions it opened has not ended, every call was
atomic where it had to be, and what is open can be rolled back. -/
theorem session_transactions (P : Platform Account Session) (start : E2eeSession Account Session)
    (calls : List Call) :
    total P (opened P) start calls + openTransactions start =
      total P (closed P) start calls + openTransactions (after P start calls) ∧
    openTransactions (after P start calls) ≤ 1 ∧ Transactional P (after P start calls) := by
  refine ⟨?_, ?_, transactional P _⟩
  · induction calls generalizing start with
    | nil => rfl
    | cons call calls ih =>
      have hstep := opened_step P start call
      have hrest := ih (step P start call)
      rw [total, total, after, runFrom, List.foldl_cons]
      rw [after, runFrom] at hrest
      omega
  · rw [openTransactions]
    split_ifs <;> decide

end Abyssal.Client
