import Abyssal.Client.Bundle

/-! The byte strings that an account signs with its Ed25519 identity key: recipient envelopes of
messages, identity states, acknowledgements, registration proofs and MLS credentials. Three framings
are in use. The first four bytes tell the kinds apart, and within a kind the bytes give back every
field. -/

namespace Abyssal.Client

open List hiding Vector

def nonceBytes : Nat := 12
def attachmentTagBytes : Nat := 16
def maxIdentityStateBytes : Nat := 512 * 1024
def maxRatchetEnvelopeBytes : Nat := 4096
def registrationChallengeBytes : Nat := 32
def protocolVersion : UInt32 := 9
def identityEnvelopeVersion : UInt8 := 5
def mlsProtocolVersion : UInt32 := 10
def maxRoomIdBytes : Nat := 128
def maxStateBytes : Nat := 4 * 1024 * 1024

def isAscii (value : Bytes) : Bool := value.all (· < 128)

def validPrekeyId (prekeyId : Text) : Bool :=
  prekeyId.length ≤ 32 && isAscii prekeyId && prekeyId.all isIdByte

def validPrekeyIdForProtocol (value : Text) : Bool :=
  value ≠ [] && value.length ≤ 32 && isAscii value && value.all isIdByte

def validateUsername (username : Text) : Except String Unit :=
  rejectIf (¬ (username ≠ [] ∧ username.length ≤ 80 ∧ username.all isIdByte)) "Recipient unavailable"

def validContextIdentifier (value : Text) : Bool :=
  value ≠ [] && value.length ≤ 128 && value.all isIdByte

def validateMessageContext (chatId messageId sender : Text) : Except String Unit := do
  rejectIf (¬ validContextIdentifier chatId ∨ ¬ validContextIdentifier messageId)
    "Payload unavailable"
  validateUsername sender

def mapErr {α : Type} (error : String) (result : Except String α) : Except String α :=
  match result with
  | .ok value => .ok value
  | .error _ => .error error

structure RecipientEnvelope where
  username : Text
  wrappedKey : Bytes
  prekeyId : Text
  isPrekey : Bool
  signature : Bytes
  deriving DecidableEq

def validateRecipientEnvelope (envelope : RecipientEnvelope) : Except String Unit := do
  mapErr "Payload unavailable" (validateUsername envelope.username)
  rejectIf (¬ validPrekeyId envelope.prekeyId ∨ envelope.isPrekey = decide (envelope.prekeyId = []) ∨
    envelope.wrappedKey = [] ∨ maxRatchetEnvelopeBytes < envelope.wrappedKey.length)
    "Payload unavailable"

def isMlsNameByte (b : UInt8) : Bool := isIdByte b || b = 46

def mlsValidateUsername (value : Text) : Except String Unit :=
  rejectIf (value = [] ∨ 64 < value.length ∨ ¬ value.all isMlsNameByte) "Identity unavailable"

def mlsValidateRoomId (value : Text) : Except String Unit :=
  rejectIf (value = [] ∨ maxRoomIdBytes < value.length ∨ ¬ value.all isMlsNameByte)
    "Room unavailable"

def validateNodeContext (value : Bytes) : Except String Unit :=
  rejectIf (value = [] ∨ 512 < value.length ∨ ¬ isAscii value) "Identity unavailable"

section

variable (keys : KeyChecks) {messageId sender chatId prekeyId : Text}

def messageAad (chatId messageId senderUsername : Text) : Bytes :=
  canonicalParts [ascii "ABYSSAL_E2EE_PAYLOAD_V9", chatId, messageId, senderUsername]

def signatureInput (version : UInt32) (aad nonce ciphertext identityPublic : Bytes)
    (envelope : RecipientEnvelope) : Except String Bytes := do
  validateRecipientEnvelope envelope
  .ok (canonicalParts [ascii "ABYSSAL_E2EE_SIGNATURE_V9", be 4 version.toNat, aad, nonce, ciphertext,
    identityPublic, envelope.username, envelope.prekeyId, [if envelope.isPrekey then 1 else 0],
    envelope.wrappedKey])

def messageSignatureInput (version : UInt32) (chatId messageId senderUsername : Text)
    (identityPublic nonce ciphertext : Bytes) (recipientUsername : Text) (wrappedKey : Bytes)
    (recipientPrekeyId : Text) (isPrekey : Bool) : Except String Bytes := do
  validateMessageContext chatId messageId senderUsername
  rejectIf (version ≠ protocolVersion ∨ identityPublic.length ≠ identityPublicBytes ∨
    nonce.length ≠ nonceBytes) "Payload unavailable"
  signatureInput version (messageAad chatId messageId senderUsername) nonce ciphertext
    identityPublic ⟨recipientUsername, wrappedKey, recipientPrekeyId, isPrekey, []⟩

def validIdentityEnvelope (identityEnvelope : Bytes) : Bool :=
  1 + nonceBytes + attachmentTagBytes < identityEnvelope.length &&
    identityEnvelope.length ≤ maxIdentityStateBytes &&
    identityEnvelope.head? = some identityEnvelopeVersion

def validateIdentityStateSignatureFields (version : UInt32) (stateRevision : UInt64)
    (identityEnvelope identityPublic : Bytes) (prekeyId : Text) : Except String Unit := do
  rejectIf (version ≠ protocolVersion ∨ stateRevision = 0 ∨
    ¬ validIdentityEnvelope identityEnvelope ∨ ¬ validPrekeyId prekeyId ∨ prekeyId = [])
    "Payload unavailable"
  mapErr "Payload unavailable" (validateIdentityPublicBundle keys identityPublic (some prekeyId))

def identityStateSignatureInput (version : UInt32) (stateRevision : UInt64)
    (identityEnvelope identityPublic : Bytes) (prekeyId : Text) : Except String Bytes := do
  validateIdentityStateSignatureFields keys version stateRevision identityEnvelope identityPublic
    prekeyId
  .ok (canonicalParts [ascii "ABYSSAL_E2EE_IDENTITY_STATE_SIGNATURE_V9", be 4 version.toNat,
    be 8 stateRevision.toNat, identityEnvelope, identityPublic, prekeyId])

def validateAckSignatureFields (version : UInt32) (chatId messageId senderUsername : Text)
    (usedPrekeyId : Text) : Except String Unit := do
  rejectIf (version ≠ protocolVersion ∨ usedPrekeyId ≠ [] ∧ ¬ validPrekeyId usedPrekeyId)
    "Payload unavailable"
  mapErr "Payload unavailable" (validateMessageContext chatId messageId senderUsername)

def ackSignatureInput (version : UInt32) (chatId messageId senderUsername usedPrekeyId : Text) :
    Except String Bytes := do
  validateAckSignatureFields version chatId messageId senderUsername usedPrekeyId
  .ok (canonicalParts [ascii "ABYSSAL_E2EE_ACK_SIGNATURE_V9", be 4 version.toNat, chatId, messageId,
    senderUsername, usedPrekeyId])

def registrationIdentityProofInput (nodeId handshakeId : Text)
    (challenge registrationUpload identityPublic : Bytes) (prekeyId : Text)
    (identityEnvelope : Bytes) : Except String Bytes := do
  rejectIf (nodeId = [] ∨ 128 < nodeId.length ∨ ¬ isAscii nodeId ∨
    handshakeId = [] ∨ 128 < handshakeId.length ∨ ¬ isAscii handshakeId ∨
    challenge.length ≠ registrationChallengeBytes ∨
    registrationUpload = [] ∨ 16 * 1024 < registrationUpload.length ∨
    identityPublic.length ≠ identityPublicBytes ∨ ¬ validPrekeyIdForProtocol prekeyId ∨
    ¬ validIdentityEnvelope identityEnvelope) "Identity proof rejected"
  validateIdentityPublicBundle keys identityPublic (some prekeyId)
  .ok (ascii "ABYSSAL_REGISTRATION_IDENTITY_PROOF_V9" ++ be 4 protocolVersion.toNat ++
    canonicalParts [nodeId, handshakeId, challenge, registrationUpload, identityPublic, prekeyId,
      identityEnvelope])

def appendFields : Bytes → List Bytes → Except String Bytes
  -- Fields behind the label and their number, while the whole stays within the state limit.
  | out, [] => .ok out
  | out, field :: fields => do
    rejectIf (2 ^ 32 - 1 < field.length) "Room unavailable"
    let out := out ++ lengthPrefixed field
    rejectIf (maxStateBytes < out.length) "Room unavailable"
    appendFields out fields

def canonicalFields (label : Bytes) (fields : List Bytes) : Except String Bytes := do
  rejectIf (label = [] ∨ 2 ^ 32 - 1 < label.length ∨ 16 < fields.length) "Room unavailable"
  appendFields (lengthPrefixed label ++ be 4 fields.length) fields

def credentialTranscript (username roomId : Text) (nodeContext : Bytes)
    (groupId : Vector UInt8 32) (stable : Vector UInt8 64) (mlsPublic : Vector UInt8 32) :
    Except String Bytes := do
  mlsValidateUsername username
  mlsValidateRoomId roomId
  validateNodeContext nodeContext
  canonicalFields (ascii "ABYSSAL-MLS-CREDENTIAL") [[UInt8.ofNat mlsProtocolVersion.toNat], username,
    roomId, nodeContext, groupId.toList, stable.toList, mlsPublic.toList]

/-- What an account signs with its identity key, with all the fields of each kind. -/
inductive Transcript
  | message (version : UInt32) (chatId messageId senderUsername : Text)
      (identityPublic nonce ciphertext : Bytes) (recipientUsername : Text) (wrappedKey : Bytes)
      (recipientPrekeyId : Text) (isPrekey : Bool)
  | identityState (version : UInt32) (stateRevision : UInt64)
      (identityEnvelope identityPublic : Bytes) (prekeyId : Text)
  | acknowledgement (version : UInt32) (chatId messageId senderUsername usedPrekeyId : Text)
  | registration (nodeId handshakeId : Text) (challenge registrationUpload identityPublic : Bytes)
      (prekeyId : Text) (identityEnvelope : Bytes)
  | credential (username roomId : Text) (nodeContext : Bytes) (groupId : Vector UInt8 32)
      (stable : Vector UInt8 64) (mlsPublic : Vector UInt8 32)

def Transcript.encode : Transcript → Except String Bytes
  | .message version chatId messageId sender identityPublic nonce ciphertext recipient wrappedKey
      prekeyId isPrekey =>
    messageSignatureInput version chatId messageId sender identityPublic nonce ciphertext recipient
      wrappedKey prekeyId isPrekey
  | .identityState version revision envelope identityPublic prekeyId =>
    identityStateSignatureInput keys version revision envelope identityPublic prekeyId
  | .acknowledgement version chatId messageId sender prekeyId =>
    ackSignatureInput version chatId messageId sender prekeyId
  | .registration nodeId handshakeId challenge upload identityPublic prekeyId envelope =>
    registrationIdentityProofInput keys nodeId handshakeId challenge upload identityPublic prekeyId
      envelope
  | .credential username roomId nodeContext groupId stable mlsPublic =>
    credentialTranscript username roomId nodeContext groupId stable mlsPublic

theorem mapErr_eq_ok {α : Type} {error : String} {result : Except String α} {value : α} :
    mapErr error result = .ok value ↔ result = .ok value := by
  cases result <;> simp [mapErr]

theorem validateUsername_ok {username : Text} (h : validateUsername username = .ok ()) :
    username.length ≤ 80 :=
  (not_not.mp (rejectIf_eq_ok.mp h)).2.1

theorem validateMessageContext_ok (h : validateMessageContext chatId messageId sender = .ok ()) :
    chatId.length ≤ 128 ∧ messageId.length ≤ 128 ∧ sender.length ≤ 80 := by
  obtain ⟨hids, hsender⟩ := rejectIf_bind.mp h
  obtain ⟨hchat, hmessage⟩ := not_or.mp hids
  rw [not_not] at hchat hmessage
  simp only [validContextIdentifier, Bool.and_eq_true, decide_eq_true_eq] at hchat hmessage
  exact ⟨hchat.1.2, hmessage.1.2, validateUsername_ok hsender⟩

theorem validPrekeyId_length (h : validPrekeyId prekeyId = true) : prekeyId.length ≤ 32 := by
  simp only [validPrekeyId, Bool.and_eq_true, decide_eq_true_eq] at h
  exact h.1.1

theorem validIdentityEnvelope_length {envelope : Bytes} (h : validIdentityEnvelope envelope = true) :
    envelope.length ≤ maxIdentityStateBytes := by
  simp only [validIdentityEnvelope, Bool.and_eq_true, decide_eq_true_eq] at h
  exact h.1.2

def Transcript.parts : Transcript → Bytes × List Bytes
  | .message version chatId messageId sender identityPublic nonce ciphertext recipient wrappedKey
      prekeyId isPrekey =>
    ([], [ascii "ABYSSAL_E2EE_SIGNATURE_V9", be 4 version.toNat, messageAad chatId messageId sender,
      nonce, ciphertext, identityPublic, recipient, prekeyId, [if isPrekey then 1 else 0],
      wrappedKey])
  | .identityState version revision envelope identityPublic prekeyId =>
    ([], [ascii "ABYSSAL_E2EE_IDENTITY_STATE_SIGNATURE_V9", be 4 version.toNat, be 8 revision.toNat,
      envelope, identityPublic, prekeyId])
  | .acknowledgement version chatId messageId sender prekeyId =>
    ([], [ascii "ABYSSAL_E2EE_ACK_SIGNATURE_V9", be 4 version.toNat, chatId, messageId, sender,
      prekeyId])
  | .registration nodeId handshakeId challenge upload identityPublic prekeyId envelope =>
    (ascii "ABYSSAL_REGISTRATION_IDENTITY_PROOF_V9" ++ be 4 protocolVersion.toNat,
      [nodeId, handshakeId, challenge, upload, identityPublic, prekeyId, envelope])
  | .credential username roomId nodeContext groupId stable mlsPublic =>
    (lengthPrefixed (ascii "ABYSSAL-MLS-CREDENTIAL") ++ be 4 7,
      [[UInt8.ofNat mlsProtocolVersion.toNat], username, roomId, nodeContext, groupId.toList,
        stable.toList, mlsPublic.toList])

variable {keys} {bytes : Bytes} {fields : List Bytes}

theorem appendFields_eq_ok {out : Bytes} : appendFields out fields = .ok bytes ↔
    (∀ p ∈ fields, Short p) ∧ (fields = [] ∨ bytes.length ≤ maxStateBytes) ∧
      bytes = out ++ canonicalParts fields := by
  induction fields generalizing out with
  | nil =>
    rw [appendFields, Except.ok.injEq, canonicalParts_nil, append_nil]
    exact ⟨fun h => ⟨nofun, .inl rfl, h.symm⟩, fun h => h.2.2.symm⟩
  | cons field fields ih =>
    rw [appendFields, rejectIf_bind, rejectIf_bind, ih, canonicalParts_cons, forall_mem_cons,
      ← append_assoc, Short]
    constructor
    · rintro ⟨hfield, hout, hshort, hmax, rfl⟩
      refine ⟨⟨by omega, hshort⟩, .inr (hmax.elim ?_ id), rfl⟩
      rintro rfl
      rw [canonicalParts_nil, append_nil]
      exact Nat.not_lt.mp hout
    · rintro ⟨⟨hfield, hshort⟩, hmax, rfl⟩
      have hmax := hmax.resolve_left (cons_ne_nil _ _)
      refine ⟨by omega, ?_, hshort, .inr hmax, rfl⟩
      rw [length_append] at hmax
      omega

theorem canonicalFields_eq_ok {label : Bytes} : canonicalFields label fields = .ok bytes ↔
    (label ≠ [] ∧ Short label ∧ fields.length ≤ 16) ∧ (∀ p ∈ fields, Short p) ∧
      (fields = [] ∨ bytes.length ≤ maxStateBytes) ∧
      bytes = lengthPrefixed label ++ be 4 fields.length ++ canonicalParts fields := by
  have hlabel : ¬ (label = [] ∨ 2 ^ 32 - 1 < label.length ∨ 16 < fields.length) ↔
      label ≠ [] ∧ Short label ∧ fields.length ≤ 16 := by
    rw [not_or, Short]
    exact and_congr_right fun _ => by omega
  rw [canonicalFields, rejectIf_bind, hlabel, appendFields_eq_ok]

theorem length_messageAad (chatId messageId sender : Text) :
    (messageAad chatId messageId sender).length =
      39 + chatId.length + messageId.length + sender.length := by
  have hlabel : (ascii "ABYSSAL_E2EE_PAYLOAD_V9").length = 23 := by decide
  simp only [messageAad, canonicalParts_cons, canonicalParts_nil, length_append,
    length_lengthPrefixed, hlabel, length_nil]
  omega

/-- Only the fifth part of a message, its ciphertext, may be of any length. -/
structure Encoded (t : Transcript) (bytes : Bytes) : Prop where
  spelled : bytes = t.parts.1 ++ canonicalParts t.parts.2
  bounded : ∀ p ∈ t.parts.2.eraseIdx 4, p.length < 2 ^ 24

variable {t : Transcript}

theorem Transcript.encoded (h : t.encode keys = .ok bytes) : Encoded t bytes := by
  cases t with
  | message version chatId messageId sender identityPublic nonce ciphertext recipient wrappedKey
      prekeyId isPrekey =>
    obtain ⟨_, hcontext, h⟩ := bind_eq_ok.mp h
    obtain ⟨hfixed, h⟩ := rejectIf_bind.mp h
    obtain ⟨_, henvelope, h⟩ := bind_eq_ok.mp h
    obtain ⟨_, husername, henvelope⟩ := bind_eq_ok.mp henvelope
    obtain ⟨hchat, hmessage, hsender⟩ := validateMessageContext_ok hcontext
    have henvelope := rejectIf_eq_ok.mp henvelope
    simp only [not_or, not_not, Nat.not_lt] at hfixed henvelope
    cases h
    refine ⟨rfl, ?_⟩
    simp only [parts, eraseIdx_cons_succ, eraseIdx_cons_zero, forall_mem_cons, length_be,
      length_messageAad, length_singleton]
    exact ⟨by decide, by decide, by omega, hfixed.2.2.trans_lt (by decide),
      hfixed.2.1.trans_lt (by decide),
      (validateUsername_ok (mapErr_eq_ok.mp husername)).trans_lt (by decide),
      (validPrekeyId_length henvelope.1).trans_lt (by decide), by decide,
      henvelope.2.2.2.trans_lt (by decide), nofun⟩
  | identityState version revision envelope identityPublic prekeyId =>
    obtain ⟨_, hfields, h⟩ := bind_eq_ok.mp h
    obtain ⟨hfields, -⟩ := rejectIf_bind.mp hfields
    simp only [not_or, not_not] at hfields
    cases h
    refine ⟨rfl, ?_⟩
    simp only [parts, eraseIdx_cons_succ, eraseIdx_cons_zero, forall_mem_cons, length_be]
    exact ⟨by decide, by decide, by decide,
      (validIdentityEnvelope_length hfields.2.2.1).trans_lt (by decide),
      (validPrekeyId_length hfields.2.2.2.1).trans_lt (by decide), nofun⟩
  | acknowledgement version chatId messageId sender prekeyId =>
    obtain ⟨_, hfields, h⟩ := bind_eq_ok.mp h
    obtain ⟨hfields, hcontext⟩ := rejectIf_bind.mp hfields
    simp only [not_or, not_and, not_not] at hfields
    obtain ⟨hchat, hmessage, -⟩ := validateMessageContext_ok (mapErr_eq_ok.mp hcontext)
    have hprekey : prekeyId.length ≤ 32 := by
      by_cases hempty : prekeyId = []
      · rw [hempty]
        exact Nat.zero_le _
      · exact validPrekeyId_length (hfields.2 hempty)
    cases h
    refine ⟨rfl, ?_⟩
    simp only [parts, eraseIdx_cons_succ, eraseIdx_cons_zero, forall_mem_cons, length_be]
    exact ⟨by decide, by decide, by omega, by omega, by omega, nofun⟩
  | registration nodeId handshakeId challenge upload identityPublic prekeyId envelope =>
    obtain ⟨hfields, h⟩ := rejectIf_bind.mp h
    obtain ⟨_, -, h⟩ := bind_eq_ok.mp h
    simp only [not_or, not_not, Nat.not_lt, validPrekeyIdForProtocol, Bool.and_eq_true,
      decide_eq_true_eq] at hfields
    obtain ⟨-, hnode, -, -, hhandshake, -, hchallenge, -, hupload, -, hprekey, henvelope⟩ := hfields
    cases h
    refine ⟨rfl, ?_⟩
    simp only [parts, eraseIdx_cons_succ, eraseIdx_cons_zero, forall_mem_cons]
    exact ⟨hnode.trans_lt (by decide), hhandshake.trans_lt (by decide),
      hchallenge.trans_lt (by decide), hupload.trans_lt (by decide),
      hprekey.1.1.2.trans_lt (by decide),
      (validIdentityEnvelope_length henvelope).trans_lt (by decide), nofun⟩
  | credential username roomId nodeContext groupId stable mlsPublic =>
    obtain ⟨husername, h⟩ := rejectIf_bind.mp h
    obtain ⟨hroom, h⟩ := rejectIf_bind.mp h
    obtain ⟨hcontext, h⟩ := rejectIf_bind.mp h
    simp only [not_or, Nat.not_lt] at husername hroom hcontext
    refine ⟨(canonicalFields_eq_ok.mp h).2.2.2, ?_⟩
    simp only [parts, eraseIdx_cons_succ, eraseIdx_cons_zero, forall_mem_cons,
      Vector.length_toList]
    exact ⟨by decide, husername.2.1.trans_lt (by decide), hroom.2.1.trans_lt (by decide),
      hcontext.2.1.trans_lt (by decide), by decide, by decide, nofun⟩

/-- The first four bytes of a kind: the length of its label, or the start of the label itself. -/
def Transcript.tag : Transcript → Bytes
  | .message .. => be 4 25
  | .identityState .. => be 4 40
  | .acknowledgement .. => be 4 29
  | .registration .. => ascii "ABYS"
  | .credential .. => be 4 22

theorem Encoded.take (h : Encoded t bytes) : bytes.take 4 = t.tag := by
  rw [h.spelled]
  cases t with
  | message | identityState | acknowledgement => exact take_canonicalParts ..
  | registration =>
    rw [Transcript.parts, append_assoc, take_append_of_le_length (by decide)]
    exact (by decide : (ascii "ABYSSAL_REGISTRATION_IDENTITY_PROOF_V9").take 4 = ascii "ABYS")
  | credential =>
    rw [Transcript.parts, lengthPrefixed, append_assoc, append_assoc]
    exact take_left' (length_be 4 _)

theorem Encoded.parts_eq {t' : Transcript} (h : Encoded t bytes) (h' : Encoded t' bytes)
    (hfront : t.parts.1 = t'.parts.1) (hlength : t.parts.2.length = t'.parts.2.length) :
    t.parts.2 = t'.parts.2 := by
  have hcount : t.parts.2.length ≤ 10 := by cases t <;> simp [Transcript.parts]
  have hbytes := h.spelled.symm.trans h'.spelled
  rw [hfront] at hbytes
  exact canonicalParts_inj_except 4 (append_cancel_left hbytes) hlength (by omega) h.bounded
    h'.bounded

theorem messageAad_inj {chatId' messageId' sender' : Text}
    (hlength : (messageAad chatId messageId sender).length < 2 ^ 24)
    (h : messageAad chatId messageId sender = messageAad chatId' messageId' sender') :
    chatId = chatId' ∧ messageId = messageId' ∧ sender = sender' := by
  have hshort : ∀ {parts : List Bytes}, (canonicalParts parts).length < 2 ^ 24 →
      ∀ p ∈ parts, Short p :=
    fun hparts p hp => ((length_le_canonicalParts hp).trans_lt hparts).trans (by decide)
  have hlength' : (messageAad chatId' messageId' sender').length < 2 ^ 24 := h ▸ hlength
  simpa using canonicalParts_inj h rfl (hshort hlength) (hshort hlength')

theorem toNat_be_inj {v v' : UInt32} (h : be 4 v.toNat = be 4 v'.toNat) : v = v' :=
  UInt32.toNat_inj.mp (be_injOn v.toNat_lt v'.toNat_lt h)

/-- Two transcripts with the same bytes are of one kind and agree in every field. -/
theorem transcript_unique {t t' : Transcript} {bytes : Bytes} (h : t.encode keys = .ok bytes)
    (h' : t'.encode keys = .ok bytes) : t = t' := by
  have hencoded := Transcript.encoded h
  have hencoded' := Transcript.encoded h'
  have htag : t.tag = t'.tag := hencoded.take.symm.trans hencoded'.take
  cases t <;> cases t' <;> simp only [Transcript.tag] at htag <;>
    try exact absurd htag (by decide)
  all_goals
    have hparts := hencoded.parts_eq hencoded' rfl rfl
    simp only [Transcript.parts, List.cons.injEq, and_true, true_and] at hparts
  case message.message =>
    obtain ⟨hversion, haad, rfl, rfl, rfl, rfl, rfl, hprekey, rfl⟩ := hparts
    obtain ⟨rfl, rfl, rfl⟩ := messageAad_inj (hencoded.bounded _ (by simp [Transcript.parts])) haad
    cases toNat_be_inj hversion
    have hflag : ∀ b b' : Bool, (if b then 1 else 0 : UInt8) = (if b' then 1 else 0) → b = b' := by
      decide
    cases hflag _ _ hprekey
    rfl
  case identityState.identityState =>
    obtain ⟨hversion, hrevision, rfl, rfl, rfl⟩ := hparts
    cases toNat_be_inj hversion
    cases UInt64.toNat_inj.mp (be_injOn (UInt64.toNat_lt _) (UInt64.toNat_lt _) hrevision)
    rfl
  case acknowledgement.acknowledgement =>
    obtain ⟨hversion, rfl, rfl, rfl, rfl⟩ := hparts
    cases toNat_be_inj hversion
    rfl
  case registration.registration =>
    obtain ⟨rfl, rfl, rfl, rfl, rfl, rfl, rfl⟩ := hparts
    rfl
  case credential.credential =>
    obtain ⟨rfl, rfl, rfl, hgroup, hstable, hpublic⟩ := hparts
    cases Vector.toList_inj.mp hgroup
    cases Vector.toList_inj.mp hstable
    cases Vector.toList_inj.mp hpublic
    rfl

theorem transcript_unique_acknowledgement :
    ∃ bytes : Bytes, bytes.length = 60 ∧
      (Transcript.acknowledgement 9 [99] [109] [97] []).encode
        ⟨fun _ => [], fun _ => true, fun _ => true⟩ = .ok bytes ∧
      ∀ t : Transcript, t.encode ⟨fun _ => [], fun _ => true, fun _ => true⟩ = .ok bytes →
        t = .acknowledgement 9 [99] [109] [97] [] := by
  refine ⟨canonicalParts [ascii "ABYSSAL_E2EE_ACK_SIGNATURE_V9", be 4 9, [99], [109], [97], []],
    by decide, rfl, fun t h => transcript_unique h rfl⟩

end

end Abyssal.Client
