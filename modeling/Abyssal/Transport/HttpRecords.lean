import Abyssal.Base.Reading
import Abyssal.Base.Runs
import Abyssal.Transport.Records

/-! The records of an HTTP session: a header with the direction, the session and a handle, then the
ciphertext. Sealers and openers keep the handles they used; neither uses a handle twice. -/

namespace Abyssal.Transport

open List hiding Vector

def maxRecordPlaintextBytes : Nat := 1024 * 1024
def maxHttpHandles : Nat := 4096
def httpMagic : Bytes := ascii "ABR1"
def httpHeaderBytes : Nat := 4 + 1 + 1 + 32 + 16 + 4
def httpBindingDomain : Bytes := ascii "ABYSSAL-TRANSPORT-V11-HTTP-SESSION"

def httpLayout (direction : Direction) (sessionId : Vector UInt8 32) (handle : Vector UInt8 16)
    (ciphertextLen : Nat) : Bytes :=
  httpMagic ++ ([transportVersion, direction.byte] ++
    (sessionId.toList ++ (handle.toList ++ be 4 ciphertextLen)))

def httpHeader (direction : Direction) (sessionId : Vector UInt8 32) (handle : Vector UInt8 16)
    (ciphertextLen : Nat) : Except TransportError Bytes := do
  refuseIf (sessionId = zeros 32) .invalidInput
  refuseIf (2 ^ 32 ≤ ciphertextLen) .tooLarge
  .ok (httpLayout direction sessionId handle ciphertextLen)

structure DecodedHttpRecord where
  header : Bytes
  direction : Direction
  sessionId : Vector UInt8 32
  handle : Vector UInt8 16
  ciphertext : Bytes

def decodeHttp (record : Bytes) : Except TransportError DecodedHttpRecord := do
  refuseIf (record.length < httpHeaderBytes + tagBytes + 1 ∨
    httpHeaderBytes + maxRecordPlaintextBytes + tagBytes < record.length) .tooLarge
  refuseIf (record.take 4 ≠ httpMagic ∨ record[4]? ≠ some transportVersion) .nonCanonical
  let direction ← Direction.fromByte (record.getD 5 0)
  let sessionId ← orRefuse (exactly 32 ((record.drop 6).take 32)) .nonCanonical
  let handle ← orRefuse (exactly 16 ((record.drop 38).take 16)) .nonCanonical
  let length ← readU32 ((record.drop 54).take 4)
  refuseIf (length ≠ record.length - httpHeaderBytes) .nonCanonical
  .ok ⟨record.take httpHeaderBytes, direction, sessionId, handle, record.drop httpHeaderBytes⟩

variable {d : Direction}

theorem Direction.fromByte_eq_ok {value : UInt8} :
    Direction.fromByte value = .ok d ↔ value = d.byte := by
  constructor
  · intro h
    unfold Direction.fromByte at h
    split_ifs at h with h1 h2
    · obtain rfl := Except.ok.inj h
      exact h1
    · obtain rfl := Except.ok.inj h
      exact h2
  · rintro rfl
    exact Direction.fromByte_byte d

variable {n : Nat}

theorem readU32_eq_ok {value : Bytes} :
    readU32 value = .ok n ↔ value.length = 4 ∧ ofBe value = n := by
  simp [readU32, bind_eq_ok, refuseIf_eq_ok]

theorem length_httpLayout (d : Direction) (sessionId : Vector UInt8 32) (handle : Vector UInt8 16)
    (n : Nat) : (httpLayout d sessionId handle n).length = httpHeaderBytes := by
  simp only [httpLayout, length_append, Vector.length_toList, length_be]
  rfl

theorem httpLayout_fields (d : Direction) (sessionId : Vector UInt8 32) (handle : Vector UInt8 16)
    (n : Nat) (rest : Bytes) :
    let record := httpLayout d sessionId handle n ++ rest
    record.take 4 = httpMagic ∧ record[4]? = some transportVersion ∧ record.getD 5 0 = d.byte ∧
      (record.drop 6).take 32 = sessionId.toList ∧ (record.drop 38).take 16 = handle.toList ∧
      (record.drop 54).take 4 = be 4 n := by
  intro record
  have hsix : record.drop 6 = sessionId.toList ++ (handle.toList ++ (be 4 n ++ rest)) := by
    simp only [record, httpLayout, append_assoc]
    rfl
  have h38 : record.drop 38 = handle.toList ++ (be 4 n ++ rest) := by
    rw [show 38 = 6 + 32 from rfl, ← drop_drop, hsix, drop_left' Vector.length_toList]
  have h54 : record.drop 54 = be 4 n ++ rest := by
    rw [show 54 = 38 + 16 from rfl, ← drop_drop, h38, drop_left' Vector.length_toList]
  refine ⟨rfl, rfl, rfl, ?_, ?_, ?_⟩
  · rw [hsix, take_left' Vector.length_toList]
  · rw [h38, take_left' Vector.length_toList]
  · rw [h54, take_left' (length_be 4 n)]

theorem take_httpHeaderBytes {record : Bytes} (h : httpHeaderBytes ≤ record.length) :
    record.take httpHeaderBytes = record.take 4 ++ ([record.getD 4 0, record.getD 5 0] ++
      ((record.drop 6).take 32 ++ ((record.drop 38).take 16 ++ (record.drop 54).take 4))) := by
  have hpair : (record.drop 4).take 2 = [record.getD 4 0, record.getD 5 0] := by
    have h4 : 4 < record.length := lt_of_lt_of_le (by decide) h
    have h5 : 5 < record.length := lt_of_lt_of_le (by decide) h
    rw [drop_eq_getElem_cons h4, drop_eq_getElem_cons h5, getD_eq_getElem?_getD,
      getD_eq_getElem?_getD, getElem?_eq_getElem h4, getElem?_eq_getElem h5]
    rfl
  rw [show httpHeaderBytes = 4 + (2 + (32 + (16 + 4))) from rfl, take_add, take_add,
    take_add, take_add, hpair, drop_drop, drop_drop, drop_drop]

theorem decodeHttp_eq_ok {record : Bytes} {decoded : DecodedHttpRecord} :
    decodeHttp record = .ok decoded ↔
      record = decoded.header ++ decoded.ciphertext ∧
      decoded.header = httpLayout decoded.direction decoded.sessionId decoded.handle
        decoded.ciphertext.length ∧
      tagBytes < decoded.ciphertext.length ∧
      decoded.ciphertext.length ≤ maxRecordPlaintextBytes + tagBytes := by
  simp only [decodeHttp, bind_eq_ok, refuseIf_eq_ok, orRefuse_eq_ok, exists_const, exactly_eq_some,
    Direction.fromByte_eq_ok, readU32_eq_ok, Except.ok.injEq, not_or, not_lt, not_not, ne_eq]
  constructor
  · rintro ⟨⟨hmin, hmax⟩, ⟨hmagic, hversion⟩, d, hd, sessionId, hsession, handle, hhandle, n,
      ⟨hfour, rfl⟩, hlength, rfl⟩
    have hheader : httpHeaderBytes ≤ record.length := by omega
    have hversion : record.getD 4 0 = transportVersion := by
      rw [getD_eq_getElem?_getD, hversion, Option.getD_some]
    simp only [length_drop]
    refine ⟨(take_append_drop _ record).symm, ?_, by omega, by omega⟩
    rw [take_httpHeaderBytes hheader, hmagic, hversion, hd, ← hsession, ← hhandle, ← hlength,
      httpLayout, be_ofBe hfour]
  · obtain ⟨header, d, sessionId, handle, ciphertext⟩ := decoded
    rintro ⟨hrecord, hheader, hmin, hmax⟩
    dsimp only at hrecord hheader hmin hmax
    have hlength : header.length = httpHeaderBytes := by rw [hheader, length_httpLayout]
    have hfields := httpLayout_fields d sessionId handle ciphertext.length ciphertext
    rw [← hheader, ← hrecord] at hfields
    obtain ⟨hmagic, hversion, hd, hsession, hhandle, hn⟩ := hfields
    have hword : ciphertext.length % 256 ^ 4 = ciphertext.length := by
      unfold maxRecordPlaintextBytes tagBytes at hmax
      omega
    have hsize : record.length = httpHeaderBytes + ciphertext.length := by
      rw [hrecord, length_append, hlength]
    refine ⟨⟨by omega, by omega⟩, ⟨hmagic, hversion⟩, d, hd, sessionId, hsession.symm, handle,
      hhandle.symm, ciphertext.length, ⟨by rw [hn, length_be], by rw [hn, ofBe_be, hword]⟩,
      by omega, ?_⟩
    rw [hrecord, take_left' hlength, drop_left' hlength]

variable {Key : Type}

structure HttpSealer (Key : Type) where
  key : Key
  direction : Direction
  sessionId : Vector UInt8 32
  usedHandles : Finset (Vector UInt8 16)

structure HttpOpener (Key : Type) where
  key : Key
  direction : Direction
  sessionId : Vector UInt8 32
  usedHandles : Finset (Vector UInt8 16)

def HttpSealer.new (kdf : KeyDerivation Key) (transportRoot : Vector UInt8 32)
    (direction : Direction) (sessionContext : Bytes) (sessionId : Vector UInt8 32) :
    Except TransportError (HttpSealer Key) := do
  let key ← deriveRecordKey kdf transportRoot (ascii "HTTP") direction sessionContext
  .ok ⟨key, direction, sessionId, ∅⟩

def HttpOpener.new (kdf : KeyDerivation Key) (transportRoot : Vector UInt8 32)
    (direction : Direction) (sessionContext : Bytes) (sessionId : Vector UInt8 32) :
    Except TransportError (HttpOpener Key) := do
  let key ← deriveRecordKey kdf transportRoot (ascii "HTTP") direction sessionContext
  .ok ⟨key, direction, sessionId, ∅⟩

def validateRecordInput (handle : Vector UInt8 16) (aad plaintext : Bytes) :
    Except TransportError Unit := do
  refuseIf (handle = zeros 16) .invalidInput
  validateAad aad
  validatePlaintext plaintext maxRecordPlaintextBytes

def ensureHandleAvailable (handles : Finset (Vector UInt8 16)) (handle : Vector UInt8 16) :
    Except TransportError Unit := do
  refuseIf (handle ∈ handles) .replay
  refuseIf (maxHttpHandles ≤ handles.card) .capacityExhausted

def insertHandle (handles : Finset (Vector UInt8 16)) (handle : Vector UInt8 16) :
    Except TransportError (Finset (Vector UInt8 16)) := do
  ensureHandleAvailable handles handle
  .ok (insert handle handles)

def httpNonce (expand : Key → Bytes → Bytes) (key : Key) (direction : Direction)
    (handle : Vector UInt8 16) : Bytes :=
  -- The nonce is expanded from the key; the expansion is left open, so that nothing below rests on
  -- two handles having different nonces.
  expand key (canonicalParts [[direction.byte], handle.toList])

section

variable (cipher : Cipher Key tagBytes) (expand : Key → Bytes → Bytes)

def HttpSealer.record (self : HttpSealer Key) (requestHandle : Vector UInt8 16)
    (aad plaintext : Bytes) :
    Except TransportError (Encryption Key × Bytes × Finset (Vector UInt8 16)) := do
  validateRecordInput requestHandle aad plaintext
  ensureHandleAvailable self.usedHandles requestHandle
  let header ← httpHeader self.direction self.sessionId requestHandle (plaintext.length + tagBytes)
  let nonce := httpNonce expand self.key self.direction requestHandle
  let call := cipher.call self.key nonce (canonicalParts [header, aad]) plaintext
  let usedHandles ← insertHandle self.usedHandles requestHandle
  .ok (call, header ++ call.ciphertext, usedHandles)

def HttpSealer.seal (self : HttpSealer Key) (requestHandle : Vector UInt8 16)
    (aad plaintext : Bytes) :
    HttpSealer Key × Except TransportError (Encryption Key × Bytes) :=
  match self.record cipher expand requestHandle aad plaintext with
  | .error e => (self, .error e)
  | .ok (call, record, usedHandles) => ({ self with usedHandles := usedHandles }, .ok (call, record))

def HttpOpener.plaintext [DecidableEq Key] (log : List (Encryption Key)) (self : HttpOpener Key)
    (expectedHandle : Vector UInt8 16) (aad record : Bytes) :
    Except TransportError (Bytes × Finset (Vector UInt8 16)) := do
  validateAad aad
  let decoded ← decodeHttp record
  refuseIf (decoded.direction ≠ self.direction ∨ decoded.sessionId ≠ self.sessionId ∨
    decoded.handle ≠ expectedHandle ∨ decoded.handle = zeros 16) .authenticationFailed
  refuseIf (decoded.handle ∈ self.usedHandles) .replay
  let plaintext ← orRefuse (Aead.decrypt log self.key
    (httpNonce expand self.key self.direction decoded.handle)
    (canonicalParts [decoded.header, aad]) decoded.ciphertext) .authenticationFailed
  validatePlaintext plaintext maxRecordPlaintextBytes
  let usedHandles ← insertHandle self.usedHandles decoded.handle
  .ok (plaintext, usedHandles)

def HttpOpener.openRecord [DecidableEq Key] (log : List (Encryption Key)) (self : HttpOpener Key)
    (expectedHandle : Vector UInt8 16) (aad record : Bytes) :
    HttpOpener Key × Except TransportError Bytes :=
  match self.plaintext expand log expectedHandle aad record with
  | .error e => (self, .error e)
  | .ok (plaintext, usedHandles) => ({ self with usedHandles := usedHandles }, .ok plaintext)

end

variable {handles : Finset (Vector UInt8 16)} {handle : Vector UInt8 16}

theorem insertHandle_eq_ok {handles' : Finset (Vector UInt8 16)} :
    insertHandle handles handle = .ok handles' ↔
      handle ∉ handles ∧ handles.card < maxHttpHandles ∧ handles' = insert handle handles := by
  simp [insertHandle, ensureHandleAvailable, bind_eq_ok, refuseIf_eq_ok, @eq_comm _ handles']

variable {aad : Bytes}

section

variable {cipher : Cipher Key tagBytes} {expand : Key → Bytes → Bytes}

theorem HttpSealer.record_eq_ok {self : HttpSealer Key} {plaintext record : Bytes}
    {call : Encryption Key}
    (h : self.record cipher expand handle aad plaintext = .ok (call, record, handles)) :
    handle ∉ self.usedHandles ∧ handles = insert handle self.usedHandles ∧
      aad.length ≤ maxAadBytes ∧
      call.key = self.key ∧ call.plaintext = plaintext ∧
      call.aad = canonicalParts
        [httpLayout self.direction self.sessionId handle (plaintext.length + tagBytes), aad] := by
  simp only [HttpSealer.record, validateRecordInput, bind_eq_ok, refuseIf_eq_ok, validateAad_eq_ok,
    insertHandle_eq_ok, httpHeader, Except.ok.injEq, Prod.mk.injEq] at h
  obtain ⟨_, ⟨_, -, _, haad, -⟩, _, -, header, ⟨_, -, _, -, rfl⟩, _, ⟨hfresh, -, rfl⟩, rfl, -, rfl⟩ := h
  exact ⟨hfresh, rfl, haad, rfl, rfl, rfl⟩

theorem HttpOpener.plaintext_eq_ok [DecidableEq Key] {log : List (Encryption Key)}
    {self : HttpOpener Key} {record plaintext : Bytes}
    (h : self.plaintext expand log handle aad record = .ok (plaintext, handles)) :
    handle ∉ self.usedHandles ∧ handles = insert handle self.usedHandles ∧
      aad.length ≤ maxAadBytes ∧
      ∃ nonce ciphertext, ⟨self.key, nonce, canonicalParts
        [httpLayout self.direction self.sessionId handle ciphertext.length, aad], plaintext,
          ciphertext⟩ ∈ Aead.under self.key log := by
  simp only [HttpOpener.plaintext, bind_eq_ok, refuseIf_eq_ok, orRefuse_eq_ok, validateAad_eq_ok,
    insertHandle_eq_ok, exists_const, not_or, not_not, ne_eq, Except.ok.injEq, Prod.mk.injEq] at h
  obtain ⟨haad, decoded, hdecode, ⟨hdirection, hsession, hhandle, -⟩, -, p, hp, _, -, _,
    ⟨hfresh, -, rfl⟩, rfl, rfl⟩ := h
  obtain ⟨-, hheader, -, -⟩ := decodeHttp_eq_ok.mp hdecode
  rw [hdirection, hsession, hhandle] at hheader
  rw [hhandle] at hfresh ⊢
  refine ⟨hfresh, rfl, haad, httpNonce expand self.key self.direction decoded.handle,
    decoded.ciphertext, ?_⟩
  rw [← hheader]
  exact Aead.mem_of_decrypt hp

end

theorem httpAad_inj {d' : Direction} {sessionId sessionId' : Vector UInt8 32}
    {handle' : Vector UInt8 16} {n' : Nat} {aad' : Bytes} (haad : aad.length ≤ maxAadBytes)
    (haad' : aad'.length ≤ maxAadBytes)
    (h : canonicalParts [httpLayout d sessionId handle n, aad] =
      canonicalParts [httpLayout d' sessionId' handle' n', aad']) :
    handle = handle' ∧ aad = aad' := by
  have hshort : ∀ d s h n, Short (httpLayout d s h n) := fun d s h n => by
    rw [Short, length_httpLayout]
    decide
  have hbound : ∀ a : Bytes, a.length ≤ maxAadBytes → Short a := fun a ha =>
    lt_of_le_of_lt ha (by decide)
  have hparts := canonicalParts_inj h rfl (by simp [hshort, hbound aad haad])
    (by simp [hshort, hbound aad' haad'])
  simp only [List.cons.injEq, and_true] at hparts
  have hleft := (httpLayout_fields d sessionId handle n []).2.2.2.2.1
  have hright := (httpLayout_fields d' sessionId' handle' n' []).2.2.2.2.1
  rw [hparts.1] at hleft
  exact ⟨Vector.toList_inj.mp (hleft.symm.trans hright), hparts.2⟩

structure HttpSessionBinding where
  nodePublicKey : Vector UInt8 32
  sessionId : Vector UInt8 32
  nodePublicKey_ne : nodePublicKey ≠ zeros 32
  sessionId_ne : sessionId ≠ zeros 32

instance : DecidableEq HttpSessionBinding := fun a b =>
  decidable_of_iff (a.nodePublicKey = b.nodePublicKey ∧ a.sessionId = b.sessionId)
    (by cases a; cases b; simp)

namespace HttpSessionBinding

def keyContext (self : HttpSessionBinding) : Bytes :=
  canonicalParts [httpBindingDomain, self.nodePublicKey.toList, self.sessionId.toList]

def intoClient (kdf : KeyDerivation Key) (self : HttpSessionBinding)
    (transportRoot : Vector UInt8 32) :
    Except TransportError (HttpSealer Key × HttpOpener Key) := do
  let sealer ← HttpSealer.new kdf transportRoot .clientToServer self.keyContext self.sessionId
  let opener ← HttpOpener.new kdf transportRoot .serverToClient self.keyContext self.sessionId
  .ok (sealer, opener)

def intoServer (kdf : KeyDerivation Key) (self : HttpSessionBinding)
    (transportRoot : Vector UInt8 32) :
    Except TransportError (HttpSealer Key × HttpOpener Key) := do
  let sealer ← HttpSealer.new kdf transportRoot .serverToClient self.keyContext self.sessionId
  let opener ← HttpOpener.new kdf transportRoot .clientToServer self.keyContext self.sessionId
  .ok (sealer, opener)

theorem length_keyContext (self : HttpSessionBinding) : self.keyContext.length = 110 := by
  simp only [keyContext, canonicalParts, flatMap_cons, flatMap_nil, length_append,
    length_lengthPrefixed, Vector.length_toList, length_nil]
  rfl

theorem keyContext_injective {b b' : HttpSessionBinding} (h : b.keyContext = b'.keyContext) :
    b = b' := by
  have hshort : ∀ v : Vector UInt8 32, Short v.toList := short_toList (by decide)
  have hdomain : Short httpBindingDomain := by decide
  have hparts := canonicalParts_inj h rfl (by simp [hshort, hdomain]) (by simp [hshort, hdomain])
  simp only [List.cons.injEq, Vector.toList_inj, and_true, true_and] at hparts
  obtain ⟨node, sessionId, h₁, h₂⟩ := b
  obtain ⟨node', sessionId', h₁', h₂'⟩ := b'
  obtain ⟨rfl, rfl⟩ := hparts
  rfl

end HttpSessionBinding

@[ext] structure HttpChannel where
  root : Vector UInt8 32
  binding : HttpSessionBinding
  direction : Direction
  root_ne : root ≠ zeros 32

instance : DecidableEq HttpChannel := fun a b =>
  decidable_of_iff (a.root = b.root ∧ a.binding = b.binding ∧ a.direction = b.direction)
    (by cases a; cases b; simp)

namespace HttpChannel

variable (kdf : KeyDerivation Key) (ch : HttpChannel)

def key : Key := recordKey kdf ch.root (ascii "HTTP") ch.direction ch.binding.keyContext

def sealer : HttpSealer Key := ⟨ch.key kdf, ch.direction, ch.binding.sessionId, ∅⟩
def opener : HttpOpener Key := ⟨ch.key kdf, ch.direction, ch.binding.sessionId, ∅⟩

theorem deriveRecordKey_eq :
    deriveRecordKey kdf ch.root (ascii "HTTP") ch.direction ch.binding.keyContext =
      .ok (ch.key kdf) := by
  have hlength := ch.binding.length_keyContext
  exact deriveRecordKey_eq_ok kdf ch.root_ne _ _ (hlength ▸ by decide) (hlength ▸ by decide)

theorem sealer_new : HttpSealer.new kdf ch.root ch.direction ch.binding.keyContext
    ch.binding.sessionId = .ok (ch.sealer kdf) :=
  bind_eq_ok.mpr ⟨_, ch.deriveRecordKey_eq kdf, rfl⟩

theorem opener_new : HttpOpener.new kdf ch.root ch.direction ch.binding.keyContext
    ch.binding.sessionId = .ok (ch.opener kdf) :=
  bind_eq_ok.mpr ⟨_, ch.deriveRecordKey_eq kdf, rfl⟩

variable {ch}

theorem key_injective {ch' : HttpChannel} (h : ch.key kdf = ch'.key kdf) : ch = ch' := by
  obtain ⟨hroot, hbinding, hdirection⟩ := recordKey_inj kdf (by decide) (by decide)
    HttpSessionBinding.length_keyContext HttpSessionBinding.keyContext_injective h
  exact HttpChannel.ext hroot hbinding hdirection

end HttpChannel

variable {root : Vector UInt8 32}

theorem HttpSessionBinding.intoClient_eq (kdf : KeyDerivation Key) (b : HttpSessionBinding)
    (hroot : root ≠ zeros 32) :
    b.intoClient kdf root = .ok (HttpChannel.sealer kdf ⟨root, b, .clientToServer, hroot⟩,
      HttpChannel.opener kdf ⟨root, b, .serverToClient, hroot⟩) :=
  bind_eq_ok.mpr ⟨_, HttpChannel.sealer_new kdf ⟨root, b, .clientToServer, hroot⟩,
    bind_eq_ok.mpr ⟨_, HttpChannel.opener_new kdf ⟨root, b, .serverToClient, hroot⟩, rfl⟩⟩

theorem HttpSessionBinding.intoServer_eq (kdf : KeyDerivation Key) (b : HttpSessionBinding)
    (hroot : root ≠ zeros 32) :
    b.intoServer kdf root = .ok (HttpChannel.sealer kdf ⟨root, b, .serverToClient, hroot⟩,
      HttpChannel.opener kdf ⟨root, b, .clientToServer, hroot⟩) :=
  bind_eq_ok.mpr ⟨_, HttpChannel.sealer_new kdf ⟨root, b, .serverToClient, hroot⟩,
    bind_eq_ok.mpr ⟨_, HttpChannel.opener_new kdf ⟨root, b, .clientToServer, hroot⟩, rfl⟩⟩

end Abyssal.Transport
