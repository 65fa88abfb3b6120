import Abyssal.Base.Aead
import Abyssal.Base.Bytes
import Abyssal.Rooms.Model

/-! The records of a WebSocket connection: an eighteen-byte header with the direction and a counter,
then the ciphertext. A sealer numbers its records from zero; an opener takes exactly the next
number. -/

namespace Abyssal.Transport

open List hiding Vector

def transportVersion : UInt8 := 11
def maxWsRecordPlaintextBytes : Nat := 16 * 1024 * 1024
def maxAadBytes : Nat := 4 * 1024
def maxSessionContextBytes : Nat := 512
def tagBytes : Nat := 16
def wsFrameAad : Bytes := ascii "ABYSSAL-TRANSPORT-V11-WS-FRAME"

inductive TransportError
  | invalidInput | tooLarge | authenticationFailed | nonCanonical | replay | counterGap
  | counterExhausted | capacityExhausted | clockRollback
  deriving DecidableEq, Repr

inductive Direction
  | clientToServer | serverToClient
  deriving DecidableEq, Repr

def Direction.byte : Direction → UInt8
  | .clientToServer => 1
  | .serverToClient => 2

def Direction.fromByte (value : UInt8) : Except TransportError Direction :=
  if value = 1 then .ok .clientToServer
  else if value = 2 then .ok .serverToClient
  else .error .nonCanonical

@[simp] theorem Direction.fromByte_byte (d : Direction) : Direction.fromByte d.byte = .ok d := by
  cases d <;> rfl

theorem Direction.byte_injective {d d' : Direction} (h : d.byte = d'.byte) : d = d' := by
  cases d <;> cases d' <;> first | rfl | exact absurd h (by decide)

def validateAad (aad : Bytes) : Except TransportError Unit :=
  refuseIf (maxAadBytes < aad.length) .tooLarge

def validatePlaintext (value : Bytes) (maximum : Nat) : Except TransportError Unit := do
  refuseIf (value = []) .invalidInput
  refuseIf (maximum < value.length) .tooLarge

def readU32 (value : Bytes) : Except TransportError Nat := do
  refuseIf (value.length ≠ 4) .nonCanonical
  .ok (ofBe value)

def readU64 (value : Bytes) : Except TransportError Nat := do
  refuseIf (value.length ≠ 8) .nonCanonical
  .ok (ofBe value)

theorem validatePlaintext_eq_ok {value : Bytes} {maximum : Nat} {u : Unit} :
    validatePlaintext value maximum = .ok u ↔ value ≠ [] ∧ value.length ≤ maximum := by
  simp [validatePlaintext, bind_eq_ok, refuseIf_eq_ok]

theorem validateAad_eq_ok {aad : Bytes} {u : Unit} :
    validateAad aad = .ok u ↔ aad.length ≤ maxAadBytes := by
  simp [validateAad, refuseIf_eq_ok]

def recordKdfDomain : Bytes := ascii "ABYSSAL-TRANSPORT-V11-RECORD-KEY"

def zeros (n : Nat) : Vector UInt8 n := Vector.replicate n 0

def recordKeyInfo (protocol : Bytes) (direction : Direction) (connectionContext : Bytes) : Bytes :=
  canonicalParts [recordKdfDomain, protocol, [direction.byte], connectionContext]

variable {Key : Type} {d : Direction} {n counter : Nat} {header : Bytes}

def deriveRecordKey (kdf : KeyDerivation Key) (root : Vector UInt8 32) (protocol : Bytes)
    (direction : Direction) (connectionContext : Bytes) : Except TransportError Key := do
  refuseIf (root = zeros 32 ∨ connectionContext = [] ∨
    maxSessionContextBytes < connectionContext.length) .invalidInput
  .ok (kdf.expand recordKdfDomain root.toList (recordKeyInfo protocol direction connectionContext))

def recordKey (kdf : KeyDerivation Key) (root : Vector UInt8 32) (protocol : Bytes)
    (direction : Direction) (connectionContext : Bytes) : Key :=
  kdf.expand recordKdfDomain root.toList (recordKeyInfo protocol direction connectionContext)

theorem deriveRecordKey_eq_ok (kdf : KeyDerivation Key) {root : Vector UInt8 32}
    (hroot : root ≠ zeros 32) (protocol : Bytes) (direction : Direction) {context : Bytes}
    (hpos : 0 < context.length) (hmax : context.length ≤ maxSessionContextBytes) :
    deriveRecordKey kdf root protocol direction context =
      .ok (recordKey kdf root protocol direction context) := by
  refine bind_eq_ok.mpr ⟨(), refuseIf_eq_ok.mpr ?_, rfl⟩
  exact not_or.mpr ⟨hroot, not_or.mpr ⟨ne_nil_of_length_pos hpos, not_lt.mpr hmax⟩⟩

/-- A key tells its channel, where the contexts of all bindings have one length. -/
theorem recordKey_inj (kdf : KeyDerivation Key) {root root' : Vector UInt8 32} {protocol : Bytes}
    {d' : Direction} {Binding : Type} {context : Binding → Bytes} {b b' : Binding} {size : Nat}
    (hprotocol : Short protocol) (hsize : size < 2 ^ 32) (hlength : ∀ b, (context b).length = size)
    (hinj : ∀ {b b'}, context b = context b' → b = b')
    (h : recordKey kdf root protocol d (context b) = recordKey kdf root' protocol d' (context b')) :
    root = root' ∧ b = b' ∧ d = d' := by
  obtain ⟨-, hroot, hinfo⟩ := kdf.collision_free h
  have hcontext : ∀ b, Short (context b) := fun b => (hlength b).trans_lt hsize
  have hlabel : Short recordKdfDomain := by decide
  have hbyte : ∀ d : Direction, Short [d.byte] := fun d => by cases d <;> decide
  have hparts := canonicalParts_inj hinfo rfl (by simp [hcontext, hprotocol, hlabel, hbyte])
    (by simp [hcontext, hprotocol, hlabel, hbyte])
  simp only [List.cons.injEq, and_true, true_and] at hparts
  exact ⟨Vector.toList_inj.mp hroot, hinj hparts.2, Direction.byte_injective hparts.1⟩

theorem short_toList (hn : n < 2 ^ 32) (v : Vector UInt8 n) : Short v.toList := by
  rwa [Short, Vector.length_toList]

def wsNonce (direction : Direction) (counter : Nat) : Bytes :=
  [0, 0, 0, direction.byte] ++ be 8 counter

theorem wsNonce_inj {i j : Nat} (hi : i < wordMax) (hj : j < wordMax)
    (h : wsNonce d i = wsNonce d j) : i = j := by
  refine be_injOn (w := 8) ?_ ?_ (append_cancel_left h) <;>
    · unfold wordMax at hi hj
      omega

def wsMagic : Bytes := ascii "ABW1"
def wsHeaderBytes : Nat := 18

def wsHeader (direction : Direction) (counter ciphertextLen : Nat) : Except TransportError Bytes := do
  refuseIf (2 ^ 32 ≤ ciphertextLen) .tooLarge
  .ok (wsMagic ++ ([transportVersion, direction.byte] ++ (be 8 counter ++ be 4 ciphertextLen)))

def decodeWs (record : Bytes) : Except TransportError (Bytes × Direction × Nat × Bytes) := do
  -- The header, the direction, the counter and the ciphertext of a record.
  refuseIf (record.length < wsHeaderBytes + tagBytes + 1 ∨
    wsHeaderBytes + maxWsRecordPlaintextBytes + tagBytes < record.length) .tooLarge
  refuseIf (record.take 4 ≠ wsMagic ∨ record[4]? ≠ some transportVersion) .nonCanonical
  let direction ← Direction.fromByte (record.getD 5 0)
  let counter ← readU64 ((record.drop 6).take 8)
  let length ← readU32 ((record.drop 14).take 4)
  refuseIf (length ≠ record.length - wsHeaderBytes) .nonCanonical
  .ok (record.take wsHeaderBytes, direction, counter, record.drop wsHeaderBytes)

theorem wsHeader_eq_ok :
    wsHeader d counter n = .ok header ↔ n < 2 ^ 32 ∧
      wsMagic ++ ([transportVersion, d.byte] ++ (be 8 counter ++ be 4 n)) = header := by
  simp only [wsHeader, bind_eq_ok, refuseIf_eq_ok, Except.ok.injEq, not_le]
  exact ⟨fun ⟨_, hn, h⟩ => ⟨hn, h⟩, fun ⟨hn, h⟩ => ⟨(), hn, h⟩⟩

theorem length_wsHeader (h : wsHeader d counter n = .ok header) :
    header.length = wsHeaderBytes := by
  obtain ⟨-, rfl⟩ := wsHeader_eq_ok.mp h
  simp only [length_append, length_be]
  rfl

theorem decodeWs_header {ciphertext : Bytes} (hheader : wsHeader d counter n = .ok header)
    (hcounter : counter ≤ wordMax) (hn : ciphertext.length = n) (hmin : tagBytes < n)
    (hmax : n ≤ maxWsRecordPlaintextBytes + tagBytes) :
    decodeWs (header ++ ciphertext) = .ok (header, d, counter, ciphertext) := by
  have hlength := length_wsHeader hheader
  obtain ⟨hshort, rfl⟩ := wsHeader_eq_ok.mp hheader
  have hsix : ∀ rest : Bytes, (wsMagic ++ ([transportVersion, d.byte] ++ rest)).drop 6 = rest :=
    fun _ => rfl
  have hcount : (((wsMagic ++ ([transportVersion, d.byte] ++ (be 8 counter ++ be 4 n))) ++
      ciphertext).drop 6).take 8 = be 8 counter := by
    rw [append_assoc, append_assoc, hsix, append_assoc]
    exact take_left' (length_be 8 _)
  have hsize : (((wsMagic ++ ([transportVersion, d.byte] ++ (be 8 counter ++ be 4 n))) ++
      ciphertext).drop 14).take 4 = be 4 n := by
    rw [append_assoc, append_assoc, show 14 = 6 + 8 from rfl, ← drop_drop, hsix,
      append_assoc, drop_left' (length_be 8 _)]
    exact take_left' (length_be 4 _)
  have hword : counter % 256 ^ 8 = counter := Nat.mod_eq_of_lt (by unfold wordMax at hcounter; omega)
  have hn32 : n % 256 ^ 4 = n := Nat.mod_eq_of_lt (by omega)
  unfold decodeWs
  rw [length_append, hlength, hn, hcount, hsize, take_left' hlength,
    drop_left' hlength]
  simp only [bind_eq_ok]
  refine ⟨(), refuseIf_eq_ok.mpr (by omega), (), refuseIf_eq_ok.mpr ?_, d,
    Direction.fromByte_byte d, counter, ?_, n, ?_, (), refuseIf_eq_ok.mpr ?_, rfl⟩
  · exact not_or.mpr ⟨fun h => h rfl, fun h => h rfl⟩
  · exact bind_eq_ok.mpr ⟨(), refuseIf_eq_ok.mpr (fun h => h (length_be 8 _)), by
      rw [ofBe_be, hword]⟩
  · exact bind_eq_ok.mpr ⟨(), refuseIf_eq_ok.mpr (fun h => h (length_be 4 _)), by
      rw [ofBe_be, hn32]⟩
  · omega

structure WsSealer (Key : Type) where
  key : Key
  direction : Direction
  nextCounter : Nat

structure WsOpener (Key : Type) where
  key : Key
  direction : Direction
  nextCounter : Nat

def WsSealer.new (kdf : KeyDerivation Key) (transportRoot : Vector UInt8 32) (direction : Direction)
    (connectionContext : Bytes) : Except TransportError (WsSealer Key) := do
  let key ← deriveRecordKey kdf transportRoot (ascii "WS") direction connectionContext
  .ok ⟨key, direction, 0⟩

def WsOpener.new (kdf : KeyDerivation Key) (transportRoot : Vector UInt8 32) (direction : Direction)
    (connectionContext : Bytes) : Except TransportError (WsOpener Key) := do
  let key ← deriveRecordKey kdf transportRoot (ascii "WS") direction connectionContext
  .ok ⟨key, direction, 0⟩

def WsSealer.record (cipher : Cipher Key tagBytes) (self : WsSealer Key) (aad plaintext : Bytes) :
    Except TransportError (Encryption Key × Bytes) := do
  validateAad aad
  validatePlaintext plaintext maxWsRecordPlaintextBytes
  refuseIf (self.nextCounter = wordMax) .counterExhausted
  let header ← wsHeader self.direction self.nextCounter (plaintext.length + tagBytes)
  let call := cipher.call self.key (wsNonce self.direction self.nextCounter)
    (canonicalParts [header, aad]) plaintext
  .ok (call, header ++ call.ciphertext)

def WsSealer.seal (cipher : Cipher Key tagBytes) (self : WsSealer Key) (aad plaintext : Bytes) :
    WsSealer Key × Except TransportError (Encryption Key × Bytes) :=
  -- The counter moves once the record is made.
  match self.record cipher aad plaintext with
  | .error e => (self, .error e)
  | .ok out => ({ self with nextCounter := saturatingAdd self.nextCounter 1 }, .ok out)

def WsOpener.plaintext [DecidableEq Key] (log : List (Encryption Key)) (self : WsOpener Key)
    (aad record : Bytes) : Except TransportError Bytes := do
  validateAad aad
  refuseIf (self.nextCounter = wordMax) .counterExhausted
  let (header, direction, counter, ciphertext) ← decodeWs record
  refuseIf (direction ≠ self.direction) .authenticationFailed
  refuseIf (counter < self.nextCounter) .replay
  refuseIf (self.nextCounter < counter) .counterGap
  let plaintext ← orRefuse (Aead.decrypt log self.key (wsNonce self.direction counter)
    (canonicalParts [header, aad]) ciphertext) .authenticationFailed
  validatePlaintext plaintext maxWsRecordPlaintextBytes
  .ok plaintext

def WsOpener.openRecord [DecidableEq Key] (log : List (Encryption Key)) (self : WsOpener Key)
    (aad record : Bytes) : WsOpener Key × Except TransportError Bytes :=
  match self.plaintext log aad record with
  | .error e => (self, .error e)
  | .ok plaintext => ({ self with nextCounter := saturatingAdd self.nextCounter 1 }, .ok plaintext)

section

variable {cipher : Cipher Key tagBytes} {aad : Bytes} {plaintext : Bytes} {self : WsSealer Key}

theorem WsSealer.record_eq_ok {out : Encryption Key × Bytes} :
    self.record cipher aad plaintext = .ok out ↔
      aad.length ≤ maxAadBytes ∧ (plaintext ≠ [] ∧ plaintext.length ≤ maxWsRecordPlaintextBytes) ∧
      self.nextCounter ≠ wordMax ∧
      ∃ header, wsHeader self.direction self.nextCounter (plaintext.length + tagBytes) = .ok header ∧
        out = (cipher.call self.key (wsNonce self.direction self.nextCounter)
            (canonicalParts [header, aad]) plaintext,
          header ++ cipher.encrypt self.key (wsNonce self.direction self.nextCounter)
            (canonicalParts [header, aad]) plaintext) := by
  unfold WsSealer.record
  simp only [bind_eq_ok, validateAad_eq_ok, validatePlaintext_eq_ok, refuseIf_eq_ok, exists_const,
    Except.ok.injEq, Cipher.call, ne_eq, @eq_comm _ out]

theorem WsSealer.exists_record (cipher : Cipher Key tagBytes) (haad : aad.length ≤ maxAadBytes)
    (hvalid : plaintext ≠ [] ∧ plaintext.length ≤ maxWsRecordPlaintextBytes)
    (hcounter : self.nextCounter ≠ wordMax) :
    ∃ out, self.record cipher aad plaintext = .ok out := by
  have hsize : plaintext.length + tagBytes < 2 ^ 32 := by
    have hle := hvalid.2
    unfold maxWsRecordPlaintextBytes at hle
    unfold tagBytes
    omega
  exact ⟨_, WsSealer.record_eq_ok.mpr
    ⟨haad, hvalid, hcounter, _, wsHeader_eq_ok.mpr ⟨hsize, rfl⟩, rfl⟩⟩

theorem WsSealer.record_call {record : Bytes} {call : Encryption Key}
    (h : self.record cipher aad plaintext = .ok (call, record)) :
    self.nextCounter ≠ wordMax ∧ call.key = self.key ∧
      call.nonce = wsNonce self.direction self.nextCounter ∧ call.plaintext = plaintext := by
  obtain ⟨-, -, hmax, header, -, hout⟩ := WsSealer.record_eq_ok.mp h
  obtain rfl := congrArg Prod.fst hout
  exact ⟨hmax, rfl, rfl, rfl⟩

theorem WsOpener.plaintext_eq_ok [DecidableEq Key] {log : List (Encryption Key)}
    {self : WsOpener Key} {record : Bytes} :
    self.plaintext log aad record = .ok plaintext ↔
      aad.length ≤ maxAadBytes ∧ self.nextCounter ≠ wordMax ∧
      ∃ header ciphertext,
        decodeWs record = .ok (header, self.direction, self.nextCounter, ciphertext) ∧
        Aead.decrypt log self.key (wsNonce self.direction self.nextCounter)
          (canonicalParts [header, aad]) ciphertext = some plaintext ∧
        plaintext ≠ [] ∧ plaintext.length ≤ maxWsRecordPlaintextBytes := by
  unfold WsOpener.plaintext
  simp only [bind_eq_ok, validateAad_eq_ok, validatePlaintext_eq_ok, refuseIf_eq_ok, orRefuse_eq_ok,
    exists_const, Except.ok.injEq]
  constructor
  · rintro ⟨haad, hcounter, ⟨header, d, counter, ciphertext⟩, hdecode, hd, hge, hle, p, hp, hvalid,
      rfl⟩
    obtain rfl : d = self.direction := not_not.mp hd
    obtain rfl : counter = self.nextCounter := le_antisymm (not_lt.mp hle) (not_lt.mp hge)
    exact ⟨haad, hcounter, header, ciphertext, hdecode, hp, hvalid⟩
  · rintro ⟨haad, hcounter, header, ciphertext, hdecode, hp, hvalid⟩
    exact ⟨haad, hcounter, _, hdecode, not_not.mpr rfl, lt_irrefl _, lt_irrefl _, plaintext, hp,
      hvalid, rfl⟩

end

end Abyssal.Transport
