import Mathlib.Data.Nat.Log
import Abyssal.Transport.Records

/-! The streams that attachments are sent in: data frames of one size, padding frames up to a power of
two, and an end frame, every one of them a record of the same length. -/

namespace Abyssal.Transport

open List hiding Vector

def attachmentStreamPayloadBytes : Nat := 256 * 1024
def attachmentStreamPlaintextBytes : Nat := 8 + attachmentStreamPayloadBytes
def attachmentStreamHeaderBytes : Nat := 16
def attachmentStreamFrameBytes : Nat :=
  attachmentStreamHeaderBytes + attachmentStreamPlaintextBytes + 16
def maxAttachmentBucketFrames : Nat := 1024
def maxAttachmentCiphertextBytes : Nat := 800 * 262201
def streamMagic : Bytes := ascii "ABS1"
def streamContextDomain : Bytes := ascii "ABYSSAL-TRANSPORT-V11-ATTACHMENT-STREAM"
def streamProtocol : Bytes := ascii "ATTACHMENT-STREAM"
def frameData : UInt8 := 1
def framePadding : UInt8 := 2
def frameEnd : UInt8 := 3
def frameCountMax : Nat := 2 ^ 16 - 1

inductive AttachmentFrame
  | data (payload : Bytes)
  | padding
  | endOfStream
  deriving DecidableEq

def attachmentDataFrameCount (ciphertextLen : Nat) : Except TransportError Nat := do
  refuseIf (ciphertextLen = 0 ∨ maxAttachmentCiphertextBytes < ciphertextLen) .invalidInput
  let rounded ← orRefuse (checkedAdd ciphertextLen (attachmentStreamPayloadBytes - 1)) .tooLarge
  refuseIf (frameCountMax < rounded / attachmentStreamPayloadBytes) .tooLarge
  .ok (rounded / attachmentStreamPayloadBytes)

def checkedNextPowerOfTwo (n : Nat) : Option Nat :=
  if 2 ^ Nat.clog 2 n ≤ frameCountMax then some (2 ^ Nat.clog 2 n) else none

def attachmentBucketFrameCount (dataFrames : Nat) : Except TransportError Nat := do
  refuseIf (dataFrames = 0 ∨ maxAttachmentBucketFrames < dataFrames) .invalidInput
  orRefuse ((checkedNextPowerOfTwo dataFrames).filter (· ≤ maxAttachmentBucketFrames)) .tooLarge

structure StreamLayout where
  ciphertextLen : Nat
  dataFrames : Nat
  bucketFrames : Nat
  deriving DecidableEq

namespace StreamLayout

variable {n : Nat}

def new (ciphertextLen : Nat) : Except TransportError StreamLayout := do
  let dataFrames ← attachmentDataFrameCount ciphertextLen
  let bucketFrames ← attachmentBucketFrameCount dataFrames
  .ok ⟨ciphertextLen, dataFrames, bucketFrames⟩

def expectedDataLen (self : StreamLayout) (dataFramesSeen : Nat) : Except TransportError Nat := do
  refuseIf (self.dataFrames ≤ dataFramesSeen) .counterGap
  let seen ← orRefuse (checkedMul dataFramesSeen attachmentStreamPayloadBytes) .tooLarge
  let left ← orRefuse (checkedSub self.ciphertextLen seen) .nonCanonical
  .ok (min left attachmentStreamPayloadBytes)

structure Proper (l : StreamLayout) : Prop where
  lower : (l.dataFrames - 1) * attachmentStreamPayloadBytes < l.ciphertextLen
  upper : l.ciphertextLen ≤ l.dataFrames * attachmentStreamPayloadBytes
  data_pos : 0 < l.dataFrames
  data_le : l.dataFrames ≤ l.bucketFrames
  bucket_le : l.bucketFrames ≤ maxAttachmentBucketFrames

theorem Proper.expectedDataLen_eq_ok {l : StreamLayout} (h : l.Proper) {seen : Nat} :
    l.expectedDataLen seen = .ok n ↔ seen < l.dataFrames ∧
      n = min (l.ciphertextLen - seen * attachmentStreamPayloadBytes)
        attachmentStreamPayloadBytes := by
  have hbucket := h.data_le.trans h.bucket_le
  have hlower := h.lower
  unfold maxAttachmentBucketFrames at hbucket
  simp only [expectedDataLen, bind_eq_ok, refuseIf_eq_ok, orRefuse_eq_ok, exists_const, not_le,
    Except.ok.injEq]
  constructor
  · rintro ⟨hseen, bytes, hbytes, left, hleft, rfl⟩
    unfold checkedMul at hbytes
    split_ifs at hbytes
    obtain rfl := Option.some.inj hbytes
    have hsub := checkedSub_eq_some.mp hleft
    refine ⟨hseen, ?_⟩
    rw [show left = l.ciphertextLen - seen * attachmentStreamPayloadBytes by omega]
  · rintro ⟨hseen, rfl⟩
    have hle : seen * attachmentStreamPayloadBytes ≤
        (l.dataFrames - 1) * attachmentStreamPayloadBytes :=
      Nat.mul_le_mul_right _ (by omega)
    have hword : seen * attachmentStreamPayloadBytes ≤ wordMax := by
      have : seen * attachmentStreamPayloadBytes ≤ 1024 * attachmentStreamPayloadBytes :=
        Nat.mul_le_mul_right _ (by omega)
      unfold attachmentStreamPayloadBytes at this ⊢
      unfold wordMax
      omega
    exact ⟨hseen, _, if_pos hword, _, checkedSub_eq_some.mpr (Nat.sub_add_cancel (by omega)), rfl⟩

def ofLength (n : Nat) : StreamLayout :=
  let dataFrames := (n + (attachmentStreamPayloadBytes - 1)) / attachmentStreamPayloadBytes
  ⟨n, dataFrames, 2 ^ Nat.clog 2 dataFrames⟩

theorem dataFrames_ofLength (hpos : 0 < n) (hmax : n ≤ maxAttachmentCiphertextBytes) :
    0 < (ofLength n).dataFrames ∧ (ofLength n).dataFrames ≤ maxAttachmentBucketFrames := by
  unfold maxAttachmentCiphertextBytes at hmax
  unfold maxAttachmentBucketFrames
  simp only [ofLength, attachmentStreamPayloadBytes]
  omega

theorem bucketFrames_ofLength (hpos : 0 < n) (hmax : n ≤ maxAttachmentCiphertextBytes) :
    (ofLength n).bucketFrames ≤ maxAttachmentBucketFrames :=
  Nat.pow_le_pow_right (n := 2) (by decide)
    (Nat.clog_le_of_le_pow (y := 10) (dataFrames_ofLength hpos hmax).2)

theorem proper_ofLength (hpos : 0 < n) (hmax : n ≤ maxAttachmentCiphertextBytes) :
    (ofLength n).Proper where
  lower := by
    simp only [ofLength, attachmentStreamPayloadBytes]
    omega
  upper := by
    simp only [ofLength, attachmentStreamPayloadBytes]
    omega
  data_pos := (dataFrames_ofLength hpos hmax).1
  data_le := Nat.le_pow_clog (by decide) _
  bucket_le := bucketFrames_ofLength hpos hmax

theorem new_eq (hpos : 0 < n) (hmax : n ≤ maxAttachmentCiphertextBytes) :
    new n = .ok (ofLength n) := by
  have hdata := dataFrames_ofLength hpos hmax
  have hbucket := bucketFrames_ofLength hpos hmax
  have hword : n + (attachmentStreamPayloadBytes - 1) ≤ wordMax := by
    unfold maxAttachmentCiphertextBytes at hmax
    unfold attachmentStreamPayloadBytes wordMax
    omega
  have hcount : maxAttachmentBucketFrames ≤ frameCountMax := by decide
  refine bind_eq_ok.mpr ⟨(ofLength n).dataFrames, ?_, bind_eq_ok.mpr
    ⟨(ofLength n).bucketFrames, ?_, rfl⟩⟩
  · exact bind_eq_ok.mpr ⟨(), refuseIf_eq_ok.mpr (by omega), bind_eq_ok.mpr
      ⟨_, orRefuse_eq_ok.mpr (checkedAdd_of_le hword), bind_eq_ok.mpr
        ⟨(), refuseIf_eq_ok.mpr (not_lt.mpr (hdata.2.trans hcount)), rfl⟩⟩⟩
  · refine bind_eq_ok.mpr ⟨(), refuseIf_eq_ok.mpr (by omega), orRefuse_eq_ok.mpr ?_⟩
    have hpower : checkedNextPowerOfTwo (ofLength n).dataFrames = some (ofLength n).bucketFrames :=
      if_pos (hbucket.trans hcount)
    rw [hpower]
    exact Option.filter_eq_some_iff.mpr ⟨rfl, decide_eq_true hbucket⟩

end StreamLayout

def AttachmentFrame.kind : AttachmentFrame → UInt8
  | .data _ => frameData
  | .padding => framePadding
  | .endOfStream => frameEnd

def AttachmentFrame.payload : AttachmentFrame → Bytes
  | .data payload => payload
  | _ => []

def framePlaintext (random : Nat → UInt8) (kind : UInt8) (payload : Bytes) :
    Except TransportError Bytes := do
  refuseIf (attachmentStreamPayloadBytes < payload.length ∨ (kind = frameData ∧ payload = []) ∨
    (kind ≠ frameData ∧ (payload ≠ [] ∨ ¬ (kind = framePadding ∨ kind = frameEnd)))) .invalidInput
  refuseIf (2 ^ 32 ≤ payload.length) .tooLarge
  .ok ([kind, 0, 0, 0] ++ (be 4 payload.length ++
    (payload ++ (List.range (attachmentStreamPayloadBytes - payload.length)).map random)))

def decodeFramePlaintext (plaintext : Bytes) : Except TransportError AttachmentFrame := do
  refuseIf (plaintext.length ≠ attachmentStreamPlaintextBytes ∨
    (plaintext.drop 1).take 3 ≠ [0, 0, 0]) .nonCanonical
  let payloadLen := ofBe ((plaintext.drop 4).take 4)
  refuseIf (attachmentStreamPayloadBytes < payloadLen) .nonCanonical
  if plaintext.head? = some frameData ∧ 0 < payloadLen then
    .ok (.data ((plaintext.drop 8).take payloadLen))
  else if plaintext.head? = some framePadding ∧ payloadLen = 0 then .ok .padding
  else if plaintext.head? = some frameEnd ∧ payloadLen = 0 then .ok .endOfStream
  else .error .nonCanonical

def AttachmentFrame.Valid : AttachmentFrame → Prop
  | .data payload => payload ≠ [] ∧ payload.length ≤ attachmentStreamPayloadBytes
  | _ => True

variable {frame : AttachmentFrame} {plaintext : Bytes} {random : Nat → UInt8}

theorem framePlaintext_eq_ok :
    framePlaintext random frame.kind frame.payload = .ok plaintext ↔ frame.Valid ∧
      plaintext = [frame.kind, 0, 0, 0] ++ (be 4 frame.payload.length ++ (frame.payload ++
        (List.range (attachmentStreamPayloadBytes - frame.payload.length)).map random)) := by
  have hcap : attachmentStreamPayloadBytes < 2 ^ 32 := by decide
  have hsmall : ¬ 2 ^ 32 ≤ ([] : Bytes).length := by decide
  simp only [framePlaintext, bind_eq_ok, refuseIf_eq_ok, exists_const, Except.ok.injEq,
    @eq_comm _ plaintext, ← and_assoc]
  refine and_congr_left' ?_
  cases frame with
  | data payload =>
    simp only [AttachmentFrame.kind, AttachmentFrame.payload, AttachmentFrame.Valid, true_and,
      ne_eq, not_true, false_and, or_false, not_or, not_lt, not_le]
    exact ⟨fun h => ⟨h.1.2, h.1.1⟩, fun h => ⟨⟨h.2, h.1⟩, h.2.trans_lt hcap⟩⟩
  | padding | endOfStream => exact ⟨fun _ => trivial, fun _ => ⟨by decide, hsmall⟩⟩

theorem decodeFramePlaintext_frame
    (h : framePlaintext random frame.kind frame.payload = .ok plaintext) :
    plaintext.length = attachmentStreamPlaintextBytes ∧ decodeFramePlaintext plaintext = .ok frame := by
  obtain ⟨hvalid, rfl⟩ := framePlaintext_eq_ok.mp h
  have hle : frame.payload.length ≤ attachmentStreamPayloadBytes := by
    cases frame with
    | data payload => exact hvalid.2
    | padding | endOfStream => exact Nat.zero_le _
  set filler := (List.range (attachmentStreamPayloadBytes - frame.payload.length)).map random with hfiller
  have hfillerLength : filler.length = attachmentStreamPayloadBytes - frame.payload.length := by
    rw [hfiller, length_map, length_range]
  have hlength : ([frame.kind, 0, 0, 0] ++ (be 4 frame.payload.length ++
      (frame.payload ++ filler))).length = attachmentStreamPlaintextBytes := by
    simp only [length_append, length_be, hfillerLength, length_cons, length_nil,
      attachmentStreamPlaintextBytes]
    omega
  have hfour : ∀ rest : Bytes, ([frame.kind, 0, 0, 0] ++ rest).drop 4 = rest := fun _ => rfl
  have hsize : ofBe ((([frame.kind, 0, 0, 0] ++ (be 4 frame.payload.length ++
      (frame.payload ++ filler))).drop 4).take 4) = frame.payload.length := by
    rw [hfour, take_left' (length_be 4 _), ofBe_be]
    refine Nat.mod_eq_of_lt (hle.trans_lt ?_)
    decide
  have hpayload : (([frame.kind, 0, 0, 0] ++ (be 4 frame.payload.length ++
      (frame.payload ++ filler))).drop 8).take frame.payload.length = frame.payload := by
    rw [show 8 = 4 + 4 from rfl, ← drop_drop, hfour, drop_left' (length_be 4 _),
      take_left' rfl]
  refine ⟨hlength, ?_⟩
  unfold decodeFramePlaintext
  simp only [hlength, hsize, hpayload]
  refine bind_eq_ok.mpr ⟨(), refuseIf_eq_ok.mpr ?_, bind_eq_ok.mpr
    ⟨(), refuseIf_eq_ok.mpr (not_lt.mpr hle), ?_⟩⟩
  · exact not_or.mpr ⟨fun hne => hne rfl, fun hne => hne rfl⟩
  · cases frame with
    | data payload => exact if_pos ⟨rfl, length_pos_iff.mpr hvalid.1⟩
    | padding | endOfStream => rfl

def streamHeader (direction : Direction) (counter : Nat) : Bytes :=
  streamMagic ++ ([transportVersion, direction.byte, 0, 0] ++ be 8 counter)

def streamNonce (direction : Direction) (counter : Nat) : Bytes := wsNonce direction counter

def decodeStreamRecord (record : Bytes) :
    Except TransportError (Bytes × Direction × Nat × Bytes) := do
  refuseIf (record.length ≠ attachmentStreamFrameBytes) .nonCanonical
  let header := record.take attachmentStreamHeaderBytes
  refuseIf (header.take 4 ≠ streamMagic ∨ header[4]? ≠ some transportVersion ∨
    (header.drop 6).take 2 ≠ [0, 0]) .nonCanonical
  let direction ← Direction.fromByte (header.getD 5 0)
  let counter := ofBe ((header.drop 8).take 8)
  .ok (header, direction, counter, record.drop attachmentStreamHeaderBytes)

theorem length_streamHeader (d : Direction) (counter : Nat) :
    (streamHeader d counter).length = attachmentStreamHeaderBytes := by
  simp only [streamHeader, length_append, length_be]
  rfl

variable {d : Direction} {counter : Nat} {ciphertext : Bytes}

theorem decodeStreamRecord_header (hcounter : counter ≤ wordMax)
    (hlength : ciphertext.length = attachmentStreamPlaintextBytes + tagBytes) :
    decodeStreamRecord (streamHeader d counter ++ ciphertext) =
      .ok (streamHeader d counter, d, counter, ciphertext) := by
  have hheader := length_streamHeader d counter
  have hcount : ((streamHeader d counter).drop 8).take 8 = be 8 counter := by
    have hdrop : (streamHeader d counter).drop 8 = be 8 counter := rfl
    rw [hdrop, take_of_length_le (length_be 8 _).le]
  have hword : counter % 256 ^ 8 = counter := Nat.mod_eq_of_lt (by unfold wordMax at hcounter; omega)
  unfold decodeStreamRecord
  simp only [take_left' hheader, drop_left' hheader, hcount, ofBe_be, hword]
  refine bind_eq_ok.mpr ⟨(), refuseIf_eq_ok.mpr ?_, bind_eq_ok.mpr ⟨(), refuseIf_eq_ok.mpr ?_,
    bind_eq_ok.mpr ⟨d, Direction.fromByte_byte d, rfl⟩⟩⟩
  · rw [length_append, hheader, hlength, not_not]
    decide
  · exact not_or.mpr ⟨fun hne => hne rfl, not_or.mpr ⟨fun hne => hne rfl, fun hne => hne rfl⟩⟩

theorem decodeStreamRecord_append {record header : Bytes}
    (h : decodeStreamRecord record = .ok (header, d, counter, ciphertext)) :
    record = header ++ ciphertext ∧ header.length = attachmentStreamHeaderBytes := by
  unfold decodeStreamRecord at h
  simp only [bind_eq_ok, refuseIf_eq_ok, not_not, exists_const, Except.ok.injEq, Prod.mk.injEq] at h
  obtain ⟨hlength, -, _, -, rfl, -, -, rfl⟩ := h
  refine ⟨(take_append_drop ..).symm, ?_⟩
  rw [length_take, hlength]
  decide

structure AttachmentStream (Key : Type) where
  key : Key
  context : Bytes
  direction : Direction
  layout : StreamLayout
  nextCounter : Nat
  dataFrames : Nat
  paddingFrames : Nat
  bytesSeen : Nat
  ended : Bool

namespace AttachmentStream

variable {Key : Type} (cipher : Cipher Key tagBytes) (random : Nat → UInt8)
  (self : AttachmentStream Key)

def sealFrame (kind : UInt8) (payload : Bytes) :
    Except TransportError (AttachmentStream Key × Encryption Key × Bytes) := do
  refuseIf (self.nextCounter = wordMax) .counterExhausted
  let header := streamHeader self.direction self.nextCounter
  let plaintext ← framePlaintext random kind payload
  let call := cipher.call self.key (streamNonce self.direction self.nextCounter)
    (canonicalParts [header, streamContextDomain, self.context]) plaintext
  let record := header ++ call.ciphertext
  refuseIf (record.length ≠ attachmentStreamFrameBytes) .nonCanonical
  let nextCounter ← orRefuse (checkedAdd self.nextCounter 1) .counterExhausted
  .ok ({ self with nextCounter := nextCounter }, call, record)

def dataRecord (payload : Bytes) :
    Except TransportError (AttachmentStream Key × Encryption Key × Bytes) := do
  refuseIf (self.ended ∨ self.paddingFrames ≠ 0) .counterGap
  let expected ← self.layout.expectedDataLen self.dataFrames
  refuseIf (payload.length ≠ expected) .invalidInput
  self.sealFrame cipher random frameData payload

def sealData (payload : Bytes) :
    AttachmentStream Key × List (Encryption Key) × Except TransportError Bytes :=
  match self.dataRecord cipher random payload with
  | .error e => (self, [], .error e)
  | .ok (self, call, record) =>
    if frameCountMax < self.dataFrames + 1 then (self, [call], .error .counterExhausted)
    else
      let self := { self with dataFrames := self.dataFrames + 1 }
      match checkedAdd self.bytesSeen payload.length with
      | none => (self, [call], .error .tooLarge)
      | some bytesSeen => ({ self with bytesSeen := bytesSeen }, [call], .ok record)

def paddingRecord : Except TransportError (AttachmentStream Key × Encryption Key × Bytes) := do
  refuseIf (self.ended ∨ self.dataFrames ≠ self.layout.dataFrames ∨
    self.layout.bucketFrames ≤ self.dataFrames + self.paddingFrames) .counterGap
  self.sealFrame cipher random framePadding []

def sealPadding : AttachmentStream Key × List (Encryption Key) × Except TransportError Bytes :=
  match self.paddingRecord cipher random with
  | .error e => (self, [], .error e)
  | .ok (self, call, record) =>
    ({ self with paddingFrames := self.paddingFrames + 1 }, [call], .ok record)

def endRecord : Except TransportError (AttachmentStream Key × Encryption Key × Bytes) := do
  refuseIf (self.ended ∨ self.bytesSeen ≠ self.layout.ciphertextLen ∨
    self.dataFrames + self.paddingFrames ≠ self.layout.bucketFrames) .counterGap
  self.sealFrame cipher random frameEnd []

def sealEnd : AttachmentStream Key × List (Encryption Key) × Except TransportError Bytes :=
  match self.endRecord cipher random with
  | .error e => (self, [], .error e)
  | .ok (self, call, record) => ({ self with ended := true }, [call], .ok record)

def checkData (payload : Bytes) : Except TransportError Unit := do
  refuseIf (self.paddingFrames ≠ 0) .nonCanonical
  let expected ← self.layout.expectedDataLen self.dataFrames
  refuseIf (payload.length ≠ expected) .nonCanonical

def acceptFrame : AttachmentFrame → AttachmentStream Key × Except TransportError Unit
  | .data payload =>
    match self.checkData payload with
    | .error e => (self, .error e)
    | .ok _ =>
      let self := { self with dataFrames := self.dataFrames + 1 }
      match checkedAdd self.bytesSeen payload.length with
      | none => (self, .error .tooLarge)
      | some bytesSeen => ({ self with bytesSeen := bytesSeen }, .ok ())
  | .padding =>
    if self.dataFrames ≠ self.layout.dataFrames ∨
        self.layout.bucketFrames ≤ self.dataFrames + self.paddingFrames then
      (self, .error .nonCanonical)
    else ({ self with paddingFrames := self.paddingFrames + 1 }, .ok ())
  | .endOfStream =>
    if self.bytesSeen ≠ self.layout.ciphertextLen ∨
        self.dataFrames + self.paddingFrames ≠ self.layout.bucketFrames then
      (self, .error .nonCanonical)
    else ({ self with ended := true }, .ok ())

def readFrame [DecidableEq Key] (log : List (Encryption Key)) (record : Bytes) :
    Except TransportError AttachmentFrame := do
  refuseIf (self.nextCounter = wordMax) .counterExhausted
  refuseIf self.ended .replay
  let (header, direction, counter, ciphertext) ← decodeStreamRecord record
  refuseIf (direction ≠ self.direction) .authenticationFailed
  refuseIf (counter < self.nextCounter) .replay
  refuseIf (self.nextCounter < counter) .counterGap
  let plaintext ← orRefuse (Aead.decrypt log self.key (streamNonce self.direction counter)
    (canonicalParts [header, streamContextDomain, self.context]) ciphertext) .authenticationFailed
  decodeFramePlaintext plaintext

def openRecord [DecidableEq Key] (log : List (Encryption Key)) (record : Bytes) :
    AttachmentStream Key × Except TransportError AttachmentFrame :=
  match self.readFrame log record with
  | .error e => (self, .error e)
  | .ok frame =>
    match self.acceptFrame frame with
    | (self, .error e) => (self, .error e)
    | (self, .ok _) =>
      match checkedAdd self.nextCounter 1 with
      | none => (self, .error .counterExhausted)
      | some nextCounter => ({ self with nextCounter := nextCounter }, .ok frame)

def isComplete : Bool := self.ended

end AttachmentStream

structure AttachmentStreamBinding where
  nodePublicKey : Vector UInt8 32
  sessionId : Vector UInt8 32
  operationHandle : Vector UInt8 16
  node_ne : nodePublicKey ≠ zeros 32
  session_ne : sessionId ≠ zeros 32
  handle_ne : operationHandle ≠ zeros 16
  deriving DecidableEq

namespace AttachmentStreamBinding

variable {Key : Type}

def context (self : AttachmentStreamBinding) : Bytes :=
  canonicalParts [streamContextDomain, self.nodePublicKey.toList, self.sessionId.toList,
    self.operationHandle.toList]

def intoSealer (kdf : KeyDerivation Key) (self : AttachmentStreamBinding)
    (transportRoot : Vector UInt8 32) (direction : Direction) (ciphertextLen : Nat) :
    Except TransportError (AttachmentStream Key) := do
  let layout ← StreamLayout.new ciphertextLen
  let key ← deriveRecordKey kdf transportRoot streamProtocol direction self.context
  .ok ⟨key, self.context, direction, layout, 0, 0, 0, 0, false⟩

def intoOpener (kdf : KeyDerivation Key) (self : AttachmentStreamBinding)
    (transportRoot : Vector UInt8 32) (direction : Direction)
    (ciphertextLen dataFrameCount bucketFrameCount : Nat) :
    Except TransportError (AttachmentStream Key) := do
  let layout ← StreamLayout.new ciphertextLen
  refuseIf (layout.dataFrames ≠ dataFrameCount ∨ layout.bucketFrames ≠ bucketFrameCount)
    .invalidInput
  let key ← deriveRecordKey kdf transportRoot streamProtocol direction self.context
  .ok ⟨key, self.context, direction, layout, 0, 0, 0, 0, false⟩

end AttachmentStreamBinding

end Abyssal.Transport
