import Mathlib.Data.List.Find
import Abyssal.Transport.Frames
import Abyssal.Transport.Records

/-! Padding of outbound frames to a fixed set of sizes, and whether the padded text still fits one
record. A frame of an MLS room may be padded to a size above the limit of a record. -/

namespace Abyssal.Transport

open List

def wsMaxFrameBytes : Nat := 1024 * 1024
def mlsWsMaxFrameBytes : Nat := 16 * 1024 * 1024
def messageTransportBuckets : List Nat := [4096, 16384, 65536, 262144, 1048576]
def messageTransportMaxBucket : Nat := 1048576
def controlTransportBuckets : List Nat :=
  [4096, 16384, 65536, 262144, 1048576, 4194304, 16777216, 17825792]
def controlTransportMaxBucket : Nat := 17825792

def fillerAlphabet : Text :=
  ascii "ABCDEFGHIJKLMNOPQRSTUVWXYZabcdefghijklmnopqrstuvwxyz0123456789-_"

def jsonStringLen (value : Text) : Option Nat :=
  value.foldlM (fun length byte => checkedAdd length
    (if byte ∈ [8, 9, 10, 12, 13, 34, 92] then 2 else if byte < 32 then 6 else 1)) 2

def jsonFieldLen (key : String) (valueLen : Nat) : Option Nat := do
  let keyLen ← jsonStringLen (ascii key)
  let colon ← checkedAdd keyLen 1
  checkedAdd colon valueLen

def jsonStringFieldLen (key : String) (value : Text) : Option Nat := do
  jsonFieldLen key (← jsonStringLen value)

def jsonNumberLen (value : Nat) : Option Nat := some (decimal value).length

def jsonBoolLen (value : Bool) : Nat := if value then 4 else 5

def jsonObjectLen (fields : List Nat) : Option Nat :=
  fields.zipIdx.foldlM (fun length (field, index) => do
    checkedAdd (← checkedAdd length (if index ≠ 0 then 1 else 0)) field) 2

def validMessageTransportPadding (value : Text) : Bool :=
  value.length ≤ messageTransportMaxBucket && value.all (fillerAlphabet.contains ·)

def outboundMessageWireLen (m : OutboundMessage) (paddingBucket : Nat) (padding : Text) :
    Option Nat := do
  jsonObjectLen [← jsonStringFieldLen "type" (ascii "message"),
    ← jsonStringFieldLen "chat_id" m.chatId,
    ← jsonFieldLen "version" (← jsonNumberLen m.version),
    ← jsonStringFieldLen "message_id" m.messageId,
    ← jsonStringFieldLen "nonce_b64" m.nonceB64,
    ← jsonStringFieldLen "ciphertext_b64" m.ciphertextB64,
    ← jsonStringFieldLen "signature_b64" m.signatureB64,
    ← jsonStringFieldLen "wrapped_key_b64" m.wrappedKeyB64,
    ← jsonStringFieldLen "prekey_id" m.prekeyId,
    ← jsonFieldLen "is_prekey" (jsonBoolLen m.isPrekey),
    ← jsonStringFieldLen "sender_username" m.senderUsername,
    ← jsonStringFieldLen "sender_public_key_b64" m.senderPublicKeyB64,
    ← jsonStringFieldLen "identity_public_b64" m.identityPublicB64,
    ← jsonStringFieldLen "directory_node_id" m.directoryNodeId,
    ← jsonFieldLen "directory_revision" (← jsonNumberLen m.directoryRevision),
    ← jsonStringFieldLen "directory_digest" m.directoryDigest,
    ← jsonFieldLen "padding_bucket" (← jsonNumberLen paddingBucket),
    ← jsonStringFieldLen "padding" padding]

def canonicalOutboundMessageBucket (m : OutboundMessage) : Option (Nat × Nat) :=
  messageTransportBuckets.findSome? fun bucket =>
    ((outboundMessageWireLen m bucket []).filter (· ≤ bucket)).map (bucket, ·)

def outboundMessagePaddingIsCanonical (frame : OutboundFrame) (serializedLen : Nat) : Bool :=
  match frame with
  | .message m =>
    messageTransportBuckets.contains m.paddingBucket && validMessageTransportPadding m.padding &&
      match canonicalOutboundMessageBucket m with
      | none => false
      | some (canonicalBucket, emptyLen) =>
        match checkedSub canonicalBucket emptyLen with
        | none => false
        | some expectedPaddingLen =>
          m.paddingBucket = canonicalBucket && expectedPaddingLen = m.padding.length &&
            serializedLen = canonicalBucket
  | _ => true

def randomTransportPadding (random : Nat → UInt8) (length max : Nat) : Except String Text := do
  rejectIf (max < length) "control transport padding length rejected"
  .ok ((List.range length).map fun i => fillerAlphabet.getD (random i &&& 63).toNat 0)

def controlTransportWireLimit (domainLimit : Nat) : Nat :=
  if domainLimit ≤ messageTransportMaxBucket then messageTransportMaxBucket
  else controlTransportMaxBucket

def controlTransportSuffix (bucket : Nat) (padding : Text) : Text :=
  ascii ",\"padding_bucket\":" ++ decimal bucket ++ ascii ",\"padding\":\"" ++ padding ++
    ascii "\"\x7d"

def controlTransportFrameLen (inner : Text) (parsed : Option Json) (domainLimit : Nat) :
    Option Nat := do
  -- The size that a printed object is padded to; `parsed` is what the text reads as.
  guard ¬ (domainLimit < inner.length ∨ inner.head? ≠ some 123 ∨ inner.getLast? ≠ some 125)
  let value ← parsed
  let object ← value.asObject
  guard ¬ (Json.hasKey (ascii "padding_bucket") object ∨ Json.hasKey (ascii "padding") object)
  let openLen ← checkedSub inner.length 1
  controlTransportBuckets.find? fun bucket =>
    bucket ≤ controlTransportWireLimit domainLimit &&
      (checkedAdd openLen (controlTransportSuffix bucket []).length).any (· ≤ bucket)

def padControlTransportFrame (random : Nat → UInt8) (inner : Text) (parsed : Option Json)
    (domainLimit : Nat) : Except String Text := do
  let bucket ← okOr (controlTransportFrameLen inner parsed domainLimit)
    "control transport padding unavailable"
  let opened ← okOr (if inner.getLast? = some 125 then some inner.dropLast else none)
    "control transport frame rejected"
  let emptyLen ← okOr (checkedAdd opened.length (controlTransportSuffix bucket []).length)
    "control transport padding length rejected"
  let fillerLen ← okOr (checkedSub bucket emptyLen) "control transport padding length rejected"
  let filler ← randomTransportPadding random fillerLen (controlTransportWireLimit domainLimit)
  let padded := opened ++ controlTransportSuffix bucket filler
  rejectIf (padded.length ≠ bucket) "control transport padding length rejected"
  .ok padded

def serializeOutboundFrame (random : Nat → UInt8) (frame : OutboundFrame) : Option Text :=
  -- The text of a frame. The reader of the control padding gets back the object just printed.
  let serialized := frame.json.render
  if ¬ outboundMessagePaddingIsCanonical frame serialized.length then none
  else if frame.isMessage then
    if serialized.length ≤ messageTransportMaxBucket then some serialized else none
  else
    let domainLimit := if frame.isMls then mlsWsMaxFrameBytes else wsMaxFrameBytes
    (padControlTransportFrame random serialized (some frame.json) domainLimit).toOption

theorem length_controlTransportSuffix (bucket : Nat) (padding : Text) :
    (controlTransportSuffix bucket padding).length =
      32 + (decimal bucket).length + padding.length := by
  have hparts : (ascii ",\"padding_bucket\":").length = 18 ∧
      (ascii ",\"padding\":\"").length = 12 ∧ (ascii "\"\x7d").length = 2 := by decide
  simp only [controlTransportSuffix, length_append, hparts]
  omega

def holds (domainLimit n bucket : Nat) : Bool :=
  bucket ≤ controlTransportWireLimit domainLimit && n + 31 + (decimal bucket).length ≤ bucket

def controlBucket (domainLimit n : Nat) : Option Nat :=
  controlTransportBuckets.find? (holds domainLimit n)

variable {n bucket : Nat}

theorem controlBucket_le {domainLimit : Nat} (h : controlBucket domainLimit n = some bucket) :
    4096 ≤ bucket ∧ bucket ≤ controlTransportWireLimit domainLimit ∧
      n + 31 + (decimal bucket).length ≤ bucket := by
  have hholds := find?_some h
  rw [holds, Bool.and_eq_true, decide_eq_true_iff, decide_eq_true_iff] at hholds
  refine ⟨?_, hholds⟩
  have hmem : ∀ b ∈ controlTransportBuckets, 4096 ≤ b := by decide
  exact hmem bucket (mem_of_find?_eq_some h)

def recordBuckets : List Nat := [4096, 16384, 65536, 262144, 1048576, 4194304, 16777216]

theorem controlTransportBuckets_eq : controlTransportBuckets = recordBuckets ++ [17825792] := rfl

theorem recordBuckets_le : ∀ b ∈ recordBuckets, b ≤ maxWsRecordPlaintextBytes := by decide

theorem controlBucket_mls (hn : n ≤ mlsWsMaxFrameBytes) :
    ∃ bucket, controlBucket mlsWsMaxFrameBytes n = some bucket ∧
      (bucket ≤ maxWsRecordPlaintextBytes ↔ n ≤ 16777177) := by
  have hlimit : controlTransportWireLimit mlsWsMaxFrameBytes = 17825792 := by decide
  have hdigits : (decimal 16777216).length = 8 ∧ (decimal 17825792).length = 8 := by decide
  unfold mlsWsMaxFrameBytes at hn
  rw [controlBucket, controlTransportBuckets_eq, find?_append]
  by_cases hsmall : n ≤ 16777177
  · have hfits : holds mlsWsMaxFrameBytes n 16777216 = true := by
      rw [holds, hlimit, hdigits.1, Bool.and_eq_true, decide_eq_true_iff, decide_eq_true_iff]
      omega
    have hmem : 16777216 ∈ recordBuckets := by decide
    obtain ⟨b, hb⟩ := Option.isSome_iff_exists.mp (find?_isSome.mpr ⟨_, hmem, hfits⟩)
    rw [hb]
    exact ⟨b, rfl, fun _ => hsmall, fun _ => recordBuckets_le b (mem_of_find?_eq_some hb)⟩
  · have hlast : holds mlsWsMaxFrameBytes n 17825792 = true := by
      rw [holds, hlimit, hdigits.2, Bool.and_eq_true, decide_eq_true_iff, decide_eq_true_iff]
      omega
    have hdigit : ∀ b ∈ recordBuckets, b ≤ 16777177 ∨ b = 16777216 := by decide
    have hnone : recordBuckets.find? (holds mlsWsMaxFrameBytes n) = none := by
      refine find?_eq_none.mpr fun b hb hholds => ?_
      rw [holds, Bool.and_eq_true, decide_eq_true_iff, decide_eq_true_iff] at hholds
      rcases hdigit b hb with hb | rfl
      · omega
      · rw [hdigits.1] at hholds
        omega
    rw [hnone, find?_singleton, hlast]
    exact ⟨17825792, rfl, fun h => absurd h (by decide), fun h => absurd h hsmall⟩

section

variable {frame : OutboundFrame} {random : Nat → UInt8} {domainLimit : Nat}

theorem OutboundFrame.length_pos (frame : OutboundFrame) : 0 < frame.json.render.length := by
  rw [json, Json.render_object_eq]
  exact Nat.succ_pos _

theorem OutboundFrame.getLast?_render (frame : OutboundFrame) :
    frame.json.render.getLast? = some 125 := by
  rw [json, Json.render_object_eq]
  exact getLast?_concat ..

theorem controlTransportFrameLen_frame (hmessage : frame.isMessage = false)
    (hlimit : domainLimit ≤ mlsWsMaxFrameBytes) (hn : frame.json.render.length ≤ domainLimit) :
    controlTransportFrameLen frame.json.render (some frame.json) domainLimit =
      controlBucket domainLimit frame.json.render.length := by
  have hpos := frame.length_pos
  have hhead : frame.json.render.head? = some 123 := by
    rw [OutboundFrame.json, Json.render]
    rfl
  have hlast := frame.getLast?_render
  have hkeys := frame.hasKey_padding hmessage
  have hobject : frame.json.asObject = some frame.fields := rfl
  have hdigits : ∀ b ∈ controlTransportBuckets, (decimal b).length ≤ 8 := by decide
  unfold mlsWsMaxFrameBytes at hlimit
  rw [controlTransportFrameLen]
  simp only [hhead, hlast, hkeys, hobject, ne_eq, not_true, Bool.false_eq_true, or_self,
    not_false_iff, not_lt.mpr hn, guard_true, Option.pure_def, Option.bind_eq_bind, Option.bind_some,
    checkedSub, if_pos (show 1 ≤ frame.json.render.length from hpos)]
  refine find?_congr fun b hb => ?_
  have hsmall := hdigits b hb
  rw [length_controlTransportSuffix, holds, checkedAdd_of_le (by
    rw [length_nil, wordMax]
    omega), Option.any_some, length_nil]
  congr 2
  rw [eq_iff_iff]
  omega

theorem padControlTransportFrame_eq_ok (hmessage : frame.isMessage = false)
    (hlimit : domainLimit ≤ mlsWsMaxFrameBytes) (hn : frame.json.render.length ≤ domainLimit)
    (hbucket : controlBucket domainLimit frame.json.render.length = some bucket)
    (random : Nat → UInt8) :
    ∃ padded, padControlTransportFrame random frame.json.render (some frame.json) domainLimit =
      .ok padded ∧ padded.length = bucket := by
  obtain ⟨-, hwire, hfits⟩ := controlBucket_le hbucket
  have hpos := frame.length_pos
  have hmax : bucket ≤ 17825792 := hwire.trans (by unfold controlTransportWireLimit; split <;> decide)
  have hopened : frame.json.render.dropLast.length = frame.json.render.length - 1 :=
    length_dropLast
  have hempty := length_controlTransportSuffix bucket []
  rw [length_nil] at hempty
  have hfiller : ∀ filler : Text, filler.length = bucket -
      (frame.json.render.dropLast.length + (controlTransportSuffix bucket []).length) →
      (frame.json.render.dropLast ++ controlTransportSuffix bucket filler).length = bucket := by
    intro filler hlength
    rw [length_append, length_controlTransportSuffix, hlength, hempty]
    omega
  have hword : frame.json.render.dropLast.length + (controlTransportSuffix bucket []).length ≤
      wordMax := by
    rw [hempty, wordMax]
    omega
  refine ⟨_, ?_, hfiller ((List.range _).map fun i =>
    fillerAlphabet.getD (random i &&& 63).toNat 0) (by rw [length_map, length_range])⟩
  unfold padControlTransportFrame
  rw [controlTransportFrameLen_frame hmessage hlimit hn, hbucket]
  simp only [bind_eq_ok, okOr_eq_ok, rejectIf_eq_ok]
  refine ⟨bucket, rfl, _, if_pos frame.getLast?_render, _, checkedAdd_of_le hword, _,
    checkedSub_eq_some.mpr ?_, _, rejectIf_bind.mpr ⟨?_, rfl⟩, (), ?_, rfl⟩
  · rw [hempty]
    omega
  · omega
  · exact not_not.mpr (hfiller _ (by rw [length_map, length_range]))

variable {inner : Text} {parsed : Option Json}

theorem length_padControlTransportFrame {padded : Text}
    (h : padControlTransportFrame random inner parsed domainLimit = .ok padded) :
    controlTransportFrameLen inner parsed domainLimit = some padded.length := by
  unfold padControlTransportFrame at h
  simp only [bind_eq_ok, okOr_eq_ok, rejectIf_eq_ok] at h
  obtain ⟨bucket, hbucket, _, -, _, -, _, -, _, -, _, hlength, hpadded⟩ := h
  obtain rfl := Except.ok.inj hpadded
  rw [hbucket, not_not.mp hlength]

theorem controlTransportFrameLen_le
    (h : controlTransportFrameLen inner parsed domainLimit = some bucket) :
    inner.length ≤ domainLimit := by
  unfold controlTransportFrameLen at h
  simp only [Option.bind_eq_bind, Option.bind_eq_some_iff, Option.guard_eq_some'] at h
  obtain ⟨-, hguard, -⟩ := h
  exact not_lt.mp fun hlt => hguard (.inl hlt)

theorem serializeOutboundFrame_control (hmessage : frame.isMessage = false) :
    serializeOutboundFrame random frame = (padControlTransportFrame random frame.json.render
      (some frame.json) (if frame.isMls then mlsWsMaxFrameBytes else wsMaxFrameBytes)).toOption := by
  have hcanonical : outboundMessagePaddingIsCanonical frame frame.json.render.length = true := by
    cases frame with
    | message m => cases hmessage
    | _ => rfl
  simp only [serializeOutboundFrame, hcanonical, hmessage, not_true, if_false, Bool.false_eq_true]

variable {serialized : Text}

theorem controlBucket_of_serialize (hmessage : frame.isMessage = false)
    (h : serializeOutboundFrame random frame = some serialized) :
    frame.json.render.length ≤ (if frame.isMls then mlsWsMaxFrameBytes else wsMaxFrameBytes) ∧
      controlBucket (if frame.isMls then mlsWsMaxFrameBytes else wsMaxFrameBytes)
        frame.json.render.length = some serialized.length := by
  rw [serializeOutboundFrame_control hmessage] at h
  have hok : padControlTransportFrame random frame.json.render (some frame.json)
      (if frame.isMls then mlsWsMaxFrameBytes else wsMaxFrameBytes) = .ok serialized := by
    revert h
    cases padControlTransportFrame random frame.json.render (some frame.json) _ with
    | error e => exact fun h => by cases h
    | ok padded => exact fun h => congrArg Except.ok (Option.some.inj h)
  have hbucket := length_padControlTransportFrame hok
  have hn := controlTransportFrameLen_le hbucket
  refine ⟨hn, ?_⟩
  rwa [controlTransportFrameLen_frame hmessage (by split <;> decide) hn] at hbucket

theorem serialized_fits_iff (h : serializeOutboundFrame random frame = some serialized) :
    serialized ≠ [] ∧ (serialized.length ≤ maxWsRecordPlaintextBytes ↔
      ¬ (frame.isMls = true ∧ 16777177 < frame.json.render.length)) := by
  cases hmessage : frame.isMessage with
  | true =>
    have hmls : ¬ frame.isMls = true := fun hmls => by
      rw [OutboundFrame.isMessage_of_isMls hmls] at hmessage
      cases hmessage
    simp only [serializeOutboundFrame, hmessage, if_true, Option.ite_none_left_eq_some,
      Option.ite_none_right_eq_some, Option.some.injEq] at h
    obtain ⟨-, hle, rfl⟩ := h
    refine ⟨ne_nil_of_length_pos frame.length_pos, fun _ hboth => hmls hboth.1, fun _ => ?_⟩
    exact hle.trans (by decide)
  | false =>
    obtain ⟨hn, hbucket⟩ := controlBucket_of_serialize hmessage h
    obtain ⟨hmin, hwire, -⟩ := controlBucket_le hbucket
    refine ⟨ne_nil_of_length_pos (by omega), ?_⟩
    cases hmls : frame.isMls with
    | true =>
      rw [hmls] at hn hbucket
      obtain ⟨bucket, hsome, hiff⟩ := controlBucket_mls hn
      obtain rfl : bucket = serialized.length := Option.some.inj (hsome.symm.trans hbucket)
      rw [hiff, eq_self_iff_true, true_and, not_lt]
    | false =>
      rw [hmls] at hwire
      exact ⟨fun _ hboth => Bool.false_ne_true hboth.1, fun _ => hwire.trans (by decide)⟩

theorem exists_serialized (hmls : frame.isMls = true)
    (hn : frame.json.render.length ≤ mlsWsMaxFrameBytes) (random : Nat → UInt8) :
    ∃ serialized, serializeOutboundFrame random frame = some serialized := by
  have hmessage := OutboundFrame.isMessage_of_isMls hmls
  obtain ⟨bucket, hbucket, -⟩ := controlBucket_mls hn
  obtain ⟨padded, hpadded, -⟩ :=
    padControlTransportFrame_eq_ok hmessage le_rfl hn hbucket random
  refine ⟨padded, ?_⟩
  rw [serializeOutboundFrame_control hmessage, hmls, if_pos rfl, hpadded]
  rfl

end

section

variable {Key : Type}

theorem WsSealer.seal_isOk_iff (cipher : Cipher Key tagBytes) {self : WsSealer Key}
    (hcounter : self.nextCounter < wordMax) {plaintext : Text} :
    (self.seal cipher wsFrameAad plaintext).2.isOk = true ↔
      plaintext ≠ [] ∧ plaintext.length ≤ maxWsRecordPlaintextBytes := by
  have haad : wsFrameAad.length ≤ maxAadBytes := by decide
  unfold WsSealer.seal
  cases hrecord : self.record cipher wsFrameAad plaintext with
  | error e =>
    refine ⟨fun h => (Bool.false_ne_true h).elim, fun hvalid => ?_⟩
    obtain ⟨out, hok⟩ := WsSealer.exists_record cipher haad hvalid hcounter.ne
    rw [hrecord] at hok
    cases hok
  | ok out => exact ⟨fun _ => (WsSealer.record_eq_ok.mp hrecord).2.1, fun _ => rfl⟩

/-- Whatever a frame is serialized as, a sealer that is not exhausted seals it. -/
def Sendable (cipher : Cipher Key tagBytes) (key : Key) (frame : OutboundFrame) : Prop :=
  ∀ random serialized, serializeOutboundFrame random frame = some serialized →
    ∀ direction, ∀ counter < wordMax,
      (WsSealer.seal cipher ⟨key, direction, counter⟩ wsFrameAad serialized).2.isOk = true

/-- A frame can be sent unless it is one of an MLS room whose text leaves no room for the padding
fields below the limit of a record. -/
theorem sendable_iff (cipher : Cipher Key tagBytes) (key : Key) (frame : OutboundFrame) :
    Sendable cipher key frame ↔ ¬ (frame.isMls = true ∧ 16777177 < frame.json.render.length ∧
      frame.json.render.length ≤ mlsWsMaxFrameBytes) := by
  refine ⟨fun hsend ⟨hmls, hlarge, hn⟩ => ?_, fun hsmall random serialized h direction counter hc => ?_⟩
  · obtain ⟨serialized, h⟩ := exists_serialized hmls hn (fun _ => 0)
    have hzero : 0 < wordMax := by decide
    have hok := hsend _ _ h .serverToClient 0 hzero
    have hfits := ((WsSealer.seal_isOk_iff cipher hzero).mp hok).2
    exact (serialized_fits_iff h).2.mp hfits ⟨hmls, hlarge⟩
  · refine (WsSealer.seal_isOk_iff cipher hc).mpr ⟨(serialized_fits_iff h).1, ?_⟩
    refine (serialized_fits_iff h).2.mpr fun ⟨hmls, hlarge⟩ => hsmall ⟨hmls, hlarge, ?_⟩
    have hn := (controlBucket_of_serialize (OutboundFrame.isMessage_of_isMls hmls) h).1
    rwa [hmls, if_pos rfl] at hn

end

def longApplication (n : Nat) : OutboundFrame :=
  .mlsApplication 10 (ascii "room") (ascii "m") (ascii "alice") 1 1 [] (List.replicate n 65) []

theorem length_longApplication (n : Nat) : (longApplication n).json.render.length = n + 210 := by
  have hcipher (k : Nat) : (stringLiteral (List.replicate k 65)).length = k + 2 :=
    stringLiteral_replicate k (by decide)
  have hzero : (longApplication 0).json.render.length = 210 := by decide +kernel
  rw [← hzero]
  simp only [longApplication, OutboundFrame.json, OutboundFrame.fields, mlsTagged, tagged, text,
    number, decimalU64, Json.render, Json.renderFields, length_append, length_cons, hcipher]
  omega

/-- Its text has 16777178 bytes, one more than the padding leaves room for. -/
theorem longApplication_refused :
    ∃ serialized, serializeOutboundFrame (fun _ => 0) (longApplication 16776968) = some serialized ∧
      (WsSealer.seal (Cipher.clear Unit tagBytes) ⟨(), .serverToClient, 0⟩ wsFrameAad serialized).2 =
        .error .tooLarge := by
  have hn := length_longApplication 16776968
  have hmls : (longApplication 16776968).isMls = true := rfl
  obtain ⟨serialized, h⟩ := exists_serialized hmls (hn.trans_le (by decide)) (fun _ => 0)
  obtain ⟨hne, hiff⟩ := serialized_fits_iff h
  have hlarge : maxWsRecordPlaintextBytes < serialized.length :=
    not_le.mp fun hle => hiff.mp hle ⟨hmls, by rw [hn]; decide⟩
  have hplaintext : validatePlaintext serialized maxWsRecordPlaintextBytes = .error .tooLarge := by
    rw [validatePlaintext, refuseIf, if_neg hne, refuseIf, if_pos hlarge]
    rfl
  refine ⟨serialized, h, ?_⟩
  have haad : validateAad wsFrameAad = .ok () := by decide
  rw [WsSealer.seal, WsSealer.record, haad, hplaintext]
  rfl

end Abyssal.Transport
