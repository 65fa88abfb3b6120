import Abyssal.Direct.Model

/-! Outbound message frames: their padding to a transport bucket, the bytes they are charged
for, and the one-time prekey they hold. -/

namespace Abyssal.Direct

def ascii (s : String) : Text := s.toList.map fun c => c.toUInt8

def jsonEscapedLen (b : UInt8) : Nat :=
  match b.toNat with
  | 8 | 9 | 10 | 12 | 13 | 34 | 92 => 2
  | n => if n < 32 then 6 else 1

def jsonStringLenFrom : Nat → Text → Option Nat
  | length, [] => some length
  | length, b :: value => (checkedAdd length (jsonEscapedLen b)).bind (jsonStringLenFrom · value)

def jsonStringLen (value : Text) : Option Nat := jsonStringLenFrom 2 value

def jsonFieldLen (key : String) (valueLen : Nat) : Option Nat := do
  let length ← jsonStringLen (ascii key)
  let length ← checkedAdd length 1
  checkedAdd length valueLen

def jsonStringFieldLen (key : String) (value : Text) : Option Nat := do
  jsonFieldLen key (← jsonStringLen value)

def jsonNumberLen (value : Nat) : Nat := (Nat.toDigits 10 value).length

def jsonBoolLen (value : Bool) : Nat := if value then 4 else 5

def jsonFieldsLenFrom : Nat → Nat → List (Option Nat) → Option Nat
  -- The comma stands before every field but the first.
  | _, length, [] => some length
  | comma, length, field :: fields => do
    let length ← checkedAdd length comma
    let length ← checkedAdd length (← field)
    jsonFieldsLenFrom 1 length fields

def jsonObjectLen (fields : List (Option Nat)) : Option Nat := jsonFieldsLenFrom 0 2 fields

def outboundMessageWireLen (frame : OutboundMessage) (paddingBucket : Nat) (padding : Text) :
    Option Nat :=
  jsonObjectLen
    [jsonStringFieldLen "type" (ascii "message"),
      jsonStringFieldLen "chat_id" frame.chatId,
      jsonFieldLen "version" (jsonNumberLen frame.version),
      jsonStringFieldLen "message_id" frame.messageId,
      jsonStringFieldLen "nonce_b64" frame.nonceB64,
      jsonStringFieldLen "ciphertext_b64" frame.ciphertextB64,
      jsonStringFieldLen "signature_b64" frame.signatureB64,
      jsonStringFieldLen "wrapped_key_b64" frame.wrappedKeyB64,
      jsonStringFieldLen "prekey_id" frame.prekeyId,
      jsonFieldLen "is_prekey" (jsonBoolLen frame.isPrekey),
      jsonStringFieldLen "sender_username" frame.senderUsername,
      jsonStringFieldLen "sender_public_key_b64" frame.senderPublicKeyB64,
      jsonStringFieldLen "identity_public_b64" frame.identityPublicB64,
      jsonStringFieldLen "directory_node_id" frame.directoryNodeId,
      jsonFieldLen "directory_revision" (jsonNumberLen frame.directoryRevision),
      jsonStringFieldLen "directory_digest" frame.directoryDigest,
      jsonFieldLen "padding_bucket" (jsonNumberLen paddingBucket),
      jsonStringFieldLen "padding" padding]

def canonicalOutboundMessageBucket (frame : OutboundMessage) : Option (Nat × Nat) :=
  -- The smallest bucket that holds the frame with empty padding, and that frame's length.
  messageTransportBuckets.findSome? fun bucket =>
    (outboundMessageWireLen frame bucket []).bind fun emptyLen =>
      if emptyLen ≤ bucket then some (bucket, emptyLen) else none

def fillerAlphabet : Text :=
  ascii "ABCDEFGHIJKLMNOPQRSTUVWXYZabcdefghijklmnopqrstuvwxyz0123456789-_"

def randomMessageTransportPadding (random : Nat → UInt8) (length : Nat) : Except String Text :=
  if messageTransportMaxBucket < length then
    .error "message transport padding length rejected"
  else .ok ((List.range length).map fun i => fillerAlphabet.getD (random i &&& 63).toNat 65)

def prepareOutboundMessagePadding (random : Nat → UInt8) (frame : OutboundMessage) :
    Except String OutboundMessage := do
  let frame := { frame with paddingBucket := 0, padding := [] }
  let (canonicalBucket, emptyLen) ←
    okOr (canonicalOutboundMessageBucket frame) "message transport padding unavailable"
  let fillerLen ← okOr (checkedSub canonicalBucket emptyLen)
    "message transport padding length rejected"
  let filler ← randomMessageTransportPadding random fillerLen
  let frame := { frame with paddingBucket := canonicalBucket, padding := filler }
  let serializedLen ← okOr (outboundMessageWireLen frame frame.paddingBucket frame.padding)
    "message transport padding serialization failed"
  rejectIf (serializedLen ≠ canonicalBucket) "message transport padding length rejected"
  .ok frame

def outboundFrameBytes (frame : OutboundMessage) : Nat :=
  -- A frame that is not canonically padded is charged more than any frame may weigh.
  match canonicalOutboundMessageBucket frame with
  | none => saturatingAdd wsMaxFrameBytes 1
  | some (canonicalBucket, emptyLen) =>
    match checkedSub canonicalBucket emptyLen with
    | none => saturatingAdd wsMaxFrameBytes 1
    | some expectedPaddingLen =>
      if frame.paddingBucket ≠ canonicalBucket ∨ expectedPaddingLen ≠ frame.padding.length then
        saturatingAdd wsMaxFrameBytes 1
      else canonicalBucket

def validatedOutboundFrameBytes (frame : OutboundMessage) : Option Nat :=
  if wsMaxFrameBytes < outboundFrameBytes frame then none else some (outboundFrameBytes frame)

theorem validatedOutboundFrameBytes_eq_some {frame : OutboundMessage} {bytes : Nat}
    (h : validatedOutboundFrameBytes frame = some bytes) : bytes = outboundFrameBytes frame := by
  unfold validatedOutboundFrameBytes at h
  split_ifs at h
  exact (Option.some.inj h).symm

def isPrekeyFrame (frame : OutboundMessage) : Bool := frame.isPrekey && frame.prekeyId ≠ []

structure LeaseDetails where
  chatId : Text
  messageId : Text
  senderUsername : Text
  prekeyId : Text
  deriving DecidableEq

def prekeyLeaseDetails (frame : OutboundMessage) : Option LeaseDetails :=
  if isPrekeyFrame frame then
    some ⟨frame.chatId, frame.messageId, frame.senderUsername, frame.prekeyId⟩
  else none

def pendingFrameMatchesAck (frame : OutboundMessage)
    (chatId messageId originalSender usedPrekeyId : Text) : Bool :=
  frame.chatId = chatId && frame.messageId = messageId && frame.senderUsername = originalSender &&
    if usedPrekeyId = [] then !frame.isPrekey && frame.prekeyId = []
    else frame.isPrekey && frame.prekeyId = usedPrekeyId

end Abyssal.Direct
