import Abyssal.Transport.Padding

/-! Messages pad themselves: the frame names the size it is padded to and carries the filler. The relay
computes how long a frame will be printed without printing it. -/

namespace Abyssal.Transport

open List

structure InboundRecipientEnvelope where
  recipientUsername : Text
  wrappedKeyB64 : Text
  prekeyId : Text
  isPrekey : Bool
  signatureB64 : Text

def InboundRecipientEnvelope.fields (e : InboundRecipientEnvelope) : Fields :=
  [text "recipient_username" e.recipientUsername, text "wrapped_key_b64" e.wrappedKeyB64,
    text "prekey_id" e.prekeyId, flag "is_prekey" e.isPrekey, text "signature_b64" e.signatureB64]

structure InboundMessage where
  chatId : Text
  version : Nat
  messageId : Text
  nonceB64 : Text
  ciphertextB64 : Text
  envelopes : List InboundRecipientEnvelope
  stateRevision : Nat
  identityEnvelopeB64 : Text
  identityPublicB64 : Text
  prekeyId : Text
  stateSignatureB64 : Text
  directoryNodeId : Text
  directoryRevision : Nat
  directoryDigest : Text
  paddingBucket : Nat
  padding : Text

def InboundMessage.fields (m : InboundMessage) : Fields :=
  [text "type" (ascii "message"), text "chat_id" m.chatId, number "version" m.version,
    text "message_id" m.messageId, text "nonce_b64" m.nonceB64,
    text "ciphertext_b64" m.ciphertextB64,
    list "envelopes" InboundRecipientEnvelope.fields m.envelopes,
    number "state_revision" m.stateRevision, text "identity_envelope_b64" m.identityEnvelopeB64,
    text "identity_public_b64" m.identityPublicB64, text "prekey_id" m.prekeyId,
    text "state_signature_b64" m.stateSignatureB64, text "directory_node_id" m.directoryNodeId,
    number "directory_revision" m.directoryRevision, text "directory_digest" m.directoryDigest,
    number "padding_bucket" m.paddingBucket, text "padding" m.padding]

def jsonArrayLen (values : List (Option Nat)) : Option Nat :=
  values.zipIdx.foldlM (fun length (value, index) => do
    checkedAdd (← checkedAdd length (if index ≠ 0 then 1 else 0)) (← value)) 2

def inboundRecipientEnvelopeWireLen (e : InboundRecipientEnvelope) : Option Nat := do
  jsonObjectLen [← jsonStringFieldLen "recipient_username" e.recipientUsername,
    ← jsonStringFieldLen "wrapped_key_b64" e.wrappedKeyB64,
    ← jsonStringFieldLen "prekey_id" e.prekeyId,
    ← jsonFieldLen "is_prekey" (jsonBoolLen e.isPrekey),
    ← jsonStringFieldLen "signature_b64" e.signatureB64]

def inboundMessageWireLen (m : InboundMessage) (paddingBucket : Nat) (padding : Text) :
    Option Nat := do
  let envelopesLen ← jsonArrayLen (m.envelopes.map inboundRecipientEnvelopeWireLen)
  jsonObjectLen [← jsonStringFieldLen "type" (ascii "message"),
    ← jsonStringFieldLen "chat_id" m.chatId,
    ← jsonFieldLen "version" (← jsonNumberLen m.version),
    ← jsonStringFieldLen "message_id" m.messageId,
    ← jsonStringFieldLen "nonce_b64" m.nonceB64,
    ← jsonStringFieldLen "ciphertext_b64" m.ciphertextB64,
    ← jsonFieldLen "envelopes" envelopesLen,
    ← jsonFieldLen "state_revision" (← jsonNumberLen m.stateRevision),
    ← jsonStringFieldLen "identity_envelope_b64" m.identityEnvelopeB64,
    ← jsonStringFieldLen "identity_public_b64" m.identityPublicB64,
    ← jsonStringFieldLen "prekey_id" m.prekeyId,
    ← jsonStringFieldLen "state_signature_b64" m.stateSignatureB64,
    ← jsonStringFieldLen "directory_node_id" m.directoryNodeId,
    ← jsonFieldLen "directory_revision" (← jsonNumberLen m.directoryRevision),
    ← jsonStringFieldLen "directory_digest" m.directoryDigest,
    ← jsonFieldLen "padding_bucket" (← jsonNumberLen paddingBucket),
    ← jsonStringFieldLen "padding" padding]

def validateInboundMessagePadding (text : Text) (m : InboundMessage) : Except String Unit := do
  -- Frames that are not messages are not checked here.
  rejectIf (messageTransportMaxBucket < text.length ∨ ¬ validMessageTransportPadding m.padding)
    "message transport padding rejected"
  let (canonicalBucket, emptyLen) ← okOr (messageTransportBuckets.findSome? fun bucket =>
    ((inboundMessageWireLen m bucket []).filter (· ≤ bucket)).map (bucket, ·))
    "message transport padding unavailable"
  rejectIf (m.paddingBucket ≠ canonicalBucket) "message transport padding bucket rejected"
  let expectedPaddingLen ← okOr (checkedSub canonicalBucket emptyLen)
    "message transport padding length rejected"
  rejectIf (m.padding.length ≠ expectedPaddingLen) "message transport padding length rejected"
  let serializedLen ← okOr (inboundMessageWireLen m m.paddingBucket m.padding)
    "message transport padding serialization failed"
  rejectIf (serializedLen ≠ canonicalBucket ∨ text.length ≠ canonicalBucket)
    "message transport padding length rejected"

def randomMessageTransportPadding (random : Nat → UInt8) (length : Nat) : Except String Text := do
  rejectIf (messageTransportMaxBucket < length) "message transport padding length rejected"
  .ok ((List.range length).map fun i => fillerAlphabet.getD (random i &&& 63).toNat 0)

def prepareOutboundMessagePadding (random : Nat → UInt8) :
    OutboundFrame → OutboundFrame × Except String Unit
  | .message m =>
    let cleared := { m with paddingBucket := 0, padding := [] }
    let padded : Except String OutboundMessage := do
      let (canonicalBucket, emptyLen) ← okOr (canonicalOutboundMessageBucket cleared)
        "message transport padding unavailable"
      let fillerLen ← okOr (checkedSub canonicalBucket emptyLen)
        "message transport padding length rejected"
      let filler ← randomMessageTransportPadding random fillerLen
      let padded := { cleared with paddingBucket := canonicalBucket, padding := filler }
      rejectIf ((OutboundFrame.message padded).json.render.length ≠ canonicalBucket)
        "message transport padding length rejected"
      .ok padded
    match padded with
    | .ok padded => (.message padded, .ok ())
    | .error reason => (.message cleared, .error reason)
  | frame => (frame, .ok ())

def outboundFrameBytes : OutboundFrame → Nat
  | .message m =>
    match canonicalOutboundMessageBucket m with
    | none => wsMaxFrameBytes + 1
    | some (canonicalBucket, emptyLen) =>
      match checkedSub canonicalBucket emptyLen with
      | none => wsMaxFrameBytes + 1
      | some expectedPaddingLen =>
        if m.paddingBucket ≠ canonicalBucket ∨ expectedPaddingLen ≠ m.padding.length then
          wsMaxFrameBytes + 1
        else canonicalBucket
  | _ => 0

def outboundQueueBytes (frame : OutboundFrame) : Nat :=
  if frame.isMessage then outboundFrameBytes frame
  else
    (controlTransportFrameLen frame.json.render (some frame.json)
      (if frame.isMls then mlsWsMaxFrameBytes else wsMaxFrameBytes)).getD
        (if frame.isMls then controlTransportMaxBucket + 1 else wsMaxFrameBytes + 1)

def word (n : Nat) : Option Nat := if n ≤ wordMax then some n else none

def Counts (count : Option Nat) (n : Nat) : Prop := count = some n ∨ count = none ∧ wordMax < n

variable {f : Nat → Option Nat} {n m : Nat}

theorem word_bind (hle : n ≤ m) (hf : n ≤ wordMax → f n = word m) : (word n).bind f = word m := by
  by_cases h : n ≤ wordMax
  · rw [word, if_pos h]
    exact hf h
  · rw [word, if_neg h, word, if_neg fun hm => h (hle.trans hm)]
    rfl

theorem counts_word (n : Nat) : Counts (word n) n := by
  unfold word
  split_ifs with h
  · exact .inl rfl
  · exact .inr ⟨rfl, not_le.mp h⟩

variable {count : Option Nat}

theorem Counts.bind (h : Counts count n) (hle : n ≤ m) (hf : f n = word m) :
    count.bind f = word m := by
  rcases h with rfl | ⟨rfl, hn⟩
  · exact hf
  · exact (if_neg (not_le.mpr (hn.trans_le hle))).symm

theorem length_escapeByte (b : UInt8) : (escapeByte b).length =
    if b ∈ [8, 9, 10, 12, 13, 34, 92] then 2 else if b < 32 then 6 else 1 := by
  unfold escapeByte
  split_ifs <;> simp_all

theorem foldlM_escaped (value : Text) (length : Nat) (h : length ≤ wordMax) :
    value.foldlM (fun length byte => checkedAdd length
      (if byte ∈ [8, 9, 10, 12, 13, 34, 92] then 2 else if byte < 32 then 6 else 1)) length =
    word (length + (value.flatMap escapeByte).length) := by
  induction value generalizing length with
  | nil => exact (if_pos h).symm
  | cons b value ih =>
    rw [foldlM_cons, flatMap_cons, length_append, length_escapeByte]
    refine word_bind (Nat.add_le_add_left (Nat.le_add_right ..) _) fun hle => ?_
    rw [ih _ hle, Nat.add_assoc]

theorem jsonStringLen_eq (value : Text) :
    jsonStringLen value = word (stringLiteral value).length := by
  rw [jsonStringLen, foldlM_escaped value 2 (by decide), stringLiteral, length_cons,
    length_append, length_singleton]
  congr 1
  omega

theorem jsonFieldLen_eq (key : String) (n : Nat) :
    jsonFieldLen key n = word ((stringLiteral (ascii key)).length + 1 + n) := by
  rw [jsonFieldLen, jsonStringLen_eq]
  exact word_bind (by omega) fun _ => word_bind (by omega) fun _ => rfl

theorem counts_field (key : String) (h : Counts count n) :
    Counts (count.bind (jsonFieldLen key)) ((stringLiteral (ascii key)).length + 1 + n) := by
  rw [h.bind (Nat.le_add_left ..) (jsonFieldLen_eq key n)]
  exact counts_word _

variable {values : List (Option Nat)} {ns : List Nat}

@[simp] theorem counts_text (key : String) (value : Text) :
    Counts (jsonStringFieldLen key value) (Json.fieldLength (text key value)) := by
  have h := counts_field key (counts_word (stringLiteral value).length)
  rw [← jsonStringLen_eq] at h
  simp only [Json.fieldLength, text, Json.render]
  exact h

@[simp] theorem counts_number (key : String) (n : Nat) :
    Counts (jsonNumberLen n >>= jsonFieldLen key) (Json.fieldLength (number key n)) := by
  simp only [Json.fieldLength, number, Json.render]
  exact counts_field key (.inl rfl)

@[simp] theorem counts_flag (key : String) (b : Bool) :
    Counts (jsonFieldLen key (jsonBoolLen b)) (Json.fieldLength (flag key b)) := by
  have hlength : jsonBoolLen b = (Json.bool b).render.length := by cases b <;> decide
  rw [hlength, jsonFieldLen_eq]
  exact counts_word _

theorem foldlM_joined (h : List.Forall₂ Counts values ns) (length k : Nat)
    (hlength : length ≤ wordMax) :
    (values.zipIdx (k + 1)).foldlM (fun length (value, index) => do
      checkedAdd (← checkedAdd length (if index ≠ 0 then 1 else 0)) (← value)) length =
    word (length + (ns.sum + ns.length)) := by
  induction h generalizing length k with
  | nil => exact (if_pos hlength).symm
  | @cons value n values ns hvalue _ ih =>
    rw [zipIdx_cons, foldlM_cons, sum_cons, length_cons]
    have hhead : (do checkedAdd (← checkedAdd length (if k + 1 ≠ 0 then 1 else 0)) (← value)) =
        word (length + 1 + n) := by
      rw [if_pos (Nat.succ_ne_zero k)]
      exact word_bind (by omega) fun _ => hvalue.bind (by omega) rfl
    dsimp only at hhead ⊢
    rw [hhead]
    refine word_bind (by omega) fun hle => ?_
    rw [ih _ _ hle]
    congr 1
    omega

theorem jsonArrayLen_eq (h : List.Forall₂ Counts values ns) :
    jsonArrayLen values = word (2 + Json.joined ns) := by
  cases h with
  | nil => rfl
  | @cons value n values ns hvalue htail =>
    have hhead : (do checkedAdd (← checkedAdd 2 (if 0 ≠ 0 then 1 else 0)) (← value)) =
        word (2 + n) := hvalue.bind (by omega) rfl
    rw [jsonArrayLen, zipIdx_cons, foldlM_cons]
    dsimp only at hhead ⊢
    rw [hhead, Json.joined, sum_cons, length_cons]
    refine word_bind (by omega) fun hle => ?_
    rw [foldlM_joined htail _ _ hle]
    congr 1
    omega

theorem jsonObjectLen_eq (ns : List Nat) : jsonObjectLen ns = word (2 + Json.joined ns) := by
  have hsome : List.Forall₂ Counts (ns.map some) ns := by
    induction ns with
    | nil => exact .nil
    | cons n ns ih => exact .cons (.inl rfl) ih
  rw [← jsonArrayLen_eq hsome, jsonArrayLen, jsonObjectLen, zipIdx_map, foldlM_map]
  rfl

theorem mapM_objectLen {f : List Nat → Option Nat} (h : List.Forall₂ Counts values ns)
    (hle : ∀ n ∈ ns, n ≤ m) (hf : f ns = word m) : values.mapM id >>= f = word m := by
  induction h generalizing f with
  | nil => exact hf
  | @cons value n values ns hvalue _ ih =>
    simp only [mapM_cons, id_eq, bind_assoc, pure_bind]
    refine hvalue.bind (hle n (mem_cons_self ..)) (ih (fun k hk => ?_) hf)
    exact hle k (mem_cons_of_mem n hk)

theorem objectLen_eq {fields : Fields}
    (h : List.Forall₂ Counts values (fields.map Json.fieldLength)) :
    values.mapM id >>= jsonObjectLen = word (Json.object fields).render.length := by
  rw [Json.length_render_object]
  exact mapM_objectLen h (fun n hn => (Json.le_joined hn).trans (Nat.le_add_left ..))
    (jsonObjectLen_eq _)

theorem outboundMessageWireLen_eq (m : OutboundMessage) (bucket : Nat) (padding : Text) :
    outboundMessageWireLen m bucket padding = word (OutboundFrame.message
      { m with paddingBucket := bucket, padding := padding }).json.render.length := by
  rw [OutboundFrame.json, ← objectLen_eq <|
    .cons (counts_text _ _) <| .cons (counts_text _ _) <| .cons (counts_number _ _) <|
    .cons (counts_text _ _) <| .cons (counts_text _ _) <| .cons (counts_text _ _) <|
    .cons (counts_text _ _) <| .cons (counts_text _ _) <| .cons (counts_text _ _) <|
    .cons (counts_flag _ _) <| .cons (counts_text _ _) <| .cons (counts_text _ _) <|
    .cons (counts_text _ _) <| .cons (counts_text _ _) <| .cons (counts_number _ _) <|
    .cons (counts_text _ _) <| .cons (counts_number _ _) <| .cons (counts_text _ _) <| .nil]
  simp only [outboundMessageWireLen, mapM_cons, mapM_nil, id_eq, bind_assoc, pure_bind]

def InboundMessage.json (m : InboundMessage) : Json := .object m.fields

theorem inboundRecipientEnvelopeWireLen_eq (e : InboundRecipientEnvelope) :
    inboundRecipientEnvelopeWireLen e = word (Json.object e.fields).render.length := by
  rw [← objectLen_eq <|
    .cons (counts_text _ _) <| .cons (counts_text _ _) <| .cons (counts_text _ _) <|
    .cons (counts_flag _ _) <| .cons (counts_text _ _) <| .nil]
  simp only [inboundRecipientEnvelopeWireLen, mapM_cons, mapM_nil, id_eq, bind_assoc,
    pure_bind]

theorem envelopesLen_eq (envelopes : List InboundRecipientEnvelope) :
    jsonArrayLen (envelopes.map inboundRecipientEnvelopeWireLen) =
      word (Json.array (envelopes.map fun e => .object e.fields)).render.length := by
  rw [Json.length_render_array, map_map]
  refine jsonArrayLen_eq ?_
  rw [forall₂_map_left_iff, forall₂_map_right_iff, forall₂_same]
  intro e _
  rw [inboundRecipientEnvelopeWireLen_eq]
  exact counts_word _

theorem inboundMessageWireLen_eq (m : InboundMessage) (bucket : Nat) (padding : Text) :
    inboundMessageWireLen m bucket padding =
      word { m with paddingBucket := bucket, padding := padding }.json.render.length := by
  have henvelopes : Counts (jsonFieldLen "envelopes" (Json.array (m.envelopes.map fun e =>
      .object e.fields)).render.length)
      (Json.fieldLength (list "envelopes" InboundRecipientEnvelope.fields m.envelopes)) := by
    rw [jsonFieldLen_eq]
    exact counts_word _
  rw [inboundMessageWireLen, envelopesLen_eq]
  refine (counts_word _).bind ?_ ?_
  · have hmem : list "envelopes" InboundRecipientEnvelope.fields m.envelopes ∈
        InboundMessage.fields { m with paddingBucket := bucket, padding := padding } := by
      simp [InboundMessage.fields]
    have hle := Json.le_joined (mem_map_of_mem (f := Json.fieldLength) hmem)
    rw [InboundMessage.json, Json.length_render_object]
    exact (Nat.le_add_left ..).trans (hle.trans (Nat.le_add_left ..))
  · rw [InboundMessage.json, ← objectLen_eq <|
      .cons (counts_text _ _) <| .cons (counts_text _ _) <| .cons (counts_number _ _) <|
      .cons (counts_text _ _) <| .cons (counts_text _ _) <| .cons (counts_text _ _) <|
      .cons henvelopes <| .cons (counts_number _ _) <| .cons (counts_text _ _) <|
      .cons (counts_text _ _) <| .cons (counts_text _ _) <| .cons (counts_text _ _) <|
      .cons (counts_text _ _) <| .cons (counts_number _ _) <| .cons (counts_text _ _) <|
      .cons (counts_number _ _) <| .cons (counts_text _ _) <| .nil]
    simp only [mapM_cons, mapM_nil, id_eq, bind_assoc, pure_bind]

/-- The smallest size that holds a message which is `len b` bytes long when it names the size `b`. -/
structure Smallest (len : Nat → Nat) (bucket : Nat) : Prop where
  mem : bucket ∈ messageTransportBuckets
  fits : len bucket ≤ bucket
  least : ∀ b ∈ messageTransportBuckets, len b ≤ b → bucket ≤ b

variable {bucket : Nat}

theorem filter_word (hbucket : bucket ∈ messageTransportBuckets) :
    (word n).filter (· ≤ bucket) = if n ≤ bucket then some n else none := by
  have hword : ∀ b ∈ messageTransportBuckets, b ≤ wordMax := by decide
  unfold word
  split_ifs with hn hle hle
  · exact if_pos (decide_eq_true hle)
  · exact if_neg (by simpa using hle)
  · exact absurd (hle.trans (hword bucket hbucket)) hn
  · rfl

theorem findSome?_eq_map {α β : Type} {f : α → Option β} {p : α → Bool} {g : α → β} {as : List α}
    (h : ∀ a ∈ as, f a = if p a then some (g a) else none) :
    as.findSome? f = (as.find? p).map g := by
  induction as with
  | nil => rfl
  | cons a as ih =>
    rw [findSome?_cons, find?_cons, h a (mem_cons_self ..)]
    cases p a with
    | true => rfl
    | false => exact ih fun b hb => h b (mem_cons_of_mem a hb)

variable {len : Nat → Nat}

theorem findSome?_bucket {wire : Nat → Option Nat} (h : ∀ b, wire b = word (len b)) :
    (messageTransportBuckets.findSome? fun b => ((wire b).filter (· ≤ b)).map (b, ·)) =
      (messageTransportBuckets.find? fun b => len b ≤ b).map fun b => (b, len b) := by
  refine findSome?_eq_map fun b hb => ?_
  rw [h, filter_word hb]
  by_cases hle : len b ≤ b
  · simp [hle]
  · simp [hle]

theorem smallest_of_find? (h : (messageTransportBuckets.find? fun b => len b ≤ b) = some bucket) :
    Smallest len bucket := by
  obtain ⟨hfits, before, later, hsplit, hbefore⟩ := find?_eq_some_iff_append.mp h
  have hsorted : messageTransportBuckets.Pairwise (· < ·) := by decide
  refine ⟨mem_of_find?_eq_some h, of_decide_eq_true hfits, fun b hb hle => ?_⟩
  rw [hsplit] at hb hsorted
  rcases mem_append.mp hb with hb | hb
  · have hnot := hbefore b hb
    simp [hle] at hnot
  · rcases mem_cons.mp hb with rfl | hb
    · exact Nat.le_refl b
    · exact (rel_of_pairwise_cons (pairwise_append.mp hsorted).2.1 hb).le

theorem find?_bucket_eq_some :
    (messageTransportBuckets.find? fun b => len b ≤ b) = some bucket ↔ Smallest len bucket := by
  refine ⟨smallest_of_find?, fun h => ?_⟩
  have hsome : (messageTransportBuckets.find? fun b => len b ≤ b).isSome := by
    rw [find?_isSome]
    exact ⟨bucket, h.mem, decide_eq_true h.fits⟩
  obtain ⟨b, hb⟩ := Option.isSome_iff_exists.mp hsome
  have hsmallest := smallest_of_find? hb
  rw [hb, Nat.le_antisymm (hsmallest.least bucket h.mem h.fits) (h.least b hsmallest.mem hsmallest.fits)]

def InboundMessage.paddedLen (m : InboundMessage) (bucket : Nat) (padding : Text) : Nat :=
  { m with paddingBucket := bucket, padding := padding }.json.render.length

def OutboundMessage.paddedLen (m : OutboundMessage) (bucket : Nat) (padding : Text) : Nat :=
  (OutboundFrame.message { m with paddingBucket := bucket, padding := padding }).json.render.length

theorem length_padded (front : Fields) {padding : Text} (h : validMessageTransportPadding padding) :
    (Json.object (front ++ [text "padding" padding])).render.length =
      (Json.object (front ++ [text "padding" []])).render.length + padding.length := by
  have hletters : (fillerAlphabet.all fun b => escapeByte b = [b]) = true := by decide
  have hletter : ∀ b ∈ fillerAlphabet, escapeByte b = [b] := by simpa using hletters
  have hsame : padding.flatMap escapeByte = padding := by
    rw [validMessageTransportPadding, Bool.and_eq_true, all_eq_true] at h
    rw [flatMap_congr fun b hb => hletter b (contains_iff_mem.mp (h.2 b hb)),
      flatMap_singleton']
  rw [Json.length_render_object, Json.length_render_object]
  simp only [map_append, map_singleton, Json.joined, sum_append, sum_singleton,
    length_append, Json.fieldLength, text, Json.render, stringLiteral, hsame, length_cons,
    flatMap_nil, length_nil]
  omega

theorem canonicalOutboundMessageBucket_eq (m : OutboundMessage) :
    canonicalOutboundMessageBucket m =
      (messageTransportBuckets.find? fun b => m.paddedLen b [] ≤ b).map fun b =>
        (b, m.paddedLen b []) :=
  findSome?_bucket fun b => outboundMessageWireLen_eq m b []

theorem checkedSub_of_le {a b : Nat} (h : b ≤ a) : checkedSub a b = some (a - b) := if_pos h

theorem randomMessageTransportPadding_ok (random : Nat → UInt8) (hn : n ≤ messageTransportMaxBucket) :
    ∃ filler, randomMessageTransportPadding random n = .ok filler ∧ filler.length = n ∧
      validMessageTransportPadding filler := by
  have hletter : ∀ i < 64, fillerAlphabet.contains (fillerAlphabet.getD i 0) := by
    intro i hi
    have hlt : i < fillerAlphabet.length := hi.trans_eq (by decide)
    rw [getD_eq_getElem?_getD, getElem?_eq_getElem hlt, contains_iff_mem]
    exact getElem_mem hlt
  refine ⟨_, rejectIf_bind.mpr ⟨(not_lt.mpr hn), rfl⟩, by simp, ?_⟩
  rw [validMessageTransportPadding, Bool.and_eq_true, decide_eq_true_iff, all_map,
    all_eq_true]
  exact ⟨by simpa using hn, fun i _ => hletter _ (Nat.lt_succ_of_le Nat.and_le_right)⟩

/-- What a successful preparation has made of a message. -/
structure Prepared (m : OutboundMessage) (frame : OutboundFrame) (bucket : Nat) : Prop where
  smallest : Smallest (m.paddedLen · []) bucket
  message : ∃ filler, frame = .message { m with paddingBucket := bucket, padding := filler }
  length : frame.json.render.length = bucket
  frameBytes : outboundFrameBytes frame = bucket
  queueBytes : outboundQueueBytes frame = bucket

theorem prepareOutboundMessagePadding_ok (random : Nat → UInt8) {m : OutboundMessage}
    (h : Smallest (m.paddedLen · []) bucket) :
    ∃ frame, prepareOutboundMessagePadding random (.message m) = (frame, .ok ()) ∧
      Prepared m frame bucket := by
  have hcanonical : ∀ b p, canonicalOutboundMessageBucket
      { m with paddingBucket := b, padding := p } = some (bucket, m.paddedLen bucket []) := by
    intro b p
    rw [canonicalOutboundMessageBucket_eq]
    exact congrArg (Option.map _) (find?_bucket_eq_some.mpr h)
  have hmax : ∀ b ∈ messageTransportBuckets, b ≤ messageTransportMaxBucket := by decide
  obtain ⟨filler, hfiller, hlength, hvalid⟩ := randomMessageTransportPadding_ok random
    ((Nat.sub_le bucket (m.paddedLen bucket [])).trans (hmax bucket h.mem))
  have hsub := checkedSub_of_le h.fits
  have hrender : (OutboundFrame.message
      { m with paddingBucket := bucket, padding := filler }).json.render.length = bucket := by
    have hpadded := length_padded
      (OutboundFrame.message { m with paddingBucket := bucket, padding := [] }).fields.dropLast hvalid
    rw [hlength] at hpadded
    exact hpadded.trans (Nat.add_sub_cancel' h.fits)
  have hbytes : outboundFrameBytes (.message { m with paddingBucket := bucket, padding := filler }) =
      bucket := by
    simp only [outboundFrameBytes, hcanonical, hsub, hlength, ne_eq, not_true_eq_false, or_self,
      if_false]
  refine ⟨_, ?_, h, ⟨filler, rfl⟩, hrender, hbytes, hbytes⟩
  simp only [prepareOutboundMessagePadding, hcanonical, hsub, okOr, hfiller, hrender, rejectIf,
    ne_eq, not_true_eq_false, if_false, bind, Except.bind]

theorem prepareOutboundMessagePadding_error (random : Nat → UInt8) {m : OutboundMessage}
    (h : ∀ b ∈ messageTransportBuckets, b < m.paddedLen b []) :
    prepareOutboundMessagePadding random (.message m) =
      (.message { m with paddingBucket := 0, padding := [] },
        .error "message transport padding unavailable") := by
  have hnone : canonicalOutboundMessageBucket { m with paddingBucket := 0, padding := [] } = none := by
    rw [canonicalOutboundMessageBucket_eq, Option.map_eq_none_iff, find?_eq_none]
    intro b hb hle
    exact absurd (h b hb) (not_lt.mpr (of_decide_eq_true hle))
  simp only [prepareOutboundMessagePadding, hnone, okOr, bind, Except.bind]

theorem validateInboundMessagePadding_iff (text : Text) (m : InboundMessage) :
    validateInboundMessagePadding text m = .ok () ↔
      validMessageTransportPadding m.padding ∧ ∃ bucket, Smallest (m.paddedLen · []) bucket ∧
        m.paddingBucket = bucket ∧ m.json.render.length = bucket ∧ text.length = bucket := by
  have hfind := findSome?_bucket fun b => inboundMessageWireLen_eq m b []
  have hlength := inboundMessageWireLen_eq m m.paddingBucket m.padding
  have hmax : ∀ b ∈ messageTransportBuckets, b ≤ messageTransportMaxBucket ∧ b ≤ wordMax := by decide
  constructor
  · intro h
    obtain ⟨⟨⟩, hvalid, h⟩ := bind_eq_ok.mp h
    obtain ⟨⟨bucket, emptyLen⟩, hbucket, h⟩ := bind_eq_ok.mp h
    obtain ⟨⟨⟩, hnamed, h⟩ := bind_eq_ok.mp h
    obtain ⟨expected, -, h⟩ := bind_eq_ok.mp h
    obtain ⟨⟨⟩, -, h⟩ := bind_eq_ok.mp h
    obtain ⟨total, htotal, hend⟩ := bind_eq_ok.mp h
    rw [okOr_eq_ok, hfind, Option.map_eq_some_iff] at hbucket
    obtain ⟨b, hb, heq⟩ := hbucket
    obtain ⟨rfl, rfl⟩ := Prod.mk.inj heq
    rw [okOr_eq_ok, hlength] at htotal
    rw [rejectIf_eq_ok, not_or, not_not, not_not] at hend
    rw [rejectIf_eq_ok, not_or, not_not] at hvalid
    rw [rejectIf_eq_ok, not_not] at hnamed
    refine ⟨hvalid.2, b, find?_bucket_eq_some.mp hb, hnamed, ?_, hend.2⟩
    unfold word at htotal
    split_ifs at htotal
    exact (Option.some.inj htotal).trans hend.1
  · rintro ⟨hvalid, bucket, hsmallest, hnamed, hrender, htext⟩
    have hempty : m.json.render.length = m.paddedLen bucket [] + m.padding.length := by
      rw [← hnamed]
      exact length_padded m.fields.dropLast hvalid
    have hfound : (messageTransportBuckets.findSome? fun b =>
        ((inboundMessageWireLen m b []).filter (· ≤ b)).map (b, ·)) =
        some (bucket, m.paddedLen bucket []) := by
      rw [hfind]
      exact congrArg (Option.map _) (find?_bucket_eq_some.mpr hsmallest)
    have hword : word m.json.render.length = some bucket := by
      rw [hrender]
      exact if_pos (hmax bucket hsmallest.mem).2
    refine bind_eq_ok.mpr ⟨(), ?_, okOr_bind.mpr ⟨_, hfound, bind_eq_ok.mpr ⟨(), ?_,
      okOr_bind.mpr ⟨_, (checkedSub_of_le hsmallest.fits), bind_eq_ok.mpr ⟨(), ?_,
        okOr_bind.mpr ⟨bucket, (hlength.trans hword), ?_⟩⟩⟩⟩⟩⟩ <;>
      rw [rejectIf_eq_ok]
    · rw [not_or, not_not, htext]
      exact ⟨not_lt.mpr (hmax bucket hsmallest.mem).1, hvalid⟩
    · exact not_not.mpr hnamed
    · omega
    · rw [not_or, not_not, not_not]
      exact ⟨rfl, htext⟩

/-- The counted lengths are the printed ones, as far as a word holds them; a message is padded to the
smallest size that fits and refused when none does; and a text is accepted when its frame carries proper
filler and names the smallest size that fits, to which frame and text are padded. -/
theorem message_padding :
    (∀ (m : InboundMessage) bucket padding,
      inboundMessageWireLen m bucket padding = word (m.paddedLen bucket padding)) ∧
    (∀ (m : OutboundMessage) bucket padding,
      outboundMessageWireLen m bucket padding = word (m.paddedLen bucket padding)) ∧
    (∀ random m,
      (∃ frame bucket, prepareOutboundMessagePadding random (.message m) = (frame, .ok ()) ∧
        Prepared m frame bucket) ∨
      (∃ frame reason, prepareOutboundMessagePadding random (.message m) = (frame, .error reason)) ∧
        ∀ b ∈ messageTransportBuckets, b < m.paddedLen b []) ∧
    ∀ text (m : InboundMessage), validateInboundMessagePadding text m = .ok () ↔
      validMessageTransportPadding m.padding ∧ ∃ bucket, Smallest (m.paddedLen · []) bucket ∧
        m.paddingBucket = bucket ∧ m.json.render.length = bucket ∧ text.length = bucket := by
  refine ⟨inboundMessageWireLen_eq, outboundMessageWireLen_eq, fun random m => ?_,
    validateInboundMessagePadding_iff⟩
  cases hfind : messageTransportBuckets.find? fun b => m.paddedLen b [] ≤ b with
  | some bucket =>
    obtain ⟨frame, h⟩ := prepareOutboundMessagePadding_ok random (smallest_of_find? hfind)
    exact .inl ⟨frame, bucket, h⟩
  | none =>
    have hfull : ∀ b ∈ messageTransportBuckets, b < m.paddedLen b [] := fun b hb => by
      simpa using find?_eq_none.mp hfind b hb
    exact .inr ⟨⟨_, _, prepareOutboundMessagePadding_error random hfull⟩, hfull⟩

def spaced (n : Nat) : InboundMessage :=
  ⟨[], 9, [], [], [], [], 1, [], [], [], [], [], 1, [], 4096, List.replicate n 32⟩

theorem length_spaced (n : Nat) : (spaced n).json.render.length = n + 323 := by
  have hspaces (k : Nat) : (stringLiteral (List.replicate k 32)).length = k + 2 :=
    stringLiteral_replicate k (by decide)
  have hzero : (spaced 0).json.render.length = 323 := by decide +kernel
  rw [← hzero]
  simp only [spaced, InboundMessage.json, InboundMessage.fields, text, number, list, Json.render,
    Json.renderFields, length_append, length_cons, hspaces]
  omega

theorem spaced_refused :
    Smallest ((spaced 3773).paddedLen · []) 4096 ∧ (spaced 3773).json.render.length = 4096 ∧
      validateInboundMessagePadding (List.replicate 4096 32) (spaced 3773) ≠ .ok () := by
  refine ⟨⟨by decide, ?_, fun b hb _ => ?_⟩, length_spaced 3773, fun h => ?_⟩
  · exact (length_spaced 0).trans_le (by decide)
  · have hleast : ∀ b ∈ messageTransportBuckets, 4096 ≤ b := by decide
    exact hleast b hb
  · have hvalid := ((validateInboundMessagePadding_iff _ _).mp h).1
    rw [validMessageTransportPadding, Bool.and_eq_true, all_eq_true] at hvalid
    exact absurd (hvalid.2 32 (mem_replicate.mpr ⟨by decide, rfl⟩)) (by decide)

end Abyssal.Transport
