import Abyssal.Base.Reading
import Abyssal.Client.Transcripts
import Abyssal.Mls.Storage

/-! The credentials by which the members of a room authenticate themselves. The bytes that are read
as a credential are those that are written for its parts, except that the name in them may be spelled
with capitals. -/

namespace Abyssal.Mls

open Client (mapErr mlsProtocolVersion mlsValidateUsername mlsValidateRoomId validateNodeContext
  credentialTranscript canonicalFields canonicalFields_eq_ok maxStateBytes)
open List hiding Vector

def credentialType : Nat := 0xA510
def credentialMagic : Bytes := ascii "ABYSSAL-MLS-CREDENTIAL"

structure SigningIdentity where
  custom : Option (Nat × Bytes)
  signatureKey : Bytes
  deriving DecidableEq

structure CredentialParts where
  username : Text
  nodeContext : Bytes
  roomId : Text
  groupId : Vector UInt8 32
  stableIdentity : Vector UInt8 64
  mlsPublic : Vector UInt8 32
  proof : Vector UInt8 64
  deriving DecidableEq

def canonicalUsername (value : Text) : Except String Text := do
  mlsValidateUsername value
  .ok (toAsciiLowercase value)

def decodeCanonicalFields (data expectedDomain : Bytes) : Except String (List Bytes) := do
  rejectIf (data.length < 8) "Room unavailable"
  let label ← okOr (takePart data) "Room unavailable"
  rejectIf (label.1 ≠ expectedDomain) "Room unavailable"
  rejectIf (label.2.length < 4) "Room unavailable"
  rejectIf (16 < ofBe (label.2.take 4)) "Room unavailable"
  let fields ← okOr (takeParts (ofBe (label.2.take 4)) (label.2.drop 4)) "Room unavailable"
  rejectIf (fields.2 ≠ []) "Room unavailable"
  .ok fields.1

/-- A slice that leaves the input is a panic. -/
inductive FieldError
  | refused (reason : String)
  | outside
  deriving DecidableEq

def slice (data : Bytes) (cursor len : Nat) : Except FieldError Bytes :=
  if cursor + len ≤ data.length then .ok ((data.drop cursor).take len) else .error .outside

def fieldsAt (data : Bytes) : Nat → Nat → Except FieldError (List Bytes × Nat)
  | 0, cursor => .ok ([], cursor)
  | count + 1, cursor => do
    refuseIf (data.length < cursor + 4) (.refused "Room unavailable")
    let len := ofBe (← slice data cursor 4)
    let cursor := cursor + 4
    refuseIf (data.length - cursor < len) (.refused "Room unavailable")
    let field ← slice data cursor len
    let (fields, cursor) ← fieldsAt data count (cursor + len)
    .ok (field :: fields, cursor)

/-- Reading with the source's slices. -/
def decodeCanonicalFieldsAt (data expectedDomain : Bytes) : Except FieldError (List Bytes) := do
  refuseIf (data.length < 8) (.refused "Room unavailable")
  let domainLen := ofBe (← slice data 0 4)
  refuseIf (domainLen ≠ expectedDomain.length ∨ data.length < 4 + domainLen)
    (.refused "Room unavailable")
  let domain ← slice data 4 domainLen
  refuseIf (domain ≠ expectedDomain) (.refused "Room unavailable")
  let cursor := 4 + domainLen
  refuseIf (data.length < cursor + 4) (.refused "Room unavailable")
  let count := ofBe (← slice data cursor 4)
  refuseIf (16 < count) (.refused "Room unavailable")
  let (fields, cursor) ← fieldsAt data count (cursor + 4)
  refuseIf (cursor ≠ data.length) (.refused "Room unavailable")
  .ok fields

def encodeCredential (username roomId : Text) (nodeContext groupId : Bytes)
    (stable : Vector UInt8 64) (mlsPublic : Vector UInt8 32) (proof : Bytes) :
    Except String Bytes := do
  rejectIf (proof.length ≠ 64) "Identity unavailable"
  let groupId ← okOr (exactly 32 groupId) "Identity unavailable"
  let out ← credentialTranscript username roomId nodeContext groupId stable mlsPublic
  rejectIf (1024 < (out ++ proof).length) "Identity unavailable"
  .ok (out ++ proof)

section

-- Ed25519 verification of a signature under a key and a message.
variable (verify : Bytes → Bytes → Bytes → Bool)

def verifyStableSignature (stable : Vector UInt8 64) (transcript proof : Bytes) :
    Except String Unit := do
  rejectIf (proof.length ≠ 64) "Identity unavailable"
  rejectIf (¬ verify (stable.toList.drop 32) transcript proof) "Identity unavailable"

def parseCredential (identity : SigningIdentity) : Except String CredentialParts :=
  -- A name of other bytes than UTF-8 has none of the bytes of a name either.
  mapErr "invalid MLS identity" do
    let custom ← okOr identity.custom "invalid MLS identity"
    rejectIf (custom.1 ≠ credentialType) "invalid MLS identity"
    let data := custom.2
    rejectIf (1024 < data.length ∨ data.length < 64 + 8) "invalid MLS identity"
    match ← decodeCanonicalFields (data.take (data.length - 64)) credentialMagic with
    | [version, name, roomId, nodeContext, groupId, stable, key] => do
      rejectIf (version ≠ [UInt8.ofNat mlsProtocolVersion.toNat] ∨ name = [] ∨ roomId = [] ∨
        identity.signatureKey ≠ key) "invalid MLS identity"
      let groupId ← okOr (exactly 32 groupId) "invalid MLS identity"
      let stableIdentity ← okOr (exactly 64 stable) "invalid MLS identity"
      let mlsPublic ← okOr (exactly 32 key) "invalid MLS identity"
      let username ← canonicalUsername name
      mlsValidateRoomId roomId
      validateNodeContext nodeContext
      let proof ← okOr (exactly 64 (data.drop (data.length - 64))) "invalid MLS identity"
      rejectIf (stable.all (· = 0) ∨ key.all (· = 0)) "invalid MLS identity"
      let transcript ←
        credentialTranscript username roomId nodeContext groupId stableIdentity mlsPublic
      verifyStableSignature verify stableIdentity transcript proof.toList
      .ok ⟨username, nodeContext, roomId, groupId, stableIdentity, mlsPublic, proof⟩
    | _ => .error "invalid MLS identity"

end

namespace CredentialParts

variable (parts : CredentialParts)

def encode : Except String Bytes :=
  encodeCredential parts.username parts.roomId parts.nodeContext parts.groupId.toList
    parts.stableIdentity parts.mlsPublic parts.proof.toList

def transcript : Except String Bytes :=
  credentialTranscript parts.username parts.roomId parts.nodeContext parts.groupId
    parts.stableIdentity parts.mlsPublic

def fields (name : Text) : List Bytes :=
  [[UInt8.ofNat mlsProtocolVersion.toNat], name, parts.roomId, parts.nodeContext,
    parts.groupId.toList, parts.stableIdentity.toList, parts.mlsPublic.toList]

def spelled (name : Text) : Bytes :=
  lengthPrefixed credentialMagic ++ be 4 7 ++ canonicalParts (parts.fields name)

def Nonzero : Prop :=
  ¬ parts.stableIdentity.toList.all (· = 0) ∧ ¬ parts.mlsPublic.toList.all (· = 0)

end CredentialParts

theorem decodeCanonicalFields_eq_ok {data domain : Bytes} {fields : List Bytes} :
    decodeCanonicalFields data domain = .ok fields ↔ Short domain ∧ fields.length ≤ 16 ∧
      (∀ p ∈ fields, Short p) ∧
      data = lengthPrefixed domain ++ be 4 fields.length ++ canonicalParts fields := by
  constructor
  · intro h
    obtain ⟨-, h⟩ := rejectIf_bind.mp h
    obtain ⟨label, hlabel, h⟩ := okOr_bind.mp h
    obtain ⟨hdomain, h⟩ := rejectIf_bind.mp h
    obtain ⟨hfour, h⟩ := rejectIf_bind.mp h
    obtain ⟨hcount, h⟩ := rejectIf_bind.mp h
    obtain ⟨read, hread, h⟩ := okOr_bind.mp h
    obtain ⟨hend, h⟩ := rejectIf_bind.mp h
    cases h
    obtain ⟨hshort, rfl⟩ := takePart_eq_some.mp hlabel
    obtain ⟨hlength, hparts, hrest⟩ := takeParts_eq_some.mp hread
    rw [not_not] at hdomain hend
    rw [hend, append_nil] at hrest
    refine ⟨hdomain ▸ hshort, hlength ▸ Nat.not_lt.mp hcount, hparts, ?_⟩
    rw [hdomain, hlength, be_ofBe (length_take_of_le (Nat.not_lt.mp hfour)), ← hrest,
      append_assoc, take_append_drop]
  · rintro ⟨hdomain, hcount, hshort, rfl⟩
    have htake : (be 4 fields.length ++ canonicalParts fields).take 4 = be 4 fields.length :=
      take_left' (length_be 4 _)
    have hlength : ofBe (be 4 fields.length) = fields.length := by
      rw [ofBe_be]
      exact Nat.mod_eq_of_lt (by omega)
    rw [append_assoc]
    refine rejectIf_bind.mpr ⟨?_, okOr_bind.mpr ⟨_, takePart_eq_some.mpr ⟨hdomain, rfl⟩,
      rejectIf_bind.mpr ⟨not_not_intro rfl, rejectIf_bind.mpr ⟨?_, rejectIf_bind.mpr ⟨?_,
      okOr_bind.mpr ⟨(fields, []), takeParts_eq_some.mpr ⟨?_, hshort, ?_⟩,
      rejectIf_bind.mpr ⟨not_not_intro rfl, rfl⟩⟩⟩⟩⟩⟩⟩
    · simp only [length_append, length_lengthPrefixed, length_be]
      omega
    · simp only [length_append, length_be]
      omega
    · rw [htake, hlength]
      omega
    · rw [htake, hlength]
    · rw [drop_left' (length_be 4 _), append_nil]

variable {data domain : Bytes} {cursor count len : Nat}

theorem slice_bind {α : Type} {f : Bytes → Except FieldError α} (h : cursor + len ≤ data.length) :
    (slice data cursor len >>= f) = f ((data.drop cursor).take len) := by
  rw [slice, if_pos h]
  rfl

theorem fieldsAt_eq (h : cursor ≤ data.length) :
    fieldsAt data count cursor =
      (orRefuse (takeParts count (data.drop cursor)) (.refused "Room unavailable")).map
        fun read => (read.1, data.length - read.2.length) := by
  induction count generalizing cursor with
  | zero =>
    have hcursor : data.length - (data.drop cursor).length = cursor := by
      rw [length_drop]
      omega
    exact congrArg (fun n => Except.ok ([], n)) hcursor.symm
  | succ count ih =>
    rw [fieldsAt, takeParts, takePart, refuseIf_bind]
    by_cases hfour : data.length < cursor + 4
    · rw [if_pos hfour, if_pos (.inl (by rw [length_drop]; omega))]
      rfl
    rw [if_neg hfour, slice_bind (by omega), refuseIf_bind, drop_drop, length_drop, length_drop]
    generalize ofBe _ = len
    by_cases hlen : data.length - (cursor + 4) < len
    · rw [if_pos hlen, if_pos (.inr hlen)]
      rfl
    rw [if_neg hlen, slice_bind (by omega), ih (by omega), if_neg (by omega), drop_drop]
    dsimp only [Option.bind_some]
    cases takeParts count (data.drop (cursor + 4 + len)) <;> rfl

theorem rejectIf_bind_eq {α : Type} {c : Prop} [Decidable c] {reason : String}
    {f : Unit → Except String α} :
    (rejectIf c reason >>= f) = if c then .error reason else f () := refuseIf_bind

theorem decodeCanonicalFieldsAt_eq (data domain : Bytes) :
    decodeCanonicalFieldsAt data domain =
      (decodeCanonicalFields data domain).mapError .refused := by
  rw [decodeCanonicalFieldsAt, decodeCanonicalFields, refuseIf_bind, rejectIf_bind_eq]
  by_cases height : data.length < 8
  · rw [if_pos height, if_pos height]
    rfl
  rw [if_neg height, if_neg height, slice_bind (by omega), takePart, refuseIf_bind, drop_zero,
    length_drop]
  generalize ofBe (data.take 4) = n
  by_cases hlong : data.length < 4 + n
  · rw [if_pos (.inr hlong), if_pos (.inr (by omega))]
    rfl
  rw [slice_bind (by omega), if_neg (show ¬ (data.length < 4 ∨ data.length - 4 < n) by omega)]
  change _ = Except.mapError _ (rejectIf ((data.drop 4).take n ≠ domain) _ >>= _)
  rw [refuseIf_bind, rejectIf_bind_eq]
  by_cases hdomain : (data.drop 4).take n = domain
  swap
  · rw [if_pos hdomain, if_pos hdomain, ite_self]
    rfl
  have hn : domain.length = n := by
    rw [← hdomain]
    exact length_take_of_le (by rw [length_drop]; omega)
  rw [if_neg (by omega), if_neg (not_not_intro hdomain), if_neg (not_not_intro hdomain),
    refuseIf_bind, rejectIf_bind_eq, drop_drop, length_drop]
  by_cases hfour : data.length < 4 + n + 4
  · rw [if_pos hfour, if_pos (by omega)]
    rfl
  rw [if_neg hfour, if_neg (by omega), slice_bind (by omega), refuseIf_bind, rejectIf_bind_eq,
    fieldsAt_eq (by omega), drop_drop]
  generalize ofBe _ = count
  by_cases hcount : 16 < count
  · rw [if_pos hcount, if_pos hcount]
    rfl
  rw [if_neg hcount, if_neg hcount]
  cases takeParts count (data.drop (4 + n + 4)) with
  | none => rfl
  | some read =>
    obtain ⟨fields, rest⟩ := read
    have hend : data.length - rest.length ≠ data.length ↔ rest ≠ [] := by
      rw [ne_eq, ne_eq, ← length_eq_zero_iff]
      omega
    change (refuseIf (data.length - rest.length ≠ data.length) _ >>= _) =
      (rejectIf (rest ≠ []) _ >>= _).mapError _
    rw [refuseIf_bind, rejectIf_bind_eq]
    simp only [hend]
    split_ifs <;> rfl

theorem canonicalFields_inverse :
    (∀ domain fields data, canonicalFields domain fields = .ok data →
      decodeCanonicalFieldsAt data domain = .ok fields ∧ ∀ other, other ≠ domain →
        ∃ reason, decodeCanonicalFieldsAt data other = .error (.refused reason)) ∧
    (∀ data domain fields, data.length ≤ maxStateBytes → domain ≠ [] →
      decodeCanonicalFieldsAt data domain = .ok fields → canonicalFields domain fields = .ok data) ∧
    ∀ data domain, decodeCanonicalFieldsAt data domain ≠ .error .outside := by
  simp only [decodeCanonicalFieldsAt_eq]
  refine ⟨fun domain fields data h => ?_, fun data domain fields hmax hdomain h => ?_,
    fun data domain => ?_⟩
  · obtain ⟨⟨-, hdomain, hcount⟩, hshort, -, hdata⟩ := canonicalFields_eq_ok.mp h
    rw [decodeCanonicalFields_eq_ok.mpr ⟨hdomain, hcount, hshort, hdata⟩]
    refine ⟨rfl, fun other hother => ?_⟩
    cases hread : decodeCanonicalFields data other with
    | error reason => exact ⟨reason, rfl⟩
    | ok fields' =>
      obtain ⟨hshort', -, -, hdata'⟩ := decodeCanonicalFields_eq_ok.mp hread
      rw [append_assoc] at hdata hdata'
      have hpart := takePart_eq_some.mpr ⟨hdomain, hdata⟩
      rw [takePart_eq_some.mpr ⟨hshort', hdata'⟩] at hpart
      exact absurd (Prod.mk.inj (Option.some.inj hpart)).1 hother
  · cases hread : decodeCanonicalFields data domain with
    | error => rw [hread] at h; cases h
    | ok fields =>
      rw [hread] at h
      cases h
      obtain ⟨hshort, hcount, hfields, hdata⟩ := decodeCanonicalFields_eq_ok.mp hread
      exact canonicalFields_eq_ok.mpr ⟨⟨hdomain, hshort, hcount⟩, hfields, .inr hmax, hdata⟩
  · cases decodeCanonicalFields data domain <;> nofun

variable {verify : Bytes → Bytes → Bytes → Bool} {identity : SigningIdentity}
  {parts : CredentialParts} {name transcript : Bytes}

theorem CredentialParts.transcript_ok (h : parts.transcript = .ok transcript) :
    transcript = parts.spelled parts.username ∧ parts.username.length ≤ 64 ∧
      (parts.roomId ≠ [] ∧ parts.roomId.length ≤ 128) ∧ parts.nodeContext.length ≤ 512 := by
  obtain ⟨husername, h⟩ := rejectIf_bind.mp h
  obtain ⟨hroom, h⟩ := rejectIf_bind.mp h
  obtain ⟨hcontext, h⟩ := rejectIf_bind.mp h
  simp only [not_or, Nat.not_lt] at husername hroom hcontext
  obtain ⟨-, -, -, hspelled⟩ := canonicalFields_eq_ok.mp h
  exact ⟨hspelled, husername.2.1, ⟨hroom.1, hroom.2.1⟩, hcontext.2.1⟩

theorem CredentialParts.length_spelled (parts : CredentialParts) (name : Text) :
    (parts.spelled name).length =
      187 + name.length + parts.roomId.length + parts.nodeContext.length := by
  have hmagic : credentialMagic.length = 22 := rfl
  simp only [spelled, fields, canonicalParts_cons, canonicalParts_nil, length_append,
    length_lengthPrefixed, length_be, hmagic, length_cons, length_nil,
    Vector.length_toList]
  omega

theorem CredentialParts.cut_spelled (parts : CredentialParts) (name : Text) :
    (parts.spelled name ++ parts.proof.toList).length - 64 = (parts.spelled name).length := by
  rw [length_append, Vector.length_toList, Nat.add_sub_cancel]

theorem CredentialParts.encode_eq (h : parts.transcript = .ok transcript) :
    parts.encode = .ok (parts.spelled parts.username ++ parts.proof.toList) := by
  obtain ⟨rfl, husername, hroom, hcontext⟩ := transcript_ok h
  refine rejectIf_bind.mpr ⟨not_not_intro parts.proof.length_toList, okOr_bind.mpr
    ⟨parts.groupId, exactly_eq_some.mpr rfl, bind_eq_ok.mpr ⟨_, h, rejectIf_bind.mpr ⟨?_, rfl⟩⟩⟩⟩
  rw [length_append, length_spelled, Vector.length_toList]
  omega

theorem CredentialParts.decode_spelled (hname : name.length ≤ 64)
    (hroom : parts.roomId.length ≤ 128) (hcontext : parts.nodeContext.length ≤ 512) :
    decodeCanonicalFields (parts.spelled name) credentialMagic = .ok (parts.fields name) := by
  refine decodeCanonicalFields_eq_ok.mpr ⟨by decide, (by decide : 7 ≤ 16), ?_, rfl⟩
  simp only [fields, forall_mem_cons, Short, Vector.length_toList]
  exact ⟨by decide, by omega, by omega, by omega, by decide, by decide, by decide,
    fun _ h => absurd h not_mem_nil⟩

structure Read (verify : Bytes → Bytes → Bytes → Bool) (identity : SigningIdentity)
    (parts : CredentialParts) (name transcript : Bytes) : Prop where
  key : identity.signatureKey = parts.mlsPublic.toList
  data : identity.custom = some (credentialType, parts.spelled name ++ parts.proof.toList)
  username : canonicalUsername name = .ok parts.username
  written : parts.transcript = .ok transcript
  verified : verify (parts.stableIdentity.toList.drop 32) transcript parts.proof.toList = true
  nonzero : parts.Nonzero

theorem parseCredential_eq_ok :
    parseCredential verify identity = .ok parts ↔
      ∃ name transcript, Read verify identity parts name transcript := by
  unfold parseCredential
  rw [Client.mapErr_eq_ok]
  constructor
  · intro h
    obtain ⟨⟨type, data⟩, hcustom, h⟩ := okOr_bind.mp h
    obtain ⟨htype, h⟩ := rejectIf_bind.mp h
    obtain ⟨hlength, h⟩ := rejectIf_bind.mp h
    obtain ⟨fields, hfields, h⟩ := bind_eq_ok.mp h
    obtain ⟨-, -, -, hdata⟩ := decodeCanonicalFields_eq_ok.mp hfields
    split at h
    case h_2 => cases h
    case h_1 version name roomId nodeContext groupId stable key =>
      obtain ⟨hfirst, h⟩ := rejectIf_bind.mp h
      obtain ⟨groupId, hgroup, h⟩ := okOr_bind.mp h
      obtain ⟨stable, hstable, h⟩ := okOr_bind.mp h
      obtain ⟨key, hkey, h⟩ := okOr_bind.mp h
      obtain ⟨username, hname, h⟩ := bind_eq_ok.mp h
      obtain ⟨_, -, h⟩ := bind_eq_ok.mp h
      obtain ⟨_, -, h⟩ := bind_eq_ok.mp h
      obtain ⟨proof, hproof, h⟩ := okOr_bind.mp h
      obtain ⟨hzero, h⟩ := rejectIf_bind.mp h
      obtain ⟨transcript, htranscript, h⟩ := bind_eq_ok.mp h
      obtain ⟨_, hverify, h⟩ := bind_eq_ok.mp h
      cases h
      obtain ⟨-, hverify⟩ := rejectIf_bind.mp hverify
      rw [exactly_eq_some] at hgroup hstable hkey hproof
      subst hgroup hstable hkey
      simp only [not_or, ne_eq, not_not] at hfirst hzero htype
      obtain ⟨rfl, -, -, hsigned⟩ := hfirst
      refine ⟨name, transcript, hsigned, ?_, hname, htranscript,
        not_not.mp (rejectIf_eq_ok.mp hverify), hzero⟩
      rw [hcustom, htype, hproof]
      exact congrArg (fun bytes => some (credentialType, bytes))
        ((take_append_drop _ data).symm.trans (congrArg (· ++ _) hdata))
  · rintro ⟨name, transcript, hread⟩
    obtain ⟨-, -, hroom, hcontext⟩ := CredentialParts.transcript_ok hread.written
    obtain ⟨hname, -⟩ := rejectIf_bind.mp hread.username
    simp only [not_or, Nat.not_lt] at hname
    obtain ⟨-, -, hwritten⟩ := bind_eq_ok.mp hread.written
    obtain ⟨⟨⟩, hroomId, hwritten⟩ := bind_eq_ok.mp hwritten
    obtain ⟨⟨⟩, hnode, -⟩ := bind_eq_ok.mp hwritten
    have hlength := parts.length_spelled name
    refine okOr_bind.mpr ⟨_, hread.data, rejectIf_bind.mpr ⟨not_not_intro rfl, rejectIf_bind.mpr
      ⟨?_, bind_eq_ok.mpr ⟨parts.fields name, ?_, ?_⟩⟩⟩⟩
    · rw [length_append, Vector.length_toList, hlength]
      omega
    · rw [parts.cut_spelled, take_left]
      exact CredentialParts.decode_spelled hname.2.1 hroom.2 hcontext
    · refine rejectIf_bind.mpr ⟨?_, okOr_bind.mpr ⟨parts.groupId, exactly_eq_some.mpr rfl,
        okOr_bind.mpr ⟨parts.stableIdentity, exactly_eq_some.mpr rfl, okOr_bind.mpr
        ⟨parts.mlsPublic, exactly_eq_some.mpr rfl, bind_eq_ok.mpr ⟨_, hread.username,
        bind_eq_ok.mpr ⟨(), hroomId, bind_eq_ok.mpr ⟨(), hnode, okOr_bind.mpr ⟨parts.proof,
        exactly_eq_some.mpr ?_, rejectIf_bind.mpr ⟨not_or.mpr hread.nonzero, bind_eq_ok.mpr
        ⟨transcript, hread.written, bind_eq_ok.mpr ⟨(), ?_, rfl⟩⟩⟩⟩⟩⟩⟩⟩⟩⟩⟩
      · simp only [not_or, not_not, ne_eq]
        exact ⟨trivial, hname.1, hroom.1, hread.key⟩
      · rw [parts.cut_spelled, drop_left]
      · exact rejectIf_bind.mpr ⟨not_not_intro parts.proof.length_toList,
          rejectIf_eq_ok.mpr (not_not_intro hread.verified)⟩

theorem credential_encoding (verify : Bytes → Bytes → Bytes → Bool) :
    (∀ identity parts, parseCredential verify identity = .ok parts →
      ∃ data version name rest, identity.custom = some (credentialType, data) ∧
        decodeCanonicalFields (data.take (data.length - 64)) credentialMagic =
          .ok (version :: name :: rest) ∧
        (parts.encode = .ok data ↔ toAsciiLowercase name = name)) ∧
    ∀ parts transcript, canonicalUsername parts.username = .ok parts.username →
      parts.transcript = .ok transcript →
      verifyStableSignature verify parts.stableIdentity transcript parts.proof.toList = .ok () →
      ∃ data, parts.encode = .ok data ∧
        (parseCredential verify ⟨some (credentialType, data), parts.mlsPublic.toList⟩ = .ok parts ↔
          parts.Nonzero) := by
  constructor
  · intro identity parts h
    obtain ⟨name, transcript, hread⟩ := parseCredential_eq_ok.mp h
    obtain ⟨-, husername, hroom, hcontext⟩ := CredentialParts.transcript_ok hread.written
    obtain ⟨hname, hlower⟩ := rejectIf_bind.mp hread.username
    have hlower : toAsciiLowercase name = parts.username := Except.ok.inj hlower
    simp only [not_or, Nat.not_lt] at hname
    have hdecode := CredentialParts.decode_spelled hname.2.1 hroom.2 hcontext
    have hcut : decodeCanonicalFields ((parts.spelled name ++ parts.proof.toList).take
        ((parts.spelled name ++ parts.proof.toList).length - 64)) credentialMagic =
        .ok (parts.fields name) := by
      rw [parts.cut_spelled, take_left]
      exact hdecode
    refine ⟨_, _, name, _, hread.data, hcut, ?_⟩
    rw [CredentialParts.encode_eq hread.written, Except.ok.injEq, append_left_inj, hlower]
    -- The other fields are spelled alike, so the bytes tell no more than the name.
    constructor
    · intro hspelled
      rw [← hspelled, CredentialParts.decode_spelled husername hroom.2 hcontext] at hdecode
      have hfields := congrArg (fun fields => fields[1]?) (Except.ok.inj hdecode)
      exact Option.some.inj hfields
    · intro hname
      rw [hname]
  · intro parts transcript hname htranscript hverify
    obtain ⟨-, hverify⟩ := rejectIf_bind.mp hverify
    refine ⟨_, CredentialParts.encode_eq htranscript, fun h => ?_, fun hnonzero => ?_⟩
    · obtain ⟨_, _, hread⟩ := parseCredential_eq_ok.mp h
      exact hread.nonzero
    · exact parseCredential_eq_ok.mpr ⟨_, _, rfl, rfl, hname, htranscript,
        not_not.mp (rejectIf_eq_ok.mp hverify), hnonzero⟩

/-! A credential that spells its name with a capital, with a proof for the name in lower case. -/

def signed : CredentialParts :=
  ⟨ascii "alice", ascii "node", ascii "room", .replicate 32 1, .replicate 64 1, .replicate 32 1,
    .replicate 64 1⟩

def signs (_ message _ : Bytes) : Bool := message = signed.spelled (ascii "alice")

theorem capital_accepted : ∃ identity data, identity.custom = some (credentialType, data) ∧
    parseCredential signs identity = .ok signed ∧ signed.encode ≠ .ok data := by
  have hwritten : signed.transcript = .ok (signed.spelled (ascii "alice")) := by decide +kernel
  refine ⟨⟨_, _⟩, _, rfl, parseCredential_eq_ok.mpr ⟨ascii "Alice", _, rfl, rfl, by rfl, hwritten,
    decide_eq_true rfl, by decide, by decide⟩, ?_⟩
  rw [CredentialParts.encode_eq hwritten]
  decide

end Abyssal.Mls
