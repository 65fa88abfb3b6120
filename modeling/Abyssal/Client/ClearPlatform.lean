import Abyssal.Base.Codec
import Abyssal.Client.Platform

/-! A platform that keeps nothing secret: messages carry their plaintext, and the keys are numbered.
It meets everything that is asked of a platform, and it can be run. -/

namespace Abyssal.Client.Clear

open List

structure Account where
  held : List Bytes
  next : Nat
  deriving DecidableEq

structure Session where
  id : Text
  remote : Bytes
  oneTimeKey : Bytes
  received : Bool
  deriving DecidableEq

def keyNumber (n : Nat) : Bytes := be 32 (n + 1)

def accountCodec : Codec Account :=
  (Codec.bytes.list.pair Codec.nat).via (fun a => (a.held, a.next)) (fun v => ⟨v.1, v.2⟩)
    fun _ => rfl

def sessionCodec : Codec Session :=
  (Codec.bytes.pair (Codec.bytes.pair (Codec.bytes.pair Codec.nat))).via
    (fun v => (v.id, v.remote, v.oneTimeKey, v.received.toNat))
    (fun v => ⟨v.1, v.2.1, v.2.2.1, v.2.2.2 = 1⟩)
    fun v => by cases h : v.received <;> cases v <;> simp_all

def stateCodec : Codec StoredE2eeState :=
  (Codec.nat.pair (Codec.bytes.pair ((Codec.bytes.pair Codec.bytes).list.pair
    (Codec.bytes.pair ((Codec.bytes.pair Codec.bytes.list).list.pair
      (Codec.bytes.pair Codec.bytes).list))))).via
    (fun v => (v.revision, v.fallbackPublic, v.prekeys.map fun k => (k.id, k.publicKey), v.account,
      v.peers.map fun p => (p.peer, p.sessions), v.sessionPrekeys.entries))
    (fun v => ⟨v.1, v.2.1, v.2.2.1.map fun k => ⟨k.1, k.2⟩, v.2.2.2.1,
      v.2.2.2.2.1.map fun p => ⟨p.1, p.2⟩, .ofList v.2.2.2.2.2⟩)
    fun v => by simp [map_map, Function.comp_def, OrdMap.ofList_entries]

def generate (account : Account) (count : Nat) : GeneratedKeys × Account :=
  let created := (List.range count).map fun i => keyNumber (account.next + i)
  (⟨created, []⟩, ⟨account.held ++ created, account.next + count⟩)

def createInbound (account : Account) (identity : Bytes) (message : OlmMessage) :
    Option (Session × Bytes) × Account :=
  match message with
  | .preKey oneTimeKey id body =>
    if oneTimeKey ∈ account.held then
      (some (⟨id, identity, oneTimeKey, true⟩, body),
        { account with held := account.held.erase oneTimeKey })
    else (none, account)
  | .normal _ => (none, account)

def body : OlmMessage → Bytes
  | .preKey _ _ plain => plain
  | .normal plain => plain

def olm : Olm Account Session where
  newAccount _ := ⟨[], 0⟩
  generateFallbackKey account _ := account
  generateOneTimeKeys account count _ := generate account count
  markKeysAsPublished account := account
  curve25519 _ := List.replicate 32 1
  ed25519 _ := List.replicate 32 2
  oneTimeKeys account := account.held
  fallbackKey _ := [List.replicate 32 3]
  sign _ _ := List.replicate 64 0
  pickleAccount := accountCodec.encode
  accountFromPickle pickle := (accountCodec.read pickle).getD ⟨[], 0⟩
  pickledOneTimeKeys pickle := (accountCodec.read pickle).map (·.held)
  createOutboundSession _ identity oneTimeKey draw := some ⟨be 8 draw, identity, oneTimeKey, false⟩
  createInboundSession := createInbound
  sessionId session := session.id
  remoteIdentity session := session.remote
  hasReceivedMessage session := session.received
  encrypt session plain _ :=
    (some (if session.received then .normal plain else .preKey session.oneTimeKey session.id plain),
      session)
  decrypt session message := (some (body message), { session with received := true })
  pickleSession := sessionCodec.encode
  sessionFromPickle pickle := (sessionCodec.read pickle).getD ⟨[], [], [], false⟩
  length_curve25519 _ := length_replicate
  length_ed25519 _ := length_replicate
  account_pickle account := by rw [Codec.read_encode, Option.getD_some]
  session_pickle session := by rw [Codec.read_encode, Option.getD_some]
  curve25519_inbound _ _ _ := rfl
  ed25519_inbound _ _ _ := rfl
  curve25519_generate _ _ _ := rfl
  ed25519_generate _ _ _ := rfl
  curve25519_published _ := rfl
  ed25519_published _ := rfl
  remote_outbound h := by rw [← Option.some.inj h]
  remote_inbound {account identity message session plain} h := by
    cases message with
    | normal body => cases h
    | preKey oneTimeKey id body =>
      rw [createInbound] at h
      split_ifs at h
      cases h
      rfl
  remote_encrypt _ _ _ := rfl
  remote_decrypt _ _ := rfl
  id_encrypt _ _ _ := rfl
  id_decrypt _ _ := rfl

def fresh : Account := (generate ⟨[], 0⟩ prekeyPoolSize).2

theorem freshAccount_eq (draw : Nat) : olm.freshAccount draw = fresh := rfl

theorem pickledOneTimeKeys_pickle (account : Account) :
    olm.pickledOneTimeKeys (olm.pickleAccount account) = some account.held := by
  change (accountCodec.read (accountCodec.encode account)).map (·.held) = _
  rw [Codec.read_encode, Option.map_some]

def keys : KeyChecks where
  sha256 bytes := bytes.reverse.take 32
  contributory key := key.length = oneTimeKeyBytes
  edwardsKey _ := true

def encodeMessage : OlmMessage → Bytes
  | .preKey oneTimeKey id plain => 1 :: Codec.bytes.encode oneTimeKey ++ Codec.bytes.encode id ++ plain
  | .normal plain => 0 :: plain

def decodeMessage : Bytes → Option OlmMessage
  | 0 :: plain => some (.normal plain)
  | 1 :: bytes => (Codec.bytes.decode bytes).bind fun oneTimeKey =>
      (Codec.bytes.decode oneTimeKey.2).map fun id => .preKey oneTimeKey.1 id.1 id.2
  | _ => none

def platform : Platform Account Session where
  olm := olm
  keys := keys
  verify _ _ _ := true
  expand _ secret _ := secret.take 32
  aeadEncrypt _ _ _ plain := some (plain ++ List.replicate attachmentTagBytes 0)
  aeadDecrypt _ _ _ ciphertext := some (ciphertext.take (ciphertext.length - attachmentTagBytes))
  encodeMessage message := some (encodeMessage message)
  decodeMessage := decodeMessage
  encodeState stored := some (stateCodec.encode stored)
  decodeState := stateCodec.read
  readOrder peers := peers
  readOrder_perm _ := .refl _
  decode_encode h := by rw [← Option.some.inj h, Codec.read_encode]
  decrypt_encrypt h := by
    rw [← Option.some.inj h, length_append, length_replicate, Nat.add_sub_cancel,
      take_left']
    rfl
  length_encrypt h := by rw [← Option.some.inj h, length_append, length_replicate]
  fresh_keys draw := by
    rw [freshAccount_eq]
    decide
  fresh_curve25519 draw := by
    rw [freshAccount_eq]
    decide
  fresh_ed25519 draw := by
    rw [freshAccount_eq]
    decide
  fresh_material draw := ⟨_, pickledOneTimeKeys_pickle _, .refl _⟩

end Abyssal.Client.Clear
