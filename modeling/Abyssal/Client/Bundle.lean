import Abyssal.Base.Bytes
import Abyssal.Rooms.Validation

/-! The public identity bundle of protocol v9: the account's Curve25519 and Ed25519 identity keys,
sixteen one-time keys in the order of their ids, and the fallback key. Curve arithmetic and SHA-256
are parameters. -/

namespace Abyssal.Client

def identityFingerprintBytes : Nat := 64
def oneTimeKeyBytes : Nat := 32
def prekeyPoolSize : Nat := 16
def oneTimeKeyOffset : Nat := identityFingerprintBytes
def fallbackKeyOffset : Nat := oneTimeKeyOffset + prekeyPoolSize * oneTimeKeyBytes
def identityPublicBytes : Nat := fallbackKeyOffset + 32

structure KeyChecks where
  sha256 : Bytes → Bytes
  contributory : Bytes → Bool
  edwardsKey : Bytes → Bool

def hexDigit (n : Nat) : UInt8 := UInt8.ofNat (if n < 10 then 48 + n else 87 + n)

def hex (bytes : Bytes) : Text :=
  bytes.flatMap fun b => [hexDigit (b.toNat / 16), hexDigit (b.toNat % 16)]

variable (keys : KeyChecks)

def prekeyIdForPublic (publicKey : Bytes) : Text :=
  hex ((keys.sha256 (canonicalParts [ascii "ABYSSAL_PREKEY_ID_V1", publicKey])).take 16)

def chunksExact (size : Nat) : Nat → Bytes → List Bytes
  -- Exact chunks of `size` bytes; a shorter rest is left out.
  | 0, _ => []
  | count + 1, bytes => bytes.take size :: chunksExact size count (bytes.drop size)

def oneTimeKeys (publicKey : Bytes) : List Bytes :=
  chunksExact oneTimeKeyBytes prekeyPoolSize (publicKey.drop oneTimeKeyOffset)

def checkPool (prekeyId : Option Text) :
    Option Text → Bool → List Bytes → Except String Bool
  -- The pool in order; whether the expected id is among them.
  | _, selected, [] => .ok selected
  | previous, selected, key :: pool => do
    let id := prekeyIdForPublic keys key
    rejectIf (previous.any fun value => id ≤ value) "Identity unavailable"
    rejectIf (¬ keys.contributory key) "Identity unavailable"
    checkPool prekeyId (some id) (selected || prekeyId.any (· = id)) pool

def validateIdentityPublicBundle (publicKey : Bytes) (prekeyId : Option Text) :
    Except String Unit := do
  rejectIf (publicKey.length ≠ identityPublicBytes) "Identity unavailable"
  let identityCurve := publicKey.take 32
  let identityEd := (publicKey.drop 32).take 32
  let fallback := publicKey.drop fallbackKeyOffset
  rejectIf (identityCurve.all (· = 0) ∨ identityEd.all (· = 0) ∨ fallback.all (· = 0))
    "Identity unavailable"
  rejectIf (¬ keys.contributory identityCurve ∨ ¬ keys.contributory fallback) "Identity unavailable"
  rejectIf (¬ keys.edwardsKey identityEd) "Identity unavailable"
  let selected ← checkPool keys prekeyId none false (oneTimeKeys publicKey)
  rejectIf (prekeyId.isSome ∧ ¬ selected) "Identity unavailable"

def prekeyIdsFromIdentityPublic (publicKey : Bytes) : Except String (List Text) := do
  validateIdentityPublicBundle keys publicKey none
  .ok ((oneTimeKeys publicKey).map (prekeyIdForPublic keys))

def selectedPrekeyPublic (publicKey : Bytes) (prekeyId : Text) : Except String Bytes := do
  validateIdentityPublicBundle keys publicKey (some prekeyId)
  okOr ((oneTimeKeys publicKey).find? fun key => prekeyIdForPublic keys key = prekeyId)
    "Recipient unavailable"

end Abyssal.Client
