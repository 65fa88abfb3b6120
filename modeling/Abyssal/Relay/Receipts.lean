import Abyssal.Rooms.Model
import Mathlib.Data.Finset.Card

/-! What the relay's stores of receipts have in common: keys, states, and the expiry of cached
entries, each of which is charged the size of one record. -/

namespace Abyssal.Relay

/-- The order in which a hash map is visited. The language leaves it open. -/
structure VisitOrder (K : Type) where
  visit : List K → List K
  perm : ∀ keys, (visit keys).Perm keys

def VisitOrder.byKey {K : Type} : VisitOrder K := ⟨id, fun _ => .refl _⟩

/-- The channel on which handlers of the same request wait for the response is left out. -/
inductive ReceiptState
  | inFlight
  | complete (response : Bytes)
  deriving DecidableEq

abbrev Digest := Vector UInt8 32

structure ReceiptKey where
  sessionId : Vector UInt8 32
  handle : Vector UInt8 16
  deriving DecidableEq

instance : LinearOrder ReceiptKey :=
  LinearOrder.lift' (fun key => toLex (key.sessionId, key.handle)) fun a b h => by
    cases a
    cases b
    simp_all

/-- What an owner of a handle holds: it may complete the request with the digest under the
generation. -/
structure Grant where
  key : ReceiptKey
  digest : Digest
  generation : Nat
  deriving DecidableEq

structure Answer where
  grant : Grant
  response : Bytes
  deriving DecidableEq

variable {K R : Type} [LinearOrder K]

def expiredKeys (createdAtMs : R → Nat) (ttlMs : Nat) (entries : OrdMap K R) (now : Nat) : List K :=
  (entries.filter fun _ receipt => ttlMs ≤ now - createdAtMs receipt).keys

theorem charge_erase {entries : OrdMap K R} {used bytes : Nat} {key : K} {receipt : R}
    (hused : used = entries.size * bytes) (hentry : entries.get? key = some receipt) :
    used - bytes = (entries.erase key).size * bytes := by
  rw [hused, ← OrdMap.size_erase_add hentry, Nat.add_mul, Nat.one_mul, Nat.add_sub_cancel]

theorem charge_insert {entries : OrdMap K R} {used bytes : Nat} {key : K} (receipt : R)
    (hused : used = entries.size * bytes) (hentry : entries.get? key = none) :
    used + bytes = (entries.insert key receipt).size * bytes := by
  rw [hused, OrdMap.size_insert_new hentry, Nat.add_mul, Nat.one_mul]

end Abyssal.Relay
