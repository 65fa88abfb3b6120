import Abyssal.Rooms.Membership

/-! Weights of the stored records. Every checked byte count of the relay is the weight of
what it counts, wherever that weight is a word. -/

namespace Abyssal.Rooms

variable {n : Nat} {count : Option Nat} {limit : Nat}

theorem exceeds_eq_false : exceeds count limit = false ↔ ∃ n, count = some n ∧ n ≤ limit := by
  cases count <;> simp [exceeds]

theorem le_of_exceeds (h : exceeds count limit = false) (hn : count = some n) : n ≤ limit := by
  obtain ⟨m, hm, hle⟩ := exceeds_eq_false.mp h
  rw [hn] at hm
  exact Option.some.inj hm ▸ hle

def rosterWeight (roster : List RosterMember) : Nat :=
  (roster.map fun m => m.username.length + m.stableIdentity.length).sum

def snapshotWeight (snapshot : StateSnapshot) : Nat :=
  snapshot.stateEnvelope.length + rosterWeight snapshot.roster

def payloadWeight : DeliveryPayload → Nat
  | .membership _ fromMembershipDigest groupId roster control welcome authenticatedData =>
    fromMembershipDigest.length + groupId.length + rosterWeight roster + control.length +
      welcome.length + authenticatedData.length
  | .application _ senderUsername _ ciphertext authenticatedData =>
    codeIdBytes + senderUsername.length + ciphertext.length + authenticatedData.length

def deliveryWeight (d : PendingDelivery) : Nat :=
  d.roomId.length + d.messageId.length + d.membershipDigest.length + payloadWeight d.payload

def queueWeight (queue : List PendingDelivery) : Nat := (queue.map deliveryWeight).sum

def pendingWeight (pending : PendingApplication) : Nat :=
  pending.admission.ciphertext.length + pending.admission.authenticatedData.length +
    pending.admission.messageId.length

variable {total : Nat} {roster : List RosterMember}

theorem rosterSizeFrom_eq_some (ht : total ≤ wordMax) :
    rosterSizeFrom total roster = some n ↔
      total + rosterWeight roster ≤ wordMax ∧ n = total + rosterWeight roster := by
  induction roster generalizing total with
  | nil => simp [rosterSizeFrom, rosterWeight, ht, eq_comm]
  | cons m roster ih =>
    have hcons : rosterWeight (m :: roster) =
        m.username.length + m.stableIdentity.length + rosterWeight roster := by
      simp [rosterWeight]
    rw [rosterSizeFrom, checkedAdd_bind_eq_some, checkedAdd_bind_eq_some, hcons]
    constructor
    · rintro ⟨-, hle, hrest⟩
      have h := (ih hle).mp hrest
      omega
    · rintro ⟨hle, rfl⟩
      refine ⟨by omega, by omega, (ih (by omega)).mpr ⟨by omega, by omega⟩⟩

theorem rosterSize_eq_ok :
    rosterSize roster = .ok n ↔ rosterWeight roster ≤ wordMax ∧ n = rosterWeight roster := by
  rw [rosterSize, okOr_eq_ok, rosterSizeFrom_eq_some (Nat.zero_le _), Nat.zero_add]

theorem snapshotSize_eq_ok {snapshot : StateSnapshot} :
    snapshotSize snapshot = .ok n ↔
      snapshotWeight snapshot ≤ wordMax ∧ n = snapshotWeight snapshot := by
  simp only [snapshotSize, bind_eq_ok, rosterSize_eq_ok, okOr_eq_ok, checkedAdd_eq_some,
    snapshotWeight]
  constructor
  · rintro ⟨r, ⟨-, rfl⟩, h⟩
    exact h
  · rintro ⟨hle, rfl⟩
    exact ⟨_, ⟨by omega, rfl⟩, hle, rfl⟩

theorem payloadSize_eq_some {payload : DeliveryPayload} :
    payloadSize payload = some n ↔
      payloadWeight payload ≤ wordMax ∧ n = payloadWeight payload := by
  cases payload with
  | membership fromEpoch fromDigest groupId roster control welcome data =>
    simp only [payloadSize, payloadWeight, checkedAdd_bind_eq_some]
    have hroster : ∀ bytes k, ((rosterSizeFrom 0 roster).bind fun r => checkedAdd bytes r) = some k ↔
        bytes + rosterWeight roster ≤ wordMax ∧ k = bytes + rosterWeight roster := by
      intro bytes k
      rw [Option.bind_eq_some_iff]
      simp only [rosterSizeFrom_eq_some (Nat.zero_le _), checkedAdd_eq_some, Nat.zero_add]
      constructor
      · rintro ⟨r, ⟨-, rfl⟩, h⟩
        exact h
      · rintro ⟨hle, rfl⟩
        exact ⟨_, ⟨by omega, rfl⟩, hle, rfl⟩
    rw [Option.bind_eq_some_iff]
    simp only [hroster, checkedAdd_bind_eq_some, checkedAdd_eq_some]
    constructor
    · rintro ⟨-, bytes, ⟨-, rfl⟩, -, -, h⟩
      exact h
    · rintro ⟨hle, rfl⟩
      exact ⟨by omega, _, ⟨by omega, rfl⟩, by omega, by omega, hle, rfl⟩
  | application sender username platform ciphertext data =>
    simp only [payloadSize, payloadWeight, checkedAdd_bind_eq_some, checkedAdd_eq_some]
    constructor
    · rintro ⟨-, -, h⟩
      exact h
    · rintro ⟨hle, rfl⟩
      exact ⟨by omega, by omega, hle, rfl⟩

variable {d : PendingDelivery}

theorem deliverySize_eq_ok :
    deliverySize d = .ok n ↔ deliveryWeight d ≤ wordMax ∧ n = deliveryWeight d := by
  simp only [deliverySize, bind_eq_ok, okOr_eq_ok, payloadSize_eq_some, checkedAdd_bind_eq_some,
    checkedAdd_eq_some, deliveryWeight]
  constructor
  · rintro ⟨p, ⟨-, rfl⟩, -, -, h⟩
    exact h
  · rintro ⟨hle, rfl⟩
    exact ⟨_, ⟨by omega, rfl⟩, by omega, by omega, hle, rfl⟩

theorem addDelivery_eq_ok :
    addDelivery total d = .ok n ↔
      total + deliveryWeight d ≤ wordMax ∧ n = total + deliveryWeight d := by
  simp only [addDelivery, bind_eq_ok, deliverySize_eq_ok, okOr_eq_ok, checkedAdd_eq_some]
  constructor
  · rintro ⟨p, ⟨-, rfl⟩, h⟩
    exact h
  · rintro ⟨hle, rfl⟩
    exact ⟨_, ⟨by omega, rfl⟩, hle, rfl⟩

theorem deliveryBytes_eq_ok {queue : List PendingDelivery} {n : Nat} :
    deliveryBytes queue = .ok n ↔ queueWeight queue ≤ wordMax ∧ n = queueWeight queue := by
  have h := @foldChecked_add_eq_ok _ addDelivery deliveryWeight
    (fun total d n => addDelivery_eq_ok) 0 n queue (Nat.zero_le wordMax)
  rw [Nat.zero_add] at h
  exact h

theorem snapshotTotal_eq_ok {snapshots : List StateSnapshot} {n : Nat} :
    RelayRoom.snapshotTotal snapshots = .ok n ↔
      (snapshots.map snapshotWeight).sum ≤ wordMax ∧ n = (snapshots.map snapshotWeight).sum := by
  unfold RelayRoom.snapshotTotal
  rw [foldChecked_add_eq_ok (w := snapshotWeight) ?_ (Nat.zero_le wordMax), Nat.zero_add]
  intro total snapshot n
  simp only [bind_eq_ok, snapshotSize_eq_ok, okOr_eq_ok, checkedAdd_eq_some]
  constructor
  · rintro ⟨p, ⟨-, rfl⟩, h⟩
    exact h
  · rintro ⟨hle, rfl⟩
    exact ⟨_, ⟨by omega, rfl⟩, hle, rfl⟩

theorem addPending_eq_ok {pending : PendingApplication} :
    addPending total pending = .ok n ↔
      total + pendingWeight pending ≤ wordMax ∧ n = total + pendingWeight pending := by
  simp only [addPending, pendingApplicationBytes, bind_eq_ok, okOr_eq_ok, checkedAdd_bind_eq_some,
    checkedAdd_eq_some, pendingWeight]
  constructor
  · rintro ⟨p, ⟨-, -, rfl⟩, h⟩
    exact h
  · rintro ⟨hle, rfl⟩
    exact ⟨_, ⟨by omega, by omega, rfl⟩, hle, rfl⟩

theorem optionalSnapshotSize_eq_ok {snapshot : Option StateSnapshot}
    (h : optionalSnapshotSize snapshot = .ok n) : n = (snapshot.map snapshotWeight).getD 0 := by
  cases snapshot with
  | none =>
    cases h
    rfl
  | some snapshot => exact (snapshotSize_eq_ok.mp h).2

namespace RelayRoom

def pendingWeight (room : RelayRoom) : Nat :=
  room.pendingApplications.sum fun _ pending => Rooms.pendingWeight pending

def snapshotWeight (room : RelayRoom) : Nat :=
  room.snapshots.sum fun _ snapshot => Rooms.snapshotWeight snapshot

def joinWeight (room : RelayRoom) : Nat :=
  room.joins.sum fun _ join => join.stateEnvelope.length

def deliveryWeight (room : RelayRoom) : Nat :=
  room.deliveries.sum fun _ queue => queueWeight queue

def deliveryCount (room : RelayRoom) : Nat :=
  room.deliveries.sum fun _ queue => queue.length

end RelayRoom

end Abyssal.Rooms
