import Abyssal.Base.Desk
import Abyssal.Relay.Receipts

/-! The relay's receipts of control requests. A handle is marked as spent when it is reserved, and
stays so until the store is cleared; the cached responses expire on their own. -/

namespace Abyssal.Relay

open OrdMap

def controlRecordBytes : Nat := 4 + 1 + 1 + 32 + 16 + 4 + 4096 + 16
def controlReceiptTtlMs : Nat := 10 * 60 * 1000
def maxControlReceipts : Nat := 4096
def maxControlReceiptBytes : Nat := 32 * 1024 * 1024
def maxControlSpentHandles : Nat := 16384
def controlSpentHandleBytes : Nat := 32 + 16
def maxControlSpentHandleBytes : Nat := maxControlSpentHandles * controlSpentHandleBytes

structure ControlReceipt where
  requestDigest : Digest
  generation : Nat
  createdAtMs : Nat
  state : ReceiptState
  deriving DecidableEq

structure ControlReceiptStore where
  entries : OrdMap ReceiptKey ControlReceipt
  usedBytes : Nat
  generation : Nat
  spentHandles : Finset ReceiptKey
  spentHandleBytes : Nat

inductive ControlReceiptLookup
  | missing | mismatch | stale | spent | inFlight | complete (response : Bytes)
  deriving DecidableEq

inductive ControlReceiptReservation
  | owner (generation : Nat) | existing | mismatch | stale | spent | capacity
  deriving DecidableEq

namespace ControlReceiptStore

def new : ControlReceiptStore := ⟨.empty, 0, 0, ∅, 0⟩

def expire (self : ControlReceiptStore) (key : ReceiptKey) : ControlReceiptStore :=
  if self.entries.contains key then
    { self with
      entries := self.entries.erase key
      usedBytes := self.usedBytes - controlRecordBytes }
  else self

def prune (order : VisitOrder ReceiptKey) (self : ControlReceiptStore) (now : Nat) :
    ControlReceiptStore :=
  runFrom expire self (order.visit
    (expiredKeys (·.createdAtMs) controlReceiptTtlMs self.entries now))

def lookup (order : VisitOrder ReceiptKey) (self : ControlReceiptStore) (key : ReceiptKey)
    (requestDigest : Digest) (expectedGeneration now : Nat) :
    ControlReceiptStore × ControlReceiptLookup :=
  if self.generation ≠ expectedGeneration then (self, .stale)
  else
    let self := self.prune order now
    (self, match self.entries.get? key with
      | none => if key ∈ self.spentHandles then .spent else .missing
      | some receipt =>
        if receipt.requestDigest ≠ requestDigest then .mismatch
        else
          match receipt.state with
          | .inFlight => .inFlight
          | .complete response => .complete response)

def reserve (order : VisitOrder ReceiptKey) (self : ControlReceiptStore) (key : ReceiptKey)
    (requestDigest : Digest) (expectedGeneration now : Nat) :
    ControlReceiptStore × ControlReceiptReservation :=
  if self.generation ≠ expectedGeneration then (self, .stale)
  else
    let self := self.prune order now
    match self.entries.get? key with
    | some receipt =>
      (self, if receipt.requestDigest = requestDigest then .existing else .mismatch)
    | none =>
      if key ∈ self.spentHandles then (self, .spent)
      else
        match checkedAdd self.usedBytes controlRecordBytes with
        | none => (self, .capacity)
        | some nextUsedBytes =>
          if maxControlReceipts ≤ self.entries.size ∨ maxControlReceiptBytes < nextUsedBytes ∨
              maxControlSpentHandles ≤ self.spentHandles.card ∨
              (checkedAdd self.spentHandleBytes controlSpentHandleBytes).all
                (maxControlSpentHandleBytes < ·) then (self, .capacity)
          else
            ({ self with
                spentHandles := insert key self.spentHandles
                spentHandleBytes := self.spentHandleBytes + controlSpentHandleBytes
                entries := self.entries.insert key
                  ⟨requestDigest, self.generation, now, .inFlight⟩
                usedBytes := nextUsedBytes }, .owner self.generation)

def complete (order : VisitOrder ReceiptKey) (self : ControlReceiptStore) (key : ReceiptKey)
    (requestDigest : Digest) (generation : Nat) (response : Bytes) (now : Nat) :
    ControlReceiptStore :=
  let self := self.prune order now
  match self.entries.get? key with
  | none => self
  | some receipt =>
    if receipt.requestDigest ≠ requestDigest ∨ receipt.generation ≠ generation ∨
        response.length ≠ controlRecordBytes then self
    else
      { self with
        entries := self.entries.insert key
          { receipt with state := .complete response, createdAtMs := now } }

def clear (self : ControlReceiptStore) : ControlReceiptStore :=
  ⟨.empty, 0, (self.generation + 1) % 2 ^ 64, ∅, 0⟩

inductive Call
  | lookup (order : VisitOrder ReceiptKey) (key : ReceiptKey) (digest : Digest)
      (expectedGeneration now : Nat)
  | reserve (order : VisitOrder ReceiptKey) (key : ReceiptKey) (digest : Digest)
      (expectedGeneration now : Nat)
  | complete (order : VisitOrder ReceiptKey) (key : ReceiptKey) (digest : Digest) (generation : Nat)
      (response : Bytes) (now : Nat)
  | prune (order : VisitOrder ReceiptKey) (now : Nat)
  | clear

def step (s : ControlReceiptStore) : Call → ControlReceiptStore
  | .lookup order key digest expectedGeneration now =>
    (s.lookup order key digest expectedGeneration now).1
  | .reserve order key digest expectedGeneration now =>
    (s.reserve order key digest expectedGeneration now).1
  | .complete order key digest generation response now =>
    s.complete order key digest generation response now
  | .prune order now => s.prune order now
  | .clear => s.clear

def granted (s : ControlReceiptStore) : Call → Option Grant
  | .reserve order key digest expectedGeneration now =>
    match (s.reserve order key digest expectedGeneration now).2 with
    | .owner generation => some ⟨key, digest, generation⟩
    | _ => none
  | _ => none

def stored (s : ControlReceiptStore) : Call → Option Answer
  | .complete order key digest generation response now =>
    if (s.complete order key digest generation response now).entries.get? key =
        some ⟨digest, generation, now, .complete response⟩ then
      some ⟨⟨key, digest, generation⟩, response⟩
    else none
  | _ => none

def returned (s : ControlReceiptStore) : Call → Option Answer
  | .lookup order key digest expectedGeneration now =>
    match (s.lookup order key digest expectedGeneration now).2 with
    | .complete response => some ⟨⟨key, digest, expectedGeneration⟩, response⟩
    | _ => none
  | _ => none

def desk : Desk ControlReceiptStore Call ReceiptKey Grant Answer where
  start := new
  step := step
  granted := granted
  filed := stored
  returned := returned
  clears call := match call with
    | .clear => true
    | _ => false
  key := Grant.key
  grant := Answer.grant

structure Sound (s : ControlReceiptStore) : Prop where
  spent : ∀ key receipt, s.entries.get? key = some receipt → key ∈ s.spentHandles
  generation : ∀ key receipt, s.entries.get? key = some receipt → receipt.generation = s.generation
  used : s.usedBytes = s.entries.size * controlRecordBytes
  spentUsed : s.spentHandleBytes = s.spentHandles.card * controlSpentHandleBytes
  entries_le : s.entries.size ≤ maxControlReceipts
  used_le : s.usedBytes ≤ maxControlReceiptBytes
  spent_le : s.spentHandles.card ≤ maxControlSpentHandles
  spentUsed_le : s.spentHandleBytes ≤ maxControlSpentHandleBytes

structure Shrunk (s s' : ControlReceiptStore) : Prop where
  entries : ∀ key receipt, s'.entries.get? key = some receipt → s.entries.get? key = some receipt
  size : s'.entries.size ≤ s.entries.size
  used : s.usedBytes = s.entries.size * controlRecordBytes →
    s'.usedBytes = s'.entries.size * controlRecordBytes
  generation : s'.generation = s.generation
  spentHandles : s'.spentHandles = s.spentHandles
  spentHandleBytes : s'.spentHandleBytes = s.spentHandleBytes

variable {s : ControlReceiptStore} {order : VisitOrder ReceiptKey} {key : ReceiptKey} {digest : Digest}
  {generation now : Nat} {response : Bytes}
  {call : Call} {a : Answer} {s' : ControlReceiptStore} {g : Grant}

variable (s key) in
theorem shrunk_expire : s.Shrunk (s.expire key) := by
  unfold expire
  split_ifs with hcached
  · obtain ⟨receipt, hentry⟩ := contains_eq_true.mp hcached
    exact ⟨fun _ _ => get?_of_erase, size_filter_le _ _,
      fun hused => charge_erase hused hentry, rfl, rfl, rfl⟩
  · exact ⟨fun _ _ => id, le_rfl, id, rfl, rfl, rfl⟩

theorem Shrunk.trans {s'' : ControlReceiptStore} (h : s.Shrunk s') (h' : s'.Shrunk s'') :
    s.Shrunk s'' :=
  ⟨fun key receipt hr => h.entries key receipt (h'.entries key receipt hr), h'.size.trans h.size,
    fun hused => h'.used (h.used hused), h'.generation.trans h.generation,
    h'.spentHandles.trans h.spentHandles, h'.spentHandleBytes.trans h.spentHandleBytes⟩

variable (s order now) in
theorem shrunk_prune : s.Shrunk (s.prune order now) := by
  unfold prune
  induction order.visit _ generalizing s with
  | nil => exact ⟨fun _ _ => id, le_rfl, id, rfl, rfl, rfl⟩
  | cons key keys ih => exact (shrunk_expire s key).trans (ih _)

theorem Shrunk.sound (h : s.Shrunk s') (hs : s.Sound) : s'.Sound where
  spent key receipt hr := h.spentHandles ▸ hs.spent key receipt (h.entries key receipt hr)
  generation key receipt hr :=
    (hs.generation key receipt (h.entries key receipt hr)).trans h.generation.symm
  used := h.used hs.used
  spentUsed := by rw [h.spentHandleBytes, h.spentHandles, hs.spentUsed]
  entries_le := h.size.trans hs.entries_le
  used_le := by
    rw [h.used hs.used]
    exact (Nat.mul_le_mul_right _ h.size).trans (hs.used ▸ hs.used_le)
  spent_le := h.spentHandles ▸ hs.spent_le
  spentUsed_le := h.spentHandleBytes ▸ hs.spentUsed_le

theorem lookup_shrunk (s : ControlReceiptStore) :
    s.Shrunk (s.lookup order key digest generation now).1 := by
  unfold lookup
  split_ifs
  · exact ⟨fun _ _ => id, le_rfl, id, rfl, rfl, rfl⟩
  · exact shrunk_prune s order now

theorem lookup_complete
    (h : (s.lookup order key digest generation now).2 = .complete response) :
    s.generation = generation ∧ ∃ receipt, s.entries.get? key = some receipt ∧
      receipt.requestDigest = digest ∧ receipt.state = .complete response := by
  unfold lookup at h
  by_cases hstale : s.generation ≠ generation
  · rw [if_pos hstale] at h
    cases h
  rw [if_neg hstale] at h
  refine ⟨not_not.mp hstale, ?_⟩
  dsimp only at h
  split at h
  · split_ifs at h
  · rename_i receipt hentry
    by_cases hdigest : receipt.requestDigest ≠ digest
    · rw [if_pos hdigest] at h
      cases h
    · rw [if_neg hdigest] at h
      refine ⟨receipt, (shrunk_prune s order now).entries key receipt hentry, not_not.mp hdigest, ?_⟩
      split at h
      · cases h
      · rename_i r hstate
        rw [hstate, ControlReceiptLookup.complete.inj h]

variable (s order key digest generation now) in
theorem reserve_cases :
    ((∀ g, (s.reserve order key digest generation now).2 ≠ .owner g) ∧
      s.Shrunk (s.reserve order key digest generation now).1) ∨
    ∃ s', s.Shrunk s' ∧ (s.reserve order key digest generation now).2 = .owner s.generation ∧
      s'.entries.get? key = none ∧ key ∉ s'.spentHandles ∧
      s'.entries.size < maxControlReceipts ∧
      s'.usedBytes + controlRecordBytes ≤ maxControlReceiptBytes ∧
      s'.spentHandles.card < maxControlSpentHandles ∧
      s'.spentHandleBytes + controlSpentHandleBytes ≤ maxControlSpentHandleBytes ∧
      (s.reserve order key digest generation now).1 =
        { s' with
          spentHandles := insert key s'.spentHandles
          spentHandleBytes := s'.spentHandleBytes + controlSpentHandleBytes
          entries := s'.entries.insert key ⟨digest, s'.generation, now, .inFlight⟩
          usedBytes := s'.usedBytes + controlRecordBytes } := by
  have hshrunk := shrunk_prune s order now
  unfold reserve
  by_cases hstale : s.generation ≠ generation
  · rw [if_pos hstale]
    exact .inl ⟨fun g => by simp, fun _ _ => id, le_rfl, id, rfl, rfl, rfl⟩
  rw [if_neg hstale]
  dsimp only
  split
  · refine .inl ⟨fun g => ?_, hshrunk⟩
    split_ifs <;> simp
  rename_i hentry
  by_cases hspent : key ∈ (s.prune order now).spentHandles
  · rw [if_pos hspent]
    exact .inl ⟨fun g => by simp, hshrunk⟩
  rw [if_neg hspent]
  split
  · exact .inl ⟨fun g => by simp, hshrunk⟩
  rename_i next hnext
  obtain ⟨-, rfl⟩ := checkedAdd_eq_some.mp hnext
  split_ifs with hfull
  · exact .inl ⟨fun g => by simp, hshrunk⟩
  · simp only [not_or, not_le, not_lt] at hfull
    obtain ⟨hsize, hbytes, hcard, hspentBytes⟩ := hfull
    refine .inr ⟨s.prune order now, hshrunk, by rw [hshrunk.generation], hentry, hspent, hsize, hbytes,
      hcard, ?_, rfl⟩
    unfold checkedAdd at hspentBytes
    split_ifs at hspentBytes with hword
    · simpa using hspentBytes
    · simp at hspentBytes

theorem Sound.reserve (hs : s.Sound) : (s.reserve order key digest generation now).1.Sound := by
  rcases reserve_cases s order key digest generation now with
    ⟨-, hshrunk⟩ | ⟨s', hshrunk, -, hentry, hspent, hsize, hbytes, hcard, hspentBytes, heq⟩
  · exact hshrunk.sound hs
  have hs' := hshrunk.sound hs
  rw [heq]
  refine ⟨fun key' r hr => ?_, fun key' r hr => ?_, charge_insert _ hs'.used hentry, ?_, ?_, hbytes,
    ?_, hspentBytes⟩
  · rcases get?_insert_cases hr with ⟨rfl, rfl⟩ | ⟨-, hr⟩
    · exact Finset.mem_insert_self _ _
    · exact Finset.mem_insert_of_mem (hs'.spent key' r hr)
  · rcases get?_insert_cases hr with ⟨rfl, rfl⟩ | ⟨-, hr⟩
    · rfl
    · exact hs'.generation key' r hr
  · rw [Finset.card_insert_of_notMem hspent, Nat.add_mul, Nat.one_mul, hs'.spentUsed]
  · rw [size_insert_new hentry]
    exact hsize
  · rw [Finset.card_insert_of_notMem hspent]
    exact hcard

theorem complete_cases (s : ControlReceiptStore) (order : VisitOrder ReceiptKey) (key : ReceiptKey)
    (digest : Digest) (generation : Nat) (response : Bytes) (now : Nat) :
    s.complete order key digest generation response now = s.prune order now ∨
    ∃ receipt, (s.prune order now).entries.get? key = some receipt ∧
      receipt.requestDigest = digest ∧ receipt.generation = generation ∧
      s.complete order key digest generation response now =
        { s.prune order now with
          entries := (s.prune order now).entries.insert key
            ⟨digest, generation, now, .complete response⟩ } := by
  unfold complete
  dsimp only
  split
  · exact .inl rfl
  rename_i receipt hentry
  split_ifs with hother
  · exact .inl rfl
  · simp only [not_or, not_not, ne_eq] at hother
    obtain ⟨rfl, rfl, -⟩ := hother
    exact .inr ⟨receipt, hentry, rfl, rfl, rfl⟩

theorem Sound.complete (hs : s.Sound) :
    (s.complete order key digest generation response now).Sound := by
  have hp := (shrunk_prune s order now).sound hs
  rcases complete_cases s order key digest generation response now with
    heq | ⟨receipt, hentry, rfl, rfl, heq⟩ <;> rw [heq]
  · exact hp
  have hsize := @size_insert_of_get? _ _ _ _ key
    ⟨receipt.requestDigest, receipt.generation, now, .complete response⟩ _ hentry
  refine ⟨fun key' r hr => ?_, fun key' r hr => ?_, ?_, hp.spentUsed, ?_, hp.used_le, hp.spent_le,
    hp.spentUsed_le⟩
  · rcases get?_insert_cases hr with ⟨rfl, rfl⟩ | ⟨-, hr⟩
    · exact hp.spent key receipt hentry
    · exact hp.spent key' r hr
  · rcases get?_insert_cases hr with ⟨rfl, rfl⟩ | ⟨-, hr⟩
    · exact hp.generation key receipt hentry
    · exact hp.generation key' r hr
  · rw [hsize]
    exact hp.used
  · exact hsize.trans_le hp.entries_le

theorem sound_empty (generation : Nat) : Sound ⟨.empty, 0, generation, ∅, 0⟩ where
  spent _ _ h := by cases h
  generation _ _ h := by cases h
  used := (Nat.zero_mul controlRecordBytes).symm
  spentUsed := (Nat.zero_mul controlSpentHandleBytes).symm
  entries_le := Nat.zero_le _
  used_le := Nat.zero_le _
  spent_le := Nat.zero_le _
  spentUsed_le := Nat.zero_le _

theorem Sound.step (hs : s.Sound) (call : Call) : (s.step call).Sound := by
  cases call with
  | lookup order key digest generation now => exact (lookup_shrunk s).sound hs
  | reserve order key digest generation now => exact hs.reserve
  | complete order key digest generation response now => exact hs.complete
  | prune order now => exact (shrunk_prune s order now).sound hs
  | clear => exact sound_empty _

def Open (s : ControlReceiptStore) (g : Grant) : Prop :=
  ∃ receipt, s.entries.get? g.key = some receipt ∧ receipt.requestDigest = g.digest ∧
    receipt.generation = g.generation

def OnFile (s : ControlReceiptStore) (a : Answer) : Prop :=
  ∃ receipt, s.entries.get? a.grant.key = some receipt ∧ receipt.requestDigest = a.grant.digest ∧
    receipt.generation = a.grant.generation ∧ receipt.state = .complete a.response

theorem granted_eq_some (h : s.granted call = some g) :
    ∃ order generation now, call = .reserve order g.key g.digest generation now ∧
      (s.reserve order g.key g.digest generation now).2 = .owner g.generation := by
  unfold granted at h
  split at h
  · rename_i order key digest generation now
    split at h
    · rename_i generation' hreserve
      obtain rfl := Option.some.inj h
      exact ⟨order, generation, now, rfl, hreserve⟩
    · cases h
  · cases h

theorem returned_onFile (hs : s.Sound) (h : s.returned call = some a) : s.OnFile a := by
  unfold returned at h
  split at h
  · rename_i order key digest generation now
    split at h
    · rename_i response hlookup
      obtain rfl := Option.some.inj h
      obtain ⟨rfl, receipt, hentry, hdigest, hstate⟩ := lookup_complete hlookup
      exact ⟨receipt, hentry, hdigest, hs.generation _ receipt hentry, hstate⟩
    · cases h
  · cases h

theorem Shrunk.open (h : s.Shrunk s') (hg : s'.Open g) : s.Open g := by
  obtain ⟨receipt, hentry, hfacts⟩ := hg
  exact ⟨receipt, h.entries _ receipt hentry, hfacts⟩

theorem stored_open (h : s.stored call = some a) : s.Open a.grant := by
  unfold stored at h
  split at h
  swap
  · cases h
  rename_i order key digest generation response now
  split_ifs at h with hentry
  obtain rfl := Option.some.inj h
  refine (shrunk_prune s order now).open ?_
  rcases complete_cases s order key digest generation response now with
    heq | ⟨receipt, hreceipt, hdigest, hgeneration, -⟩
  · rw [heq] at hentry
    exact ⟨_, hentry, rfl, rfl⟩
  · exact ⟨receipt, hreceipt, hdigest, hgeneration⟩

theorem granted_reserve (hshrunk : s.Shrunk s')
    (howner : (s.reserve order key digest generation now).2 = .owner s.generation) :
    s.granted (.reserve order key digest generation now) = some ⟨key, digest, s'.generation⟩ := by
  simp only [granted, howner, hshrunk.generation]

theorem entry_of_step {receipt : ControlReceipt} (h : (s.step call).entries.get? key = some receipt) :
    s.entries.get? key = some receipt ∧ desk.clears call = false ∨
    s.granted call = some ⟨key, receipt.requestDigest, receipt.generation⟩ ∧
      receipt.state = .inFlight ∨
    ∃ response, s.Open ⟨key, receipt.requestDigest, receipt.generation⟩ ∧ desk.clears call = false ∧
      receipt.state = .complete response ∧
      s.stored call = some ⟨⟨key, receipt.requestDigest, receipt.generation⟩, response⟩ := by
  cases call with
  | lookup order key' digest generation now => exact .inl ⟨(lookup_shrunk s).entries _ _ h, rfl⟩
  | prune order now => exact .inl ⟨(shrunk_prune s order now).entries _ _ h, rfl⟩
  | clear => cases h
  | reserve order key' digest generation now =>
    rcases reserve_cases s order key' digest generation now with
      ⟨-, hshrunk⟩ | ⟨s', hshrunk, howner, -, -, -, -, -, -, heq⟩
    · exact .inl ⟨hshrunk.entries _ _ h, rfl⟩
    · rw [step, heq] at h
      rcases get?_insert_cases h with ⟨rfl, rfl⟩ | ⟨-, h⟩
      · exact .inr (.inl ⟨granted_reserve hshrunk howner, rfl⟩)
      · exact .inl ⟨hshrunk.entries _ _ h, rfl⟩
  | complete order key' digest generation response now =>
    have hshrunk := shrunk_prune s order now
    rcases complete_cases s order key' digest generation response now with
      heq | ⟨old, hold, hdigest, hgeneration, heq⟩ <;> rw [step, heq] at h
    · exact .inl ⟨hshrunk.entries _ _ h, rfl⟩
    rcases get?_insert_cases h with ⟨rfl, rfl⟩ | ⟨-, h⟩
    · refine .inr (.inr ⟨response, hshrunk.open ⟨old, hold, hdigest, hgeneration⟩, rfl, rfl, if_pos ?_⟩)
      rw [heq, get?_insert_self]
    · exact .inl ⟨hshrunk.entries _ _ h, rfl⟩

theorem open_step (h : (s.step call).Open g) :
    s.granted call = some g ∨ s.Open g ∧ desk.clears call = false := by
  obtain ⟨key, digest, generation⟩ := g
  obtain ⟨receipt, hentry, rfl, rfl⟩ := h
  rcases entry_of_step hentry with ⟨hold, hclear⟩ | ⟨hgranted, -⟩ | ⟨response, hopen, hclear, -⟩
  · exact .inr ⟨⟨receipt, hold, rfl, rfl⟩, hclear⟩
  · exact .inl hgranted
  · exact .inr ⟨hopen, hclear⟩

theorem onFile_step (h : (s.step call).OnFile a) :
    s.stored call = some a ∨ s.OnFile a ∧ desk.clears call = false := by
  obtain ⟨⟨key, digest, generation⟩, response⟩ := a
  obtain ⟨receipt, hentry, rfl, rfl, hstate⟩ := h
  rcases entry_of_step hentry with ⟨hold, hclear⟩ | ⟨-, hflight⟩ | ⟨response', -, -, hfiled, hstored⟩
  · exact .inr ⟨⟨receipt, hold, rfl, rfl, hstate⟩, hclear⟩
  · cases hflight.symm.trans hstate
  · cases hfiled.symm.trans hstate
    exact .inl hstored

theorem spent_step (h : key ∈ s.spentHandles) (hclear : desk.clears call = false) :
    key ∈ (s.step call).spentHandles := by
  cases call with
  | lookup order key' digest generation now => exact (lookup_shrunk s).spentHandles ▸ h
  | prune order now => exact (shrunk_prune s order now).spentHandles ▸ h
  | clear => cases hclear
  | reserve order key' digest generation now =>
    rcases reserve_cases s order key' digest generation now with
      ⟨-, hshrunk⟩ | ⟨s', hshrunk, -, -, -, -, -, -, -, heq⟩
    · exact hshrunk.spentHandles ▸ h
    · rw [step, heq]
      exact Finset.mem_insert_of_mem (hshrunk.spentHandles ▸ h)
  | complete order key' digest generation response now =>
    have hp : key ∈ (s.prune order now).spentHandles := (shrunk_prune s order now).spentHandles ▸ h
    rcases complete_cases s order key' digest generation response now with
      heq | ⟨old, -, -, -, heq⟩ <;> rw [step, heq] <;> exact hp

theorem granted_spent (h : s.granted call = some g) :
    g.key ∉ s.spentHandles ∧ g.key ∈ (s.step call).spentHandles ∧ g.generation = s.generation := by
  obtain ⟨order, generation, now, rfl, howner⟩ := granted_eq_some h
  rcases reserve_cases s order g.key g.digest generation now with
    ⟨hnone, -⟩ | ⟨s', hshrunk, hreserve, -, hfresh, -, -, -, -, heq⟩
  · exact absurd howner (hnone _)
  · refine ⟨hshrunk.spentHandles ▸ hfresh, ?_, ?_⟩
    · rw [step, heq]
      exact Finset.mem_insert_self _ _
    · rw [hreserve] at howner
      exact (ControlReceiptReservation.owner.inj howner).symm

def laws : desk.Lawful where
  Sound := Sound
  Spent s key := key ∈ s.spentHandles
  Open := Open
  OnFile := OnFile
  sound_start := sound_empty 0
  sound_step h call := h.step call
  unspent_of_granted _ h := (granted_spent h).1
  spent_of_granted _ h := (granted_spent h).2.1
  spent_step _ h hclear := spent_step h hclear
  open_start _ h := by
    obtain ⟨receipt, hentry, -⟩ := h
    cases hentry
  open_step _ h := open_step h
  open_of_filed _ h := stored_open h
  onFile_start _ h := by
    obtain ⟨receipt, hentry, -⟩ := h
    cases hentry
  onFile_step _ h := onFile_step h
  onFile_of_returned hs h := returned_onFile hs h

end ControlReceiptStore

end Abyssal.Relay
