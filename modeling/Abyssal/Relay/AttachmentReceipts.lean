import Abyssal.Base.Desk
import Abyssal.Relay.Receipts

/-! The relay's receipts of attachment requests. A handle moves from the cache to the set of spent ones
when its entry expires; when the set is full the entry stays in the cache, where it blocks the handle
as well. The generation of a receipt is the caller's. -/

namespace Abyssal.Relay

open OrdMap

def attachmentActionRecordBytes : Nat := 4 + 1 + 1 + 32 + 16 + 4 + 4096 + 16
def receiptTtlMs : Nat := 10 * 60 * 1000
def maxReceipts : Nat := 4096
def maxReceiptBytes : Nat := 32 * 1024 * 1024
def maxSpentHandles : Nat := 8192

structure Receipt where
  requestDigest : Digest
  generation : Nat
  uploadRetry : Bool
  createdAtMs : Nat
  state : ReceiptState
  deriving DecidableEq

def Receipt.Saturated (receipt : Receipt) (now : Nat) : Prop :=
  receipt.state ≠ .inFlight ∧ receiptTtlMs ≤ now - receipt.createdAtMs

instance (receipt : Receipt) (now : Nat) : Decidable (receipt.Saturated now) :=
  inferInstanceAs (Decidable (_ ∧ _))

structure AttachmentReceiptStore where
  entries : OrdMap ReceiptKey Receipt
  spent : Finset ReceiptKey
  usedBytes : Nat

inductive Lookup
  | missing | mismatch | stale
  | inFlight (uploadRetry : Bool)
  | complete (response : Bytes) (uploadRetry : Bool)
  | spent | saturated
  deriving DecidableEq

inductive Reservation
  | owner | existing | mismatch | capacity | spent | stale
  deriving DecidableEq

namespace AttachmentReceiptStore

def new : AttachmentReceiptStore := ⟨.empty, ∅, 0⟩

def expireAll (self : AttachmentReceiptStore) : List ReceiptKey → AttachmentReceiptStore
  -- The loop of `prune`, which ends when the set of spent handles is full.
  | [] => self
  | key :: keys =>
    if maxSpentHandles ≤ self.spent.card then self
    else if self.entries.contains key then
      expireAll
        { entries := self.entries.erase key
          usedBytes := self.usedBytes - attachmentActionRecordBytes
          spent := insert key self.spent } keys
    else expireAll self keys

def prune (order : VisitOrder ReceiptKey) (self : AttachmentReceiptStore) (now : Nat) :
    AttachmentReceiptStore :=
  self.expireAll (order.visit (expiredKeys (·.createdAtMs) receiptTtlMs self.entries now))

def lookup (order : VisitOrder ReceiptKey) (self : AttachmentReceiptStore) (key : ReceiptKey)
    (digest : Digest) (generation now : Nat) : AttachmentReceiptStore × Lookup :=
  let self := self.prune order now
  (self,
    if key ∈ self.spent then .spent
    else
      match self.entries.get? key with
      | none => .missing
      | some receipt =>
        if receipt.generation ≠ generation then .stale
        else if receipt.requestDigest ≠ digest then .mismatch
        else if receipt.Saturated now then .saturated
        else
          match receipt.state with
          | .inFlight => .inFlight receipt.uploadRetry
          | .complete response => .complete response receipt.uploadRetry)

def reserve (order : VisitOrder ReceiptKey) (self : AttachmentReceiptStore) (key : ReceiptKey)
    (digest : Digest) (generation : Nat) (uploadRetry : Bool) (now : Nat) :
    AttachmentReceiptStore × Reservation :=
  let self := self.prune order now
  if key ∈ self.spent then (self, .spent)
  else
    match self.entries.get? key with
    | some receipt =>
      (self,
        if receipt.Saturated now then .capacity
        else if receipt.requestDigest = digest then .existing
        else .mismatch)
    | none =>
      if maxSpentHandles ≤ self.spent.card then (self, .capacity)
      else
        match checkedAdd self.usedBytes attachmentActionRecordBytes with
        | none => (self, .capacity)
        | some nextBytes =>
          if maxReceipts ≤ self.entries.size ∨ maxReceiptBytes < nextBytes then (self, .capacity)
          else
            ({ self with
                entries := self.entries.insert key
                  ⟨digest, generation, uploadRetry, now, .inFlight⟩
                usedBytes := nextBytes }, .owner)

def complete (order : VisitOrder ReceiptKey) (self : AttachmentReceiptStore) (key : ReceiptKey)
    (digest : Digest) (generation : Nat) (response : Bytes) (now : Nat) : AttachmentReceiptStore :=
  let self := self.prune order now
  match self.entries.get? key with
  | none => self
  | some receipt =>
    if receipt.requestDigest ≠ digest ∨ receipt.generation ≠ generation ∨
        response.length ≠ attachmentActionRecordBytes then self
    else
      { self with
        entries := self.entries.insert key
          { receipt with state := .complete response, createdAtMs := now } }

def clear (_self : AttachmentReceiptStore) : AttachmentReceiptStore := new

inductive Call
  | lookup (order : VisitOrder ReceiptKey) (key : ReceiptKey) (digest : Digest) (generation now : Nat)
  | reserve (order : VisitOrder ReceiptKey) (key : ReceiptKey) (digest : Digest) (generation : Nat)
      (uploadRetry : Bool) (now : Nat)
  | complete (order : VisitOrder ReceiptKey) (key : ReceiptKey) (digest : Digest) (generation : Nat)
      (response : Bytes) (now : Nat)
  | prune (order : VisitOrder ReceiptKey) (now : Nat)
  | clear

def step (s : AttachmentReceiptStore) : Call → AttachmentReceiptStore
  | .lookup order key digest generation now => (s.lookup order key digest generation now).1
  | .reserve order key digest generation uploadRetry now =>
    (s.reserve order key digest generation uploadRetry now).1
  | .complete order key digest generation response now =>
    s.complete order key digest generation response now
  | .prune order now => s.prune order now
  | .clear => s.clear

def granted (s : AttachmentReceiptStore) : Call → Option Grant
  | .reserve order key digest generation uploadRetry now =>
    if (s.reserve order key digest generation uploadRetry now).2 = .owner then
      some ⟨key, digest, generation⟩
    else none
  | _ => none

def stored (s : AttachmentReceiptStore) : Call → Option Answer
  | .complete order key digest generation response now =>
    if ((s.complete order key digest generation response now).entries.get? key).any fun receipt =>
        receipt.requestDigest = digest ∧ receipt.generation = generation ∧
          receipt.createdAtMs = now ∧ receipt.state = .complete response then
      some ⟨⟨key, digest, generation⟩, response⟩
    else none
  | _ => none

def returned (s : AttachmentReceiptStore) : Call → Option Answer
  | .lookup order key digest generation now =>
    match (s.lookup order key digest generation now).2 with
    | .complete response _ => some ⟨⟨key, digest, generation⟩, response⟩
    | _ => none
  | _ => none

def desk : Desk AttachmentReceiptStore Call ReceiptKey Grant Answer where
  start := new
  step := step
  granted := granted
  filed := stored
  returned := returned
  clears call := match call with
    | .clear => true
    | _ => false
  key := Grant.key
  grant := Answer.grant

def Spent (s : AttachmentReceiptStore) (key : ReceiptKey) : Prop :=
  key ∈ s.spent ∨ ∃ receipt, s.entries.get? key = some receipt

structure Sound (s : AttachmentReceiptStore) : Prop where
  used : s.usedBytes = s.entries.size * attachmentActionRecordBytes
  entries_le : s.entries.size ≤ maxReceipts
  used_le : s.usedBytes ≤ maxReceiptBytes
  spent_le : s.spent.card ≤ maxSpentHandles

structure Moved (s s' : AttachmentReceiptStore) : Prop where
  entries : ∀ key receipt, s'.entries.get? key = some receipt → s.entries.get? key = some receipt
  size : s'.entries.size ≤ s.entries.size
  used : s.usedBytes = s.entries.size * attachmentActionRecordBytes →
    s'.usedBytes = s'.entries.size * attachmentActionRecordBytes
  spent : ∀ key, s'.Spent key ↔ s.Spent key
  card : s.spent.card ≤ maxSpentHandles → s'.spent.card ≤ maxSpentHandles

variable {s : AttachmentReceiptStore} {order : VisitOrder ReceiptKey} {key : ReceiptKey}
  {digest : Digest} {generation now : Nat} {uploadRetry : Bool} {response : Bytes}
  {call : Call} {a : Answer} {g : Grant} {s' : AttachmentReceiptStore}

theorem Moved.refl (s : AttachmentReceiptStore) : s.Moved s :=
  ⟨fun _ _ => id, le_rfl, id, fun _ => .rfl, id⟩

theorem Moved.trans {s'' : AttachmentReceiptStore} (h : s.Moved s') (h' : s'.Moved s'') :
    s.Moved s'' :=
  ⟨fun key receipt hr => h.entries key receipt (h'.entries key receipt hr), h'.size.trans h.size,
    fun hused => h'.used (h.used hused), fun key => (h'.spent key).trans (h.spent key),
    fun hcard => h'.card (h.card hcard)⟩

variable {receipt : Receipt}

theorem moved_expire (hentry : s.entries.get? key = some receipt)
    (hroom : s.spent.card < maxSpentHandles) :
    s.Moved
      { entries := s.entries.erase key
        usedBytes := s.usedBytes - attachmentActionRecordBytes
        spent := insert key s.spent } where
  entries _ _ := get?_of_erase
  size := size_filter_le _ _
  used hused := charge_erase hused hentry
  spent key' := by
    simp only [Spent, Finset.mem_insert, get?_erase]
    by_cases hkey : key = key'
    · subst hkey
      simp [hentry]
    · simp [hkey, Ne.symm hkey]
  card _ := (Finset.card_insert_le _ _).trans hroom

theorem moved_expireAll (s : AttachmentReceiptStore) (keys : List ReceiptKey) :
    s.Moved (s.expireAll keys) := by
  induction keys generalizing s with
  | nil => exact .refl s
  | cons key keys ih =>
    rw [expireAll]
    split_ifs with hfull hcached
    · exact .refl s
    · obtain ⟨receipt, hentry⟩ := contains_eq_true.mp hcached
      exact (moved_expire hentry (not_le.mp hfull)).trans (ih _)
    · exact ih s

variable (s order now) in
theorem moved_prune :
    s.Moved (s.prune order now) := moved_expireAll s _

theorem Moved.sound (h : s.Moved s') (hs : s.Sound) : s'.Sound where
  used := h.used hs.used
  entries_le := h.size.trans hs.entries_le
  used_le := by
    rw [h.used hs.used]
    exact (Nat.mul_le_mul_right _ h.size).trans (hs.used ▸ hs.used_le)
  spent_le := h.card hs.spent_le

theorem lookup_complete
    (h : (s.lookup order key digest generation now).2 = .complete response uploadRetry) :
    ∃ receipt, s.entries.get? key = some receipt ∧ receipt.requestDigest = digest ∧
      receipt.generation = generation ∧ receipt.state = .complete response := by
  unfold lookup at h
  dsimp only at h
  by_cases hspent : key ∈ (s.prune order now).spent
  · rw [if_pos hspent] at h
    cases h
  rw [if_neg hspent] at h
  split at h
  · cases h
  rename_i receipt hentry
  by_cases hgeneration : receipt.generation = generation
  swap
  · rw [if_pos hgeneration] at h
    cases h
  by_cases hdigest : receipt.requestDigest = digest
  swap
  · rw [if_neg (not_not.mpr hgeneration), if_pos hdigest] at h
    cases h
  rw [if_neg (not_not.mpr hgeneration), if_neg (not_not.mpr hdigest)] at h
  refine ⟨receipt, (moved_prune s order now).entries key receipt hentry, hdigest, hgeneration, ?_⟩
  split_ifs at h
  split at h
  · cases h
  · rename_i r hstate
    rw [hstate, (Lookup.complete.inj h).1]

theorem reserve_cases (s : AttachmentReceiptStore) (order : VisitOrder ReceiptKey) (key : ReceiptKey)
    (digest : Digest) (generation : Nat) (uploadRetry : Bool) (now : Nat) :
    ((s.reserve order key digest generation uploadRetry now).2 ≠ .owner ∧
      (s.reserve order key digest generation uploadRetry now).1 = s.prune order now) ∨
    (s.reserve order key digest generation uploadRetry now).2 = .owner ∧
      (s.prune order now).entries.get? key = none ∧ key ∉ (s.prune order now).spent ∧
      (s.prune order now).entries.size < maxReceipts ∧
      (s.prune order now).usedBytes + attachmentActionRecordBytes ≤ maxReceiptBytes ∧
      (s.reserve order key digest generation uploadRetry now).1 =
        { s.prune order now with
          entries := (s.prune order now).entries.insert key
            ⟨digest, generation, uploadRetry, now, .inFlight⟩
          usedBytes := (s.prune order now).usedBytes + attachmentActionRecordBytes } := by
  unfold reserve
  dsimp only
  by_cases hspent : key ∈ (s.prune order now).spent
  · rw [if_pos hspent]
    exact .inl ⟨by simp, rfl⟩
  rw [if_neg hspent]
  split
  · refine .inl ⟨?_, rfl⟩
    split_ifs <;> simp
  rename_i hentry
  by_cases hfull : maxSpentHandles ≤ (s.prune order now).spent.card
  · rw [if_pos hfull]
    exact .inl ⟨by simp, rfl⟩
  rw [if_neg hfull]
  split
  · exact .inl ⟨by simp, rfl⟩
  rename_i next hnext
  obtain ⟨-, rfl⟩ := checkedAdd_eq_some.mp hnext
  split_ifs with hlimits
  · exact .inl ⟨by simp, rfl⟩
  · simp only [not_or, not_le, not_lt] at hlimits
    exact .inr ⟨rfl, hentry, hspent, hlimits.1, hlimits.2, rfl⟩

theorem Sound.reserve (hs : s.Sound) :
    (s.reserve order key digest generation uploadRetry now).1.Sound := by
  have hp := (moved_prune s order now).sound hs
  rcases reserve_cases s order key digest generation uploadRetry now with
    ⟨-, heq⟩ | ⟨-, hentry, -, hsize, hbytes, heq⟩ <;> rw [heq]
  · exact hp
  · refine ⟨charge_insert _ hp.used hentry, ?_, hbytes, hp.spent_le⟩
    rw [size_insert_new hentry]
    exact hsize

theorem complete_cases (s : AttachmentReceiptStore) (order : VisitOrder ReceiptKey)
    (key : ReceiptKey) (digest : Digest) (generation : Nat) (response : Bytes) (now : Nat) :
    s.complete order key digest generation response now = s.prune order now ∨
    ∃ receipt, (s.prune order now).entries.get? key = some receipt ∧
      receipt.requestDigest = digest ∧ receipt.generation = generation ∧
      s.complete order key digest generation response now =
        { s.prune order now with
          entries := (s.prune order now).entries.insert key
            { receipt with state := .complete response, createdAtMs := now } } := by
  unfold complete
  dsimp only
  split
  · exact .inl rfl
  rename_i receipt hentry
  split_ifs with hother
  · exact .inl rfl
  · simp only [not_or, not_not, ne_eq] at hother
    exact .inr ⟨receipt, hentry, hother.1, hother.2.1, rfl⟩

theorem Sound.complete (hs : s.Sound) :
    (s.complete order key digest generation response now).Sound := by
  have hp := (moved_prune s order now).sound hs
  rcases complete_cases s order key digest generation response now with
    heq | ⟨receipt, hentry, -, -, heq⟩ <;> rw [heq]
  · exact hp
  have hsize := @size_insert_of_get? _ _ _ _ key
    { receipt with state := .complete response, createdAtMs := now } _ hentry
  refine ⟨?_, hsize.trans_le hp.entries_le, hp.used_le, hp.spent_le⟩
  rw [hsize]
  exact hp.used

theorem sound_new : new.Sound where
  used := (Nat.zero_mul attachmentActionRecordBytes).symm
  entries_le := Nat.zero_le _
  used_le := Nat.zero_le _
  spent_le := Nat.zero_le _

theorem Sound.step (hs : s.Sound) (call : Call) : (s.step call).Sound := by
  cases call with
  | lookup order key digest generation now | prune order now =>
    exact (moved_prune s order now).sound hs
  | reserve order key digest generation uploadRetry now => exact hs.reserve
  | complete order key digest generation response now => exact hs.complete
  | clear => exact sound_new

def Open (s : AttachmentReceiptStore) (g : Grant) : Prop :=
  ∃ receipt, s.entries.get? g.key = some receipt ∧ receipt.requestDigest = g.digest ∧
    receipt.generation = g.generation

def OnFile (s : AttachmentReceiptStore) (a : Answer) : Prop :=
  ∃ receipt, s.entries.get? a.grant.key = some receipt ∧ receipt.requestDigest = a.grant.digest ∧
    receipt.generation = a.grant.generation ∧ receipt.state = .complete a.response

theorem Moved.open (h : s.Moved s') (hg : s'.Open g) : s.Open g := by
  obtain ⟨receipt, hentry, hfacts⟩ := hg
  exact ⟨receipt, h.entries _ receipt hentry, hfacts⟩

theorem granted_eq_some (h : s.granted call = some g) :
    ∃ order uploadRetry now,
      call = .reserve order g.key g.digest g.generation uploadRetry now ∧
      (s.reserve order g.key g.digest g.generation uploadRetry now).2 = .owner := by
  unfold granted at h
  split at h
  · rename_i order key digest generation uploadRetry now
    split_ifs at h with howner
    obtain rfl := Option.some.inj h
    exact ⟨order, uploadRetry, now, rfl, howner⟩
  · cases h

theorem stored_open (h : s.stored call = some a) : s.Open a.grant := by
  unfold stored at h
  split at h
  swap
  · cases h
  rename_i order key digest generation response now
  split_ifs at h with hstored
  obtain rfl := Option.some.inj h
  obtain ⟨stored, hentry, hdigest, hgeneration, -, -⟩ := exists_of_any hstored
  refine (moved_prune s order now).open ?_
  rcases complete_cases s order key digest generation response now with
    heq | ⟨receipt, hreceipt, hdigest, hgeneration, -⟩
  · rw [heq] at hentry
    exact ⟨stored, hentry, hdigest, hgeneration⟩
  · exact ⟨receipt, hreceipt, hdigest, hgeneration⟩

theorem returned_onFile (h : s.returned call = some a) : s.OnFile a := by
  unfold returned at h
  split at h
  swap
  · cases h
  rename_i order key digest generation now
  split at h
  · rename_i response uploadRetry hlookup
    obtain rfl := Option.some.inj h
    exact lookup_complete hlookup
  · cases h

theorem entry_of_step (h : (s.step call).entries.get? key = some receipt) :
    s.entries.get? key = some receipt ∧ desk.clears call = false ∨
    s.granted call = some ⟨key, receipt.requestDigest, receipt.generation⟩ ∧
      receipt.state = .inFlight ∨
    ∃ response, s.Open ⟨key, receipt.requestDigest, receipt.generation⟩ ∧ desk.clears call = false ∧
      receipt.state = .complete response ∧
      s.stored call = some ⟨⟨key, receipt.requestDigest, receipt.generation⟩, response⟩ := by
  cases call with
  | lookup order key' digest generation now | prune order now =>
    exact .inl ⟨(moved_prune s order now).entries _ _ h, rfl⟩
  | clear => cases h
  | reserve order key' digest generation uploadRetry now =>
    have hmoved := moved_prune s order now
    rcases reserve_cases s order key' digest generation uploadRetry now with
      ⟨-, heq⟩ | ⟨howner, -, -, -, -, heq⟩ <;> rw [step, heq] at h
    · exact .inl ⟨hmoved.entries _ _ h, rfl⟩
    rcases get?_insert_cases h with ⟨rfl, rfl⟩ | ⟨-, h⟩
    · exact .inr (.inl ⟨if_pos howner, rfl⟩)
    · exact .inl ⟨hmoved.entries _ _ h, rfl⟩
  | complete order key' digest generation response now =>
    have hmoved := moved_prune s order now
    rcases complete_cases s order key' digest generation response now with
      heq | ⟨old, hold, rfl, rfl, heq⟩ <;> rw [step, heq] at h
    · exact .inl ⟨hmoved.entries _ _ h, rfl⟩
    rcases get?_insert_cases h with ⟨rfl, rfl⟩ | ⟨-, h⟩
    · refine .inr (.inr ⟨response, hmoved.open ⟨old, hold, rfl, rfl⟩, rfl, rfl, if_pos ?_⟩)
      rw [heq, get?_insert_self, Option.any_some]
      exact decide_eq_true ⟨rfl, rfl, rfl, rfl⟩
    · exact .inl ⟨hmoved.entries _ _ h, rfl⟩

theorem open_step (h : (s.step call).Open g) :
    s.granted call = some g ∨ s.Open g ∧ desk.clears call = false := by
  obtain ⟨key, digest, generation⟩ := g
  obtain ⟨receipt, hentry, rfl, rfl⟩ := h
  rcases entry_of_step hentry with ⟨hold, hclear⟩ | ⟨hgranted, -⟩ | ⟨response, hopen, hclear, -⟩
  · exact .inr ⟨⟨receipt, hold, rfl, rfl⟩, hclear⟩
  · exact .inl hgranted
  · exact .inr ⟨hopen, hclear⟩

theorem onFile_step (h : (s.step call).OnFile a) :
    s.stored call = some a ∨ s.OnFile a ∧ desk.clears call = false := by
  obtain ⟨⟨key, digest, generation⟩, response⟩ := a
  obtain ⟨receipt, hentry, rfl, rfl, hstate⟩ := h
  rcases entry_of_step hentry with ⟨hold, hclear⟩ | ⟨-, hflight⟩ | ⟨response', -, -, hfiled, hstored⟩
  · exact .inr ⟨⟨receipt, hold, rfl, rfl, hstate⟩, hclear⟩
  · cases hflight.symm.trans hstate
  · cases hfiled.symm.trans hstate
    exact .inl hstored

theorem spent_insert {used : Nat} {key' : ReceiptKey} (h : s.Spent key) :
    Spent { s with entries := s.entries.insert key' receipt, usedBytes := used } key := by
  rcases h with h | ⟨r, hr⟩
  · exact .inl h
  · by_cases hkey : key' = key
    · exact .inr ⟨receipt, by rw [hkey, get?_insert_self]⟩
    · exact .inr ⟨r, (get?_insert_of_ne _ _ hkey).trans hr⟩

theorem spent_step (h : s.Spent key) (hclear : desk.clears call = false) :
    (s.step call).Spent key := by
  cases call with
  | lookup order key' digest generation now | prune order now =>
    exact ((moved_prune s order now).spent key).mpr h
  | clear => cases hclear
  | reserve order key' digest generation uploadRetry now =>
    have hp := ((moved_prune s order now).spent key).mpr h
    rcases reserve_cases s order key' digest generation uploadRetry now with
      ⟨-, heq⟩ | ⟨-, -, -, -, -, heq⟩ <;> rw [step, heq]
    · exact hp
    · exact spent_insert hp
  | complete order key' digest generation response now =>
    have hp := ((moved_prune s order now).spent key).mpr h
    rcases complete_cases s order key' digest generation response now with
      heq | ⟨old, -, -, -, heq⟩ <;> rw [step, heq]
    · exact hp
    · exact spent_insert hp

theorem granted_spent (h : s.granted call = some g) :
    ¬ s.Spent g.key ∧ (s.step call).Spent g.key := by
  obtain ⟨order, uploadRetry, now, rfl, howner⟩ := granted_eq_some h
  rcases reserve_cases s order g.key g.digest g.generation uploadRetry now with
    ⟨hnone, -⟩ | ⟨-, hentry, hfresh, -, -, heq⟩
  · exact absurd howner hnone
  · refine ⟨fun hspent => ?_, .inr ⟨⟨g.digest, g.generation, uploadRetry, now, .inFlight⟩, ?_⟩⟩
    · rcases ((moved_prune s order now).spent g.key).mpr hspent with hspent | ⟨r, hr⟩
      · exact hfresh hspent
      · rw [hentry] at hr
        cases hr
    · rw [step, heq, get?_insert_self]

def laws : desk.Lawful where
  Sound := Sound
  Spent := Spent
  Open := Open
  OnFile := OnFile
  sound_start := sound_new
  sound_step h call := h.step call
  unspent_of_granted _ h := (granted_spent h).1
  spent_of_granted _ h := (granted_spent h).2
  spent_step _ h hclear := spent_step h hclear
  open_start _ h := by
    obtain ⟨receipt, hentry, -⟩ := h
    cases hentry
  open_step _ h := open_step h
  open_of_filed _ h := stored_open h
  onFile_start _ h := by
    obtain ⟨receipt, hentry, -⟩ := h
    cases hentry
  onFile_step _ h := onFile_step h
  onFile_of_returned _ h := returned_onFile h

end AttachmentReceiptStore

end Abyssal.Relay
