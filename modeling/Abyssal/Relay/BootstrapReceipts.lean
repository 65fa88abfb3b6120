import Abyssal.Relay.Receipts
import Abyssal.Transport.Bootstrap

/-! The relay's receipts of bootstrap requests. A request id lives in three tables: the cache of
responses, the ledger of spent ids, and the set of those whose answer is final. An abort takes an id
back only while no answer was sealed for it. -/

namespace Abyssal.Relay

open OrdMap Option
open Transport (maxBootstrapPlaintextBytes)

abbrev RequestId := Vector UInt8 32

def bootstrapResponseBytes : Nat := maxBootstrapPlaintextBytes + 16
def bootstrapReceiptTtlMs : Nat := 10 * 60 * 1000
def maxBootstrapReceipts : Nat := 4096
def maxBootstrapReceiptBytes : Nat := 32 * 1024 * 1024
def maxBootstrapSpentIds : Nat := 8192

structure BootstrapReceipt where
  requestDigest : Digest
  createdAtMs : Nat
  state : ReceiptState

structure BootstrapReceiptStore where
  entries : OrdMap RequestId BootstrapReceipt
  spent : OrdMap RequestId Digest
  terminalSpent : Finset RequestId
  usedBytes : Nat

inductive BootstrapReceiptLookup
  | missing | mismatch | inFlight | complete (response : Bytes) | spent
  deriving DecidableEq

inductive BootstrapReceiptReservation
  | owner | existing | mismatch | capacity | spent
  deriving DecidableEq

namespace BootstrapReceiptStore

def new : BootstrapReceiptStore := ⟨.empty, .empty, ∅, 0⟩

def expiredIds (self : BootstrapReceiptStore) (now : Nat) : List RequestId :=
  expiredKeys (·.createdAtMs) bootstrapReceiptTtlMs self.entries now

def expire (self : BootstrapReceiptStore) (requestId : RequestId) : BootstrapReceiptStore :=
  -- The loop body of `prune`. The ledger keeps the digest of an entry that leaves the cache; when
  -- it is full the entry stays.
  match self.entries.get? requestId with
  | none => self
  | some receipt =>
    if maxBootstrapSpentIds ≤ self.spent.size then self
    else
      { entries := self.entries.erase requestId
        usedBytes := (checkedSub self.usedBytes bootstrapResponseBytes).getD 0
        terminalSpent :=
          if receipt.state = .inFlight then self.terminalSpent
          else insert requestId self.terminalSpent
        spent := self.spent.insert requestId receipt.requestDigest }

def prune (order : VisitOrder RequestId) (self : BootstrapReceiptStore) (now : Nat) :
    BootstrapReceiptStore :=
  runFrom expire self (order.visit (self.expiredIds now))

def lookup (order : VisitOrder RequestId) (self : BootstrapReceiptStore) (requestId : RequestId)
    (requestDigest : Digest) (now : Nat) : BootstrapReceiptStore × BootstrapReceiptLookup :=
  let self := self.prune order now
  (self, match self.entries.get? requestId with
    | none =>
      match self.spent.get? requestId with
      | some spentDigest => if spentDigest = requestDigest then .spent else .mismatch
      | none => .missing
    | some receipt =>
      if receipt.requestDigest ≠ requestDigest then .mismatch
      else
        match receipt.state with
        | .inFlight => .inFlight
        | .complete response => .complete response)

def reserve (order : VisitOrder RequestId) (self : BootstrapReceiptStore) (requestId : RequestId)
    (requestDigest : Digest) (now : Nat) : BootstrapReceiptStore × BootstrapReceiptReservation :=
  let self := self.prune order now
  match self.entries.get? requestId with
  | some receipt =>
    (self, if receipt.requestDigest = requestDigest then .existing else .mismatch)
  | none =>
    match self.spent.get? requestId with
    | some spentDigest => (self, if spentDigest = requestDigest then .spent else .mismatch)
    | none =>
      if maxBootstrapSpentIds ≤ self.spent.size then (self, .capacity)
      else
        match checkedAdd self.usedBytes bootstrapResponseBytes with
        | none => (self, .capacity)
        | some nextUsedBytes =>
          if maxBootstrapReceipts ≤ self.entries.size ∨
              maxBootstrapReceiptBytes < nextUsedBytes then (self, .capacity)
          else
            ({ self with
                spent := self.spent.insert requestId requestDigest
                entries := self.entries.insert requestId ⟨requestDigest, now, .inFlight⟩
                usedBytes := nextUsedBytes }, .owner)

def complete (order : VisitOrder RequestId) (self : BootstrapReceiptStore) (requestId : RequestId)
    (requestDigest : Digest) (response : Bytes) (now : Nat) : BootstrapReceiptStore :=
  let self := self.prune order now
  if self.spent.get? requestId ≠ some requestDigest then self
  else
    match self.entries.get? requestId with
    | none => { self with terminalSpent := insert requestId self.terminalSpent }
    | some receipt =>
      if receipt.requestDigest ≠ requestDigest then self
      else
        { self with
          entries := self.entries.insert requestId
            { receipt with state := .complete response, createdAtMs := now } }

def abort (self : BootstrapReceiptStore) (requestId : RequestId) (requestDigest : Digest) :
    BootstrapReceiptStore :=
  match self.spent.get? requestId with
  | none => self
  | some spentDigest =>
    if spentDigest ≠ requestDigest then self
    else
      let unsealed := (self.entries.get? requestId).any (·.state = .inFlight)
      let expiredUnsealed :=
        !self.entries.contains requestId && decide (requestId ∉ self.terminalSpent)
      if !unsealed && !expiredUnsealed then self
      else
        { self with
          spent := self.spent.erase requestId
          entries := self.entries.erase requestId
          usedBytes :=
            if self.entries.contains requestId then
              (checkedSub self.usedBytes bootstrapResponseBytes).getD 0
            else self.usedBytes }

def clear (self : BootstrapReceiptStore) : BootstrapReceiptStore :=
  { self with
    terminalSpent := self.terminalSpent ∪ self.spent.keys.toFinset
    entries := .empty
    usedBytes := 0 }

structure Consistent (s : BootstrapReceiptStore) : Prop where
  entries_spent : ∀ id receipt, s.entries.get? id = some receipt →
    s.spent.get? id = some receipt.requestDigest
  terminal_spent : ∀ id ∈ s.terminalSpent, ∃ digest, s.spent.get? id = some digest
  terminal_entries : ∀ id ∈ s.terminalSpent, s.entries.get? id = none
  used : s.usedBytes = s.entries.size * bootstrapResponseBytes

def Final (s : BootstrapReceiptStore) (id : RequestId) : Prop :=
  id ∈ s.terminalSpent ∨ ∃ receipt, s.entries.get? id = some receipt ∧ receipt.state ≠ .inFlight

def Held (s : BootstrapReceiptStore) (id : RequestId) (digest : Digest) : Prop :=
  s.spent.get? id = some digest ∧ ¬ s.Final id

def Settled (s : BootstrapReceiptStore) (id : RequestId) (digest : Digest) : Prop :=
  s.spent.get? id = some digest ∧ s.Final id

structure Kept (s s' : BootstrapReceiptStore) (id : RequestId) : Prop where
  spent : s'.spent.get? id = s.spent.get? id
  final : s'.Final id ↔ s.Final id

variable {s : BootstrapReceiptStore} {id : RequestId}

theorem new_consistent : new.Consistent where
  entries_spent _ _ h := by cases h
  terminal_spent _ h := by cases h
  terminal_entries _ h := by cases h
  used := rfl

variable {receipt : BootstrapReceipt}

theorem Consistent.released (h : s.Consistent) (hentry : s.entries.get? id = some receipt) :
    (checkedSub s.usedBytes bootstrapResponseBytes).getD 0 =
      (s.entries.erase id).size * bootstrapResponseBytes := by
  have hsize := size_erase_add hentry
  have hsub : checkedSub s.usedBytes bootstrapResponseBytes =
      some ((s.entries.erase id).size * bootstrapResponseBytes) := by
    rw [checkedSub_eq_some, h.used, ← hsize, Nat.add_mul, Nat.one_mul]
  rw [hsub, getD_some]

theorem expire_spent (h : s.Consistent) (id : RequestId) : (s.expire id).spent = s.spent := by
  unfold expire
  split
  · rfl
  · rename_i receipt hentry
    by_cases hfull : maxBootstrapSpentIds ≤ s.spent.size
    · rw [if_pos hfull]
    · rw [if_neg hfull]
      exact insert_of_get? (h.entries_spent id receipt hentry)

theorem expire_final (id id' : RequestId) :
    (s.expire id).Final id' ↔ s.Final id' := by
  unfold expire
  split
  · rfl
  · rename_i receipt hentry
    split_ifs with hfull hstate
    · rfl
    · simp only [Final, get?_erase]
      by_cases hid : id = id'
      · subst hid
        simp [hentry, hstate]
      · simp [hid]
    · simp only [Final, get?_erase, Finset.mem_insert]
      by_cases hid : id = id'
      · subst hid
        simp [hentry, hstate]
      · simp [hid, Ne.symm hid]

theorem Consistent.expire (h : s.Consistent) (id : RequestId) : (s.expire id).Consistent := by
  have hspent := expire_spent h id
  unfold BootstrapReceiptStore.expire at hspent ⊢
  split
  · exact h
  · rename_i receipt hentry
    split_ifs with hfull hstate
    · exact h
    all_goals
      simp only [hentry, hfull, if_false] at hspent
      refine ⟨fun id' r hr => ?_, fun id' hid' => ?_, fun id' hid' => ?_, h.released hentry⟩
    · rw [hspent]
      exact h.entries_spent id' r (get?_of_erase hr)
    · rw [hspent]
      exact h.terminal_spent id' hid'
    · exact get?_erase_of_none (h.terminal_entries id' hid')
    · rw [hspent]
      exact h.entries_spent id' r (get?_of_erase hr)
    · rw [hspent]
      rcases Finset.mem_insert.mp hid' with rfl | hid'
      · exact ⟨_, h.entries_spent _ receipt hentry⟩
      · exact h.terminal_spent id' hid'
    · rcases Finset.mem_insert.mp hid' with rfl | hid'
      · exact get?_erase_self _ _
      · exact get?_erase_of_none (h.terminal_entries id' hid')

theorem runFrom_expire (h : s.Consistent) (ids : List RequestId) :
    (runFrom expire s ids).Consistent ∧ (runFrom expire s ids).spent = s.spent ∧
      ∀ id, (runFrom expire s ids).Final id ↔ s.Final id := by
  induction ids generalizing s with
  | nil => exact ⟨h, rfl, fun _ => .rfl⟩
  | cons id ids ih =>
    obtain ⟨hc, hspent, hfinal⟩ := ih (h.expire id)
    exact ⟨hc, hspent.trans (expire_spent h id), fun id' => (hfinal id').trans (expire_final id id')⟩

section

variable {order : VisitOrder RequestId} {now : Nat} {digest : Digest}

theorem Consistent.prune (h : s.Consistent) : (s.prune order now).Consistent :=
  (runFrom_expire h _).1

theorem prune_spent (h : s.Consistent) : (s.prune order now).spent = s.spent :=
  (runFrom_expire h _).2.1

theorem prune_final (h : s.Consistent) (id : RequestId) :
    (s.prune order now).Final id ↔ s.Final id :=
  (runFrom_expire h _).2.2 id

theorem prune_kept (h : s.Consistent) (id : RequestId) : Kept s (s.prune order now) id :=
  ⟨by rw [prune_spent h], prune_final h id⟩

theorem Final.of_entry (h : s.Consistent) (hfinal : s.Final id)
    (hentry : s.entries.get? id = some receipt) : receipt.state ≠ .inFlight := by
  rcases hfinal with hterminal | ⟨r, hr, hstate⟩
  · rw [h.terminal_entries id hterminal] at hentry
    cases hentry
  · obtain rfl := some.inj (hr.symm.trans hentry)
    exact hstate

theorem reserve_cases (order : VisitOrder RequestId) (s : BootstrapReceiptStore) (id : RequestId)
    (digest : Digest) (now : Nat) :
    ((s.reserve order id digest now).2 ≠ .owner ∧
      (s.reserve order id digest now).1 = s.prune order now) ∨
    (s.reserve order id digest now).2 = .owner ∧
      (s.prune order now).entries.get? id = none ∧ (s.prune order now).spent.get? id = none ∧
      (s.reserve order id digest now).1 =
        { s.prune order now with
          spent := (s.prune order now).spent.insert id digest
          entries := (s.prune order now).entries.insert id ⟨digest, now, .inFlight⟩
          usedBytes := (s.prune order now).usedBytes + bootstrapResponseBytes } := by
  unfold reserve
  simp only
  split
  · refine .inl ⟨?_, rfl⟩
    split_ifs <;> simp
  rename_i hentry
  split
  · refine .inl ⟨?_, rfl⟩
    split_ifs <;> simp
  rename_i hspent
  by_cases hfull : maxBootstrapSpentIds ≤ (s.prune order now).spent.size
  · rw [if_pos hfull]
    exact .inl ⟨by simp, rfl⟩
  rw [if_neg hfull]
  split
  · exact .inl ⟨by simp, rfl⟩
  rename_i next hnext
  obtain ⟨-, rfl⟩ := checkedAdd_eq_some.mp hnext
  split_ifs
  · exact .inl ⟨by simp, rfl⟩
  · exact .inr ⟨rfl, hentry, hspent, rfl⟩

theorem reserve_owner (h : (s.reserve order id digest now).2 = .owner) (hs : s.Consistent) :
    s.spent.get? id = none ∧
      (s.reserve order id digest now).1.Held id digest := by
  rcases reserve_cases order s id digest now with ⟨hne, -⟩ | ⟨-, hentry, hspent, heq⟩
  · exact absurd h hne
  rw [prune_spent hs] at hspent
  refine ⟨hspent, ?_⟩
  rw [heq]
  refine ⟨get?_insert_self _ _ _, ?_⟩
  rintro (hterminal | ⟨receipt, hreceipt, hstate⟩)
  · obtain ⟨d, hd⟩ := hs.prune.terminal_spent id hterminal
    rw [prune_spent hs, hspent] at hd
    cases hd
  · rw [get?_insert_self] at hreceipt
    obtain rfl := some.inj hreceipt
    exact hstate rfl

theorem Consistent.reserve (h : s.Consistent) (id : RequestId) (digest : Digest) :
    (s.reserve order id digest now).1.Consistent := by
  rcases reserve_cases order s id digest now with ⟨-, heq⟩ | ⟨-, hentry, hspent, heq⟩ <;> rw [heq]
  · exact h.prune
  have hp : (s.prune order now).Consistent := h.prune
  refine ⟨fun id' r hr => ?_, fun id' hid' => ?_, fun id' hid' => ?_, ?_⟩
  · rw [get?_insert] at hr ⊢
    split_ifs at hr ⊢ with hsame
    · rw [← some.inj hr]
    · exact hp.entries_spent id' r hr
  · rw [get?_insert]
    split_ifs with hsame
    · exact ⟨digest, rfl⟩
    · exact hp.terminal_spent id' hid'
  · have hne : id ≠ id' := by
      rintro rfl
      obtain ⟨d, hd⟩ := hp.terminal_spent _ hid'
      rw [hspent] at hd
      cases hd
    rw [get?_insert_of_ne _ _ hne]
    exact hp.terminal_entries id' hid'
  · rw [size_insert_new hentry, Nat.add_mul, Nat.one_mul, hp.used]

/-- A completion with another digest than the ledger's does nothing; one that finds its entry caches
the response, and one that comes after the entry expired marks the id as final. -/
theorem complete_cases (order : VisitOrder RequestId) (hs : s.Consistent) (id : RequestId)
    (digest : Digest) (response : Bytes) (now : Nat) :
    (s.spent.get? id ≠ some digest ∧
      s.complete order id digest response now = s.prune order now) ∨
    s.spent.get? id = some digest ∧
      (((s.prune order now).entries.get? id = none ∧
        s.complete order id digest response now =
          { s.prune order now with
            terminalSpent := insert id (s.prune order now).terminalSpent }) ∨
      ∃ receipt, (s.prune order now).entries.get? id = some receipt ∧
        receipt.requestDigest = digest ∧
        s.complete order id digest response now =
          { s.prune order now with
            entries := (s.prune order now).entries.insert id
              ⟨digest, now, .complete response⟩ }) := by
  unfold complete
  simp only [prune_spent hs]
  by_cases hspent : s.spent.get? id = some digest
  · rw [if_neg (not_not.mpr hspent)]
    refine .inr ⟨hspent, ?_⟩
    split
    · rename_i hentry
      exact .inl ⟨hentry, rfl⟩
    · rename_i receipt hentry
      obtain rfl : receipt.requestDigest = digest := by
        have h := hs.prune.entries_spent id receipt hentry
        rw [prune_spent hs, hspent] at h
        exact (some.inj h).symm
      rw [if_neg (not_not.mpr rfl)]
      exact .inr ⟨receipt, hentry, rfl, rfl⟩
  · rw [if_pos hspent]
    exact .inl ⟨hspent, rfl⟩

theorem complete_settled (hs : s.Consistent) (response : Bytes)
    (hspent : s.spent.get? id = some digest) :
    (s.complete order id digest response now).Settled id digest := by
  have hp : (s.prune order now).spent.get? id = some digest := prune_spent hs ▸ hspent
  rcases complete_cases order hs id digest response now with
    ⟨hne, -⟩ | ⟨-, ⟨-, heq⟩ | ⟨receipt, -, -, heq⟩⟩
  · exact absurd hspent hne
  · rw [heq]
    exact ⟨hp, .inl (Finset.mem_insert_self _ _)⟩
  · rw [heq]
    exact ⟨hp, .inr ⟨_, get?_insert_self _ _ _, by simp⟩⟩

variable {id' : RequestId}

theorem complete_kept (hs : s.Consistent) (response : Bytes)
    (hother : id' = id → s.spent.get? id ≠ some digest) :
    Kept s (s.complete order id' digest response now) id := by
  have hp : Kept s (s.prune order now) id := prune_kept hs id
  rcases complete_cases order hs id' digest response now with ⟨-, heq⟩ | ⟨hspent, hcases⟩
  · rw [heq]
    exact hp
  have hne : id' ≠ id := by
    rintro rfl
    exact hother rfl hspent
  rcases hcases with ⟨-, heq⟩ | ⟨receipt, -, -, heq⟩ <;> rw [heq] <;> refine ⟨hp.spent, ?_⟩ <;>
    rw [← hp.final]
  · simp only [Final, Finset.mem_insert, Ne.symm hne, false_or]
  · simp only [Final, get?_insert_of_ne _ _ hne]

theorem Consistent.complete (h : s.Consistent) (id : RequestId) (digest : Digest) (response : Bytes) :
    (s.complete order id digest response now).Consistent := by
  have hp : (s.prune order now).Consistent := h.prune
  rcases complete_cases order h id digest response now with
    ⟨-, heq⟩ | ⟨hspent, ⟨hentry, heq⟩ | ⟨receipt, hentry, rfl, heq⟩⟩ <;> rw [heq]
  · exact hp
  · refine ⟨hp.entries_spent, fun id' hid' => ?_, fun id' hid' => ?_, hp.used⟩
    · rcases Finset.mem_insert.mp hid' with rfl | hid'
      · exact ⟨digest, (prune_spent h).symm ▸ hspent⟩
      · exact hp.terminal_spent id' hid'
    · rcases Finset.mem_insert.mp hid' with rfl | hid'
      · exact hentry
      · exact hp.terminal_entries id' hid'
  · refine ⟨fun id' r hr => ?_, hp.terminal_spent, fun id' hid' => ?_, ?_⟩
    · rw [get?_insert] at hr
      split_ifs at hr with hsame
      · rw [← some.inj hr, ← hsame]
        exact hp.entries_spent id receipt hentry
      · exact hp.entries_spent id' r hr
    · have hne : id ≠ id' := by
        rintro rfl
        rw [hp.terminal_entries _ hid'] at hentry
        cases hentry
      exact (get?_insert_of_ne _ _ hne).trans (hp.terminal_entries id' hid')
    · exact hp.used.trans (congrArg (· * bootstrapResponseBytes)
        (size_insert_of_get? hentry).symm)

end

variable {digest digest' : Digest} {order : VisitOrder RequestId} {id' : RequestId} {now : Nat}

variable (s id digest) in
theorem abort_cases :
    s.abort id digest = s ∨
    s.spent.get? id = some digest ∧
      ((∃ receipt, s.entries.get? id = some receipt ∧ receipt.state = .inFlight) ∨
        s.entries.get? id = none ∧ id ∉ s.terminalSpent) ∧
      s.abort id digest =
        { s with
          spent := s.spent.erase id
          entries := s.entries.erase id
          usedBytes :=
            if s.entries.contains id then (checkedSub s.usedBytes bootstrapResponseBytes).getD 0
            else s.usedBytes } := by
  unfold abort
  split
  · exact .inl rfl
  rename_i spentDigest hspent
  by_cases hdigest : spentDigest = digest
  · subst hdigest
    rw [if_neg (not_not.mpr rfl)]
    dsimp only
    by_cases hsealed : (!(s.entries.get? id).any (·.state = .inFlight) &&
        !(!s.entries.contains id && decide (id ∉ s.terminalSpent))) = true
    · rw [if_pos hsealed]
      exact .inl rfl
    · rw [if_neg hsealed]
      refine .inr ⟨hspent, ?_, rfl⟩
      cases hentry : s.entries.get? id with
      | none | some receipt => simpa [hentry, OrdMap.contains] using hsealed
  · rw [if_pos hdigest]
    exact .inl rfl

theorem abort_of_final (hs : s.Consistent) (hfinal : s.Final id) (digest : Digest) :
    s.abort id digest = s := by
  rcases abort_cases s id digest with heq | ⟨-, ⟨receipt, hentry, hstate⟩ | ⟨hentry, hnot⟩, -⟩
  · exact heq
  · exact absurd hstate (hfinal.of_entry hs hentry)
  · rcases hfinal with hterminal | ⟨receipt, hreceipt, -⟩
    · exact absurd hterminal hnot
    · rw [hentry] at hreceipt
      cases hreceipt

theorem abort_kept (hspent : s.spent.get? id = some digest)
    (hne : ¬ (id' = id ∧ digest' = digest)) : Kept s (s.abort id' digest') id := by
  rcases abort_cases s id' digest' with heq | ⟨hspent', -, heq⟩ <;> rw [heq]
  · exact ⟨rfl, .rfl⟩
  have hid : id' ≠ id := by
    rintro rfl
    exact hne ⟨rfl, some.inj (hspent'.symm.trans hspent)⟩
  refine ⟨get?_erase_of_ne _ hid, ?_⟩
  simp only [Final, get?_erase_of_ne _ hid]

theorem Consistent.abort (h : s.Consistent) (id : RequestId) (digest : Digest) :
    (s.abort id digest).Consistent := by
  rcases abort_cases s id digest with heq | ⟨-, hopen, heq⟩ <;> rw [heq]
  · exact h
  have hnot : id ∉ s.terminalSpent := by
    rcases hopen with ⟨receipt, hentry, -⟩ | ⟨-, hnot⟩
    · intro hterminal
      rw [h.terminal_entries id hterminal] at hentry
      cases hentry
    · exact hnot
  refine ⟨fun id' r hr => ?_, fun id' hid' => ?_, fun id' hid' => ?_, ?_⟩
  · have hne : id ≠ id' := by
      rintro rfl
      rw [get?_erase_self] at hr
      cases hr
    rw [get?_erase_of_ne _ hne] at hr ⊢
    exact h.entries_spent id' r hr
  · have hne : id ≠ id' := fun hsame => hnot (hsame ▸ hid')
    rw [get?_erase_of_ne _ hne]
    exact h.terminal_spent id' hid'
  · exact get?_erase_of_none (h.terminal_entries id' hid')
  · dsimp only
    split_ifs with hcached
    · obtain ⟨receipt, hentry⟩ := contains_eq_true.mp hcached
      exact h.released hentry
    · rw [erase_of_get?_none (contains_eq_false.mp (Bool.eq_false_iff.mpr hcached))]
      exact h.used

theorem clear_final (hspent : s.spent.get? id = some digest) : s.clear.Final id := by
  refine .inl (Finset.mem_union_right _ (List.mem_toFinset.mpr ?_))
  exact mem_keys.mpr ⟨digest, hspent⟩

theorem Consistent.clear (h : s.Consistent) : s.clear.Consistent where
  entries_spent _ _ hr := by cases hr
  terminal_spent id hid := by
    rcases Finset.mem_union.mp hid with hid | hid
    · exact h.terminal_spent id hid
    · exact mem_keys.mp (List.mem_toFinset.mp hid)
  terminal_entries _ _ := rfl
  used := (Nat.zero_mul bootstrapResponseBytes).symm

inductive Call
  | lookup (order : VisitOrder RequestId) (id : RequestId) (digest : Digest) (now : Nat)
  | reserve (order : VisitOrder RequestId) (id : RequestId) (digest : Digest) (now : Nat)
  | complete (order : VisitOrder RequestId) (id : RequestId) (digest : Digest) (response : Bytes)
      (now : Nat)
  | abort (id : RequestId) (digest : Digest)
  | prune (order : VisitOrder RequestId) (now : Nat)
  | clear

def step (s : BootstrapReceiptStore) : Call → BootstrapReceiptStore
  | .lookup order id digest now => (s.lookup order id digest now).1
  | .reserve order id digest now => (s.reserve order id digest now).1
  | .complete order id digest response now => s.complete order id digest response now
  | .abort id digest => s.abort id digest
  | .prune order now => s.prune order now
  | .clear => s.clear

def after (calls : List Call) : BootstrapReceiptStore := runFrom step new calls

theorem Consistent.step (h : s.Consistent) (call : Call) : (s.step call).Consistent := by
  cases call with
  | lookup order id digest now | prune order now => exact h.prune
  | reserve order id digest now => exact h.reserve id digest
  | complete order id digest response now => exact h.complete id digest response
  | abort id digest => exact h.abort id digest
  | clear => exact h.clear

theorem reserve_kept (hs : s.Consistent) (hspent : s.spent.get? id = some digest) :
    Kept s (s.reserve order id' digest' now).1 id := by
  have hp : Kept s (s.prune order now) id := prune_kept hs id
  rcases reserve_cases order s id' digest' now with ⟨-, heq⟩ | ⟨-, -, hnone, heq⟩ <;> rw [heq]
  · exact hp
  have hne : id' ≠ id := by
    rintro rfl
    rw [prune_spent hs, hspent] at hnone
    cases hnone
  refine ⟨(get?_insert_of_ne _ _ hne).trans hp.spent, ?_⟩
  rw [← hp.final]
  simp only [Final, get?_insert_of_ne _ _ hne]

/-- A reserved id is settled by the completion with its digest, and by a wipe. -/
def Settling (id : RequestId) (digest : Digest) (call : Call) : Prop :=
  call = .clear ∨ ∃ order response now, call = .complete order id digest response now

theorem Settling.settles {call : Call} (h : Settling id digest call) (hs : s.Consistent)
    (hspent : s.spent.get? id = some digest) : (s.step call).Settled id digest := by
  rcases h with rfl | ⟨order, response, now, rfl⟩
  · exact ⟨hspent, clear_final hspent⟩
  · exact complete_settled hs response hspent

theorem step_kept (hs : s.Consistent) (hspent : s.spent.get? id = some digest) {call : Call}
    (habort : call ≠ .abort id digest) (hsettling : ¬ Settling id digest call) :
    Kept s (s.step call) id := by
  cases call with
  | lookup order id' digest' now | prune order now => exact prune_kept hs id
  | reserve order id' digest' now => exact reserve_kept hs hspent
  | complete order id' digest' response now =>
    refine complete_kept hs response fun hid hdigest => hsettling (.inr ⟨order, response, now, ?_⟩)
    rw [hid, some.inj (hspent.symm.trans hdigest)]
  | abort id' digest' =>
    refine abort_kept hspent ?_
    rintro ⟨rfl, rfl⟩
    exact habort rfl
  | clear => exact absurd (.inl rfl) hsettling

theorem step_spent (hs : s.Consistent) (hspent : s.spent.get? id = some digest) {call : Call}
    (habort : call ≠ .abort id digest) : (s.step call).spent.get? id = some digest := by
  by_cases hsettling : Settling id digest call
  · exact (hsettling.settles hs hspent).1
  · exact (step_kept hs hspent habort hsettling).spent.trans hspent

theorem Settled.step (hs : s.Consistent) (h : s.Settled id digest) (call : Call) :
    (s.step call).Settled id digest := by
  by_cases habort : call = .abort id digest
  · have hsame : s.step (.abort id digest) = s := abort_of_final hs h.2 digest
    rw [habort, hsame]
    exact h
  by_cases hsettling : Settling id digest call
  · exact hsettling.settles hs h.1
  have hkept := step_kept hs h.1 habort hsettling
  exact ⟨hkept.spent.trans h.1, hkept.final.mpr h.2⟩

theorem after_consistent (calls : List Call) : (after calls).Consistent :=
  run_invariant (fun _ call h => h.step call) new_consistent calls

theorem Settled.not_owner (hs : s.Consistent) (h : s.Settled id digest) (later : List Call) :
    ((runFrom BootstrapReceiptStore.step s later).reserve order id digest' now).2 ≠ .owner := by
  induction later generalizing s with
  | nil =>
    intro howner
    have hnone : s.spent.get? id = none := (reserve_owner howner hs).1
    rw [h.1] at hnone
    cases hnone
  | cons call later ih => exact ih (hs.step call) (h.step hs call)

theorem owner_again {order' : VisitOrder RequestId} {now' : Nat} (hs : s.Consistent)
    (hfirst : (s.reserve order id digest now).2 = .owner) {later : List Call}
    (hsecond : ((runFrom BootstrapReceiptStore.step (s.reserve order id digest now).1 later).reserve
      order' id digest' now').2 = .owner) :
    ∃ before rest, later = before ++ .abort id digest :: rest ∧
      ∀ call ∈ before, ¬ Settling id digest call := by
  have hheld := (reserve_owner hfirst hs).2
  have hcons : (s.reserve order id digest now).1.Consistent := hs.reserve id digest
  generalize (s.reserve order id digest now).1 = t at *
  induction later generalizing t with
  | nil =>
    have hnone : t.spent.get? id = none := (reserve_owner hsecond hcons).1
    rw [hheld.1] at hnone
    cases hnone
  | cons call later ih =>
    by_cases habort : call = .abort id digest
    · exact ⟨[], later, by rw [habort]; rfl, fun _ h => by cases h⟩
    have hspent := step_spent hcons hheld.1 habort
    by_cases hfinal : (t.step call).Final id
    · exact absurd hsecond (Settled.not_owner (hcons.step call) ⟨hspent, hfinal⟩ later)
    obtain ⟨before, rest, rfl, hbefore⟩ := ih (t.step call) hsecond ⟨hspent, hfinal⟩ (hcons.step call)
    refine ⟨call :: before, rest, rfl, fun c hc => ?_⟩
    rcases List.mem_cons.mp hc with rfl | hc
    · exact fun hsettling => hfinal (hsettling.settles hcons hheld.1).2
    · exact hbefore c hc

/-- Over every history of the store: the tables agree; an id whose answer was completed with its
digest, or that was reserved when the store was cleared, never gets an owner again; and two owners of
one id are separated by an abort that came before any completion of the first. -/
theorem answered_once (calls : List Call) :
    (∀ id receipt, (after calls).entries.get? id = some receipt →
      (after calls).spent.get? id = some receipt.requestDigest) ∧
    (after calls).usedBytes = (after calls).entries.size * bootstrapResponseBytes ∧
    (∀ id digest, (after calls).spent.get? id = some digest → ∀ call, Settling id digest call →
      ∀ later order digest' now,
        ((after (calls ++ call :: later)).reserve order id digest' now).2 ≠ .owner) ∧
    (∀ id order digest now, ((after calls).reserve order id digest now).2 = .owner →
      ∀ later order' digest' now',
        ((after (calls ++ .reserve order id digest now :: later)).reserve order' id digest'
          now').2 = .owner →
        ∃ before rest, later = before ++ .abort id digest :: rest ∧
          ∀ call ∈ before, ¬ Settling id digest call) := by
  have hs := after_consistent calls
  have hrun : ∀ call later,
      after (calls ++ call :: later) = runFrom BootstrapReceiptStore.step ((after calls).step call) later :=
    fun call later => List.foldl_append ..
  refine ⟨hs.entries_spent, hs.used, ?_, ?_⟩
  · intro id digest hspent call hcall later order digest' now
    rw [hrun]
    exact Settled.not_owner (hs.step call) (hcall.settles hs hspent) later
  · intro id order digest now hfirst later order' digest' now' hsecond
    rw [hrun] at hsecond
    exact owner_again hs hfirst hsecond

theorem prune_full (hfull : maxBootstrapSpentIds ≤ s.spent.size) : s.prune order now = s := by
  unfold prune
  induction order.visit (s.expiredIds now) with
  | nil => rfl
  | cons id ids ih =>
    have hsame : s.expire id = s := by
      unfold expire
      split
      · rfl
      · exact if_pos hfull
    exact (congrArg (runFrom expire · ids) hsame).trans ih

theorem runFrom_expire_entries (hs : s.Consistent) (hroom : s.spent.size < maxBootstrapSpentIds)
    (ids : List RequestId) : (runFrom expire s ids).entries = ids.foldl erase s.entries := by
  induction ids generalizing s with
  | nil => rfl
  | cons id ids ih =>
    have hentries : (s.expire id).entries = s.entries.erase id := by
      unfold expire
      split
      · rename_i hnone
        exact (erase_of_get?_none hnone).symm
      · rw [if_neg (Nat.not_le.mpr hroom)]
    rw [List.foldl_cons, ← hentries]
    exact ih (hs.expire id) (expire_spent hs id ▸ hroom)

theorem get?_of_prune (hs : s.Consistent)
    (h : (s.prune order now).entries.get? id = some receipt) :
    s.entries.get? id = some receipt ∧ (now - receipt.createdAtMs < bootstrapReceiptTtlMs ∨
      maxBootstrapSpentIds ≤ s.spent.size) := by
  by_cases hfull : maxBootstrapSpentIds ≤ s.spent.size
  · rw [prune_full hfull] at h
    exact ⟨h, .inr hfull⟩
  · rw [prune, runFrom_expire_entries hs (Nat.not_le.mp hfull), get?_foldl_erase] at h
    split_ifs at h with hvisited
    refine ⟨h, .inl (Nat.not_le.mp fun hold => hvisited ?_)⟩
    rw [(order.perm _).mem_iff, expiredIds, expiredKeys, mem_keys]
    exact ⟨receipt, by rw [get?_filter, h, filter_some, if_pos (decide_eq_true hold)]⟩

theorem answer_of_step {call : Call} (hs : s.Consistent)
    (h : (s.step call).entries.get? id = some receipt) (hstate : receipt.state ≠ .inFlight) :
    (∃ order response,
      call = .complete order id receipt.requestDigest response receipt.createdAtMs) ∨
    s.entries.get? id = some receipt ∧
      ∀ order response t, call ≠ .complete order id receipt.requestDigest response t := by
  cases call with
  | lookup order id' digest' now | prune order now => exact .inr ⟨(get?_of_prune hs h).1, nofun⟩
  | clear => cases h
  | abort id' digest' =>
    refine .inr ⟨?_, nofun⟩
    rcases abort_cases s id' digest' with heq | ⟨-, -, heq⟩ <;> rw [step, heq] at h
    · exact h
    · exact get?_of_erase h
  | reserve order id' digest' now =>
    refine .inr ⟨?_, nofun⟩
    rcases reserve_cases order s id' digest' now with ⟨-, heq⟩ | ⟨-, -, -, heq⟩ <;>
      rw [step, heq] at h
    · exact (get?_of_prune hs h).1
    · rcases get?_insert_cases h with ⟨-, rfl⟩ | ⟨-, h⟩
      · exact absurd rfl hstate
      · exact (get?_of_prune hs h).1
  | complete order id' digest' response now =>
    rcases complete_cases order hs id' digest' response now with
      ⟨hspent, heq⟩ | ⟨-, ⟨hnone, heq⟩ | ⟨old, -, -, heq⟩⟩ <;> rw [step, heq] at h
    · have hentry := (get?_of_prune hs h).1
      refine .inr ⟨hentry, fun _ _ _ hcall => hspent ?_⟩
      cases hcall
      exact hs.entries_spent id receipt hentry
    · refine .inr ⟨(get?_of_prune hs h).1, fun _ _ _ hcall => ?_⟩
      cases hcall
      rw [hnone] at h
      cases h
    · rcases get?_insert_cases h with ⟨rfl, rfl⟩ | ⟨hne, h⟩
      · exact .inl ⟨order, response, rfl⟩
      · refine .inr ⟨(get?_of_prune hs h).1, fun _ _ _ hcall => hne ?_⟩
        cases hcall
        rfl

def CompletedAt (calls : List Call) (id : RequestId) (digest : Digest) (t : Nat) : Prop :=
  ∃ before order response later, calls = before ++ .complete order id digest response t :: later ∧
    ∀ order response t, .complete order id digest response t ∉ later

theorem after_snoc (calls : List Call) (call : Call) :
    after (calls ++ [call]) = (after calls).step call := List.foldl_append ..

theorem createdAt_of_completed {calls : List Call} {t : Nat}
    (h : (after calls).entries.get? id = some receipt) (hstate : receipt.state ≠ .inFlight)
    (hat : CompletedAt calls id receipt.requestDigest t) : receipt.createdAtMs = t := by
  obtain ⟨before, order, response, later, rfl, hlast⟩ := hat
  induction later using List.reverseRecOn with
  | nil =>
    rw [after_snoc] at h
    rcases answer_of_step (after_consistent before) h hstate with ⟨_, _, hcall⟩ | ⟨-, hcall⟩
    · cases hcall
      rfl
    · exact absurd rfl (hcall order response t)
  | append_singleton later call ih =>
    rw [← List.cons_append, ← List.append_assoc, after_snoc] at h
    rcases answer_of_step (after_consistent _) h hstate with ⟨_, _, rfl⟩ | ⟨hentry, -⟩
    · exact absurd (List.mem_append_right _ (List.mem_singleton_self _)) (hlast _ _ _)
    · exact ih (fun _ _ _ hmem => hlast _ _ _ (List.mem_append_left _ hmem)) hentry

/-- At this time, pruning leaves no entry as old as the lifetime of receipts, and no lookup gives a
response that was completed that long ago. -/
def Expiring (calls : List Call) (order : VisitOrder RequestId) (now : Nat) : Prop :=
  (∀ id receipt, ((after calls).prune order now).entries.get? id = some receipt →
    now - receipt.createdAtMs < bootstrapReceiptTtlMs) ∧
  ∀ id digest response t, ((after calls).lookup order id digest now).2 = .complete response →
    CompletedAt calls id digest t → now - t < bootstrapReceiptTtlMs

/-- Responses expire at a time exactly if the ledger of spent ids has room or no cached entry is due. -/
theorem expiring_iff (calls : List Call) (order : VisitOrder RequestId) (now : Nat) :
    Expiring calls order now ↔ (after calls).spent.size < maxBootstrapSpentIds ∨
      ∀ id receipt, (after calls).entries.get? id = some receipt →
        now - receipt.createdAtMs < bootstrapReceiptTtlMs := by
  have hs := after_consistent calls
  constructor
  · intro h
    refine (Nat.lt_or_ge _ _).imp_right fun hfull => ?_
    rw [← @prune_full _ order now hfull]
    exact h.1
  · intro h
    have hfresh : ∀ id receipt, ((after calls).prune order now).entries.get? id = some receipt →
        now - receipt.createdAtMs < bootstrapReceiptTtlMs := by
      intro id receipt hentry
      obtain ⟨hold, hnew⟩ := get?_of_prune hs hentry
      rcases h with hroom | hall
      · exact hnew.resolve_right (Nat.not_le.mpr hroom)
      · exact hall id receipt hold
    refine ⟨hfresh, fun id digest response t hlookup hat => ?_⟩
    unfold lookup at hlookup
    dsimp only at hlookup
    split at hlookup
    · split at hlookup
      · split_ifs at hlookup
      · cases hlookup
    · rename_i receipt hentry
      split_ifs at hlookup with hdigest
      obtain rfl := not_not.mp hdigest
      have hstate : receipt.state ≠ .inFlight := by
        intro hstate
        rw [hstate] at hlookup
        cases hlookup
      rw [← createdAt_of_completed (get?_of_prune hs hentry).1 hstate hat]
      exact hfresh id receipt hentry

def bytes32 (n : Nat) : Vector UInt8 32 := ⟨(be 32 n).toArray, length_be 32 n⟩

def spending : Nat → List Call
  | 0 => []
  | n + 1 => spending n ++ [.reserve .byKey (bytes32 n) (bytes32 0) 0] ++ [.clear]

theorem reserve_emptied {spent : OrdMap RequestId Digest} {terminal : Finset RequestId}
    (hnew : spent.get? id = none) (hroom : spent.size < maxBootstrapSpentIds) :
    (reserve .byKey ⟨.empty, spent, terminal, 0⟩ id digest 0).1 =
      ⟨OrdMap.empty.insert id ⟨digest, 0, .inFlight⟩, spent.insert id digest, terminal,
        0 + bootstrapResponseBytes⟩ := by
  have hprune : prune .byKey ⟨.empty, spent, terminal, 0⟩ 0 = ⟨.empty, spent, terminal, 0⟩ := rfl
  have hadd : checkedAdd 0 bootstrapResponseBytes = some (0 + bootstrapResponseBytes) := by decide
  simp only [reserve, hprune, get?_empty, hnew, if_neg (Nat.not_le.mpr hroom), hadd]
  exact congrArg Prod.fst (if_neg (by decide))

theorem after_spending {n : Nat} (hn : n < maxBootstrapSpentIds) :
    ∃ spent terminal, after (spending n) = ⟨.empty, spent, terminal, 0⟩ ∧ spent.size = n ∧
      ∀ m, n ≤ m → m < maxBootstrapSpentIds → spent.get? (bytes32 m) = none := by
  have hwide : maxBootstrapSpentIds ≤ 256 ^ 32 := by decide
  induction n with
  | zero => exact ⟨.empty, ∅, rfl, rfl, fun _ _ _ => rfl⟩
  | succ n ih =>
    obtain ⟨spent, terminal, hafter, hsize, hnone⟩ := ih (Nat.lt_of_succ_lt hn)
    have hnew := hnone n le_rfl (Nat.lt_of_succ_lt hn)
    refine ⟨spent.insert (bytes32 n) (bytes32 0),
      terminal ∪ (spent.insert (bytes32 n) (bytes32 0)).keys.toFinset, ?_,
      (size_insert_new hnew _).trans (congrArg (· + 1) hsize), fun m hm hmax => ?_⟩
    · rw [spending, after_snoc, after_snoc, hafter, step, reserve_emptied hnew (by omega)]
      rfl
    · refine (get?_insert_of_ne _ _ fun hsame => ?_).trans (hnone m (by omega) hmax)
      have hsame := be_injOn (by omega) (by omega) (congrArg Vector.toList hsame)
      omega

/-- The ledger's last free id is reserved and answered at time zero. -/
def crowded : List Call :=
  spending (maxBootstrapSpentIds - 1) ++
    [.reserve .byKey (bytes32 (maxBootstrapSpentIds - 1)) (bytes32 0) 0] ++
    [.complete .byKey (bytes32 (maxBootstrapSpentIds - 1)) (bytes32 0) [] 0]

theorem answer_outlives_ttl : ¬ Expiring crowded .byKey bootstrapReceiptTtlMs := by
  intro h
  have hlast : maxBootstrapSpentIds - 1 < maxBootstrapSpentIds := by decide
  obtain ⟨spent, terminal, hafter, hsize, hnone⟩ := after_spending hlast
  have hnew := hnone _ le_rfl hlast
  have hprune : ∀ entries terminal used now,
      let s : BootstrapReceiptStore :=
        ⟨entries, spent.insert (bytes32 (maxBootstrapSpentIds - 1)) (bytes32 0), terminal, used⟩
      s.prune .byKey now = s := by
    refine fun _ _ _ _ => prune_full ?_
    rw [size_insert_new hnew, hsize]
    exact le_rfl
  refine Nat.lt_irrefl _ (h.1 (bytes32 (maxBootstrapSpentIds - 1)) ⟨bytes32 0, 0, .complete []⟩ ?_)
  rw [crowded, after_snoc, after_snoc, hafter, step, step, reserve_emptied hnew (hsize ▸ hlast)]
  simp only [complete, hprune, get?_insert_self, ne_eq, not_true_eq_false, if_false]

end BootstrapReceiptStore

end Abyssal.Relay
