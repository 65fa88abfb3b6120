import Abyssal.Base.Desk
import Abyssal.Direct.Receipts

/-! Histories of the receipt store. Reservations and outcomes share one table, and recording an
outcome moves the expiry of its receipt. -/

namespace Abyssal.Direct

open List OrdMap Option

inductive ReceiptCall
  | begin (key : TransactionKey) (exactFrame : Text) (now : Nat)
  | finish (ticket : TransactionTicket) (accepted : Bool) (now : Nat)
  | clear

theorem saturatingAdd_of_lt {a b : Nat} (h : a + b < 2 ^ 64) : saturatingAdd a b = a + b :=
  min_eq_left (Nat.le_pred_of_lt h)

def ReceiptCall.now? : ReceiptCall → Option Nat
  | .begin _ _ now => some now
  | .finish _ _ now => some now
  | .clear => none

section

variable (digest : Text → Bytes) (ttl : Nat)

/-- Executions are the grants of this desk, recorded outcomes are filed and replays return them. -/
def desk : Desk Receipts ReceiptCall TransactionKey TransactionTicket
    (TransactionTicket × Bool) where
  start := .empty
  step s
    | .begin key exactFrame now => (beginTransaction digest ttl s key exactFrame now).1
    | .finish ticket accepted now => (finishTransaction ttl s ticket accepted now).1
    | .clear => .empty
  granted s
    | .begin key exactFrame now =>
      match (beginTransaction digest ttl s key exactFrame now).2 with
      | .ok (.execute ticket) => some ticket
      | _ => none
    | _ => none
  filed s
    | .finish ticket accepted now =>
      match (finishTransaction ttl s ticket accepted now).2 with
      | .ok () => some (ticket, accepted)
      | .error _ => none
    | _ => none
  returned s
    | .begin key exactFrame now =>
      match (beginTransaction digest ttl s key exactFrame now).2 with
      | .ok (.replay accepted) => some (⟨key, digest exactFrame⟩, accepted)
      | _ => none
    | _ => none
  clears
    | .clear => true
    | _ => false
  key := TransactionTicket.key
  grant := Prod.fst

/-- The clock never goes back, and a lifetime from now it has not run over. -/
structure Clocked (calls : List ReceiptCall) : Prop where
  forward : calls.Pairwise fun call call' => ∀ t ∈ call.now?, ∀ t' ∈ call'.now?, t ≤ t'
  bounded : ∀ call ∈ calls, ∀ t ∈ call.now?, t + ttl < 2 ^ 64

end

variable {digest : Text → Bytes} {ttl t now : Nat} {s : Receipts} {key : TransactionKey}
  {d : Bytes}

def accountReceipts (s : Receipts) (account : CodeId) : Nat :=
  (s.keys.filter fun existing => existing.accountId = account).length

structure WithinLimits (s : Receipts) : Prop where
  global : s.size ≤ defaultGlobalReceiptLimit
  account : ∀ account, accountReceipts s account ≤ defaultAccountReceiptLimit

theorem WithinLimits.removeExpired (h : WithinLimits s) (now : Nat) :
    WithinLimits (removeExpired s now) := by
  refine ⟨(size_filter_le ..).trans h.global, fun account => le_trans ?_ (h.account account)⟩
  simp only [accountReceipts, ← length_keys_filter]
  exact sum_filter_le ..

theorem withinLimits_step (h : WithinLimits s) (call : ReceiptCall) :
    WithinLimits ((desk digest ttl).step s call) := by
  cases call with
  | begin key exactFrame now =>
    change WithinLimits (beginTransaction digest ttl s key exactFrame now).1
    have hexpired := h.removeExpired now
    rcases beginTransaction_cases digest ttl s key exactFrame now with
      ⟨_, hbegin, -⟩ | ⟨hfree, hbegin, hglobal, haccount⟩
    · rw [hbegin]
      exact hexpired
    · rw [hbegin]
      refine ⟨(size_insert_new hfree _).trans_le hglobal, fun account => ?_⟩
      have hold := hexpired.account account
      simp only [accountReceipts, ← length_keys_filter] at hold haccount ⊢
      rw [sum_insert_new hfree]
      by_cases hkey : key.accountId = account
      · subst hkey
        rw [if_pos (decide_eq_true rfl)]
        exact haccount
      · rw [if_neg (by simpa using hkey)]
        exact hold
  | finish ticket accepted now =>
    change WithinLimits (finishTransaction ttl s ticket accepted now).1
    rcases finishTransaction_cases ttl s ticket accepted now with
      ⟨_, hfinish⟩ | ⟨receipt, hreceipt, -, -, hfinish⟩
    · rw [hfinish]
      exact h
    · rw [hfinish]
      refine ⟨(size_insert_of_get? hreceipt).trans_le h.global, fun account => ?_⟩
      have hold := h.account account
      simp only [accountReceipts, ← length_keys_filter] at hold ⊢
      rw [sum_insert]
      exact (sum_erase_add hreceipt fun existing _ =>
        if decide (existing.accountId = account) = true then 1 else 0).trans_le hold
  | clear => exact ⟨Nat.zero_le _, fun _ => Nat.zero_le _⟩

def Standing (s : Receipts) (key : TransactionKey) (d : Bytes) (expiry : Nat) : Prop :=
  ∃ receipt, s.get? key = some receipt ∧ receipt.frameDigest = d ∧ expiry ≤ receipt.expiresAtMs

/-- Executions and recorded outcomes start a lifetime of their receipt. -/
def Reserves (digest : Text → Bytes) (ttl : Nat) (s : Receipts) (call : ReceiptCall)
    (ticket : TransactionTicket) : Prop :=
  (desk digest ttl).granted s call = some ticket ∨
    ∃ accepted, (desk digest ttl).filed s call = some (ticket, accepted)

variable {exactFrame : Text} {ticket : TransactionTicket}

theorem granted_begin :
    (desk digest ttl).granted s (.begin key exactFrame now) = some ticket ↔
      (beginTransaction digest ttl s key exactFrame now).2 = .ok (.execute ticket) := by
  simp only [desk]
  split <;> simp_all

variable {expiry : Nat}

theorem Standing.removeExpired (h : Standing s key d expiry) (hnow : now < expiry) :
    Standing (removeExpired s now) key d expiry := by
  obtain ⟨receipt, hreceipt, hdigest, hexpiry⟩ := h
  refine ⟨receipt, ?_, hdigest, hexpiry⟩
  rw [Direct.removeExpired, get?_filter, hreceipt]
  exact filter_some_pos (decide_eq_true (hnow.trans_le hexpiry))

theorem Standing.begin (h : Standing s key d expiry) (hnow : now < expiry) (exactFrame : Text) :
    (desk digest ttl).granted s (.begin key exactFrame now) = none ∧
      (d ≠ digest exactFrame →
        (beginTransaction digest ttl s key exactFrame now).2 = .error .conflictingFrame) := by
  obtain ⟨receipt, hreceipt, rfl, -⟩ := h.removeExpired hnow
  by_cases hdigest : receipt.frameDigest = digest exactFrame
  · cases haccepted : receipt.accepted <;>
      simp [desk, beginTransaction, hreceipt, hdigest, haccepted]
  · simp [desk, beginTransaction, hreceipt, hdigest]

theorem Standing.step {call : ReceiptCall} (h : Standing s key d (t + ttl))
    (hclear : (desk digest ttl).clears call = false)
    (hcall : ∀ now ∈ call.now?, t ≤ now ∧ now < t + ttl ∧ now + ttl < 2 ^ 64) :
    Standing ((desk digest ttl).step s call) key d (t + ttl) := by
  cases call with
  | begin key' exactFrame now =>
    change Standing (beginTransaction digest ttl s key' exactFrame now).1 key d (t + ttl)
    have hexpired := h.removeExpired (hcall now rfl).2.1
    rcases beginTransaction_cases digest ttl s key' exactFrame now with
      ⟨_, hbegin, -⟩ | ⟨hfree, hbegin, -⟩
    · rw [hbegin]
      exact hexpired
    · obtain ⟨receipt, hreceipt, hrest⟩ := hexpired
      have hne : key' ≠ key := by
        rintro rfl
        rw [hfree] at hreceipt
        cases hreceipt
      rw [hbegin]
      exact ⟨receipt, (get?_insert_of_ne _ _ hne).trans hreceipt, hrest⟩
  | finish ticket accepted now =>
    change Standing (finishTransaction ttl s ticket accepted now).1 key d (t + ttl)
    rcases finishTransaction_cases ttl s ticket accepted now with
      ⟨_, hfinish⟩ | ⟨receipt, hreceipt, hdigest, -, hfinish⟩
    · rw [hfinish]
      exact h
    · rw [hfinish]
      by_cases hkey : ticket.key = key
      · subst hkey
        obtain ⟨_, hsame, rfl, -⟩ := h
        rw [hreceipt] at hsame
        cases hsame
        obtain ⟨hfrom, -, hbound⟩ := hcall now rfl
        exact ⟨_, get?_insert_self .., hdigest.symm,
          (Nat.add_le_add_right hfrom ttl).trans_eq (saturatingAdd_of_lt hbound).symm⟩
      · obtain ⟨receipt', hreceipt', hrest⟩ := h
        exact ⟨receipt', (get?_insert_of_ne _ _ hkey).trans hreceipt', hrest⟩
  | clear => cases hclear

variable {calls : List ReceiptCall}

theorem Standing.run (h : Standing s key d (t + ttl)) (hclear : (desk digest ttl).Uncleared calls)
    (hcalls : ∀ call ∈ calls, ∀ now ∈ call.now?, t ≤ now ∧ now < t + ttl ∧ now + ttl < 2 ^ 64) :
    Standing (runFrom (desk digest ttl).step s calls) key d (t + ttl) := by
  induction calls generalizing s with
  | nil => exact h
  | cons call calls ih =>
    rw [Desk.Uncleared, forall_mem_cons] at hclear
    rw [forall_mem_cons] at hcalls
    exact ih (h.step hclear.1 hcalls.1) hclear.2 hcalls.2

variable {call : ReceiptCall}

theorem Reserves.standing (h : Reserves digest ttl s call ticket) (ht : t ∈ call.now?)
    (hbound : t + ttl < 2 ^ 64) :
    Standing ((desk digest ttl).step s call) ticket.key ticket.frameDigest (t + ttl) := by
  cases call with
  | begin key exactFrame now =>
    obtain rfl : now = t := some.inj ht
    change Standing (beginTransaction digest ttl s key exactFrame now).1 _ _ _
    have hgranted := granted_begin.mp (h.resolve_right (by simp [desk]))
    rcases beginTransaction_cases digest ttl s key exactFrame now with
      ⟨result, hbegin, hrefused⟩ | ⟨-, hbegin, -⟩
    · rw [hbegin] at hgranted
      exact absurd hgranted (hrefused ticket)
    · rw [hbegin] at hgranted ⊢
      cases hgranted
      exact ⟨_, get?_insert_self .., rfl, (saturatingAdd_of_lt hbound).ge⟩
  | finish ticket' accepted now =>
    obtain rfl : now = t := some.inj ht
    change Standing (finishTransaction ttl s ticket' accepted now).1 _ _ _
    simp only [Reserves, desk, reduceCtorEq, false_or] at h
    rcases finishTransaction_cases ttl s ticket' accepted now with
      ⟨_, hfinish⟩ | ⟨receipt, -, -, -, hfinish⟩
    · simp [hfinish] at h
    · rw [hfinish] at h ⊢
      obtain ⟨_, h⟩ := h
      cases h
      exact ⟨_, get?_insert_self .., rfl, (saturatingAdd_of_lt hbound).ge⟩
  | clear => cases ht

theorem receipt_of_step {receipt : Receipt}
    (h : ((desk digest ttl).step s call).get? key = some receipt) :
    s.get? key = some receipt ∧ (desk digest ttl).clears call = false ∨
    (desk digest ttl).granted s call = some ⟨key, receipt.frameDigest⟩ ∧
      receipt.accepted = none ∨
    Standing s key receipt.frameDigest 0 ∧ ∃ accepted t,
      call = .finish ⟨key, receipt.frameDigest⟩ accepted t ∧
      (desk digest ttl).filed s call = some (⟨key, receipt.frameDigest⟩, accepted) ∧
      receipt.accepted = some accepted ∧ receipt.expiresAtMs = saturatingAdd t ttl := by
  cases call with
  | begin key' exactFrame now =>
    change (beginTransaction digest ttl s key' exactFrame now).1.get? key = some receipt at h
    have hold : (removeExpired s now).get? key = some receipt → s.get? key = some receipt := by
      rw [removeExpired, get?_filter]
      exact fun h => (filter_eq_some_iff.mp h).1
    rcases beginTransaction_cases digest ttl s key' exactFrame now with
      ⟨_, hbegin, -⟩ | ⟨-, hbegin, -⟩
    · rw [hbegin] at h
      exact .inl ⟨hold h, rfl⟩
    · rw [hbegin] at h
      rcases get?_insert_cases h with ⟨rfl, rfl⟩ | ⟨-, h⟩
      · exact .inr (.inl ⟨by simp [desk, hbegin], rfl⟩)
      · exact .inl ⟨hold h, rfl⟩
  | finish ticket accepted now =>
    change (finishTransaction ttl s ticket accepted now).1.get? key = some receipt at h
    rcases finishTransaction_cases ttl s ticket accepted now with
      ⟨_, hfinish⟩ | ⟨receipt', hreceipt', hdigest, -, hfinish⟩
    · rw [hfinish] at h
      exact .inl ⟨h, rfl⟩
    · rw [hfinish] at h
      rcases get?_insert_cases h with ⟨rfl, rfl⟩ | ⟨-, h⟩
      · exact .inr (.inr ⟨⟨receipt', hreceipt', hdigest, Nat.zero_le _⟩, accepted, now, rfl,
          by simp [desk, hfinish], rfl, rfl⟩)
      · exact .inl ⟨h, rfl⟩
  | clear => cases h

theorem Clocked.of_append {calls later : List ReceiptCall} (h : Clocked ttl (calls ++ later)) :
    Clocked ttl calls :=
  ⟨(pairwise_append.mp h.forward).1, fun call hcall => h.bounded call (mem_append_left _ hcall)⟩

variable {before mid : List ReceiptCall} {first : ReceiptCall}

theorem Clocked.within (h : Clocked ttl (before ++ first :: mid ++ [.begin key exactFrame now]))
    (ht : t ∈ first.now?) (hnow : now < t + ttl) : t + ttl < 2 ^ 64 ∧
      ∀ call ∈ mid, ∀ t' ∈ call.now?, t ≤ t' ∧ t' < t + ttl ∧ t' + ttl < 2 ^ 64 := by
  obtain ⟨hforward, hbounded⟩ := h
  obtain ⟨hcalls, -, hlast⟩ := pairwise_append.mp hforward
  obtain ⟨hfirst, -⟩ := pairwise_cons.mp (pairwise_append.mp hcalls).2.1
  refine ⟨hbounded first (by simp) t ht, fun call hcall t' ht' => ⟨hfirst call hcall t ht t' ht', ?_,
    hbounded call (by simp [hcall]) t' ht'⟩⟩
  exact (hlast call (by simp [hcall]) _ (mem_singleton_self _) t' ht' now rfl).trans_lt hnow

theorem Reserves.lasts (h : Reserves digest ttl ((desk digest ttl).after before) first ticket)
    (hclock : Clocked ttl (before ++ first :: mid ++ [.begin key exactFrame now]))
    (hmid : (desk digest ttl).Uncleared mid) (ht : t ∈ first.now?) (hnow : now < t + ttl) :
    Standing ((desk digest ttl).after (before ++ first :: mid)) ticket.key ticket.frameDigest
      (t + ttl) := by
  obtain ⟨hbound, hwithin⟩ := hclock.within ht hnow
  rw [Desk.after_append]
  exact (h.standing ht hbound).run hmid hwithin

theorem issued_of_standing (h : Standing ((desk digest ttl).after calls) key d 0) :
    (desk digest ttl).Since calls
      fun s call => (desk digest ttl).granted s call = some ⟨key, d⟩ := by
  refine @Desk.since_of_holds _ _ _ _ _ _ _ _ (fun _ => True) (Standing · key d 0) (fun _ => trivial)
    (fun ⟨_, hnone, _⟩ => by cases hnone) (fun s call _ hstep => ?_) h
  obtain ⟨receipt, hreceipt, rfl, -⟩ := hstep
  rcases receipt_of_step hreceipt with ⟨hold, hclear⟩ | ⟨hgranted, -⟩ | ⟨hheld, _, _, rfl, -⟩
  · exact .inr ⟨⟨receipt, hold, rfl, Nat.zero_le _⟩, hclear⟩
  · exact .inl hgranted
  · exact .inr ⟨hheld, rfl⟩

variable {accepted : Bool}

theorem finished_of_receipt
    (h : ((desk digest ttl).after calls).get? key = some ⟨d, some accepted, expiry⟩) :
    (desk digest ttl).Since calls fun s call => Standing s key d 0 ∧ ∃ t,
      call = .finish ⟨key, d⟩ accepted t ∧
      (desk digest ttl).filed s call = some (⟨key, d⟩, accepted) ∧
      expiry = saturatingAdd t ttl := by
  refine @Desk.since_of_holds _ _ _ _ _ _ _ _ (fun _ => True)
    (fun s => s.get? key = some ⟨d, some accepted, expiry⟩) (fun _ => trivial)
    (fun hnone => by cases hnone) (fun s call _ hstep => ?_) h
  rcases receipt_of_step hstep with
    hold | ⟨-, hnone⟩ | ⟨hheld, accepted', t, hcall, hfiled, hsome, hexpiry⟩
  · exact .inr hold
  · cases hnone
  · cases hsome
    exact .inl ⟨hheld, t, hcall, hfiled, hexpiry⟩

theorem receipt_of_returned
    (h : (desk digest ttl).returned s (.begin key exactFrame now) = some (ticket, accepted)) :
    ticket = ⟨key, digest exactFrame⟩ ∧ ∃ expiry, now < expiry ∧
      s.get? key = some ⟨digest exactFrame, some accepted, expiry⟩ := by
  cases hget : (removeExpired s now).get? key with
  | none =>
    simp only [desk, beginTransaction, hget] at h
    split_ifs at h
  | some receipt =>
    obtain ⟨hreceipt, hlive⟩ := filter_eq_some_iff.mp ((get?_filter ..).symm.trans hget)
    obtain ⟨frameDigest, outcome, expiry⟩ := receipt
    by_cases hdigest : frameDigest = digest exactFrame
    · cases outcome with
      | none => simp [desk, beginTransaction, hget, hdigest] at h
      | some accepted' =>
        simp only [desk, beginTransaction, hget, hdigest, ne_eq, not_true, if_false] at h
        cases h
        exact ⟨rfl, expiry, of_decide_eq_true hlive, hdigest ▸ hreceipt⟩
    · simp [desk, beginTransaction, hget, hdigest] at h

/-- Over every history of the store, between two clears: executions under one key are a lifetime
apart, a replay repeats an outcome recorded less than a lifetime ago for the same key and frame
digest, and a live key refuses every other frame. -/
theorem transactions_once (digest : Text → Bytes) (ttl : Nat) (calls : List ReceiptCall) :
    let desk := desk digest ttl
    WithinLimits (desk.after calls) ∧
    ∀ key exactFrame now, Clocked ttl (calls ++ [.begin key exactFrame now]) →
      (∀ before first mid ticket ticket', calls = before ++ first :: mid → desk.Uncleared mid →
        desk.granted (desk.after before) first = some ticket → ticket.key = key →
        desk.granted (desk.after calls) (.begin key exactFrame now) = some ticket' →
        ∀ t ∈ first.now?, t + ttl ≤ now) ∧
      (∀ ticket accepted,
        desk.returned (desk.after calls) (.begin key exactFrame now) = some (ticket, accepted) →
        ticket = ⟨key, digest exactFrame⟩ ∧
        ∃ before t mid, calls = before ++ .finish ticket accepted t :: mid ∧ now < t + ttl ∧
          desk.Uncleared mid ∧
          desk.filed (desk.after before) (.finish ticket accepted t) = some (ticket, accepted) ∧
          desk.Since before (fun s call => desk.granted s call = some ticket) ∧
          ∀ mid₁ frame t' mid₂ ticket', mid = mid₁ ++ .begin key frame t' :: mid₂ →
            desk.granted (desk.after (before ++ .finish ticket accepted t :: mid₁))
              (.begin key frame t') ≠ some ticket') ∧
      ∀ before first mid ticket, calls = before ++ first :: mid → desk.Uncleared mid →
        Reserves digest ttl (desk.after before) first ticket → ticket.key = key →
        (∃ t ∈ first.now?, now < t + ttl) → ticket.frameDigest ≠ digest exactFrame →
        (beginTransaction digest ttl (desk.after calls) key exactFrame now).2 =
          .error .conflictingFrame := by
  refine ⟨@run_invariant _ _ _ WithinLimits (fun _ call h => withinLimits_step h call) _
    ⟨Nat.zero_le _, fun _ => Nat.zero_le _⟩ calls, fun key exactFrame now hclock => ⟨?_, ?_, ?_⟩⟩
  · rintro before first mid ticket ticket' rfl hmid hfirst rfl hlast t ht
    by_contra hnow
    have hheld := Reserves.lasts (.inl hfirst) hclock hmid ht (Nat.not_le.mp hnow)
    rw [(hheld.begin (Nat.not_le.mp hnow) exactFrame).1] at hlast
    cases hlast
  · intro ticket accepted hreturned
    obtain ⟨rfl, expiry, hexpiry, hreceipt⟩ := receipt_of_returned hreturned
    obtain ⟨before, _, mid, rfl, ⟨hheld, t, rfl, hfiled, rfl⟩, hmid⟩ := finished_of_receipt hreceipt
    have hnow : now < t + ttl := hexpiry.trans_le (min_le_left _ _)
    refine ⟨rfl, before, t, mid, rfl, hnow, hmid, hfiled, issued_of_standing hheld, ?_⟩
    rintro mid₁ frame t' mid₂ ticket' rfl hgranted
    have hlast := (hclock.within rfl hnow).2 (.begin key frame t') (by simp) t' rfl
    have hclock' : Clocked ttl (before ++ .finish _ accepted t :: mid₁ ++ [.begin key frame t']) :=
      @Clocked.of_append _ _ (mid₂ ++ [.begin key exactFrame now]) (by simpa using hclock)
    have hlasts := Reserves.lasts (.inr ⟨_, hfiled⟩) hclock'
      (fun call hcall => hmid call (mem_append_left _ hcall)) rfl hlast.2.1
    rw [(hlasts.begin hlast.2.1 frame).1] at hgranted
    cases hgranted
  · rintro before first mid ticket rfl hmid hreserves rfl ⟨t, ht, hnow⟩ hdigest
    exact ((hreserves.lasts hclock hmid ht hnow).begin hnow exactFrame).2 hdigest

/-- A ticket holds no more than its key and digest. Here a finish names the execution that returned
its ticket, counted from zero. -/
inductive TicketCall
  | begin (key : TransactionKey) (exactFrame : Text) (now : Nat)
  | finish (issuer : Nat) (accepted : Bool) (now : Nat)
  | clear

/-- The store, with the tickets it returned, the execution that reserved a key last and the tickets
already passed to a finish. -/
structure Ticketing where
  receipts : Receipts := .empty
  issued : List TransactionTicket := []
  reserver : OrdMap TransactionKey Nat := .empty
  passed : List Nat := []

namespace Ticketing

def step (digest : Text → Bytes) (ttl : Nat) (s : Ticketing) : TicketCall → Ticketing
  | .begin key exactFrame now =>
    let outcome := beginTransaction digest ttl s.receipts key exactFrame now
    match outcome.2 with
    | .ok (.execute ticket) =>
      { s with
        receipts := outcome.1
        issued := s.issued ++ [ticket]
        reserver := s.reserver.insert key s.issued.length }
    | _ => { s with receipts := outcome.1 }
  | .finish issuer accepted now =>
    match s.issued[issuer]? with
    | some ticket =>
      { s with
        receipts := (finishTransaction ttl s.receipts ticket accepted now).1
        passed := issuer :: s.passed }
    | none => s
  | .clear => { s with receipts := .empty }

def FirstUse (s : Ticketing) : TicketCall → Prop
  | .finish issuer _ _ => issuer ∉ s.passed
  | _ => True

/-- The ticket meets no unfinished receipt that was reserved again with an equal ticket. -/
def Newest (s : Ticketing) : TicketCall → Prop
  | .finish issuer _ _ => ∀ ticket ∈ s.issued[issuer]?, ∀ receipt ∈ s.receipts.get? ticket.key,
      receipt.accepted = none → ∀ r ∈ s.reserver.get? ticket.key, s.issued[r]? = some ticket →
        r = issuer
  | _ => True

/-- A finish that succeeds completes the reservation its ticket was returned for, and it does succeed
while that reservation stands. -/
def CompletesOwn (ttl : Nat) (s : Ticketing) : TicketCall → Prop
  | .finish issuer accepted now => ∀ ticket ∈ s.issued[issuer]?,
      ((finishTransaction ttl s.receipts ticket accepted now).2 = .ok () →
        s.reserver.get? ticket.key = some issuer) ∧
      (s.reserver.get? ticket.key = some issuer → (s.receipts.get? ticket.key).isSome →
        (finishTransaction ttl s.receipts ticket accepted now).2 = .ok ())
  | _ => True

def Owned (s : Ticketing) : Prop :=
  ∀ key receipt, s.receipts.get? key = some receipt → ∃ r, s.reserver.get? key = some r ∧
    s.issued[r]? = some ⟨key, receipt.frameDigest⟩ ∧ (receipt.accepted.isSome → r ∈ s.passed)

variable {s : Ticketing}

theorem Owned.step (h : s.Owned) {call : TicketCall} (hcall : s.Newest call) :
    (s.step digest ttl call).Owned := by
  cases call with
  | begin key exactFrame now =>
    have hold : ∀ key receipt, (removeExpired s.receipts now).get? key = some receipt →
        s.receipts.get? key = some receipt := by
      intro key receipt hget
      rw [removeExpired, get?_filter] at hget
      exact (filter_eq_some_iff.mp hget).1
    rcases beginTransaction_cases digest ttl s.receipts key exactFrame now with
      ⟨result, hbegin, hrefused⟩ | ⟨-, hbegin, -⟩ <;> simp only [Ticketing.step, hbegin]
    · exact fun key receipt hget => h key receipt (hold key receipt hget)
    · intro key' receipt hget
      rcases get?_insert_cases hget with ⟨rfl, rfl⟩ | ⟨hne, hget⟩
      · exact ⟨_, get?_insert_self .., getElem?_concat_length .., nofun⟩
      · obtain ⟨r, hr, hissued, hpassed⟩ := h key' receipt (hold key' receipt hget)
        refine ⟨r, (get?_insert_of_ne _ _ hne).trans hr, ?_, hpassed⟩
        exact (getElem?_append_left (List.getElem?_eq_some_iff.mp hissued).1).trans hissued
  | finish issuer accepted now =>
    rw [Ticketing.step]
    split
    · rename_i ticket hticket
      have hstays : ∀ key receipt, s.receipts.get? key = some receipt → ∃ r,
          s.reserver.get? key = some r ∧ s.issued[r]? = some ⟨key, receipt.frameDigest⟩ ∧
          (receipt.accepted.isSome → r ∈ issuer :: s.passed) := by
        intro key receipt hget
        obtain ⟨r, hr, hissued, hpassed⟩ := h key receipt hget
        exact ⟨r, hr, hissued, fun hsome => mem_cons_of_mem _ (hpassed hsome)⟩
      rcases finishTransaction_cases ttl s.receipts ticket accepted now with
        ⟨_, hfinish⟩ | ⟨old, hreceipt, hdigest, hunfinished, hfinish⟩ <;> rw [hfinish]
      · exact hstays
      · intro key receipt hget
        rcases get?_insert_cases hget with ⟨rfl, rfl⟩ | ⟨-, hget⟩
        · -- The receipt is the last reserver's, so the ticket passed here is that one's.
          obtain ⟨r, hr, hissued, -⟩ := hstays _ old hreceipt
          rw [hdigest] at hissued
          obtain rfl := hcall ticket hticket old hreceipt hunfinished r hr hissued
          exact ⟨r, hr, hissued, fun _ => mem_cons_self ..⟩
        · exact hstays key receipt hget
    · exact h
  | clear => nofun

theorem Owned.completes (h : s.Owned) {call : TicketCall} (hfirst : s.FirstUse call)
    (hnewest : s.Newest call) : s.CompletesOwn ttl call := by
  cases call with
  | finish issuer accepted now =>
    refine fun ticket hticket => ⟨fun hok => ?_, fun hown hreceipt => ?_⟩
    · rcases finishTransaction_cases ttl s.receipts ticket accepted now with
        ⟨_, hfinish⟩ | ⟨receipt, hreceipt, hdigest, hunfinished, -⟩
      · rw [hfinish] at hok
        cases hok
      · obtain ⟨r, hr, hissued, -⟩ := h _ receipt hreceipt
        rw [hdigest] at hissued
        rw [hr, hnewest ticket hticket receipt hreceipt hunfinished r hr hissued]
    · obtain ⟨receipt, hreceipt⟩ := isSome_iff_exists.mp hreceipt
      obtain ⟨r, hr, hissued, hpassed⟩ := h _ receipt hreceipt
      obtain rfl := some.inj (hown.symm.trans hr)
      have hsame := congrArg TransactionTicket.frameDigest
        (some.inj (hissued.symm.trans hticket))
      rw [finishTransaction, hreceipt]
      refine congrArg Prod.snd (if_neg (not_or.mpr ⟨not_not.mpr hsame, ?_⟩))
      exact fun hsome => hfirst (hpassed hsome)
  | _ => trivial

/-- In every run that passes each ticket once, and none while a later reservation with an equal one
is unfinished, every finish completes the reservation of its own ticket. -/
theorem completes_own (digest : Text → Bytes) (ttl : Nat) (calls : List TicketCall)
    (h : Along (fun s call => s.FirstUse call ∧ s.Newest call) (step digest ttl) {} calls) :
    Along (CompletesOwn ttl) (step digest ttl) {} calls := by
  have howned : Owned {} := nofun
  have hstep : ∀ s call, Owned s → s.FirstUse call ∧ s.Newest call → (s.step digest ttl call).Owned :=
    fun s call h hcall => h.step hcall.2
  exact Along.strengthen hstep (fun s call h hcall => h.completes hcall.1 hcall.2) howned h

def someKey : TransactionKey := ⟨0, .message, [], []⟩

theorem completes_own_once : Along (CompletesOwn 1) (step id 1) {}
    [.begin someKey [] 0, .finish 0 true 0] := by
  refine completes_own id 1 _ ⟨⟨trivial, trivial⟩, ⟨nofun, ?_⟩, trivial⟩
  intro ticket hticket receipt _ _ r hr _
  cases hticket
  cases hr
  rfl

theorem stale_ticket_completes :
    let calls := [TicketCall.begin someKey [] 0, .begin someKey [] 1, .finish 0 true 1,
      .finish 1 true 1]
    Along FirstUse (step id 1) {} calls ∧ ¬ Along (CompletesOwn 1) (step id 1) {} calls := by
  refine ⟨⟨trivial, trivial, nofun, (by decide : 1 ∉ [0]), trivial⟩, fun h => ?_⟩
  exact absurd ((h.2.2.1 ⟨someKey, []⟩ rfl).1 rfl) (by decide)

end Ticketing

end Abyssal.Direct
