import Mathlib.Data.Nat.Basic
import Mathlib.Algebra.BigOperators.Group.List.Basic
import Mathlib.Data.Nat.Cast.Basic

/-! Arithmetic on 64-bit words that reports overflow, and computations that stop
at the first rejected check. -/

namespace Abyssal

variable {a b : Nat}

def wordMax : Nat := 2 ^ 64 - 1

def checkedAdd (a b : Nat) : Option Nat := if a + b ≤ wordMax then some (a + b) else none
def checkedSub (a b : Nat) : Option Nat := if b ≤ a then some (a - b) else none
def checkedMul (a b : Nat) : Option Nat := if a * b ≤ wordMax then some (a * b) else none
def saturatingAdd (a b : Nat) : Nat := min (a + b) wordMax

def checkedSumFrom : Nat → List Nat → Option Nat
  | total, [] => some total
  | total, a :: as => (checkedAdd total a).bind (fun total => checkedSumFrom total as)

def checkedSum (as : List Nat) : Option Nat := checkedSumFrom 0 as

theorem checkedAdd_eq_some {c : Nat} : checkedAdd a b = some c ↔ a + b ≤ wordMax ∧ c = a + b := by
  unfold checkedAdd
  split_ifs with h <;> simp [h, eq_comm]

theorem checkedSub_eq_some {c : Nat} : checkedSub a b = some c ↔ c + b = a := by
  unfold checkedSub
  split_ifs with h <;> simp <;> omega

theorem checkedAdd_of_le (h : a + b ≤ wordMax) : checkedAdd a b = some (a + b) :=
  if_pos h

theorem checkedAdd_bind_eq_some {α : Type} {f : Nat → Option α} {c : α} :
    (checkedAdd a b).bind f = some c ↔ a + b ≤ wordMax ∧ f (a + b) = some c := by
  unfold checkedAdd
  split_ifs with h <;> simp [h]

theorem checkedSub_bind_eq_some {α : Type} {f : Nat → Option α} {c : α} :
    (checkedSub a b).bind f = some c ↔ b ≤ a ∧ f (a - b) = some c := by
  unfold checkedSub
  split_ifs with h <;> simp [h]

theorem checkedSumFrom_eq_some {total n : Nat} {as : List Nat} (ht : total ≤ wordMax) :
    checkedSumFrom total as = some n ↔ total + as.sum ≤ wordMax ∧ n = total + as.sum := by
  induction as generalizing total with
  | nil => simp [checkedSumFrom, ht, eq_comm]
  | cons a as ih =>
    rw [checkedSumFrom, Option.bind_eq_some_iff, List.sum_cons]
    constructor
    · rintro ⟨t, hadd, hrest⟩
      obtain ⟨hle, rfl⟩ := checkedAdd_eq_some.mp hadd
      rw [← Nat.add_assoc]
      exact (ih hle).mp hrest
    · intro h
      rw [← Nat.add_assoc] at h
      have hle : total + a ≤ wordMax := by omega
      exact ⟨total + a, checkedAdd_of_le hle, (ih hle).mpr h⟩

theorem checkedSum_eq_some {as : List Nat} {n : Nat} :
    checkedSum as = some n ↔ as.sum ≤ wordMax ∧ n = as.sum := by
  rw [checkedSum, checkedSumFrom_eq_some (Nat.zero_le _), Nat.zero_add]

def rejectIf (c : Prop) [Decidable c] (reason : String) : Except String Unit :=
  if c then .error reason else .ok ()

def okOr {α : Type} (o : Option α) (reason : String) : Except String α :=
  match o with
  | none => .error reason
  | some a => .ok a

variable {α β : Type} {as : List α} {x : Except String α} {reason : String} {c : Prop}

theorem rejectIf_eq_ok [Decidable c] {u : Unit} : rejectIf c reason = .ok u ↔ ¬ c := by
  unfold rejectIf
  split_ifs with h <;> simp [h]

theorem rejectIf_of [Decidable c] (h : c) : rejectIf c reason = .error reason := if_pos h

variable {o : Option α}

theorem okOr_eq_ok {a : α} : okOr o reason = .ok a ↔ o = some a := by
  cases o <;> simp [okOr]

theorem bind_eq_ok {ε : Type} {x : Except ε α} {f : α → Except ε β} {b : β} :
    (x >>= f) = .ok b ↔ ∃ a, x = .ok a ∧ f a = .ok b := by
  cases x <;> simp [bind, Except.bind]

theorem rejectIf_bind [Decidable c] {f : Unit → Except String β} {b : β} :
    (rejectIf c reason >>= f) = .ok b ↔ ¬ c ∧ f () = .ok b := by
  rw [bind_eq_ok]
  simp only [rejectIf_eq_ok, Unique.exists_iff, PUnit.default_eq_unit]

theorem okOr_bind {f : α → Except String β} {b : β} :
    (okOr o reason >>= f) = .ok b ↔ ∃ a, o = some a ∧ f a = .ok b := by
  simp only [bind_eq_ok, okOr_eq_ok]

def refuseIf {ε : Type} (c : Prop) [Decidable c] (error : ε) : Except ε Unit :=
  if c then .error error else .ok ()

def orRefuse {ε : Type} (o : Option α) (error : ε) : Except ε α :=
  match o with
  | none => .error error
  | some a => .ok a

theorem refuseIf_eq_ok {ε : Type} [Decidable c] {error : ε} {u : Unit} :
    refuseIf c error = .ok u ↔ ¬ c := by
  unfold refuseIf
  split_ifs with h <;> simp [h]

theorem refuseIf_bind {ε : Type} [Decidable c] {error : ε} {f : Unit → Except ε β} :
    (refuseIf c error >>= f) = if c then .error error else f () := by
  unfold refuseIf
  split_ifs <;> rfl

theorem orRefuse_eq_ok {ε : Type} {error : ε} {a : α} :
    orRefuse o error = .ok a ↔ o = some a := by
  cases o <;> simp [orRefuse]

theorem except_ok_bind (a : α) (f : α → Except String β) : (Except.ok a >>= f) = f a := rfl

theorem exists_error (h : x.toOption.isNone = true) : ∃ reason, x = .error reason := by
  cases x with
  | error reason => exact ⟨reason, rfl⟩
  | ok a => cases h

theorem ok_get (h : x.toOption.isSome = true) : x = .ok (x.toOption.get h) := by
  cases x with
  | error reason => cases h
  | ok a => rfl

def foldChecked (f : β → α → Except String β) : β → List α → Except String β
  | b, [] => .ok b
  | b, a :: as => f b a >>= fun b => foldChecked f b as

theorem foldChecked_induction {f : β → α → Except String β} {P : β → Prop}
    (hstep : ∀ b a b', a ∈ as → P b → f b a = .ok b' → P b') {b b' : β} (hb : P b)
    (h : foldChecked f b as = .ok b') : P b' := by
  induction as generalizing b with
  | nil =>
    cases h
    exact hb
  | cons a as ih =>
    obtain ⟨b₁, h₁, h₂⟩ := bind_eq_ok.mp h
    exact ih (fun b a b' ha => hstep b a b' (List.mem_cons_of_mem _ ha))
      (hstep b a b₁ (List.mem_cons_self ..) hb h₁) h₂

theorem foldChecked_forall {f : β → α → Except String β} {b b' : β}
    (h : foldChecked f b as = .ok b') {a : α} (ha : a ∈ as) : ∃ c c', f c a = .ok c' := by
  induction as generalizing b with
  | nil => cases ha
  | cons a₀ as ih =>
    obtain ⟨b₁, h₁, h₂⟩ := bind_eq_ok.mp h
    rcases List.mem_cons.mp ha with rfl | ha
    · exact ⟨b, b₁, h₁⟩
    · exact ih h₂ ha

theorem foldChecked_add_eq_ok {f : Nat → α → Except String Nat} {w : α → Nat}
    (hf : ∀ total a n, f total a = .ok n ↔ total + w a ≤ wordMax ∧ n = total + w a)
    {total n : Nat} {as : List α} (ht : total ≤ wordMax) :
    foldChecked f total as = .ok n ↔
      total + (as.map w).sum ≤ wordMax ∧ n = total + (as.map w).sum := by
  induction as generalizing total with
  | nil => simp [foldChecked, ht, eq_comm]
  | cons a as ih =>
    rw [foldChecked, bind_eq_ok, List.map_cons, List.sum_cons, ← Nat.add_assoc]
    constructor
    · rintro ⟨t, hadd, hrest⟩
      obtain ⟨hle, rfl⟩ := (hf total a t).mp hadd
      exact (ih hle).mp hrest
    · intro h
      have hle : total + w a ≤ wordMax := by omega
      exact ⟨total + w a, (hf total a _).mpr ⟨hle, rfl⟩, (ih hle).mpr h⟩

def mapChecked (f : α → Except String β) : List α → Except String (List β)
  | [] => .ok []
  | a :: as => f a >>= fun b => mapChecked f as >>= fun bs => .ok (b :: bs)

theorem mapChecked_forall₂ {f : α → Except String β} {bs : List β} (h : mapChecked f as = .ok bs) :
    List.Forall₂ (fun a b => f a = .ok b) as bs := by
  induction as generalizing bs with
  | nil =>
    cases h
    exact .nil
  | cons a as ih =>
    obtain ⟨b, hb, h⟩ := bind_eq_ok.mp h
    obtain ⟨bs', hbs, h⟩ := bind_eq_ok.mp h
    cases h
    exact .cons hb (ih hbs)

end Abyssal
