import Mathlib.Tactic.Ring
import Mathlib.Data.List.Flatten
import Mathlib.Data.UInt
import Mathlib.Data.Vector.Defs

/-! Big-endian numbers and length-prefixed parts. A part behind its four-byte length can be taken
off the front of a byte string again, so a list of parts is determined by its encoding as long as
no length needs more than four bytes. -/

namespace Abyssal

open List hiding Vector

variable {n : Nat} {s r : List UInt8}

def ascii (label : String) : List UInt8 := label.toList.map fun c => UInt8.ofNat c.toNat

def be : Nat → Nat → List UInt8
  | 0, _ => []
  | w + 1, n => UInt8.ofNat (n / 256 ^ w) :: be w n

def ofBe (bytes : List UInt8) : Nat := bytes.foldl (fun n b => n * 256 + b.toNat) 0

@[simp] theorem length_be (w n : Nat) : (be w n).length = w := by
  induction w with
  | zero => rfl
  | succ w ih => rw [be, length_cons, ih]

theorem foldl_be (w n acc : Nat) :
    (be w n).foldl (fun n b => n * 256 + b.toNat) acc = acc * 256 ^ w + n % 256 ^ w := by
  induction w generalizing acc with
  | zero => simp [be, Nat.mod_one]
  | succ w ih =>
    have hbyte : (UInt8.ofNat (n / 256 ^ w)).toNat = n / 256 ^ w % 256 := UInt8.toNat_ofNat'
    have hsplit : n % 256 ^ (w + 1) = n / 256 ^ w % 256 * 256 ^ w + n % 256 ^ w := by
      rw [pow_succ, Nat.mod_mul, Nat.add_comm, Nat.mul_comm]
    rw [be, foldl_cons, ih, hbyte, hsplit, pow_succ]
    ring

theorem ofBe_be (w n : Nat) : ofBe (be w n) = n % 256 ^ w := by
  rw [ofBe, foldl_be, Nat.zero_mul, Nat.zero_add]

variable {w m : Nat}

theorem be_eq_iff : be w n = be w m ↔ n % 256 ^ w = m % 256 ^ w := by
  refine ⟨fun h => by rw [← ofBe_be, h, ofBe_be], fun h => ?_⟩
  induction w with
  | zero => rfl
  | succ w ih =>
    have hlow : n % 256 ^ w = m % 256 ^ w := by
      have := congrArg (· % 256 ^ w) h
      simpa [pow_succ, Nat.mod_mul_right_mod] using this
    have hhigh : n / 256 ^ w % 256 = m / 256 ^ w % 256 := by
      rw [← Nat.mod_mul_right_div_self, ← Nat.mod_mul_right_div_self, ← pow_succ, h]
    rw [be, be, ih hlow]
    congr 1
    apply UInt8.toNat_inj.mp
    rw [UInt8.toNat_ofNat', UInt8.toNat_ofNat', hhigh]

theorem be_injOn (hn : n < 256 ^ w) (hm : m < 256 ^ w) (h : be w n = be w m) : n = m := by
  have hmod := be_eq_iff.mp h
  rwa [Nat.mod_eq_of_lt hn, Nat.mod_eq_of_lt hm] at hmod

def lengthPrefixed (part : List UInt8) : List UInt8 := be 4 part.length ++ part

def canonicalParts (parts : List (List UInt8)) : List UInt8 := parts.flatMap lengthPrefixed

def Short (part : List UInt8) : Prop := part.length < 2 ^ 32

instance (part : List UInt8) : Decidable (Short part) := inferInstanceAs (Decidable (_ < _))

theorem length_lengthPrefixed (part : List UInt8) :
    (lengthPrefixed part).length = 4 + part.length := by
  rw [lengthPrefixed, length_append, length_be]

@[simp] theorem canonicalParts_nil : canonicalParts [] = [] := rfl

theorem canonicalParts_cons (part : List UInt8) (parts : List (List UInt8)) :
    canonicalParts (part :: parts) = lengthPrefixed part ++ canonicalParts parts :=
  flatMap_cons

variable {p q : List UInt8}

theorem lengthPrefixed_append (h : lengthPrefixed p ++ r = lengthPrefixed q ++ s) :
    p.length % 2 ^ 32 = q.length % 2 ^ 32 ∧ p ++ r = q ++ s := by
  rw [lengthPrefixed, lengthPrefixed, append_assoc, append_assoc] at h
  obtain ⟨hlength, hrest⟩ := append_inj h (by rw [length_be, length_be])
  exact ⟨be_eq_iff.mp hlength, hrest⟩

theorem lengthPrefixed_append_inj (hp : Short p) (hq : Short q)
    (h : lengthPrefixed p ++ r = lengthPrefixed q ++ s) : p = q ∧ r = s := by
  obtain ⟨hlength, hrest⟩ := lengthPrefixed_append h
  rw [Nat.mod_eq_of_lt hp, Nat.mod_eq_of_lt hq] at hlength
  exact append_inj hrest hlength

variable {parts parts' : List (List UInt8)}

theorem canonicalParts_inj (h : canonicalParts parts = canonicalParts parts')
    (hlength : parts.length = parts'.length) (hshort : ∀ p ∈ parts, Short p)
    (hshort' : ∀ p ∈ parts', Short p) : parts = parts' := by
  induction parts generalizing parts' with
  | nil => exact (length_eq_zero_iff.mp hlength.symm).symm
  | cons p parts ih =>
    obtain ⟨q, parts', rfl⟩ := exists_cons_of_length_eq_add_one hlength.symm
    rw [forall_mem_cons] at hshort hshort'
    rw [canonicalParts_cons, canonicalParts_cons] at h
    obtain ⟨rfl, hrest⟩ := lengthPrefixed_append_inj hshort.1 hshort'.1 h
    rw [ih hrest (Nat.succ.inj hlength) hshort.2 hshort'.2]

theorem length_canonicalParts_le (h : ∀ p ∈ parts, p.length < n) :
    (canonicalParts parts).length ≤ parts.length * (3 + n) := by
  induction parts with
  | nil => exact Nat.zero_le _
  | cons p parts ih =>
    rw [forall_mem_cons] at h
    have hrest := ih h.2
    rw [canonicalParts_cons, length_append, length_lengthPrefixed, length_cons, Nat.succ_mul]
    omega

/-- One part may be longer than its length field says: the others are too short for the length of
the whole to leave a choice. -/
theorem canonicalParts_inj_except (k : Nat) (h : canonicalParts parts = canonicalParts parts')
    (hlength : parts.length = parts'.length) (hn : parts.length * (3 + n) < 2 ^ 32)
    (hparts : ∀ p ∈ parts.eraseIdx k, p.length < n)
    (hparts' : ∀ p ∈ parts'.eraseIdx k, p.length < n) : parts = parts' := by
  induction parts generalizing parts' k with
  | nil => exact (length_eq_zero_iff.mp hlength.symm).symm
  | cons p parts ih =>
    obtain ⟨q, parts', rfl⟩ := exists_cons_of_length_eq_add_one hlength.symm
    rw [canonicalParts_cons, canonicalParts_cons] at h
    rw [length_cons, Nat.succ_mul] at hn
    have hcount := Nat.succ.inj hlength
    cases k with
    | zero =>
      rw [eraseIdx_cons_zero] at hparts hparts'
      have hsize := length_canonicalParts_le hparts
      have hsize' := length_canonicalParts_le hparts'
      obtain ⟨hmod, hrest⟩ := lengthPrefixed_append h
      have htotal := congrArg List.length hrest
      rw [length_append, length_append] at htotal
      rw [← hcount] at hsize'
      obtain ⟨rfl, hend⟩ := append_inj hrest (by omega)
      rw [canonicalParts_inj hend hcount
        (fun p hp => lt_of_lt_of_le (hparts p hp) (by omega))
        fun p hp => lt_of_lt_of_le (hparts' p hp) (by omega)]
    | succ k =>
      rw [eraseIdx_cons_succ, forall_mem_cons] at hparts hparts'
      obtain ⟨rfl, hrest⟩ := lengthPrefixed_append_inj (lt_of_lt_of_le hparts.1 (by omega))
        (lt_of_lt_of_le hparts'.1 (by omega)) h
      rw [ih k hrest hcount (by omega) hparts.2 hparts'.2]

theorem length_le_canonicalParts (h : p ∈ parts) : p.length ≤ (canonicalParts parts).length := by
  induction parts with
  | nil => cases h
  | cons q parts ih =>
    rw [canonicalParts_cons, length_append, length_lengthPrefixed]
    rcases mem_cons.mp h with rfl | h
    · omega
    · exact (ih h).trans (Nat.le_add_left ..)

theorem take_canonicalParts (part : List UInt8) (parts : List (List UInt8)) :
    (canonicalParts (part :: parts)).take 4 = be 4 part.length := by
  rw [canonicalParts_cons, lengthPrefixed, append_assoc]
  exact take_left' (length_be 4 _)

def exactly (n : Nat) (bytes : List UInt8) : Option (Vector UInt8 n) :=
  if h : bytes.length = n then some ⟨bytes.toArray, by simpa using h⟩ else none

theorem exactly_eq_some {bytes : List UInt8} {v : Vector UInt8 n} :
    exactly n bytes = some v ↔ v.toList = bytes := by
  unfold exactly
  constructor
  · intro h
    split_ifs at h with hlength
    rw [← Option.some.inj h]
    rfl
  · rintro rfl
    rw [dif_pos v.length_toList, Option.some.injEq]
    rfl

end Abyssal
