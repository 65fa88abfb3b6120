import Abyssal.Base.Bytes

/-! Reading bytes back. A field of a fixed width is the encoding of the number read off it, and a byte
string with enough bytes splits into a field and the rest, so that what a reader accepts is what a
writer writes. -/

namespace Abyssal

open List

theorem ofBe_snoc (bytes : List UInt8) (b : UInt8) :
    ofBe (bytes ++ [b]) = ofBe bytes * 256 + b.toNat := by
  rw [ofBe, foldl_append]
  rfl

theorem ofBe_lt (bytes : List UInt8) : ofBe bytes < 256 ^ bytes.length := by
  induction bytes using List.reverseRecOn with
  | nil => exact Nat.one_pos
  | append_singleton bytes b ih =>
    have hb : b.toNat < 256 := b.toNat_lt
    rw [ofBe_snoc, length_append, length_singleton, pow_succ]
    omega

theorem ofBe_cons (b : UInt8) (bytes : List UInt8) :
    ofBe (b :: bytes) = b.toNat * 256 ^ bytes.length + ofBe bytes := by
  induction bytes using List.reverseRecOn with
  | nil => simp [ofBe]
  | append_singleton bytes c ih =>
    rw [← cons_append, ofBe_snoc, ofBe_snoc, ih, length_append, length_singleton, pow_succ]
    ring

theorem be_ofBe {w : Nat} {bytes : List UInt8} (h : bytes.length = w) : be w (ofBe bytes) = bytes := by
  subst h
  induction bytes with
  | nil => rfl
  | cons b bytes ih =>
    have hlt := ofBe_lt bytes
    have hpos : 0 < 256 ^ bytes.length := Nat.pow_pos (by decide)
    have hhigh : ofBe (b :: bytes) / 256 ^ bytes.length = b.toNat := by
      rw [ofBe_cons, Nat.mul_comm, Nat.mul_add_div hpos, Nat.div_eq_of_lt hlt, Nat.add_zero]
    have hlow : be bytes.length (ofBe (b :: bytes)) = be bytes.length (ofBe bytes) := by
      rw [be_eq_iff, ofBe_cons, Nat.mul_comm, Nat.mul_add_mod]
    rw [length_cons, be, hhigh, hlow, ih, UInt8.ofNat_toNat]

def takePart (data : List UInt8) : Option (List UInt8 × List UInt8) :=
  if data.length < 4 ∨ (data.drop 4).length < ofBe (data.take 4) then none
  else some ((data.drop 4).take (ofBe (data.take 4)), (data.drop 4).drop (ofBe (data.take 4)))

def takeParts : Nat → List UInt8 → Option (List (List UInt8) × List UInt8)
  | 0, data => some ([], data)
  | count + 1, data => (takePart data).bind fun part =>
    (takeParts count part.2).map fun parts => (part.1 :: parts.1, parts.2)

theorem takePart_eq_some {data part rest : List UInt8} :
    takePart data = some (part, rest) ↔ Short part ∧ data = lengthPrefixed part ++ rest := by
  unfold takePart
  constructor
  · intro h
    split_ifs at h with hshort
    simp only [not_or, Nat.not_lt] at hshort
    have hfour : (data.take 4).length = 4 := length_take_of_le hshort.1
    have hlt := ofBe_lt (data.take 4)
    rw [hfour] at hlt
    obtain ⟨rfl, rfl⟩ := Prod.mk.inj (Option.some.inj h)
    have hlength := length_take_of_le hshort.2
    refine ⟨lt_of_eq_of_lt hlength hlt, ?_⟩
    rw [lengthPrefixed, hlength, be_ofBe hfour, append_assoc, take_append_drop,
      take_append_drop]
  · rintro ⟨hshort, rfl⟩
    have htake : (lengthPrefixed part ++ rest).take 4 = be 4 part.length := by
      rw [lengthPrefixed, append_assoc]
      exact take_left' (length_be 4 _)
    have hdrop : (lengthPrefixed part ++ rest).drop 4 = part ++ rest := by
      rw [lengthPrefixed, append_assoc]
      exact drop_left' (length_be 4 _)
    have hlength : ofBe (be 4 part.length) = part.length := by
      rw [ofBe_be]
      exact Nat.mod_eq_of_lt hshort
    rw [htake, hdrop, hlength, take_left, drop_left, if_neg]
    rw [length_append, length_append, length_lengthPrefixed]
    omega

theorem takeParts_eq_some {count : Nat} {data rest : List UInt8} {parts : List (List UInt8)} :
    takeParts count data = some (parts, rest) ↔
      parts.length = count ∧ (∀ p ∈ parts, Short p) ∧ data = canonicalParts parts ++ rest := by
  induction count generalizing data parts rest with
  | zero =>
    rw [takeParts, Option.some.injEq, Prod.mk.injEq, length_eq_zero_iff]
    constructor
    · rintro ⟨rfl, rfl⟩
      exact ⟨rfl, nofun, rfl⟩
    · rintro ⟨rfl, -, rfl⟩
      exact ⟨rfl, rfl⟩
  | succ count ih =>
    simp only [takeParts, Option.bind_eq_some_iff, Option.map_eq_some_iff, Prod.exists,
      takePart_eq_some, ih, Prod.mk.injEq]
    constructor
    · rintro ⟨part, _, ⟨hpart, rfl⟩, parts, _, ⟨rfl, hparts, rfl⟩, rfl, rfl⟩
      exact ⟨rfl, forall_mem_cons.mpr ⟨hpart, hparts⟩,
        by rw [canonicalParts_cons, append_assoc]⟩
    · rintro ⟨hlength, hshort, rfl⟩
      obtain ⟨part, parts, rfl⟩ := exists_cons_of_length_eq_add_one hlength
      obtain ⟨hpart, hparts⟩ := forall_mem_cons.mp hshort
      exact ⟨part, _, ⟨hpart, by rw [canonicalParts_cons, append_assoc]⟩, parts, rest,
        ⟨Nat.succ.inj hlength, hparts, rfl⟩, rfl, rfl⟩

end Abyssal
