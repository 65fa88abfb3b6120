import Abyssal.Base.Reading
import Abyssal.Client.Session

/-! The padding of payloads. A payload fills the fewest buckets that hold it with its header, and what
is read back as one was written for it with some filler. -/

namespace Abyssal.Client

open List

variable {n : Nat} {padded plaintext : Bytes}

theorem paddedBytes_isLeast (n : Nat) :
    IsLeast {total | payloadPaddingBucketBytes ∣ total ∧ payloadHeaderBytes + n ≤ total}
      (paddedBytes n) := by
  unfold paddedBytes payloadPaddingBucketBytes
  refine ⟨⟨Nat.dvd_mul_left _ _, by omega⟩, ?_⟩
  rintro total ⟨⟨buckets, rfl⟩, htotal⟩
  omega

theorem paddedBytes_le (h : n ≤ maxPayloadBytes) : paddedBytes n ≤ maxPaddedPayloadBytes :=
  Nat.mul_le_mul_right _ (Nat.div_le_div_right (by omega))

structure Padded (plaintext padded : Bytes) : Prop where
  pos : 0 < plaintext.length
  le_max : plaintext.length ≤ maxPayloadBytes
  size : padded.length = paddedBytes plaintext.length
  spelled : ∃ tail, padded = payloadFormatVersion :: (be 4 plaintext.length ++ (plaintext ++ tail))

theorem padPayload_of (hpos : 0 < plaintext.length) (hmax : plaintext.length ≤ maxPayloadBytes)
    (filler : Nat → UInt8) : padPayload plaintext filler =
      .ok (payloadFormatVersion :: (be 4 plaintext.length ++ (plaintext ++
        (range (paddedBytes plaintext.length - (payloadHeaderBytes + plaintext.length))).map
          filler))) := by
  refine rejectIf_bind.mpr ⟨not_or_intro (ne_nil_of_length_pos hpos) (Nat.not_lt.mpr hmax),
    rejectIf_bind.mpr ⟨Nat.not_lt.mpr (paddedBytes_le hmax), ?_⟩⟩
  rw [cons_append, cons_append, append_assoc]

theorem Padded.of_pad (hpos : 0 < plaintext.length) (hmax : plaintext.length ≤ maxPayloadBytes)
    (filler : Nat → UInt8) :
    ∃ padded, padPayload plaintext filler = .ok padded ∧ Padded plaintext padded := by
  have hroom := (paddedBytes_isLeast plaintext.length).1.2
  refine ⟨_, padPayload_of hpos hmax filler, hpos, hmax, ?_, _, rfl⟩
  rw [length_cons, length_append, length_append, length_be, length_map, length_range]
  unfold payloadHeaderBytes at *
  omega

theorem Padded.exists_pad (h : Padded plaintext padded) :
    ∃ filler, padPayload plaintext filler = .ok padded := by
  obtain ⟨hpos, hmax, hsize, tail, rfl⟩ := h
  refine ⟨fun i => tail.getD i 0, ?_⟩
  have htail : paddedBytes plaintext.length - (payloadHeaderBytes + plaintext.length) =
      tail.length := by
    rw [← hsize, length_cons, length_append, length_append, length_be, payloadHeaderBytes]
    omega
  have hfiller : (range tail.length).map (fun i => tail.getD i 0) = tail :=
    ext_getElem (by rw [length_map, length_range]) fun i _ hi => by
      rw [getElem_map, getElem_range, getD_eq_getElem?_getD, getElem?_eq_getElem hi,
        Option.getD_some]
  rw [padPayload_of hpos hmax, htail, hfiller]

theorem unpadPayload_eq_ok : unpadPayload padded = .ok plaintext ↔ Padded plaintext padded := by
  constructor
  · intro h
    obtain ⟨hframe, h⟩ := rejectIf_bind.mp h
    obtain ⟨hmax, h⟩ := rejectIf_bind.mp h
    obtain ⟨hlength, h⟩ := rejectIf_bind.mp h
    cases h
    simp only [not_or, not_not, Nat.not_lt] at hframe hmax hlength
    obtain ⟨rest, rfl⟩ := head?_eq_some_iff.mp hframe.2.2.2
    have hbe := be_ofBe (length_take_of_le (Nat.le_of_succ_le_succ hframe.1))
    rw [drop_one, tail_cons] at *
    generalize ofBe (rest.take 4) = n at hmax hlength hbe ⊢
    have hroom := (paddedBytes_isLeast n).1.2
    rw [hlength, length_cons] at hroom
    unfold payloadHeaderBytes at *
    have hn : ((rest.drop 4).take n).length = n := length_take_of_le (by rw [length_drop]; omega)
    change Padded ((rest.drop 4).take n) _
    refine ⟨by omega, hn.le.trans hmax.2, by rw [hn, hlength], (rest.drop 4).drop n, ?_⟩
    rw [hn, hbe, take_append_drop, take_append_drop]
  · rintro ⟨hpos, hmax, hsize, tail, rfl⟩
    obtain ⟨hdvd, hroom⟩ := (paddedBytes_isLeast plaintext.length).1
    have hfield : ofBe ((be 4 plaintext.length ++ (plaintext ++ tail)).take 4) =
        plaintext.length := by
      rw [take_left' (length_be 4 _), ofBe_be]
      exact Nat.mod_eq_of_lt (hmax.trans_lt (by decide))
    have hdata : ((payloadFormatVersion :: (be 4 plaintext.length ++ (plaintext ++ tail))).drop
        payloadHeaderBytes).take plaintext.length = plaintext := by
      rw [payloadHeaderBytes, drop_succ_cons, drop_left' (length_be 4 _), take_left]
    unfold unpadPayload
    simp only [drop_one, tail_cons, hfield, hdata, hsize]
    refine rejectIf_bind.mpr ⟨?_, rejectIf_bind.mpr ⟨by omega,
      rejectIf_bind.mpr ⟨not_not_intro rfl, rfl⟩⟩⟩
    rw [not_or, not_or, not_or, Nat.not_lt, Nat.not_lt, not_not, not_not]
    exact ⟨(Nat.le_add_right ..).trans hroom, paddedBytes_le hmax, Nat.mod_eq_zero_of_dvd hdvd, rfl⟩

theorem padPayload_roundTrip :
    (∀ (plaintext : Bytes) (filler : Nat → UInt8), 1 ≤ plaintext.length →
      plaintext.length ≤ maxPayloadBytes → ∃ padded, padPayload plaintext filler = .ok padded ∧
        IsLeast {total | payloadPaddingBucketBytes ∣ total ∧
          payloadHeaderBytes + plaintext.length ≤ total} padded.length ∧
        (∀ bucket, bucket * payloadPaddingBucketBytes < payloadHeaderBytes + plaintext.length →
          payloadHeaderBytes + plaintext.length ≤ (bucket + 1) * payloadPaddingBucketBytes →
          padded.length = (bucket + 1) * payloadPaddingBucketBytes) ∧
        padded.length ≤ maxPaddedPayloadBytes ∧ unpadPayload padded = .ok plaintext) ∧
    ∀ padded plaintext, unpadPayload padded = .ok plaintext →
      ∃ filler, padPayload plaintext filler = .ok padded := by
  refine ⟨fun plaintext filler hpos hmax => ?_, fun padded plaintext h => ?_⟩
  · obtain ⟨padded, hpad, hpadded⟩ := Padded.of_pad hpos hmax filler
    have hleast := paddedBytes_isLeast plaintext.length
    rw [← hpadded.size] at hleast
    refine ⟨padded, hpad, hleast, fun bucket hover hholds => ?_, ?_, unpadPayload_eq_ok.mpr hpadded⟩
    · have hle := hleast.2 ⟨Nat.dvd_mul_left _ _, hholds⟩
      obtain ⟨⟨buckets, hbuckets⟩, hroom⟩ := hleast.1
      rw [hbuckets, Nat.mul_comm] at hle hroom ⊢
      have hmore := Nat.lt_of_mul_lt_mul_right (hover.trans_le hroom)
      exact Nat.le_antisymm hle (Nat.mul_le_mul_right _ hmore)
    · rw [hpadded.size]
      exact paddedBytes_le hmax
  · exact (unpadPayload_eq_ok.mp h).exists_pad

end Abyssal.Client
