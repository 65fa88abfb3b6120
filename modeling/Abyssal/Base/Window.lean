import Mathlib.Data.BitVec

/-! A sliding window of bits over the natural numbers. Bit `i` of a window with newest
number `top` stands for the number `top - i`; numbers that have left the window are
forgotten by it, though not by the set it tracks. -/

namespace Abyssal.Window

variable {w : Nat}

def slide (window : BitVec w) (advance : Nat) : BitVec w :=
  if w ≤ advance then 1 else window <<< advance ||| 1

def mark (window : BitVec w) (lag : Nat) : BitVec w := window ||| (1 : BitVec w) <<< lag

def marked (window : BitVec w) (lag : Nat) : Bool := window &&& (1 : BitVec w) <<< lag != 0

/-- The window answers membership in `seen` for every number it can hold, and `seen` has
nothing above the newest number. -/
structure Tracks (window : BitVec w) (top : Nat) (seen : Set Nat) : Prop where
  bits : ∀ i, i < w → i ≤ top → (window.getLsbD i = true ↔ top - i ∈ seen)
  below : ∀ n ∈ seen, n ≤ top

theorem getLsbD_slide (window : BitVec w) (advance : Nat) {i : Nat} (hi : i < w) :
    (slide window advance).getLsbD i =
      (decide (i = 0) || (decide (advance ≤ i) && window.getLsbD (i - advance))) := by
  unfold slide
  split_ifs with h
  · have hle : ¬ advance ≤ i := by omega
    by_cases h0 : i = 0
    · subst h0
      simp [hi]
    · simp [h0, hle]
  · by_cases h0 : i = 0
    · subst h0
      simp [hi]
    · by_cases hle : advance ≤ i
      · rw [BitVec.getLsbD_or, BitVec.getLsbD_shiftLeft]
        simp [h0, hle, hi, Nat.not_lt.mpr hle]
      · simp [h0, hle, Nat.lt_of_not_le hle]

theorem getLsbD_mark (window : BitVec w) (lag : Nat) {i : Nat} (hi : i < w) :
    (mark window lag).getLsbD i = (window.getLsbD i || decide (i = lag)) := by
  unfold mark
  rw [BitVec.getLsbD_or, BitVec.getLsbD_shiftLeft]
  by_cases hlt : i < lag
  · simp [hlt, hi, Nat.ne_of_lt hlt]
  · by_cases heq : i = lag
    · subst heq
      have hw : 0 < w := by omega
      simp [hi, hw]
    · have hne : i - lag ≠ 0 := by omega
      simp [hlt, hi, heq, hne]

theorem marked_eq_getLsbD (window : BitVec w) {lag : Nat} (hlag : lag < w) :
    marked window lag = window.getLsbD lag := by
  unfold marked
  have hone : (1 : BitVec w) <<< lag = BitVec.twoPow w lag := by
    rw [BitVec.twoPow_eq]
    rfl
  have hne : BitVec.twoPow w lag ≠ 0 := by
    intro hzero
    have hbit := congrArg (fun bits => bits.getLsbD lag) hzero
    simp [hlag] at hbit
  rw [hone, BitVec.and_twoPow]
  cases hbit : window.getLsbD lag with
  | false => simp
  | true => simpa using hne

theorem tracks_one (hw : 0 < w) (top : Nat) : Tracks (1 : BitVec w) top {top} where
  bits i hi htop := by
    by_cases h0 : i = 0
    · subst h0
      simp [hw]
    · have hne : top - i ≠ top := by omega
      simp [h0, hne]
  below n hn := by
    rw [Set.mem_singleton_iff] at hn
    exact hn.le

variable {window : BitVec w} {top : Nat} {seen : Set Nat}

theorem Tracks.slide (h : Tracks window top seen) {advance : Nat} (hadvance : 0 < advance) :
    Tracks (slide window advance) (top + advance) (insert (top + advance) seen) where
  bits i hi htop := by
    rw [getLsbD_slide window advance hi, Set.mem_insert_iff]
    by_cases h0 : i = 0
    · simp [h0]
    · have hne : top + advance - i ≠ top + advance := by omega
      by_cases hle : advance ≤ i
      · have hbit := h.bits (i - advance) (by omega) (by omega)
        rw [show top + advance - i = top - (i - advance) by omega] at hne ⊢
        simp [h0, hle, hne, hbit]
      · -- numbers strictly between the old and the new newest one were never seen
        have hnot : top + advance - i ∉ seen := fun hmem => by
          have := h.below _ hmem
          omega
        simp [h0, hle, hne, hnot]
  below n hn := by
    rcases Set.mem_insert_iff.mp hn with rfl | hn
    · exact le_rfl
    · exact (h.below n hn).trans (Nat.le_add_right _ _)

theorem Tracks.mark (h : Tracks window top seen) {n : Nat} (hn : n ≤ top) :
    Tracks (mark window (top - n)) top (insert n seen) where
  bits i hi htop := by
    rw [getLsbD_mark window (top - n) hi, Set.mem_insert_iff, Bool.or_eq_true, h.bits i hi htop,
      decide_eq_true_eq, or_comm]
    refine or_congr ?_ Iff.rfl
    constructor <;> intro heq <;> omega
  below m hm := by
    rcases Set.mem_insert_iff.mp hm with rfl | hm
    · exact hn
    · exact h.below m hm

theorem Tracks.forget (h : Tracks window top seen) {n : Nat} (hn : n ≤ top) (hold : w ≤ top - n) :
    Tracks window top (insert n seen) where
  bits i hi htop := by
    rw [h.bits i hi htop, Set.mem_insert_iff]
    have hne : top - i ≠ n := by omega
    simp [hne]
  below m hm := by
    rcases Set.mem_insert_iff.mp hm with rfl | hm
    · exact hn
    · exact h.below m hm

end Abyssal.Window
