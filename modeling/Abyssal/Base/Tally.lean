import Abyssal.Base.OrdMap
import Mathlib.Data.Finset.Card

/-! Counting occurrences of keys in an ordered map, under a limit on the number of keys of the
map, one on a running total over several maps, and one on each count. Whether a list of keys can
be recorded does not depend on its order. -/

namespace Abyssal.OrdMap

open List

variable {K : Type} [LinearOrder K]

def tick (m : OrdMap K Nat) (k : K) : OrdMap K Nat := m.insert k ((m.get? k).getD 0 + 1)

def tally (m : OrdMap K Nat) (ks : List K) : OrdMap K Nat := ks.foldl tick m

def times (k : K) (ks : List K) : Nat := ks.countP fun k' => decide (k' = k)

def fresh (m : OrdMap K Nat) (ks : List K) : Finset K :=
  ks.toFinset.filter fun k => (m.get? k).isNone

section

variable (m : OrdMap K Nat) (k : K) (ks ls : List K)

theorem times_cons (k' : K) : times k' (k :: ks) = times k' ks + if k = k' then 1 else 0 := by
  rw [times, countP_cons]
  simp only [decide_eq_true_eq]
  rfl

theorem times_of_notMem {k' : K} (h : k' ∉ ks) : times k' ks = 0 :=
  countP_eq_zero.mpr fun _ ha heq => h (of_decide_eq_true heq ▸ ha)

theorem times_append (k' : K) : times k' (ks ++ ls) = times k' ks + times k' ls := countP_append

@[simp] theorem tally_nil : m.tally [] = m := rfl

@[simp] theorem tally_cons : m.tally (k :: ks) = (m.tick k).tally ks := rfl

theorem tally_append : m.tally (ks ++ ls) = (m.tally ks).tally ls := foldl_append

theorem getD_tick (k' : K) :
    ((m.tick k).get? k').getD 0 = (m.get? k').getD 0 + if k = k' then 1 else 0 := by
  rw [tick, get?_insert]
  split_ifs with h
  · rw [h]
    rfl
  · rfl

theorem getD_tally (k' : K) :
    ((m.tally ks).get? k').getD 0 = (m.get? k').getD 0 + times k' ks := by
  induction ks generalizing m with
  | nil => rfl
  | cons k ks ih =>
    rw [tally_cons, ih, getD_tick, times_cons]
    omega

@[simp] theorem fresh_nil : m.fresh [] = ∅ := rfl

theorem mem_fresh {k' : K} : k' ∈ m.fresh ks ↔ k' ∈ ks ∧ m.get? k' = none := by
  rw [fresh, Finset.mem_filter, mem_toFinset, Option.isNone_iff_eq_none]

theorem fresh_cons : m.fresh (k :: ks) =
    if m.get? k = none then Insert.insert k ((m.tick k).fresh ks) else (m.tick k).fresh ks := by
  ext k'
  split_ifs with h
  · simp only [mem_fresh, Finset.mem_insert, mem_cons, tick, get?_insert]
    by_cases hk : k' = k
    · simp only [hk, h, true_or, and_self]
    · simp only [hk, Ne.symm hk, false_or, if_false]
  · simp only [mem_fresh, mem_cons, tick, get?_insert]
    by_cases hk : k' = k
    · simp only [hk, h, and_false, if_true, reduceCtorEq]
    · simp only [hk, Ne.symm hk, false_or, if_false]

theorem card_fresh_cons : (m.fresh (k :: ks)).card =
    (if m.get? k = none then 1 else 0) + ((m.tick k).fresh ks).card := by
  rw [fresh_cons]
  split_ifs with h
  · have hnot : k ∉ (m.tick k).fresh ks := by
      rw [mem_fresh, tick, get?_insert_self]
      exact fun hmem => absurd hmem.2 (by simp)
    rw [Finset.card_insert_of_notMem hnot, Nat.add_comm]
  · rw [Nat.zero_add]

theorem size_tick : (m.tick k).size = m.size + if m.get? k = none then 1 else 0 := by
  cases h : m.get? k with
  | none => rw [tick, size_insert_new h, if_pos rfl]
  | some n => rw [tick, size_insert_of_get? h, if_neg (by simp), Nat.add_zero]

theorem card_fresh_append :
    (m.fresh (ks ++ ls)).card = (m.fresh ks).card + ((m.tally ks).fresh ls).card := by
  induction ks generalizing m with
  | nil => rw [nil_append, fresh_nil, Finset.card_empty, Nat.zero_add, tally_nil]
  | cons k ks ih => rw [cons_append, card_fresh_cons, ih, card_fresh_cons, tally_cons,
      Nat.add_assoc]

end

structure TallyLimits where
  keys : Nat
  total : Nat
  count : Nat

/-- A list of keys can be recorded: the new ones stay within the limits of the map and of the
total, and no count passes its own. -/
structure Fits (limits : TallyLimits) (m : OrdMap K Nat) (total : Nat) (ks : List K) : Prop where
  keys : 0 < (m.fresh ks).card → m.size + (m.fresh ks).card ≤ limits.keys
  total : 0 < (m.fresh ks).card → total + (m.fresh ks).card ≤ limits.total
  count : ∀ k ∈ ks, (m.get? k).getD 0 + times k ks ≤ limits.count

structure FitsOne (limits : TallyLimits) (m : OrdMap K Nat) (total : Nat) (k : K) : Prop where
  keys : m.get? k = none → m.size < limits.keys
  total : m.get? k = none → total < limits.total
  count : (m.get? k).getD 0 < limits.count

section

variable {limits : TallyLimits} {m : OrdMap K Nat} {total : Nat} {k : K} {ks ls : List K}

theorem Fits.nil : Fits limits m total [] := by
  refine ⟨fun h => ?_, fun h => ?_, fun k hk => absurd hk not_mem_nil⟩
  · exact absurd h (by simp)
  · exact absurd h (by simp)

theorem room_cons {p : Prop} [Decidable p] {base limit n : Nat} :
    (0 < (if p then 1 else 0) + n → base + ((if p then 1 else 0) + n) ≤ limit) ↔
      (p → base < limit) ∧ (0 < n → base + (if p then 1 else 0) + n ≤ limit) := by
  by_cases hp : p
  · simp only [hp, if_true, true_imp_iff]
    omega
  · simp only [hp, if_false, false_imp_iff, true_and, Nat.zero_add, Nat.add_zero]

theorem fits_cons : Fits limits m total (k :: ks) ↔ FitsOne limits m total k ∧
    Fits limits (m.tick k) (total + if m.get? k = none then 1 else 0) ks := by
  have hcard := card_fresh_cons m k ks
  have hsize := size_tick m k
  constructor
  · rintro ⟨hkeys, htotal, hcount⟩
    rw [hcard] at hkeys htotal
    obtain ⟨hkey, hkeys⟩ := room_cons.mp hkeys
    obtain ⟨hone, htotal⟩ := room_cons.mp htotal
    have hself := hcount k (mem_cons_self ..)
    rw [times_cons, if_pos rfl] at hself
    refine ⟨⟨hkey, hone, by omega⟩, hsize ▸ hkeys, htotal, fun k' hk' => ?_⟩
    have := hcount k' (mem_cons_of_mem _ hk')
    rw [times_cons] at this
    rw [getD_tick]
    omega
  · rintro ⟨hone, hkeys, htotal, hcount⟩
    rw [hsize] at hkeys
    refine ⟨?_, ?_, fun k' hk' => ?_⟩
    · rw [hcard]
      exact room_cons.mpr ⟨hone.keys, hkeys⟩
    · rw [hcard]
      exact room_cons.mpr ⟨hone.total, htotal⟩
    · by_cases hmem : k' ∈ ks
      · have := hcount k' hmem
        rw [getD_tick] at this
        rw [times_cons]
        omega
      · obtain rfl : k' = k := (mem_cons.mp hk').resolve_right hmem
        have := hone.count
        rw [times_cons, if_pos rfl, times_of_notMem ks hmem]
        omega

theorem fits_append : Fits limits m total (ks ++ ls) ↔ Fits limits m total ks ∧
    Fits limits (m.tally ks) (total + (m.fresh ks).card) ls := by
  induction ks generalizing m total with
  | nil =>
    rw [nil_append, tally_nil, fresh_nil, Finset.card_empty, Nat.add_zero]
    exact ⟨fun h => ⟨.nil, h⟩, fun h => h.2⟩
  | cons k ks ih =>
    rw [cons_append, fits_cons, ih, fits_cons, tally_cons, card_fresh_cons, and_assoc,
      Nat.add_assoc]

theorem fresh_congr (h : ∀ k, k ∈ ks ↔ k ∈ ls) : m.fresh ks = m.fresh ls := by
  ext k
  rw [mem_fresh, mem_fresh, h]

theorem times_perm (hp : ks.Perm ls) (k : K) : times k ks = times k ls := hp.countP_eq _

theorem perm_of_times (h : ∀ k, times k ks = times k ls) : ks.Perm ls :=
  perm_iff_count.mpr h

theorem Fits.perm (h : Fits limits m total ks) (hp : ks.Perm ls) : Fits limits m total ls := by
  have hfresh : m.fresh ks = m.fresh ls := fresh_congr fun _ => hp.mem_iff
  refine ⟨hfresh ▸ h.keys, hfresh ▸ h.total, fun k hk => ?_⟩
  rw [← times_perm hp]
  exact h.count k (hp.mem_iff.mpr hk)

end

section

variable {A B : Type} [LinearOrder A] [LinearOrder B]

def grouped (f : A → List B) (as : List A) : List (A ×ₗ B) :=
  as.flatMap fun a => (f a).map fun b => toLex (a, b)

theorem times_map_toLex (a a' : A) (b : B) (bs : List B) :
    times (toLex (a, b)) (bs.map fun b => toLex (a', b)) = if a' = a then times b bs else 0 := by
  split_ifs with h
  · rw [h, times, countP_map]
    refine countP_congr fun b' _ => ?_
    simp only [Function.comp_apply, decide_eq_true_eq, EmbeddingLike.apply_eq_iff_eq, Prod.mk.injEq,
      true_and]
  · refine times_of_notMem _ fun hmem => ?_
    obtain ⟨b', -, hb'⟩ := mem_map.mp hmem
    exact h (Prod.mk.inj (toLex.injective hb')).1

theorem times_grouped (f : A → List B) {as : List A} (hnd : as.Nodup) (a : A) (b : B) :
    times (toLex (a, b)) (grouped f as) = if a ∈ as then times b (f a) else 0 := by
  induction as with
  | nil => rfl
  | cons a' as ih =>
    obtain ⟨hnot, hnd⟩ := nodup_cons.mp hnd
    have hhead : grouped f (a' :: as) = ((f a').map fun b => toLex (a', b)) ++ grouped f as :=
      flatMap_cons
    rw [hhead, times_append, times_map_toLex, ih hnd]
    by_cases ha : a' = a
    · subst ha
      simp [hnot]
    · simp [ha, Ne.symm ha]

end

end Abyssal.OrdMap
