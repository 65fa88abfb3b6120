import Mathlib.Data.List.Nodup
import Mathlib.Data.List.Perm.Basic

/-! Groups of ids under keys, each of bounded length, with one index over all ids. No id comes twice,
in one group or in two. A full group makes room for a new id by giving up its oldest. -/

namespace Abyssal

open List Option

variable {K I : Type} {limit : Nat}
  {groups groups' : K → Option (List I)} {index index' : I → Prop}

structure Grouped (limit : Nat) (groups : K → Option (List I)) (index : I → Prop) : Prop where
  sizes : ∀ k ids, groups k = some ids → ids ≠ [] ∧ ids.length ≤ limit
  nodup : ∀ k ids, groups k = some ids → ids.Nodup
  apart : ∀ k k' ids ids' i, groups k = some ids → groups k' = some ids' → i ∈ ids → i ∈ ids' → k = k'
  indexed : ∀ i, index i ↔ ∃ k ids, groups k = some ids ∧ i ∈ ids

def kept (limit : Nat) (ids : List I) : List I := if limit ≤ ids.length then ids.tail else ids

def evicted (limit : Nat) (ids : List I) : Option I := if limit ≤ ids.length then ids.head? else none

theorem kept_sublist (limit : Nat) (ids : List I) : (kept limit ids).Sublist ids := by
  rw [kept]
  split_ifs
  · exact tail_sublist ids
  · exact List.Sublist.refl ids

variable {ids : List I} {i : I}

theorem mem_kept (h : ids.Nodup) : i ∈ kept limit ids ↔ i ∈ ids ∧ evicted limit ids ≠ some i := by
  rw [kept, evicted]
  split_ifs with hfull
  · cases ids with
    | nil => simp
    | cons first rest =>
      have hfirst := (nodup_cons.mp h).1
      simp only [tail_cons, mem_cons, head?_cons, ne_eq, some.injEq]
      constructor
      · intro hi
        exact ⟨.inr hi, fun heq => hfirst (heq ▸ hi)⟩
      · rintro ⟨rfl | hi, hne⟩
        · exact absurd rfl hne
        · exact hi
  · simp

theorem mem_getD_iff {group : Option (List I)} :
    i ∈ group.getD [] ↔ ∃ ids, group = some ids ∧ i ∈ ids := by
  cases group <;> simp

namespace Grouped

theorem empty (limit : Nat) : Grouped limit (fun _ : K => (none : Option (List I))) fun _ => False where
  sizes _ _ h := nomatch h
  nodup _ _ h := nomatch h
  apart _ _ _ _ _ h := nomatch h
  indexed _ := ⟨False.elim, fun ⟨_, _, h, _⟩ => nomatch h⟩

variable (h : Grouped limit groups index)

include h

theorem congr (hgroups : ∀ k, groups' k = groups k)
    (hindex : ∀ i, index' i ↔ index i) : Grouped limit groups' index' := by
  obtain rfl : groups' = groups := funext hgroups
  obtain rfl : index' = index := funext fun i => propext (hindex i)
  exact h

theorem getD_nodup (k : K) : ((groups k).getD []).Nodup := by
  cases hk : groups k with
  | none => exact nodup_nil
  | some ids => exact h.nodup k ids hk

theorem getD_length (k : K) : ((groups k).getD []).length ≤ limit := by
  cases hk : groups k with
  | none => exact Nat.zero_le _
  | some ids => exact (h.sizes k ids hk).2

variable {k : K}

theorem mem_getD (hi : i ∈ (groups k).getD []) : index i := by
  obtain ⟨ids, hk, hi⟩ := mem_getD_iff.mp hi
  exact (h.indexed i).mpr ⟨k, ids, hk, hi⟩

theorem eq_of_mem_getD {k' : K} (hi : i ∈ (groups k).getD [])
    (hi' : i ∈ (groups k').getD []) : k = k' := by
  obtain ⟨ids, hk, hi⟩ := mem_getD_iff.mp hi
  obtain ⟨ids', hk', hi'⟩ := mem_getD_iff.mp hi'
  exact h.apart k k' ids ids' i hk hk' hi hi'

theorem replace [DecidableEq K] (hne : ids ≠ []) (hlength : ids.length ≤ limit) (hnodup : ids.Nodup)
    (hids : ∀ i ∈ ids, index i → i ∈ (groups k).getD [])
    (hgroups : ∀ k', groups' k' = if k' = k then some ids else groups k')
    (hindex : ∀ i, index' i ↔ i ∈ ids ∨ index i ∧ i ∉ (groups k).getD []) :
    Grouped limit groups' index' where
  sizes k' ids' hk' := by
    rw [hgroups] at hk'
    split_ifs at hk'
    · obtain rfl := some.inj hk'
      exact ⟨hne, hlength⟩
    · exact h.sizes k' ids' hk'
  nodup k' ids' hk' := by
    rw [hgroups] at hk'
    split_ifs at hk'
    · obtain rfl := some.inj hk'
      exact hnodup
    · exact h.nodup k' ids' hk'
  apart k₁ k₂ ids₁ ids₂ i hk₁ hk₂ hi₁ hi₂ := by
    have hother : ∀ {k' ids'}, groups k' = some ids' → i ∈ ids' → i ∈ ids → k' = k :=
      fun hk' hi' hi => h.eq_of_mem_getD (mem_getD_iff.mpr ⟨_, hk', hi'⟩)
        (hids i hi ((h.indexed i).mpr ⟨_, _, hk', hi'⟩))
    rw [hgroups] at hk₁ hk₂
    split_ifs at hk₁ hk₂ with h₁ h₂ h₂
    · rw [h₁, h₂]
    · obtain rfl := some.inj hk₁
      exact h₁.trans (hother hk₂ hi₂ hi₁).symm
    · obtain rfl := some.inj hk₂
      exact (hother hk₁ hi₁ hi₂).trans h₂.symm
    · exact h.apart k₁ k₂ ids₁ ids₂ i hk₁ hk₂ hi₁ hi₂
  indexed i := by
    rw [hindex]
    constructor
    · rintro (hi | ⟨hi, hnot⟩)
      · exact ⟨k, ids, by rw [hgroups, if_pos rfl], hi⟩
      · obtain ⟨k', ids', hk', hi'⟩ := (h.indexed i).mp hi
        refine ⟨k', ids', ?_, hi'⟩
        rw [hgroups, if_neg, hk']
        rintro rfl
        exact hnot (by rwa [hk'])
    · rintro ⟨k', ids', hk', hi'⟩
      rw [hgroups] at hk'
      split_ifs at hk' with heq
      · obtain rfl := some.inj hk'
        exact .inl hi'
      · refine .inr ⟨(h.indexed i).mpr ⟨k', ids', hk', hi'⟩, fun hi => heq ?_⟩
        exact h.eq_of_mem_getD (mem_getD_iff.mpr ⟨ids', hk', hi'⟩) hi

theorem push [DecidableEq K] (hlimit : 0 < limit) (hnew : ¬ index i)
    (hgroups : ∀ k', groups' k' =
      if k' = k then some (kept limit ((groups k).getD []) ++ [i]) else groups k')
    (hindex : ∀ j, index' j ↔ j = i ∨ index j ∧ evicted limit ((groups k).getD []) ≠ some j) :
    Grouped limit groups' index' := by
  have hnodup := h.getD_nodup k
  have hsub := kept_sublist limit ((groups k).getD [])
  have hfresh : i ∉ kept limit ((groups k).getD []) := fun hi => hnew (h.mem_getD (hsub.subset hi))
  refine h.replace (by simp) ?_ ?_ ?_ hgroups fun j => ?_
  · have hlength := h.getD_length k
    rw [length_append, length_singleton, kept]
    split_ifs with hfull
    · rw [length_tail]
      omega
    · omega
  · exact nodup_append.mpr ⟨hnodup.sublist hsub, nodup_singleton i, by
      intro a ha b hb heq
      rw [mem_singleton] at hb
      exact hfresh (hb ▸ heq ▸ ha)⟩
  · intro j hj hindexed
    rcases mem_append.mp hj with hkept | hj
    · exact hsub.subset hkept
    · exact absurd (mem_singleton.mp hj ▸ hindexed) hnew
  · rw [hindex, mem_append, mem_singleton, mem_kept hnodup]
    constructor
    · rintro (rfl | ⟨hj, hstays⟩)
      · exact .inl (.inr rfl)
      · by_cases hmem : j ∈ (groups k).getD []
        · exact .inl (.inl ⟨hmem, hstays⟩)
        · exact .inr ⟨hj, hmem⟩
    · rintro ((⟨hj, hstays⟩ | rfl) | ⟨hj, hmem⟩)
      · exact .inr ⟨h.mem_getD hj, hstays⟩
      · exact .inl rfl
      · refine .inr ⟨hj, fun hout => hmem ?_⟩
        rw [evicted] at hout
        split_ifs at hout
        exact mem_of_mem_head? hout

variable {keys : List K}

theorem nodup_flatMap (hkeys : keys.Nodup) : (keys.flatMap fun k => (groups k).getD []).Nodup := by
  exact List.nodup_flatMap.mpr ⟨fun k _ => h.getD_nodup k,
    hkeys.imp fun hne i hi hi' => hne (h.eq_of_mem_getD hi hi')⟩

theorem mem_flatMap (hkeys : ∀ k, k ∈ keys ↔ ∃ ids, groups k = some ids) :
    (i ∈ keys.flatMap fun k => (groups k).getD []) ↔ index i := by
  rw [List.mem_flatMap, h.indexed]
  constructor
  · rintro ⟨k, -, hi⟩
    exact ⟨k, mem_getD_iff.mp hi⟩
  · rintro ⟨k, ids, hids, hi⟩
    exact ⟨k, (hkeys k).mpr ⟨ids, hids⟩, mem_getD_iff.mpr ⟨ids, hids, hi⟩⟩

end Grouped

end Abyssal
