import Mathlib.Data.List.NodupEquivFin

/-! Runs of a deterministic machine whose steps a guard may restrict, and paths of a
labelled relation. -/

namespace Abyssal

open List

variable {S L M : Type}

def runFrom (step : S → L → S) (s : S) (ls : List L) : S := ls.foldl step s

/-- Every step of the run is taken from a state where the guard allows it. -/
def Along (guard : S → L → Prop) (step : S → L → S) : S → List L → Prop
  | _, [] => True
  | s, l :: ls => guard s l ∧ Along guard step (step s l) ls

instance Along.decidable {guard : S → L → Prop} {step : S → L → S}
    [h : ∀ s l, Decidable (guard s l)] : ∀ s ls, Decidable (Along guard step s ls)
  | _, [] => .isTrue trivial
  | s, l :: ls => @instDecidableAnd _ _ (h s l) (Along.decidable (step s l) ls)

section Runs

variable {step : S → L → S} {guard : S → L → Prop} {Inv : S → Prop} {ls ms : List L}

theorem Along.invariant (hstep : ∀ s l, Inv s → guard s l → Inv (step s l)) {s : S} {ls : List L}
    (hs : Inv s) (h : Along guard step s ls) : Inv (runFrom step s ls) := by
  induction ls generalizing s with
  | nil => exact hs
  | cons l ls ih => exact ih (hstep s l hs h.1) h.2

theorem Along.of_forall (h : ∀ s, ∀ l ∈ ls, guard s l) (s : S) : Along guard step s ls := by
  induction ls generalizing s with
  | nil => trivial
  | cons l ls ih =>
    exact ⟨h s l (mem_cons_self ..), ih (fun s l hl => h s l (mem_cons_of_mem _ hl)) _⟩

/-- What follows from the guard where an invariant holds, holds along the run. -/
theorem Along.strengthen {Post : S → L → Prop}
    (hstep : ∀ s l, Inv s → guard s l → Inv (step s l))
    (hpost : ∀ s l, Inv s → guard s l → Post s l) {s : S} {ls : List L}
    (hs : Inv s) (h : Along guard step s ls) : Along Post step s ls := by
  induction ls generalizing s with
  | nil => trivial
  | cons l ls ih => exact ⟨hpost s l hs h.1, ih (hstep s l hs h.1) h.2⟩

theorem run_invariant (hstep : ∀ s l, Inv s → Inv (step s l)) {s : S} (hs : Inv s)
    (ls : List L) : Inv (runFrom step s ls) := by
  induction ls generalizing s with
  | nil => exact hs
  | cons l ls ih => exact ih (hstep s l hs)

/-- A run either keeps a property or has a first step that leaves it. -/
theorem run_leaves {Leaves : S → L → Prop}
    (hstep : ∀ s l, Inv s → Inv (step s l) ∨ Leaves s l) {s : S} (hs : Inv s) (ls : List L) :
    Inv (runFrom step s ls) ∨ ∃ before l later, ls = before ++ l :: later ∧
      Along (fun s _ => Inv s) step s before ∧ Inv (runFrom step s before) ∧
        Leaves (runFrom step s before) l := by
  induction ls generalizing s with
  | nil => exact .inl hs
  | cons l ls ih =>
    rcases hstep s l hs with hl | hl
    · rcases ih hl with h | ⟨before, l', later, rfl, halong, hlast, hleaves⟩
      · exact .inl h
      · exact .inr ⟨l :: before, l', later, rfl, ⟨hs, halong⟩, hlast, hleaves⟩
    · exact .inr ⟨[], l, ls, rfl, trivial, hs, hl⟩

end Runs

/-- The second list is the first without some elements, all of which satisfy `P`. -/
inductive Dropping (P : L → Prop) : List L → List L → Prop
  | nil : Dropping P [] []
  | keep (l : L) {ls ms : List L} : Dropping P ls ms → Dropping P (l :: ls) (l :: ms)
  | drop {l : L} {ls ms : List L} : P l → Dropping P ls ms → Dropping P (l :: ls) ms

namespace Dropping

variable {P : L → Prop} {ls ms : List L}

theorem refl (ls : List L) : Dropping P ls ls := by
  induction ls with
  | nil => exact .nil
  | cons l ls ih => exact .keep l ih

theorem of_filter {keep : L → Bool} (h : ∀ l ∈ ls, keep l = false → P l) :
    Dropping P ls (ls.filter keep) := by
  induction ls with
  | nil => exact .nil
  | cons l ls ih =>
    have hrest := ih (fun m hm => h m (mem_cons_of_mem _ hm))
    cases hkeep : keep l with
    | true =>
      rw [filter_cons_of_pos hkeep]
      exact .keep l hrest
    | false =>
      rw [filter_cons_of_neg (by simp [hkeep])]
      exact .drop (h l (mem_cons_self ..) hkeep) hrest

theorem imp {Q : L → Prop} (h : Dropping P ls ms) (hPQ : ∀ l ∈ ls, P l → Q l) :
    Dropping Q ls ms := by
  induction h with
  | nil => exact .nil
  | keep l _ ih => exact .keep l (ih fun m hm => hPQ m (mem_cons_of_mem _ hm))
  | drop hl _ ih =>
    exact .drop (hPQ _ (mem_cons_self ..) hl) (ih fun m hm => hPQ m (mem_cons_of_mem _ hm))

theorem of_sublist (h : ms.Sublist ls) : Dropping (fun _ => True) ls ms := by
  induction h with
  | slnil => exact .nil
  | cons l _ ih => exact .drop trivial ih
  | cons_cons l _ ih => exact .keep l ih

theorem sublist (h : Dropping P ls ms) : ms.Sublist ls := by
  induction h with
  | nil => exact .slnil
  | keep l _ ih => exact ih.cons_cons l
  | drop _ _ ih => exact ih.cons _

end Dropping

theorem prefix_snoc {ls ms : List L} {l : L} (h : ms <+: ls) (hl : ls[ms.length]? = some l) :
    ms ++ [l] <+: ls := by
  obtain ⟨rest, rfl⟩ := h
  rw [getElem?_append_right le_rfl, Nat.sub_self] at hl
  cases rest with
  | nil => cases hl
  | cons l' rest =>
    obtain rfl := Option.some.inj hl
    exact ⟨rest, by rw [append_assoc]; rfl⟩

theorem forall₂_pairs {R : L → M → Prop} {ls : List L} {ms : List M} (h : List.Forall₂ R ls ms) :
    ∃ ps : List (L × M), (∀ p ∈ ps, R p.1 p.2) ∧ ps.map Prod.fst = ls ∧ ps.map Prod.snd = ms :=
  ⟨ls.zip ms, fun _ hp => forall₂_zip h hp, map_fst_zip h.length_eq.le, map_snd_zip h.length_eq.ge⟩

theorem forall₂_mem_right {R : L → M → Prop} {ls : List L} {ms : List M}
    (h : List.Forall₂ R ls ms) {m : M} (hm : m ∈ ms) : ∃ l ∈ ls, R l m := by
  obtain ⟨ps, hps, rfl, rfl⟩ := forall₂_pairs h
  obtain ⟨p, hp, rfl⟩ := mem_map.mp hm
  exact ⟨p.1, mem_map_of_mem hp, hps p hp⟩

theorem related_snoc {R : Nat → L → M → Prop} {ls : List L} {ms : List M} {l : L} {m : M}
    (hlength : ms.length = ls.length)
    (h : ∀ i l, ls[i]? = some l → ∃ m, ms[i]? = some m ∧ R i l m) (hlast : R ls.length l m)
    (i : Nat) (l' : L) (hl' : (ls ++ [l])[i]? = some l') :
    ∃ m', (ms ++ [m])[i]? = some m' ∧ R i l' m' := by
  rcases Nat.lt_or_ge i ls.length with hi | hi
  · rw [getElem?_append_left hi] at hl'
    rw [getElem?_append_left (hlength ▸ hi)]
    exact h i l' hl'
  · have hend := (List.getElem?_eq_some_iff.mp hl').1
    rw [length_append, length_singleton] at hend
    obtain rfl : i = ls.length := by omega
    rw [getElem?_concat_length, Option.some.injEq] at hl'
    subst hl'
    refine ⟨m, ?_, hlast⟩
    rw [← hlength, getElem?_concat_length]

/-- Some elements of a list go, and one that relates to the only element of `ls` may come behind
them. The elements are compared by `f`. -/
def Extends {A : Type} (R : L → M → Prop) (f : M → A) (ls : List L) (ms ms' : List M) : Prop :=
  ∃ new, (ms'.map f).Sublist ((ms ++ new).map f) ∧
    (new = [] ∨ ∃ l m, ls = [l] ∧ new = [m] ∧ R l m)

section Extends

variable {A : Type} {R : L → M → Prop} {f : M → A} {ls : List L} {ms ms' kept : List M}

theorem Extends.of_sublist (h : (ms'.map f).Sublist (ms.map f)) : Extends R f ls ms ms' :=
  ⟨[], by rwa [append_nil], .inl rfl⟩

theorem Extends.snoc {l : L} {m : M} (h : (kept.map f).Sublist (ms.map f)) (hlm : R l m) :
    Extends R f [l] ms (kept ++ [m]) := by
  refine ⟨[m], ?_, .inr ⟨l, m, rfl, rfl, hlm⟩⟩
  rw [map_append, map_append]
  exact h.append_right _

theorem Extends.sublist_left (h : (kept.map f).Sublist (ms.map f)) (he : Extends R f ls kept ms') :
    Extends R f ls ms ms' := by
  obtain ⟨new, hsub, hnew⟩ := he
  refine ⟨new, hsub.trans ?_, hnew⟩
  rw [map_append, map_append]
  exact h.append_right _

end Extends

/-- The second list relates, element by element and in order, to a sublist of the first. -/
def Subsequence (R : L → M → Prop) (ls : List L) (ms : List M) : Prop :=
  ∃ sub, sub.Sublist ls ∧ List.Forall₂ R sub ms

namespace Subsequence

variable {R : L → M → Prop} {ls ls' : List L} {ms ms' : List M}

theorem nil (ls : List L) : Subsequence R ls [] := ⟨[], nil_sublist ls, .nil⟩

variable (h : Subsequence R ls ms)

include h

theorem append_right (ls' : List L) : Subsequence R (ls ++ ls') ms := by
  obtain ⟨sub, hsub, hall⟩ := h
  exact ⟨sub, hsub.trans (sublist_append_left ls ls'), hall⟩

theorem snoc {l : L} {m : M} (hlm : R l m) : Subsequence R (ls ++ [l]) (ms ++ [m]) := by
  obtain ⟨sub, hsub, hall⟩ := h
  exact ⟨sub ++ [l], hsub.append_right [l], rel_append hall (.cons hlm .nil)⟩

theorem sublist (hms : ms'.Sublist ms) : Subsequence R ls ms' := by
  obtain ⟨sub, hsub, hall⟩ := h
  obtain ⟨ps, hps, rfl, rfl⟩ := forall₂_pairs hall
  obtain ⟨ps', hps', rfl⟩ := sublist_map_iff.mp hms
  refine ⟨ps'.map Prod.fst, (hps'.map _).trans hsub, ?_⟩
  rw [forall₂_map_left_iff, forall₂_map_right_iff, forall₂_same]
  exact fun p hp => hps p (hps'.subset hp)

theorem exists_of_mem {m : M} (hm : m ∈ ms) : ∃ l ∈ ls, R l m := by
  obtain ⟨sub, hsub, hall⟩ := h
  obtain ⟨l, hl, hlm⟩ := forall₂_mem_right hall hm
  exact ⟨l, hsub.subset hl, hlm⟩

theorem of_map_eq {A : Type} {f : M → A}
    (hf : ∀ l m m', f m = f m' → R l m → R l m') (heq : ms.map f = ms'.map f) :
    Subsequence R ls ms' := by
  obtain ⟨sub, hsub, hall⟩ := h
  refine ⟨sub, hsub, ?_⟩
  clear hsub
  induction hall generalizing ms' with
  | nil =>
    obtain rfl : ms' = [] := by simpa using heq.symm
    exact .nil
  | cons hlm _ ih =>
    cases ms' with
    | nil => simp at heq
    | cons m' ms' =>
      obtain ⟨hhead, htail⟩ := cons_eq_cons.mp heq
      exact .cons (hf _ _ _ hhead hlm) (ih htail)

theorem extend {A : Type} {f : M → A} (hf : ∀ l m m', f m = f m' → R l m → R l m')
    (he : Extends R f ls' ms ms') : Subsequence R (ls ++ ls') ms' := by
  obtain ⟨new, hsub, hnew⟩ := he
  have hall : Subsequence R (ls ++ ls') (ms ++ new) := by
    rcases hnew with rfl | ⟨l, m, rfl, rfl, hlm⟩
    · rw [append_nil]
      exact h.append_right ls'
    · exact h.snoc hlm
  obtain ⟨kept, hkept, heq⟩ := sublist_map_iff.mp hsub
  exact (hall.sublist hkept).of_map_eq hf heq.symm

end Subsequence

/-- The elements of the second list with the positions in the first of what they relate to. -/
structure Marking (R : L → M → Prop) (ls : List L) (ms : List M) (marked : List (Nat × M)) :
    Prop where
  items : marked.map Prod.snd = ms
  ordered : (marked.map Prod.fst).Pairwise (· < ·)
  related : ∀ p ∈ marked, ∃ l, ls[p.1]? = some l ∧ R l p.2

/-- What is left keeps its mark, and what is new has the mark `n`. -/
def Carries {A : Type} (f : M → A) (n : Nat) (marked marked' : List (Nat × M)) : Prop :=
  ∃ new, (∀ p ∈ new, p.1 = n) ∧
    (marked'.map (Prod.map id f)).Sublist ((marked ++ new).map (Prod.map id f))

section Marking

variable {A : Type} {R : L → M → Prop} {f : M → A} {ls ls' : List L} {ms ms' : List M}
  {marked : List (Nat × M)}

theorem exists_marked {kept : List (Nat × M)} (h : ms'.map f = kept.map fun p => f p.2) :
    ∃ marked' : List (Nat × M), marked'.map Prod.snd = ms' ∧
      marked'.map (Prod.map id f) = kept.map (Prod.map id f) := by
  induction kept generalizing ms' with
  | nil => exact ⟨[], by simpa using h.symm, rfl⟩
  | cons p kept ih =>
    cases ms' with
    | nil => simp at h
    | cons m ms' =>
      obtain ⟨hhead, htail⟩ := cons_eq_cons.mp h
      obtain ⟨marked', hitems, hmarks⟩ := ih htail
      refine ⟨(p.1, m) :: marked', by rw [map_cons, hitems], ?_⟩
      rw [map_cons, map_cons, hmarks]
      exact congrArg (· :: _) (Prod.ext rfl hhead)

theorem Marking.lt_length (h : Marking R ls ms marked) {p : Nat × M} (hp : p ∈ marked) :
    p.1 < ls.length := by
  obtain ⟨l, hl, -⟩ := h.related p hp
  exact (List.getElem?_eq_some_iff.mp hl).1

theorem Marking.same_order {marked' : List (Nat × M)} (h : Marking R ls ms marked)
    (h' : Marking R ls ms' marked') {i j i' j' n n' : Nat}
    (hi : (marked.map Prod.fst)[i]? = some n) (hi' : (marked'.map Prod.fst)[i']? = some n)
    (hj : (marked.map Prod.fst)[j]? = some n') (hj' : (marked'.map Prod.fst)[j']? = some n')
    (hlt : i < j) : i' < j' := by
  obtain ⟨hlength, hn⟩ := List.getElem?_eq_some_iff.mp hi
  obtain ⟨hlength', hn'⟩ := List.getElem?_eq_some_iff.mp hj
  obtain ⟨hback, hm⟩ := List.getElem?_eq_some_iff.mp hi'
  obtain ⟨hback', hm'⟩ := List.getElem?_eq_some_iff.mp hj'
  have hmark := pairwise_iff_getElem.mp h.ordered i j hlength hlength' hlt
  rcases Nat.lt_trichotomy i' j' with hless | rfl | hmore
  · exact hless
  · omega
  · have hmark' := pairwise_iff_getElem.mp h'.ordered j' i' hback' hback hmore
    omega

theorem Marking.append (h : Marking R ls ms marked) {new : List M}
    (hnew : new = [] ∨ ∃ l m, ls' = [l] ∧ new = [m] ∧ R l m) :
    Marking R (ls ++ ls') (ms ++ new) (marked ++ new.map (Prod.mk ls.length)) := by
  have hold : ∀ p ∈ marked, ∃ l, (ls ++ ls')[p.1]? = some l ∧ R l p.2 := by
    intro p hp
    rw [getElem?_append_left (h.lt_length hp)]
    exact h.related p hp
  rcases hnew with rfl | ⟨l, m, rfl, rfl, hlm⟩
  · simp only [map_nil, append_nil]
    exact ⟨h.items, h.ordered, hold⟩
  · refine ⟨by rw [map_append, h.items]; rfl, ?_, fun p hp => ?_⟩
    · rw [map_append, pairwise_append]
      refine ⟨h.ordered, pairwise_singleton .., fun n hn n' hn' => ?_⟩
      obtain ⟨p, hp, rfl⟩ := mem_map.mp hn
      rw [mem_singleton.mp hn']
      exact h.lt_length hp
    · rcases mem_append.mp hp with hp | hp
      · exact hold p hp
      · rw [mem_singleton.mp hp]
        exact ⟨l, getElem?_concat_length, hlm⟩

/-- A list that is extended keeps its marks, and what is new is marked with the position of what it
was made for. -/
theorem Marking.extend (hf : ∀ l m m', f m = f m' → R l m → R l m') (h : Marking R ls ms marked)
    (he : Extends R f ls' ms ms') :
    ∃ marked', Marking R (ls ++ ls') ms' marked' ∧ Carries f ls.length marked marked' := by
  obtain ⟨new, hsub, hnew⟩ := he
  have hall := h.append hnew
  rw [← hall.items, map_map] at hsub
  obtain ⟨kept, hkept, heq⟩ := sublist_map_iff.mp hsub
  obtain ⟨marked', hitems, hmarks⟩ := exists_marked heq
  have hfst : marked'.map Prod.fst = kept.map Prod.fst := by
    have hmapped := congrArg (map Prod.fst) hmarks
    rwa [map_map, map_map] at hmapped
  refine ⟨marked', ⟨hitems, ?_, fun p hp => ?_⟩, _, fun p hp => ?_, hmarks ▸ hkept.map _⟩
  · rw [hfst]
    exact hall.ordered.sublist (hkept.map _)
  · have hmem : Prod.map id f p ∈ kept.map (Prod.map id f) := hmarks ▸ mem_map_of_mem hp
    obtain ⟨q, hq, hsame⟩ := mem_map.mp hmem
    obtain ⟨hmark, hitem⟩ := Prod.mk.inj hsame
    have hmark : q.1 = p.1 := hmark
    obtain ⟨l, hl, hlq⟩ := hall.related q (hkept.subset hq)
    exact ⟨l, hmark ▸ hl, hf l _ _ hitem hlq⟩
  · obtain ⟨m, -, rfl⟩ := mem_map.mp hp
    rfl

end Marking

inductive Path (step : S → L → S → Prop) : S → List L → S → Prop
  | nil (s : S) : Path step s [] s
  | cons {s t u : S} {l : L} {ls : List L} :
      step s l t → Path step t ls u → Path step s (l :: ls) u

namespace Path

variable {step : S → L → S → Prop} {s t u : S} {ls ms : List L}

theorem append (h : Path step s ls t) (h' : Path step t ms u) : Path step s (ls ++ ms) u := by
  induction h with
  | nil => exact h'
  | cons hstep _ ih => exact .cons hstep (ih h')

theorem split (h : Path step s (ls ++ ms) u) : ∃ t, Path step s ls t ∧ Path step t ms u := by
  induction ls generalizing s with
  | nil => exact ⟨s, .nil s, h⟩
  | cons l ls ih =>
    cases h with
    | cons hstep hrest =>
      obtain ⟨t, h₁, h₂⟩ := ih hrest
      exact ⟨t, .cons hstep h₁, h₂⟩

theorem dropping {P : L → Prop} (hstay : ∀ l, P l → ∀ s t, step s l t → t = s)
    (hdrop : Dropping P ls ms) (h : Path step s ls u) : Path step s ms u := by
  induction hdrop generalizing s with
  | nil => exact h
  | keep l _ ih =>
    cases h with
    | cons hstep hrest => exact .cons hstep (ih hrest)
  | drop hl _ ih =>
    cases h with
    | cons hstep hrest => exact ih (hstay _ hl _ _ hstep ▸ hrest)

theorem of_map_eq {f : L → M} (hf : ∀ s l m t, f l = f m → step s l t → step s m t)
    (h : Path step s ls u) (heq : ls.map f = ms.map f) : Path step s ms u := by
  induction h generalizing ms with
  | nil s =>
    obtain rfl : ms = [] := by simpa using heq.symm
    exact .nil s
  | cons hstep _ ih =>
    cases ms with
    | nil => simp at heq
    | cons m ms =>
      obtain ⟨hhead, htail⟩ := cons_eq_cons.mp heq
      exact .cons (hf _ _ _ _ hhead hstep) (ih htail)

end Path
end Abyssal
