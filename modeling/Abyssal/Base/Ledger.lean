import Abyssal.Base.OrdMap

/-! Tables of owned records. A record stands under an id and has a key, an owner and a size. An index
leads from keys to ids, and a third table holds for each owner the size of all it owns. The rules say
that the three agree when a record comes, goes or changes in other respects. -/

namespace Abyssal

open OrdMap Option

structure RecordView (R K O : Type) where
  key : R → K
  owner : R → O
  size : R → Nat

def entryOf (total : Nat) : Option Nat := if total = 0 then none else some total

def discharge {O : Type} [LinearOrder O] (usage : OrdMap O Nat) (owner : O) (size : Nat) :
    OrdMap O Nat :=
  -- Takes a size from an owner's total; an entry that would come to zero goes.
  match usage.get? owner with
  | none => usage
  | some current => if current ≤ size then usage.erase owner else usage.insert owner (current - size)

namespace RecordView

variable {I R K O : Type} [LinearOrder I] (view : RecordView R K O) {records records' : OrdMap I R}
  {i : I} {r r' : R}

structure Same (r r' : R) : Prop where
  key : view.key r' = view.key r
  owner : view.owner r' = view.owner r
  size : view.size r' = view.size r

def Lighter (records records' : OrdMap I R) : Prop :=
  ∀ f : O → Nat → Nat, records'.sum (fun _ r => f (view.owner r) (view.size r)) ≤
    records.sum fun _ r => f (view.owner r) (view.size r)

variable {view}

theorem Lighter.refl (records : OrdMap I R) : view.Lighter records records := fun _ => le_rfl

theorem Lighter.trans {records'' : OrdMap I R} (h : view.Lighter records records')
    (h' : view.Lighter records' records'') : view.Lighter records records'' :=
  fun f => (h' f).trans (h f)

theorem Lighter.erase (records : OrdMap I R) (i : I) : view.Lighter records (records.erase i) :=
  fun _ => sum_filter_le ..

theorem sum_update (hi : records.get? i = some r) (hsame : view.Same r r') (f : O → Nat → Nat) :
    (records.insert i r').sum (fun _ r => f (view.owner r) (view.size r)) =
      records.sum fun _ r => f (view.owner r) (view.size r) := by
  have h := sum_insert records i r' fun _ r => f (view.owner r) (view.size r)
  rw [h, hsame.owner, hsame.size]
  exact sum_erase_add hi _

theorem Lighter.update (hi : records.get? i = some r) (hsame : view.Same r r') :
    view.Lighter records (records.insert i r') := fun f => (sum_update hi hsame f).le

variable {f : I → R → R}

theorem sum_mapValues_same (hsame : ∀ i r, view.Same r (f i r)) (g : O → Nat → Nat) :
    (records.mapValues f).sum (fun _ r => g (view.owner r) (view.size r)) =
      records.sum fun _ r => g (view.owner r) (view.size r) := by
  rw [sum_mapValues]
  refine sum_congr fun i r _ => ?_
  rw [(hsame i r).owner, (hsame i r).size]

theorem Lighter.mapValues (hsame : ∀ i r, view.Same r (f i r)) :
    view.Lighter records (records.mapValues f) := fun g => (sum_mapValues_same hsame g).le

variable [LinearOrder O] (view)

def owned (records : OrdMap I R) (o : O) : Nat :=
  records.sum fun _ r => if view.owner r = o then view.size r else 0

structure Balanced [LinearOrder K] (records : OrdMap I R) (index : OrdMap K I) (usage : OrdMap O Nat) :
    Prop where
  positive : ∀ i r, records.get? i = some r → 0 < view.size r
  indexed : ∀ k i, index.get? k = some i ↔ ∃ r, records.get? i = some r ∧ view.key r = k
  charged : ∀ o, usage.get? o = entryOf (view.owned records o)

variable {view}

theorem owned_update (hi : records.get? i = some r) (hsame : view.Same r r') (o : O) :
    view.owned (records.insert i r') o = view.owned records o :=
  sum_update hi hsame fun o' n => if o' = o then n else 0

theorem owned_erase_add (hi : records.get? i = some r) (o : O) :
    view.owned (records.erase i) o + (if view.owner r = o then view.size r else 0) =
      view.owned records o := sum_erase_add hi _

theorem owned_insert_new (hi : records.get? i = none) (r : R) (o : O) :
    view.owned (records.insert i r) o =
      view.owned records o + if view.owner r = o then view.size r else 0 :=
  sum_insert_new hi r _

theorem size_le_owned (hi : records.get? i = some r) : view.size r ≤ view.owned records (view.owner r) := by
  have h : view.owned (records.erase i) (view.owner r) +
      (if view.owner r = view.owner r then view.size r else 0) =
        view.owned records (view.owner r) := owned_erase_add hi _
  rw [if_pos rfl] at h
  omega

namespace Balanced

variable [LinearOrder K] {index : OrdMap K I} {usage : OrdMap O Nat}

theorem empty : view.Balanced (.empty : OrdMap I R) (.empty : OrdMap K I) .empty where
  positive _ _ h := by cases h
  indexed k i := by simp
  charged _ := rfl

variable (h : view.Balanced records index usage)

include h

section

variable (hi : records.get? i = some r)

include hi

theorem get?_usage : usage.get? (view.owner r) = some (view.owned records (view.owner r)) := by
  have hpos := h.positive i r hi
  have hle : view.size r ≤ view.owned records (view.owner r) := size_le_owned hi
  rw [h.charged, entryOf, if_neg (by omega)]

theorem get?_index : index.get? (view.key r) = some i := (h.indexed _ _).mpr ⟨r, hi, rfl⟩

theorem id_unique {j : I}
    (hj : records.get? j = some r') (hkey : view.key r' = view.key r) : j = i := by
  have hindex := h.get?_index hj
  rw [hkey, h.get?_index hi] at hindex
  exact (some.inj hindex).symm

theorem get?_discharge (o : O) : (discharge usage (view.owner r) (view.size r)).get? o =
      entryOf (view.owned (records.erase i) o) := by
  have hsum : view.owned (records.erase i) o + (if view.owner r = o then view.size r else 0) =
      view.owned records o := owned_erase_add hi o
  simp only [discharge, h.get?_usage hi]
  by_cases ho : view.owner r = o
  · subst ho
    rw [if_pos rfl] at hsum
    by_cases hle : view.owned records (view.owner r) ≤ view.size r
    · rw [if_pos hle, get?_erase_self, entryOf, if_pos (by omega)]
    · rw [if_neg hle, get?_insert_self, entryOf, if_neg (by omega)]
      exact congrArg some (by omega)
  · rw [if_neg ho, Nat.add_zero] at hsum
    rw [hsum, ← h.charged]
    split_ifs
    · exact get?_erase_of_ne _ ho
    · exact get?_insert_of_ne _ _ ho

theorem remove : view.Balanced (records.erase i) (index.erase (view.key r))
      (discharge usage (view.owner r) (view.size r)) where
  positive j s hj := h.positive j s (get?_of_erase hj)
  indexed k j := by
    by_cases hk : view.key r = k
    · subst hk
      rw [get?_erase_self]
      constructor
      · intro hnone
        cases hnone
      · rintro ⟨s, hs, hkey⟩
        -- a record that is left has another id, and so another key
        have hj := h.id_unique hi (get?_of_erase hs) hkey
        rw [hj, get?_erase_self] at hs
        cases hs
    · rw [get?_erase_of_ne _ hk, h.indexed]
      constructor
      · rintro ⟨s, hs, hkey⟩
        have hne : i ≠ j := by
          rintro rfl
          obtain rfl := some.inj (hi.symm.trans hs)
          exact hk hkey
        exact ⟨s, (get?_erase_of_ne _ hne).trans hs, hkey⟩
      · rintro ⟨s, hs, hkey⟩
        exact ⟨s, get?_of_erase hs, hkey⟩
  charged := h.get?_discharge hi

theorem update (hsame : view.Same r r') : view.Balanced (records.insert i r') index usage where
  positive j s hj := by
    rcases get?_insert_cases hj with ⟨rfl, rfl⟩ | ⟨-, hj⟩
    · exact hsame.size ▸ h.positive i r hi
    · exact h.positive j s hj
  indexed k j := by
    rw [h.indexed, get?_insert]
    split_ifs with hij
    · subst hij
      simp only [hi, some.injEq, exists_eq_left', hsame.key]
    · rfl
  charged o := by rw [owned_update hi hsame, h.charged]

end

theorem mapValues (hsame : ∀ i r, view.Same r (f i r)) :
    view.Balanced (records.mapValues f) index usage where
  positive j s hj := by
    rw [get?_mapValues] at hj
    obtain ⟨old, hold, rfl⟩ := map_eq_some_iff.mp hj
    exact (hsame j old).size ▸ h.positive j old hold
  indexed k j := by
    rw [h.indexed, get?_mapValues]
    cases records.get? j with
    | none => simp
    | some old => simp [(hsame j old).key]
  charged o := by
    rw [h.charged]
    exact congrArg entryOf (sum_mapValues_same hsame fun o' n => if o' = o then n else 0).symm

theorem add (hi : records.get? i = none)
    (hkey : index.get? (view.key r) = none) (hsize : 0 < view.size r) :
    view.Balanced (records.insert i r) (index.insert (view.key r) i)
      (usage.insert (view.owner r) ((usage.get? (view.owner r)).getD 0 + view.size r)) where
  positive j s hj := by
    rcases get?_insert_cases hj with ⟨rfl, rfl⟩ | ⟨-, hj⟩
    · exact hsize
    · exact h.positive j s hj
  indexed k j := by
    rw [get?_insert, get?_insert]
    split_ifs with hk hij hij
    · simp [hk, hij]
    · simp only [some.injEq]
      constructor
      · intro heq
        exact absurd heq hij
      · rintro ⟨s, hs, hsk⟩
        rw [← hsk] at hk
        rw [hk, h.get?_index hs] at hkey
        cases hkey
    · constructor
      · intro hold
        obtain ⟨s, hs, -⟩ := (h.indexed k j).mp hold
        rw [← hij, hi] at hs
        cases hs
      · rintro ⟨s, hs, hsk⟩
        obtain rfl := some.inj hs
        exact absurd hsk hk
    · exact h.indexed k j
  charged o := by
    have hcharge : (usage.get? (view.owner r)).getD 0 = view.owned records (view.owner r) := by
      rw [h.charged, entryOf]
      split_ifs with hzero
      · exact hzero.symm
      · rfl
    rw [owned_insert_new hi, get?_insert, hcharge]
    split_ifs with ho
    · subst ho
      rw [entryOf, if_neg (by omega)]
    · rw [Nat.add_zero, h.charged]

end Balanced
end RecordView
end Abyssal
