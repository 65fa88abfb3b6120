import Mathlib.Data.List.Lex
import Mathlib.Data.List.Pairwise
import Mathlib.Data.Prod.Lex
import Mathlib.Data.Vector.Defs
import Mathlib.Algebra.Order.BigOperators.Group.List
import Mathlib.Algebra.Order.Group.Nat
import Mathlib.Algebra.BigOperators.Ring.List
import Mathlib.Data.Nat.Cast.Basic

/-! Finite maps as association lists with strictly increasing keys. The order is
part of the type, so two maps with the same lookups are equal. -/

namespace Abyssal

open List hiding Vector

structure OrdMap (K V : Type) [LinearOrder K] where
  entries : List (K × V)
  sorted : entries.Pairwise (fun a b => a.1 < b.1)

namespace OrdMap

variable {K V : Type} [LinearOrder K]
  {m : OrdMap K V} {k : K} {v : V} {es : List (K × V)} {f : K → V → Nat}

def lookupIn (k : K) : List (K × V) → Option V
  | [] => none
  | e :: es => if e.1 = k then some e.2 else lookupIn k es

def insertIn (k : K) (v : V) : List (K × V) → List (K × V)
  | [] => [(k, v)]
  | e :: es =>
    if k < e.1 then (k, v) :: e :: es
    else if k = e.1 then (k, v) :: es
    else e :: insertIn k v es

theorem lookupIn_eq_none : lookupIn k es = none ↔ ∀ e ∈ es, e.1 ≠ k := by
  induction es with
  | nil => simp [lookupIn]
  | cons e es ih =>
    by_cases h : e.1 = k <;> simp [lookupIn, h, ih]

theorem lookupIn_eq_some (hnd : (es.map Prod.fst).Nodup) :
    lookupIn k es = some v ↔ (k, v) ∈ es := by
  induction es with
  | nil => simp [lookupIn]
  | cons e es ih =>
    obtain ⟨hhead, htail⟩ := nodup_cons.mp hnd
    rw [lookupIn, mem_cons]
    split_ifs with h
    · have hnot : (k, v) ∉ es := fun hm => hhead (h ▸ mem_map_of_mem hm)
      rw [Option.some.injEq, or_iff_left hnot, Prod.eq_iff_fst_eq_snd_eq, eq_comm]
      exact (and_iff_right h.symm).symm
    · rw [ih htail, or_iff_right fun he => h (congrArg Prod.fst he).symm]

theorem mem_insertIn {e : K × V} (h : e ∈ insertIn k v es) : e = (k, v) ∨ e ∈ es := by
  induction es with
  | nil => simpa [insertIn] using h
  | cons a es ih =>
    simp only [insertIn] at h
    split_ifs at h <;> simp only [mem_cons] at h ⊢
    · exact h
    · rcases h with h | h
      · exact .inl h
      · exact .inr (.inr h)
    · rcases h with h | h
      · exact .inr (.inl h)
      · rcases ih h with h | h
        · exact .inl h
        · exact .inr (.inr h)

theorem insertIn_sorted (hs : es.Pairwise (fun a b => a.1 < b.1)) :
    (insertIn k v es).Pairwise (fun a b => a.1 < b.1) := by
  induction es with
  | nil => simp [insertIn]
  | cons a es ih =>
    obtain ⟨hhead, htail⟩ := pairwise_cons.mp hs
    simp only [insertIn]
    split_ifs with h1 h2
    · refine pairwise_cons.mpr ⟨fun b hb => ?_, hs⟩
      rcases mem_cons.mp hb with rfl | hb
      · exact h1
      · exact h1.trans (hhead _ hb)
    · exact pairwise_cons.mpr ⟨fun b hb => h2 ▸ hhead _ hb, htail⟩
    · refine pairwise_cons.mpr ⟨fun b hb => ?_, ih htail⟩
      rcases mem_insertIn hb with rfl | hb
      · exact lt_of_le_of_ne (not_lt.mp h1) (Ne.symm h2)
      · exact hhead _ hb

theorem lookupIn_insertIn (k k' : K) (v : V) (es : List (K × V)) :
    lookupIn k' (insertIn k v es) = if k = k' then some v else lookupIn k' es := by
  induction es with
  | nil => simp [insertIn, lookupIn]
  | cons e es ih =>
    simp only [insertIn]
    split_ifs with h1 h2 h3 h3 h3 <;> grind [lookupIn]

def empty : OrdMap K V := ⟨[], List.Pairwise.nil⟩

def get? (m : OrdMap K V) (k : K) : Option V := lookupIn k m.entries

def insert (m : OrdMap K V) (k : K) (v : V) : OrdMap K V :=
  ⟨insertIn k v m.entries, insertIn_sorted m.sorted⟩

def filter (m : OrdMap K V) (p : K → V → Bool) : OrdMap K V :=
  ⟨m.entries.filter (fun e => p e.1 e.2), m.sorted.filter _⟩

def erase (m : OrdMap K V) (k : K) : OrdMap K V := m.filter (fun k' _ => k' ≠ k)

def modify (m : OrdMap K V) (k : K) (f : V → V) : OrdMap K V :=
  match m.get? k with
  | none => m
  | some v => m.insert k (f v)

def mapValues (m : OrdMap K V) (f : K → V → V) : OrdMap K V :=
  ⟨m.entries.map (fun e => (e.1, f e.1 e.2)), pairwise_map.mpr m.sorted⟩

def contains (m : OrdMap K V) (k : K) : Bool := (m.get? k).isSome
def keys (m : OrdMap K V) : List K := m.entries.map Prod.fst
def values (m : OrdMap K V) : List V := m.entries.map Prod.snd
def size (m : OrdMap K V) : Nat := m.entries.length

def ofList (es : List (K × V)) : OrdMap K V := es.foldl (fun m e => m.insert e.1 e.2) empty

def sum (m : OrdMap K V) (f : K → V → Nat) : Nat := (m.entries.map (fun e => f e.1 e.2)).sum

@[simp] theorem get?_empty (k : K) : (empty : OrdMap K V).get? k = none := rfl

theorem get?_insert (m : OrdMap K V) (k k' : K) (v : V) :
    (m.insert k v).get? k' = if k = k' then some v else m.get? k' := lookupIn_insertIn k k' v _

variable {k' : K}

@[simp] theorem get?_insert_self (m : OrdMap K V) (k : K) (v : V) :
    (m.insert k v).get? k = some v := by
  rw [get?_insert, if_pos rfl]

theorem get?_insert_of_ne (m : OrdMap K V) (v : V) (h : k ≠ k') :
    (m.insert k v).get? k' = m.get? k' := by
  rw [get?_insert, if_neg h]

theorem get?_insert_cases {v' : V} (h : (m.insert k v).get? k' = some v') :
    k = k' ∧ v = v' ∨ k ≠ k' ∧ m.get? k' = some v' := by
  rw [get?_insert] at h
  split_ifs at h with hk
  · exact .inl ⟨hk, Option.some.inj h⟩
  · exact .inr ⟨hk, h⟩

theorem keys_nodup (m : OrdMap K V) : m.keys.Nodup :=
  pairwise_map.mpr (m.sorted.imp ne_of_lt)

theorem get?_eq_some : m.get? k = some v ↔ (k, v) ∈ m.entries := lookupIn_eq_some m.keys_nodup

theorem get?_filter (m : OrdMap K V) (p : K → V → Bool) (k : K) :
    (m.filter p).get? k = (m.get? k).filter (p k) := by
  ext v
  rw [get?_eq_some, Option.filter_eq_some_iff, get?_eq_some]
  simp only [filter, mem_filter]

theorem get?_erase (m : OrdMap K V) (k k' : K) :
    (m.erase k).get? k' = if k = k' then none else m.get? k' := by
  rw [erase, get?_filter]
  by_cases h : k = k'
  · subst h
    cases m.get? k <;> simp
  · cases m.get? k' <;> simp [Ne.symm h, h]

@[simp] theorem get?_erase_self (m : OrdMap K V) (k : K) : (m.erase k).get? k = none := by
  rw [get?_erase, if_pos rfl]

theorem get?_erase_of_ne (m : OrdMap K V) (h : k ≠ k') : (m.erase k).get? k' = m.get? k' := by
  rw [get?_erase, if_neg h]

theorem get?_erase_of_none (h : m.get? k' = none) : (m.erase k).get? k' = none := by
  rw [get?_erase, h, ite_self]

theorem get?_of_erase (h : (m.erase k).get? k' = some v) : m.get? k' = some v := by
  rw [get?_erase] at h
  split_ifs at h with hne
  exact h

theorem get?_modify (m : OrdMap K V) (k k' : K) (f : V → V) :
    (m.modify k f).get? k' = if k = k' then (m.get? k').map f else m.get? k' := by
  unfold modify
  by_cases h : k = k'
  · subst h
    cases hk : m.get? k <;> simp [hk]
  · cases m.get? k <;> simp [h, get?_insert]

theorem get?_mapValues (m : OrdMap K V) (f : K → V → V) (k : K) :
    (m.mapValues f).get? k = (m.get? k).map (f k) := by
  simp only [get?, mapValues]
  induction m.entries with
  | nil => rfl
  | cons e es ih =>
    simp only [map_cons, lookupIn, ih]
    split_ifs with h
    · rw [← h, Option.map_some]
    · rfl

theorem ext_get? {m' : OrdMap K V} (h : ∀ k, m.get? k = m'.get? k) : m = m' := by
  have hperm : m.entries.Perm m'.entries := by
    have hnd : ∀ n : OrdMap K V, n.entries.Nodup :=
      fun n => n.sorted.imp (fun hlt heq => absurd (heq ▸ hlt) (lt_irrefl _))
    refine (perm_ext_iff_of_nodup (hnd m) (hnd m')).mpr (fun e => ?_)
    rw [← get?_eq_some, ← get?_eq_some, h]
  have heq : m.entries = m'.entries :=
    hperm.eq_of_pairwise (fun a b _ _ hab hba => absurd (hab.trans hba) (lt_irrefl _))
      m.sorted m'.sorted
  cases m
  cases m'
  simpa using heq

theorem modify_modify (m : OrdMap K V) (k : K) (f g : V → V) :
    (m.modify k f).modify k g = m.modify k fun v => g (f v) := by
  apply ext_get?
  intro k'
  simp only [get?_modify]
  split_ifs
  · rw [Option.map_map]
    rfl
  · rfl

theorem mem_keys : k ∈ m.keys ↔ ∃ v, m.get? k = some v := by
  simp only [keys, mem_map, Prod.exists, exists_and_right, exists_eq_right, get?_eq_some]

theorem mem_values : v ∈ m.values ↔ ∃ k, m.get? k = some v := by
  simp only [values, mem_map, Prod.exists, exists_eq_right, get?_eq_some]

theorem values_filter {p : V → Bool} {q : K → V → Bool}
    (h : ∀ k v, m.get? k = some v → p v = q k v) :
    m.values.filter p = (m.filter q).values := by
  have hentries : m.entries.filter (p ∘ Prod.snd) = m.entries.filter fun e => q e.1 e.2 :=
    filter_congr fun e he => h e.1 e.2 (get?_eq_some.mpr he)
  rw [values, filter_map, hentries]
  rfl

theorem contains_eq_true : m.contains k = true ↔ ∃ v, m.get? k = some v := by
  rw [contains, Option.isSome_iff_exists]

theorem contains_eq_false : m.contains k = false ↔ m.get? k = none := by
  rw [contains, Option.isSome_eq_false_iff, Option.isNone_iff_eq_none]

@[simp] theorem erase_insert_self (m : OrdMap K V) (k : K) (v : V) :
    (m.insert k v).erase k = m.erase k := by
  apply ext_get?
  intro k'
  simp only [get?_erase, get?_insert]
  split_ifs <;> rfl

theorem erase_of_get?_none (h : m.get? k = none) : m.erase k = m := by
  apply ext_get?
  intro k'
  rw [get?_erase]
  split_ifs with hk
  · rw [← hk, h]
  · rfl

@[simp] theorem insert_insert_self (m : OrdMap K V) (k : K) (v w : V) :
    (m.insert k v).insert k w = m.insert k w := by
  apply ext_get?
  intro k'
  simp only [get?_insert]
  split_ifs <;> rfl

theorem insert_of_get? (h : m.get? k = some v) : m.insert k v = m := by
  apply ext_get?
  intro k'
  rw [get?_insert]
  split_ifs with hk
  · rw [← hk, h]
  · rfl

theorem filter_eq_self {p : K → V → Bool} (h : ∀ k v, m.get? k = some v → p k v = true) :
    m.filter p = m := by
  apply ext_get?
  intro k
  rw [get?_filter]
  cases hk : m.get? k with
  | none => rfl
  | some v => simp [h k v hk]

theorem get?_foldl_insert (m : OrdMap K V) (hnd : (es.map Prod.fst).Nodup) (k : K) :
    (es.foldl (fun m e => m.insert e.1 e.2) m).get? k =
      (lookupIn k es).or (m.get? k) := by
  induction es generalizing m with
  | nil => rfl
  | cons e es ih =>
    obtain ⟨hhead, htail⟩ := nodup_cons.mp hnd
    rw [foldl_cons, ih _ htail, get?_insert, lookupIn]
    by_cases he : e.1 = k
    · have hnone : lookupIn k es = none :=
        lookupIn_eq_none.mpr fun e' he' hk => hhead (he ▸ hk ▸ mem_map_of_mem he')
      rw [if_pos he, if_pos he, hnone]
      rfl
    · rw [if_neg he, if_neg he]

theorem get?_ofList (hnd : (es.map Prod.fst).Nodup) (k : K) :
    (ofList es).get? k = lookupIn k es := by
  rw [ofList, get?_foldl_insert empty hnd, get?_empty, Option.or_none]

theorem ofList_entries (m : OrdMap K V) : ofList m.entries = m :=
  ext_get? fun k => get?_ofList m.keys_nodup k

theorem get?_foldl_erase (m : OrdMap K V) (ks : List K) (k : K) :
    (ks.foldl erase m).get? k = if k ∈ ks then none else m.get? k := by
  induction ks generalizing m with
  | nil => simp
  | cons a ks ih =>
    rw [foldl_cons, ih, get?_erase]
    by_cases ha : a = k
    · simp [ha]
    · have hne : k ≠ a := Ne.symm ha
      simp [ha, hne]

variable {ks : List K}

theorem foldl_modify_eq_mapValues (m : OrdMap K V) (f : K → V → V) (hnd : ks.Nodup) :
    ks.foldl (fun m k => m.modify k (f k)) m =
      m.mapValues (fun k v => if k ∈ ks then f k v else v) := by
  apply ext_get?
  intro k
  rw [get?_mapValues]
  induction ks generalizing m with
  | nil => simp
  | cons a ks ih =>
    obtain ⟨hnot, hnd⟩ := nodup_cons.mp hnd
    rw [foldl_cons, ih _ hnd, get?_modify]
    by_cases ha : a = k
    · subst ha
      cases m.get? a <;> simp [hnot]
    · cases m.get? k <;> simp [ha, Ne.symm ha]

theorem mapValues_congr {f g : K → V → V} (h : ∀ k v, m.get? k = some v → f k v = g k v) :
    m.mapValues f = m.mapValues g := by
  apply ext_get?
  intro k
  rw [get?_mapValues, get?_mapValues]
  cases hk : m.get? k with
  | none => rfl
  | some v => rw [Option.map_some, Option.map_some, h k v hk]

theorem insertIn_perm (k : K) (v : V) (hs : es.Pairwise (fun a b => a.1 < b.1)) :
    (insertIn k v es).Perm ((k, v) :: es.filter (fun e => e.1 ≠ k)) := by
  induction es with
  | nil => simp [insertIn]
  | cons e es ih =>
    obtain ⟨hhead, htail⟩ := pairwise_cons.mp hs
    have hkeep : ∀ k₀, k₀ ≤ e.1 → es.filter (fun a => a.1 ≠ k₀) = es := by
      intro k₀ hk
      rw [List.filter_eq_self]
      intro a ha
      simpa using (ne_of_gt (lt_of_le_of_lt hk (hhead a ha)))
    simp only [insertIn]
    split_ifs with h1 h2
    · rw [filter_cons_of_pos (by simpa using ne_of_gt h1), hkeep k h1.le]
    · rw [filter_cons_of_neg (by simp [h2]), hkeep k h2.le]
    · rw [filter_cons_of_pos (by simpa using Ne.symm h2)]
      exact ((ih htail).cons e).trans (List.Perm.swap _ _ _)

variable (m k v f) in
theorem sum_insert :
    (m.insert k v).sum f = (m.erase k).sum f + f k v := by
  have h := ((insertIn_perm k v m.sorted).map (fun e => f e.1 e.2)).sum_eq
  simpa [sum, insert, erase, filter, Nat.add_comm] using h

theorem sum_erase_add (h : m.get? k = some v) (f : K → V → Nat) :
    (m.erase k).sum f + f k v = m.sum f := by
  rw [← sum_insert, insert_of_get? h]

theorem sum_insert_new (h : m.get? k = none) (v : V) (f : K → V → Nat) :
    (m.insert k v).sum f = m.sum f + f k v := by
  rw [sum_insert, erase_of_get?_none h]

theorem sum_filter_add (m : OrdMap K V) (p : K → V → Bool) (f : K → V → Nat) :
    (m.filter p).sum f + (m.filter (fun k v => !p k v)).sum f = m.sum f := by
  have h := ((filter_append_perm (fun e => p e.1 e.2) m.entries).map fun e => f e.1 e.2).sum_eq
  rwa [map_append, sum_append] at h

theorem sum_filter_le (m : OrdMap K V) (p : K → V → Bool) (f : K → V → Nat) :
    (m.filter p).sum f ≤ m.sum f := by
  have h := sum_filter_add m p f
  omega

variable (m k v f) in
theorem sum_insert_add :
    (m.insert k v).sum f + ((m.get? k).map (f k)).getD 0 = m.sum f + f k v := by
  cases hget : m.get? k with
  | none =>
    rw [sum_insert_new hget]
    rfl
  | some w =>
    have hsum := sum_erase_add hget f
    rw [sum_insert, Option.map_some, Option.getD_some]
    omega

theorem sum_add (m : OrdMap K V) (f g : K → V → Nat) :
    m.sum (fun k v => f k v + g k v) = m.sum f + m.sum g := by
  simp only [sum]
  exact sum_map_add

variable (m f) in
theorem sum_mul_right (n : Nat) :
    m.sum (fun k v => f k v * n) = m.sum f * n := by
  simp only [sum]
  exact List.sum_map_mul_right _ _ _

theorem sum_mapValues (m : OrdMap K V) (f : K → V → V) (g : K → V → Nat) :
    (m.mapValues f).sum g = m.sum fun k v => g k (f k v) := by
  simp only [sum, mapValues, map_map]
  rfl

theorem sum_modify (h : m.get? k = some v) (f : V → V) (g : K → V → Nat) :
    (m.modify k f).sum g + g k v = m.sum g + g k (f v) := by
  have hsum := sum_erase_add h g
  have hmodify : m.modify k f = m.insert k (f v) := by rw [modify, h]
  rw [hmodify, sum_insert]
  omega

theorem sum_foldl_erase (m : OrdMap K V) (hnd : ks.Nodup) (w : V → Nat) :
    (ks.foldl erase m).sum (fun _ v => w v) + ((ks.filterMap m.get?).map w).sum =
      m.sum fun _ v => w v := by
  induction ks generalizing m with
  | nil => rfl
  | cons k ks ih =>
    obtain ⟨hk, hnd⟩ := nodup_cons.mp hnd
    have hrest : ks.filterMap (m.erase k).get? = ks.filterMap m.get? :=
      filterMap_congr fun k' hk' => get?_erase_of_ne m fun heq => hk (heq ▸ hk')
    have hfold := ih (m.erase k) hnd
    rw [hrest] at hfold
    rw [foldl_cons]
    cases hget : m.get? k with
    | none =>
      rw [filterMap_cons_none hget, hfold, erase_of_get?_none hget]
    | some v =>
      have hsum := sum_erase_add hget fun _ v => w v
      rw [filterMap_cons_some hget, map_cons, sum_cons]
      omega

variable {g : K → V → Nat}

theorem sum_congr (h : ∀ k v, m.get? k = some v → f k v = g k v) : m.sum f = m.sum g := by
  unfold sum
  congr 1
  apply map_congr_left
  intro e he
  exact h e.1 e.2 (get?_eq_some.mpr he)

theorem sum_le_sum (h : ∀ k v, m.get? k = some v → f k v ≤ g k v) : m.sum f ≤ m.sum g := by
  unfold sum
  apply List.sum_le_sum
  intro e he
  exact h e.1 e.2 (get?_eq_some.mpr he)

theorem sum_values (m : OrdMap K V) (w : V → Nat) :
    (m.values.map w).sum = m.sum (fun _ v => w v) := by
  simp [values, sum, Function.comp_def]

theorem get?_of_size_eq_zero (h : m.size = 0) (k : K) : m.get? k = none := by
  have hnil : m.entries = [] := length_eq_zero_iff.mp h
  rw [get?, hnil]
  rfl

theorem size_eq_sum (m : OrdMap K V) : m.size = m.sum (fun _ _ => 1) := by
  simp [size, sum]

theorem sum_ite_one (m : OrdMap K V) (p : K → V → Bool) :
    m.sum (fun k v => if p k v = true then 1 else 0) = (m.filter p).size := by
  simp only [sum, size, filter]
  induction m.entries with
  | nil => rfl
  | cons e es ih =>
    rw [map_cons, sum_cons, ih, filter_cons]
    split_ifs
    · rw [length_cons, Nat.add_comm]
    · exact Nat.zero_add _

theorem length_values_filter (m : OrdMap K V) (p : V → Bool) :
    m.sum (fun _ v => if p v = true then 1 else 0) = (m.values.filter p).length := by
  rw [values, filter_map, length_map]
  exact sum_ite_one m fun _ v => p v

theorem length_keys_filter (m : OrdMap K V) (p : K → Bool) :
    m.sum (fun k _ => if p k = true then 1 else 0) = (m.keys.filter p).length := by
  rw [keys, filter_map, length_map]
  exact sum_ite_one m fun k _ => p k

theorem sum_le_size_mul {b : Nat} (h : ∀ k v, m.get? k = some v → f k v ≤ b) :
    m.sum f ≤ m.size * b := by
  have hb : m.sum (fun _ _ => b) = m.size * b := by simp [sum, size]
  exact hb ▸ sum_le_sum h

theorem sum_eq_zero (h : ∀ k v, m.get? k = some v → f k v = 0) : m.sum f = 0 :=
  (sum_congr h).trans (by simp [sum])

theorem le_sum_of_get? (h : m.get? k = some v) (f : K → V → Nat) : f k v ≤ m.sum f := by
  have hs := sum_erase_add h f
  omega

theorem sum_le_sum_of_get? {W : Type} {m' : OrdMap K W} {g : K → W → Nat}
    (h : ∀ k v, m.get? k = some v → ∃ w, m'.get? k = some w ∧ f k v ≤ g k w) :
    m.sum f ≤ m'.sum g := by
  -- By induction on the number of keys: the first one is taken out of both maps.
  induction hn : m.size generalizing m m' with
  | zero =>
    have hnil : m.entries = [] := length_eq_zero_iff.mp hn
    simp [sum, hnil]
  | succ n ih =>
    obtain ⟨e, es, hes⟩ : ∃ e es, m.entries = e :: es := by
      cases hes : m.entries with
      | nil =>
        simp [size, hes] at hn
      | cons e es => exact ⟨e, es, rfl⟩
    have hget : m.get? e.1 = some e.2 := get?_eq_some.mpr (hes ▸ mem_cons_self ..)
    obtain ⟨w, hw, hle⟩ := h e.1 e.2 hget
    have hsize := sum_erase_add hget (fun _ _ => 1)
    have hrest : (m.erase e.1).sum f ≤ (m'.erase e.1).sum g := by
      refine ih (fun k v hk => ?_) (by rw [size_eq_sum] at hn ⊢; omega)
      rw [get?_erase] at hk
      split_ifs at hk with hne
      obtain ⟨w', hw', hle'⟩ := h k v hk
      exact ⟨w', by rw [get?_erase, if_neg hne, hw'], hle'⟩
    rw [← sum_erase_add hget f, ← sum_erase_add hw g]
    exact Nat.add_le_add hrest hle

theorem size_insert_of_get? {w : V} (h : m.get? k = some w) : (m.insert k v).size = m.size := by
  have hs := sum_erase_add h (fun _ _ => 1)
  rw [size_eq_sum, sum_insert, hs, size_eq_sum]

theorem size_insert_new (h : m.get? k = none) (v : V) : (m.insert k v).size = m.size + 1 := by
  rw [size_eq_sum, sum_insert_new h, size_eq_sum]

theorem size_erase_add (h : m.get? k = some v) : (m.erase k).size + 1 = m.size := by
  rw [size_eq_sum, sum_erase_add h, size_eq_sum]

theorem size_filter_le (m : OrdMap K V) (p : K → V → Bool) : (m.filter p).size ≤ m.size := by
  rw [size_eq_sum, size_eq_sum]
  exact sum_filter_le ..

end OrdMap

section Related

variable {α : Type} {R : α → α → Prop} {o : Option α} {a : α}

theorem rel_none_left (h : Option.Rel R none o) : o = none := by
  cases h
  rfl

theorem rel_some_left (h : Option.Rel R (some a) o) : ∃ b, o = some b ∧ R a b := by
  cases h with
  | some h => exact ⟨_, rfl, h⟩

theorem rel_some_right (h : Option.Rel R o (some a)) : ∃ b, o = some b ∧ R b a := by
  cases h with
  | some h => exact ⟨_, rfl, h⟩

theorem OrdMap.sum_eq_of_rel {K : Type} [LinearOrder K] {m m' : OrdMap K α} {f : K → α → Nat}
    (h : ∀ k, Option.Rel R (m.get? k) (m'.get? k)) (hf : ∀ k a b, R a b → f k a = f k b) :
    m.sum f = m'.sum f := by
  refine le_antisymm (sum_le_sum_of_get? fun k v hv => ?_) (sum_le_sum_of_get? fun k v hv => ?_)
  · obtain ⟨w, hw, hr⟩ := rel_some_left (hv ▸ h k)
    exact ⟨w, hw, le_of_eq (hf k v w hr)⟩
  · obtain ⟨w, hw, hr⟩ := rel_some_right (hv ▸ h k)
    exact ⟨w, hw, le_of_eq (hf k w v hr).symm⟩

theorem OrdMap.sum_add_le_of_rel {K : Type} [LinearOrder K] {m m' : OrdMap K α}
    {f f' g : K → α → Nat} (h : ∀ k, Option.Rel R (m.get? k) (m'.get? k))
    (hf : ∀ k a b, m.get? k = some a → m'.get? k = some b → R a b → f' k b + g k a ≤ f k a) :
    m'.sum f' + m.sum g ≤ m.sum f := by
  have hless : m'.sum f' ≤ m.sum fun k a => f k a - g k a := by
    refine sum_le_sum_of_get? fun k b hb => ?_
    obtain ⟨a, ha, hr⟩ := rel_some_right (hb ▸ h k)
    exact ⟨a, ha, Nat.le_sub_of_add_le (hf k a b ha hb hr)⟩
  have hsplit : (m.sum fun k a => f k a - g k a) + m.sum g = m.sum f := by
    rw [← sum_add]
    refine sum_congr fun k a ha => Nat.sub_add_cancel ?_
    obtain ⟨b, hb, hr⟩ := rel_some_left (ha ▸ h k)
    exact (Nat.le_add_left ..).trans (hf k a b ha hb hr)
  omega

theorem exists_of_any {A : Type} {o : Option A} {P : A → Prop} [DecidablePred P]
    (h : o.any (fun a => decide (P a)) = true) : ∃ a, o = some a ∧ P a := by
  cases o with
  | none => cases h
  | some a => exact ⟨a, rfl, of_decide_eq_true h⟩

end Related

instance lawfulBEqBytes : LawfulBEq (List UInt8) := inferInstance

instance linearOrderUInt8 : LinearOrder UInt8 where
  le_refl := UInt8.le_refl
  le_trans _ _ _ := UInt8.le_trans
  lt_iff_le_not_ge a b := by
    rw [UInt8.lt_iff_toNat_lt, UInt8.le_iff_toNat_le, UInt8.le_iff_toNat_le]
    omega
  le_antisymm _ _ := UInt8.le_antisymm
  le_total := UInt8.le_total
  toDecidableLE := inferInstance
  toDecidableEq := inferInstance
  toDecidableLT := inferInstance

instance linearOrderBitVec (n : Nat) : LinearOrder (BitVec n) where
  le_refl := BitVec.le_refl
  le_trans _ _ _ := BitVec.le_trans
  lt_iff_le_not_ge a b := by
    rw [BitVec.lt_def, BitVec.le_def, BitVec.le_def]
    omega
  le_antisymm _ _ := BitVec.le_antisymm
  le_total := BitVec.le_total
  toDecidableLE := inferInstance
  toDecidableEq := inferInstance
  toDecidableLT := inferInstance

instance linearOrderVector {n : Nat} : LinearOrder (Vector UInt8 n) :=
  LinearOrder.lift' Vector.toList fun _ _ h => Vector.toList_inj.mp h

end Abyssal
