import Abyssal.Base.OrdMap
import Abyssal.Base.Checked
import Mathlib.Data.List.Nodup
import Mathlib.Data.List.Perm.Subperm

/-! The client's in-memory store of MLS group states: for each group the current state and
the records of prior epochs, oldest first. -/

namespace Abyssal.Mls

open List

abbrev Bytes := List UInt8

def maxStateBytes : Nat := 4 * 1024 * 1024
def maxEpochRetention : Nat := 3

structure EpochRecord where
  id : Nat
  data : Bytes
  deriving DecidableEq

structure GroupState where
  id : Bytes
  data : Bytes
  deriving DecidableEq

structure RamGroupData where
  current : Bytes
  epochs : List EpochRecord
  deriving DecidableEq

inductive RamStorageError
  | bounds
  | capacity
  deriving DecidableEq

/-- The map behind the lock; it is only ever looked up and written by key. -/
abbrev RamGroupStateStorage := OrdMap Bytes RamGroupData

def epochBytes (epochs : List EpochRecord) : Nat := (epochs.map fun epoch => epoch.data.length).sum

def insertEpochs : List EpochRecord → List EpochRecord → Except RamStorageError (List EpochRecord)
  | epochs, [] => .ok epochs
  | epochs, epoch :: inserts =>
    if epochs.any fun existing => existing.id = epoch.id then .error .capacity
    else insertEpochs (epochs ++ [epoch]) inserts

def updateEpoch (update : EpochRecord) : List EpochRecord → Option (List EpochRecord)
  | [] => none
  | epoch :: epochs =>
    if epoch.id = update.id then some (update :: epochs)
    else (updateEpoch update epochs).map (epoch :: ·)

def updateEpochs : List EpochRecord → List EpochRecord → Except RamStorageError (List EpochRecord)
  | epochs, [] => .ok epochs
  | epochs, update :: updates =>
    match updateEpoch update epochs with
    | none => .error .bounds
    | some epochs => updateEpochs epochs updates

def badEpoch (epoch : EpochRecord) : Bool := epoch.data = [] || maxStateBytes < epoch.data.length

namespace RamGroupStateStorage

def epochsOf (storage : RamGroupStateStorage) (groupId : Bytes) : List EpochRecord :=
  ((storage.get? groupId).map RamGroupData.epochs).getD []

def state (storage : RamGroupStateStorage) (groupId : Bytes) : Option Bytes :=
  (storage.get? groupId).map RamGroupData.current

def epoch (storage : RamGroupStateStorage) (groupId : Bytes) (epochId : Nat) : Option Bytes :=
  (storage.get? groupId).bind fun data =>
    (data.epochs.find? fun epoch => epoch.id = epochId).map EpochRecord.data

def maxEpochId (storage : RamGroupStateStorage) (groupId : Bytes) : Option Nat :=
  (storage.get? groupId).bind fun data => data.epochs.getLast?.map EpochRecord.id

def write (storage : RamGroupStateStorage) (state : GroupState)
    (epochInserts epochUpdates : List EpochRecord) : Except RamStorageError RamGroupStateStorage :=
  if state.id.length ≠ 32 ∨ state.data = [] ∨ maxStateBytes < state.data.length then .error .bounds
  else if maxEpochRetention < epochInserts.length + epochUpdates.length ∨
      epochInserts.any badEpoch ∨ epochUpdates.any badEpoch then .error .bounds
  else do
    let epochs ← insertEpochs (storage.epochsOf state.id) epochInserts
    let epochs ← updateEpochs epochs epochUpdates
    if maxEpochRetention < epochs.length ∨ maxStateBytes < state.data.length + epochBytes epochs then
      .error .capacity
    else .ok (storage.insert state.id ⟨state.data, epochs⟩)

end RamGroupStateStorage

variable {epochs updates : List EpochRecord} {update : EpochRecord}

/-- One epoch change: the new state, the epoch it leaves and records of earlier epochs. -/
structure EpochChange where
  state : GroupState
  inserted : EpochRecord
  updates : List EpochRecord

def updated (updates : List EpochRecord) (epoch : EpochRecord) : EpochRecord :=
  (updates.find? fun update => update.id = epoch.id).getD epoch

def EpochChange.history (change : EpochChange) (history : List EpochRecord) : List EpochRecord :=
  history.map (updated change.updates) ++ [change.inserted]

def retained (history : List EpochRecord) : List EpochRecord :=
  history.drop (history.length - maxEpochRetention)

structure EpochChange.Valid (groupId : Bytes) (history : List EpochRecord)
    (change : EpochChange) : Prop where
  group : change.state.id = groupId
  groupId : groupId.length = 32
  state : change.state.data ≠ []
  inserted : change.inserted.data ≠ []
  fresh : ∀ epoch ∈ history, epoch.id < change.inserted.id
  updates : ∀ update ∈ change.updates, update.data ≠ [] ∧
    ∃ epoch ∈ retained history, epoch.id = update.id
  once : (change.updates.map EpochRecord.id).Nodup
  size : change.state.data.length + epochBytes (retained (change.history history)) ≤ maxStateBytes

instance (groupId : Bytes) (history : List EpochRecord) (change : EpochChange) :
    Decidable (change.Valid groupId history) :=
  decidable_of_iff (change.state.id = groupId ∧ groupId.length = 32 ∧ change.state.data ≠ [] ∧
      change.inserted.data ≠ [] ∧ (∀ epoch ∈ history, epoch.id < change.inserted.id) ∧
      (∀ update ∈ change.updates, update.data ≠ [] ∧
        ∃ epoch ∈ retained history, epoch.id = update.id) ∧
      (change.updates.map EpochRecord.id).Nodup ∧
      change.state.data.length + epochBytes (retained (change.history history)) ≤ maxStateBytes)
    ⟨fun ⟨h1, h2, h3, h4, h5, h6, h7, h8⟩ => ⟨h1, h2, h3, h4, h5, h6, h7, h8⟩,
      fun h => ⟨h.group, h.groupId, h.state, h.inserted, h.fresh, h.updates, h.once, h.size⟩⟩

def ValidChanges (groupId : Bytes) : List EpochRecord → List EpochChange → Prop
  | _, [] => True
  | history, change :: changes =>
    change.Valid groupId history ∧ ValidChanges groupId (change.history history) changes

instance ValidChanges.decidable (groupId : Bytes) :
    ∀ history changes, Decidable (ValidChanges groupId history changes)
  | _, [] => .isTrue trivial
  | history, change :: changes => @instDecidableAnd _ _ inferInstance
      (ValidChanges.decidable groupId (change.history history) changes)

/-- What can be read of the group: the state, the newest epochs and no others. -/
structure Remembers (storage : RamGroupStateStorage) (groupId state : Bytes)
    (history : List EpochRecord) : Prop where
  state : storage.state groupId = some state
  epoch : ∀ id, storage.epoch groupId id =
    ((retained history).find? fun epoch => epoch.id = id).map EpochRecord.data
  maxEpochId : storage.maxEpochId groupId = history.getLast?.map EpochRecord.id

/-- Every change is written, and after each the group is remembered as it should be. -/
def Keeps (groupId : Bytes) : RamGroupStateStorage → List EpochRecord → List EpochChange → Prop
  | _, _, [] => True
  | storage, history, change :: changes => ∃ storage',
    storage.write change.state [change.inserted] change.updates = .ok storage' ∧
      Remembers storage' groupId change.state.data (change.history history) ∧
      Keeps groupId storage' (change.history history) changes

theorem insertEpochs_new {epoch : EpochRecord} (h : ∀ existing ∈ epochs, existing.id ≠ epoch.id) :
    insertEpochs epochs [epoch] = .ok (epochs ++ [epoch]) := by
  have hnone : (epochs.any fun existing => existing.id = epoch.id) = false := by
    simpa using h
  rw [insertEpochs, hnone]
  rfl

theorem updated_id (updates : List EpochRecord) (epoch : EpochRecord) :
    (updated updates epoch).id = epoch.id := by
  unfold updated
  cases hfind : updates.find? fun update => update.id = epoch.id with
  | none => rfl
  | some update =>
    have hid := find?_some hfind
    exact of_decide_eq_true hid

theorem map_updated_ids (updates epochs : List EpochRecord) :
    (epochs.map (updated updates)).map EpochRecord.id = epochs.map EpochRecord.id := by
  rw [map_map]
  exact map_congr_left fun epoch _ => updated_id updates epoch

theorem updated_of_not_mem {epoch : EpochRecord} (h : epoch.id ∉ updates.map EpochRecord.id) :
    updated updates epoch = epoch := by
  have hnone : (updates.find? fun update => update.id = epoch.id) = none := by
    rw [find?_eq_none]
    intro update hupdate heq
    exact h (mem_map.mpr ⟨update, hupdate, of_decide_eq_true heq⟩)
  rw [updated, hnone]
  rfl

theorem updated_of_mem {epoch : EpochRecord} (honce : (updates.map EpochRecord.id).Nodup)
    (hupdate : update ∈ updates) (hid : epoch.id = update.id) : updated updates epoch = update := by
  cases hfind : updates.find? fun update => update.id = epoch.id with
  | none =>
    have hnone := find?_eq_none.mp hfind update hupdate
    exact absurd (decide_eq_true hid.symm) hnone
  | some found =>
    have hfound : found.id = epoch.id := by simpa using find?_some hfind
    have hsame := inj_on_of_nodup_map honce (mem_of_find?_eq_some hfind) hupdate
      (hfound.trans hid)
    rw [updated, hfind, ← hsame]
    rfl

theorem map_updated_of_not_mem (h : ∀ epoch ∈ epochs, epoch.id ∉ updates.map EpochRecord.id) :
    epochs.map (updated updates) = epochs := by
  have hsame := map_congr_left fun epoch hepoch => updated_of_not_mem (h epoch hepoch)
  rw [hsame, map_id']

theorem updateEpoch_eq (hdistinct : (epochs.map EpochRecord.id).Nodup)
    (h : ∃ epoch ∈ epochs, epoch.id = update.id) :
    updateEpoch update epochs = some (epochs.map (updated [update])) := by
  induction epochs with
  | nil =>
    obtain ⟨_, hmem, -⟩ := h
    cases hmem
  | cons epoch epochs ih =>
    rw [map_cons, nodup_cons] at hdistinct
    rw [updateEpoch, map_cons]
    split_ifs with hid
    · -- The ids are distinct, so nothing behind the first match changes.
      have hrest : epochs.map (updated [update]) = epochs := by
        refine map_updated_of_not_mem fun e he hmem => hdistinct.1 ?_
        rw [map_singleton, mem_singleton] at hmem
        rw [hid, ← hmem]
        exact mem_map_of_mem he
      have hfirst : updated [update] epoch = update := by
        simp [updated, hid]
      rw [hrest, hfirst]
    · have hfirst : updated [update] epoch = epoch := by
        refine updated_of_not_mem ?_
        simpa using hid
      obtain ⟨e, he, heq⟩ := h
      rcases mem_cons.mp he with rfl | he
      · exact absurd heq hid
      · rw [ih hdistinct.2 ⟨e, he, heq⟩, hfirst]
        rfl

theorem updateEpochs_eq (hdistinct : (epochs.map EpochRecord.id).Nodup)
    (honce : (updates.map EpochRecord.id).Nodup)
    (h : ∀ update ∈ updates, ∃ epoch ∈ epochs, epoch.id = update.id) :
    updateEpochs epochs updates = .ok (epochs.map (updated updates)) := by
  induction updates generalizing epochs with
  | nil =>
    rw [map_updated_of_not_mem fun _ _ hmem => (by cases hmem)]
    rfl
  | cons update updates ih =>
    rw [map_cons, nodup_cons] at honce
    have hfirst := updateEpoch_eq hdistinct (h update (mem_cons_self ..))
    have hrest : updateEpochs (epochs.map (updated [update])) updates =
        .ok ((epochs.map (updated [update])).map (updated updates)) := by
      refine ih (by rwa [map_updated_ids]) honce.2 fun u hu => ?_
      obtain ⟨epoch, hepoch, hid⟩ := h u (mem_cons_of_mem _ hu)
      exact ⟨_, mem_map_of_mem hepoch, (updated_id ..).trans hid⟩
    rw [updateEpochs, hfirst]
    refine hrest.trans (congrArg Except.ok ?_)
    rw [map_map]
    refine map_congr_left fun epoch _ => ?_
    change updated updates (updated [update] epoch) = updated (update :: updates) epoch
    by_cases hid : update.id = epoch.id
    · have hone : updated [update] epoch = update := by simp [updated, hid]
      have hall : updated (update :: updates) epoch = update := by simp [updated, hid]
      rw [hone, hall]
      exact updated_of_not_mem honce.1
    · have hone : updated [update] epoch = epoch := by simp [updated, hid]
      rw [hone]
      simp [updated, hid]

variable {epochs' : List EpochRecord}

theorem updateEpoch_length (h : updateEpoch update epochs = some epochs') :
    epochs'.length = epochs.length := by
  induction epochs generalizing epochs' with
  | nil => cases h
  | cons epoch epochs ih =>
    rw [updateEpoch] at h
    split_ifs at h
    · cases h
      rfl
    · obtain ⟨rest, hrest, rfl⟩ := Option.map_eq_some_iff.mp h
      exact congrArg (· + 1) (ih hrest)

theorem updateEpochs_length (h : updateEpochs epochs updates = .ok epochs') :
    epochs'.length = epochs.length := by
  induction updates generalizing epochs with
  | nil =>
    cases h
    rfl
  | cons update updates ih =>
    rw [updateEpochs] at h
    cases hone : updateEpoch update epochs with
    | none =>
      rw [hone] at h
      cases h
    | some mid =>
      rw [hone] at h
      exact (ih h).trans (updateEpoch_length hone)

section

variable {groupId : Bytes} {storage storage' : RamGroupStateStorage} {history : List EpochRecord}
  {change : EpochChange}

theorem retained_of_le (h : history.length ≤ maxEpochRetention) : retained history = history := by
  rw [retained, Nat.sub_eq_zero_of_le h, drop_zero]

theorem history_length (change : EpochChange) (history : List EpochRecord) :
    (change.history history).length = history.length + 1 := by
  rw [EpochChange.history, length_append, length_map, length_singleton]

theorem EpochChange.Valid.notUpdated (h : change.Valid groupId history) :
    change.inserted.id ∉ change.updates.map EpochRecord.id := by
  intro hmem
  obtain ⟨update, hupdate, hid⟩ := mem_map.mp hmem
  obtain ⟨-, epoch, hepoch, heq⟩ := h.updates update hupdate
  have hlt := h.fresh epoch (mem_of_mem_drop hepoch)
  omega

theorem write_ok (h : change.Valid groupId history)
    (hdistinct : (history.map EpochRecord.id).Nodup) (hstored : storage.epochsOf groupId = history)
    (hroom : history.length < maxEpochRetention) :
    storage.write change.state [change.inserted] change.updates =
      .ok (storage.insert groupId ⟨change.state.data, change.history history⟩) := by
  have hgroup := h.group
  have hsize := h.size
  rw [retained_of_le ((history_length ..).trans_le hroom)] at hsize
  have hweights : ∀ epoch ∈ change.history history, epoch.data.length ≤ maxStateBytes := by
    intro epoch hepoch
    have hle := single_le_sum (fun _ _ => Nat.zero_le _) epoch.data.length
      (mem_map_of_mem (f := fun epoch : EpochRecord => epoch.data.length) hepoch)
    unfold epochBytes at hsize
    omega
  have hinserted := insertEpochs_new fun epoch hepoch => (h.fresh epoch hepoch).ne
  have hids : ((history ++ [change.inserted]).map EpochRecord.id).Nodup := by
    rw [map_append, map_singleton, nodup_append]
    refine ⟨hdistinct, by simp, ?_⟩
    intro id hid id' hid' heq
    obtain ⟨epoch, hepoch, rfl⟩ := mem_map.mp hid
    rw [mem_singleton] at hid'
    exact absurd (heq.trans hid') (h.fresh epoch hepoch).ne
  have hfound : ∀ update ∈ change.updates, ∃ epoch ∈ history, epoch.id = update.id := by
    intro update hupdate
    obtain ⟨-, epoch, hepoch, hid⟩ := h.updates update hupdate
    exact ⟨epoch, mem_of_mem_drop hepoch, hid⟩
  have hupdated : updateEpochs (history ++ [change.inserted]) change.updates =
      .ok (change.history history) := by
    rw [updateEpochs_eq hids h.once fun update hupdate => ?_, map_append, map_singleton,
      updated_of_not_mem h.notUpdated]
    · rfl
    · obtain ⟨epoch, hepoch, hid⟩ := hfound update hupdate
      exact ⟨epoch, mem_append_left _ hepoch, hid⟩
  have hfew : change.updates.length ≤ history.length := by
    have hsubset : change.updates.map EpochRecord.id ⊆ history.map EpochRecord.id := by
      intro id hid
      obtain ⟨update, hupdate, rfl⟩ := mem_map.mp hid
      obtain ⟨epoch, hepoch, heq⟩ := hfound update hupdate
      exact mem_map.mpr ⟨epoch, hepoch, heq⟩
    have hle := (subperm_of_subset h.once hsubset).length_le
    rwa [length_map, length_map] at hle
  have hgood : badEpoch change.inserted = false ∧ change.updates.any badEpoch = false := by
    refine ⟨?_, ?_⟩
    · have hle := hweights change.inserted (mem_append_right _ (mem_singleton_self _))
      simp [badEpoch, h.inserted, Nat.not_lt.mpr hle]
    · rw [any_eq_false]
      intro update hupdate
      obtain ⟨hdata, -⟩ := h.updates update hupdate
      obtain ⟨epoch, hepoch, hid⟩ := hfound update hupdate
      have hmem : update ∈ change.history history := by
        refine mem_append_left _ (mem_map.mpr ⟨epoch, hepoch, ?_⟩)
        exact updated_of_mem h.once hupdate hid
      simp [badEpoch, hdata, hweights update hmem]
  have hlength := history_length change history
  have hbytes : change.state.data.length ≤ maxStateBytes := by omega
  unfold RamGroupStateStorage.write
  rw [if_neg, if_neg, hgroup, hstored, hinserted]
  · change (updateEpochs (history ++ [change.inserted]) change.updates).bind _ = _
    rw [hupdated]
    exact if_neg (by omega)
  · rw [length_singleton, any_cons, any_nil, hgood.1, hgood.2]
    simp
    omega
  · rw [hgroup, not_or, not_or, Nat.not_lt, not_not]
    exact ⟨h.groupId, h.state, hbytes⟩

theorem write_room {state : GroupState} {inserted : EpochRecord}
    (h : storage.write state [inserted] updates = .ok storage') :
    (storage.epochsOf state.id).length < maxEpochRetention := by
  unfold RamGroupStateStorage.write at h
  split_ifs at h
  obtain ⟨mid, hmid, h⟩ := bind_eq_ok.mp h
  obtain ⟨epochs, hepochs, h⟩ := bind_eq_ok.mp h
  split_ifs at h with hfull
  have hlength := updateEpochs_length hepochs
  rw [insertEpochs] at hmid
  split_ifs at hmid
  cases hmid
  rw [length_append, length_singleton] at hlength
  omega

theorem remembers_insert (groupId state : Bytes) (h : history.length ≤ maxEpochRetention) :
    Remembers (storage.insert groupId ⟨state, history⟩) groupId state history := by
  refine ⟨?_, fun id => ?_, ?_⟩
  · rw [RamGroupStateStorage.state, OrdMap.get?_insert_self]
    rfl
  · rw [RamGroupStateStorage.epoch, OrdMap.get?_insert_self, retained_of_le h]
    rfl
  · rw [RamGroupStateStorage.maxEpochId, OrdMap.get?_insert_self]
    rfl

end

variable {groupId : Bytes}

theorem history_distinct {history : List EpochRecord} {change : EpochChange}
    (h : change.Valid groupId history) (hdistinct : (history.map EpochRecord.id).Nodup) :
    ((change.history history).map EpochRecord.id).Nodup := by
  rw [EpochChange.history, map_append, map_updated_ids, map_singleton, nodup_append]
  refine ⟨hdistinct, by simp, ?_⟩
  intro id hid id' hid' heq
  obtain ⟨epoch, hepoch, rfl⟩ := mem_map.mp hid
  rw [mem_singleton] at hid'
  exact absurd (heq.trans hid') (h.fresh epoch hepoch).ne

/-- From a store that holds the whole history: the changes go on as long as all epochs fit. -/
theorem keeps_iff_fits {storage : RamGroupStateStorage} {history : List EpochRecord}
    {changes : List EpochChange} (hdistinct : (history.map EpochRecord.id).Nodup)
    (hstored : storage.epochsOf groupId = history) (hfits : history.length ≤ maxEpochRetention)
    (h : ValidChanges groupId history changes) :
    Keeps groupId storage history changes ↔
      history.length + changes.length ≤ maxEpochRetention := by
  induction changes generalizing storage history with
  | nil => exact ⟨fun _ => hfits, fun _ => trivial⟩
  | cons change changes ih =>
    obtain ⟨hvalid, hrest⟩ := h
    have hlength := history_length change history
    have hstored' : RamGroupStateStorage.epochsOf (storage.insert groupId
        ⟨change.state.data, change.history history⟩) groupId = change.history history := by
      rw [RamGroupStateStorage.epochsOf, OrdMap.get?_insert_self]
      rfl
    have hnext := fun hroom => ih (history_distinct hvalid hdistinct) hstored' hroom hrest
    rw [length_cons]
    constructor
    · rintro ⟨storage', hwrite, -, hkeeps⟩
      have hroom := write_room hwrite
      rw [hvalid.group, hstored] at hroom
      cases (write_ok hvalid hdistinct hstored hroom).symm.trans hwrite
      have hfit := (hnext (by omega)).mp hkeeps
      omega
    · intro hfit
      have hroom : history.length < maxEpochRetention := by omega
      refine ⟨_, write_ok hvalid hdistinct hstored hroom, ?_, ?_⟩
      · exact remembers_insert groupId change.state.data (by omega)
      · exact (hnext (by omega)).mpr (by omega)

theorem epoch_changes_kept_iff (groupId : Bytes) (storage : RamGroupStateStorage)
    (hnew : storage.epochsOf groupId = []) (changes : List EpochChange)
    (h : ValidChanges groupId [] changes) :
    Keeps groupId storage [] changes ↔ changes.length ≤ maxEpochRetention := by
  have hiff := keeps_iff_fits (by exact nodup_nil) hnew (Nat.zero_le _) h
  rwa [length_nil, Nat.zero_add] at hiff

def someChanges (n : Nat) : List EpochChange :=
  (List.range n).map fun k =>
    { state := ⟨List.replicate 32 1, [UInt8.ofNat k]⟩
      inserted := ⟨k, [1]⟩
      updates := if k = 0 then [] else [⟨k - 1, [2]⟩] }

theorem epoch_changes_kept_three : ValidChanges (List.replicate 32 1) [] (someChanges 3) ∧
    Keeps (List.replicate 32 1) .empty [] (someChanges 3) := by
  have hvalid : ValidChanges (List.replicate 32 1) [] (someChanges 3) := by decide
  exact ⟨hvalid, (epoch_changes_kept_iff _ .empty rfl _ hvalid).mpr (by decide)⟩

theorem fourth_change_refused : ValidChanges (List.replicate 32 1) [] (someChanges 4) ∧
    ¬ Keeps (List.replicate 32 1) .empty [] (someChanges 4) := by
  refine ⟨by decide, ?_⟩
  rintro ⟨_, h₁, -, _, h₂, -, _, h₃, -, _, h₄, -⟩
  cases h₁
  cases h₂
  cases h₃
  cases h₄

end Abyssal.Mls
