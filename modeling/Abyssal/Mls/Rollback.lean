import Abyssal.Base.Runs
import Abyssal.Mls.Storage

/-! Putting a group back to an earlier state. The store refuses the earlier state when it would not fit
beside the epochs that are about to be replaced. -/

namespace Abyssal.Mls

open OrdMap List

namespace RamGroupStateStorage

def putSnapshot (storage : RamGroupStateStorage) (groupId state : Bytes) :
    Except String RamGroupStateStorage := do
  rejectIf (groupId.length ≠ 32 ∨ state = [] ∨ maxStateBytes < state.length) "Room unavailable"
  rejectIf ((storage.get? groupId).any fun existing =>
    maxStateBytes < state.length + epochBytes existing.epochs) "Room unavailable"
  .ok (storage.insert groupId ⟨state, []⟩)

def snapshot (storage : RamGroupStateStorage) (groupId : Bytes) : Except String Bytes :=
  okOr ((storage.get? groupId).map RamGroupData.current) "Room unavailable"

def snapshotEpochs (storage : RamGroupStateStorage) (groupId : Bytes) :
    Except String (List EpochRecord) :=
  -- The pairs of an id and bytes stand for the records made of them.
  okOr ((storage.get? groupId).map RamGroupData.epochs) "Room unavailable"

def putEpochs (storage : RamGroupStateStorage) (groupId : Bytes) (epochs : List EpochRecord) :
    Except String RamGroupStateStorage := do
  rejectIf (maxEpochRetention < epochs.length ∨ epochs.any badEpoch) "Room unavailable"
  let data ← okOr (storage.get? groupId) "Room unavailable"
  rejectIf (maxStateBytes < data.current.length + epochBytes epochs) "Room unavailable"
  .ok (storage.insert groupId { data with epochs := epochs })

def putBack (storage : RamGroupStateStorage) (groupId state : Bytes) (epochs : List EpochRecord) :
    Except String RamGroupStateStorage := do
  let storage ← storage.putSnapshot groupId state
  storage.putEpochs groupId epochs

inductive Call
  | write (state : GroupState) (epochInserts epochUpdates : List EpochRecord)
  | putSnapshot (groupId state : Bytes)
  | putEpochs (groupId : Bytes) (epochs : List EpochRecord)

def step (storage : RamGroupStateStorage) : Call → RamGroupStateStorage
  -- A call that is refused leaves the map alone.
  | .write state inserts updates => (storage.write state inserts updates).toOption.getD storage
  | .putSnapshot groupId state => (storage.putSnapshot groupId state).toOption.getD storage
  | .putEpochs groupId epochs => (storage.putEpochs groupId epochs).toOption.getD storage

def after (calls : List Call) : RamGroupStateStorage := runFrom step .empty calls

end RamGroupStateStorage

open RamGroupStateStorage

variable {P : EpochRecord → Prop} {epochs epochs' inserts updates : List EpochRecord}
  {update : EpochRecord} {storage storage' : RamGroupStateStorage} {groupId state : Bytes}

structure Proper (groupId : Bytes) (data : RamGroupData) : Prop where
  id : groupId.length = 32
  state : data.current ≠ []
  count : data.epochs.length ≤ maxEpochRetention
  epochs : ∀ epoch ∈ data.epochs, badEpoch epoch = false
  size : data.current.length + epochBytes data.epochs ≤ maxStateBytes

def AllProper (storage : RamGroupStateStorage) : Prop :=
  ∀ groupId data, storage.get? groupId = some data → Proper groupId data

theorem insertEpochs_forall (h : insertEpochs epochs inserts = .ok epochs') (hold : ∀ e ∈ epochs, P e)
    (hnew : ∀ e ∈ inserts, P e) : ∀ e ∈ epochs', P e := by
  induction inserts generalizing epochs with
  | nil =>
    cases h
    exact hold
  | cons epoch inserts ih =>
    rw [insertEpochs] at h
    split_ifs at h
    rw [forall_mem_cons] at hnew
    refine ih h (fun e he => ?_) hnew.2
    rcases mem_append.mp he with he | he
    · exact hold e he
    · exact mem_singleton.mp he ▸ hnew.1

theorem updateEpoch_forall (h : updateEpoch update epochs = some epochs') (hold : ∀ e ∈ epochs, P e)
    (hnew : P update) : ∀ e ∈ epochs', P e := by
  induction epochs generalizing epochs' with
  | nil => cases h
  | cons epoch epochs ih =>
    rw [forall_mem_cons] at hold
    rw [updateEpoch] at h
    split_ifs at h
    · cases h
      exact forall_mem_cons.mpr ⟨hnew, hold.2⟩
    · obtain ⟨rest, hrest, rfl⟩ := Option.map_eq_some_iff.mp h
      exact forall_mem_cons.mpr ⟨hold.1, ih hrest hold.2⟩

theorem updateEpochs_forall (h : updateEpochs epochs updates = .ok epochs') (hold : ∀ e ∈ epochs, P e)
    (hnew : ∀ e ∈ updates, P e) : ∀ e ∈ epochs', P e := by
  induction updates generalizing epochs with
  | nil =>
    cases h
    exact hold
  | cons update updates ih =>
    rw [forall_mem_cons] at hnew
    rw [updateEpochs] at h
    cases hupdate : updateEpoch update epochs with
    | none => rw [hupdate] at h; cases h
    | some next =>
      rw [hupdate] at h
      exact ih h (updateEpoch_forall hupdate hold hnew.1) hnew.2

theorem AllProper.insert (h : AllProper storage) {data : RamGroupData} (hdata : Proper groupId data) :
    AllProper (storage.insert groupId data) := by
  intro other found hfound
  rcases get?_insert_cases hfound with ⟨rfl, rfl⟩ | ⟨-, hfound⟩
  · exact hdata
  · exact h other found hfound

theorem AllProper.epochsOf (h : AllProper storage) (groupId : Bytes) :
    ∀ epoch ∈ storage.epochsOf groupId, badEpoch epoch = false := by
  intro epoch hepoch
  cases hdata : storage.get? groupId with
  | none =>
    rw [RamGroupStateStorage.epochsOf, hdata] at hepoch
    cases hepoch
  | some data =>
    rw [RamGroupStateStorage.epochsOf, hdata] at hepoch
    exact (h groupId data hdata).epochs epoch hepoch

theorem AllProper.write (h : AllProper storage) {state : GroupState}
    (hwrite : storage.write state inserts updates = .ok storage') : AllProper storage' := by
  unfold RamGroupStateStorage.write at hwrite
  split_ifs at hwrite with hstate hepochs
  obtain ⟨inserted, hinserted, hwrite⟩ := bind_eq_ok.mp hwrite
  obtain ⟨epochs, hupdated, hwrite⟩ := bind_eq_ok.mp hwrite
  split_ifs at hwrite with hsize
  cases hwrite
  simp only [not_or, ne_eq, not_not, Bool.not_eq_true, any_eq_false, not_lt] at hstate hepochs hsize
  refine h.insert ⟨hstate.1, hstate.2.1, hsize.1, ?_, hsize.2⟩
  exact updateEpochs_forall hupdated (insertEpochs_forall hinserted (h.epochsOf _) hepochs.2.1)
    hepochs.2.2

theorem putSnapshot_eq_ok : storage.putSnapshot groupId state = .ok storage' ↔
    (groupId.length = 32 ∧ state ≠ [] ∧ state.length ≤ maxStateBytes) ∧
      state.length + epochBytes (storage.epochsOf groupId) ≤ maxStateBytes ∧
        storage' = storage.insert groupId ⟨state, []⟩ := by
  unfold putSnapshot RamGroupStateStorage.epochsOf
  simp only [bind_eq_ok, rejectIf_eq_ok, not_or, not_not, ne_eq, not_lt, exists_const,
    Except.ok.injEq, @eq_comm _ storage']
  cases storage.get? groupId with
  | none => simp +contextual [epochBytes]
  | some data => simp

theorem putEpochs_eq_ok : storage.putEpochs groupId epochs = .ok storage' ↔
    (epochs.length ≤ maxEpochRetention ∧ ∀ epoch ∈ epochs, badEpoch epoch = false) ∧
      ∃ data, storage.get? groupId = some data ∧
        data.current.length + epochBytes epochs ≤ maxStateBytes ∧
          storage' = storage.insert groupId { data with epochs := epochs } := by
  simp only [putEpochs, bind_eq_ok, rejectIf_eq_ok, okOr_eq_ok, not_or, not_lt, exists_const,
    Except.ok.injEq, Bool.not_eq_true, any_eq_false, @eq_comm _ storage']

theorem AllProper.step (h : AllProper storage) (call : Call) : AllProper (storage.step call) := by
  cases call with
  | write state inserts updates =>
    rw [RamGroupStateStorage.step]
    cases hcall : storage.write state inserts updates with
    | error e => exact h
    | ok storage' => exact h.write hcall
  | putSnapshot groupId state =>
    rw [RamGroupStateStorage.step]
    cases hcall : storage.putSnapshot groupId state with
    | error e => exact h
    | ok storage' =>
      obtain ⟨⟨hid, hstate, hsize⟩, -, rfl⟩ := putSnapshot_eq_ok.mp hcall
      exact h.insert ⟨hid, hstate, Nat.zero_le _, forall_mem_nil _, hsize⟩
  | putEpochs groupId epochs =>
    rw [RamGroupStateStorage.step]
    cases hcall : storage.putEpochs groupId epochs with
    | error e => exact h
    | ok storage' =>
      obtain ⟨⟨hcount, hepochs⟩, data, hdata, hsize, rfl⟩ := putEpochs_eq_ok.mp hcall
      have hproper := h groupId data hdata
      exact h.insert ⟨hproper.id, hproper.state, hcount, hepochs, hsize⟩

theorem allProper_after (calls : List Call) : AllProper (after calls) :=
  @run_invariant _ _ RamGroupStateStorage.step AllProper (fun _ call h => h.step call) _
    (fun _ _ h => by cases h) calls

/-- The group is put back: it is read as it was in the earlier storage, and the other groups are read
as in the later one. -/
def PutsBack (earlier later : RamGroupStateStorage) (groupId state : Bytes)
    (epochs : List EpochRecord) : Prop :=
  ∃ storage, later.putBack groupId state epochs = .ok storage ∧
    storage.state groupId = earlier.state groupId ∧
    (∀ id, storage.epoch groupId id = earlier.epoch groupId id) ∧
    storage.maxEpochId groupId = earlier.maxEpochId groupId ∧
    ∀ other, groupId ≠ other → storage.get? other = later.get? other

/-- What was captured in a run goes back, however the run went on, exactly if the captured state fits
beside the epochs that the group has by then. -/
theorem putsBack_iff (calls more : List Call) {groupId state : Bytes} {epochs : List EpochRecord}
    (hstate : (after calls).snapshot groupId = .ok state)
    (hepochs : (after calls).snapshotEpochs groupId = .ok epochs) :
    PutsBack (after calls) (after (calls ++ more)) groupId state epochs ↔
      state.length + epochBytes ((after (calls ++ more)).epochsOf groupId) ≤ maxStateBytes := by
  obtain ⟨data, hdata, rfl⟩ := Option.map_eq_some_iff.mp (okOr_eq_ok.mp hstate)
  rw [snapshotEpochs, hdata] at hepochs
  cases hepochs
  have hproper := allProper_after calls groupId data hdata
  constructor
  · rintro ⟨storage, hput, -⟩
    obtain ⟨middle, hput, -⟩ := bind_eq_ok.mp hput
    exact (putSnapshot_eq_ok.mp hput).2.1
  · intro hfits
    have hput := putSnapshot_eq_ok.mpr ⟨⟨hproper.id, hproper.state,
      (Nat.le_add_right ..).trans hproper.size⟩, hfits, rfl⟩
    refine ⟨_, bind_eq_ok.mpr ⟨_, hput, putEpochs_eq_ok.mpr ⟨⟨hproper.count, hproper.epochs⟩, _,
      get?_insert_self .., hproper.size, rfl⟩⟩, ?_, fun id => ?_, ?_, fun other hne => ?_⟩
    · rw [RamGroupStateStorage.state, get?_insert_self, RamGroupStateStorage.state, hdata]
    · rw [epoch, get?_insert_self, epoch, hdata]
    · rw [maxEpochId, get?_insert_self, maxEpochId, hdata]
    · rw [get?_insert_of_ne _ _ hne, get?_insert_of_ne _ _ hne]

/-- A group is captured with a state of `n` bytes, and is then written with one byte and an epoch. -/
def grown (n : Nat) : List Call :=
  [.putSnapshot (List.replicate 32 1) (List.replicate n 1),
    .write ⟨List.replicate 32 1, [1]⟩ [⟨0, [1]⟩] []]

theorem putsBack_small : PutsBack (after ((grown 1).take 1)) (after ((grown 1).take 1 ++
    (grown 1).drop 1)) (List.replicate 32 1) [1] [] :=
  (putsBack_iff _ _ rfl rfl).mpr (by decide)

theorem after_captured {n : Nat} (hpos : 0 < n) (hn : n ≤ maxStateBytes) :
    after ((grown n).take 1) =
      OrdMap.empty.insert (List.replicate 32 1) ⟨List.replicate n 1, []⟩ := by
  have hlength : (List.replicate n (1 : UInt8)).length ≤ maxStateBytes :=
    length_replicate.trans_le hn
  have hput := (@putSnapshot_eq_ok .empty _ (List.replicate 32 1)).mpr
    ⟨⟨by decide, ne_nil_of_length_pos (by simpa using hpos), hlength⟩, hlength, rfl⟩
  exact congrArg (fun result => result.toOption.getD .empty) hput

theorem after_grown {n : Nat} (hpos : 0 < n) (hn : n ≤ maxStateBytes) :
    (after (grown n)).epochsOf (List.replicate 32 1) = [⟨0, [1]⟩] := by
  have hstep : after (grown n) = RamGroupStateStorage.step (after ((grown n).take 1))
      (.write ⟨List.replicate 32 1, [1]⟩ [⟨0, [1]⟩] []) := rfl
  rw [hstep, after_captured hpos hn]
  rfl

theorem not_putsBack_grown :
    (after ((grown maxStateBytes).take 1)).snapshot (List.replicate 32 1) =
      .ok (List.replicate maxStateBytes 1) ∧
    (after ((grown maxStateBytes).take 1)).snapshotEpochs (List.replicate 32 1) = .ok [] ∧
    ¬ PutsBack (after ((grown maxStateBytes).take 1)) (after (grown maxStateBytes))
      (List.replicate 32 1) (List.replicate maxStateBytes 1) [] := by
  have hpos : 0 < maxStateBytes := by decide
  refine ⟨?_, ?_, ?_⟩
  · rw [snapshot, after_captured hpos le_rfl, get?_insert_self]
    rfl
  · rw [snapshotEpochs, after_captured hpos le_rfl, get?_insert_self]
    rfl
  · rintro ⟨storage, hput, -⟩
    obtain ⟨middle, hput, -⟩ := bind_eq_ok.mp hput
    have hfits := (putSnapshot_eq_ok.mp hput).2.1
    rw [after_grown hpos le_rfl, length_replicate] at hfits
    exact Nat.not_succ_le_self _ hfits

end Abyssal.Mls
