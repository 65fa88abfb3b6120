import Abyssal.Rooms.Budgets
import Mathlib.Data.List.Induction
import Mathlib.Data.List.TakeWhile

/-! The replay lists over whole runs: which ids they hold, which calls they refuse, and the only
ways in which an entry leaves. -/

namespace Abyssal.Rooms

open RelayRoom RoomAuthority OrdMap List

variable {id : Text}

namespace RoomAuthority

variable {s : RoomAuthority}

theorem trimLoop_of_le (σ : HashOrder) (fuel : Nat) (h : s.globalReplayCount ≤ maxGlobalReplayIds) :
    trimLoop σ fuel s = (s, .ok ()) := by
  cases fuel with
  | zero => rfl
  | succ fuel => rw [trimLoop, if_neg (Nat.not_lt.mpr h)]

theorem trimReplayIds_of_le (σ : HashOrder) (hcapacity : Capacity s)
    (h : s.replayTotal ≤ maxGlobalReplayIds) : (s.trimReplayIds σ).1.rooms = s.rooms := by
  have hloop := trimLoop_of_le σ s.replayTotal
    (s := { s with globalReplayCount := s.replayTotal }) h
  rw [trimReplayIds, replayCount_eq hcapacity]
  simp only [hloop]

theorem trimReplayIds_of_succ (σ : HashOrder) (hcapacity : Capacity s)
    (h : s.replayTotal = maxGlobalReplayIds + 1) :
    ∃ id room e rest, s.rooms.get? id = some room ∧ room.replayIds = e :: rest ∧
      (∀ id' room' e' rest', s.rooms.get? id' = some room' → room'.replayIds = e' :: rest' →
        e.2 ≤ e'.2) ∧
      (s.trimReplayIds σ).1.rooms = s.rooms.insert id { room with replayIds := rest } := by
  rw [trimReplayIds, replayCount_eq hcapacity, h]
  simp only [trimLoop, if_pos (Nat.lt_succ_self maxGlobalReplayIds)]
  cases hold : oldestFront s.rooms none (σ.rooms s.rooms.keys) with
  | none =>
    have hzero := replayTotal_eq_zero hold
    omega
  | some front =>
    obtain ⟨id, createdAt⟩ := front
    rw [oldestFront_eq] at hold
    obtain ⟨room, key, rest, hroom, hids⟩ := mem_fronts.mp (argmin_mem hold)
    refine ⟨id, room, (key, createdAt), rest, hroom, hids, ?_, ?_⟩
    · intro id' room' e' rest' hroom' hids'
      have hmem : (id', e'.2) ∈ fronts s.rooms (σ.rooms s.rooms.keys) :=
        mem_fronts.mpr ⟨room', e'.1, rest', hroom', hids'⟩
      have hle := le_of_mem_argmin hmem hold
      exact hle
    · simp only [hroom, hids]
      rw [trimLoop_of_le σ _ (Nat.le_refl _)]

end RoomAuthority

namespace RelayRoom

theorem prune_replayIds (σ : HashOrder) (now ttl : Nat) (room : RelayRoom) (pairs : Nat) :
    (room.prune σ now ttl pairs).1.replayIds =
      room.replayIds.dropWhile fun e => ttl ≤ now - e.2 := by
  have hswept : (room.swept σ now ttl).replayIds =
      room.replayIds.dropWhile fun e => ttl ≤ now - e.2 :=
    congrArg (List.dropWhile fun e : ReplayKey × Nat => decide (ttl ≤ now - e.2))
      (expireApplications_rest σ (room.pruneRequests now) now).2
  obtain ⟨deliveries, gaps, bytes, hframe⟩ :=
    pruneDeliveries_frame σ (room.swept σ now ttl) now pairs
  rw [prune_eq, hframe]
  exact hswept

end RelayRoom

def Op.record : Op → Option (Text × ReplayKey × Nat)
  | .commitApplication now roomId messageId => some (roomId, ⟨.application, messageId⟩, now)
  | .acceptMembership clock _ roomId messageId _ =>
    some (roomId, ⟨.membership, messageId⟩, clock.replayedAt)
  | _ => none

def Op.claims : Op → Option (Text × ReplayKey)
  | .admitApplication _ a => some (a.roomId, ⟨.application, a.messageId⟩)
  | .commitApplication _ roomId messageId => some (roomId, ⟨.application, messageId⟩)
  | .beginMembership _ _ t => some (t.roomId, ⟨.membership, t.messageId⟩)
  | .acceptMembership _ _ roomId messageId _ => some (roomId, ⟨.membership, messageId⟩)
  | _ => none

def Op.recordIn (op : Op) (rooms : OrdMap Text RelayRoom) : OrdMap Text RelayRoom :=
  match op.record with
  | some (roomId, key, time) => rooms.modify roomId fun room =>
      { room with replayIds := pushReplay room.replayIds key time }
  | none => rooms

/-- The reasons for which a call may drop an entry of a room. -/
inductive EvictedFor (σ : HashOrder) (s : RoomAuthority) (op : Op) (id : Text)
    (e : ReplayKey × Nat) : Prop
  | removed (hok : ∃ reply, (exec σ s op).2 = .ok reply)
      (hop : op = .wipe ∨ ∃ now owner, op = .delete now owner id)
  | aged {now : Nat} (hnow : op.pruneClock = some now) (hage : s.replayTtlMs ≤ now - e.2)
  | crowded {key : ReplayKey} {time : Nat} {room : RelayRoom} {newer : List (ReplayKey × Nat)}
      (hok : ∃ reply, (exec σ s op).2 = .ok reply)
      (hrecord : op.record = some (id, key, time))
      (hroom : (op.base σ s).rooms.get? id = some room) (hids : room.replayIds = e :: newer)
      (hfull : maxReplayIds ≤ (newer ++ [(key, time)]).length)
  | oldest {room : RelayRoom} {newer : List (ReplayKey × Nat)}
      (hok : ∃ reply, (exec σ s op).2 = .ok reply)
      (hover : maxGlobalReplayIds <
        (op.recordIn (op.base σ s).rooms).sum fun _ room => room.replayIds.length)
      (hroom : (op.recordIn (op.base σ s).rooms).get? id = some room)
      (hids : room.replayIds = e :: newer) (hnewer : ∀ e' ∈ newer, e.2 ≤ e'.2)
      (hothers : ∀ id' room' e' rest, (op.recordIn (op.base σ s).rooms).get? id' = some room' →
        room'.replayIds = e' :: rest → e.2 ≤ e'.2)

def Remembers (s : RoomAuthority) (id : Text) (e : ReplayKey × Nat) : Prop :=
  ∃ room, s.rooms.get? id = some room ∧ e ∈ room.replayIds

theorem mem_dropWhile_or {α : Type} {p : α → Bool} {l : List α} {a : α} (h : a ∈ l) :
    a ∈ l.dropWhile p ∨ p a = true := by
  rw [← @takeWhile_append_dropWhile _ p l, mem_append] at h
  exact h.symm.imp_right mem_takeWhile_imp

theorem replayTotal_after (maxRooms pendingTtlMs : Nat) (calls : List Call) :
    (after maxRooms pendingTtlMs calls).replayTotal ≤ maxGlobalReplayIds := by
  have hboth := @after_invariant
    (fun s => Regular s ∧ s.replayTotal ≤ maxGlobalReplayIds) maxRooms pendingTtlMs
    ⟨.new _ _, Nat.zero_le _⟩ (fun s c h => ⟨h.1.call c, replayTotal_step (h.1.base c.1 c.2)
      ((replayTotal_base c.1 s c.2).trans h.2) (exec_step c.1 s c.2)⟩) calls
  exact hboth.2

variable {s : RoomAuthority} {room : RelayRoom}

theorem pruneExpired_replayIds {σ : HashOrder} {now : Nat} (hcapacity : Capacity s)
    (htotal : s.replayTotal ≤ maxGlobalReplayIds) (hroom : s.rooms.get? id = some room) :
    ∃ mid, (s.pruneExpired σ now).rooms.get? id = some mid ∧
      mid.replayIds = room.replayIds.dropWhile fun e => s.replayTtlMs ≤ now - e.2 := by
  have hshorter : (s.pruneAllRooms σ now).recountAll.replayTotal ≤ maxGlobalReplayIds := by
    refine (RoomAuthority.replayTotal_le fun id mid hmid => ?_).trans htotal
    rw [recountAll_rooms] at hmid
    obtain ⟨r, hr, hmid⟩ := pruneAllRooms_some hmid
    exact ⟨r, hr, hmid.tidy.replay_suffix.length_le⟩
  have hcount := (hcapacity.pruneAllRooms σ now).recountAll
  have hrooms : (s.pruneExpired σ now).rooms = (s.pruneAllRooms σ now).rooms := by
    rw [pruneExpired, trimOrExhaust_rooms, trimReplayIds_of_le σ hcount hshorter, recountAll_rooms]
  have hrel := pruneAllRooms_rooms σ now s id
  rw [hroom] at hrel
  obtain ⟨mid, hmid, pairs, rfl⟩ := rel_some_left hrel
  rw [hrooms]
  exact ⟨_, hmid, prune_replayIds σ now s.replayTtlMs room pairs⟩

theorem Remembers.base {σ : HashOrder} (hcapacity : Capacity s)
    (htotal : s.replayTotal ≤ maxGlobalReplayIds) (op : Op) {e : ReplayKey × Nat}
    (h : Remembers s id e) : Remembers (op.base σ s) id e ∨ EvictedFor σ s op id e := by
  obtain ⟨room, hroom, he⟩ := h
  unfold Op.base
  cases hclock : op.pruneClock with
  | none => exact .inl ⟨room, hroom, he⟩
  | some now =>
    obtain ⟨mid, hmid, hids⟩ := pruneExpired_replayIds hcapacity htotal hroom
    rcases mem_dropWhile_or (p := fun e => decide (s.replayTtlMs ≤ now - e.2)) he with hkept | hage
    · exact .inl ⟨mid, hmid, hids ▸ hkept⟩
    · exact .inr (.aged hclock (of_decide_eq_true hage))

def Op.readings : Op → List Nat
  | .create now createdAt _ => [now, createdAt]
  | .requestJoin now _ => [now]
  | .removeJoin now _ _ _ => [now]
  | .requestLeave now _ _ _ => [now]
  | .removeLeave now _ _ _ => [now]
  | .beginMembership now _ _ => [now]
  | .acceptMembership clock _ _ _ _ => [clock.now, clock.replayedAt, clock.storedAt, clock.joinedAt]
  | .rollbackMembership now _ _ _ _ => [now]
  | .admitApplication now _ => [now]
  | .commitApplication now _ _ => [now]
  | .rollbackApplication _ _ => []
  | .storeSnapshot now _ => [now]
  | .prune now => [now]
  | .deliveriesForMember now _ _ => [now]
  | .memberInfo now _ _ => [now]
  | .memberCodeIds now _ => [now]
  | .delete now _ _ => [now]
  | .wipe => []

def readingsOf (calls : List Call) : List Nat := calls.flatMap fun c => c.2.readings

/-- The clock never runs backwards. -/
def Clocked (calls : List Call) : Prop := (readingsOf calls).Pairwise (· ≤ ·)

variable {key : ReplayKey} {time : Nat}

theorem Op.record_reading {op : Op} (h : op.record = some (id, key, time)) :
    time ∈ op.readings := by
  cases op <;> cases h <;> simp [Op.readings]

theorem replayed_eq_false :
    room.replayed key = false ↔ key ∉ room.replayIds.map Prod.fst := by
  rw [← Bool.not_eq_true, RelayRoom.replayed, any_eq_true, mem_map]
  simp only [decide_eq_true_eq]

theorem pushReplay_eq (ids : List (ReplayKey × Nat)) (key : ReplayKey) (time : Nat) :
    ∃ kept, pushReplay ids key time = kept ++ [(key, time)] ∧ kept <:+ ids := by
  unfold pushReplay
  split_ifs
  · exact ⟨_, rfl, tail_suffix _⟩
  · exact ⟨_, rfl, suffix_refl _⟩

theorem pushReplay_ordered {ids : List (ReplayKey × Nat)} (key : ReplayKey)
    (h : ids.Pairwise fun e e' => e.2 ≤ e'.2) (hle : ∀ e ∈ ids, e.2 ≤ time) :
    (pushReplay ids key time).Pairwise fun e e' => e.2 ≤ e'.2 := by
  obtain ⟨kept, hkept, hsuffix⟩ := pushReplay_eq ids key time
  rw [hkept, pairwise_append]
  refine ⟨h.sublist hsuffix.sublist, pairwise_singleton _ _, ?_⟩
  intro e he e' he'
  rw [mem_singleton.mp he']
  exact hle e (hsuffix.subset he)

structure Windowed (readings : List Nat) (room : RelayRoom) : Prop where
  unique : (room.replayIds.map Prod.fst).Nodup
  ordered : room.replayIds.Pairwise fun e e' => e.2 ≤ e'.2
  timed : ∀ e ∈ room.replayIds, e.2 ∈ readings
  pending : ∀ m p, room.pendingApplications.get? m = some p →
    room.replayed ⟨.application, m⟩ = false

namespace Windowed

variable {readings : List Nat} {room room' : RelayRoom} (h : Windowed readings room)

include h

theorem shrink (hids : room'.replayIds <:+ room.replayIds)
    (hpending : ∀ m p, room'.pendingApplications.get? m = some p →
      room.pendingApplications.get? m = some p) : Windowed readings room' where
  unique := h.unique.sublist (hids.sublist.map Prod.fst)
  ordered := h.ordered.sublist hids.sublist
  timed e he := h.timed e (hids.subset he)
  pending m p hget := by
    have hfresh := replayed_eq_false.mp (h.pending m p (hpending m p hget))
    exact replayed_eq_false.mpr fun hmem => hfresh ((hids.sublist.map Prod.fst).subset hmem)

theorem later (more : List Nat) : Windowed (readings ++ more) room :=
  { h with timed := fun e he => mem_append_left _ (h.timed e he) }

theorem push {more : List Nat} (hids : room'.replayIds = pushReplay room.replayIds key time)
    (hfresh : room.replayed key = false) (htime : time ∈ more)
    (hclock : ∀ reading ∈ readings, reading ≤ time)
    (hpending : ∀ m p, room'.pendingApplications.get? m = some p →
      room.pendingApplications.get? m = some p ∧ key ≠ ⟨.application, m⟩) :
    Windowed (readings ++ more) room' := by
  have hordered : room'.replayIds.Pairwise fun e e' => e.2 ≤ e'.2 := by
    rw [hids]
    exact pushReplay_ordered key h.ordered fun e he => hclock _ (h.timed e he)
  obtain ⟨kept, hkept, hsuffix⟩ := pushReplay_eq room.replayIds key time
  have hsub := hsuffix.sublist
  have hkey : key ∉ kept.map Prod.fst := fun hmem =>
    replayed_eq_false.mp hfresh ((hsub.map Prod.fst).subset hmem)
  rw [hkept] at hids
  refine ⟨?_, hordered, ?_, ?_⟩
  · rw [hids, map_append, nodup_append]
    refine ⟨h.unique.sublist (hsub.map Prod.fst), nodup_singleton _, ?_⟩
    intro k hk k' hk' heq
    rw [map_singleton, mem_singleton] at hk'
    rw [heq, hk'] at hk
    exact hkey hk
  · intro e he
    rw [hids, mem_append, mem_singleton] at he
    rcases he with he | rfl
    · exact mem_append_left _ (h.timed e (hsub.subset he))
    · exact mem_append_right _ htime
  · intro m p hget
    obtain ⟨hbefore, hne⟩ := hpending m p hget
    have hclear := replayed_eq_false.mp (h.pending m p hbefore)
    rw [replayed_eq_false, hids, map_append, mem_append, not_or]
    refine ⟨fun hmem => hclear ((hsub.map Prod.fst).subset hmem), ?_⟩
    rw [map_singleton, mem_singleton]
    exact fun heq => hne heq.symm

theorem tidy (htidy : Tidy room room') : Windowed readings room' := by
  refine h.shrink (TidyStar.replay_suffix (.single htidy)) ?_
  intro m p hget
  cases htidy with
  | requests | unstage => exact hget
  | undo messageId pending => exact get?_of_erase hget
  | trim htrim =>
    cases htrim with
    | expire | dropEmpty | evict | recount => exact hget

theorem evict (hevict : Evicted room room') : Windowed readings room' := h.tidy (.trim hevict.trim)

theorem effect {b : RoomAuthority} {op : Op} (he : Effect b op id room room')
    (hclock : ∀ reading ∈ readings, ∀ time ∈ op.readings, reading ≤ time) :
    Windowed (readings ++ op.readings) room' := by
  have hlater := h.later op.readings
  cases he with
  | evicted hevict => exact hlater.evict hevict
  | joined hplan | left hplan | staged hplan =>
    rw [hplan.roomEq]
    exact hlater.shrink (suffix_refl _) fun _ _ hget => hget
  | unjoined | unleft | unstaged | stored hvalid hplan =>
    exact hlater.shrink (suffix_refl _) fun _ _ hget => hget
  | @accepted clock owner _ _ _ plan _ _ hplan hevict =>
    have htime : clock.replayedAt ∈
        (Op.acceptMembership clock owner id plan.transition.messageId 0).readings := by
      simp [Op.readings]
    refine Windowed.evict ?_ hevict
    refine h.push (by rw [acceptRoom_eq]) hplan.fresh htime
      (fun reading hreading => hclock reading hreading _ htime) ?_
    intro m p hget
    rw [acceptRoom_eq] at hget
    have hnone := get?_of_size_eq_zero hplan.noPending m
    rw [hnone] at hget
    cases hget
  | @admitted _ a plan _ hbounds hplan =>
    refine { hlater with pending := ?_ }
    intro m p hget
    change (room.pendingApplications.insert a.messageId plan.pending).get? m = some p at hget
    rw [get?_insert] at hget
    split_ifs at hget with hm
    · rw [← hm]
      exact hplan.fresh
    · exact h.pending m p hget
  | @committed now _ messageId plan pending _ _ hplan hevict =>
    obtain ⟨pendingBytes, hroom, -⟩ := hplan.roomEq
    have htime : now ∈ (Op.commitApplication now id messageId).readings := by
      simp [Op.readings]
    refine Windowed.evict ?_ hevict
    refine h.push (by rw [hroom]) hplan.fresh htime
      (fun reading hreading => hclock reading hreading _ htime) ?_
    intro m p hget
    rw [hroom] at hget
    refine ⟨get?_of_erase hget, ?_⟩
    intro heq
    cases heq
    rw [get?_erase_self] at hget
    cases hget
  | rolledBack hplan | abandoned selected hplan hfull hqueue =>
    exact hlater.shrink (suffix_refl _) fun _ _ hget => get?_of_erase hget

end Windowed

variable {op : Op} {σ : HashOrder} {calls : List Call} {b s' : RoomAuthority} {room : RelayRoom}
  {e : ReplayKey × Nat}

theorem readingsOf_append (calls : List Call) (c : Call) :
    readingsOf (calls ++ [c]) = readingsOf calls ++ c.2.readings := by
  simp [readingsOf]

variable {c : Call}

theorem Clocked.init (h : Clocked (calls ++ [c])) : Clocked calls := by
  rw [Clocked, readingsOf_append, pairwise_append] at h
  exact h.1

theorem Clocked.last (h : Clocked (calls ++ [c])) :
    ∀ reading ∈ readingsOf calls, ∀ time ∈ c.2.readings, reading ≤ time := by
  rw [Clocked, readingsOf_append, pairwise_append] at h
  exact h.2.2

theorem windowed_after (maxRooms pendingTtlMs : Nat) (hclock : Clocked calls) :
    AllRooms (Windowed (readingsOf calls)) (after maxRooms pendingTtlMs calls) := by
  induction calls using List.reverseRecOn with
  | nil => exact .new _ _ _
  | append_singleton calls c ih =>
    have hbefore := (ih hclock.init).base (fun _ _ hr => hr.tidy) c.1 c.2
    rw [after_append, readingsOf_append]
    intro id room' hroom'
    rcases (exec_step c.1 _ c.2).effect hroom' with
      ⟨room, hroom, he⟩ | ⟨_, createdAt, a, plan, -, -, hplan, rfl⟩
    · exact (hbefore id room hroom).effect he hclock.last
    · obtain ⟨name, bytes, -, -, hnew, -⟩ := hplan.roomEq
      rw [hnew]
      exact ⟨.nil, .nil, nofun, nofun⟩

structure Recording (σ : HashOrder) (b : RoomAuthority) (op : Op) (s₁ s' : RoomAuthority) : Prop where
  capacity : Capacity s₁
  rooms : ∀ id, (s₁.rooms.get? id).map RelayRoom.replayIds =
    ((op.recordIn b.rooms).get? id).map RelayRoom.replayIds
  trimmed : s'.rooms = (s₁.trimReplayIds σ).1.rooms

variable {s₁ : RoomAuthority} {roomId : Text}

theorem recording_of_insert {room₁ : RelayRoom} (hcapacity : Capacity s₁)
    (hrecord : op.record = some (roomId, key, time)) (hroom : b.rooms.get? roomId = some room)
    (hrooms : s₁.rooms = b.rooms.insert roomId room₁)
    (hids : room₁.replayIds = pushReplay room.replayIds key time)
    (htrim : s'.rooms = (s₁.trimReplayIds σ).1.rooms) : Recording σ b op s₁ s' := by
  refine ⟨hcapacity, fun id => ?_, htrim⟩
  rw [hrooms, Op.recordIn, hrecord, get?_insert, get?_modify]
  split_ifs with hid
  · subst hid
    rw [hroom, Option.map_some, Option.map_some, Option.map_some, hids]
  · rfl

variable {result : Except String Reply}

theorem RoomAuthority.Step.recording (hregular : Regular b) (hstep : Step σ b op s' result)
    (hrecord : op.record = some (roomId, key, time)) :
    (s' = b ∧ ∃ reason, result = .error reason) ∨
      (∃ reply, result = .ok reply) ∧ ∃ room s₁, b.rooms.get? roomId = some room ∧
        room.replayed key = false ∧ Recording σ b op s₁ s' := by
  cases hstep with
  | failed reason => exact .inl ⟨rfl, reason, rfl⟩
  | replied reply hop => cases op <;> cases hrecord <;> cases hop
  | @accepted clock owner roomId _ _ plan room _ _ hroom hplan hsettle =>
    cases hrecord
    obtain ⟨trimmed, outcome, htrim, hrooms⟩ := settleAcceptance_trim hsettle
    have hcapacity : Capacity { b with
        rooms := b.rooms.insert roomId (acceptRoom clock room owner plan) } :=
      hregular.capacity_effect hroom (.accepted hplan (.refl _)) rfl
    have hok := hcapacity.settled hsettle
    refine .inr ⟨⟨_, by rw [hok]; rfl⟩, _, _, hroom, hplan.messageId ▸ hplan.fresh,
      recording_of_insert hcapacity rfl hroom rfl ?_ (by rw [hrooms, htrim])⟩
    rw [acceptRoom_eq, hplan.messageId]
  | @committed now roomId messageId plan _ _ _ _ hroom hplan htrim =>
    cases hrecord
    obtain ⟨pendingBytes, hnew, -⟩ := hplan.roomEq
    have hcapacity : Capacity { b with
        rooms := b.rooms.insert roomId plan.room
        globalPendingCount := plan.globalPendingCount
        globalPendingBytes := plan.globalPendingBytes } :=
      hregular.capacity_effect hroom (.committed hplan (.refl _)) rfl
    have hok := (hcapacity.trimmed htrim).2
    refine .inr ⟨⟨_, by rw [hok]; rfl⟩, _, _, hroom, hplan.fresh,
      recording_of_insert hcapacity rfl hroom rfl ?_ (by rw [htrim])⟩
    rw [hnew]
  | _ => cases hrecord

theorem RoomAuthority.Step.unrecorded (hstep : Step σ b op s' result) (hrecord : op.record = none)
    (he : Remembers b id e) :
    Remembers s' id e ∨
      (∃ reply, result = .ok reply) ∧ (op = .wipe ∨ ∃ now owner, op = .delete now owner id) := by
  obtain ⟨room, hroom, hmem⟩ := he
  have hinsert : ∀ {roomId : Text} {old new : RelayRoom}, b.rooms.get? roomId = some old →
      new.replayIds = old.replayIds →
      ∃ room', (b.rooms.insert roomId new).get? id = some room' ∧ e ∈ room'.replayIds := by
    intro roomId old new hold hids
    rw [get?_insert]
    split_ifs with hid
    · subst hid
      rw [hold, Option.some.injEq] at hroom
      subst hroom
      exact ⟨new, rfl, hids ▸ hmem⟩
    · exact ⟨room, hroom, hmem⟩
  cases hstep with
  | failed reason | replied reply hop => exact .inl ⟨room, hroom, hmem⟩
  | joined hold hplan | left hold hplan | staged hold hplan =>
    exact .inl (hinsert hold (by rw [hplan.roomEq]))
  | unjoined hold hjoin hcount =>
    refine .inl ?_
    rw [Remembers, recomputeStateAccounting_rooms hcount]
    exact hinsert hold rfl
  | unjoinedLate hold | unleft hold | unstaged hold | admitted hold | rolledBack hold
  | abandoned selected hold | storedLate hold => exact .inl (hinsert hold rfl)
  | accepted | committed => cases hrecord
  | stored hold hvalid hplan hcount =>
    refine .inl ?_
    rw [Remembers, recomputeGapAccounting_rooms hcount]
    exact hinsert hold rfl
  | @created now createdAt a plan info hplan =>
    refine .inl ⟨room, ?_, hmem⟩
    have hne : a.roomId ≠ id := by
      rintro rfl
      rw [hplan.absent] at hroom
      cases hroom
    exact (get?_insert_of_ne _ _ hne).trans hroom
  | @deleted now owner roomId totals info hcount =>
    by_cases hid : roomId = id
    · subst hid
      exact .inr ⟨⟨_, rfl⟩, .inr ⟨now, owner, rfl⟩⟩
    · exact .inl ⟨room, (get?_erase_of_ne _ hid).trans hroom, hmem⟩
  | wiped => exact .inr ⟨⟨_, rfl⟩, .inl rfl⟩

theorem recordIn_total :
    ((op.recordIn b.rooms).sum fun _ room => room.replayIds.length) ≤ b.replayTotal + 1 := by
  unfold Op.recordIn
  cases op.record with
  | none => exact Nat.le_succ _
  | some entry =>
    obtain ⟨roomId, key, time⟩ := entry
    cases hroom : b.rooms.get? roomId with
    | none =>
      simp only [OrdMap.modify, hroom]
      exact Nat.le_succ _
    | some room =>
      have hsum := sum_modify hroom (fun room : RelayRoom =>
        { room with replayIds := pushReplay room.replayIds key time })
        fun _ room => room.replayIds.length
      have hlength : (pushReplay room.replayIds key time).length ≤ room.replayIds.length + 1 := by
        unfold pushReplay
        rw [length_append, length_singleton]
        split_ifs
        · rw [length_tail]
          omega
        · exact Nat.le_refl _
      unfold replayTotal
      simp only at hsum ⊢
      omega

theorem Recording.settle (h : Recording σ (op.base σ s) op s₁ s')
    (hok : ∃ reply, (exec σ s op).2 = .ok reply)
    (htotal : (op.base σ s).replayTotal ≤ maxGlobalReplayIds)
    (hroom : (op.recordIn (op.base σ s).rooms).get? id = some room)
    (hordered : room.replayIds.Pairwise fun e e' => e.2 ≤ e'.2) (he : e ∈ room.replayIds) :
    Remembers s' id e ∨ EvictedFor σ s op id e := by
  have hfind : ∀ {id' : Text} {r : RelayRoom},
      (op.recordIn (op.base σ s).rooms).get? id' = some r →
      ∃ r₁, s₁.rooms.get? id' = some r₁ ∧ r₁.replayIds = r.replayIds := by
    intro id' r hr
    have hids := h.rooms id'
    rw [hr, Option.map_some, Option.map_eq_some_iff] at hids
    exact hids
  have hsum : s₁.replayTotal =
      (op.recordIn (op.base σ s).rooms).sum fun _ room => room.replayIds.length := by
    refine sum_eq_of_rel (R := fun r r' => r.replayIds = r'.replayIds) (fun id' => ?_)
      fun _ r r' hids => by rw [hids]
    have hids := h.rooms id'
    cases hleft : s₁.rooms.get? id' with
    | none =>
      rw [hleft, Option.map_none, eq_comm, Option.map_eq_none_iff] at hids
      rw [hids]
      exact .none
    | some r =>
      rw [hleft, Option.map_some, eq_comm, Option.map_eq_some_iff] at hids
      obtain ⟨r', hr', hids⟩ := hids
      rw [hr']
      exact .some hids.symm
  obtain ⟨room₁, hroom₁, hids₁⟩ := hfind hroom
  have hone : s₁.replayTotal ≤ maxGlobalReplayIds + 1 := by
    rw [hsum]
    exact recordIn_total.trans (Nat.add_le_add_right htotal 1)
  rcases Nat.lt_or_ge maxGlobalReplayIds s₁.replayTotal with hover | hle
  · obtain ⟨victim, vroom, front, rest, hvroom, hfront, hothers, hrooms⟩ :=
      trimReplayIds_of_succ σ h.capacity (Nat.le_antisymm hone hover)
    by_cases hid : victim = id
    · subst hid
      rw [hvroom, Option.some.injEq] at hroom₁
      subst hroom₁
      rw [hfront] at hids₁
      rw [← hids₁] at he hordered
      rcases mem_cons.mp he with rfl | he
      · refine .inr (.oldest hok (hsum ▸ hover) hroom hids₁.symm ?_ ?_)
        · exact (pairwise_cons.mp hordered).1
        · intro id' room' e' rest' hroom' hids'
          obtain ⟨r₁, hr₁, hsame⟩ := hfind hroom'
          exact hothers id' r₁ e' rest' hr₁ (hsame.trans hids')
      · refine .inl ⟨{ vroom with replayIds := rest }, ?_, he⟩
        rw [h.trimmed, hrooms, get?_insert_self]
    · refine .inl ⟨room₁, ?_, hids₁ ▸ he⟩
      rw [h.trimmed, hrooms, get?_insert_of_ne _ _ hid, hroom₁]
  · refine .inl ⟨room₁, ?_, hids₁ ▸ he⟩
    rw [h.trimmed, trimReplayIds_of_le σ h.capacity hle, hroom₁]

theorem mem_recordIn (hok : ∃ reply, (exec σ s op).2 = .ok reply)
    (hroom : (op.base σ s).rooms.get? id = some room) (he : e ∈ room.replayIds) :
    (∃ room₁, (op.recordIn (op.base σ s).rooms).get? id = some room₁ ∧ e ∈ room₁.replayIds) ∨
      EvictedFor σ s op id e := by
  unfold Op.recordIn
  cases hrecord : op.record with
  | none => exact .inl ⟨room, hroom, he⟩
  | some entry =>
    obtain ⟨roomId, key, time⟩ := entry
    simp only [get?_modify]
    split_ifs with hid
    · subst hid
      rw [hroom]
      by_cases hfull : maxReplayIds ≤ room.replayIds.length
      · cases hids : room.replayIds with
        | nil => rw [hids] at he; cases he
        | cons front rest =>
          rw [hids] at he
          rcases mem_cons.mp he with rfl | he
          · refine .inr (.crowded hok hrecord hroom hids ?_)
            rw [hids, length_cons] at hfull
            rw [length_append, length_singleton]
            exact hfull
          · refine .inl ⟨_, rfl, ?_⟩
            show e ∈ pushReplay room.replayIds key time
            rw [pushReplay, if_pos hfull, hids]
            exact mem_append_left _ he
      · refine .inl ⟨_, rfl, ?_⟩
        show e ∈ pushReplay room.replayIds key time
        rw [pushReplay, if_neg hfull]
        exact mem_append_left _ he
    · exact .inl ⟨room, hroom, he⟩

structure Watched (readings : List Nat) (s : RoomAuthority) : Prop where
  regular : Regular s
  total : s.replayTotal ≤ maxGlobalReplayIds
  windowed : AllRooms (Windowed readings) s

theorem watched_after (maxRooms pendingTtlMs : Nat) (hclock : Clocked calls) :
    Watched (readingsOf calls) (after maxRooms pendingTtlMs calls) :=
  ⟨regular_after maxRooms pendingTtlMs calls, replayTotal_after maxRooms pendingTtlMs calls,
    windowed_after maxRooms pendingTtlMs hclock⟩

section Call

variable {readings : List Nat} {s : RoomAuthority} {c : Call} {id : Text} {e : ReplayKey × Nat}

theorem Watched.recordIn_ordered (h : Watched readings s)
    (hclock : ∀ reading ∈ readings, ∀ time ∈ c.2.readings, reading ≤ time)
    (hroom : (c.2.recordIn (c.2.base c.1 s).rooms).get? id = some room) :
    room.replayIds.Pairwise fun e e' => e.2 ≤ e'.2 := by
  have hbase := h.windowed.base (fun _ _ hr => hr.tidy) c.1 c.2
  unfold Op.recordIn at hroom
  cases hrecord : c.2.record with
  | none =>
    rw [hrecord] at hroom
    exact (hbase id room hroom).ordered
  | some entry =>
    obtain ⟨roomId, key, time⟩ := entry
    simp only [hrecord, get?_modify] at hroom
    split_ifs at hroom with hid
    · obtain ⟨old, hold, rfl⟩ := Option.map_eq_some_iff.mp hroom
      have hwindow := hbase id old (hid ▸ hold)
      exact pushReplay_ordered key hwindow.ordered fun e he =>
        hclock _ (hwindow.timed e he) _ (Op.record_reading hrecord)
    · exact (hbase id room hroom).ordered

theorem Remembers.call (h : Remembers s id e) (hwatched : Watched readings s)
    (hclock : ∀ reading ∈ readings, ∀ time ∈ c.2.readings, reading ≤ time) :
    Remembers (call s c) id e ∨ EvictedFor c.1 s c.2 id e := by
  rcases h.base hwatched.regular.capacity hwatched.total c.2 with hbase | hevicted
  · have hstep := exec_step c.1 s c.2
    cases hrecord : c.2.record with
    | none =>
      rcases hstep.unrecorded hrecord hbase with hkept | ⟨hok, hremoved⟩
      · exact .inl hkept
      · exact .inr (.removed hok hremoved)
    | some entry =>
      obtain ⟨roomId, key, time⟩ := entry
      rcases hstep.recording (hwatched.regular.base c.1 c.2) hrecord with
        ⟨hsame, -⟩ | ⟨hok, _, s₁, -, -, hrecording⟩
      · refine .inl ?_
        rw [Rooms.call, hsame]
        exact hbase
      · obtain ⟨room, hroom, he⟩ := hbase
        rcases mem_recordIn hok hroom he with ⟨room₁, hroom₁, he₁⟩ | hevicted
        · exact hrecording.settle hok ((replayTotal_base c.1 s c.2).trans hwatched.total) hroom₁
            (hwatched.recordIn_ordered hclock hroom₁) he₁
        · exact .inr hevicted
  · exact .inr hevicted

variable {reply : Reply}

theorem Watched.recorded (hwatched : Watched readings s)
    (hclock : ∀ reading ∈ readings, ∀ time ∈ c.2.readings, reading ≤ time)
    (hrecord : c.2.record = some (id, key, time)) (hok : (exec c.1 s c.2).2 = .ok reply) :
    Remembers (call s c) id (key, time) ∨ EvictedFor c.1 s c.2 id (key, time) := by
  have hstep := exec_step c.1 s c.2
  rcases hstep.recording (hwatched.regular.base c.1 c.2) hrecord with
    ⟨-, reason, hfailed⟩ | ⟨-, room, s₁, hroom, -, hrecording⟩
  · rw [hok] at hfailed
    cases hfailed
  · have hroom₁ : (c.2.recordIn (c.2.base c.1 s).rooms).get? id =
        some { room with replayIds := pushReplay room.replayIds key time } := by
      rw [Op.recordIn, hrecord]
      simp only [get?_modify, if_true, hroom, Option.map_some]
    refine hrecording.settle ⟨reply, hok⟩ ((replayTotal_base c.1 s c.2).trans hwatched.total) hroom₁
      (hwatched.recordIn_ordered hclock hroom₁) ?_
    obtain ⟨kept, hkept, -⟩ := pushReplay_eq room.replayIds key time
    rw [hkept]
    exact mem_append_right _ (mem_singleton_self _)

theorem RoomAuthority.Step.claims_fresh (hstep : Step σ b op s' (.ok reply))
    (hclaims : op.claims = some (id, key)) :
    ∃ room, b.rooms.get? id = some room ∧ room.replayed key = false := by
  generalize hresult : (Except.ok reply : Except String Reply) = result at hstep
  cases hstep with
  | failed reason => cases hresult
  | replied reply hop => cases op <;> cases hclaims <;> cases hop
  | staged hroom hplan | admitted hroom hbounds hplan | committed hroom hplan htrim =>
    cases hclaims
    exact ⟨_, hroom, hplan.fresh⟩
  | accepted hroom hplan hsettle =>
    cases hclaims
    exact ⟨_, hroom, hplan.messageId ▸ hplan.fresh⟩
  | _ => cases hclaims

theorem Remembers.refused (h : Remembers s id e) (hwatched : Watched readings s)
    (hclaims : c.2.claims = some (id, e.1)) :
    (∃ reason, (exec c.1 s c.2).2 = .error reason) ∨ EvictedFor c.1 s c.2 id e := by
  rcases h.base hwatched.regular.capacity hwatched.total c.2 with ⟨room, hroom, he⟩ | hevicted
  · refine .inl ?_
    have hstep := exec_step c.1 s c.2
    cases hresult : (exec c.1 s c.2).2 with
    | error reason => exact ⟨reason, rfl⟩
    | ok reply =>
      rw [hresult] at hstep
      obtain ⟨room', hroom', hfresh⟩ := hstep.claims_fresh hclaims
      rw [hroom, Option.some.injEq] at hroom'
      subst hroom'
      exact absurd (mem_map_of_mem he) (replayed_eq_false.mp hfresh)
  · exact .inr hevicted

end Call

variable {calls before : List Call} {pendingTtlMs maxRooms : Nat} {e : ReplayKey × Nat}

def EvictedIn (maxRooms pendingTtlMs : Nat) (before calls : List Call) (id : Text)
    (e : ReplayKey × Nat) : Prop :=
  ∃ earlier c later, calls = earlier ++ c :: later ∧
    EvictedFor c.1 (after maxRooms pendingTtlMs (before ++ earlier)) c.2 id e

structure ReplayWindow (maxRooms pendingTtlMs : Nat) (calls : List Call) : Prop where
  unique : AllRooms (fun room => (room.replayIds.map Prod.fst).Nodup)
    (after maxRooms pendingTtlMs calls)
  pending : AllRooms (fun room => ∀ m p, room.pendingApplications.get? m = some p →
    ⟨.application, m⟩ ∉ room.replayIds.map Prod.fst) (after maxRooms pendingTtlMs calls)
  /-- An entry leaves the list of its room only for one of the reasons. -/
  kept : ∀ before between id e, calls = before ++ between →
    Remembers (after maxRooms pendingTtlMs before) id e →
    Remembers (after maxRooms pendingTtlMs calls) id e ∨
      EvictedIn maxRooms pendingTtlMs before between id e
  /-- An id that was committed or accepted is refused until its entry has left. -/
  refused : ∀ before first between last id key time, calls = before ++ first :: between ++ [last] →
    first.2.record = some (id, key, time) →
    (∃ reply, (exec first.1 (after maxRooms pendingTtlMs before) first.2).2 = .ok reply) →
    last.2.claims = some (id, key) →
    (∃ reason, (exec last.1 (after maxRooms pendingTtlMs (before ++ first :: between)) last.2).2 =
      .error reason) ∨
      EvictedIn maxRooms pendingTtlMs before (first :: between ++ [last]) id (key, time)

theorem EvictedIn.append (h : EvictedIn maxRooms pendingTtlMs before calls id e)
    (more : List Call) : EvictedIn maxRooms pendingTtlMs before (calls ++ more) id e := by
  obtain ⟨earlier, c, later, rfl, hevicted⟩ := h
  exact ⟨earlier, c, later ++ more, by simp, hevicted⟩

theorem EvictedFor.last
    (h : EvictedFor c.1 (after maxRooms pendingTtlMs (before ++ calls)) c.2 id e) :
    EvictedIn maxRooms pendingTtlMs before (calls ++ [c]) id e :=
  ⟨calls, c, [], rfl, h⟩

theorem Remembers.run (hclock : Clocked (before ++ calls))
    (h : Remembers (after maxRooms pendingTtlMs before) id e) :
    Remembers (after maxRooms pendingTtlMs (before ++ calls)) id e ∨
      EvictedIn maxRooms pendingTtlMs before calls id e := by
  induction calls using List.reverseRecOn with
  | nil =>
    rw [append_nil]
    exact .inl h
  | append_singleton calls c ih =>
    rw [← append_assoc] at hclock ⊢
    rcases ih hclock.init with hkept | hevicted
    · rw [after_append]
      exact (hkept.call (watched_after _ _ hclock.init) hclock.last).imp_right EvictedFor.last
    · exact .inr (hevicted.append [c])

/-- Over every run with a clock that does not run backwards, the replay lists tell their entries
apart, keep clear of what is pending, refuse what they hold, and lose an entry only with its
room, by age, for newer entries of the room or as the oldest of all. -/
theorem replay_window (maxRooms pendingTtlMs : Nat) {calls : List Call} (hclock : Clocked calls) :
    ReplayWindow maxRooms pendingTtlMs calls where
  unique id room hroom := (windowed_after _ _ hclock id room hroom).unique
  pending id room hroom m p hget :=
    replayed_eq_false.mp ((windowed_after _ _ hclock id room hroom).pending m p hget)
  kept before between id e hcalls h := by
    subst hcalls
    exact h.run hclock
  refused before first between last id key time hcalls hrecord hok hclaims := by
    subst hcalls
    obtain ⟨reply, hok⟩ := hok
    have hsplit : before ++ first :: between = (before ++ [first]) ++ between := by simp
    have hfirst : Clocked (before ++ [first]) := by
      have hinit := hclock.init
      rw [hsplit, Clocked, readingsOf, flatMap_append, pairwise_append] at hinit
      exact hinit.1
    have hrecorded := (watched_after maxRooms pendingTtlMs hfirst.init).recorded hfirst.last
      hrecord hok
    rw [← after_append] at hrecorded
    rcases hrecorded with hthere | hevicted
    · rcases hthere.run (hsplit ▸ hclock.init) with hthere | hevicted
      · rw [← hsplit] at hthere
        exact (hthere.refused (watched_after _ _ hclock.init) hclaims).imp_right EvictedFor.last
      · obtain ⟨earlier, c, later, rfl, hevicted⟩ := hevicted
        refine .inr ⟨first :: earlier, c, later ++ [last], by simp, ?_⟩
        rwa [append_assoc] at hevicted
    · refine .inr ⟨[], first, between ++ [last], rfl, ?_⟩
      rwa [append_nil]

instance (calls : List Call) : Decidable (Clocked calls) :=
  inferInstanceAs (Decidable (List.Pairwise _ _))

namespace Scenario

/-- Alice's message is committed and sent again a moment later. -/
def sentAgain : List Op :=
  bobJoins ++ [send 2 1 [50] 1 2, .commitApplication 3 lobby [50], send 4 1 [50] 1 3]

end Scenario

set_option maxRecDepth 100000 in
theorem replay_window_sentAgain :
    (after 1 1000 (Scenario.calls Scenario.sentAgain.dropLast)).rooms.values.map
      RelayRoom.replayIds = [[(⟨.membership, [49]⟩, 1), (⟨.application, [50]⟩, 3)]] ∧
    (exec .byKey (after 1 1000 (Scenario.calls Scenario.sentAgain.dropLast))
      (Scenario.send 4 1 [50] 1 3)).2.toOption.isNone = true ∧
    ReplayWindow 1 1000 (Scenario.calls Scenario.sentAgain) :=
  ⟨by decide, by decide +kernel, replay_window 1 1000 (by decide +kernel)⟩

end Abyssal.Rooms
