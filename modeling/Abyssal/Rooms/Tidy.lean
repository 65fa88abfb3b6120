import Abyssal.Rooms.Numbering

/-! What maintenance can do to one room. Expiry, pruning, eviction, compaction and the
undoing of an admission are small steps that only take things away; everything
`prune_expired` does is a sequence of them. -/

namespace Abyssal.Rooms

open OrdMap List Option

def DeliveryPayload.isApplication : DeliveryPayload → Bool
  | .application .. => true
  | .membership .. => false

theorem DeliveryPayload.not_application {payload : DeliveryPayload}
    (h : payload.isWelcome = true) : payload.isApplication = false := by
  cases payload with
  | membership => rfl
  | application => cases h

namespace RelayRoom

variable {room room' : RelayRoom} {now : Nat} {σ : HashOrder}

def retracted (room : RelayRoom) (messageId : Text) (selected : CodeId → Bool) :
    OrdMap CodeId (List PendingDelivery) :=
  room.deliveries.mapValues fun c queue =>
    if selected c then
      renumbered (room.memberActive c) (room.revisionOf c) (withoutMessage messageId queue)
    else queue

def undone (room : RelayRoom) (messageId : Text) (pending : PendingApplication) : RelayRoom :=
  { room with
    pendingApplications := room.pendingApplications.erase messageId
    deliveries := room.retracted messageId fun _ => true }.restoreSender pending

/-- Steps that undo nothing: they thin queues of application messages, drop empty queues and
old replay entries, and recount. -/
inductive Trim (room : RelayRoom) : RelayRoom → Prop
  | expire (c : CodeId) (queue thinned : List PendingDelivery) (gaps : OrdMap (CodeId ×ₗ CodeId) Nat)
      (hqueue : room.deliveries.get? c = some queue)
      (hthin : Dropping (fun d => d.payload.isApplication = true) queue thinned)
      (hgaps : ∀ pair n, gaps.get? pair = some n →
        (ofLex pair).1 = c ∨ room.expiredSenderGaps.get? pair = some n) :
      Trim room { room with
        deliveries := room.deliveries.insert c
          (renumbered (room.memberActive c) (room.revisionOf c) thinned)
        expiredSenderGaps := gaps }
  | dropEmpty : Trim room room.dropEmptyQueues
  | evict (n : Nat) : Trim room { room with replayIds := room.replayIds.drop n }
  | recount (pendingBytes snapshotBytes deliveryBytes : Nat) :
      Trim room { room with pendingBytes, snapshotBytes, deliveryBytes }

abbrev TrimStar : RelayRoom → RelayRoom → Prop := Relation.ReflTransGen Trim

inductive Tidy (room : RelayRoom) : RelayRoom → Prop
  | requests (joins : OrdMap Text PendingJoin) (leaves : OrdMap Text LeaveRequest)
      (hjoins : ∀ id j, joins.get? id = some j → room.joins.get? id = some j)
      (hleaves : ∀ id l, leaves.get? id = some l → room.leaves.get? id = some l) :
      Tidy room { room with joins := joins, leaves := leaves }
  | unstage : Tidy room { room with pendingTransition := none }
  | undo (messageId : Text) (pending : PendingApplication)
      (hpending : room.pendingApplications.get? messageId = some pending) :
      Tidy room (room.undone messageId pending)
  | trim {room' : RelayRoom} (htrim : Trim room room') : Tidy room room'

abbrev TidyStar : RelayRoom → RelayRoom → Prop := Relation.ReflTransGen Tidy

variable {I : RelayRoom → Prop}

theorem TidyStar.invariant (hI : ∀ r r', I r → Tidy r r' → I r') (h : TidyStar room room')
    (hroom : I room) : I room' := by
  induction h with
  | refl => exact hroom
  | tail _ hstep ih => exact hI _ _ ih hstep

theorem TrimStar.tidy (h : TrimStar room room') : TidyStar room room' := by
  induction h with
  | refl => exact .refl
  | tail _ hstep ih => exact ih.tail (.trim hstep)

theorem TrimStar.invariant (hI : ∀ r r', I r → Trim r r' → I r') (h : TrimStar room room')
    (hroom : I room) : I room' := by
  induction h with
  | refl => exact hroom
  | tail _ hstep ih => exact hI _ _ ih hstep

theorem dropDelivery_eq (m : Text) (room : RelayRoom) (c : CodeId) :
    ∃ bytes, dropDelivery m room c = { room with
      deliveries := room.deliveries.modify c fun queue =>
        renumbered (room.memberActive c) (room.revisionOf c) (withoutMessage m queue)
      deliveryBytes := bytes } := by
  rw [← modify_modify]
  cases hc : compactDeliveryRevisions
      { room with deliveries := room.deliveries.modify c (withoutMessage m) } c with
  | ok room' =>
    refine ⟨room.deliveryBytes, ?_⟩
    simp only [dropDelivery, hc]
    exact compactDeliveryRevisions_ok hc
  | error reason =>
    have herr := compactDeliveryRevisions_error hc
    refine ⟨wordMax, ?_⟩
    simp only [dropDelivery, hc]
    exact congrArg (fun d => { room with deliveries := d, deliveryBytes := wordMax }) herr.symm

theorem foldl_dropDelivery (m : Text) (room : RelayRoom) (cs : List CodeId) :
    ∃ bytes, cs.foldl (dropDelivery m) room = { room with
      deliveries := cs.foldl (fun ds c => ds.modify c fun queue =>
        renumbered (room.memberActive c) (room.revisionOf c) (withoutMessage m queue))
        room.deliveries
      deliveryBytes := bytes } := by
  induction cs generalizing room with
  | nil => exact ⟨room.deliveryBytes, rfl⟩
  | cons c cs ih =>
    obtain ⟨b₁, h₁⟩ := dropDelivery_eq m room c
    obtain ⟨b₂, h₂⟩ := ih (dropDelivery m room c)
    refine ⟨b₂, ?_⟩
    rw [foldl_cons, foldl_cons, h₂, h₁]
    rfl

variable {m : Text} {cs : List CodeId}

theorem foldl_retract_eq (hnd : cs.Nodup) :
    cs.foldl (fun ds c => ds.modify c fun queue =>
      renumbered (room.memberActive c) (room.revisionOf c) (withoutMessage m queue))
      room.deliveries = room.retracted m (fun c => c ∈ cs) := by
  rw [foldl_modify_eq_mapValues room.deliveries
    (fun c queue => renumbered (room.memberActive c) (room.revisionOf c) (withoutMessage m queue))
    hnd]
  exact mapValues_congr (fun c queue _ => by simp)

theorem retracted_keys (hperm : cs.Perm room.deliveries.keys) :
    room.retracted m (fun c => c ∈ cs) = room.retracted m (fun _ => true) := by
  refine mapValues_congr (fun c queue hc => ?_)
  have hmem : c ∈ cs := hperm.mem_iff.mpr (mem_keys.mpr ⟨queue, hc⟩)
  simp [hmem]

theorem expireApplication_eq (σ : HashOrder) {pending : PendingApplication}
    (h : room.pendingApplications.get? m = some pending) :
    ∃ bytes, expireApplication σ room m =
      { room.undone m pending with deliveryBytes := bytes } := by
  have hperm := σ.codes_perm room.roomId room.deliveries.keys
  have hnd : (σ.codes room.roomId room.deliveries.keys).Nodup :=
    hperm.nodup_iff.mpr room.deliveries.keys_nodup
  simp only [expireApplication, h]
  obtain ⟨bytes, hb⟩ := foldl_dropDelivery m
    { room with pendingApplications := room.pendingApplications.erase m }
    (σ.codes room.roomId room.deliveries.keys)
  refine ⟨bytes, ?_⟩
  have hd : (σ.codes room.roomId room.deliveries.keys).foldl (fun ds c => ds.modify c fun queue =>
      renumbered (room.memberActive c) (room.revisionOf c) (withoutMessage m queue))
      room.deliveries = room.retracted m (fun _ => true) := by
    rw [foldl_retract_eq hnd, retracted_keys hperm]
  rw [hb]
  exact congrArg (fun d => RelayRoom.restoreSender { room with
    pendingApplications := room.pendingApplications.erase m
    deliveries := d, deliveryBytes := bytes } pending) hd

theorem foldl_expireApplication {P : RelayRoom → Prop} (σ : HashOrder) (ms : List Text)
    (hroom : P room) (hundone : ∀ room m pending bytes,
      room.pendingApplications.get? m = some pending → P room →
        P { room.undone m pending with deliveryBytes := bytes }) :
    P (ms.foldl (expireApplication σ) room) := by
  induction ms generalizing room with
  | nil => exact hroom
  | cons m ms ih =>
    refine ih ?_
    cases h : room.pendingApplications.get? m with
    | none =>
      simp only [expireApplication, h]
      exact hroom
    | some pending =>
      obtain ⟨bytes, hb⟩ := expireApplication_eq σ h
      rw [hb]
      exact hundone room m pending bytes h hroom

theorem foldl_expireApplication_tidy (σ : HashOrder) (room : RelayRoom) (ms : List Text) :
    TidyStar room (ms.foldl (expireApplication σ) room) :=
  foldl_expireApplication σ ms .refl fun _ m pending _ h hstar =>
    (hstar.tail (.undo m pending h)).tail (.trim <| .recount _ _ _)

inductive GapStep (c : CodeId) (scan : GapScan) : OrdMap (CodeId ×ₗ CodeId) Nat → Nat → Prop
  | same : GapStep c scan scan.nextGaps scan.gapPairs
  | more (sender : CodeId) (n m : Nat) (hold : scan.gap c sender = some m) :
      GapStep c scan (scan.nextGaps.insert (toLex (c, sender)) n) scan.gapPairs
  | new (sender : CodeId) (n : Nat) (hnew : scan.gap c sender = none)
      (hroom : scan.nextGaps.size < maxExpiredGapPairsPerRoom)
      (hglobal : scan.gapPairs < maxGlobalExpiredGapPairs) :
      GapStep c scan (scan.nextGaps.insert (toLex (c, sender)) n) (scan.gapPairs + 1)

theorem GapStep.get? {c : CodeId} {scan : GapScan} {gaps : OrdMap (CodeId ×ₗ CodeId) Nat}
    {pairs : Nat} (h : GapStep c scan gaps pairs) {pair : CodeId ×ₗ CodeId} {n : Nat}
    (hp : gaps.get? pair = some n) :
    (ofLex pair).1 = c ∨ scan.nextGaps.get? pair = some n := by
  cases h with
  | same => exact .inr hp
  | more sender k m hold | new sender k hnew hroom hglobal =>
    rw [get?_insert] at hp
    split_ifs at hp with hpair
    · exact .inl (by rw [← hpair]; rfl)
    · exact .inr hp

theorem scanQueue_cons (c : CodeId) (now : Nat) (scan : GapScan) (d : PendingDelivery)
    (queue : List PendingDelivery) :
    (∃ reason, scanQueue c now scan (d :: queue) = .error (reason, scan.gapPairs)) ∨
    scanQueue c now scan (d :: queue) =
      scanQueue c now { scan with nextQueue := scan.nextQueue ++ [d] } queue ∨
    d.payload.isApplication = true ∧ ∃ gaps pairs, GapStep c scan gaps pairs ∧
      scanQueue c now scan (d :: queue) =
        scanQueue c now { scan with nextGaps := gaps, removed := true, gapPairs := pairs } queue := by
  rw [scanQueue]
  cases hpayload : d.payload with
  | membership => exact .inr (.inl rfl)
  | application sender username platform ciphertext data =>
    simp only
    by_cases hexp : d.expiresAtMs ≤ now
    · simp only [hexp, if_true]
      cases hnew : scan.gap c sender with
      | none =>
        simp only [isNone_none, if_true, Bool.true_and, Bool.or_eq_true,
          decide_eq_true_eq]
        split_ifs with hfull hgap
        · exact .inl ⟨_, rfl⟩
        · exact .inl ⟨_, rfl⟩
        · rw [not_or, Nat.not_le, Nat.not_le] at hfull
          cases hpairs : checkedAdd scan.gapPairs 1 with
          | none => exact .inl ⟨_, rfl⟩
          | some pairs =>
            obtain ⟨-, rfl⟩ := checkedAdd_eq_some.mp hpairs
            exact .inr (.inr ⟨rfl, _, _, .new sender _ hnew hfull.1 hfull.2, rfl⟩)
      | some m =>
        simp only [isNone_some, Bool.false_and, Bool.false_eq_true, if_false]
        split_ifs with hgap
        · exact .inl ⟨_, rfl⟩
        · exact .inr (.inr ⟨rfl, _, _, .more sender _ m hnew, rfl⟩)
    · simp only [hexp, if_false]
      split_ifs with hback
      · exact .inr (.inr ⟨rfl, _, _, .same, rfl⟩)
      · exact .inr (.inl rfl)

theorem scanQueue_ok {c : CodeId} {scan scan' : GapScan} {queue : List PendingDelivery}
    (h : scanQueue c now scan queue = .ok scan') :
    (∃ thinned, scan'.nextQueue = scan.nextQueue ++ thinned ∧
      Dropping (fun d => d.payload.isApplication = true) queue thinned) ∧
    ∀ pair n, scan'.nextGaps.get? pair = some n →
      (ofLex pair).1 = c ∨ scan.nextGaps.get? pair = some n := by
  induction queue generalizing scan with
  | nil =>
    cases h
    exact ⟨⟨[], (append_nil _).symm, .nil⟩, fun _ _ hp => .inr hp⟩
  | cons d queue ih =>
    rcases scanQueue_cons c now scan d queue with
      ⟨reason, heq⟩ | heq | ⟨happ, gaps, pairs, hstep, heq⟩ <;> rw [heq] at h
    · cases h
    · obtain ⟨⟨thinned, hq, hd⟩, hg⟩ := ih h
      refine ⟨⟨d :: thinned, ?_, .keep d hd⟩, hg⟩
      rw [hq, append_assoc]
      rfl
    · obtain ⟨⟨thinned, hq, hd⟩, hg⟩ := ih h
      refine ⟨⟨thinned, hq, .drop happ hd⟩, fun pair n hp => ?_⟩
      rcases hg pair n hp with hc | hp
      · exact .inl hc
      · exact hstep.get? hp

theorem pruneQueue_trim (now : Nat) (c : CodeId) (room : RelayRoom) (pairs : Nat) :
    TrimStar room (pruneQueue now c room pairs).1 := by
  unfold pruneQueue
  cases hq : room.deliveries.get? c with
  | none => exact .refl
  | some queue =>
    simp only
    cases hscan : scanQueue c now ⟨[], room.expiredSenderGaps, false, pairs⟩ queue with
    | error e => exact .refl
    | ok scan =>
      obtain ⟨⟨thinned, hnext, hdrop⟩, hgaps⟩ := scanQueue_ok hscan
      simp only
      split_ifs
      · rw [nil_append] at hnext
        have hstep := Trim.expire c queue thinned scan.nextGaps hq hdrop hgaps
        have hmodify : (room.deliveries.insert c thinned).modify c
            (renumbered (room.memberActive c) (room.revisionOf c)) =
            room.deliveries.insert c
              (renumbered (room.memberActive c) (room.revisionOf c) thinned) := by
          simp [OrdMap.modify]
        rw [hnext]
        split
        · rename_i hc
          have herr := compactDeliveryRevisions_error hc
          refine .single ?_
          rw [← hmodify] at hstep
          exact (congrArg (fun d => Trim room { room with
            deliveries := d, expiredSenderGaps := scan.nextGaps }) herr).mp hstep
        · rename_i hc
          rw [compactDeliveryRevisions_ok hc]
          refine .single ?_
          rw [← hmodify] at hstep
          exact hstep
      · exact .refl

theorem pruneQueues_trim (now : Nat) (cs : List CodeId) (room : RelayRoom) (pairs : Nat) :
    TrimStar room (pruneQueues now cs room pairs).1 := by
  induction cs generalizing room pairs with
  | nil => exact .refl
  | cons c cs ih =>
    have hone := pruneQueue_trim now c room pairs
    unfold pruneQueues
    split
    · rename_i heq
      rw [heq] at hone
      exact hone
    · rename_i heq
      rw [heq] at hone
      exact hone.trans (ih _ _)

theorem pruneRequests_tidy (room : RelayRoom) (now : Nat) :
    TidyStar room (room.pruneRequests now) := by
  have hreq : Tidy room { room with
      joins := room.joins.filter fun _ join => now < join.request.expiresAtMs
      leaves := room.leaves.filter fun _ leave => now < leave.expiresAtMs } := by
    refine .requests _ _ (fun id j hj => ?_) (fun id l hl => ?_)
    · rw [get?_filter] at hj
      exact (filter_eq_some_iff.mp hj).1
    · rw [get?_filter] at hl
      exact (filter_eq_some_iff.mp hl).1
  unfold pruneRequests
  cases ht : room.pendingTransition.filter (fun t => decide (now < t.expiresAtMs)) with
  | none => exact (Relation.ReflTransGen.single hreq).tail .unstage
  | some t =>
    rw [← (filter_eq_some_iff.mp ht).1]
    exact .single hreq

theorem pruneReplayIds_trim (room : RelayRoom) (now ttl : Nat) :
    Trim room (room.pruneReplayIds now ttl) := by
  have hdrop := @dropWhile_eq_drop_findIdx_not _ room.replayIds fun e : ReplayKey × Nat =>
    decide (ttl ≤ now - e.2)
  unfold pruneReplayIds
  rw [hdrop]
  exact .evict _

theorem pruneDeliveries_trim (σ : HashOrder) (room : RelayRoom) (now pairs : Nat) :
    TrimStar room (room.pruneDeliveries σ now pairs).1 := by
  have h := pruneQueues_trim now (σ.codes room.roomId room.deliveries.keys) room pairs
  unfold pruneDeliveries pruneExpiredApplicationDeliveries
  split
  · rename_i heq
    rw [heq] at h
    exact h
  · rename_i heq
    rw [heq] at h
    exact h.tail (.recount _ _ _)

theorem recountSnapshots_trim (room : RelayRoom) : Trim room room.recountSnapshots :=
  .recount _ _ _

def swept (σ : HashOrder) (now ttl : Nat) (room : RelayRoom) : RelayRoom :=
  (((((room.pruneRequests now).expireApplications σ now).dropEmptyQueues.recountPending
    ).recountSnapshots).pruneReplayIds now ttl).recountSnapshots

theorem prune_eq (σ : HashOrder) (now ttl : Nat) (room : RelayRoom) (pairs : Nat) :
    room.prune σ now ttl pairs =
      (((room.swept σ now ttl).pruneDeliveries σ now pairs).1.dropEmptyQueues.recountDeliveries,
        ((room.swept σ now ttl).pruneDeliveries σ now pairs).2) := rfl

theorem swept_trim (σ : HashOrder) (now ttl : Nat) (room : RelayRoom) :
    TrimStar ((room.pruneRequests now).expireApplications σ now) (room.swept σ now ttl) :=
  .head .dropEmpty (.head (.recount _ _ _) (.head (recountSnapshots_trim _)
    (.head (pruneReplayIds_trim _ now ttl) (.single (recountSnapshots_trim _)))))

theorem prune_trim (σ : HashOrder) (now ttl : Nat) (room : RelayRoom) (pairs : Nat) :
    TrimStar ((room.pruneRequests now).expireApplications σ now)
      (room.prune σ now ttl pairs).1 := by
  rw [prune_eq]
  exact (((swept_trim σ now ttl room).trans (pruneDeliveries_trim σ _ now pairs)).tail
    .dropEmpty).tail (.recount _ _ _)

theorem prune_tidy (σ : HashOrder) (now ttl : Nat) (room : RelayRoom) (pairs : Nat) :
    TidyStar room (room.prune σ now ttl pairs).1 :=
  ((pruneRequests_tidy room now).trans (foldl_expireApplication_tidy σ _ _)).trans
    (prune_trim σ now ttl room pairs).tidy

def Evicted (room room' : RelayRoom) : Prop :=
  ∃ n, room' = { room with replayIds := room.replayIds.drop n }

theorem Evicted.refl (room : RelayRoom) : Evicted room room := ⟨0, rfl⟩

theorem Evicted.trans {a b c : RelayRoom} (hab : Evicted a b) (hbc : Evicted b c) :
    Evicted a c := by
  obtain ⟨n, rfl⟩ := hab
  obtain ⟨m, rfl⟩ := hbc
  exact ⟨n + m, by simp only [drop_drop]⟩

theorem Evicted.trim (h : Evicted room room') : Trim room room' := by
  obtain ⟨n, rfl⟩ := h
  exact .evict n

def PrunedTo (σ : HashOrder) (now ttl : Nat) (room room' : RelayRoom) : Prop :=
  ∃ pairs, Evicted (room.prune σ now ttl pairs).1 room'

variable {ttl : Nat}

theorem PrunedTo.tidy (h : PrunedTo σ now ttl room room') : TidyStar room room' := by
  obtain ⟨pairs, h⟩ := h
  exact (prune_tidy σ now ttl room pairs).tail (.trim h.trim)

theorem PrunedTo.trim (h : PrunedTo σ now ttl room room') :
    TrimStar ((room.pruneRequests now).expireApplications σ now) room' := by
  obtain ⟨pairs, h⟩ := h
  exact (prune_trim σ now ttl room pairs).tail h.trim

structure SameRequests (room room' : RelayRoom) : Prop where
  roomId : room'.roomId = room.roomId
  joins : room'.joins = room.joins
  leaves : room'.leaves = room.leaves
  transition : room'.pendingTransition = room.pendingTransition

theorem SameRequests.trans {a b c : RelayRoom} (hab : SameRequests a b) (hbc : SameRequests b c) :
    SameRequests a c :=
  ⟨hbc.roomId.trans hab.roomId, hbc.joins.trans hab.joins, hbc.leaves.trans hab.leaves,
    hbc.transition.trans hab.transition⟩

theorem TrimStar.sameRequests (h : TrimStar room room') : SameRequests room room' := by
  induction h with
  | refl => exact ⟨rfl, rfl, rfl, rfl⟩
  | tail _ hstep ih =>
    refine ih.trans ?_
    cases hstep <;> exact ⟨rfl, rfl, rfl, rfl⟩

theorem foldl_expireApplication_sameRequests (σ : HashOrder) (room : RelayRoom) (ms : List Text) :
    SameRequests room (ms.foldl (expireApplication σ) room) :=
  foldl_expireApplication σ ms ⟨rfl, rfl, rfl, rfl⟩ fun _ _ _ _ _ h =>
    ⟨h.roomId, h.joins, h.leaves, h.transition⟩

theorem PrunedTo.sameRequests (h : PrunedTo σ now ttl room room') :
    SameRequests (room.pruneRequests now) room' :=
  (foldl_expireApplication_sameRequests σ _ _).trans h.trim.sameRequests

end RelayRoom

namespace RoomAuthority

open RelayRoom

theorem trimLoop_rooms (σ : HashOrder) (fuel : Nat) (s : RoomAuthority) (id : Text) :
    Option.Rel Evicted (s.rooms.get? id) ((trimLoop σ fuel s).1.rooms.get? id) := by
  have hrefl : ∀ t : RoomAuthority, Option.Rel Evicted (t.rooms.get? id) (t.rooms.get? id) := by
    intro t
    cases t.rooms.get? id with
    | none => exact .none
    | some room => exact .some (.refl room)
  induction fuel generalizing s with
  | zero => exact hrefl s
  | succ fuel ih =>
    unfold trimLoop
    split_ifs
    · split
      · exact hrefl s
      · rename_i roomId _ _
        split
        · exact ih { s with globalReplayCount := s.globalReplayCount - 1 }
        · rename_i room hroom
          split
          · exact hrefl s
          · rename_i e replayIds hids
            have hrec := ih { s with
              rooms := s.rooms.insert roomId { room with replayIds := replayIds }
              globalReplayCount := s.globalReplayCount - 1 }
            simp only [get?_insert] at hrec
            split_ifs at hrec with hid
            · subst hid
              rw [hroom]
              obtain ⟨room', hroom', hevict⟩ := rel_some_left hrec
              rw [hroom']
              refine .some (Evicted.trans ⟨1, ?_⟩ hevict)
              rw [hids]
              rfl
            · exact hrec
    · exact hrefl s

theorem trimReplayIds_rooms (σ : HashOrder) (s : RoomAuthority) (id : Text) :
    Option.Rel Evicted (s.rooms.get? id) ((s.trimReplayIds σ).1.rooms.get? id) := by
  unfold trimReplayIds
  split
  · cases s.rooms.get? id with
    | none => exact .none
    | some room => exact .some (.refl room)
  · rename_i count _
    exact trimLoop_rooms σ count { s with globalReplayCount := count } id

theorem pruneRooms_get? (σ : HashOrder) (now ttl : Nat) {ids : List Text} (hnd : ids.Nodup)
    (rooms : OrdMap Text RelayRoom) (pairs : Nat) (id : Text) :
    (id ∉ ids → (pruneRooms σ now ttl ids rooms pairs).1.get? id = rooms.get? id) ∧
    (id ∈ ids → Option.Rel (fun r r' => ∃ pairs, r' = (r.prune σ now ttl pairs).1)
      (rooms.get? id) ((pruneRooms σ now ttl ids rooms pairs).1.get? id)) := by
  induction ids generalizing rooms pairs with
  | nil => exact ⟨fun _ => rfl, fun h => absurd h (by simp)⟩
  | cons a ids ih =>
    obtain ⟨hnot, hnd'⟩ := nodup_cons.mp hnd
    unfold pruneRooms
    cases ha : rooms.get? a with
    | none =>
      have hrest := ih hnd' rooms pairs
      refine ⟨fun h => hrest.1 fun hm => h (mem_cons_of_mem _ hm), fun h => ?_⟩
      rcases mem_cons.mp h with rfl | h
      · simp only [hrest.1 hnot, ha]
        exact .none
      · exact hrest.2 h
    | some room =>
      have hrest := ih hnd' (rooms.insert a (room.prune σ now ttl pairs).1)
        (room.prune σ now ttl pairs).2
      refine ⟨fun h => ?_, fun h => ?_⟩
      · have hne : a ≠ id := fun heq => h (heq ▸ mem_cons_self ..)
        rw [← get?_insert_of_ne rooms (room.prune σ now ttl pairs).1 hne]
        exact hrest.1 fun hm => h (mem_cons_of_mem _ hm)
      · rcases mem_cons.mp h with rfl | h
        · simp only [hrest.1 hnot, get?_insert_self, ha]
          exact .some ⟨pairs, rfl⟩
        · have hne : a ≠ id := fun heq => hnot (heq ▸ h)
          have hrel := hrest.2 h
          rw [get?_insert_of_ne rooms _ hne] at hrel
          exact hrel

@[simp] theorem recountAll_rooms (s : RoomAuthority) : s.recountAll.rooms = s.rooms := by
  unfold recountAll
  split <;> rfl

theorem trimOrExhaust_rooms (σ : HashOrder) (s : RoomAuthority) :
    (s.trimOrExhaust σ).rooms = (s.trimReplayIds σ).1.rooms := by
  unfold trimOrExhaust
  split <;> rename_i heq <;> rw [heq]

theorem pruneAllRooms_rooms (σ : HashOrder) (now : Nat) (s : RoomAuthority) (id : Text) :
    Option.Rel (fun r r' => ∃ pairs, r' = (r.prune σ now s.replayTtlMs pairs).1) (s.rooms.get? id)
      ((s.pruneAllRooms σ now).rooms.get? id) := by
  have hperm := σ.rooms_perm s.rooms.keys
  have hnd : (σ.rooms s.rooms.keys).Nodup := hperm.nodup_iff.mpr s.rooms.keys_nodup
  have hprune := pruneRooms_get? σ now s.replayTtlMs hnd s.rooms (s.gapPairTotal.getD wordMax) id
  by_cases hid : id ∈ σ.rooms s.rooms.keys
  · exact hprune.2 hid
  · have hnone : s.rooms.get? id = none := by
      cases hroom : s.rooms.get? id with
      | none => rfl
      | some room => exact absurd (hperm.mem_iff.mpr (mem_keys.mpr ⟨room, hroom⟩)) hid
    have hsame : (s.pruneAllRooms σ now).rooms.get? id = none := (hprune.1 hid).trans hnone
    rw [hnone, hsame]
    exact .none

variable {s : RoomAuthority} {room' : RelayRoom}

theorem pruneAllRooms_some {σ : HashOrder} {now : Nat} {id : Text}
    (h : (s.pruneAllRooms σ now).rooms.get? id = some room') :
    ∃ room, s.rooms.get? id = some room ∧ PrunedTo σ now s.replayTtlMs room room' := by
  have hrel := pruneAllRooms_rooms σ now s id
  rw [h] at hrel
  obtain ⟨room, hroom, pairs, rfl⟩ := rel_some_right hrel
  exact ⟨room, hroom, pairs, .refl _⟩

theorem pruneExpired_rooms (σ : HashOrder) (now : Nat) (s : RoomAuthority) (id : Text) :
    Option.Rel (PrunedTo σ now s.replayTtlMs) (s.rooms.get? id)
      ((s.pruneExpired σ now).rooms.get? id) := by
  have hprune := pruneAllRooms_rooms σ now s id
  have htrim := trimReplayIds_rooms σ (s.pruneAllRooms σ now).recountAll id
  rw [recountAll_rooms] at htrim
  unfold pruneExpired
  rw [trimOrExhaust_rooms]
  cases hroom : s.rooms.get? id with
  | none =>
    rw [hroom] at hprune
    rw [rel_none_left hprune] at htrim
    rw [rel_none_left htrim]
    exact .none
  | some room =>
    rw [hroom] at hprune
    obtain ⟨mid, hmid, pairs, rfl⟩ := rel_some_left hprune
    rw [hmid] at htrim
    obtain ⟨room', hroom', hevict⟩ := rel_some_left htrim
    rw [hroom']
    exact .some ⟨pairs, hevict⟩

theorem pruneExpired_some {σ : HashOrder} {now : Nat} {id : Text}
    (h : (s.pruneExpired σ now).rooms.get? id = some room') :
    ∃ room, s.rooms.get? id = some room ∧ PrunedTo σ now s.replayTtlMs room room' :=
  rel_some_right (h ▸ pruneExpired_rooms σ now s id)

end RoomAuthority
end Abyssal.Rooms
