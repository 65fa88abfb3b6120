import Abyssal.Base.Tally
import Abyssal.Rooms.Bounds

/-! Pruning and what is past its time limit. A message that waited too long leaves its queue only
when the generation that its recipient misses can be recorded, so the limits on these records decide
whether pruning takes out everything that has expired. -/

namespace Abyssal.Rooms

open RelayRoom RoomAuthority OrdMap List

def PendingDelivery.overdueSender (now : Nat) (d : PendingDelivery) : Option CodeId :=
  match d.payload with
  | .application sender _ _ _ _ => if d.expiresAtMs ≤ now then some sender else none
  | .membership .. => none

def PendingDelivery.overdue (now : Nat) (d : PendingDelivery) : Bool :=
  (d.overdueSender now).isSome

def gapLimits : OrdMap.TallyLimits := ⟨maxExpiredGapPairsPerRoom, maxGlobalExpiredGapPairs, gapMax⟩

def missedBy (now : Nat) (c : CodeId) (queue : List PendingDelivery) : List (CodeId ×ₗ CodeId) :=
  (queue.filterMap fun d => d.overdueSender now).map fun sender => toLex (c, sender)

section

variable {c : CodeId} {now : Nat} {scan scan' : GapScan} {d : PendingDelivery}
  {queue : List PendingDelivery} {sender : CodeId}

theorem missedBy_cons_some (h : d.overdueSender now = some sender) :
    missedBy now c (d :: queue) = toLex (c, sender) :: missedBy now c queue := by
  rw [missedBy, filterMap_cons_some h, map_cons]
  rfl

theorem missedBy_cons_none (h : d.overdueSender now = none) :
    missedBy now c (d :: queue) = missedBy now c queue := by
  rw [missedBy, filterMap_cons_none h]
  rfl

def GapScan.record (scan : GapScan) (c sender : CodeId) : GapScan :=
  { scan with
    nextGaps := scan.nextGaps.tick (toLex (c, sender))
    removed := true
    gapPairs := scan.gapPairs + if scan.nextGaps.get? (toLex (c, sender)) = none then 1 else 0 }

theorem scanQueue_overdue (h : d.overdueSender now = some sender) :
    (OrdMap.FitsOne gapLimits scan.nextGaps scan.gapPairs (toLex (c, sender)) ∧
      scanQueue c now scan (d :: queue) = scanQueue c now (scan.record c sender) queue) ∨
    (¬ OrdMap.FitsOne gapLimits scan.nextGaps scan.gapPairs (toLex (c, sender)) ∧
      ∃ e, scanQueue c now scan (d :: queue) = .error e) := by
  rw [scanQueue]
  unfold PendingDelivery.overdueSender at h
  cases hpayload : d.payload with
  | membership => simp only [hpayload, reduceCtorEq] at h
  | application sender' username platform ciphertext data =>
    simp only [hpayload] at h ⊢
    split_ifs at h with hexp
    obtain rfl := Option.some.inj h
    simp only [hexp, if_true]
    cases hgap : scan.gap c sender' with
    | none =>
      have hget : scan.nextGaps.get? (toLex (c, sender')) = none := hgap
      simp only [Option.isNone_none, if_true, Bool.true_and, Bool.or_eq_true, decide_eq_true_eq,
        Option.getD_none]
      split_ifs with hfull hcap
      · refine .inr ⟨fun hfits => ?_, _, rfl⟩
        have hkeys : scan.nextGaps.size < maxExpiredGapPairsPerRoom := hfits.keys hget
        have htotal : scan.gapPairs < maxGlobalExpiredGapPairs := hfits.total hget
        omega
      · exact absurd hcap (by decide)
      · rw [not_or, Nat.not_le, Nat.not_le] at hfull
        have hword : scan.gapPairs + 1 ≤ wordMax := hfull.2.trans (by decide)
        rw [checkedAdd_of_le hword]
        refine .inl ⟨⟨fun _ => hfull.1, fun _ => hfull.2, ?_⟩, ?_⟩
        · rw [hget]
          exact by decide
        · simp only [GapScan.record, OrdMap.tick, hget, Option.getD_none, if_true]
    | some n =>
      have hget : scan.nextGaps.get? (toLex (c, sender')) = some n := hgap
      simp only [Option.isNone_some, Bool.false_and, Bool.false_eq_true, if_false, Option.getD_some]
      split_ifs with hcap
      · refine .inr ⟨fun hfits => ?_, _, rfl⟩
        have hcount := hfits.count
        rw [hget] at hcount
        exact absurd hcap (Nat.not_lt.mpr hcount)
      · refine .inl ⟨⟨fun hnone => ?_, fun hnone => ?_, ?_⟩, ?_⟩
        · exact absurd (hget.symm.trans hnone) (by simp)
        · exact absurd (hget.symm.trans hnone) (by simp)
        · rw [hget]
          exact Nat.not_lt.mp hcap
        · simp only [GapScan.record, OrdMap.tick, hget, Option.getD_some, reduceCtorEq, if_false,
            Nat.add_zero]

theorem scanQueue_spared (h : d.overdueSender now = none) :
    scanQueue c now scan (d :: queue) =
        scanQueue c now { scan with nextQueue := scan.nextQueue ++ [d] } queue ∨
      scanQueue c now scan (d :: queue) = scanQueue c now { scan with removed := true } queue := by
  rw [scanQueue]
  unfold PendingDelivery.overdueSender at h
  cases hpayload : d.payload with
  | membership => exact .inl rfl
  | application sender username platform ciphertext data =>
    simp only [hpayload] at h ⊢
    split_ifs at h with hexp
    simp only [hexp, if_false]
    split_ifs
    · exact .inr rfl
    · exact .inl rfl

theorem scanQueue_isOk_iff : (∃ scan', scanQueue c now scan queue = .ok scan') ↔
    OrdMap.Fits gapLimits scan.nextGaps scan.gapPairs (missedBy now c queue) := by
  induction queue generalizing scan with
  | nil => exact ⟨fun _ => .nil, fun _ => ⟨scan, rfl⟩⟩
  | cons d queue ih =>
    cases hd : d.overdueSender now with
    | none =>
      rw [missedBy_cons_none hd]
      rcases @scanQueue_spared c now scan d queue hd with heq | heq <;>
        rw [heq, ih]
    | some sender =>
      rw [missedBy_cons_some hd, fits_cons]
      rcases @scanQueue_overdue c now scan d queue sender hd with
        ⟨hfits, heq⟩ | ⟨hfits, e, heq⟩
      · rw [heq, ih]
        exact ⟨fun h => ⟨hfits, h⟩, fun h => h.2⟩
      · rw [heq]
        refine ⟨fun h => ?_, fun h => absurd h.1 hfits⟩
        obtain ⟨_, h⟩ := h
        cases h

structure Scanned (now : Nat) (c : CodeId) (scan : GapScan) (queue : List PendingDelivery)
    (scan' : GapScan) (kept : List PendingDelivery) : Prop where
  appended : scan'.nextQueue = scan.nextQueue ++ kept
  sublist : kept.Sublist queue
  spared : ∀ d ∈ kept, d.overdue now = false
  gaps : scan'.nextGaps = scan.nextGaps.tally (missedBy now c queue)
  pairs : scan'.gapPairs = scan.gapPairs + (scan.nextGaps.fresh (missedBy now c queue)).card
  removed : scan'.removed = (scan.removed || decide (kept.length < queue.length))
  unmissed : kept.length = queue.length → missedBy now c queue = []

theorem scanQueue_scanned (h : scanQueue c now scan queue = .ok scan') :
    ∃ kept, Scanned now c scan queue scan' kept := by
  induction queue generalizing scan with
  | nil =>
    cases h
    exact ⟨[], (append_nil _).symm, .slnil, fun d hd => absurd hd not_mem_nil, rfl, rfl,
      (Bool.or_false _).symm, fun _ => rfl⟩
  | cons d queue ih =>
    cases hd : d.overdueSender now with
    | none =>
      rcases @scanQueue_spared c now scan d queue hd with heq | heq
      · obtain ⟨kept, hkept⟩ := ih (heq ▸ h)
        refine ⟨d :: kept, ?_, hkept.sublist.cons_cons d, ?_, ?_, ?_, ?_, ?_⟩
        · rw [hkept.appended, append_assoc]
          rfl
        · intro d' hd'
          rcases mem_cons.mp hd' with rfl | hd'
          · rw [PendingDelivery.overdue, hd]
            rfl
          · exact hkept.spared d' hd'
        · rw [missedBy_cons_none hd]
          exact hkept.gaps
        · rw [missedBy_cons_none hd]
          exact hkept.pairs
        · rw [hkept.removed, length_cons, length_cons]
          simp only [Nat.add_lt_add_iff_right]
        · intro hlength
          rw [missedBy_cons_none hd]
          exact hkept.unmissed (Nat.succ.inj hlength)
      · obtain ⟨kept, hkept⟩ := ih (heq ▸ h)
        have hle := hkept.sublist.length_le
        refine ⟨kept, hkept.appended, hkept.sublist.cons d, hkept.spared, ?_, ?_, ?_, ?_⟩
        · rw [missedBy_cons_none hd]
          exact hkept.gaps
        · rw [missedBy_cons_none hd]
          exact hkept.pairs
        · rw [hkept.removed, length_cons]
          simp [Nat.lt_succ_of_le hle]
        · rw [length_cons]
          exact fun hlength => absurd hlength (by omega)
    | some sender =>
      rcases @scanQueue_overdue c now scan d queue sender hd with
        ⟨-, heq⟩ | ⟨-, e, heq⟩
      · obtain ⟨kept, hkept⟩ := ih (heq ▸ h)
        have hle := hkept.sublist.length_le
        refine ⟨kept, hkept.appended, hkept.sublist.cons d, hkept.spared, ?_, ?_, ?_, ?_⟩
        · rw [missedBy_cons_some hd]
          exact hkept.gaps
        · rw [missedBy_cons_some hd, card_fresh_cons, hkept.pairs]
          exact Nat.add_assoc ..
        · rw [hkept.removed, length_cons]
          simp [GapScan.record, Nat.lt_succ_of_le hle]
        · rw [length_cons]
          exact fun hlength => absurd hlength (by omega)
      · rw [heq] at h
        cases h

theorem exists_overdue_of_error {e : String × Nat} (h : scanQueue c now scan queue = .error e) :
    ∃ d ∈ queue, d.overdue now = true := by
  by_contra hnone
  push Not at hnone
  have hmissed : missedBy now c queue = [] := by
    rw [missedBy, map_eq_nil_iff, filterMap_eq_nil_iff]
    intro d hd
    simpa [PendingDelivery.overdue] using hnone d hd
  obtain ⟨scan', hok⟩ := scanQueue_isOk_iff.mpr (hmissed ▸ OrdMap.Fits.nil :
    OrdMap.Fits gapLimits scan.nextGaps scan.gapPairs (missedBy now c queue))
  rw [hok] at h
  cases h

end

structure Steady (room : RelayRoom) : Prop where
  wellFormed : WellFormed room
  rising : Throughout Rising room
  sized : Sized room

section

variable {room room' : RelayRoom} {queue : List PendingDelivery}

theorem Steady.tidy (h : Steady room) (ht : Tidy room room') : Steady room' :=
  ⟨h.wellFormed.tidy ht, rising_tidy h.rising h.wellFormed ht, h.sized.tidy h.wellFormed ht⟩

theorem Steady.tidyStar (h : Steady room) (ht : TidyStar room room') : Steady room' :=
  ht.invariant (fun _ _ hr => hr.tidy) h

theorem Regular.steady {s : RoomAuthority} (h : Regular s) : AllRooms Steady s :=
  fun id room hroom => ⟨h.wellFormed id room hroom, h.rising id room hroom, h.sized id room hroom⟩

variable {c : CodeId}

theorem Steady.renumberable (h : Steady room) {kept : List PendingDelivery}
    (hqueue : room.deliveries.get? c = some queue) (hless : kept.length < queue.length) :
    room.revisionOf c + 1 + kept.length ≤ wordMax := by
  obtain ⟨k, m, hm, rfl⟩ := h.wellFormed.tables.queued c queue hqueue
  have hrising := h.rising k m hm
  have hqueueOf : room.queueOf m.codeId = queue := by rw [queueOf, hqueue, Option.getD_some]
  rw [hqueueOf] at hrising
  cases hactive : m.active with
  | true =>
    have hne : revisions queue ≠ [] := by
      intro hnil
      rw [map_eq_nil_iff.mp hnil, length_nil] at hless
      exact absurd hless (Nat.not_lt_zero _)
    obtain ⟨n, hn, hle⟩ := exists_le_of_ascending hrising.ascending (hrising.above hactive) hne
    have hword := hrising.words n hn
    rw [revisions_length] at hle
    omega
  | false =>
    have hlength : queue.length ≤ room.deliveryCount :=
      le_sum_of_get? hqueue fun _ (queue : List PendingDelivery) => queue.length
    have hcount := hlength.trans h.sized.deliveryCount
    have hlimit : maxDeliveriesPerRoom + 1 ≤ wordMax := by decide
    rw [hrising.fresh hactive]
    omega

structure Cleared (now : Nat) (room : RelayRoom) (cs : List CodeId)
    (missed : List (CodeId ×ₗ CodeId)) (room' : RelayRoom) : Prop where
  gaps : room'.expiredSenderGaps = room.expiredSenderGaps.tally missed
  spared : ∀ c ∈ cs, ∀ d ∈ room'.queueOf c, d.overdue now = false
  other : ∀ c, c ∉ cs → room'.queueOf c = room.queueOf c

/-- How the expiry of some queues ends: it records every gap, or it stops in front of an expired
message. -/
def Expires (now : Nat) (room : RelayRoom) (pairs : Nat) (cs : List CodeId)
    (missed : List (CodeId ×ₗ CodeId)) (result : RelayRoom × Nat × Except String Unit) : Prop :=
  (OrdMap.Fits gapLimits room.expiredSenderGaps pairs missed ∧
    ∃ room', result = (room', pairs + (room.expiredSenderGaps.fresh missed).card, .ok ()) ∧
      Cleared now room cs missed room') ∨
  (¬ OrdMap.Fits gapLimits room.expiredSenderGaps pairs missed ∧
    ∃ room' pairs' reason, result = (room', pairs', .error reason) ∧
      ∃ c, ∃ d ∈ room'.queueOf c, d.overdue now = true)

theorem queueOf_of_get? (h : room.deliveries.get? c = some queue) :
    room.queueOf c = queue := by
  rw [queueOf, h, Option.getD_some]

theorem overdue_renumbered {now : Nat} {active : Bool} {r : Nat}
    (h : ∀ d ∈ queue, d.overdue now = false) :
    ∀ d ∈ renumbered active r queue, d.overdue now = false := by
  have hmap := map_renumbered (fun d => d.overdue now) (fun d d' hd => ?_) active r queue
  · intro d hd
    have hmem : d.overdue now ∈ queue.map fun d => d.overdue now :=
      hmap ▸ mem_map_of_mem hd
    obtain ⟨d', hd', heq⟩ := mem_map.mp hmem
    exact heq ▸ h d' hd'
  · simp only [PendingDelivery.overdue, PendingDelivery.overdueSender]
    simp only [PendingDelivery.unnumbered, PendingDelivery.mk.injEq] at hd
    rw [hd.2.2.2.2.2.2.1, hd.2.2.2.2.2.2.2.2]

theorem Steady.pruneQueue (h : Steady room) (now : Nat) (c : CodeId) (pairs : Nat) :
    Expires now room pairs [c] (missedBy now c (room.queueOf c)) (pruneQueue now c room pairs) := by
  unfold Rooms.pruneQueue
  cases hqueue : room.deliveries.get? c with
  | none =>
    have hempty : room.queueOf c = [] := by rw [queueOf, hqueue, Option.getD_none]
    rw [hempty]
    refine .inl ⟨.nil, room, rfl, rfl, fun c' hc' d hd => ?_, fun _ _ => rfl⟩
    rw [mem_singleton.mp hc', hempty] at hd
    exact absurd hd not_mem_nil
  | some queue =>
    rw [queueOf_of_get? hqueue]
    have hiff := @scanQueue_isOk_iff c now ⟨[], room.expiredSenderGaps, false, pairs⟩ queue
    simp only
    cases hscan : scanQueue c now ⟨[], room.expiredSenderGaps, false, pairs⟩ queue with
    | error e =>
      obtain ⟨d, hd, hdue⟩ := exists_overdue_of_error hscan
      refine .inr ⟨fun hfits => ?_, room, e.2, e.1, rfl, c, d, ?_, hdue⟩
      · obtain ⟨scan', hok⟩ := hiff.mpr hfits
        rw [hscan] at hok
        cases hok
      · rw [queueOf_of_get? hqueue]
        exact hd
    | ok scan =>
      obtain ⟨kept, hkept⟩ := scanQueue_scanned hscan
      have hnext : scan.nextQueue = kept := hkept.appended
      have hremoved : scan.removed = decide (kept.length < queue.length) := hkept.removed
      have hfits := hiff.mp ⟨scan, hscan⟩
      simp only
      split_ifs with hrem
      · have hless : kept.length < queue.length := by simpa [hremoved] using hrem
        obtain ⟨room', hok⟩ := @compactDeliveryRevisions_isOk { room with
            deliveries := room.deliveries.insert c kept
            expiredSenderGaps := scan.nextGaps } c (by
          show room.revisionOf c + 1 + (((room.deliveries.insert c kept).get? c).getD []).length ≤ _
          rw [get?_insert_self, Option.getD_some]
          exact h.renumberable hqueue hless)
        rw [hnext, hok]
        refine .inl ⟨hfits, room', congrArg (fun p => (room', p, Except.ok ())) hkept.pairs, ?_⟩
        rw [compactDeliveryRevisions_ok hok]
        refine ⟨hkept.gaps, fun c' hc' d hd => ?_, fun c' hc' => ?_⟩
        · rw [mem_singleton.mp hc'] at hd
          change d ∈ (((room.deliveries.insert c kept).modify c _).get? c).getD [] at hd
          rw [get?_modify, if_pos rfl, get?_insert_self] at hd
          exact overdue_renumbered hkept.spared d hd
        · have hne : c ≠ c' := fun heq => hc' (mem_singleton.mpr heq.symm)
          show (((room.deliveries.insert c kept).modify c _).get? c').getD [] = _
          rw [get?_modify, if_neg hne, get?_insert_of_ne _ _ hne]
          rfl
      · have hlength : kept.length = queue.length := by
          refine Nat.le_antisymm hkept.sublist.length_le (Nat.not_lt.mp fun hless => hrem ?_)
          rw [hremoved]
          exact decide_eq_true hless
        have hunmissed := hkept.unmissed hlength
        have hsame : kept = queue := hkept.sublist.eq_of_length hlength
        refine .inl ⟨hfits, room, congrArg (fun p => (room, p, Except.ok ())) hkept.pairs, ?_, ?_,
          fun _ _ => rfl⟩
        · rw [hunmissed]
          rfl
        · intro c' hc' d hd
          rw [mem_singleton.mp hc', queueOf_of_get? hqueue, ← hsame] at hd
          exact hkept.spared d hd

def missedSenders (now : Nat) (room : RelayRoom) (c : CodeId) : List CodeId :=
  (room.queueOf c).filterMap fun d => d.overdueSender now

variable {cs : List CodeId}

theorem Steady.pruneQueues (h : Steady room) (now : Nat) (hnd : cs.Nodup) (pairs : Nat) :
    Expires now room pairs cs (OrdMap.grouped (missedSenders now room) cs)
      (pruneQueues now cs room pairs) := by
  induction cs generalizing room pairs with
  | nil => exact .inl ⟨.nil, room, rfl, rfl, fun c hc => absurd hc not_mem_nil, fun _ _ => rfl⟩
  | cons c cs ih =>
    obtain ⟨hnot, hnd⟩ := nodup_cons.mp hnd
    have hgroups : OrdMap.grouped (missedSenders now room) (c :: cs) =
        missedBy now c (room.queueOf c) ++ OrdMap.grouped (missedSenders now room) cs :=
      flatMap_cons
    rw [Rooms.pruneQueues, hgroups]
    rcases h.pruneQueue now c pairs with
      ⟨hfits, room₁, heq, hcleared⟩ | ⟨hfits, room₁, pairs₁, reason, heq, hdue⟩
    · have hsteady : Steady room₁ := by
        have htrim := pruneQueue_trim now c room pairs
        rw [heq] at htrim
        exact h.tidyStar htrim.tidy
      have hsame : OrdMap.grouped (missedSenders now room₁) cs =
          OrdMap.grouped (missedSenders now room) cs := by
        refine flatMap_congr fun c' hc' => ?_
        have hne : c' ∉ [c] := fun hmem => hnot (mem_singleton.mp hmem ▸ hc')
        simp only [missedSenders, hcleared.other c' hne]
      have hrest := ih hsteady hnd (pairs + (room.expiredSenderGaps.fresh
        (missedBy now c (room.queueOf c))).card)
      rw [hsame, Expires, hcleared.gaps] at hrest
      rw [heq, Expires, fits_append, card_fresh_append, ← Nat.add_assoc]
      rcases hrest with ⟨hfits', room', heq', hcleared'⟩ | ⟨hfits', room', pairs', reason, heq', hdue⟩
      · refine .inl ⟨⟨hfits, hfits'⟩, room', heq', ?_, fun c' hc' d hd => ?_, fun c' hc' => ?_⟩
        · rw [hcleared'.gaps, hcleared.gaps, tally_append]
        · rcases mem_cons.mp hc' with rfl | hc'
          · rw [hcleared'.other c' hnot] at hd
            exact hcleared.spared c' (mem_singleton_self c') d hd
          · exact hcleared'.spared c' hc' d hd
        · rw [hcleared'.other c' fun hmem => hc' (mem_cons_of_mem _ hmem)]
          exact hcleared.other c' fun hmem => hc' (mem_singleton.mp hmem ▸ mem_cons_self ..)
      · exact .inr ⟨fun hboth => hfits' hboth.2, room', pairs', reason, heq', hdue⟩
    · rw [heq]
      exact .inr ⟨fun hboth => hfits (fits_append.mp hboth).1, room₁, pairs₁, reason, rfl, hdue⟩

def keptQueue (now : Nat) (room : RelayRoom) (c : CodeId) : List PendingDelivery :=
  (room.queueOf c).filter fun d => d.messageId ∉ room.expiredApplications now

def missedPairs (now : Nat) (room : RelayRoom) : List (CodeId ×ₗ CodeId) :=
  OrdMap.grouped (fun c => (keptQueue now room c).filterMap fun d => d.overdueSender now)
    room.deliveries.keys

theorem undone_unnumbered (room : RelayRoom) (m : Text) (p : PendingApplication) (c : CodeId) :
    ((room.undone m p).queueOf c).map PendingDelivery.unnumbered =
      (withoutMessage m (room.queueOf c)).map PendingDelivery.unnumbered := by
  show (((room.retracted m fun _ => true).get? c).getD []).map _ = _
  rw [retracted_get?, queueOf]
  cases room.deliveries.get? c with
  | none => rfl
  | some queue =>
    rw [Option.map_some, if_pos rfl, Option.getD_some, Option.getD_some]
    exact renumbered_unnumbered ..

theorem filter_unnumbered (p : Text → Bool) (queue : List PendingDelivery) :
    (queue.filter fun d => p d.messageId).map PendingDelivery.unnumbered =
      (queue.map PendingDelivery.unnumbered).filter fun d => p d.messageId := by
  rw [filter_map]
  rfl

theorem foldl_expireApplication_unnumbered (σ : HashOrder) {ms : List Text} (hnd : ms.Nodup)
    (room : RelayRoom) (hms : ∀ m ∈ ms, ∃ p, room.pendingApplications.get? m = some p)
    (c : CodeId) :
    ((ms.foldl (expireApplication σ) room).queueOf c).map PendingDelivery.unnumbered =
      ((room.queueOf c).filter fun d => d.messageId ∉ ms).map PendingDelivery.unnumbered := by
  induction ms generalizing room with
  | nil =>
    have hall : ((room.queueOf c).filter fun d => decide (d.messageId ∉ ([] : List Text))) =
        room.queueOf c := List.filter_eq_self.mpr fun d _ => by simp
    rw [hall]
    rfl
  | cons m ms ih =>
    obtain ⟨hnot, hnd⟩ := nodup_cons.mp hnd
    obtain ⟨p, hp⟩ := hms m (mem_cons_self ..)
    obtain ⟨bytes, hroom⟩ := expireApplication_eq σ hp
    have hqueue : ((expireApplication σ room m).queueOf c).map PendingDelivery.unnumbered =
        (withoutMessage m (room.queueOf c)).map PendingDelivery.unnumbered := by
      rw [hroom]
      exact undone_unnumbered room m p c
    have hrest : ∀ m' ∈ ms, ∃ p, (expireApplication σ room m).pendingApplications.get? m' =
        some p := by
      intro m' hm'
      have hne : m ≠ m' := fun heq => hnot (heq ▸ hm')
      obtain ⟨p', hp'⟩ := hms m' (mem_cons_of_mem _ hm')
      refine ⟨p', ?_⟩
      rw [hroom]
      exact (get?_erase_of_ne _ hne).trans hp'
    rw [foldl_cons, ih hnd _ hrest, filter_unnumbered (fun id => decide (id ∉ ms)), hqueue,
      ← filter_unnumbered (fun id => decide (id ∉ ms)), withoutMessage, filter_filter]
    refine congrArg _ (filter_congr fun d _ => ?_)
    by_cases hd : d.messageId = m <;> simp [hd]

theorem foldl_expireApplication_pending (σ : HashOrder) (ms : List Text) (room : RelayRoom)
    (m : Text) : (ms.foldl (expireApplication σ) room).pendingApplications.get? m =
      if m ∈ ms then none else room.pendingApplications.get? m := by
  induction ms generalizing room with
  | nil => rfl
  | cons m' ms ih =>
    have hone : (expireApplication σ room m').pendingApplications.get? m =
        if m' = m then none else room.pendingApplications.get? m := by
      cases hp : room.pendingApplications.get? m' with
      | none =>
        simp only [expireApplication, hp]
        split_ifs with heq
        · rw [← heq, hp]
        · rfl
      | some p =>
        obtain ⟨bytes, hroom⟩ := expireApplication_eq σ hp
        rw [hroom]
        show (room.pendingApplications.erase m').get? m = _
        by_cases heq : m' = m
        · rw [heq, get?_erase_self, if_pos rfl]
        · rw [get?_erase_of_ne _ heq, if_neg heq]
    rw [foldl_cons, ih, hone]
    by_cases hmem : m ∈ ms
    · simp [hmem]
    · by_cases heq : m' = m
      · simp [heq]
      · simp [hmem, heq, Ne.symm heq]

def Clear (now : Nat) (room : RelayRoom) : Prop :=
  ∀ c, ∀ d ∈ room.queueOf c, d.overdue now = false

theorem filterMap_overdueSender (now : Nat) (queue : List PendingDelivery) :
    (queue.filterMap fun d => d.overdueSender now) =
      (queue.map PendingDelivery.unnumbered).filterMap fun d => d.overdueSender now := by
  rw [filterMap_map]
  rfl

theorem swept_queueOf (σ : HashOrder) (now ttl : Nat) (room : RelayRoom) (c : CodeId) :
    (room.swept σ now ttl).queueOf c =
      ((room.pruneRequests now).expireApplications σ now).queueOf c := by
  rw [← dropEmptyQueues_queueOf ((room.pruneRequests now).expireApplications σ now)]
  unfold swept recountSnapshots pruneReplayIds recountPending queueOf
  rfl

theorem swept_missedSenders (σ : HashOrder) (now ttl : Nat) (room : RelayRoom) (c : CodeId) :
    missedSenders now (room.swept σ now ttl) c =
      (keptQueue now room c).filterMap fun d => d.overdueSender now := by
  have hperm := σ.ids_perm room.roomId (room.expiredApplications now)
  have hunnumbered := foldl_expireApplication_unnumbered σ
    (hperm.nodup_iff.mpr (keys_nodup _)) (room.pruneRequests now) (fun m hm => ?_) c
  · rw [missedSenders, swept_queueOf, filterMap_overdueSender,
      filterMap_overdueSender now (keptQueue now room c)]
    refine congrArg _ (hunnumbered.trans (congrArg _ (filter_congr fun d _ => ?_)))
    simp only [hperm.mem_iff]
  · obtain ⟨p, hp⟩ := mem_keys.mp (hperm.mem_iff.mp hm)
    rw [get?_filter] at hp
    exact ⟨p, (Option.filter_eq_some_iff.mp hp).1⟩

theorem times_grouped_keys (room : RelayRoom) (f : List PendingDelivery → List CodeId)
    (hf : f [] = []) (hperm : cs.Perm room.deliveries.keys) (c sender : CodeId) :
    OrdMap.times (toLex (c, sender)) (OrdMap.grouped (fun c => f (room.queueOf c)) cs) =
      OrdMap.times sender (f (room.queueOf c)) := by
  rw [times_grouped _ (hperm.nodup_iff.mpr (keys_nodup _))]
  split_ifs with hc
  · rfl
  · have hempty : room.queueOf c = [] := by
      rw [queueOf]
      cases hqueue : room.deliveries.get? c with
      | none => rfl
      | some queue =>
        exact absurd (hperm.mem_iff.mpr (mem_keys.mpr ⟨queue, hqueue⟩)) hc
    rw [hempty, hf]
    rfl

theorem times_missedPairs (now : Nat) (room : RelayRoom) (c sender : CodeId) :
    OrdMap.times (toLex (c, sender)) (missedPairs now room) =
      OrdMap.times sender ((keptQueue now room c).filterMap fun d => d.overdueSender now) :=
  times_grouped_keys room (fun queue => (queue.filter fun (d : PendingDelivery) =>
    d.messageId ∉ room.expiredApplications now).filterMap (PendingDelivery.overdueSender now)) rfl
    (.refl _) c sender

theorem swept_missedPairs (σ : HashOrder) (now ttl : Nat) (room : RelayRoom) :
    (OrdMap.grouped (missedSenders now (room.swept σ now ttl)) (σ.codes (room.swept σ now ttl).roomId
      (room.swept σ now ttl).deliveries.keys)).Perm (missedPairs now room) := by
  refine perm_of_times fun pair => ?_
  have hvisit := times_grouped_keys (room.swept σ now ttl)
    (fun queue => queue.filterMap fun d => d.overdueSender now) rfl
    (σ.codes_perm (room.swept σ now ttl).roomId (room.swept σ now ttl).deliveries.keys)
    (ofLex pair).1 (ofLex pair).2
  have hmissed := times_missedPairs now room (ofLex pair).1 (ofLex pair).2
  rw [← swept_missedSenders σ now ttl] at hmissed
  exact hvisit.trans hmissed.symm

/-- How the pruning of a room ends: with no message overdue and every gap recorded, or with a
message overdue. -/
theorem Steady.prune (h : Steady room) (σ : HashOrder) (now ttl pairs : Nat) :
    (OrdMap.Fits gapLimits room.expiredSenderGaps pairs (missedPairs now room) ∧
      Clear now (room.prune σ now ttl pairs).1 ∧
      (room.prune σ now ttl pairs).2 =
        pairs + (room.expiredSenderGaps.fresh (missedPairs now room)).card ∧
      ∀ pair, ((room.prune σ now ttl pairs).1.expiredSenderGaps.get? pair).getD 0 =
        (room.expiredSenderGaps.get? pair).getD 0 + OrdMap.times pair (missedPairs now room)) ∨
    (¬ OrdMap.Fits gapLimits room.expiredSenderGaps pairs (missedPairs now room) ∧
      ¬ Clear now (room.prune σ now ttl pairs).1) := by
  have hsteady : Steady (room.swept σ now ttl) :=
    h.tidyStar (((pruneRequests_tidy room now).trans (foldl_expireApplication_tidy σ _ _)).trans
      (swept_trim σ now ttl room).tidy)
  have hcodes := σ.codes_perm (room.swept σ now ttl).roomId (room.swept σ now ttl).deliveries.keys
  have hperm := swept_missedPairs σ now ttl room
  have hfresh := fresh_congr (m := room.expiredSenderGaps) fun pair => hperm.mem_iff (a := pair)
  have hqueues := hsteady.pruneQueues now (hcodes.nodup_iff.mpr (keys_nodup _)) pairs
  rw [Expires, swept_gaps, hfresh] at hqueues
  rw [prune_eq]
  rcases hqueues with ⟨hfits, room', heq, hcleared⟩ | ⟨hfits, room', pairs', reason, heq, c, d, hd, hdue⟩
  · have hpruned : (room.swept σ now ttl).pruneDeliveries σ now pairs =
        (room', pairs + (room.expiredSenderGaps.fresh (missedPairs now room)).card) := by
      rw [pruneDeliveries, pruneExpiredApplicationDeliveries, heq]
    rw [hpruned]
    refine .inl ⟨hfits.perm hperm, fun c d hd => ?_, rfl, fun pair => ?_⟩
    · change d ∈ room'.dropEmptyQueues.queueOf c at hd
      rw [dropEmptyQueues_queueOf] at hd
      by_cases hc : c ∈ (room.swept σ now ttl).deliveries.keys
      · exact hcleared.spared c (hcodes.mem_iff.mpr hc) d hd
      · have hnone : (room.swept σ now ttl).queueOf c = [] := by
          rw [queueOf]
          cases hqueue : (room.swept σ now ttl).deliveries.get? c with
          | none => rfl
          | some queue => exact absurd (mem_keys.mpr ⟨queue, hqueue⟩) hc
        rw [hcleared.other c (mt hcodes.mem_iff.mp hc), hnone] at hd
        exact absurd hd not_mem_nil
    · show (room'.expiredSenderGaps.get? pair).getD 0 = _
      rw [hcleared.gaps, getD_tally, swept_gaps, times_perm hperm]
  · have hpruned : (room.swept σ now ttl).pruneDeliveries σ now pairs =
        ({ room' with deliveryBytes := wordMax }, pairs') := by
      rw [pruneDeliveries, pruneExpiredApplicationDeliveries, heq]
    rw [hpruned]
    refine .inr ⟨fun hall => hfits (hall.perm hperm.symm), fun hclear => ?_⟩
    have hsame := hclear c d (by
      show d ∈ RelayRoom.queueOf (RelayRoom.dropEmptyQueues { room' with deliveryBytes := wordMax }) c
      rw [dropEmptyQueues_queueOf]
      exact hd)
    rw [hdue] at hsame
    cases hsame

end

end Abyssal.Rooms
