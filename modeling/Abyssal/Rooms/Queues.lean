import Abyssal.Rooms.Effect

/-! Which delivery each member receives when a membership commit is accepted or an
application is admitted. -/

namespace Abyssal.Rooms

open OrdMap List

variable {room : RelayRoom} {members : OrdMap Text Member}

def DistinctCodes (members : OrdMap Text Member) : Prop :=
  ∀ k m k' m', members.get? k = some m → members.get? k' = some m' → m.codeId = m'.codeId → k = k'

theorem DistinctCodes.member_eq (h : DistinctCodes members) {k k' : Text} {m m' : Member}
    (hm : members.get? k = some m) (hm' : members.get? k' = some m')
    (hcode : m.codeId = m'.codeId) :
    m = m' := by
  obtain rfl := h k m k' m' hm hm' hcode
  rw [hm] at hm'
  exact Option.some.inj hm'

theorem DistinctCodes.entries_nodup (h : DistinctCodes members) :
    (members.entries.map fun e => e.2.codeId).Nodup := by
  refine pairwise_map.mpr (members.sorted.imp_of_mem fun {a b} ha hb hlt heq => ?_)
  have hkey := h a.1 a.2 b.1 b.2 (get?_eq_some.mpr ha) (get?_eq_some.mpr hb) heq
  exact absurd hkey (ne_of_lt hlt)

theorem DistinctCodes.values_nodup (h : DistinctCodes members) :
    (members.values.map Member.codeId).Nodup := by
  have hn := h.entries_nodup
  rw [OrdMap.values, map_map]
  exact hn

theorem findMember_eq_some {c : CodeId} {m : Member} (h : DistinctCodes room.members) :
    room.findMember c = some m ↔ (∃ k, room.members.get? k = some m) ∧ m.codeId = c := by
  constructor
  · intro hfind
    have hcode := find?_some hfind
    rw [decide_eq_true_eq] at hcode
    exact ⟨mem_values.mp (mem_of_find?_eq_some hfind), hcode⟩
  · rintro ⟨⟨k, hk⟩, hcode⟩
    cases hfind : room.findMember c with
    | none =>
      have hnone := find?_eq_none.mp hfind m (mem_values.mpr ⟨k, hk⟩)
      exact absurd hcode (by simpa using hnone)
    | some m' =>
      have hcode' := find?_some hfind
      rw [decide_eq_true_eq] at hcode'
      obtain ⟨k', hk'⟩ := mem_values.mp (mem_of_find?_eq_some hfind)
      rw [h.member_eq hk hk' (hcode.trans hcode'.symm)]

theorem memberActive_eq (h : DistinctCodes room.members) {k : Text} {m : Member}
    (hm : room.members.get? k = some m) : room.memberActive m.codeId = m.active := by
  have hfind : room.findMember m.codeId = some m := (findMember_eq_some h).mpr ⟨⟨k, hm⟩, rfl⟩
  rw [RelayRoom.memberActive, hfind]

def forRecipient (c : CodeId) (ds : List PendingDelivery) : List PendingDelivery :=
  ds.filter fun d => d.recipientCodeId = c

theorem foldl_pushDelivery_get? (ds : List PendingDelivery)
    (queues : OrdMap CodeId (List PendingDelivery)) (c : CodeId) :
    (ds.foldl pushDelivery queues).get? c =
      if forRecipient c ds = [] then queues.get? c
      else some ((queues.get? c).getD [] ++ forRecipient c ds) := by
  induction ds generalizing queues with
  | nil => rfl
  | cons d ds ih =>
    rw [foldl_cons, ih, pushDelivery, get?_insert]
    by_cases hd : d.recipientCodeId = c
    · have hcons : forRecipient c (d :: ds) = d :: forRecipient c ds := by simp [forRecipient, hd]
      rw [hcons, if_pos hd, if_neg (cons_ne_nil _ _), hd]
      split_ifs with hrest
      · rw [hrest]
      · rw [Option.getD_some, append_assoc]
        rfl
    · have hcons : forRecipient c (d :: ds) = forRecipient c ds := by simp [forRecipient, hd]
      rw [hcons, if_neg hd]

theorem foldl_pushDelivery_getD (ds : List PendingDelivery)
    (queues : OrdMap CodeId (List PendingDelivery)) (c : CodeId) :
    ((ds.foldl pushDelivery queues).get? c).getD [] =
      (queues.get? c).getD [] ++ forRecipient c ds := by
  rw [foldl_pushDelivery_get?]
  split_ifs with h
  · rw [h, append_nil]
  · rfl

variable {ds : List PendingDelivery}

theorem forRecipient_forall₂ {α : Type} {code : α → CodeId} {R : α → PendingDelivery → Prop}
    {as : List α}
    (h : List.Forall₂ (fun a d => R a d ∧ d.recipientCodeId = code a) as ds)
    (hnd : (as.map code).Nodup) (c : CodeId) :
    (∀ a ∈ as, code a = c → ∃ d, R a d ∧ forRecipient c ds = [d]) ∧
    ((∀ a ∈ as, code a ≠ c) → forRecipient c ds = []) := by
  induction h with
  | nil => exact ⟨fun a ha => absurd ha not_mem_nil, fun _ => rfl⟩
  | @cons a d as ds hd _ ih =>
    rw [map_cons] at hnd
    obtain ⟨hnot, hnd⟩ := nodup_cons.mp hnd
    obtain ⟨hone, hnone⟩ := ih hnd
    by_cases hc : code a = c
    · have hrest : forRecipient c ds = [] := by
        refine hnone fun b hb heq => hnot ?_
        rw [hc, ← heq]
        exact mem_map_of_mem hb
      have hcons : forRecipient c (d :: ds) = [d] := by
        simp only [forRecipient, filter_cons, hd.2, hc, decide_true, if_true]
        exact congrArg (d :: ·) hrest
      refine ⟨fun b hb heq => ?_, fun hall => absurd hc (hall a (mem_cons_self ..))⟩
      rcases mem_cons.mp hb with rfl | hb
      · exact ⟨d, hd.1, hcons⟩
      · exact absurd (hc.trans heq.symm ▸ mem_map_of_mem hb) hnot
    · have hcons : forRecipient c (d :: ds) = forRecipient c ds := by
        simp only [forRecipient, filter_cons, hd.2, hc, decide_false, Bool.false_eq_true,
          if_false]
      rw [hcons]
      refine ⟨fun b hb heq => ?_, fun hall => hnone fun b hb => hall b (mem_cons_of_mem _ hb)⟩
      rcases mem_cons.mp hb with rfl | hb
      · exact absurd heq hc
      · exact hone b hb heq

theorem forRecipient_append (c : CodeId) (ds es : List PendingDelivery) :
    forRecipient c (ds ++ es) = forRecipient c ds ++ forRecipient c es := filter_append ..

def IsControl (room : RelayRoom) (t : MembershipTransition) (m : Member) (d : PendingDelivery) :
    Prop :=
  ∃ revision, nextDeliveryRevision room m.codeId = .ok revision ∧
    d = controlDelivery room t m revision

theorem membershipDeliveries_ok {t : MembershipTransition} {next : OrdMap Text Member}
    (h : membershipDeliveries room t next = .ok ds) :
    ∃ controls, ds = controls ++ ((next.entries.filter fun e =>
        ¬ room.members.contains e.1).map fun e => welcomeDelivery room t e.2) ∧
      List.Forall₂ (fun e d => IsControl room t e.2 d ∧ d.recipientCodeId = e.2.codeId)
        (room.members.entries.filter
          fun e => ¬ (e.2.codeId = room.ownerCodeId ∨ ¬ next.contains e.1)) controls := by
  obtain ⟨controls, hcontrols, h⟩ := bind_eq_ok.mp h
  cases h
  refine ⟨controls, rfl, ?_⟩
  refine (mapChecked_forall₂ hcontrols).imp fun e d hd => ?_
  obtain ⟨revision, hrev, hd⟩ := bind_eq_ok.mp hd
  cases hd
  exact ⟨⟨revision, hrev, rfl⟩, rfl⟩

def IsApplication (room : RelayRoom) (a : AdmitArgs) (username : Text) (now expiresAtMs : Nat)
    (m : Member) (d : PendingDelivery) : Prop :=
  ∃ revision, nextDeliveryRevision room m.codeId = .ok revision ∧
    d = applicationDelivery a username now expiresAtMs (m.codeId, revision)

theorem recipientsOf_ok {a : AdmitArgs} {recipients : List (CodeId × Nat)}
    (h : RoomAuthority.recipientsOf room a.senderCodeId = .ok recipients) (username : Text)
    (now expiresAtMs : Nat) :
    List.Forall₂ (fun m d => IsApplication room a username now expiresAtMs m d ∧
        d.recipientCodeId = m.codeId)
      (room.members.values.filter fun m => m.active && m.codeId ≠ a.senderCodeId)
      (recipients.map (applicationDelivery a username now expiresAtMs)) := by
  rw [forall₂_map_right_iff]
  refine (mapChecked_forall₂ h).imp fun m r hr => ?_
  obtain ⟨revision, hrev, hr⟩ := bind_eq_ok.mp hr
  cases hr
  exact ⟨⟨revision, hrev, rfl⟩, rfl⟩

theorem admitted_forRecipient {s : RoomAuthority} {now : Nat} {a : AdmitArgs} {plan : AdmitPlan}
    (h : RoomAuthority.Admitted s now room a plan) (hcodes : DistinctCodes room.members)
    (c : CodeId) :
    (∀ k m, room.members.get? k = some m → m.codeId = c → m.active = true → c ≠ a.senderCodeId →
      ∃ d, IsApplication room a plan.admission.senderUsername now plan.admission.expiresAtMs m d ∧
        forRecipient c plan.deliveries = [d]) ∧
    ((∀ k m, room.members.get? k = some m → m.codeId = c → m.active = false ∨
      c = a.senderCodeId) → forRecipient c plan.deliveries = []) := by
  obtain ⟨recipients, hrecipients, hdeliveries⟩ := h.recipients
  have hall := recipientsOf_ok hrecipients plan.admission.senderUsername now
    plan.admission.expiresAtMs
  have hnd := hcodes.values_nodup.sublist
    ((filter_sublist (p := fun m : Member => m.active && m.codeId ≠ a.senderCodeId)).map
      Member.codeId)
  obtain ⟨hone, hnone⟩ := forRecipient_forall₂ hall hnd c
  rw [← hdeliveries] at hone hnone
  refine ⟨fun k m hm hc hactive hne => ?_, fun hout => hnone fun m hm hc => ?_⟩
  · refine hone m (mem_filter.mpr ⟨mem_values.mpr ⟨k, hm⟩, ?_⟩) hc
    simp [hactive, hc, hne]
  · obtain ⟨hm, hkeep⟩ := mem_filter.mp hm
    obtain ⟨k, hk⟩ := mem_values.mp hm
    simp only [Bool.and_eq_true, decide_eq_true_eq] at hkeep
    rcases hout k m hk hc with hinactive | heq
    · rw [hinactive] at hkeep
      exact absurd hkeep.1 (by simp)
    · exact hkeep.2 (hc.trans heq)

end Abyssal.Rooms
