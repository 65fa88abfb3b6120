import Abyssal.Rooms.Membership
import Mathlib.Data.List.Dedup

/-! Rosters as maps: what `roster_map` accepts, what `resolve_next_roster` makes of a
staged roster, and what it means that exactly one username changed. -/

namespace Abyssal.Rooms

open OrdMap List

variable {next : OrdMap Text Member} {k value : Text} {room : RelayRoom} {t : MembershipTransition}

theorem canonicalUsername_eq_ok :
    canonicalUsername value = .ok k ↔
      validateUsername value = .ok () ∧ k = toAsciiLowercase value := by
  unfold canonicalUsername
  rw [bind_eq_ok]
  constructor
  · rintro ⟨u, hu, h⟩
    cases h
    exact ⟨hu, rfl⟩
  · rintro ⟨hv, rfl⟩
    exact ⟨(), hv, rfl⟩

variable {u : Unit}

theorem validateUsername_length (h : validateUsername value = .ok u) :
    value.length ≤ maxUsernameBytes := by
  have hnot := rejectIf_eq_ok.mp h
  push Not at hnot
  exact hnot.2.1

theorem validateStableIdentity_length {value : Bytes} (h : validateStableIdentity value = .ok u) :
    value.length = stableIdentityBytes := by
  have hnot := rejectIf_eq_ok.mp h
  push Not at hnot
  exact hnot.1

theorem lower_byte (b : UInt8) : asciiLowerByte (asciiLowerByte b) = asciiLowerByte b ∧
    isIdByte (asciiLowerByte b) = isIdByte b := by
  have hall : ∀ n < 256, asciiLowerByte (asciiLowerByte (.ofNat n)) = asciiLowerByte (.ofNat n) ∧
      isIdByte (asciiLowerByte (.ofNat n)) = isIdByte (.ofNat n) := by decide +kernel
  have hb := hall b.toNat b.toNat_lt
  rwa [UInt8.ofNat_toNat] at hb

theorem toAsciiLowercase_idem (value : Text) :
    toAsciiLowercase (toAsciiLowercase value) = toAsciiLowercase value := by
  rw [toAsciiLowercase, toAsciiLowercase, map_map]
  exact map_congr_left fun b _ => (lower_byte b).1

theorem all_isIdByte_lower (value : Text) :
    (toAsciiLowercase value).all isIdByte = value.all isIdByte := by
  rw [toAsciiLowercase, all_map]
  exact congrArg value.all (funext fun b => (lower_byte b).2)

theorem canonicalUsername_idem (h : canonicalUsername value = .ok k) :
    canonicalUsername k = .ok k := by
  obtain ⟨hvalid, rfl⟩ := canonicalUsername_eq_ok.mp h
  refine canonicalUsername_eq_ok.mpr ⟨?_, (toAsciiLowercase_idem value).symm⟩
  rw [validateUsername, all_isIdByte_lower, toAsciiLowercase, length_map]
  simp only [map_eq_nil_iff]
  exact hvalid

structure RosterEntry (k : Text) (m : Member) : Prop where
  name : canonicalUsername m.username = .ok k
  code : m.codeId = 0
  inactive : m.active = false
  identity : m.stableIdentity.length = stableIdentityBytes

theorem rosterMapStep_ok {acc acc' : OrdMap Text Member × List Bytes} {m : RosterMember}
    (h : rosterMapStep acc m = .ok acc') :
    ∃ k, m.stableIdentity ∉ acc.2 ∧ acc.1.get? k = none ∧
      validateUsername m.username = .ok () ∧
      RosterEntry k ⟨m.username, 0, m.stableIdentity, false⟩ ∧
      acc' = (acc.1.insert k ⟨m.username, 0, m.stableIdentity, false⟩, m.stableIdentity :: acc.2) := by
  obtain ⟨u, hu, h⟩ := bind_eq_ok.mp h
  obtain ⟨v, hv, h⟩ := bind_eq_ok.mp h
  obtain ⟨k, hk, h⟩ := bind_eq_ok.mp h
  obtain ⟨w, hw, h⟩ := bind_eq_ok.mp h
  cases h
  have hfresh := rejectIf_eq_ok.mp hw
  rw [not_or, Bool.not_eq_true, contains_eq_false] at hfresh
  exact ⟨k, hfresh.1, hfresh.2, hu, ⟨hk, rfl, rfl, validateStableIdentity_length hv⟩, rfl⟩

structure RosterMapInv (acc : OrdMap Text Member × List Bytes) : Prop where
  entry : ∀ k m, acc.1.get? k = some m → RosterEntry k m
  seen : ∀ k m, acc.1.get? k = some m → m.stableIdentity ∈ acc.2
  apart : ∀ k m k' m', acc.1.get? k = some m → acc.1.get? k' = some m' →
    m.stableIdentity = m'.stableIdentity → k = k'

theorem RosterMapInv.step {acc acc' : OrdMap Text Member × List Bytes} {m : RosterMember}
    (hacc : RosterMapInv acc) (h : rosterMapStep acc m = .ok acc') : RosterMapInv acc' := by
  obtain ⟨k, hfresh, hnone, -, hentry, rfl⟩ := rosterMapStep_ok h
  have hother : ∀ k' m', acc.1.get? k' = some m' → m'.stableIdentity ≠ m.stableIdentity :=
    fun k' m' hm' heq => hfresh (heq ▸ hacc.seen k' m' hm')
  constructor
  · intro k' m' hm'
    rcases get?_insert_cases hm' with ⟨rfl, rfl⟩ | ⟨-, hm'⟩
    · exact hentry
    · exact hacc.entry k' m' hm'
  · intro k' m' hm'
    rcases get?_insert_cases hm' with ⟨rfl, rfl⟩ | ⟨-, hm'⟩
    · exact mem_cons_self ..
    · exact mem_cons_of_mem _ (hacc.seen k' m' hm')
  · intro k₁ m₁ k₂ m₂ h₁ h₂ heq
    rw [get?_insert] at h₁ h₂
    split_ifs at h₁ h₂ with hk₁ hk₂ hk₂
    · exact hk₁.symm.trans hk₂
    · cases h₁
      exact absurd heq.symm (hother k₂ m₂ h₂)
    · cases h₂
      exact absurd heq (hother k₁ m₁ h₁)
    · exact hacc.apart k₁ m₁ k₂ m₂ h₁ h₂ heq

structure RosterMap (roster : List RosterMember) (requested : OrdMap Text Member) : Prop where
  nonempty : roster ≠ []
  length : roster.length ≤ maxMembers
  usernames : ∀ m ∈ roster, m.username.length ≤ maxUsernameBytes
  identities : ∀ m ∈ roster, m.stableIdentity.length = stableIdentityBytes
  entry : ∀ k m, requested.get? k = some m → RosterEntry k m
  apart : ∀ k m k' m', requested.get? k = some m → requested.get? k' = some m' →
    m.stableIdentity = m'.stableIdentity → k = k'

variable {requested : OrdMap Text Member}

theorem rosterMap_ok {roster : List RosterMember} (h : rosterMap roster = .ok requested) :
    RosterMap roster requested := by
  obtain ⟨u, hu, h⟩ := bind_eq_ok.mp h
  obtain ⟨acc, hacc, h⟩ := bind_eq_ok.mp h
  cases h
  have hbound := rejectIf_eq_ok.mp hu
  rw [not_or, Nat.not_lt] at hbound
  have hempty : RosterMapInv (.empty, []) :=
    ⟨fun _ _ h => (by cases h), fun _ _ h => (by cases h), fun _ _ _ _ h => (by cases h)⟩
  have hinv := foldChecked_induction (P := RosterMapInv)
    (fun _ _ _ _ hb hstep => hb.step hstep) hempty hacc
  have hall : ∀ m ∈ roster, m.username.length ≤ maxUsernameBytes ∧
      m.stableIdentity.length = stableIdentityBytes := by
    intro m hm
    obtain ⟨c, c', hstep⟩ := foldChecked_forall hacc hm
    obtain ⟨k, -, -, hname, hentry, -⟩ := rosterMapStep_ok hstep
    exact ⟨validateUsername_length hname, hentry.identity⟩
  exact ⟨hbound.1, hbound.2, fun m hm => (hall m hm).1, fun m hm => (hall m hm).2,
    hinv.entry, hinv.apart⟩

def Names (roster : List RosterMember) (members : OrdMap Text Member) : Prop :=
  -- The roster names exactly the given members, each with its stable identity.
  ∃ requested, rosterMap roster = .ok requested ∧
    ∀ k, (requested.get? k).map Member.stableIdentity = (members.get? k).map Member.stableIdentity

theorem names_single {name : Text} {identity : Bytes} (hname : canonicalUsername name = .ok name)
    (hidentity : validateStableIdentity identity = .ok ()) {m : Member}
    (hm : m.stableIdentity = identity) :
    Names [⟨name, identity⟩] (OrdMap.empty.insert name m) := by
  have hmap : rosterMap [⟨name, identity⟩] =
      .ok (OrdMap.empty.insert name ⟨name, 0, identity, false⟩) := by
    have hvalid := (canonicalUsername_eq_ok.mp hname).1
    simp [rosterMap, foldChecked, rosterMapStep, hvalid, hidentity, hname, rejectIf, maxMembers,
      OrdMap.contains, Bind.bind, Except.bind]
  refine ⟨_, hmap, fun k => ?_⟩
  rw [get?_insert, get?_insert]
  split_ifs
  · rw [Option.map_some, Option.map_some, hm]
  · rfl

/-- The member that a requested roster entry stands for. -/
inductive ResolvesTo (room : RelayRoom) (t : MembershipTransition) (k : Text) (r : Member) :
    Member → Prop
  | kept (current : Member) (hcurrent : room.members.get? k = some current)
      (hidentity : current.stableIdentity = r.stableIdentity) : ResolvesTo room t k r current
  | joined (requestId : Text) (join : PendingJoin) (hnew : room.members.get? k = none)
      (hid : t.requestId = some requestId) (hjoin : room.joins.get? requestId = some join)
      (hname : canonicalUsername join.request.username = .ok k)
      (hidentity : join.request.stableIdentity = r.stableIdentity) :
      ResolvesTo room t k r
        ⟨join.request.username, join.request.codeId, r.stableIdentity, false⟩

variable {next' : OrdMap Text Member}

theorem resolveNextStep_ok {e : Text × Member} (h : resolveNextStep room t next e = .ok next') :
    ∃ m, ResolvesTo room t e.1 e.2 m ∧ next' = next.insert e.1 m := by
  unfold resolveNextStep at h
  cases hm : room.members.get? e.1 with
  | some current =>
    rw [hm] at h
    obtain ⟨u, hu, h⟩ := bind_eq_ok.mp h
    cases h
    exact ⟨current, .kept current hm (not_not.mp (rejectIf_eq_ok.mp hu)), rfl⟩
  | none =>
    rw [hm] at h
    obtain ⟨join, hjoin, h⟩ := okOr_bind.mp h
    obtain ⟨canonical, hname, h⟩ := bind_eq_ok.mp h
    obtain ⟨u, hu, h⟩ := bind_eq_ok.mp h
    cases h
    obtain ⟨requestId, hid, hget⟩ := Option.bind_eq_some_iff.mp hjoin
    have hbound := rejectIf_eq_ok.mp hu
    push Not at hbound
    obtain ⟨rfl, hidentity⟩ := hbound
    exact ⟨_, .joined requestId join hm hid hget hname hidentity, rfl⟩

theorem foldChecked_resolveNextStep {es : List (Text × Member)} (hnd : (es.map Prod.fst).Nodup)
    (h : foldChecked (resolveNextStep room t) next es = .ok next') :
    (∀ k, k ∉ es.map Prod.fst → next'.get? k = next.get? k) ∧
    ∀ k r, (k, r) ∈ es → ∃ m, ResolvesTo room t k r m ∧ next'.get? k = some m := by
  induction es generalizing next with
  | nil =>
    cases h
    exact ⟨fun _ _ => rfl, fun _ _ h => by cases h⟩
  | cons e es ih =>
    obtain ⟨mid, hmid, h⟩ := bind_eq_ok.mp h
    obtain ⟨m, hres, rfl⟩ := resolveNextStep_ok hmid
    rw [map_cons] at hnd
    obtain ⟨hnot, hnd⟩ := nodup_cons.mp hnd
    obtain ⟨hrest, hin⟩ := ih hnd h
    refine ⟨fun k hk => ?_, fun k r hkr => ?_⟩
    · rw [map_cons, mem_cons, not_or] at hk
      rw [hrest k hk.2, get?_insert_of_ne _ _ (Ne.symm hk.1)]
    · rcases mem_cons.mp hkr with rfl | hkr
      · exact ⟨m, hres, by rw [hrest k hnot, get?_insert_self]⟩
      · exact hin k r hkr

theorem resolveNextRoster_ok (h : resolveNextRoster room t = .ok next) :
    ∃ requested, rosterMap t.roster = .ok requested ∧
      (∀ k, requested.get? k = none → next.get? k = none) ∧
      ∀ k r, requested.get? k = some r → ∃ m, ResolvesTo room t k r m ∧ next.get? k = some m := by
  obtain ⟨requested, hreq, h⟩ := bind_eq_ok.mp h
  obtain ⟨hout, hin⟩ := foldChecked_resolveNextStep requested.keys_nodup h
  refine ⟨requested, hreq, fun k hk => ?_, fun k r hk => hin k r (get?_eq_some.mp hk)⟩
  have hnot : k ∉ requested.entries.map Prod.fst := by
    intro hm
    obtain ⟨v, hv⟩ := mem_keys.mp hm
    rw [hk] at hv
    cases hv
  rw [hout k hnot, get?_empty]

variable {current : OrdMap Text Member}

theorem mem_changedUsernames :
    k ∈ changedUsernames current next ↔ identityOf current k ≠ identityOf next k := by
  rw [changedUsernames, mem_dedup, mem_filter, mem_append, decide_eq_true_eq,
    and_iff_right_iff_imp]
  intro hne
  by_contra hnot
  rw [not_or, OrdMap.mem_keys, OrdMap.mem_keys] at hnot
  have hnone : ∀ m : OrdMap Text Member, (¬ ∃ v, m.get? k = some v) → identityOf m k = none := by
    intro m hm
    rw [identityOf, Option.eq_none_iff_forall_ne_some.mpr fun v hv => hm ⟨v, hv⟩]
    rfl
  rw [hnone current hnot.1, hnone next hnot.2] at hne
  exact hne rfl

theorem changedUsernames_single (hlen : (changedUsernames current next).length = 1)
    (hhead : (changedUsernames current next).head? = some k) :
    identityOf current k ≠ identityOf next k ∧
      ∀ k', k' ≠ k → identityOf current k' = identityOf next k' := by
  obtain ⟨a, ha⟩ := length_eq_one_iff.mp hlen
  rw [ha, head?_cons, Option.some.injEq] at hhead
  subst hhead
  refine ⟨mem_changedUsernames.mp (ha ▸ mem_singleton_self a), fun k' hk' => ?_⟩
  by_contra hne
  exact hk' (mem_singleton.mp (ha ▸ mem_changedUsernames.mpr hne))

inductive OneChange (members requested : OrdMap Text Member) : Bool → Text → Prop
  | addition (k : Text) (r : Member) (hnew : members.get? k = none)
      (hadded : requested.get? k = some r)
      (hrest : ∀ k', k' ≠ k → (requested.get? k').map Member.stableIdentity =
        (members.get? k').map Member.stableIdentity) : OneChange members requested true k
  | removal (k : Text) (m : Member) (hmember : members.get? k = some m)
      (hremoved : requested.get? k = none)
      (hrest : ∀ k', k' ≠ k → (requested.get? k').map Member.stableIdentity =
        (members.get? k').map Member.stableIdentity) : OneChange members requested false k

theorem oneChange_of_changed (hout : ∀ k, requested.get? k = none → next.get? k = none)
    (hin : ∀ k r, requested.get? k = some r → ∃ m, ResolvesTo room t k r m ∧ next.get? k = some m)
    (hchange : identityOf room.members k ≠ identityOf next k)
    (hsame : ∀ k', k' ≠ k → identityOf room.members k' = identityOf next k') :
    OneChange room.members requested (next.contains k) k := by
  have hidentity : ∀ k r m, ResolvesTo room t k r m → m.stableIdentity = r.stableIdentity := by
    intro k r m h
    cases h with
    | kept _ _ hidentity => exact hidentity
    | joined => rfl
  have hrest : ∀ k', k' ≠ k → (requested.get? k').map Member.stableIdentity =
      (room.members.get? k').map Member.stableIdentity := by
    intro k' hk'
    have hid := congrArg (Option.map Prod.snd) (hsame k' hk')
    simp only [identityOf, Option.map_map, Function.comp_def] at hid
    rw [hid]
    cases hr : requested.get? k' with
    | none => rw [hout k' hr]
    | some r =>
      obtain ⟨m, hres, hm⟩ := hin k' r hr
      rw [hm, Option.map_some, Option.map_some, hidentity k' r m hres]
  cases hr : requested.get? k with
  | none =>
    have hnext := hout k hr
    rw [contains_eq_false.mpr hnext]
    cases hm : room.members.get? k with
    | none =>
      refine absurd ?_ hchange
      rw [identityOf, identityOf, hm, hnext]
    | some m => exact .removal k m hm hr hrest
  | some r =>
    obtain ⟨m, hres, hm⟩ := hin k r hr
    rw [contains_eq_true.mpr ⟨m, hm⟩]
    cases hres with
    | kept current hcurrent _ =>
      refine absurd ?_ hchange
      rw [identityOf, identityOf, hcurrent, hm]
    | joined _ _ hnew => exact .addition k r hnew hr hrest

end Abyssal.Rooms
