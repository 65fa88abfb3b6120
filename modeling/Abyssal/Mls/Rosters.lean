import Abyssal.Mls.Credentials
import Abyssal.Rooms.Roster
import Mathlib.Data.List.Sort

/-! The two checks of a group's roster. A joining client compares the leaves with the roster it expects;
a recovering client only asks for distinct names and identities. -/

namespace Abyssal.Mls

open Client (mapErr mlsProtocolVersion mlsValidateUsername canonicalFields)
open List hiding Vector

def maxMembers : Nat := 117

structure Member where
  index : Nat
  signingIdentity : SigningIdentity

structure MlsRosterMember where
  username : Text
  stableIdentity : Bytes

/-- What the entries of rosters are compared by. -/
def MlsRosterMember.entry (member : MlsRosterMember) : Text × Bytes :=
  (toAsciiLowercase member.username, member.stableIdentity)

def CredentialParts.rosterMember (parts : CredentialParts) : MlsRosterMember :=
  ⟨parts.username, parts.stableIdentity.toList⟩

structure RoomIds where
  roomId : Text
  nodeContext : Bytes
  groupId : Bytes

def CredentialParts.inRoom (parts : CredentialParts) (ids : RoomIds) : Bool :=
  parts.roomId = ids.roomId && parts.nodeContext = ids.nodeContext &&
    parts.groupId.toList = ids.groupId

def parseStableIdentity (value : Bytes) : Except String Bytes := do
  rejectIf (value.length ≠ 64 ∨ value.all (· = 0)) "Identity unavailable"
  .ok value

def checkExpected : List (Text × Bytes) → List MlsRosterMember → Except String Unit
  | _, [] => .ok ()
  | seen, member :: expected => do
    mlsValidateUsername member.username
    let _ ← parseStableIdentity member.stableIdentity
    rejectIf (member.entry ∈ seen) "Room unavailable"
    checkExpected (member.entry :: seen) expected

section

variable (verify : Bytes → Bytes → Bytes → Bool) (sha256 : Bytes → Bytes)

def memberParts (member : Member) : Except String CredentialParts :=
  mapErr "Room unavailable" (parseCredential verify member.signingIdentity)

def leavesOf (ids : RoomIds) (roster : List Member) : Except String (List CredentialParts) := do
  let leaves ← mapChecked (memberParts verify) roster
  rejectIf (leaves.any fun parts => ¬ parts.inRoom ids) "Room unavailable"
  .ok leaves

def membershipDigest (roster : List Member) : Except String Bytes := do
  let entries ← mapChecked (fun member => do
    let parts ← memberParts verify member
    .ok (member.index, parts)) roster
  let fields := (entries.insertionSort fun a b => a.1 ≤ b.1).flatMap fun (index, parts) =>
    be 4 index ++ lengthPrefixed parts.username ++ parts.stableIdentity.toList ++
      parts.mlsPublic.toList
  let bytes ← canonicalFields (ascii "ABYSSAL-MLS-V10-MEMBERS")
    [be 4 mlsProtocolVersion.toNat ++ fields]
  .ok (sha256 bytes)

def verifyGroupDirectory (ids : RoomIds) (roster : List Member) (expected : List MlsRosterMember)
    (expectedDigest : Bytes) : Except String Unit := do
  rejectIf (expected = [] ∨ maxMembers < expected.length) "Room unavailable"
  let leaves ← leavesOf verify ids roster
  checkExpected [] expected
  rejectIf (leaves.length ≠ expected.length ∨ leaves.any fun parts =>
    ¬ expected.any fun candidate => candidate.entry = parts.rosterMember.entry) "Room unavailable"
  let digest ← membershipDigest verify sha256 roster
  rejectIf (digest ≠ expectedDigest) "Room unavailable"

def validateGroupContext (ids : RoomIds) (roster : List Member) : Except String Unit := do
  rejectIf (roster.length = 0 ∨ maxMembers < roster.length) "Room unavailable"
  let leaves ← leavesOf verify ids roster
  rejectIf (¬ ((leaves.map (·.stableIdentity)).Nodup ∧ (leaves.map (·.username)).Nodup))
    "Room unavailable"

structure Group where
  roster : List Member
  distinct : ∀ leaves, mapChecked (memberParts verify) roster = .ok leaves →
    (leaves.map (·.stableIdentity)).Nodup

end

variable {verify : Bytes → Bytes → Bytes → Bool} {sha256 : Bytes → Bytes}
  {ids : RoomIds} {group : Group verify} {expected : List MlsRosterMember} {digest : Bytes}
  {roster : List Member} {leaves : List CredentialParts}

theorem lower_username {identity : SigningIdentity} {parts : CredentialParts}
    (h : parseCredential verify identity = .ok parts) :
    toAsciiLowercase parts.username = parts.username := by
  obtain ⟨name, _, hread⟩ := parseCredential_eq_ok.mp h
  obtain ⟨-, hlower⟩ := rejectIf_bind.mp hread.username
  rw [← Except.ok.inj hlower]
  exact Rooms.toAsciiLowercase_idem _

theorem leavesOf_ok (h : leavesOf verify ids roster = .ok leaves) :
    mapChecked (memberParts verify) roster = .ok leaves := by
  obtain ⟨_, hread, h⟩ := bind_eq_ok.mp h
  obtain ⟨-, h⟩ := rejectIf_bind.mp h
  rw [hread, Except.ok.inj h]

theorem leavesOf_username (h : leavesOf verify ids roster = .ok leaves) :
    leaves.map (·.rosterMember.entry.1) = leaves.map (·.username) := by
  have hread := mapChecked_forall₂ (leavesOf_ok h)
  clear h
  induction hread with
  | nil => rfl
  | cons hparts _ ih =>
    rw [map_cons, map_cons, ih]
    exact congrArg (· :: _) (lower_username (Client.mapErr_eq_ok.mp hparts))

theorem verifyGroupDirectory_ok
    (h : verifyGroupDirectory verify sha256 ids group.roster expected digest = .ok ()) :
    ∃ leaves, leavesOf verify ids group.roster = .ok leaves ∧
      (leaves.map (·.rosterMember.entry)).Perm (expected.map (·.entry)) ∧
      ((leaves.map (·.username)).Nodup ↔
        (expected.map fun member => toAsciiLowercase member.username).Nodup) ∧
      leaves.length ≠ 0 ∧ leaves.length ≤ maxMembers := by
  obtain ⟨hcount, h⟩ := rejectIf_bind.mp h
  obtain ⟨leaves, hleaves, h⟩ := bind_eq_ok.mp h
  obtain ⟨⟨⟩, hexpected, h⟩ := bind_eq_ok.mp h
  obtain ⟨hmatch, -⟩ := rejectIf_bind.mp h
  simp only [not_or, not_not, Bool.not_eq_true, any_eq_false, decide_eq_true_eq, ne_eq] at hmatch
  rw [not_or, Nat.not_lt, ← hmatch.1] at hcount
  have hidentities := (group.distinct leaves (leavesOf_ok hleaves)).map
    fun _ _ h => Vector.toList_inj.mp h
  rw [map_map] at hidentities
  have hnodup : (leaves.map (·.rosterMember.entry)).Nodup :=
    .of_map Prod.snd (by rwa [map_map])
  have hperm : (leaves.map (·.rosterMember.entry)).Perm (expected.map (·.entry)) := by
    refine (subperm_of_subset hnodup fun e he => ?_).perm_of_length_le (by simp [hmatch.1])
    obtain ⟨parts, hparts, rfl⟩ := mem_map.mp he
    have hfound := hmatch.2 parts hparts
    push Not at hfound
    obtain ⟨candidate, hmem, heq⟩ := hfound
    exact heq ▸ mem_map_of_mem hmem
  have hnames := (hperm.map Prod.fst).nodup_iff
  rw [map_map, map_map] at hnames
  exact ⟨leaves, hleaves, hperm, leavesOf_username hleaves ▸ hnames,
    fun hzero => hcount.1 (length_eq_zero_iff.mp (hmatch.1 ▸ hzero)), hcount.2⟩

/-- What an accepted roster is to say about a group. -/
def ChecksAgree (sha256 : Bytes → Bytes) (ids : RoomIds) (group : Group verify)
    (expected : List MlsRosterMember) (digest : Bytes) : Prop :=
  verifyGroupDirectory verify sha256 ids group.roster expected digest = .ok () →
    ∃ leaves, leavesOf verify ids group.roster = .ok leaves ∧
      (∀ e, e ∈ expected.map (·.entry) ↔ e ∈ leaves.map (·.rosterMember.entry)) ∧
      validateGroupContext verify ids group.roster = .ok () ∧ (leaves.map (·.username)).Nodup

theorem checksAgree_iff (sha256 : Bytes → Bytes) (ids : RoomIds) (group : Group verify)
    (expected : List MlsRosterMember) (digest : Bytes) :
    (verifyGroupDirectory verify sha256 ids group.roster expected digest = .ok () →
      ∃ leaves, leavesOf verify ids group.roster = .ok leaves ∧
        ∀ e, e ∈ expected.map (·.entry) ↔ e ∈ leaves.map (·.rosterMember.entry)) ∧
    (ChecksAgree sha256 ids group expected digest ↔
      (verifyGroupDirectory verify sha256 ids group.roster expected digest = .ok () →
        (expected.map fun member => toAsciiLowercase member.username).Nodup)) := by
  constructor
  · intro h
    obtain ⟨leaves, hleaves, hperm, -⟩ := verifyGroupDirectory_ok h
    exact ⟨leaves, hleaves, fun e => hperm.symm.mem_iff⟩
  constructor
  · intro hagree h
    obtain ⟨leaves, hleaves, -, hnames, -⟩ := verifyGroupDirectory_ok h
    obtain ⟨_, hsame, -, -, hnodup⟩ := hagree h
    rw [hleaves] at hsame
    cases hsame
    exact hnames.mp hnodup
  · intro hdistinct h
    obtain ⟨leaves, hleaves, hperm, hnames, hpos, hmax⟩ := verifyGroupDirectory_ok h
    have hnodup := hnames.mpr (hdistinct h)
    have hread := leavesOf_ok hleaves
    have hlength := (mapChecked_forall₂ hread).length_eq
    refine ⟨leaves, hleaves, fun e => hperm.symm.mem_iff, rejectIf_bind.mpr ⟨?_, bind_eq_ok.mpr
      ⟨leaves, hleaves, rejectIf_eq_ok.mpr (not_not_intro
      ⟨group.distinct leaves hread, hnodup⟩)⟩⟩, hnodup⟩
    rw [hlength, not_or, Nat.not_lt]
    exact ⟨hpos, hmax⟩

/-! Two leaves of one name. -/

def accepts (_ _ _ : Bytes) : Bool := true

def twin (b : UInt8) : CredentialParts :=
  { signed with stableIdentity := .replicate 64 b, mlsPublic := .replicate 32 b }

def twins : List Member := [1, 2].map fun b => ⟨b.toNat, ⟨some (credentialType,
  (twin b).spelled (ascii "alice") ++ (twin b).proof.toList), (twin b).mlsPublic.toList⟩⟩

def twinRoom : RoomIds := ⟨signed.roomId, signed.nodeContext, signed.groupId.toList⟩

theorem twins_checked : mapChecked (memberParts accepts) twins = .ok [twin 1, twin 2] ∧
    verifyGroupDirectory accepts id twinRoom twins [(twin 1).rosterMember, (twin 2).rosterMember]
      ((membershipDigest accepts id twins).toOption.getD []) = .ok () ∧
    validateGroupContext accepts twinRoom twins ≠ .ok () := by
  decide +kernel

theorem not_checksAgree : ∃ (group : Group accepts) (expected : List MlsRosterMember) (digest : Bytes),
    ¬ ChecksAgree id twinRoom group expected digest := by
  obtain ⟨hread, hverify, hvalidate⟩ := twins_checked
  refine ⟨⟨twins, fun leaves h => ?_⟩, _, _, fun hagree => absurd (hagree hverify) ?_⟩
  · rw [hread] at h
    cases h
    decide
  · rintro ⟨_, -, -, hvalid, -⟩
    exact hvalidate hvalid

end Abyssal.Mls
