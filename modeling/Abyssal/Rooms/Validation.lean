import Abyssal.Rooms.Model

/-! Canonical identifiers, rosters and the checks at the protocol boundary. -/

namespace Abyssal
namespace Rooms

def isIdByte (b : UInt8) : Bool :=
  (48 ≤ b && b ≤ 57) || (65 ≤ b && b ≤ 90) || (97 ≤ b && b ≤ 122) || b = 95 || b = 45

def asciiLowerByte (b : UInt8) : UInt8 := if 65 ≤ b ∧ b ≤ 90 then b + 32 else b

def toAsciiLowercase (value : Text) : Text := value.map asciiLowerByte

def validateRoomId (value : Text) : Except String Unit :=
  rejectIf (value = [] ∨ maxRoomIdBytes < value.length ∨ ¬ value.all isIdByte) "room id rejected"

def validateRequestId (value : Text) : Except String Unit :=
  match validateRoomId value with
  | .ok u => .ok u
  | .error _ => .error "message id rejected"

def validateUsername (value : Text) : Except String Unit :=
  rejectIf (value = [] ∨ maxUsernameBytes < value.length ∨ ¬ value.all isIdByte)
    "username rejected"

def validateGroupId (value : Bytes) : Except String Unit :=
  rejectIf (value.length ≠ groupIdBytes ∨ value.all (· = 0)) "group id rejected"

def validateDigest (value : Bytes) : Except String Unit :=
  rejectIf (value.length ≠ membershipDigestBytes) "membership digest rejected"

def validateStableIdentity (value : Bytes) : Except String Unit :=
  rejectIf (value.length ≠ stableIdentityBytes ∨ value.all (· = 0)) "stable identity rejected"

def validateStateEnvelope (value : Bytes) : Except String Unit :=
  rejectIf (value = [] ∨ maxStateBytes < value.length) "state snapshot rejected"

def canonicalUsername (value : Text) : Except String Text := do
  validateUsername value
  .ok (toAsciiLowercase value)

def rosterSizeFrom : Nat → List RosterMember → Option Nat
  | total, [] => some total
  | total, m :: roster => (checkedAdd total m.username.length).bind fun bytes =>
      (checkedAdd bytes m.stableIdentity.length).bind fun bytes => rosterSizeFrom bytes roster

def rosterSize (roster : List RosterMember) : Except String Nat :=
  okOr (rosterSizeFrom 0 roster) "state snapshot accounting rejected"

def snapshotSize (snapshot : StateSnapshot) : Except String Nat := do
  let roster ← rosterSize snapshot.roster
  okOr (checkedAdd snapshot.stateEnvelope.length roster) "state snapshot accounting rejected"

def canonicalRoomRoster (room : RelayRoom) : Except String (List RosterMember) :=
  mapChecked (fun (m : Member) => do
    let username ← canonicalUsername m.username
    .ok { username := username, stableIdentity := m.stableIdentity }) room.members.values

def rosterMapStep (acc : OrdMap Text Member × List Bytes) (m : RosterMember) :
    Except String (OrdMap Text Member × List Bytes) := do
  validateUsername m.username
  validateStableIdentity m.stableIdentity
  let canonical ← canonicalUsername m.username
  rejectIf (m.stableIdentity ∈ acc.2 ∨ acc.1.contains canonical) "membership roster rejected"
  -- The code id of a new member is bound from its join request; until then it is a sentinel.
  .ok (acc.1.insert canonical
    { username := m.username, codeId := 0, stableIdentity := m.stableIdentity, active := false },
    m.stableIdentity :: acc.2)

def rosterMap (roster : List RosterMember) : Except String (OrdMap Text Member) := do
  rejectIf (roster = [] ∨ maxMembers < roster.length) "membership roster rejected"
  let acc ← foldChecked rosterMapStep (.empty, []) roster
  .ok acc.1

def rostersMatchRoom (roster : List RosterMember) (room : RelayRoom) : Except String Bool := do
  let candidate ← rosterMap roster
  if candidate.size ≠ room.members.size then .ok false
  else .ok (candidate.entries.all fun e =>
    match room.members.get? e.1 with
    | none => false
    | some current => current.codeId ≠ 0 && current.stableIdentity = e.2.stableIdentity)

def resolveNextStep (room : RelayRoom) (transition : MembershipTransition)
    (next : OrdMap Text Member) (e : Text × Member) : Except String (OrdMap Text Member) :=
  match room.members.get? e.1 with
  | some current => do
    rejectIf (current.stableIdentity ≠ e.2.stableIdentity) "membership roster identity changed"
    .ok (next.insert e.1 current)
  | none => do
    let join ← okOr (transition.requestId.bind room.joins.get?) "join request required"
    let canonical ← canonicalUsername join.request.username
    rejectIf (canonical ≠ e.1 ∨ join.request.stableIdentity ≠ e.2.stableIdentity)
      "join request binding rejected"
    .ok (next.insert e.1
      { username := join.request.username, codeId := join.request.codeId,
        stableIdentity := e.2.stableIdentity, active := false })

def resolveNextRoster (room : RelayRoom) (transition : MembershipTransition) :
    Except String (OrdMap Text Member) := do
  let requested ← rosterMap transition.roster
  foldChecked (resolveNextStep room transition) .empty requested.entries

def identityOf (members : OrdMap Text Member) (username : Text) : Option (CodeId × Bytes) :=
  (members.get? username).map fun m => (m.codeId, m.stableIdentity)

def changedUsernames (current next : OrdMap Text Member) : List Text :=
  ((current.keys ++ next.keys).filter
    fun username => identityOf current username ≠ identityOf next username).dedup

def validateOptionalId : Option Text → Except String Unit
  | some requestId => validateRequestId requestId
  | none => .ok ()

def validateTransition (transition : MembershipTransition) : Except String Unit := do
  validateRoomId transition.roomId
  validateRequestId transition.messageId
  validateOptionalId transition.requestId
  validateGroupId transition.groupId
  validateDigest transition.membershipDigest
  rejectIf (transition.control = [] ∨ maxControlBytes < transition.control.length)
    "membership control rejected"
  rejectIf (maxControlBytes < transition.welcome.length) "membership welcome rejected"
  rejectIf (transition.authenticatedData = [] ∨
    maxAuthenticatedDataBytes < transition.authenticatedData.length)
    "membership authenticated data rejected"
  rejectIf (transition.stateEnvelope = [] ∨ maxStateBytes < transition.stateEnvelope.length)
    "membership state rejected"

def validateCurrentMetadata (room : RelayRoom) (groupId : Bytes) (epoch : Nat)
    (membershipDigest : Bytes) : Except String Unit :=
  rejectIf (room.groupId ≠ groupId ∨ room.epoch ≠ epoch ∨
    room.membershipDigest ≠ membershipDigest) "room checkpoint rejected"

end Rooms

export Rooms (isIdByte asciiLowerByte toAsciiLowercase)

end Abyssal
