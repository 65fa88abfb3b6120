import Abyssal.Direct.Model
import Abyssal.Base.Runs

/-! Signed identity state. Each accepted update carries a revision; a 128-bit window beside
the newest revision remembers which of the last revisions were accepted. -/

namespace Abyssal.Direct

structure IdentityUpdate where
  revision : Nat
  envelopeB64 : Text
  identityPublicB64 : Text
  prekeyId : Text
  stateSignatureB64 : Text
  allowReuse : Bool
  consumedPrekeyId : Option Text

structure Registration where
  username : Text
  identityPublic : Bytes
  identityEnvelope : Bytes
  prekeyId : Text

def register (accounts : Accounts) (codeId : CodeId) (r : Registration) : Accounts :=
  accounts.insert codeId
    { username := r.username
      identityPublic := r.identityPublic
      identityEnvelope := r.identityEnvelope
      prekeyId := r.prekeyId
      stateRevision := 0
      stateRevisionWindow := 1
      clientPlatform := none }

variable (crypto : Crypto)

def validatePrekeyPoolTransition (previousPublic nextPublic : Bytes)
    (consumedPrekeyId : Option Text) : Except String Unit := do
  let previous ← okOr (crypto.prekeyIds previousPublic) "identity state rejected"
  let next ← okOr (crypto.prekeyIds nextPublic) "identity state rejected"
  match consumedPrekeyId with
  | none =>
    rejectIf (previous ≠ next) "identity prekey pool changed without consumption"
  | some consumed =>
    let removed := previous.filter fun id => ¬ next.contains id
    let added := next.filter fun id => ¬ previous.contains id
    rejectIf (¬ (removed = [consumed] ∧ added.length = 1 ∧ ¬ next.contains consumed))
      "identity prekey pool transition rejected"

def Account.applyRevision (account : Account) (u : IdentityUpdate)
    (envelope identityPublic : Bytes) : Except String Account :=
  if account.stateRevision < u.revision then
    let advance := u.revision - account.stateRevision
    if maxStateRevisionAdvance < advance then .error "identity state rejected"
    else .ok { account with
      stateRevisionWindow := Window.slide account.stateRevisionWindow advance
      identityEnvelope := envelope
      identityPublic := identityPublic
      prekeyId := u.prekeyId
      stateRevision := u.revision }
  else if account.identityPublic ≠ identityPublic ∨ account.prekeyId ≠ u.prekeyId then
    .error "identity state rejected"
  else
    let lag := account.stateRevision - u.revision
    -- too old for the window: reported as accepted, but nothing is stored
    if stateRevisionWindowBits ≤ lag then
      if u.allowReuse then .ok account else .error "identity state rejected"
    else if Window.marked account.stateRevisionWindow lag ∧ ¬ u.allowReuse then
      .error "identity state rejected"
    else .ok { account with
      stateRevisionWindow := Window.mark account.stateRevisionWindow lag }

def applyIdentityStateLockedWithConsumed (accounts : Accounts) (codeId : CodeId)
    (u : IdentityUpdate) : Except String Accounts := do
  let envelope ← decodeBounded crypto u.envelopeB64 maxIdentityEnvelopeBytes
  let identityPublic ← decodeExact crypto u.identityPublicB64 identityPublicBytes
  let signature ← decodeExact crypto u.stateSignatureB64 messageSignatureBytes
  rejectIf (envelope.length ≤ 1 + messageNonceBytes ∨
    envelope.head? ≠ some identityEnvelopeVersion ∨
    ¬ validIdentityPublicBundle crypto identityPublic u.prekeyId) "identity state rejected"
  let account ← okOr (accounts.get? codeId) "authenticated identity required"
  rejectIf (account.identityPublic.length ≠ identityPublicBytes ∨
    account.identityPublic.take identityFingerprintBytes ≠
      identityPublic.take identityFingerprintBytes) "identity state rejected"
  validatePrekeyPoolTransition crypto account.identityPublic identityPublic u.consumedPrekeyId
  rejectIf (¬ crypto.verifyState u.revision envelope identityPublic u.prekeyId signature)
    "identity state rejected"
  let account ← account.applyRevision u envelope identityPublic
  .ok (accounts.insert codeId account)

structure IdentityCall where
  codeId : CodeId
  update : IdentityUpdate

def applyIdentityState (accounts : Accounts) (call : IdentityCall) : Accounts :=
  -- A rejected update leaves every account as it was.
  match applyIdentityStateLockedWithConsumed crypto accounts call.codeId call.update with
  | .error _ => accounts
  | .ok accounts => accounts

def afterUpdates (accounts : Accounts) (calls : List IdentityCall) : Accounts :=
  runFrom (applyIdentityState crypto) accounts calls

inductive Account.Records (account account' : Account) (u : IdentityUpdate)
    (envelope identityPublic : Bytes) : Prop
  | advanced (hlt : account.stateRevision < u.revision)
      (hle : u.revision ≤ account.stateRevision + maxStateRevisionAdvance)
      (heq : account' = { account with
        stateRevisionWindow :=
          Window.slide account.stateRevisionWindow (u.revision - account.stateRevision)
        identityEnvelope := envelope
        identityPublic := identityPublic
        prekeyId := u.prekeyId
        stateRevision := u.revision })
  | remembered (hle : u.revision ≤ account.stateRevision)
      (hsame : account.identityPublic = identityPublic)
      (hlag : account.stateRevision - u.revision < stateRevisionWindowBits)
      (hfresh : u.allowReuse = false →
        Window.marked account.stateRevisionWindow (account.stateRevision - u.revision) = false)
      (heq : account' = { account with
        stateRevisionWindow :=
          Window.mark account.stateRevisionWindow (account.stateRevision - u.revision) })
  | tooOld (hle : u.revision ≤ account.stateRevision)
      (hsame : account.identityPublic = identityPublic)
      (hlag : stateRevisionWindowBits ≤ account.stateRevision - u.revision)
      (hreuse : u.allowReuse = true) (heq : account' = account)

theorem Account.records_of_applyRevision {account account' : Account} {u : IdentityUpdate}
    {envelope identityPublic : Bytes}
    (h : account.applyRevision u envelope identityPublic = .ok account') :
    account.Records account' u envelope identityPublic := by
  simp only [Account.applyRevision] at h
  split_ifs at h with hlt hadvance hsame hlag hreuse hmarked
  · cases h
    exact .advanced hlt (by omega) rfl
  · cases h
    rw [not_or, not_not] at hsame
    exact .tooOld (by omega) hsame.1 hlag hreuse rfl
  · cases h
    rw [not_or, not_not] at hsame
    refine .remembered (by omega) hsame.1 (by omega) ?_ rfl
    intro hnot
    simpa [hnot] using hmarked

variable {crypto} {account account' : Account} {u : IdentityUpdate} {accounts : Accounts}
  {identityPublic envelope : Bytes} {codeId : CodeId} {seen : Set Nat}

theorem applyIdentityState_ok {accounts' : Accounts}
    (h : applyIdentityStateLockedWithConsumed crypto accounts codeId u = .ok accounts') :
    ∃ envelope identityPublic account account', accounts.get? codeId = some account ∧
      decodeExact crypto u.identityPublicB64 identityPublicBytes = .ok identityPublic ∧
      validatePrekeyPoolTransition crypto account.identityPublic identityPublic
        u.consumedPrekeyId = .ok () ∧
      account.Records account' u envelope identityPublic ∧
      accounts' = accounts.insert codeId account' := by
  obtain ⟨envelope, -, h⟩ := bind_eq_ok.mp h
  obtain ⟨identityPublic, hpublic, h⟩ := bind_eq_ok.mp h
  obtain ⟨signature, -, h⟩ := bind_eq_ok.mp h
  obtain ⟨⟨⟩, -, h⟩ := bind_eq_ok.mp h
  obtain ⟨account, haccount, h⟩ := okOr_bind.mp h
  obtain ⟨⟨⟩, -, h⟩ := bind_eq_ok.mp h
  obtain ⟨⟨⟩, htransition, h⟩ := bind_eq_ok.mp h
  obtain ⟨⟨⟩, -, h⟩ := bind_eq_ok.mp h
  obtain ⟨account', hrevision, h⟩ := bind_eq_ok.mp h
  cases h
  exact ⟨envelope, identityPublic, account, account', haccount, hpublic,
    htransition, Account.records_of_applyRevision hrevision, rfl⟩

def acceptedRevisions (crypto : Crypto) (codeId : CodeId) :
    Accounts → List IdentityCall → List Nat
  | _, [] => []
  | accounts, call :: calls =>
    match applyIdentityStateLockedWithConsumed crypto accounts call.codeId call.update with
    | .error _ => acceptedRevisions crypto codeId accounts calls
    | .ok accounts =>
      if call.codeId = codeId then
        call.update.revision :: acceptedRevisions crypto codeId accounts calls
      else acceptedRevisions crypto codeId accounts calls

def Account.Remembers (account : Account) (seen : Set Nat) : Prop :=
  Window.Tracks account.stateRevisionWindow account.stateRevision seen

section

variable (h : account.Records account' u envelope identityPublic)

include h

theorem Account.Records.remembers
    (hseen : account.Remembers seen) : account'.Remembers (insert u.revision seen) := by
  cases h with
  | advanced hlt hle heq =>
    subst heq
    have hslide := hseen.slide (Nat.sub_pos_of_lt hlt)
    rw [Nat.add_sub_cancel' hlt.le] at hslide
    exact hslide
  | remembered hle hsame hlag hfresh heq =>
    subst heq
    exact hseen.mark hle
  | tooOld hle hsame hlag hreuse heq =>
    subst heq
    exact hseen.forget hle hlag

theorem Account.Records.fresh
    (hseen : account.Remembers seen) (hreuse : u.allowReuse = false) : u.revision ∉ seen := by
  intro hmem
  cases h with
  | advanced hlt hle heq => exact absurd (hseen.below _ hmem) hlt.not_ge
  | remembered hle hsame hlag hfresh heq =>
    have hbit := hfresh hreuse
    rw [Window.marked_eq_getLsbD _ hlag] at hbit
    have hset := (hseen.bits _ hlag (Nat.sub_le _ _)).mpr (by rwa [Nat.sub_sub_self hle])
    rw [hbit] at hset
    cases hset
  | tooOld hle hsame hlag hallow heq =>
    rw [hallow] at hreuse
    cases hreuse

theorem Account.Records.revision_le : account.stateRevision ≤ account'.stateRevision ∧
      account'.stateRevision ≤ account.stateRevision + maxStateRevisionAdvance := by
  cases h with
  | advanced hlt hle heq =>
    subst heq
    exact ⟨hlt.le, hle⟩
  | remembered hle hsame hlag hfresh heq | tooOld hle hsame hlag hreuse heq =>
    subst heq
    exact ⟨le_rfl, Nat.le_add_right _ _⟩

end

theorem applyIdentityState_account (crypto : Crypto)
    (haccount : accounts.get? codeId = some account) (call : IdentityCall) :
    (applyIdentityState crypto accounts call).get? codeId = some account ∧
        acceptedRevisions crypto codeId accounts [call] = [] ∨
      ∃ account' envelope identityPublic,
        (applyIdentityState crypto accounts call).get? codeId = some account' ∧
        acceptedRevisions crypto codeId accounts [call] = [call.update.revision] ∧
        account.Records account' call.update envelope identityPublic := by
  unfold applyIdentityState
  cases happly : applyIdentityStateLockedWithConsumed crypto accounts call.codeId call.update with
  | error reason =>
    refine .inl ⟨haccount, ?_⟩
    simp only [acceptedRevisions, happly]
  | ok accounts' =>
    obtain ⟨envelope, identityPublic, old, new, hold, -, -, hrecords, rfl⟩ :=
      applyIdentityState_ok happly
    by_cases hcode : call.codeId = codeId
    · subst hcode
      rw [haccount, Option.some.injEq] at hold
      subst hold
      refine .inr ⟨new, envelope, identityPublic, OrdMap.get?_insert_self .., ?_, hrecords⟩
      simp only [acceptedRevisions, happly, if_true]
    · refine .inl ⟨?_, ?_⟩
      · rw [← haccount]
        exact OrdMap.get?_insert_of_ne _ _ hcode
      · simp only [acceptedRevisions, happly, if_neg hcode]

theorem acceptedRevisions_cons (codeId : CodeId) (accounts : Accounts) (call : IdentityCall)
    (calls : List IdentityCall) :
    acceptedRevisions crypto codeId accounts (call :: calls) =
      acceptedRevisions crypto codeId accounts [call] ++
        acceptedRevisions crypto codeId (applyIdentityState crypto accounts call) calls := by
  unfold applyIdentityState
  cases happly : applyIdentityStateLockedWithConsumed crypto accounts call.codeId call.update with
  | error reason => simp only [acceptedRevisions, happly, List.nil_append]
  | ok accounts' =>
    simp only [acceptedRevisions, happly]
    split_ifs <;> rfl

theorem remembers_afterUpdates (crypto : Crypto) (haccount : accounts.get? codeId = some account)
    (hseen : account.Remembers seen) (calls : List IdentityCall) :
    ∃ account', (afterUpdates crypto accounts calls).get? codeId = some account' ∧
      account'.Remembers (seen ∪ {r | r ∈ acceptedRevisions crypto codeId accounts calls}) := by
  induction calls generalizing accounts account seen with
  | nil =>
    refine ⟨account, haccount, ?_⟩
    simpa [acceptedRevisions] using hseen
  | cons call calls ih =>
    rw [acceptedRevisions_cons]
    rcases applyIdentityState_account crypto haccount call with
      ⟨hsame, hnone⟩ | ⟨account', envelope, identityPublic, hnew, hone, hrecords⟩
    · obtain ⟨last, hlast, hremembers⟩ := ih hsame hseen
      refine ⟨last, hlast, ?_⟩
      rw [hnone]
      exact hremembers
    · obtain ⟨last, hlast, hremembers⟩ := ih hnew (hrecords.remembers hseen)
      refine ⟨last, hlast, ?_⟩
      have hset : insert call.update.revision seen ∪
          {r | r ∈ acceptedRevisions crypto codeId (applyIdentityState crypto accounts call) calls} =
          seen ∪ {r | r ∈ acceptedRevisions crypto codeId accounts [call] ++
            acceptedRevisions crypto codeId (applyIdentityState crypto accounts call) calls} := by
        ext r
        rw [hone]
        simp only [Set.mem_union, Set.mem_insert_iff, Set.mem_ofPred_eq, List.mem_append,
          List.mem_singleton]
        tauto
      rw [← hset]
      exact hremembers

/-- From registration on, the window is the history of accepted revisions seen through its
last 128 places, the revision moves up by at most one allowed advance a call, and an update
without reuse never carries an accepted revision again. -/
theorem revisionWindow_refines_history (crypto : Crypto) (accounts : Accounts) (codeId : CodeId)
    (r : Registration) (calls : List IdentityCall) :
    ∃ account,
      (afterUpdates crypto (register accounts codeId r) calls).get? codeId = some account ∧
      (∀ i, i < stateRevisionWindowBits → i ≤ account.stateRevision →
        (account.stateRevisionWindow.getLsbD i = true ↔
          account.stateRevision - i = 0 ∨ account.stateRevision - i ∈
            acceptedRevisions crypto codeId (register accounts codeId r) calls)) ∧
      ∀ call, ∃ account',
        (afterUpdates crypto (register accounts codeId r) (calls ++ [call])).get? codeId =
          some account' ∧
        account.stateRevision ≤ account'.stateRevision ∧
        account'.stateRevision ≤ account.stateRevision + maxStateRevisionAdvance ∧
        (call.update.allowReuse = false → call.update.revision ∈
            acceptedRevisions crypto codeId (register accounts codeId r) calls →
          ∃ reason, applyIdentityStateLockedWithConsumed crypto
            (afterUpdates crypto (register accounts codeId r) calls) codeId call.update =
              .error reason) := by
  have hstart : (register accounts codeId r).get? codeId = some
      { username := r.username, identityPublic := r.identityPublic,
        identityEnvelope := r.identityEnvelope, prekeyId := r.prekeyId, stateRevision := 0,
        stateRevisionWindow := 1, clientPlatform := none } := OrdMap.get?_insert_self ..
  have hone : Window.Tracks (1 : BitVec stateRevisionWindowBits) 0 {0} :=
    Window.tracks_one (by decide) 0
  obtain ⟨account, haccount, hremembers⟩ :=
    remembers_afterUpdates crypto hstart hone calls
  refine ⟨account, haccount, ?_, ?_⟩
  · intro i hi htop
    exact hremembers.bits i hi htop
  · intro call
    have hsnoc : afterUpdates crypto (register accounts codeId r) (calls ++ [call]) =
        applyIdentityState crypto (afterUpdates crypto (register accounts codeId r) calls) call :=
      List.foldl_concat ..
    rw [hsnoc]
    have hrefused : call.update.allowReuse = false → call.update.revision ∈
        acceptedRevisions crypto codeId (register accounts codeId r) calls →
        ∃ reason, applyIdentityStateLockedWithConsumed crypto
          (afterUpdates crypto (register accounts codeId r) calls) codeId call.update =
            .error reason := by
      intro hreuse hmem
      cases happly : applyIdentityStateLockedWithConsumed crypto
          (afterUpdates crypto (register accounts codeId r) calls) codeId call.update with
      | error reason => exact ⟨reason, rfl⟩
      | ok accounts' =>
        obtain ⟨envelope, identityPublic, old, new, hold, -, -, hrecords, -⟩ :=
          applyIdentityState_ok happly
        rw [haccount, Option.some.injEq] at hold
        subst hold
        exact absurd (Or.inr hmem) (hrecords.fresh hremembers hreuse)
    rcases applyIdentityState_account crypto haccount call with
      ⟨hsame, -⟩ | ⟨account', envelope, identityPublic, hnew, -, hrecords⟩
    · exact ⟨account, hsame, le_rfl, Nat.le_add_right _ _, hrefused⟩
    · exact ⟨account', hnew, hrecords.revision_le.1, hrecords.revision_le.2, hrefused⟩

end Abyssal.Direct
