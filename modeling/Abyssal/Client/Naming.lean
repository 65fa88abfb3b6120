import Abyssal.Client.ClearPlatform
import Abyssal.Client.Invariants

/-! Which identity key a message is wrapped for, and which one it is attributed to. The caller names
a public bundle with every recipient and sender. The ratchet sessions are kept by user name alone, so
a session that is there already is used whatever key it was opened with. -/

namespace Abyssal.Client

open Command Option
open List hiding Vector

variable {Account Session : Type} (P : Platform Account Session)

def identityOf (publicKey : Bytes) : Bytes := publicKey.take 32

/-- The envelope was made in this state by a session with the key that the caller named. -/
def WrappedForNamed (contentKey aad : Bytes) (ratchet : Text → Nat) (s : E2eeState Account Session)
    (recipient : RecipientPublicKey) (wrappedKey : Bytes) : Prop :=
  ∃ s₁ wrapped s₂ session,
    openOutbound P recipient (ratchet recipient.username) s = (.ok (), s₁) ∧
    Wrapped P contentKey aad recipient (ratchet recipient.username) s₁ wrapped s₂ session ∧
    wrappedKey = wrapped.bytes ∧ P.olm.remoteIdentity session = identityOf recipient.publicKey

/-- Each envelope, in the state that the recipients before it have left. -/
def AllWrappedForNamed (contentKey aad : Bytes) (ratchet : Text → Nat) :
    E2eeState Account Session → List RecipientPublicKey → List Bytes → Prop
  | _, [], [] => True
  | s, recipient :: recipients, wrappedKey :: wrappedKeys =>
    WrappedForNamed P contentKey aad ratchet s recipient wrappedKey ∧
      AllWrappedForNamed contentKey aad ratchet (wrapFor P contentKey aad ratchet recipient s).2
        recipients wrappedKeys
  | _, _, _ => False

def ReusesNamed (s : E2eeState Account Session) (recipient : RecipientPublicKey) : Prop :=
  needsNewSession P s (peerKey recipient.username) recipient.prekeyId = false →
    ∀ session, lastSession s (peerKey recipient.username) = some session →
      P.olm.remoteIdentity session = identityOf recipient.publicKey

def AllReuseNamed (contentKey aad : Bytes) (ratchet : Text → Nat) :
    E2eeState Account Session → List RecipientPublicKey → Prop
  | _, [] => True
  | s, recipient :: recipients => ReusesNamed P s recipient ∧
      AllReuseNamed contentKey aad ratchet (wrapFor P contentKey aad ratchet recipient s).2 recipients

/-- The wrapped key was opened by a session with the key that the caller named. -/
def OpenedByNamed (s : E2eeState Account Session) (input : DecryptInput) : Prop :=
  ∃ message contentKey session used s', KeyOpened P input s message contentKey session used s' ∧
    P.olm.remoteIdentity session = identityOf input.senderPublicKey

def GivenToNamed (s : E2eeState Account Session) (input : DecryptInput) : Prop :=
  ∀ message session, P.decodeMessage input.wrappedKey = some message →
    heldSession P s (peerKey input.senderUsername) message = some session →
      P.olm.remoteIdentity session = identityOf input.senderPublicKey

variable {P} {s s₁ s₂ : E2eeState Account Session} {session : E2eeSession Account Session}
  {contentKey : Bytes}

variable (s) in
variable {aad : Bytes} {ratchet : Text → Nat} {recipient : RecipientPublicKey}
  {envelope : RecipientEnvelope}

theorem wrappedForNamed_iff (h : wrapFor P contentKey aad ratchet recipient s = (.ok envelope, s₂)) :
    WrappedForNamed P contentKey aad ratchet s recipient envelope.wrappedKey ↔
      ReusesNamed P s recipient := by
  obtain ⟨s₁, wrapped, session, hopen, hwrapped, hbytes⟩ := wrapFor_ok h
  have hsession : WrappedForNamed P contentKey aad ratchet s recipient envelope.wrappedKey ↔
      P.olm.remoteIdentity session = identityOf recipient.publicKey := by
    constructor
    · rintro ⟨s₁', wrapped', s₂', session', hopen', hwrapped', -, hnamed⟩
      obtain rfl : s₁ = s₁' := (Prod.mk.inj (hopen.symm.trans hopen')).2
      obtain rfl := some.inj (hwrapped.last.symm.trans hwrapped'.last)
      exact hnamed
    · intro hnamed
      exact ⟨s₁, wrapped, s₂, session, hopen, hwrapped, hbytes, hnamed⟩
  have hlast := hwrapped.last
  rw [hsession]
  cases openOutbound_ok hopen with
  | reused hneeds =>
    refine ⟨fun hnamed _ session' hsession' => ?_, fun hreuses => hreuses hneeds session hlast⟩
    obtain rfl := some.inj (hlast.symm.trans hsession')
    exact hnamed
  | created hneeds _ _ hcreated =>
    rw [lastSession_eq_some.mpr ⟨_, OrdMap.get?_insert_self ..⟩] at hlast
    obtain rfl := some.inj hlast
    refine ⟨fun _ hreuse => ?_, fun _ => P.olm.remote_outbound hcreated⟩
    rw [hneeds] at hreuse
    cases hreuse

variable {recipients : List RecipientPublicKey} {envelopes : List RecipientEnvelope}

theorem allWrappedForNamed_iff
    (h : Command.each (wrapFor P contentKey aad ratchet) recipients s = (.ok envelopes, s₂)) :
    AllWrappedForNamed P contentKey aad ratchet s recipients (envelopes.map (·.wrappedKey)) ↔
      AllReuseNamed P contentKey aad ratchet s recipients := by
  induction recipients generalizing s envelopes with
  | nil =>
    obtain ⟨rfl, -⟩ := pure_eq_ok.mp h
    exact Iff.rfl
  | cons recipient recipients ih =>
    obtain ⟨envelope, s₁, hwrap, h⟩ := ok_bind.mp h
    obtain ⟨rest, s', hrest, h⟩ := ok_bind.mp h
    obtain ⟨rfl, rfl⟩ := pure_eq_ok.mp h
    have hstate : (wrapFor P contentKey aad ratchet recipient s).2 = s₁ := by rw [hwrap]
    rw [map_cons, AllWrappedForNamed, AllReuseNamed, hstate, wrappedForNamed_iff hwrap,
      ih hrest]

variable {input : DecryptInput}

theorem openedByNamed_iff {message : OlmMessage} {opener : Session} {used : Bool}
    (h : KeyOpened P input s message contentKey opener used s₁) :
    OpenedByNamed P s input ↔ GivenToNamed P s input := by
  constructor
  · rintro ⟨message', contentKey', opener', used', s', hopened, hnamed⟩ message₂ session hdecoded hheld
    obtain rfl := some.inj (hopened.decoded.symm.trans hdecoded)
    cases hopened.unwrapped with
    | held hheld' =>
      obtain rfl := some.inj (hheld'.symm.trans hheld)
      exact hnamed
    | created _ hnone =>
      rw [hnone] at hheld
      cases hheld
  · intro hgiven
    refine ⟨message, contentKey, opener, used, s₁, h, ?_⟩
    cases h.unwrapped with
    | held hheld => exact hgiven message opener h.decoded hheld
    | created _ _ _ hcreated => exact P.olm.remote_inbound (congrArg Prod.fst hcreated)

variable {session' : E2eeSession Account Session}

theorem encrypt_named_iff {chatId messageId senderUsername : Text} {plaintext : Bytes}
    {draws : EncryptDraws} {payload : E2eePayload}
    (h : encrypt P chatId messageId senderUsername plaintext recipients draws session =
      (.ok payload, session')) :
    AllWrappedForNamed P draws.contentKey.toList (messageAad chatId messageId senderUsername)
        draws.ratchet (beginOutbound P messageId session.state).2 recipients
        (payload.envelopes.map (·.wrappedKey)) ↔
      AllReuseNamed P draws.contentKey.toList (messageAad chatId messageId senderUsername)
        draws.ratchet (beginOutbound P messageId session.state).2 recipients := by
  obtain ⟨s₂, -, henc⟩ := encrypt_ok h
  obtain ⟨s₁, sealing, ciphertext, revision, -, hbegun, -, -, hwork⟩ := henc.worked
  obtain ⟨envelopes, s', heach, hsigned, -⟩ := encryptWork_ok hwork
  rw [hbegun.run, hsigned]
  exact allWrappedForNamed_iff heach

theorem decrypt_named_iff {draws : DecryptDraws} {decryption : E2eeDecryption}
    (h : decrypt P input draws session = (.ok decryption, session')) :
    OpenedByNamed P session.state input ↔ GivenToNamed P session.state input := by
  obtain ⟨s₂, -, hdec⟩ := decrypt_ok h
  obtain ⟨sealing, -, hwork⟩ := hdec.worked
  obtain ⟨s', hopen, -⟩ := decryptWork_ok hwork
  obtain ⟨message, contentKey, opener, used, s₁, hopened, -⟩ := openPayload_ok hopen
  exact openedByNamed_iff hopened

namespace SecondKey

/-! A message to a user name is sent with one identity key, and committed. The next message to that
name is sent with another identity key, while the relay still offers the same one-time keys. -/

open Clear (platform keyNumber)

def bundle (identity : UInt8) : Bytes :=
  List.replicate 32 identity ++ List.replicate 32 2 ++ (List.range prekeyPoolSize).flatMap keyNumber ++
    List.replicate 32 3

def bob (identity : UInt8) : RecipientPublicKey :=
  ⟨ascii "bob", bundle identity, prekeyIdForPublic Clear.keys (keyNumber 0)⟩

def draws (ratchet : Nat) : EncryptDraws :=
  ⟨Vector.replicate 32 7, Vector.replicate nonceBytes 0, fun _ => 0, fun _ => ratchet,
    Vector.replicate nonceBytes 0⟩

def exportKey : Bytes := List.replicate 32 5

theorem created : (create platform exportKey 0).toOption.isSome = true := by decide

def start : E2eeSession Clear.Account Clear.Session := (create platform exportKey 0).toOption.get created

def first : List Call :=
  [.sealIdentity exportKey (ascii "node") (Vector.replicate nonceBytes 0),
    .encrypt (ascii "chat") (ascii "m1") (ascii "alice") [1] [bob 8] (draws 1),
    .commitOutbound (ascii "m1") 1]

def second : Command (E2eeSession Clear.Account Clear.Session) E2eePayload :=
  encrypt platform (ascii "chat") (ascii "m2") (ascii "alice") [1] [bob 9] (draws 2)

theorem second_run : (beginOutbound platform (ascii "m1") (step platform start
      (.sealIdentity exportKey (ascii "node") (Vector.replicate nonceBytes 0))).state).2.sessions.size =
      0 ∧
    (second (after platform start first)).1.toOption.isSome = true ∧
    needsNewSession platform (beginOutbound platform (ascii "m2") (after platform start first).state).2
      (peerKey (ascii "bob")) (bob 9).prekeyId = false ∧
    (lastSession (beginOutbound platform (ascii "m2") (after platform start first).state).2
      (peerKey (ascii "bob"))).map platform.olm.remoteIdentity =
      some (identityOf (bob 8).publicKey) := by
  decide +kernel

theorem wrapped_for_first_key : ∃ payload session',
    create platform exportKey 0 = .ok start ∧
    second (after platform start first) = (.ok payload, session') ∧
    ¬ AllWrappedForNamed platform (draws 2).contentKey.toList
      (messageAad (ascii "chat") (ascii "m2") (ascii "alice")) (draws 2).ratchet
      (beginOutbound platform (ascii "m2") (after platform start first).state).2 [bob 9]
      (payload.envelopes.map (·.wrappedKey)) := by
  obtain ⟨-, hok, hneeds, hremote⟩ := second_run
  obtain ⟨payload, hpayload⟩ : ∃ payload, _ = Except.ok payload := ⟨_, ok_get hok⟩
  have hrun := run_of_result hpayload
  refine ⟨payload, _, ok_get created, hrun, fun hnamed => ?_⟩
  unfold second at hrun
  have hreuse := (encrypt_named_iff hrun).mp hnamed
  obtain ⟨session, hlast, hfirst⟩ := map_eq_some_iff.mp hremote
  have hsecond := hreuse.1 hneeds session hlast
  exact absurd (hfirst.symm.trans hsecond) (by decide)

end SecondKey

/-- Every session was opened with the key that the directory has for its peer. -/
def Agrees (P : Platform Account Session) (directory : Text → Bytes)
    (s : E2eeState Account Session) : Prop :=
  ∀ key sessions, s.sessions.get? key = some sessions →
    ∀ session ∈ sessions, P.olm.remoteIdentity session = directory key

def Call.names (directory : Text → Bytes) : Call → Prop
  | .encrypt _ _ _ _ recipients _ => ∀ recipient ∈ recipients,
      identityOf recipient.publicKey = directory (peerKey recipient.username)
  | .decrypt input _ => identityOf input.senderPublicKey = directory (peerKey input.senderUsername)
  | _ => True

section

variable {directory : Text → Bytes} {key : Text}

section

variable (h : Agrees P directory s)

include h

theorem Agrees.last {session : Session}
    (hlast : lastSession s key = some session) : P.olm.remoteIdentity session = directory key := by
  obtain ⟨front, hget⟩ := lastSession_eq_some.mp hlast
  exact h key _ hget session (mem_append_right _ (mem_singleton_self _))

theorem Agrees.of_mem {session : Session}
    (hmem : session ∈ sessionsOf s key) : P.olm.remoteIdentity session = directory key := by
  cases hget : s.sessions.get? key with
  | none =>
    rw [sessionsOf, hget] at hmem
    cases hmem
  | some sessions =>
    rw [sessionsOf_eq hget] at hmem
    exact h key sessions hget session hmem

theorem Agrees.insert {sessions : List Session}
    (hsessions : ∀ session ∈ sessions, P.olm.remoteIdentity session = directory key)
    (hs : s₁.sessions = s.sessions.insert key sessions) : Agrees P directory s₁ := by
  intro key' sessions' hget session hmem
  rw [hs, OrdMap.get?_insert] at hget
  split_ifs at hget with hkey
  · obtain rfl := some.inj hget
    exact hkey ▸ hsessions session hmem
  · exact h key' sessions' hget session hmem

theorem Agrees.moved (hmoved : Moved P key s s₁) : Agrees P directory s₁ := by
  obtain ⟨sessions, sessions', hget, hsame, rfl⟩ := hmoved
  refine h.insert (fun session hmem => ?_) rfl
  obtain ⟨old, hold, hkept⟩ := forall₂_mem_right hsame hmem
  exact hkept.2.trans (h key sessions hget old hold)

theorem Agrees.stored {session : Session}
    (hsession : P.olm.remoteIdentity session = directory key) (prekeyId : Text) :
    Agrees P directory (storeSession P s key session prekeyId) := by
  refine h.insert (fun other hmem => ?_) rfl
  rcases mem_append.mp hmem with hkept | hnew
  · refine h.of_mem ?_
    split_ifs at hkept
    · exact mem_of_mem_tail hkept
    · exact hkept
  · obtain rfl := mem_singleton.mp hnew
    exact hsession

theorem Agrees.wrapped
    (hnames : identityOf recipient.publicKey = directory (peerKey recipient.username))
    (hwrap : wrapFor P contentKey aad ratchet recipient s = (.ok envelope, s₂)) :
    Agrees P directory s₂ := by
  obtain ⟨s₁, wrapped, session, hopen, hwrapped, -⟩ := wrapFor_ok hwrap
  have hopened : Agrees P directory s₁ := by
    cases openOutbound_ok hopen with
    | reused _ => exact h
    | created _ _ _ hcreated => exact h.stored ((P.olm.remote_outbound hcreated).trans hnames) _
  exact hopened.moved hwrapped.moved

end

theorem agrees_stable (P : Platform Account Session) (directory : Text → Bytes) :
    Stable P (fun _ call => call.names directory) (Agrees P directory) where
  frame _ _ _ h := h
  wraps := by
    intro session chatId messageId sender plaintext recipients draws hnames _ h s₁ envelopes s' _ hs₁
      heach _
    have hstart : Agrees P directory s₁ := by
      rw [hs₁]
      exact h
    exact each_invariant (fun recipient hmem _ _ _ hs => hs.wrapped (hnames recipient hmem))
      hstart heach
  unwraps := by
    intro session input draws hnames _ h plaintext s' hopen _
    obtain ⟨message, contentKey, opener, used, s₁, hopened, hend⟩ := openPayload_ok hopen
    have hkey : Agrees P directory s₁ := by
      cases hopened.unwrapped with
      | held _ _ hmoved => exact h.moved hmoved
      | created _ _ _ hcreated =>
        refine Agrees.stored (fun key sessions hget => h key sessions hget) ?_
          input.recipientPrekeyId
        exact (P.olm.remote_inbound (congrArg Prod.fst hcreated)).trans hnames
    obtain ⟨-, rfl⟩ | ⟨-, hreplenished⟩ := hend
    · exact hkey
    · obtain ⟨_, -, -, rfl⟩ := hreplenished.replaced
      exact hkey

theorem Agrees.all_reuse (h : Agrees P directory s)
    (hnames : ∀ recipient ∈ recipients,
      identityOf recipient.publicKey = directory (peerKey recipient.username))
    (heach : Command.each (wrapFor P contentKey aad ratchet) recipients s = (.ok envelopes, s₂)) :
    AllReuseNamed P contentKey aad ratchet s recipients := by
  induction recipients generalizing s envelopes with
  | nil => trivial
  | cons recipient recipients ih =>
    obtain ⟨envelope, s₁, hwrap, heach⟩ := ok_bind.mp heach
    obtain ⟨rest, s', hrest, hdone⟩ := ok_bind.mp heach
    obtain ⟨-, rfl⟩ := pure_eq_ok.mp hdone
    have hnamed := hnames recipient (mem_cons_self ..)
    refine ⟨fun _ session hlast => (h.last hlast).trans hnamed.symm, ?_⟩
    rw [hwrap]
    exact ih (h.wrapped hnamed hwrap) (fun r hr => hnames r (mem_cons_of_mem _ hr)) hrest

theorem Agrees.encrypt_named (h : Agrees P directory session.state)
    {chatId messageId senderUsername : Text} {plaintext : Bytes} {draws : EncryptDraws}
    {payload : E2eePayload}
    (hnames : ∀ recipient ∈ recipients,
      identityOf recipient.publicKey = directory (peerKey recipient.username))
    (hrun : encrypt P chatId messageId senderUsername plaintext recipients draws session =
      (.ok payload, session')) :
    AllWrappedForNamed P draws.contentKey.toList (messageAad chatId messageId senderUsername)
      draws.ratchet (beginOutbound P messageId session.state).2 recipients
      (payload.envelopes.map (·.wrappedKey)) := by
  refine (encrypt_named_iff hrun).mpr ?_
  obtain ⟨s₂, -, henc⟩ := encrypt_ok hrun
  obtain ⟨s₁, sealing, ciphertext, revision, -, hbegun, -, -, hwork⟩ := henc.worked
  obtain ⟨envelopes, s', heach, -, -⟩ := encryptWork_ok hwork
  obtain ⟨checkpoint, -, hs₁⟩ := hbegun.opened
  have hbegin : Agrees P directory s₁ := by
    rw [hs₁]
    exact h
  rw [hbegun.run]
  exact hbegin.all_reuse hnames heach

theorem Agrees.decrypt_named (h : Agrees P directory session.state) {draws : DecryptDraws}
    {decryption : E2eeDecryption}
    (hnames : identityOf input.senderPublicKey = directory (peerKey input.senderUsername))
    (hrun : decrypt P input draws session = (.ok decryption, session')) :
    OpenedByNamed P session.state input := by
  refine (decrypt_named_iff hrun).mpr fun message opener _ hheld => ?_
  refine (h.of_mem ?_).trans hnames.symm
  cases message with
  | preKey oneTimeKey id body => exact mem_of_find?_eq_some hheld
  | normal body => exact mem_reverse.mp (mem_of_find?_eq_some hheld)

/-- An encryption that succeeds wraps for the keys it names, and a decryption that succeeds opens
with a session of the key it names. -/
def BoundToNamed (P : Platform Account Session) (session : E2eeSession Account Session) :
    Call → Prop
  | .encrypt chatId messageId senderUsername plaintext recipients draws => ∀ payload session',
      encrypt P chatId messageId senderUsername plaintext recipients draws session =
        (.ok payload, session') →
      AllWrappedForNamed P draws.contentKey.toList (messageAad chatId messageId senderUsername)
        draws.ratchet (beginOutbound P messageId session.state).2 recipients
        (payload.envelopes.map (·.wrappedKey))
  | .decrypt input draws => ∀ decryption session',
      decrypt P input draws session = (.ok decryption, session') → OpenedByNamed P session.state input
  | _ => True

/-- All calls of a run are bound to the keys they name if these are the keys of one directory, with
which the sessions at the start of the run were opened. -/
theorem identity_binding (P : Platform Account Session) {directory : Text → Bytes}
    {start : E2eeSession Account Session} (hstart : Held P (Agrees P directory) start.state)
    {calls : List Call} (hcalls : ∀ call ∈ calls, call.names directory) :
    Along (BoundToNamed P) (step P) start calls := by
  have hguarded : Along (fun _ call => call.names directory) (step P) start calls :=
    .of_forall (fun _ => hcalls) start
  refine @Along.strengthen _ _ _ _ (fun session => Held P (Agrees P directory) session.state) _
    (fun _ _ => (agrees_stable P directory).step) (fun session call h hnames => ?_) _ _ hstart hguarded
  cases call with
  | encrypt => exact fun _ _ => h.now.encrypt_named hnames
  | decrypt => exact fun _ _ => h.now.decrypt_named hnames
  | _ => trivial

section

open SecondKey

theorem agrees_start (directory : Text → Bytes) :
    Held Clear.platform (Agrees Clear.platform directory) start.state := by
  refine .of_idle (fun key sessions hget => ?_) rfl
  rw [OrdMap.get?_of_size_eq_zero (by decide) key] at hget
  cases hget

theorem first_names : ∀ call ∈ first, call.names fun _ => identityOf (bundle 8) := by
  intro call hcall
  simp only [first, mem_cons, not_mem_nil, or_false] at hcall
  rcases hcall with rfl | rfl | rfl
  · trivial
  · intro recipient hrecipient
    rw [List.mem_singleton.mp hrecipient]
    rfl
  · trivial

theorem identity_binding_first :
    Along (BoundToNamed Clear.platform) (step Clear.platform) start first :=
  identity_binding Clear.platform (agrees_start _) first_names

end

/-- The next message, either way, is wrapped for and attributed to the key it names, if that is the
key of the directory. -/
def BindsNamed (P : Platform Account Session) (directory : Text → Bytes)
    (session : E2eeSession Account Session) : Prop :=
  (∀ chatId messageId senderUsername plaintext recipients draws payload session',
    (∀ recipient ∈ recipients,
      identityOf recipient.publicKey = directory (peerKey recipient.username)) →
    encrypt P chatId messageId senderUsername plaintext recipients draws session =
      (.ok payload, session') →
    AllWrappedForNamed P draws.contentKey.toList (messageAad chatId messageId senderUsername)
      draws.ratchet (beginOutbound P messageId session.state).2 recipients
      (payload.envelopes.map (·.wrappedKey))) ∧
  ∀ input draws decryption session',
    identityOf input.senderPublicKey = directory (peerKey input.senderUsername) →
    decrypt P input draws session = (.ok decryption, session') →
    OpenedByNamed P session.state input

/-- If all calls of a run name the keys of one directory, and the sessions at its start are with
those keys, every message is wrapped for and attributed to the named key. -/
theorem named_of_directory {start : E2eeSession Account Session}
    (hstart : Held P (Agrees P directory) start.state) {calls : List Call}
    (hcalls : Along (fun _ call => call.names directory) (step P) start calls) :
    BindsNamed P directory (after P start calls) := by
  have hagrees := ((agrees_stable P directory).run hstart hcalls).now
  exact ⟨fun _ _ _ _ _ _ _ _ => hagrees.encrypt_named, fun _ _ _ _ => hagrees.decrypt_named⟩

open SecondKey in
theorem named_of_directory_first : BindsNamed Clear.platform (fun _ => identityOf (bundle 8))
    (after Clear.platform start first) :=
  named_of_directory (agrees_start _) (.of_forall (fun _ => first_names) start)

end

end Abyssal.Client
