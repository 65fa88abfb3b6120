import Abyssal.Client.Transactions

/-! What the successful ratchet steps do to the state: sessions of one peer move on, each keeping its
id and its remote identity, or a new session is stored behind them. -/

namespace Abyssal.Client

open List Command

variable {Account Session : Type} {P : Platform Account Session}
  {s s₁ s₂ : E2eeState Account Session} {key : Text}
  {draw : Nat} {opened : Bytes × Bool} {sessions : List Session} {senderIdentity : Bytes}
  {message : OlmMessage} {prekeyId : Text} {recipient : RecipientPublicKey}

def SameSession (P : Platform Account Session) (a b : Session) : Prop :=
  P.olm.sessionId b = P.olm.sessionId a ∧ P.olm.remoteIdentity b = P.olm.remoteIdentity a

def Moved (P : Platform Account Session) (key : Text) (s s' : E2eeState Account Session) : Prop :=
  ∃ sessions sessions', s.sessions.get? key = some sessions ∧
    List.Forall₂ (SameSession P) sessions sessions' ∧ s' = setSessions s key sessions'

theorem SameSession.refl (session : Session) : SameSession P session session := ⟨rfl, rfl⟩

theorem sameSessions_refl (sessions : List Session) :
    List.Forall₂ (SameSession P) sessions sessions :=
  forall₂_same.mpr fun session _ => .refl session

variable {sessions' : List Session} {session : Session}

theorem SameSession.encrypt (session : Session) (plain : Bytes) (draw : Nat) :
    SameSession P session (P.olm.encrypt session plain draw).2 :=
  ⟨P.olm.id_encrypt session plain draw, P.olm.remote_encrypt session plain draw⟩

theorem SameSession.decrypt (session : Session) (message : OlmMessage) :
    SameSession P session (P.olm.decrypt session message).2 :=
  ⟨P.olm.id_decrypt session message, P.olm.remote_decrypt session message⟩

theorem sessionsOf_eq (h : s.sessions.get? key = some sessions) : sessionsOf s key = sessions := by
  rw [sessionsOf, h]
  rfl

theorem lastSession_eq_some :
    lastSession s key = some session ↔
      ∃ front, s.sessions.get? key = some (front ++ [session]) := by
  rw [lastSession, Option.bind_eq_some_iff]
  constructor
  · rintro ⟨sessions, hget, hlast⟩
    exact ⟨sessions.dropLast, by rw [dropLast_append_getLast? session hlast, hget]⟩
  · rintro ⟨front, hget⟩
    exact ⟨front ++ [session], hget, getLast?_concat⟩

inductive Opened (P : Platform Account Session) (recipient : RecipientPublicKey) (draw : Nat)
    (s : E2eeState Account Session) : E2eeState Account Session → Prop
  | reused (hneeds : needsNewSession P s (peerKey recipient.username) recipient.prekeyId = false) :
      Opened P recipient draw s s
  | created {selected : Bytes} {session : Session}
      (hneeds : needsNewSession P s (peerKey recipient.username) recipient.prekeyId = true)
      (hroom : s.sessions.contains (peerKey recipient.username) ∨ s.sessions.size < maxPeers)
      (hselected : selectedPrekeyPublic P.keys recipient.publicKey recipient.prekeyId = .ok selected)
      (hcreated : P.olm.createOutboundSession s.account (recipient.publicKey.take 32) selected draw =
        some session) :
      Opened P recipient draw s
        (storeSession P s (peerKey recipient.username) session recipient.prekeyId)

theorem room_of_not_full (h : ¬ (¬ s.sessions.contains key ∧ maxPeers ≤ s.sessions.size)) :
    s.sessions.contains key ∨ s.sessions.size < maxPeers := by
  by_cases hcontains : s.sessions.contains key
  · exact .inl hcontains
  · exact .inr (not_le.mp fun hfull => h ⟨hcontains, hfull⟩)

theorem openOutbound_ok (h : openOutbound P recipient draw s = (.ok (), s₁)) :
    Opened P recipient draw s s₁ := by
  rw [openOutbound, get_bind] at h
  cases hneeds : needsNewSession P s (peerKey recipient.username) recipient.prekeyId with
  | false =>
    rw [hneeds, if_neg Bool.false_ne_true] at h
    obtain ⟨-, rfl⟩ := pure_eq_ok.mp h
    exact .reused hneeds
  | true =>
    rw [hneeds, if_pos rfl] at h
    obtain ⟨_, hroom, h⟩ := check_bind_eq_ok.mp h
    obtain ⟨selected, hselected, h⟩ := check_bind_eq_ok.mp h
    obtain ⟨session, hcreated, h⟩ := check_bind_eq_ok.mp h
    rw [← (Prod.mk.inj h).2]
    exact .created hneeds (room_of_not_full (rejectIf_eq_ok.mp hroom)) hselected
      (okOr_eq_ok.mp hcreated)

structure Wrapped (P : Platform Account Session) (contentKey aad : Bytes)
    (recipient : RecipientPublicKey) (draw : Nat) (s : E2eeState Account Session)
    (wrapped : WrappedContentKey) (s' : E2eeState Account Session) (session : Session) : Prop where
  last : lastSession s (peerKey recipient.username) = some session
  made : ∃ message,
    (P.olm.encrypt session (boundContentKey P contentKey aad recipient.username) draw).1 =
      some message ∧ P.encodeMessage message = some wrapped.bytes
  moved : Moved P (peerKey recipient.username) s s'

variable {contentKey aad : Bytes}

theorem encryptWithLast_ok {wrapped : WrappedContentKey}
    (h : encryptWithLast P contentKey aad recipient draw s = (.ok wrapped, s₁)) :
    ∃ session, Wrapped P contentKey aad recipient draw s wrapped s₁ session := by
  rw [encryptWithLast, get_bind] at h
  obtain ⟨session, hlast, h⟩ := check_bind_eq_ok.mp h
  obtain ⟨prekeyId, -, h⟩ := check_bind_eq_ok.mp h
  rw [modify_bind] at h
  obtain ⟨message, hmessage, h⟩ := check_bind_eq_ok.mp h
  obtain ⟨encoded, hencoded, h⟩ := check_bind_eq_ok.mp h
  obtain ⟨_, -, h⟩ := check_bind_eq_ok.mp h
  obtain ⟨rfl, rfl⟩ := pure_eq_ok.mp h
  have hsession := okOr_eq_ok.mp hlast
  obtain ⟨front, hget⟩ := lastSession_eq_some.mp hsession
  refine ⟨session, hsession, ⟨message, okOr_eq_ok.mp hmessage, okOr_eq_ok.mp hencoded⟩,
    front ++ [session], _, hget, ?_, rfl⟩
  rw [sessionsOf_eq hget, dropLast_concat]
  exact rel_append (sameSessions_refl front) (.cons (.encrypt session _ _) .nil)

theorem wrapFor_ok {ratchet : Text → Nat} {envelope : RecipientEnvelope}
    (h : wrapFor P contentKey aad ratchet recipient s = (.ok envelope, s₂)) :
    ∃ s₁ wrapped session, openOutbound P recipient (ratchet recipient.username) s = (.ok (), s₁) ∧
      Wrapped P contentKey aad recipient (ratchet recipient.username) s₁ wrapped s₂ session ∧
      envelope.wrappedKey = wrapped.bytes := by
  obtain ⟨wrapped, s', hwrap, h⟩ := ok_bind.mp h
  obtain ⟨rfl, rfl⟩ := pure_eq_ok.mp h
  obtain ⟨_, s₁, hopen, hencrypt⟩ := ok_bind.mp hwrap
  obtain ⟨session, hwrapped⟩ := encryptWithLast_ok hencrypt
  exact ⟨s₁, wrapped, session, hopen, hwrapped, rfl⟩

theorem decryptWith_none {id : Text} (h : decryptWith P message id sessions = none) :
    sessions.find? (P.olm.sessionId · = id) = none := by
  induction sessions with
  | nil => rfl
  | cons session rest ih =>
    rw [decryptWith] at h
    by_cases hid : P.olm.sessionId session = id
    · rw [if_pos hid] at h
      cases h
    · rw [if_neg hid, Option.map_eq_none_iff] at h
      rw [find?_cons, decide_eq_false hid]
      exact ih h

theorem decryptWith_some {id : Text} {plain : Option Bytes}
    (h : decryptWith P message id sessions = some (plain, sessions')) :
    (∃ session, sessions.find? (P.olm.sessionId · = id) = some session ∧
      (P.olm.decrypt session message).1 = plain) ∧
    List.Forall₂ (SameSession P) sessions sessions' := by
  induction sessions generalizing sessions' with
  | nil => cases h
  | cons session rest ih =>
    rw [decryptWith] at h
    by_cases hid : P.olm.sessionId session = id
    · rw [if_pos hid] at h
      obtain ⟨rfl, rfl⟩ := Prod.mk.inj (Option.some.inj h)
      refine ⟨⟨session, ?_, rfl⟩, .cons (.decrypt session message) (sameSessions_refl rest)⟩
      rw [find?_cons, decide_eq_true hid]
    · rw [if_neg hid] at h
      obtain ⟨⟨plain', rest'⟩, hrest, hpair⟩ := Option.map_eq_some_iff.mp h
      obtain ⟨rfl, rfl⟩ := Prod.mk.inj hpair
      obtain ⟨⟨found, hfind, hplain⟩, hsame⟩ := ih hrest
      refine ⟨⟨found, ?_, hplain⟩, .cons (.refl session) hsame⟩
      rw [find?_cons, decide_eq_false hid]
      exact hfind

theorem decryptAny_spec (message : OlmMessage) (sessions : List Session) :
    (decryptAny P message sessions).1 =
      (sessions.find? fun session => (P.olm.decrypt session message).1.isSome).bind
        (fun session => (P.olm.decrypt session message).1) ∧
    List.Forall₂ (SameSession P) sessions (decryptAny P message sessions).2 := by
  induction sessions with
  | nil => exact ⟨rfl, .nil⟩
  | cons session rest ih =>
    have hsame := SameSession.decrypt (P := P) session message
    rw [decryptAny, find?_cons]
    cases hrun : P.olm.decrypt session message with
    | mk plain session' =>
      rw [hrun] at hsame
      cases plain with
      | some plain =>
        refine ⟨?_, .cons hsame (sameSessions_refl rest)⟩
        simp [hrun]
      | none => exact ⟨ih.1, .cons hsame ih.2⟩

def heldSession (P : Platform Account Session) (s : E2eeState Account Session) (key : Text)
    (message : OlmMessage) : Option Session :=
  match message with
  | .preKey _ id _ => (sessionsOf s key).find? (P.olm.sessionId · = id)
  | .normal _ =>
    (sessionsOf s key).reverse.find? fun session => (P.olm.decrypt session message).1.isSome

inductive Unwrapped (P : Platform Account Session) (key : Text) (senderIdentity : Bytes)
    (message : OlmMessage) (prekeyId : Text) (s : E2eeState Account Session) (plain : Bytes) :
    Session → Bool → E2eeState Account Session → Prop
  | held {session : Session} {s' : E2eeState Account Session}
      (hheld : heldSession P s key message = some session)
      (hplain : (P.olm.decrypt session message).1 = some plain) (hmoved : Moved P key s s') :
      Unwrapped P key senderIdentity message prekeyId s plain session false s'
  | created {session : Session} {account : Account} (hprekey : message.isPreKey = true)
      (hnone : heldSession P s key message = none)
      (hroom : s.sessions.contains key ∨ s.sessions.size < maxPeers)
      (hcreated : P.olm.createInboundSession s.account senderIdentity message =
        (some (session, plain), account)) :
      Unwrapped P key senderIdentity message prekeyId s plain session true
        (storeSession P { s with account := account } key session prekeyId)

variable {body : Bytes}

theorem openPreKey_ok {oneTimeKey : Bytes} {id : Text}
    (h : openPreKey P key senderIdentity (.preKey oneTimeKey id body) id prekeyId s =
      (.ok opened, s₁)) : ∃ session, Unwrapped P key senderIdentity (.preKey oneTimeKey id body)
        prekeyId s opened.1 session opened.2 s₁ := by
  rw [openPreKey, get_bind] at h
  cases hheld : decryptWith P (.preKey oneTimeKey id body) id (sessionsOf s key) with
  | some result =>
    obtain ⟨plain, sessions'⟩ := result
    rw [hheld] at h
    change (Command.modify _ >>= _) s = _ at h
    rw [modify_bind] at h
    obtain ⟨plain', hplain, h⟩ := check_bind_eq_ok.mp h
    obtain ⟨rfl, rfl⟩ := pure_eq_ok.mp h
    obtain ⟨⟨session, hfind, hdecrypt⟩, hsame⟩ := decryptWith_some hheld
    refine ⟨session, .held hfind (hdecrypt.trans (okOr_eq_ok.mp hplain)) ?_⟩
    cases hget : s.sessions.get? key with
    | none =>
      rw [sessionsOf, hget] at hfind
      cases hfind
    | some sessions => exact ⟨sessions, sessions', hget, sessionsOf_eq hget ▸ hsame, rfl⟩
  | none =>
    rw [hheld] at h
    obtain ⟨_, hroom, h⟩ := check_bind_eq_ok.mp h
    rw [modify_bind] at h
    obtain ⟨⟨session, plain⟩, hcreated, h⟩ := check_bind_eq_ok.mp h
    rw [modify_bind] at h
    obtain ⟨rfl, rfl⟩ := pure_eq_ok.mp h
    exact ⟨session, .created rfl (decryptWith_none hheld)
      (room_of_not_full (rejectIf_eq_ok.mp hroom)) (Prod.ext (okOr_eq_ok.mp hcreated) rfl)⟩

theorem openNormal_ok (h : openNormal P key (.normal body) s = (.ok opened, s₁)) :
    ∃ session, Unwrapped P key senderIdentity (.normal body) prekeyId s opened.1 session opened.2
      s₁ := by
  rw [openNormal, get_bind] at h
  obtain ⟨sessions, hget, h⟩ := check_bind_eq_ok.mp h
  rw [modify_bind] at h
  obtain ⟨plain, hplain, h⟩ := check_bind_eq_ok.mp h
  obtain ⟨rfl, rfl⟩ := pure_eq_ok.mp h
  obtain ⟨hfirst, hsame⟩ := decryptAny_spec (P := P) (.normal body) sessions.reverse
  have hget := okOr_eq_ok.mp hget
  obtain ⟨session, hfind, hdecrypt⟩ :=
    Option.bind_eq_some_iff.mp (hfirst.symm.trans (okOr_eq_ok.mp hplain))
  refine ⟨session, .held ?_ hdecrypt ⟨sessions, _, hget, ?_, rfl⟩⟩
  · rw [heldSession, sessionsOf_eq hget]
    exact hfind
  · have hreversed := rel_reverse hsame
    rwa [reverse_reverse] at hreversed

theorem openMessage_ok
    (h : openMessage P key senderIdentity message prekeyId s = (.ok opened, s₁)) :
    ∃ session, Unwrapped P key senderIdentity message prekeyId s opened.1 session opened.2 s₁ := by
  cases message with
  | preKey oneTimeKey id body => exact openPreKey_ok h
  | normal body => exact openNormal_ok h

structure KeyOpened (P : Platform Account Session) (input : DecryptInput)
    (s : E2eeState Account Session) (message : OlmMessage) (contentKey : Bytes) (session : Session)
    (used : Bool) (s' : E2eeState Account Session) : Prop where
  decoded : P.decodeMessage input.wrappedKey = some message
  prekey_valid : validPrekeyId input.recipientPrekeyId = true
  prekey_announced : message.isPreKey = input.isPrekey
  prekey_named : input.isPrekey = true → input.recipientPrekeyId ≠ []
  unwrapped : Unwrapped P (peerKey input.senderUsername) (input.senderPublicKey.take 32) message
    input.recipientPrekeyId s
    (contentKey ++ contentKeyBinding P input.aad input.recipientUsername) session used s'

variable {input : DecryptInput}

theorem ratchetUnwrapContentKey_ok
    (h : ratchetUnwrapContentKey P input.senderUsername input.senderPublicKey input.wrappedKey
      input.aad ⟨input.recipientPrekeyId, input.isPrekey, input.recipientUsername⟩ s =
      (.ok opened, s₁)) :
    ∃ message session, KeyOpened P input s message opened.1 session opened.2 s₁ := by
  obtain ⟨_, -, h⟩ := check_bind_eq_ok.mp h
  obtain ⟨message, hdecoded, h⟩ := check_bind_eq_ok.mp h
  obtain ⟨_, hannounced, h⟩ := check_bind_eq_ok.mp h
  obtain ⟨⟨plain, used⟩, s', hopen, h⟩ := ok_bind.mp h
  obtain ⟨_, -, h⟩ := check_bind_eq_ok.mp h
  obtain ⟨_, hbinding, h⟩ := check_bind_eq_ok.mp h
  obtain ⟨rfl, rfl⟩ := pure_eq_ok.mp h
  obtain ⟨session, hunwrapped⟩ := openMessage_ok hopen
  have hannounced := rejectIf_eq_ok.mp hannounced
  simp only [not_or, not_not] at hannounced
  obtain ⟨hvalid, hkind, hnamed, -⟩ := hannounced
  have hplain : plain.take 32 ++ contentKeyBinding P input.aad input.recipientUsername = plain := by
    rw [← not_not.mp (rejectIf_eq_ok.mp hbinding), take_append_drop]
  refine ⟨message, session, okOr_eq_ok.mp hdecoded, hvalid, hkind, fun hprekey hempty => ?_, ?_⟩
  · exact hnamed (by rw [hprekey, hempty]; rfl)
  · rw [hplain]
    exact hunwrapped

structure Replenished (P : Platform Account Session) (consumedId : Text) (draw : Nat)
    (s s' : E2eeState Account Session) : Prop where
  consumed : ∃ prekey ∈ s.prekeys, prekey.id = consumedId
  replaced : ∃ replacement : StoredPrekey, replacement.id ≠ consumedId ∧
    (∀ prekey ∈ s.prekeys, prekey.id ≠ replacement.id) ∧
    s' = { s with
      account := P.olm.markKeysAsPublished (P.olm.generateOneTimeKeys s.account 1 draw).2
      prekeys := sortPrekeys (s.prekeys.eraseP (·.id = consumedId) ++ [replacement]) }
  pool : validatePrekeyPool P s'.prekeys = .ok ()
  material : validateAccountPrekeyMaterial P (P.olm.pickleAccount s'.account) s'.prekeys = .ok ()

theorem replenishConsumedPrekey_ok {consumedId : Text}
    (h : replenishConsumedPrekey P consumedId draw s = (.ok (), s₁)) :
    Replenished P consumedId draw s s₁ := by
  rw [replenishConsumedPrekey, get_bind] at h
  obtain ⟨_, hconsumed, h⟩ := check_bind_eq_ok.mp h
  rw [modify_bind] at h
  obtain ⟨_, -, h⟩ := check_bind_eq_ok.mp h
  obtain ⟨publicKey, -, h⟩ := check_bind_eq_ok.mp h
  obtain ⟨_, hnew, h⟩ := check_bind_eq_ok.mp h
  rw [modify_bind, get_bind] at h
  obtain ⟨_, hpool, h⟩ := check_bind_eq_ok.mp h
  obtain ⟨hmaterial, rfl⟩ := check_eq_ok.mp h
  have hconsumed := rejectIf_eq_ok.mp hconsumed
  have hnew := rejectIf_eq_ok.mp hnew
  simp only [not_not, any_eq_true, decide_eq_true_eq] at hconsumed
  simp only [not_or, any_eq_true, decide_eq_true_eq, not_exists, not_and] at hnew
  exact ⟨hconsumed, ⟨⟨prekeyIdForPublic P.keys publicKey, publicKey⟩, hnew.1, hnew.2, rfl⟩, hpool,
    hmaterial⟩

theorem openPayload_ok {plaintext : Bytes} (h : openPayload P input draw s = (.ok plaintext, s₂)) :
    ∃ message contentKey session used s₁, KeyOpened P input s message contentKey session used s₁ ∧
      (used = false ∧ s₂ = s₁ ∨ used = true ∧ Replenished P input.recipientPrekeyId draw s₁ s₂) := by
  obtain ⟨⟨contentKey, used⟩, s₁, hkey, h⟩ := ok_bind.mp h
  obtain ⟨_, -, h⟩ := check_bind_eq_ok.mp h
  obtain ⟨_, -, h⟩ := check_bind_eq_ok.mp h
  obtain ⟨_, s', hreplenish, h⟩ := ok_bind.mp h
  obtain ⟨rfl, rfl⟩ := pure_eq_ok.mp h
  obtain ⟨message, session, hopened⟩ := ratchetUnwrapContentKey_ok hkey
  refine ⟨message, contentKey, session, used, s₁, hopened, ?_⟩
  cases used with
  | false =>
    obtain ⟨-, rfl⟩ := pure_eq_ok.mp hreplenish
    exact .inl ⟨rfl, rfl⟩
  | true => exact .inr ⟨rfl, replenishConsumedPrekey_ok hreplenish⟩

end Abyssal.Client
