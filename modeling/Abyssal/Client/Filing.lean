import Abyssal.Base.Groups
import Abyssal.Client.Prekeys
import Abyssal.Rooms.Roster

/-! How the sessions of a state are filed: at most 256 peers under canonical names, one to four
sessions for each, no session id twice, and one prekey id for each session and for nothing else. The
ratchets keep this as long as new sessions have new ids. -/

namespace Abyssal.Client

open OrdMap List

variable {Account Session : Type} {P : Platform Account Session}
  {s s₁ s₂ : E2eeState Account Session} {key : Text}

theorem peerKey_idem (username : Text) : peerKey (peerKey username) = peerKey username :=
  Rooms.toAsciiLowercase_idem username

theorem validateUsername_peerKey (username : Text) :
    validateUsername (peerKey username) = validateUsername username := by
  rw [validateUsername, peerKey, Rooms.all_isIdByte_lower, toAsciiLowercase, length_map]
  simp only [ne_eq, map_eq_nil_iff]
  rfl

theorem hexDigit_valid {n : Nat} (h : n < 16) :
    hexDigit n < 128 ∧ isIdByte (hexDigit n) = true := by
  have hall : ∀ n < 16, hexDigit n < 128 ∧ isIdByte (hexDigit n) = true := by decide
  exact hall n h

theorem hex_valid (bytes : Bytes) : isAscii (hex bytes) = true ∧ (hex bytes).all isIdByte = true := by
  have hdigits : ∀ b ∈ hex bytes, b < 128 ∧ isIdByte b = true := by
    intro b hb
    obtain ⟨byte, -, hb⟩ := mem_flatMap.mp hb
    have hbound := byte.toNat_lt
    rcases mem_cons.mp hb with rfl | hb
    · exact hexDigit_valid (by omega)
    · obtain rfl := mem_singleton.mp hb
      exact hexDigit_valid (by omega)
  rw [isAscii, all_eq_true, all_eq_true]
  exact ⟨fun b hb => decide_eq_true (hdigits b hb).1, fun b hb => (hdigits b hb).2⟩

theorem length_hex (bytes : Bytes) : (hex bytes).length = bytes.length * 2 := by
  induction bytes with
  | nil => rfl
  | cons b bytes ih =>
    rw [hex, flatMap_cons, length_append, ← hex, ih, length_cons]
    simp only [length_cons, length_nil]
    omega

theorem prekeyIdForPublic_valid (keys : KeyChecks) (publicKey : Bytes) :
    validPrekeyId (prekeyIdForPublic keys publicKey) = true := by
  obtain ⟨hascii, hbytes⟩ := hex_valid
    ((keys.sha256 (canonicalParts [ascii "ABYSSAL_PREKEY_ID_V1", publicKey])).take 16)
  have hlength : (prekeyIdForPublic keys publicKey).length ≤ 32 := by
    rw [prekeyIdForPublic, length_hex, length_take]
    omega
  simp only [validPrekeyId, Bool.and_eq_true, decide_eq_true_eq]
  exact ⟨⟨hlength, hascii⟩, hbytes⟩

def idsAt (P : Platform Account Session) (s : E2eeState Account Session) (key : Text) :
    Option (List Text) := (s.sessions.get? key).map (List.map P.olm.sessionId)

structure Filed (P : Platform Account Session) (s : E2eeState Account Session) : Prop where
  peers : s.sessions.size ≤ maxPeers
  named : ∀ key sessions, s.sessions.get? key = some sessions →
    validateUsername key = .ok () ∧ peerKey key = key
  grouped : Grouped maxSessionsPerPeer (idsAt P s) fun id => s.sessionPrekeys.contains id
  prekeys : ∀ id prekeyId, s.sessionPrekeys.get? id = some prekeyId →
    prekeyId ≠ [] ∧ validPrekeyId prekeyId = true

def NewId (P : Platform Account Session) (s : E2eeState Account Session) (id : Text) : Prop :=
  ∀ key sessions, s.sessions.get? key = some sessions → ∀ session ∈ sessions,
    P.olm.sessionId session ≠ id

theorem Filed.of_eq (h : Filed P s) (hsessions : s₁.sessions = s.sessions)
    (hprekeys : s₁.sessionPrekeys = s.sessionPrekeys) : Filed P s₁ where
  peers := by rw [hsessions]; exact h.peers
  named := by rw [hsessions]; exact h.named
  grouped := h.grouped.congr (fun key => by rw [idsAt, hsessions, idsAt]) fun id => by rw [hprekeys]
  prekeys := by rw [hprekeys]; exact h.prekeys

theorem sameSessions_ids {sessions sessions' : List Session}
    (h : List.Forall₂ (SameSession P) sessions sessions') :
    sessions'.map P.olm.sessionId = sessions.map P.olm.sessionId := by
  induction h with
  | nil => rfl
  | cons hsame _ ih => rw [map_cons, map_cons, hsame.1, ih]

theorem Filed.moved (h : Filed P s) (hmoved : Moved P key s s₁) : Filed P s₁ := by
  obtain ⟨sessions, sessions', hget, hsame, rfl⟩ := hmoved
  refine ⟨?_, ?_, h.grouped.congr (fun key' => ?_) fun _ => Iff.rfl, h.prekeys⟩
  · rw [setSessions, size_insert_of_get? hget]
    exact h.peers
  · intro key' other hother
    rw [setSessions, get?_insert] at hother
    split_ifs at hother with hkey
    · exact hkey ▸ h.named key sessions hget
    · exact h.named key' other hother
  · rw [idsAt, idsAt, setSessions, get?_insert]
    split_ifs with hkey
    · rw [← hkey, hget, Option.map_some, Option.map_some, sameSessions_ids hsame]
    · rfl

variable (P s key) in
theorem idsAt_getD :
    (idsAt P s key).getD [] = (sessionsOf s key).map P.olm.sessionId := by
  rw [idsAt, sessionsOf]
  cases s.sessions.get? key <;> rfl

variable (P s key) in
theorem idsAt_storeSession (session : Session) (prekeyId : Text) (key' : Text) :
    idsAt P (storeSession P s key session prekeyId) key' =
      if key' = key then
        some (kept maxSessionsPerPeer ((idsAt P s key).getD []) ++ [P.olm.sessionId session])
      else idsAt P s key' := by
  rw [idsAt, storeSession, get?_insert, idsAt_getD, kept, length_map]
  by_cases hkey : key = key'
  · rw [if_pos hkey, if_pos hkey.symm]
    split_ifs <;> simp [map_tail]
  · rw [if_neg hkey, if_neg (Ne.symm hkey), idsAt]

variable (P s key) in
theorem get?_sessionPrekeys_storeSession (session : Session) (prekeyId id : Text) :
    (storeSession P s key session prekeyId).sessionPrekeys.get? id =
      if P.olm.sessionId session = id then some prekeyId
      else if evicted maxSessionsPerPeer ((idsAt P s key).getD []) = some id then none
      else s.sessionPrekeys.get? id := by
  rw [storeSession, get?_insert, idsAt_getD, evicted, length_map, head?_map]
  by_cases hid : P.olm.sessionId session = id
  · rw [if_pos hid, if_pos hid]
  · rw [if_neg hid, if_neg hid]
    cases hevicted : (if maxSessionsPerPeer ≤ (sessionsOf s key).length then
      (sessionsOf s key).head?.map P.olm.sessionId else none) with
    | none => rw [if_neg (by simp)]
    | some out =>
      simp only [get?_erase, Option.some.injEq, eq_comm]

theorem Filed.new_not_indexed (h : Filed P s) {id : Text} (hnew : NewId P s id) :
    ¬ s.sessionPrekeys.contains id := by
  intro hindexed
  obtain ⟨key, ids, hids, hmem⟩ := (h.grouped.indexed id).mp hindexed
  obtain ⟨sessions, hget, rfl⟩ := Option.map_eq_some_iff.mp hids
  obtain ⟨session, hsession, hid⟩ := mem_map.mp hmem
  exact hnew key sessions hget session hsession hid

theorem Filed.stored (h : Filed P s) {session : Session} {prekeyId : Text}
    (hnew : NewId P s (P.olm.sessionId session))
    (hroom : s.sessions.contains key ∨ s.sessions.size < maxPeers)
    (hname : validateUsername key = .ok () ∧ peerKey key = key)
    (hprekey : prekeyId ≠ [] ∧ validPrekeyId prekeyId = true) :
    Filed P (storeSession P s key session prekeyId) where
  peers := by
    rw [storeSession]
    cases hget : s.sessions.get? key with
    | some sessions =>
      rw [size_insert_of_get? hget]
      exact h.peers
    | none =>
      rw [size_insert_new hget]
      rcases hroom with hcontains | hsize
      · rw [OrdMap.contains, hget] at hcontains
        cases hcontains
      · exact hsize
  named := by
    intro key' sessions hget
    rw [storeSession, get?_insert] at hget
    by_cases hkey : key = key'
    · exact hkey ▸ hname
    · rw [if_neg hkey] at hget
      exact h.named key' sessions hget
  grouped := by
    refine h.grouped.push (by decide) (h.new_not_indexed hnew)
      (idsAt_storeSession P s key session prekeyId) fun id => ?_
    rw [OrdMap.contains, get?_sessionPrekeys_storeSession, OrdMap.contains]
    split_ifs with hid hevicted
    · simp [hid]
    · simp [Ne.symm hid, hevicted]
    · simp [Ne.symm hid, hevicted]
  prekeys := by
    intro id stored hget
    rw [get?_sessionPrekeys_storeSession] at hget
    split_ifs at hget
    · obtain rfl := Option.some.inj hget
      exact hprekey
    · exact h.prekeys id stored hget

/-- Every session that the wrapping opens has an id that the state does not have by then. -/
def FreshWraps (P : Platform Account Session) (contentKey aad : Bytes) (ratchet : Text → Nat) :
    E2eeState Account Session → List RecipientPublicKey → Prop
  | _, [] => True
  | s, recipient :: recipients =>
    (∀ selected session,
      needsNewSession P s (peerKey recipient.username) recipient.prekeyId = true →
      selectedPrekeyPublic P.keys recipient.publicKey recipient.prekeyId = .ok selected →
      P.olm.createOutboundSession s.account (recipient.publicKey.take 32) selected
        (ratchet recipient.username) = some session →
      NewId P s (P.olm.sessionId session)) ∧
    FreshWraps P contentKey aad ratchet (wrapFor P contentKey aad ratchet recipient s).2 recipients

def FreshInbound (P : Platform Account Session) (s : E2eeState Account Session)
    (input : DecryptInput) : Prop :=
  ∀ message session plain account, P.decodeMessage input.wrappedKey = some message →
    heldSession P s (peerKey input.senderUsername) message = none →
    P.olm.createInboundSession s.account (input.senderPublicKey.take 32) message =
      (some (session, plain), account) →
    NewId P s (P.olm.sessionId session)

def Fresh (P : Platform Account Session) (session : E2eeSession Account Session) : Call → Prop
  | .encrypt chatId messageId senderUsername _ recipients draws =>
    FreshWraps P draws.contentKey.toList (messageAad chatId messageId senderUsername) draws.ratchet
      (beginOutbound P messageId session.state).2 recipients
  | .decrypt input _ => FreshInbound P session.state input
  | _ => True

def PrekeyIdsProper (P : Platform Account Session) : Prop :=
  ∀ publicKey, prekeyIdForPublic P.keys publicKey ≠ []

theorem selectedPrekey_valid (hids : PrekeyIdsProper P) {publicKey selected : Bytes}
    {prekeyId : Text} (h : selectedPrekeyPublic P.keys publicKey prekeyId = .ok selected) :
    prekeyId ≠ [] ∧ validPrekeyId prekeyId = true := by
  obtain ⟨_, -, hfind⟩ := bind_eq_ok.mp h
  have hid := find?_some (okOr_eq_ok.mp hfind)
  rw [decide_eq_true_eq] at hid
  rw [← hid]
  exact ⟨hids selected, prekeyIdForPublic_valid P.keys selected⟩

variable {contentKey aad : Bytes} {ratchet : Text → Nat}

theorem Filed.wrapped (hids : PrekeyIdsProper P) (h : Filed P s) {recipient : RecipientPublicKey}
    {envelope : RecipientEnvelope} (hname : validateUsername recipient.username = .ok ())
    (hfresh : ∀ selected session,
      needsNewSession P s (peerKey recipient.username) recipient.prekeyId = true →
      selectedPrekeyPublic P.keys recipient.publicKey recipient.prekeyId = .ok selected →
      P.olm.createOutboundSession s.account (recipient.publicKey.take 32) selected
        (ratchet recipient.username) = some session →
      NewId P s (P.olm.sessionId session))
    (hwrap : wrapFor P contentKey aad ratchet recipient s = (.ok envelope, s₂)) : Filed P s₂ := by
  obtain ⟨s₁, wrapped, session, hopen, hwrapped, -⟩ := wrapFor_ok hwrap
  have hopened : Filed P s₁ := by
    cases openOutbound_ok hopen with
    | reused _ => exact h
    | created hneeds hroom hselected hcreated =>
      exact h.stored (hfresh _ _ hneeds hselected hcreated) hroom
        ⟨(validateUsername_peerKey _).trans hname, peerKey_idem _⟩ (selectedPrekey_valid hids hselected)
  exact hopened.moved hwrapped.moved

variable {recipients : List RecipientPublicKey}

theorem validateRecipients_names {seen : List Text}
    (h : validateRecipients P seen recipients = .ok ()) :
    ∀ recipient ∈ recipients, validateUsername recipient.username = .ok () := by
  induction recipients generalizing seen with
  | nil => exact nofun
  | cons recipient recipients ih =>
    obtain ⟨_, hname, h⟩ := bind_eq_ok.mp h
    obtain ⟨_, -, h⟩ := bind_eq_ok.mp h
    obtain ⟨_, -, h⟩ := bind_eq_ok.mp h
    exact forall_mem_cons.mpr ⟨hname, ih h⟩

theorem Filed.all_wrapped (hids : PrekeyIdsProper P) (h : Filed P s)
    {envelopes : List RecipientEnvelope}
    (hnames : ∀ recipient ∈ recipients, validateUsername recipient.username = .ok ())
    (hfresh : FreshWraps P contentKey aad ratchet s recipients)
    (heach : Command.each (wrapFor P contentKey aad ratchet) recipients s = (.ok envelopes, s₂)) :
    Filed P s₂ := by
  induction recipients generalizing s envelopes with
  | nil =>
    obtain ⟨-, rfl⟩ := Command.pure_eq_ok.mp heach
    exact h
  | cons recipient recipients ih =>
    obtain ⟨envelope, s₁, hwrap, heach⟩ := Command.ok_bind.mp heach
    obtain ⟨rest, s', hrest, hdone⟩ := Command.ok_bind.mp heach
    obtain ⟨-, rfl⟩ := Command.pure_eq_ok.mp hdone
    have hlater := hfresh.2
    rw [hwrap] at hlater
    exact ih (h.wrapped hids (hnames recipient (mem_cons_self ..)) hfresh.1 hwrap)
      (fun r hr => hnames r (mem_cons_of_mem _ hr)) hlater hrest

theorem Filed.opened (h : Filed P s) {input : DecryptInput} {draw : Nat} {plaintext : Bytes}
    (hname : validateUsername input.senderUsername = .ok ()) (hfresh : FreshInbound P s input)
    (hopen : openPayload P input draw s = (.ok plaintext, s₂)) : Filed P s₂ := by
  obtain ⟨message, contentKey, opener, used, s₁, hopened, hend⟩ := openPayload_ok hopen
  have hkey : Filed P s₁ := by
    cases hopened.unwrapped with
    | held _ _ hmoved => exact h.moved hmoved
    | @created account hprekey hnone hroom hcreated =>
      have hannounced : input.isPrekey = true := hopened.prekey_announced ▸ hprekey
      have hstart : Filed P { s with account := account } := h.of_eq rfl rfl
      exact hstart.stored (hfresh _ _ _ _ hopened.decoded hnone hcreated) hroom
        ⟨(validateUsername_peerKey _).trans hname, peerKey_idem _⟩
        ⟨hopened.prekey_named hannounced, hopened.prekey_valid⟩
  obtain ⟨-, rfl⟩ | ⟨-, hreplenished⟩ := hend
  · exact hkey
  · obtain ⟨_, -, -, rfl⟩ := hreplenished.replaced
    exact hkey.of_eq rfl rfl

end Abyssal.Client
