import Abyssal.Client.Invariants
import Abyssal.Direct.Identity

/-! The prekey pool of a session and the relay's check of its changes. The client keeps sixteen
prekeys sorted by id and puts a new one in the place of each that an inbound session consumed. The
relay compares the ids of the bundle it stores with those of the next one as sets. -/

namespace Abyssal.Client

open List

variable {Account Session : Type} {P : Platform Account Session} {keys : KeyChecks}
  {s s₁ s₂ : E2eeState Account Session}
  {prekeys : List StoredPrekey} {previous prekeyId : Option Text}
  {session : E2eeSession Account Session}

theorem pairwise_snoc_lt {id : Text} {ids : List Text} :
    (previous.toList ++ id :: ids).Pairwise (· < ·) ↔
      (∀ value ∈ previous, value < id) ∧ (id :: ids).Pairwise (· < ·) := by
  cases previous with
  | none => simp
  | some value =>
    simp only [Option.toList_some, cons_append, nil_append, pairwise_cons,
      forall_mem_cons, Option.mem_def, Option.some.injEq, forall_eq']
    constructor
    · rintro ⟨⟨hlt, -⟩, hids⟩
      exact ⟨hlt, hids⟩
    · rintro ⟨hlt, hids⟩
      exact ⟨⟨hlt, fun other hother => hlt.trans (hids.1 other hother)⟩, hids⟩

theorem notAny_le_iff {id : Text} :
    ¬ (previous.any fun value => id ≤ value) ↔ ∀ value ∈ previous, value < id := by
  cases previous <;> simp

theorem checkPool_eq_ok {selected found : Bool} {pool : List Bytes} :
    checkPool keys prekeyId previous selected pool = .ok found ↔
      (previous.toList ++ pool.map (prekeyIdForPublic keys)).Pairwise (· < ·) ∧
      (∀ key ∈ pool, keys.contributory key = true) ∧
      found = (selected || pool.any fun key => prekeyId.any (· = prekeyIdForPublic keys key)) := by
  induction pool generalizing previous selected with
  | nil =>
    have hsorted : (previous.toList ++ []).Pairwise (· < ·) := by cases previous <;> simp
    rw [checkPool, Except.ok.injEq, any_nil, Bool.or_false]
    exact ⟨fun h => ⟨hsorted, nofun, h.symm⟩, fun h => h.2.2.symm⟩
  | cons key pool ih =>
    rw [checkPool, bind_eq_ok]
    simp only [rejectIf_eq_ok, notAny_le_iff, bind_eq_ok, ih, map_cons, pairwise_snoc_lt,
      Option.toList_some, cons_append, nil_append, forall_mem_cons, any_cons,
      Bool.or_assoc, not_not]
    constructor
    · rintro ⟨_, hprevious, _, hkey, hids, hpool, hfound⟩
      exact ⟨⟨hprevious, hids⟩, ⟨hkey, hpool⟩, hfound⟩
    · rintro ⟨⟨hprevious, hids⟩, ⟨hkey, hpool⟩, hfound⟩
      exact ⟨(), hprevious, (), hkey, hids, hpool, hfound⟩

structure BundleParts (keys : KeyChecks) (publicKey : Bytes) (prekeyId : Option Text) : Prop where
  length : publicKey.length = identityPublicBytes
  nonzero : ¬ (publicKey.take 32).all (· = 0) ∧ ¬ ((publicKey.drop 32).take 32).all (· = 0) ∧
    ¬ (publicKey.drop fallbackKeyOffset).all (· = 0)
  contributory : keys.contributory (publicKey.take 32) = true ∧
    keys.contributory (publicKey.drop fallbackKeyOffset) = true
  edwards : keys.edwardsKey ((publicKey.drop 32).take 32) = true
  sorted : ((oneTimeKeys publicKey).map (prekeyIdForPublic keys)).Pairwise (· < ·)
  pool : ∀ key ∈ oneTimeKeys publicKey, keys.contributory key = true
  selected : ∀ id ∈ prekeyId, ∃ key ∈ oneTimeKeys publicKey, prekeyIdForPublic keys key = id

theorem validateIdentityPublicBundle_eq_ok {publicKey : Bytes} :
    validateIdentityPublicBundle keys publicKey prekeyId = .ok () ↔
      BundleParts keys publicKey prekeyId := by
  have hselected : ∀ {found : Bool},
      found = (false || (oneTimeKeys publicKey).any fun key =>
        prekeyId.any (· = prekeyIdForPublic keys key)) →
      (¬ (prekeyId.isSome = true ∧ ¬ found = true) ↔
        ∀ id ∈ prekeyId, ∃ key ∈ oneTimeKeys publicKey, prekeyIdForPublic keys key = id) := by
    intro found hfound
    cases prekeyId with
    | none => simp
    | some id =>
      simp only [hfound, Bool.false_or, any_eq_true, Option.any_some, decide_eq_true_eq,
        Option.isSome_some, true_and, not_not, Option.mem_def, Option.some.injEq, forall_eq']
      constructor <;> rintro ⟨key, hmem, heq⟩ <;> exact ⟨key, hmem, heq.symm⟩
  unfold validateIdentityPublicBundle
  simp only [bind_eq_ok, rejectIf_eq_ok, checkPool_eq_ok, not_or, not_not]
  constructor
  · rintro ⟨_, hlength, _, hnonzero, _, hcontributory, _, hedwards, found, ⟨hsorted, hpool, hfound⟩,
      hchosen⟩
    exact ⟨hlength, hnonzero, hcontributory, hedwards, hsorted, hpool, (hselected hfound).mp hchosen⟩
  · rintro ⟨hlength, hnonzero, hcontributory, hedwards, hsorted, hpool, hchosen⟩
    exact ⟨(), hlength, (), hnonzero, (), hcontributory, (), hedwards, _, ⟨hsorted, hpool, rfl⟩,
      (hselected rfl).mpr hchosen⟩

theorem BundleParts.any {publicKey : Bytes} (h : BundleParts keys publicKey prekeyId) :
    BundleParts keys publicKey none :=
  { h with selected := nofun }

theorem checkPrekeys_ok (h : checkPrekeys P previous prekeys = .ok ()) :
    (∀ prekey ∈ prekeys, validatePrekeyBundle P prekey.id prekey.publicKey = .ok ()) ∧
      (previous.toList ++ prekeys.map (·.id)).Pairwise (· < ·) := by
  induction prekeys generalizing previous with
  | nil => exact ⟨nofun, by cases previous <;> simp⟩
  | cons prekey prekeys ih =>
    obtain ⟨_, hbundle, h⟩ := bind_eq_ok.mp h
    obtain ⟨hprevious, h⟩ := rejectIf_bind.mp h
    obtain ⟨hrest, hsorted⟩ := ih h
    refine ⟨forall_mem_cons.mpr ⟨hbundle, hrest⟩, pairwise_snoc_lt.mpr ⟨?_, hsorted⟩⟩
    exact notAny_le_iff.mp hprevious

structure PoolShape (keys : KeyChecks) (prekeys : List StoredPrekey) : Prop where
  size : prekeys.length = prekeyPoolSize
  lengths : ∀ prekey ∈ prekeys, prekey.publicKey.length = oneTimeKeyBytes
  ids : ∀ prekey ∈ prekeys, prekey.id = prekeyIdForPublic keys prekey.publicKey
  sorted : (prekeys.map (·.id)).Pairwise (· < ·)

theorem validatePrekeyPool_ok (h : validatePrekeyPool P prekeys = .ok ()) :
    PoolShape P.keys prekeys := by
  obtain ⟨hsize, h⟩ := rejectIf_bind.mp h
  obtain ⟨hbundles, hsorted⟩ := checkPrekeys_ok h
  refine ⟨not_not.mp hsize, fun prekey hmem => ?_, fun prekey hmem => ?_,
    hsorted⟩
  · obtain ⟨_, hshape, -⟩ := bind_eq_ok.mp (hbundles prekey hmem)
    exact not_not.mp (not_or.mp (rejectIf_eq_ok.mp hshape)).1
  · obtain ⟨_, -, hid⟩ := bind_eq_ok.mp (hbundles prekey hmem)
    exact not_not.mp (not_or.mp (rejectIf_eq_ok.mp hid)).2

theorem PoolShape.map_ids (h : PoolShape keys prekeys) :
    (prekeys.map (·.publicKey)).map (prekeyIdForPublic keys) = prekeys.map (·.id) := by
  rw [map_map]
  exact map_congr_left fun prekey hmem => (h.ids prekey hmem).symm

theorem chunksExact_flatMap {size : Nat} (h : ∀ prekey ∈ prekeys, prekey.publicKey.length = size)
    (rest : Bytes) :
    chunksExact size prekeys.length (prekeys.flatMap (·.publicKey) ++ rest) =
      prekeys.map (·.publicKey) := by
  induction prekeys with
  | nil => rfl
  | cons prekey prekeys ih =>
    have hlength := h prekey (mem_cons_self ..)
    rw [length_cons, chunksExact, flatMap_cons, append_assoc,
      take_left' hlength, drop_left' hlength,
      ih fun p hp => h p (mem_cons_of_mem _ hp), map_cons]

theorem length_flatMap_publicKey {size : Nat}
    (h : ∀ prekey ∈ prekeys, prekey.publicKey.length = size) :
    (prekeys.flatMap (·.publicKey)).length = prekeys.length * size := by
  induction prekeys with
  | nil => simp
  | cons prekey prekeys ih =>
    rw [flatMap_cons, length_append, h prekey (mem_cons_self ..),
      ih fun p hp => h p (mem_cons_of_mem _ hp), length_cons, Nat.add_mul, Nat.one_mul,
      Nat.add_comm]

structure PublicKeyParts (P : Platform Account Session) (s : E2eeState Account Session) : Prop where
  curve : (publicKeyFromState P s).take 32 = P.olm.curve25519 s.account
  ed : ((publicKeyFromState P s).drop 32).take 32 = P.olm.ed25519 s.account
  pool : oneTimeKeys (publicKeyFromState P s) = s.prekeys.map (·.publicKey)
  fallback : (publicKeyFromState P s).drop fallbackKeyOffset = s.fallbackPublic
  length : (publicKeyFromState P s).length = fallbackKeyOffset + s.fallbackPublic.length

theorem publicKey_parts (h : PoolShape P.keys s.prekeys) : PublicKeyParts P s := by
  have hcurve := P.olm.length_curve25519 s.account
  have hed := P.olm.length_ed25519 s.account
  have hpool : (s.prekeys.flatMap (·.publicKey)).length = prekeyPoolSize * oneTimeKeyBytes := by
    rw [length_flatMap_publicKey h.lengths, h.size]
  have hidentity : (P.olm.curve25519 s.account ++ P.olm.ed25519 s.account).length =
      oneTimeKeyOffset := by
    rw [length_append, hcurve, hed]
    rfl
  have hfront : (P.olm.curve25519 s.account ++ P.olm.ed25519 s.account ++
      s.prekeys.flatMap (·.publicKey)).length = fallbackKeyOffset := by
    rw [length_append, hidentity, hpool]
    rfl
  refine ⟨?_, ?_, ?_, ?_, ?_⟩
  · rw [publicKeyFromState, append_assoc, append_assoc, take_left' hcurve]
  · rw [publicKeyFromState, append_assoc, append_assoc, drop_left' hcurve,
      take_left' hed]
  · rw [oneTimeKeys, publicKeyFromState, append_assoc, drop_left' hidentity, ← h.size,
      chunksExact_flatMap h.lengths]
  · rw [publicKeyFromState, drop_left' hfront]
  · rw [publicKeyFromState, length_append, hfront]

theorem prekeyIds_publicKey (hpool : PoolShape P.keys s.prekeys) (hbundle : BundleValid P s) :
    prekeyIdsFromIdentityPublic P.keys (publicKeyFromState P s) = .ok (s.prekeys.map (·.id)) := by
  have hany := validateIdentityPublicBundle_eq_ok.mpr
    (validateIdentityPublicBundle_eq_ok.mp hbundle).any
  rw [prekeyIdsFromIdentityPublic, hany, (publicKey_parts hpool).pool, hpool.map_ids]
  rfl

theorem bundleValid_of_keys (hpool : PoolShape P.keys s.prekeys)
    (hcurve : (P.olm.curve25519 s.account).all (· = 0) = false ∧
      P.keys.contributory (P.olm.curve25519 s.account) = true)
    (hed : (P.olm.ed25519 s.account).all (· = 0) = false ∧
      P.keys.edwardsKey (P.olm.ed25519 s.account) = true)
    (hfallback : s.fallbackPublic.length = oneTimeKeyBytes ∧
      s.fallbackPublic.all (· = 0) = false ∧ P.keys.contributory s.fallbackPublic = true)
    (hkeys : ∀ prekey ∈ s.prekeys, P.keys.contributory prekey.publicKey = true) :
    BundleValid P s := by
  have hparts := publicKey_parts hpool
  refine validateIdentityPublicBundle_eq_ok.mpr ⟨?_, ?_, ?_, ?_, ?_, ?_, ?_⟩
  · rw [hparts.length, hfallback.1]
    rfl
  · rw [hparts.curve, hparts.ed, hparts.fallback, hcurve.1, hed.1, hfallback.2.1]
    decide
  · rw [hparts.curve, hparts.fallback]
    exact ⟨hcurve.2, hfallback.2.2⟩
  · rw [hparts.ed]
    exact hed.2
  · rw [hparts.pool, hpool.map_ids]
    exact hpool.sorted
  · rw [hparts.pool]
    intro key hkey
    obtain ⟨prekey, hmem, rfl⟩ := mem_map.mp hkey
    exact hkeys prekey hmem
  · rintro id ⟨⟩
    have hsize := hpool.size
    rw [hparts.pool]
    cases hprekeys : s.prekeys with
    | nil =>
      rw [hprekeys] at hsize
      cases hsize
    | cons prekey prekeys =>
      refine ⟨prekey.publicKey, mem_cons_self .., ?_⟩
      have hid := hpool.ids prekey (by rw [hprekeys]; exact mem_cons_self ..)
      rw [firstPrekeyId, hprekeys]
      exact hid.symm

structure Pooled (P : Platform Account Session) (s : E2eeState Account Session) : Prop where
  pool : validatePrekeyPool P s.prekeys = .ok ()
  bundle : BundleValid P s

theorem Pooled.shape (h : Pooled P s) : PoolShape P.keys s.prekeys := validatePrekeyPool_ok h.pool

def published (P : Platform Account Session) (s : E2eeState Account Session) :
    Bytes × List StoredPrekey := (publicKeyFromState P s, s.prekeys)

variable (P) in
theorem published_blind : Blind (published P) := fun _ _ _ => rfl

theorem wraps_published {contentKey aad : Bytes} {ratchet : Text → Nat}
    {recipients : List RecipientPublicKey} {envelopes : List RecipientEnvelope}
    (h : Command.each (wrapFor P contentKey aad ratchet) recipients s = (.ok envelopes, s₁)) :
    published P s₁ = published P s := by
  have hkept := Command.Keeps.each
    (wrapFor_keeps (P := P) (published_blind P) contentKey aad ratchet) recipients s
  rw [h] at hkept
  exact hkept

theorem Moved.published {key : Text} (h : Moved P key s s₁) :
    published P s₁ = published P s := by
  obtain ⟨_, _, -, -, rfl⟩ := h
  rfl

theorem openPayload_prekeys {input : DecryptInput} {draw : Nat} {plaintext : Bytes}
    (h : openPayload P input draw s = (.ok plaintext, s₂)) :
    ∃ message, P.decodeMessage input.wrappedKey = some message ∧
      (heldSession P s (peerKey input.senderUsername) message ≠ none ∧
        Client.published P s₂ = Client.published P s ∨
      message.isPreKey = true ∧ heldSession P s (peerKey input.senderUsername) message = none ∧
        ∃ s₁, s₁.prekeys = s.prekeys ∧ Replenished P input.recipientPrekeyId draw s₁ s₂) := by
  obtain ⟨message, contentKey, session, used, s₁, hopened, hend⟩ := openPayload_ok h
  refine ⟨message, hopened.decoded, ?_⟩
  cases hopened.unwrapped with
  | held hheld _ hmoved =>
    obtain ⟨-, rfl⟩ | ⟨hused, -⟩ := hend
    · exact .inl ⟨by rw [hheld]; exact Option.some_ne_none _, hmoved.published⟩
    · cases hused
  | created hprekey hnone _ _ =>
    obtain ⟨hused, -⟩ | ⟨-, hreplenished⟩ := hend
    · cases hused
    · exact .inr ⟨hprekey, hnone, _, by rfl, hreplenished⟩

variable (P) in
theorem pooled_stable : Stable P (fun _ _ => True) (Pooled P) where
  frame _ _ _ h := ⟨h.pool, h.bundle⟩
  wraps := by
    intro session chatId messageId sender plaintext recipients draws _ _ h s₁ envelopes s' _ hs₁
      heach hbundle
    have hprekeys : s'.prekeys = s₁.prekeys := congrArg Prod.snd (wraps_published heach)
    have hstart : s₁.prekeys = session.state.prekeys := by rw [hs₁]
    exact ⟨by rw [hprekeys, hstart]; exact h.pool, hbundle⟩
  unwraps := by
    intro session input draws _ _ h plaintext s' hopen hbundle
    obtain ⟨message, -, ⟨-, hsame⟩ | ⟨-, -, s₁, -, hreplenished⟩⟩ := openPayload_prekeys hopen
    · have hprekeys : s'.prekeys = session.state.prekeys := congrArg Prod.snd hsame
      exact ⟨by rw [hprekeys]; exact h.pool, hbundle⟩
    · exact ⟨hreplenished.pool, hbundle⟩

inductive Started (P : Platform Account Session) : E2eeSession Account Session → Prop
  | created {exportKey : Bytes} {draw : Nat} {session : E2eeSession Account Session}
      (h : create P exportKey draw = .ok session) : Started P session
  | recovered {exportKey context envelope expectedPublicKey : Bytes}
      {session : E2eeSession Account Session}
      (h : recover P exportKey context envelope expectedPublicKey = .ok session) : Started P session

theorem create_pooled {exportKey : Bytes} {draw : Nat} (h : create P exportKey draw = .ok session) :
    Pooled P session.state ∧ session.state.pendingOutbound = none := by
  obtain ⟨_, -, h⟩ := bind_eq_ok.mp h
  obtain ⟨prekeys, hprekeys, h⟩ := bind_eq_ok.mp h
  obtain ⟨fallback, hfallback, h⟩ := okOr_bind.mp h
  cases h
  obtain ⟨_, hpool, hsame⟩ := bind_eq_ok.mp hprekeys
  cases hsame
  have hproper := P.fresh_keys draw
  refine ⟨⟨hpool, bundleValid_of_keys (validatePrekeyPool_ok hpool) ?_ ?_ ?_ ?_⟩, rfl⟩
  · rw [P.olm.curve25519_published]
    exact P.fresh_curve25519 draw
  · rw [P.olm.ed25519_published]
    exact P.fresh_ed25519 draw
  · exact hproper fallback (mem_append_left _ (mem_of_mem_head? hfallback))
  · intro prekey hmem
    rw [sortPrekeys, mem_insertionSort] at hmem
    obtain ⟨key, hkey, rfl⟩ := mem_map.mp hmem
    exact (hproper key (mem_append_right _ hkey)).2.2

theorem recover_pooled {exportKey context envelope expectedPublicKey : Bytes}
    (h : recover P exportKey context envelope expectedPublicKey = .ok session) :
    Pooled P session.state ∧ session.state.pendingOutbound = none := by
  obtain ⟨_, -, h⟩ := bind_eq_ok.mp h
  obtain ⟨_, -, h⟩ := bind_eq_ok.mp h
  obtain ⟨_, -, h⟩ := bind_eq_ok.mp h
  obtain ⟨plain, -, h⟩ := bind_eq_ok.mp h
  obtain ⟨_, -, h⟩ := bind_eq_ok.mp h
  obtain ⟨stored, -, h⟩ := bind_eq_ok.mp h
  obtain ⟨_, -, h⟩ := bind_eq_ok.mp h
  obtain ⟨_, hpool, h⟩ := bind_eq_ok.mp h
  obtain ⟨_, -, h⟩ := bind_eq_ok.mp h
  obtain ⟨recovered, -, h⟩ := bind_eq_ok.mp h
  obtain ⟨_, -, h⟩ := bind_eq_ok.mp h
  obtain ⟨_, hbundle, h⟩ := bind_eq_ok.mp h
  obtain ⟨_, -, h⟩ := bind_eq_ok.mp h
  cases h
  exact ⟨⟨hpool, hbundle⟩, rfl⟩

theorem Started.pooled (h : Started P session) :
    Pooled P session.state ∧ session.state.pendingOutbound = none := by
  cases h with
  | created h => exact create_pooled h
  | recovered h => exact recover_pooled h

end Abyssal.Client
