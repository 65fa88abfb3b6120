import Abyssal.Client.Filing
import Abyssal.Client.Naming

/-! Recovery of a session from a sealed envelope. Each check of `recover` is an invariant of the
sessions that creation, recovery and any run of calls lead to, so that every envelope a session gives
out is accepted and gives its state back. -/

namespace Abyssal.Client

open OrdMap Command
open List hiding Vector

variable {Account Session : Type} {P : Platform Account Session}
  {session : E2eeSession Account Session} {s s₁ s₂ : E2eeState Account Session}

structure Recoverable (P : Platform Account Session) (s : E2eeState Account Session) : Prop where
  pooled : Pooled P s
  material : validateAccountPrekeyMaterial P (P.olm.pickleAccount s.account) s.prekeys = .ok ()
  filed : Filed P s

variable {sessions : OrdMap Text (List Session)} {ids : List Text} {peers : List StoredPeerSessions}

theorem recoverPeers_eq
    (hvalid : ∀ peer ∈ peers, validateUsername peer.peer = .ok () ∧ peerKey peer.peer = peer.peer ∧
      peer.sessions ≠ [] ∧ peer.sessions.length ≤ maxSessionsPerPeer)
    (hids : (ids ++ peers.flatMap fun peer =>
      (peer.sessions.map P.olm.sessionFromPickle).map P.olm.sessionId).Nodup)
    (hkeys : (peers.map (·.peer)).Nodup)
    (hnew : ∀ peer ∈ peers, sessions.contains peer.peer = false) :
    recoverPeers P sessions ids peers =
      .ok ((peers.map fun peer => (peer.peer, peer.sessions.map P.olm.sessionFromPickle)).foldl
          (fun m e => m.insert e.1 e.2) sessions,
        ids ++ peers.flatMap fun peer =>
          (peer.sessions.map P.olm.sessionFromPickle).map P.olm.sessionId) := by
  induction peers generalizing sessions ids with
  | nil => simp [recoverPeers]
  | cons peer peers ih =>
    obtain ⟨hname, hkey, hne, hcount⟩ := hvalid peer (mem_cons_self ..)
    rw [map_cons, nodup_cons] at hkeys
    rw [flatMap_cons, ← append_assoc] at hids ⊢
    have hown := nodup_append.mp (nodup_append.mp hids).1
    have hnewer : ∀ other ∈ peers,
        (sessions.insert peer.peer (peer.sessions.map P.olm.sessionFromPickle)).contains other.peer =
          false := by
      intro other hmem
      rw [OrdMap.contains, get?_insert_of_ne, ← OrdMap.contains]
      · exact hnew other (mem_cons_of_mem _ hmem)
      · intro heq
        exact hkeys.1 (heq ▸ mem_map_of_mem hmem)
    have hrest := ih (fun p hp => hvalid p (mem_cons_of_mem _ hp)) hids hkeys.2 hnewer
    rw [recoverPeers, hname, hkey]
    refine bind_eq_ok.mpr ⟨(), rfl, rejectIf_bind.mpr ⟨?_, rejectIf_bind.mpr
      ⟨?_, hrest⟩⟩⟩
    · exact not_or.mpr ⟨hne, not_lt.mpr hcount⟩
    · rw [not_or, not_not, hnew peer (mem_cons_self ..)]
      refine ⟨⟨hown.2.1, fun id hid hold => ?_⟩, Bool.false_ne_true⟩
      exact hown.2.2 id hold id hid rfl

variable (P s) in
theorem checkpoint_ids :
    ((checkpointState P s).peers.flatMap fun peer =>
      (peer.sessions.map P.olm.sessionFromPickle).map P.olm.sessionId) =
      (P.readOrder s.sessions.keys).flatMap fun key => (idsAt P s key).getD [] := by
  have hpickle : P.olm.sessionFromPickle ∘ P.olm.pickleSession = id := funext P.olm.session_pickle
  simp only [checkpointState, flatMap_map, map_map, idsAt_getD]
  refine congrArg (fun f => List.flatMap f _) (funext fun key => ?_)
  rw [Function.comp_assoc, hpickle, Function.comp_id]

theorem Filed.mem_readOrder (key : Text) :
    key ∈ P.readOrder s.sessions.keys ↔ ∃ ids, idsAt P s key = some ids := by
  rw [(P.readOrder_perm _).mem_iff, OrdMap.mem_keys]
  constructor
  · rintro ⟨sessions, hget⟩
    exact ⟨sessions.map P.olm.sessionId, by rw [idsAt, hget]; rfl⟩
  · rintro ⟨ids, hids⟩
    obtain ⟨sessions, hget, -⟩ := Option.map_eq_some_iff.mp hids
    exact ⟨sessions, hget⟩

theorem Filed.recoverPeers (h : Filed P s) :
    Client.recoverPeers P .empty [] (checkpointState P s).peers =
      .ok (s.sessions, (P.readOrder s.sessions.keys).flatMap fun key => (idsAt P s key).getD []) := by
  have hperm := P.readOrder_perm s.sessions.keys
  have hnodup : (P.readOrder s.sessions.keys).Nodup := hperm.nodup_iff.mpr s.sessions.keys_nodup
  rw [recoverPeers_eq, ← OrdMap.ofList, restored_sessions, checkpoint_ids, nil_append]
  · intro peer hmem
    obtain ⟨key, hkey, rfl⟩ := mem_map.mp hmem
    obtain ⟨sessions, hget⟩ := mem_keys.mp (hperm.mem_iff.mp hkey)
    obtain ⟨hname, hcanonical⟩ := h.named key sessions hget
    have hsizes := h.grouped.sizes key (sessions.map P.olm.sessionId) (by rw [idsAt, hget]; rfl)
    rw [ne_eq, map_eq_nil_iff, length_map] at hsizes
    simp only [sessionsOf_eq hget, ne_eq, map_eq_nil_iff, length_map]
    exact ⟨hname, hcanonical, hsizes.1, hsizes.2⟩
  · rw [nil_append, checkpoint_ids]
    exact h.grouped.nodup_flatMap hnodup
  · rw [checkpointState, map_map, Function.comp_def, map_id']
    exact hnodup
  · exact fun _ _ => rfl

theorem Filed.prekeys_match (h : Filed P s) :
    s.sessionPrekeys.size =
      ((P.readOrder s.sessions.keys).flatMap fun key => (idsAt P s key).getD []).length ∧
    ∀ entry ∈ s.sessionPrekeys.entries,
      (entry.1 ∈ (P.readOrder s.sessions.keys).flatMap fun key => (idsAt P s key).getD []) ∧
      entry.2 ≠ [] ∧ validPrekeyId entry.2 = true := by
  have hnodup : (P.readOrder s.sessions.keys).Nodup :=
    (P.readOrder_perm _).nodup_iff.mpr s.sessions.keys_nodup
  have hmem : ∀ id, (id ∈ (P.readOrder s.sessions.keys).flatMap fun key => (idsAt P s key).getD []) ↔
      s.sessionPrekeys.contains id := fun id => h.grouped.mem_flatMap Filed.mem_readOrder
  constructor
  · have hkeys : s.sessionPrekeys.keys.Perm
        ((P.readOrder s.sessions.keys).flatMap fun key => (idsAt P s key).getD []) :=
      (perm_ext_iff_of_nodup s.sessionPrekeys.keys_nodup
        (h.grouped.nodup_flatMap hnodup)).mpr fun id => by
          rw [hmem, OrdMap.mem_keys, contains_eq_true]
    rw [← hkeys.length_eq, OrdMap.keys, length_map, OrdMap.size]
  · intro entry hentry
    have hget : s.sessionPrekeys.get? entry.1 = some entry.2 := get?_eq_some.mpr hentry
    exact ⟨(hmem entry.1).mpr (contains_eq_true.mpr ⟨entry.2, hget⟩),
      h.prekeys entry.1 entry.2 hget⟩

structure SealedWith (P : Platform Account Session) (exportKey context : Bytes)
    (session : E2eeSession Account Session) : Prop where
  export_valid : validateExportKey exportKey = .ok ()
  context_valid : validateContext context = .ok ()
  sealing : session.sealing = some ⟨identityWrapKey P exportKey context, context⟩

/-- Recovery of the envelope gives the state, without its open transaction. -/
def RecoversTo (P : Platform Account Session) (exportKey context envelope publicKey : Bytes)
    (s : E2eeState Account Session) : Prop :=
  recover P exportKey context envelope publicKey =
    .ok ⟨{ s with pendingOutbound := none }, some ⟨identityWrapKey P exportKey context, context⟩⟩

variable {context envelope : Bytes} {exportKey : Bytes} {nonce : Vector UInt8 nonceBytes}

theorem Recoverable.recovers (h : Recoverable P s) (hexport : validateExportKey exportKey = .ok ())
    (hcontext : validateContext context = .ok ())
    (hsealed : sealState P s ⟨identityWrapKey P exportKey context, context⟩ nonce = .ok envelope) :
    RecoversTo P exportKey context envelope (publicKeyFromState P s) s := by
  obtain ⟨plain, hplain, hsealed⟩ := okOr_bind.mp hsealed
  obtain ⟨hsize, hsealed⟩ := rejectIf_bind.mp hsealed
  obtain ⟨encrypted, hencrypted, hsealed⟩ := okOr_bind.mp hsealed
  cases hsealed
  have hbound := not_lt.mp hsize
  have hlength := P.length_encrypt hencrypted
  have hnonce : nonce.toList.length = nonceBytes := Vector.length_toList
  have hstored := P.decode_encode hplain
  have hpeers : (checkpointState P s).peers.length = s.sessions.size := by
    rw [checkpointState, length_map, (P.readOrder_perm _).length_eq, OrdMap.keys,
      length_map, OrdMap.size]
  obtain ⟨hcount, hentries⟩ := h.filed.prekeys_match
  have hlimits : nonceBytes = 12 ∧ attachmentTagBytes = 16 ∧ maxIdentityStateBytes = 524288 :=
    ⟨rfl, rfl, rfl⟩
  refine bind_eq_ok.mpr ⟨(), hexport, bind_eq_ok.mpr ⟨(), hcontext, rejectIf_bind.mpr ⟨?_,
    okOr_bind.mpr ⟨plain, ?_, rejectIf_bind.mpr ⟨?_, okOr_bind.mpr ⟨checkpointState P s, hstored,
    rejectIf_bind.mpr ⟨?_, bind_eq_ok.mpr ⟨(), h.pooled.pool,
    bind_eq_ok.mpr ⟨(), h.material, bind_eq_ok.mpr ⟨_, h.filed.recoverPeers,
    rejectIf_bind.mpr ⟨?_, ?_⟩⟩⟩⟩⟩⟩⟩⟩⟩⟩⟩
  · simp only [length_cons, length_append, hnonce, head?_cons, cons_append]
    simp only [ne_eq, not_true_eq_false, or_false, not_or, not_le, not_lt]
    omega
  · rw [cons_append, drop_succ_cons, drop_zero, take_left' hnonce,
      Nat.add_comm 1, drop_succ_cons, drop_left' hnonce]
    exact P.decrypt_encrypt hencrypted
  · omega
  · rw [hpeers]
    exact not_lt.mpr h.filed.peers
  · rw [not_or, not_not, not_not]
    exact ⟨hcount, hentries⟩
  · simp only [checkpointState, P.olm.account_pickle]
    exact bind_eq_ok.mpr ⟨(), h.pooled.bundle, rejectIf_bind.mpr ⟨(not_not.mpr rfl), rfl⟩⟩

theorem Filed.of_empty (hsessions : s.sessions = .empty) (hprekeys : s.sessionPrekeys = .empty) :
    Filed P s where
  peers := by rw [hsessions]; exact Nat.zero_le _
  named := by
    rw [hsessions]
    intro key sessions hget
    cases hget
  grouped := (Grouped.empty maxSessionsPerPeer).congr (fun key => by rw [idsAt, hsessions]; rfl)
    fun id => by rw [hprekeys]; exact iff_of_false Bool.false_ne_true not_false
  prekeys := by
    rw [hprekeys]
    intro id prekeyId hget
    cases hget

theorem insertionSort_eq_of_perm {keys keys' : List Bytes} (h : keys.Perm keys') :
    keys.insertionSort (· ≤ ·) = keys'.insertionSort (· ≤ ·) :=
  (((perm_insertionSort _ _).trans h).trans (perm_insertionSort _ _).symm).eq_of_pairwise'
    (pairwise_insertionSort _ _) (pairwise_insertionSort _ _)

theorem create_recoverable {draw : Nat} (h : create P exportKey draw = .ok session) :
    Recoverable P session.state := by
  have hpooled := (create_pooled h).1
  obtain ⟨_, -, h⟩ := bind_eq_ok.mp h
  obtain ⟨prekeys, hprekeys, h⟩ := bind_eq_ok.mp h
  obtain ⟨fallback, -, h⟩ := bind_eq_ok.mp h
  cases h
  obtain ⟨_, -, hsame⟩ := bind_eq_ok.mp hprekeys
  cases hsame
  refine ⟨hpooled, ?_, .of_empty rfl rfl⟩
  obtain ⟨held, hheld, hperm⟩ := P.fresh_material draw
  refine okOr_bind.mpr ⟨held, hheld, rejectIf_eq_ok.mpr (not_not.mpr ?_)⟩
  have hpublic : ((sortPrekeys ((P.olm.oneTimeKeys (P.olm.freshAccount draw)).map fun key =>
      (⟨prekeyIdForPublic P.keys key, key⟩ : StoredPrekey))).map (·.publicKey)).Perm
      (P.olm.oneTimeKeys (P.olm.freshAccount draw)) := by
    have hsorted := (perm_insertionSort (fun a b : StoredPrekey => a.id ≤ b.id)
      ((P.olm.oneTimeKeys (P.olm.freshAccount draw)).map fun key =>
        ⟨prekeyIdForPublic P.keys key, key⟩)).map (·.publicKey)
    rwa [map_map, Function.comp_def, map_id'] at hsorted
  exact insertionSort_eq_of_perm (hperm.trans hpublic.symm)

structure Gathered (P : Platform Account Session) (sessions : OrdMap Text (List Session))
    (ids : List Text) : Prop where
  named : ∀ key peerSessions, sessions.get? key = some peerSessions →
    validateUsername key = .ok () ∧ peerKey key = key
  grouped : Grouped maxSessionsPerPeer
    (fun key => (sessions.get? key).map (List.map P.olm.sessionId)) (· ∈ ids)
  nodup : ids.Nodup

variable (P) in
theorem Gathered.empty : Gathered P .empty [] where
  named _ _ h := nomatch h
  grouped := (Grouped.empty _).congr (fun _ => rfl) fun _ => by simp
  nodup := nodup_nil

theorem Gathered.add (h : Gathered P sessions ids) {peer : Text} {peerSessions : List Session}
    (hname : validateUsername peer = .ok ()) (hne : peerSessions ≠ [])
    (hcount : peerSessions.length ≤ maxSessionsPerPeer)
    (hnodup : (peerSessions.map P.olm.sessionId).Nodup)
    (hapart : ∀ id ∈ peerSessions.map P.olm.sessionId, id ∉ ids)
    (hnew : sessions.get? (peerKey peer) = none) :
    Gathered P (sessions.insert (peerKey peer) peerSessions)
      (ids ++ peerSessions.map P.olm.sessionId) where
  named key other hget := by
    rw [get?_insert] at hget
    by_cases hkey : peerKey peer = key
    · exact hkey ▸ ⟨(validateUsername_peerKey peer).trans hname, peerKey_idem peer⟩
    · rw [if_neg hkey] at hget
      exact h.named key other hget
  grouped := by
    refine h.grouped.replace (k := peerKey peer) (by rwa [ne_eq, map_eq_nil_iff])
      (by rwa [length_map]) hnodup (fun id hid hold => absurd hold (hapart id hid))
      (fun key => ?_) fun id => ?_
    · rw [get?_insert]
      by_cases hkey : peerKey peer = key
      · rw [if_pos hkey, if_pos hkey.symm, Option.map_some]
      · rw [if_neg hkey, if_neg (Ne.symm hkey)]
    · rw [hnew, mem_append]
      simp [or_comm]
  nodup := nodup_append.mpr ⟨h.nodup, hnodup, fun id hid other hother heq =>
    hapart other hother (heq ▸ hid)⟩

theorem recoverPeers_ok {sessions' : OrdMap Text (List Session)} {ids' : List Text}
    (h : Gathered P sessions ids)
    (hrun : recoverPeers P sessions ids peers = .ok (sessions', ids')) :
    Gathered P sessions' ids' ∧ sessions'.size = sessions.size + peers.length := by
  induction peers generalizing sessions ids with
  | nil =>
    cases hrun
    exact ⟨h, rfl⟩
  | cons peer peers ih =>
    obtain ⟨_, hname, hrun⟩ := bind_eq_ok.mp hrun
    obtain ⟨_, hcount, hrun⟩ := bind_eq_ok.mp hrun
    obtain ⟨_, hids, hrun⟩ := bind_eq_ok.mp hrun
    obtain ⟨hne, hcount⟩ := not_or.mp (rejectIf_eq_ok.mp hcount)
    obtain ⟨hids, hnew⟩ := not_or.mp (rejectIf_eq_ok.mp hids)
    obtain ⟨hnodup, hapart⟩ := not_not.mp hids
    have hnew := contains_eq_false.mp (Bool.eq_false_of_not_eq_true hnew)
    have hadded := h.add hname (by rwa [ne_eq, map_eq_nil_iff])
      (by rw [length_map]; exact not_lt.mp hcount) hnodup hapart hnew
    obtain ⟨hgathered, hsize⟩ := ih hadded hrun
    rw [size_insert_new hnew] at hsize
    exact ⟨hgathered, by rw [hsize, length_cons]; omega⟩

/-- What recovery rests on besides the laws of every platform: prekey ids are not empty, and an
account read from a pickle holds the one-time keys of the pickle. -/
structure Repeatable (P : Platform Account Session) : Prop where
  ids : PrekeyIdsProper P
  repickled : ∀ pickle held, P.olm.pickledOneTimeKeys pickle = some held →
    ∃ held', P.olm.pickledOneTimeKeys (P.olm.pickleAccount (P.olm.accountFromPickle pickle)) =
      some held' ∧ held'.Perm held

theorem Repeatable.material (hP : Repeatable P) {pickle : Bytes} {prekeys : List StoredPrekey}
    (h : validateAccountPrekeyMaterial P pickle prekeys = .ok ()) :
    validateAccountPrekeyMaterial P (P.olm.pickleAccount (P.olm.accountFromPickle pickle)) prekeys =
      .ok () := by
  obtain ⟨held, hheld, hsame⟩ := okOr_bind.mp h
  obtain ⟨held', hheld', hperm⟩ := hP.repickled pickle held hheld
  refine okOr_bind.mpr ⟨held', hheld', rejectIf_eq_ok.mpr (not_not.mpr ?_)⟩
  rw [insertionSort_eq_of_perm hperm]
  exact not_not.mp (rejectIf_eq_ok.mp hsame)

theorem recover_recoverable (hP : Repeatable P) {publicKey : Bytes}
    (h : recover P exportKey context envelope publicKey = .ok session) :
    Recoverable P session.state ∧ SealedWith P exportKey context session := by
  have hpooled := (recover_pooled h).1
  obtain ⟨_, hexport, h⟩ := bind_eq_ok.mp h
  obtain ⟨_, hcontext, h⟩ := bind_eq_ok.mp h
  obtain ⟨_, -, h⟩ := bind_eq_ok.mp h
  obtain ⟨plain, -, h⟩ := bind_eq_ok.mp h
  obtain ⟨_, -, h⟩ := bind_eq_ok.mp h
  obtain ⟨stored, -, h⟩ := bind_eq_ok.mp h
  obtain ⟨hpeers, h⟩ := rejectIf_bind.mp h
  obtain ⟨_, -, h⟩ := bind_eq_ok.mp h
  obtain ⟨_, hmaterial, h⟩ := bind_eq_ok.mp h
  obtain ⟨⟨sessions, ids⟩, hrecovered, h⟩ := bind_eq_ok.mp h
  obtain ⟨hprekeys, h⟩ := rejectIf_bind.mp h
  obtain ⟨_, -, h⟩ := bind_eq_ok.mp h
  obtain ⟨_, -, h⟩ := bind_eq_ok.mp h
  cases h
  obtain ⟨hgathered, hsize⟩ := recoverPeers_ok (.empty P) hrecovered
  obtain ⟨hcount, hentries⟩ := not_or.mp hprekeys
  rw [not_not] at hcount hentries
  have hkeys : stored.sessionPrekeys.keys.Perm ids := by
    refine (subperm_of_subset stored.sessionPrekeys.keys_nodup fun id hid => ?_).perm_of_length_le
      (by rw [OrdMap.keys, length_map]; exact hcount.ge)
    obtain ⟨entry, hentry, rfl⟩ := mem_map.mp hid
    exact (hentries entry hentry).1
  refine ⟨⟨hpooled, hP.material hmaterial, ?_, hgathered.named, ?_, ?_⟩, hexport, hcontext, rfl⟩
  · change sessions.size ≤ maxPeers
    rw [hsize]
    exact (Nat.zero_add _).trans_le (not_lt.mp hpeers)
  · refine hgathered.grouped.congr (fun _ => rfl) fun id => ?_
    rw [contains_eq_true, ← OrdMap.mem_keys, hkeys.mem_iff]
  · intro id prekeyId hget
    exact (hentries (id, prekeyId) (get?_eq_some.mp hget)).2

theorem Started.recoverable (hP : Repeatable P) (h : Started P session) :
    Recoverable P session.state := by
  cases h with
  | created h => exact create_recoverable h
  | recovered h => exact (recover_recoverable hP h).1

theorem recoverable_stable (hP : Repeatable P) : Stable P (Fresh P) (Recoverable P) where
  frame _ _ _ h := ⟨⟨h.pooled.pool, h.pooled.bundle⟩, h.material, h.filed.of_eq rfl rfl⟩
  wraps := by
    intro session chatId messageId sender plaintext recipients draws hfresh hrecipients h s₁
      envelopes s' hbegin hs₁ heach hbundle
    have hpooled := (pooled_stable P).wraps session chatId messageId sender plaintext recipients draws
      trivial hrecipients h.pooled s₁ envelopes s' hbegin hs₁ heach hbundle
    have hkept : validateAccountPrekeyMaterial P (P.olm.pickleAccount s'.account) s'.prekeys =
        validateAccountPrekeyMaterial P (P.olm.pickleAccount s₁.account) s₁.prekeys := by
      have hview := Command.Keeps.each (wrapFor_keeps (P := P)
        (g := fun s => validateAccountPrekeyMaterial P (P.olm.pickleAccount s.account) s.prekeys)
        (fun _ _ _ => rfl) draws.contentKey.toList (messageAad chatId messageId sender)
        draws.ratchet) recipients s₁
      rw [heach] at hview
      exact hview
    have hstart : Filed P s₁ := by
      rw [hs₁]
      exact h.filed.of_eq rfl rfl
    have hfresh : FreshWraps P draws.contentKey.toList (messageAad chatId messageId sender)
        draws.ratchet (beginOutbound P messageId session.state).2 recipients := hfresh
    rw [hbegin] at hfresh
    refine ⟨hpooled, ?_, hstart.all_wrapped hP.ids (validateRecipients_names hrecipients) hfresh
      heach⟩
    rw [hkept, hs₁]
    exact h.material
  unwraps := by
    intro session input draws hfresh hinput h plaintext s' hopen hbundle
    have hpooled := (pooled_stable P).unwraps session input draws trivial hinput h.pooled plaintext
      s' hopen hbundle
    have hsender : validateUsername input.senderUsername = .ok () := by
      obtain ⟨_, hcontext, -⟩ := bind_eq_ok.mp hinput
      obtain ⟨_, -, hsender⟩ := bind_eq_ok.mp hcontext
      exact hsender
    refine ⟨hpooled, ?_, h.filed.opened hsender hfresh hopen⟩
    obtain ⟨message, contentKey, opener, used, s₁, hopened, hend⟩ := openPayload_ok hopen
    obtain ⟨rfl, rfl⟩ | ⟨-, hreplenished⟩ := hend
    · cases hopened.unwrapped with
      | held _ _ hmoved =>
        obtain ⟨_, _, -, -, rfl⟩ := hmoved
        exact h.material
    · exact hreplenished.material

variable {session' : E2eeSession Account Session}

theorem sealIdentity_ok
    (h : sealIdentity P exportKey context nonce session = (.ok envelope, session')) :
    session'.state = session.state ∧ SealedWith P exportKey context session' ∧
      sealState P session.state ⟨identityWrapKey P exportKey context, context⟩ nonce =
        .ok envelope := by
  obtain ⟨_, hexport, h⟩ := check_bind_eq_ok.mp h
  obtain ⟨_, hcontext, h⟩ := check_bind_eq_ok.mp h
  rw [get_bind] at h
  obtain ⟨_, -, h⟩ := check_bind_eq_ok.mp h
  rw [modify_bind] at h
  obtain ⟨hsealed, rfl⟩ := check_eq_ok.mp h
  exact ⟨rfl, ⟨hexport, hcontext, rfl⟩, hsealed⟩

def Keyed (P : Platform Account Session) (session : E2eeSession Account Session) : Prop :=
  session.sealing = none ∨ ∃ exportKey context, SealedWith P exportKey context session

theorem Keyed.of_sealing (h : Keyed P session) (hsame : session'.sealing = session.sealing) :
    Keyed P session' := by
  obtain hnone | ⟨exportKey, context, hsealed⟩ := h
  · exact .inl (hsame.trans hnone)
  · exact .inr ⟨exportKey, context, hsealed.export_valid, hsealed.context_valid,
      hsame.trans hsealed.sealing⟩

theorem Keyed.step (h : Keyed P session) (call : Call) : Keyed P (step P session call) := by
  obtain ⟨_, _, _, heq, hstep⟩ := exists_stepped P session call
  rw [heq]
  cases hstep with
  | keyed _ _ hexport hcontext => exact .inr ⟨_, _, hexport, hcontext, rfl⟩
  | _ => exact h.of_sealing rfl

theorem Started.keyed (hP : Repeatable P) (h : Started P session) : Keyed P session := by
  cases h with
  | created h =>
    obtain ⟨_, -, h⟩ := bind_eq_ok.mp h
    obtain ⟨_, -, h⟩ := bind_eq_ok.mp h
    obtain ⟨_, -, h⟩ := bind_eq_ok.mp h
    cases h
    exact .inl rfl
  | recovered h => exact .inr ⟨_, _, (recover_recoverable hP h).2⟩

/-- Whatever envelope the session gives out next, it is recovered to the state that it was sealed
for. -/
structure EnvelopesRecover (P : Platform Account Session) (session : E2eeSession Account Session) :
    Prop where
  sealed : ∀ exportKey context nonce envelope session',
    sealIdentity P exportKey context nonce session = (.ok envelope, session') →
    RecoversTo P exportKey context envelope (publicKeyFromState P session'.state) session'.state
  keyed : ∀ sealing, session.sealing = some sealing →
    ∃ exportKey context, SealedWith P exportKey context session
  encrypted : ∀ exportKey context, SealedWith P exportKey context session →
    ∀ chatId messageId senderUsername plaintext recipients draws payload session',
      Fresh P session (.encrypt chatId messageId senderUsername plaintext recipients draws) →
      encrypt P chatId messageId senderUsername plaintext recipients draws session =
        (.ok payload, session') →
      RecoversTo P exportKey context payload.identityEnvelope payload.identityPublic session'.state
  decrypted : ∀ exportKey context, SealedWith P exportKey context session →
    ∀ input draws decryption session', Fresh P session (.decrypt input draws) →
      decrypt P input draws session = (.ok decryption, session') →
      RecoversTo P exportKey context decryption.identityEnvelope decryption.identityPublic
        session'.state
  filed : Filed P session.state

theorem Advanced.recovers {published : PublishedState} (hrecoverable : Recoverable P s₁)
    (hexport : validateExportKey exportKey = .ok ()) (hcontext : validateContext context = .ok ())
    (h : Advanced P ⟨identityWrapKey P exportKey context, context⟩ nonce s published s₁) :
    RecoversTo P exportKey context published.identityEnvelope published.identityPublic s₁ := by
  rw [h.public_eq]
  exact hrecoverable.recovers hexport hcontext h.sealed

theorem Recoverable.envelopes (hP : Repeatable P) (h : Held P (Recoverable P) session.state)
    (hkeyed : Keyed P session) : EnvelopesRecover P session where
  sealed exportKey context nonce envelope session' hrun := by
    obtain ⟨hstate, hwith, hsealed⟩ := sealIdentity_ok hrun
    rw [hstate]
    exact h.now.recovers hwith.export_valid hwith.context_valid hsealed
  keyed sealing hsealing := by
    obtain hnone | hwith := hkeyed
    · rw [hnone] at hsealing
      cases hsealing
    · exact hwith
  encrypted exportKey context hwith chatId messageId senderUsername plaintext recipients draws payload
      session' hfresh hrun := by
    obtain ⟨s₂, rfl, henc⟩ := encrypt_ok hrun
    have hafter := ((recoverable_stable hP).encrypted hfresh h henc).now
    obtain ⟨s₁, sealing, ciphertext, revision, hsealing, -, -, -, hwork⟩ := henc.worked
    obtain ⟨envelopes, s', -, -, hadvanced⟩ := encryptWork_ok hwork
    obtain rfl := Option.some.inj (hwith.sealing.symm.trans hsealing)
    exact hadvanced.recovers hafter hwith.export_valid hwith.context_valid
  decrypted exportKey context hwith input draws decryption session' hfresh hrun := by
    obtain ⟨s₂, rfl, hdec⟩ := decrypt_ok hrun
    have hafter := ((recoverable_stable hP).decrypted hfresh h hdec).now
    obtain ⟨sealing, hsealing, hwork⟩ := hdec.worked
    obtain ⟨s', -, hadvanced⟩ := decryptWork_ok hwork
    obtain rfl := Option.some.inj (hwith.sealing.symm.trans hsealing)
    exact hadvanced.recovers hafter hwith.export_valid hwith.context_valid
  filed := h.now.filed

/-- In a run whose new sessions have new ids, every envelope is recovered. -/
theorem envelopes_recover (hP : Repeatable P) {start : E2eeSession Account Session}
    (hstart : Started P start) {calls : List Call}
    (hfresh : Along (Fresh P) (step P) start calls) : EnvelopesRecover P (after P start calls) :=
  Recoverable.envelopes hP
    ((recoverable_stable hP).run (.of_idle (hstart.recoverable hP) hstart.pooled.2) hfresh)
    (run_invariant (fun _ call h => h.step call) (hstart.keyed hP) calls)

namespace Clear

theorem repeatable : Repeatable platform where
  ids publicKey hempty := by
    have hlength := congrArg List.length hempty
    rw [prekeyIdForPublic, length_hex] at hlength
    change (((canonicalParts _).reverse.take 32).take 16).length * 2 = 0 at hlength
    rw [canonicalParts_cons] at hlength
    simp only [length_take, length_reverse, length_append,
      length_lengthPrefixed] at hlength
    omega
  repickled pickle held h := by
    obtain ⟨account, haccount, rfl⟩ := Option.map_eq_some_iff.mp h
    refine ⟨account.held, ?_, .refl _⟩
    change olm.pickledOneTimeKeys (olm.pickleAccount ((accountCodec.read pickle).getD _)) = _
    rw [haccount, Option.getD_some, pickledOneTimeKeys_pickle]

end Clear

namespace SecondKey

open Clear (platform)

theorem first_fresh : Along (Fresh platform) (step platform) start first := by
  unfold first
  refine ⟨trivial, ⟨fun _ _ _ _ _ key sessions hget => ?_, trivial⟩, trivial, trivial⟩
  rw [get?_of_size_eq_zero second_run.1 key] at hget
  cases hget

theorem first_recovers : Along (Fresh platform) (step platform) start first ∧
    EnvelopesRecover platform (after platform start first) :=
  ⟨first_fresh, envelopes_recover Clear.repeatable (.created (ok_get created)) first_fresh⟩

end SecondKey

end Abyssal.Client
