import Abyssal.Base.Runs
import Abyssal.Transport.Records

/-! WebSocket connections under attack. Every connection has two channels, one for each direction,
with a sealer at one end and an opener at the other. The attacker chooses what is sealed and feeds the
openers byte strings of its own. Keys of different channels differ, the log under the key of a channel
is what its sealer sealed, and an opener reads this list from the front. -/

namespace Abyssal.Transport

open List hiding Vector
open Function

structure ConnectionNonce where
  value : Vector UInt8 32
  ne_zero : value ≠ zeros 32

instance : DecidableEq ConnectionNonce := fun a b =>
  decidable_of_iff (a.value = b.value) (by cases a; cases b; simp)

structure WsConnectionBinding where
  sessionId : Vector UInt8 32
  clientNonce : ConnectionNonce
  serverNonce : ConnectionNonce
  sessionId_ne : sessionId ≠ zeros 32
  nonces_ne : clientNonce ≠ serverNonce

instance : DecidableEq WsConnectionBinding := fun a b =>
  decidable_of_iff (a.sessionId = b.sessionId ∧ a.clientNonce = b.clientNonce ∧
    a.serverNonce = b.serverNonce) (by cases a; cases b; simp)

def wsBindingDomain : Bytes := ascii "ABYSSAL-TRANSPORT-V11-WS-CONNECTION"

def WsConnectionBinding.keyContext (self : WsConnectionBinding) : Bytes :=
  canonicalParts [wsBindingDomain, self.sessionId.toList, self.clientNonce.value.toList,
    self.serverNonce.value.toList]

variable {Key : Type}

structure WsRecords (Key : Type) where
  sealer : WsSealer Key
  opener : WsOpener Key

def WsConnectionBinding.intoClient (kdf : KeyDerivation Key) (self : WsConnectionBinding)
    (transportRoot : Vector UInt8 32) : Except TransportError (WsRecords Key) := do
  let sealer ← WsSealer.new kdf transportRoot .clientToServer self.keyContext
  let opener ← WsOpener.new kdf transportRoot .serverToClient self.keyContext
  .ok ⟨sealer, opener⟩

def WsConnectionBinding.intoServer (kdf : KeyDerivation Key) (self : WsConnectionBinding)
    (transportRoot : Vector UInt8 32) : Except TransportError (WsRecords Key) := do
  let sealer ← WsSealer.new kdf transportRoot .serverToClient self.keyContext
  let opener ← WsOpener.new kdf transportRoot .clientToServer self.keyContext
  .ok ⟨sealer, opener⟩

theorem WsConnectionBinding.length_keyContext (self : WsConnectionBinding) :
    self.keyContext.length = 147 := by
  simp only [keyContext, canonicalParts, flatMap_cons, flatMap_nil, length_append,
    length_lengthPrefixed, Vector.length_toList, length_nil]
  rfl

theorem WsConnectionBinding.keyContext_injective {b b' : WsConnectionBinding}
    (h : b.keyContext = b'.keyContext) : b = b' := by
  have hshort : ∀ v : Vector UInt8 32, Short v.toList := short_toList (by decide)
  have hdomain : Short wsBindingDomain := by decide
  have hparts := canonicalParts_inj h rfl (by simp [hshort, hdomain]) (by simp [hshort, hdomain])
  simp only [List.cons.injEq, Vector.toList_inj, and_true, true_and] at hparts
  obtain ⟨sessionId, ⟨client, hc⟩, ⟨server, hs⟩, h₁, h₂⟩ := b
  obtain ⟨sessionId', ⟨client', hc'⟩, ⟨server', hs'⟩, h₁', h₂'⟩ := b'
  obtain ⟨rfl, rfl, rfl⟩ := hparts
  rfl

@[ext] structure WsChannel where
  root : Vector UInt8 32
  binding : WsConnectionBinding
  direction : Direction
  root_ne : root ≠ zeros 32

instance : DecidableEq WsChannel := fun a b =>
  decidable_of_iff (a.root = b.root ∧ a.binding = b.binding ∧ a.direction = b.direction)
    (by cases a; cases b; simp)

namespace WsChannel

variable (kdf : KeyDerivation Key) (ch : WsChannel)

def key : Key := recordKey kdf ch.root (ascii "WS") ch.direction ch.binding.keyContext

def sealer : WsSealer Key := ⟨ch.key kdf, ch.direction, 0⟩
def opener : WsOpener Key := ⟨ch.key kdf, ch.direction, 0⟩

theorem deriveRecordKey_eq :
    deriveRecordKey kdf ch.root (ascii "WS") ch.direction ch.binding.keyContext =
      .ok (ch.key kdf) := by
  have hlength := ch.binding.length_keyContext
  exact deriveRecordKey_eq_ok kdf ch.root_ne _ _ (hlength ▸ by decide) (hlength ▸ by decide)

theorem sealer_new :
    WsSealer.new kdf ch.root ch.direction ch.binding.keyContext = .ok (ch.sealer kdf) :=
  bind_eq_ok.mpr ⟨_, ch.deriveRecordKey_eq kdf, rfl⟩

theorem opener_new :
    WsOpener.new kdf ch.root ch.direction ch.binding.keyContext = .ok (ch.opener kdf) :=
  bind_eq_ok.mpr ⟨_, ch.deriveRecordKey_eq kdf, rfl⟩

variable {ch}

theorem key_injective {ch' : WsChannel} (h : ch.key kdf = ch'.key kdf) : ch = ch' := by
  obtain ⟨hroot, hbinding, hdirection⟩ := recordKey_inj kdf (by decide) (by decide)
    WsConnectionBinding.length_keyContext WsConnectionBinding.keyContext_injective h
  exact WsChannel.ext hroot hbinding hdirection

end WsChannel

variable {root : Vector UInt8 32}

theorem WsConnectionBinding.intoClient_eq (kdf : KeyDerivation Key) (b : WsConnectionBinding)
    (hroot : root ≠ zeros 32) :
    b.intoClient kdf root = .ok ⟨WsChannel.sealer kdf ⟨root, b, .clientToServer, hroot⟩,
      WsChannel.opener kdf ⟨root, b, .serverToClient, hroot⟩⟩ :=
  bind_eq_ok.mpr ⟨_, WsChannel.sealer_new kdf ⟨root, b, .clientToServer, hroot⟩,
    bind_eq_ok.mpr ⟨_, WsChannel.opener_new kdf ⟨root, b, .serverToClient, hroot⟩, rfl⟩⟩

theorem WsConnectionBinding.intoServer_eq (kdf : KeyDerivation Key) (b : WsConnectionBinding)
    (hroot : root ≠ zeros 32) :
    b.intoServer kdf root = .ok ⟨WsChannel.sealer kdf ⟨root, b, .serverToClient, hroot⟩,
      WsChannel.opener kdf ⟨root, b, .clientToServer, hroot⟩⟩ :=
  bind_eq_ok.mpr ⟨_, WsChannel.sealer_new kdf ⟨root, b, .serverToClient, hroot⟩,
    bind_eq_ok.mpr ⟨_, WsChannel.opener_new kdf ⟨root, b, .clientToServer, hroot⟩, rfl⟩⟩

/-- What went into a successful call of `seal` and what came out of it. -/
structure SealedRecord where
  aad : Bytes
  plaintext : Bytes
  nonce : Bytes
  record : Bytes

structure WsWorld (Key : Type) where
  log : List (Encryption Key)
  sealer : WsChannel → WsSealer Key
  opener : WsChannel → WsOpener Key
  sent : WsChannel → List SealedRecord
  opened : WsChannel → List Bytes

inductive WsCall
  | sealRecord (ch : WsChannel) (aad plaintext : Bytes)
  | openRecord (ch : WsChannel) (aad record : Bytes)

namespace WsWorld

variable [DecidableEq Key]

def start (kdf : KeyDerivation Key) : WsWorld Key :=
  ⟨[], fun ch => ch.sealer kdf, fun ch => ch.opener kdf, fun _ => [], fun _ => []⟩

def exec (cipher : Cipher Key tagBytes) (w : WsWorld Key) : WsCall → WsWorld Key
  | .sealRecord ch aad plaintext =>
    match (w.sealer ch).seal cipher aad plaintext with
    | (sealer, .error _) => { w with sealer := update w.sealer ch sealer }
    | (sealer, .ok (call, record)) =>
      { w with
        log := w.log ++ [call]
        sealer := update w.sealer ch sealer
        sent := update w.sent ch (w.sent ch ++ [⟨aad, plaintext, call.nonce, record⟩]) }
  | .openRecord ch aad record =>
    match (w.opener ch).openRecord w.log aad record with
    | (opener, .error _) => { w with opener := update w.opener ch opener }
    | (opener, .ok plaintext) =>
      { w with
        opener := update w.opener ch opener
        opened := update w.opened ch (w.opened ch ++ [plaintext]) }

def after (kdf : KeyDerivation Key) (cipher : Cipher Key tagBytes) (calls : List WsCall) :
    WsWorld Key :=
  runFrom (exec cipher) (start kdf) calls

structure Sound (kdf : KeyDerivation Key) (cipher : Cipher Key tagBytes) (w : WsWorld Key)
    (ch : WsChannel) : Prop where
  sealer_eq : w.sealer ch = ⟨ch.key kdf, ch.direction, (w.sent ch).length⟩
  opener_eq : w.opener ch = ⟨ch.key kdf, ch.direction, (w.opened ch).length⟩
  sent_le : (w.sent ch).length ≤ wordMax
  nonces : (w.sent ch).map (·.nonce) = (Aead.under (ch.key kdf) w.log).map (·.nonce)
  numbered : Aead.Numbered (wsNonce ch.direction) (Aead.under (ch.key kdf) w.log)
  records : ∀ i s, (w.sent ch)[i]? = some s → ∃ e, (Aead.under (ch.key kdf) w.log)[i]? = some e ∧
    WsSealer.record cipher ⟨ch.key kdf, ch.direction, i⟩ s.aad s.plaintext = .ok (e, s.record)
  opened_sent : w.opened ch <+: (w.sent ch).map (·.plaintext)

variable {kdf : KeyDerivation Key} {cipher : Cipher Key tagBytes} {w : WsWorld Key} {ch : WsChannel}
  {record plaintext : Bytes}

theorem Sound.length_under (h : Sound kdf cipher w ch) :
    (Aead.under (ch.key kdf) w.log).length = (w.sent ch).length := by
  rw [← length_map (f := (·.nonce)), ← h.nonces, length_map]

variable {aad : Bytes}

theorem Sound.plaintext_eq_ok (h : Sound kdf cipher w ch)
    (hok : (w.opener ch).plaintext w.log aad record = .ok plaintext) :
    ∃ s, (w.sent ch)[(w.opened ch).length]? = some s ∧ s.plaintext = plaintext := by
  rw [h.opener_eq] at hok
  obtain ⟨-, hmax, header, ciphertext, -, hdecrypt, -⟩ := WsOpener.plaintext_eq_ok.mp hok
  have hopened := h.opened_sent.length_le
  rw [length_map] at hopened
  have hlt : (w.opened ch).length < wordMax := lt_of_le_of_ne (hopened.trans h.sent_le) hmax
  have hentry := (Aead.decrypt_numbered h.numbered (h.length_under ▸ h.sent_le)
    (fun i hi j hj => wsNonce_inj hi hj) hlt).mp hdecrypt
  have hbound := (List.getElem?_eq_some_iff.mp hentry).1
  rw [h.length_under] at hbound
  obtain ⟨e, he, hrecord⟩ := h.records _ _ (getElem?_eq_getElem hbound)
  obtain ⟨-, -, -, _, -, hout⟩ := WsSealer.record_eq_ok.mp hrecord
  refine ⟨_, getElem?_eq_getElem hbound, ?_⟩
  rw [hentry] at he
  rw [← Option.some.inj he] at hout
  exact (congrArg Encryption.plaintext (congrArg Prod.fst hout)).symm

theorem Sound.plaintext_next (h : Sound kdf cipher w ch) {s : SealedRecord}
    (hs : (w.sent ch)[(w.opened ch).length]? = some s) :
    (w.opener ch).plaintext w.log s.aad s.record = .ok s.plaintext := by
  obtain ⟨e, he, hrecord⟩ := h.records _ s hs
  obtain ⟨haad, hvalid, hmax, header, hheader, hout⟩ := WsSealer.record_eq_ok.mp hrecord
  have hlt : (w.opened ch).length < wordMax :=
    (List.getElem?_eq_some_iff.mp hs).1.trans_le h.sent_le
  have hlength : 0 < s.plaintext.length := length_pos_iff.mpr hvalid.1
  have hsize := cipher.length_encrypt (ch.key kdf) (wsNonce ch.direction (w.opened ch).length)
    (canonicalParts [header, s.aad]) s.plaintext
  rw [Prod.mk.injEq] at hout
  rw [h.opener_eq, WsOpener.plaintext_eq_ok, hout.2]
  refine ⟨haad, hmax, header, _,
    decodeWs_header hheader hlt.le hsize (by omega) (by omega), ?_, hvalid⟩
  refine (Aead.decrypt_numbered h.numbered (h.length_under ▸ h.sent_le)
    (fun i hi j hj => wsNonce_inj hi hj) hlt).mpr ?_
  rw [he, hout.1]
  rfl

variable (w ch) in
theorem exec_seal (aad plaintext : Bytes) :
    w.exec cipher (.sealRecord ch aad plaintext) = w ∨
      ∃ call record, (w.sealer ch).record cipher aad plaintext = .ok (call, record) ∧
        w.exec cipher (.sealRecord ch aad plaintext) = { w with
          log := w.log ++ [call]
          sealer := update w.sealer ch { w.sealer ch with
            nextCounter := saturatingAdd (w.sealer ch).nextCounter 1 }
          sent := update w.sent ch (w.sent ch ++ [⟨aad, plaintext, call.nonce, record⟩]) } := by
  cases hrecord : (w.sealer ch).record cipher aad plaintext with
  | error e =>
    left
    simp only [exec, WsSealer.seal, hrecord, update_eq_self]
  | ok out =>
    right
    refine ⟨out.1, out.2, rfl, ?_⟩
    simp only [exec, WsSealer.seal, hrecord]

variable (w ch) in
theorem exec_openRecord (aad record : Bytes) :
    w.exec cipher (.openRecord ch aad record) = w ∨
      ∃ plaintext, (w.opener ch).plaintext w.log aad record = .ok plaintext ∧
        w.exec cipher (.openRecord ch aad record) = { w with
          opener := update w.opener ch { w.opener ch with
            nextCounter := saturatingAdd (w.opener ch).nextCounter 1 }
          opened := update w.opened ch (w.opened ch ++ [plaintext]) } := by
  cases hplaintext : (w.opener ch).plaintext w.log aad record with
  | error e =>
    left
    simp only [exec, WsOpener.openRecord, hplaintext, update_eq_self]
  | ok plaintext =>
    right
    refine ⟨plaintext, rfl, ?_⟩
    simp only [exec, WsOpener.openRecord, hplaintext]

theorem sound_start (ch : WsChannel) : Sound kdf cipher (start kdf) ch where
  sealer_eq := rfl
  opener_eq := rfl
  sent_le := Nat.zero_le _
  nonces := rfl
  numbered := Aead.numbered_nil
  records := fun _ _ h => by cases h
  opened_sent := nil_prefix

theorem Sound.seal (h : Sound kdf cipher w ch) {call : Encryption Key}
    (hrecord : (w.sealer ch).record cipher aad plaintext = .ok (call, record)) :
    Sound kdf cipher { w with
      log := w.log ++ [call]
      sealer := update w.sealer ch { w.sealer ch with
        nextCounter := saturatingAdd (w.sealer ch).nextCounter 1 }
      sent := update w.sent ch (w.sent ch ++ [⟨aad, plaintext, call.nonce, record⟩]) } ch := by
  rw [h.sealer_eq] at hrecord ⊢
  obtain ⟨hmax, hkey, hnonce, -⟩ := WsSealer.record_call hrecord
  have hunder := Aead.under_snoc_self w.log hkey
  have hlt : (w.sent ch).length < wordMax := lt_of_le_of_ne h.sent_le hmax
  have hnext : saturatingAdd (w.sent ch).length 1 = (w.sent ch).length + 1 := min_eq_left hlt
  constructor <;> simp only [update_self, hunder]
  case sealer_eq => simp only [length_append, length_singleton, hnext]
  case opener_eq => exact h.opener_eq
  case sent_le => exact (length_append ..).trans_le hlt
  case nonces => simp only [map_append, map_singleton, h.nonces]
  case numbered => exact h.numbered.snoc (hnonce.trans (by rw [h.length_under]))
  case opened_sent =>
    rw [map_append]
    exact h.opened_sent.trans (prefix_append ..)
  case records => exact related_snoc h.length_under h.records hrecord

theorem Sound.openRecord (h : Sound kdf cipher w ch)
    (hok : (w.opener ch).plaintext w.log aad record = .ok plaintext) :
    Sound kdf cipher { w with
      opener := update w.opener ch { w.opener ch with
        nextCounter := saturatingAdd (w.opener ch).nextCounter 1 }
      opened := update w.opened ch (w.opened ch ++ [plaintext]) } ch := by
  obtain ⟨s, hs, rfl⟩ := h.plaintext_eq_ok hok
  have hlt := (List.getElem?_eq_some_iff.mp hs).1
  have hnext : saturatingAdd (w.opened ch).length 1 = (w.opened ch).length + 1 :=
    min_eq_left (hlt.trans_le h.sent_le)
  rw [h.opener_eq]
  constructor <;> simp only [update_self]
  case sealer_eq => exact h.sealer_eq
  case opener_eq => simp only [length_append, length_singleton, hnext]
  case sent_le => exact h.sent_le
  case nonces => exact h.nonces
  case numbered => exact h.numbered
  case records => exact h.records
  case opened_sent =>
    refine prefix_snoc h.opened_sent ?_
    rw [getElem?_map, hs]
    rfl

theorem Sound.of_eq (h : Sound kdf cipher w ch) {w' : WsWorld Key}
    (hlog : Aead.under (ch.key kdf) w'.log = Aead.under (ch.key kdf) w.log)
    (hsealer : w'.sealer ch = w.sealer ch) (hopener : w'.opener ch = w.opener ch)
    (hsent : w'.sent ch = w.sent ch) (hopened : w'.opened ch = w.opened ch) :
    Sound kdf cipher w' ch := by
  constructor <;> simp only [hlog, hsealer, hopener, hsent, hopened]
  exacts [h.sealer_eq, h.opener_eq, h.sent_le, h.nonces, h.numbered, h.records, h.opened_sent]

theorem sound_exec (h : ∀ ch, Sound kdf cipher w ch) (call : WsCall) (ch : WsChannel) :
    Sound kdf cipher (w.exec cipher call) ch := by
  cases call with
  | sealRecord ch' aad plaintext =>
    rcases w.exec_seal ch' aad plaintext with hsame | ⟨call, record, hrecord, hexec⟩
    · rw [hsame]
      exact h ch
    · rw [hexec]
      by_cases hch : ch = ch'
      · subst hch
        exact (h ch).seal hrecord
      · have hkey : call.key ≠ ch.key kdf := by
          rw [(WsSealer.record_call hrecord).2.1, (h ch').sealer_eq]
          exact fun heq => hch (WsChannel.key_injective kdf heq).symm
        exact (h ch).of_eq (Aead.under_snoc_of_ne w.log hkey) (update_of_ne hch ..) rfl
          (update_of_ne hch ..) rfl
  | openRecord ch' aad record =>
    rcases w.exec_openRecord ch' aad record with hsame | ⟨plaintext, hok, hexec⟩
    · rw [hsame]
      exact h ch
    · rw [hexec]
      by_cases hch : ch = ch'
      · subst hch
        exact (h ch).openRecord hok
      · exact (h ch).of_eq rfl rfl (update_of_ne hch ..) rfl (update_of_ne hch ..)

variable (kdf cipher) in
theorem sound_after (calls : List WsCall) (ch : WsChannel)
    : Sound kdf cipher (after kdf cipher calls) ch :=
  @run_invariant _ _ (exec cipher) (fun w => ∀ ch, Sound kdf cipher w ch)
    (fun _ call h => sound_exec h call) _ sound_start calls ch

end WsWorld

/-- After any calls by an attacker: what an opener returned is the front of what its peer sealed, a
record that does not open leaves the opener as it is, the record after the opened ones opens, no nonce
was used twice, and a sealer at the last counter refuses. -/
theorem ws_channel_secure [DecidableEq Key] (kdf : KeyDerivation Key) (cipher : Cipher Key tagBytes)
    (calls : List WsCall) (ch : WsChannel) :
    let w := WsWorld.after kdf cipher calls
    w.opened ch <+: (w.sent ch).map (·.plaintext) ∧
    (∀ aad record, ((w.opener ch).openRecord w.log aad record).2.isOk = false →
      ((w.opener ch).openRecord w.log aad record).1 = w.opener ch) ∧
    (∀ s, (w.sent ch)[(w.opened ch).length]? = some s →
      ((w.opener ch).openRecord w.log s.aad s.record).2 = .ok s.plaintext) ∧
    ((w.sent ch).map (·.nonce)).Nodup ∧
    ((w.sealer ch).nextCounter = wordMax → ∀ aad plaintext,
      ((w.sealer ch).seal cipher aad plaintext).2.isOk = false) := by
  intro w
  have h := WsWorld.sound_after kdf cipher calls ch
  refine ⟨h.opened_sent, fun aad record herror => ?_, fun s hs => ?_, ?_, fun hmax aad plaintext => ?_⟩
  · unfold WsOpener.openRecord at herror ⊢
    split at herror
    · rfl
    · cases herror
  · unfold WsOpener.openRecord
    rw [h.plaintext_next hs]
  · rw [h.nonces]
    exact h.numbered.nodup (h.length_under ▸ h.sent_le) (fun i hi j hj => wsNonce_inj hi hj)
  · unfold WsSealer.seal
    cases hrecord : (w.sealer ch).record cipher aad plaintext with
    | error e => rfl
    | ok out => exact absurd hmax (WsSealer.record_call hrecord).1

end Abyssal.Transport
