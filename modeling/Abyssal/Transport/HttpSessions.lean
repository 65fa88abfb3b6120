import Abyssal.Transport.HttpRecords

/-! HTTP sessions under attack. Every direction of a session may have any number of sealers and
openers, since a relay makes new ones for each request. The attacker chooses what is sealed and feeds
the openers byte strings of its own. -/

namespace Abyssal.Transport

open List hiding Vector
open Function

variable {Key : Type}

structure HttpMessage where
  handle : Vector UInt8 16
  aad : Bytes
  plaintext : Bytes

abbrev HttpEnd := HttpChannel × Nat

structure HttpWorld (Key : Type) where
  log : List (Encryption Key)
  sealer : HttpEnd → HttpSealer Key
  opener : HttpEnd → HttpOpener Key
  sent : HttpEnd → List HttpMessage
  opened : HttpEnd → List HttpMessage

inductive HttpCall
  | sealRecord (e : HttpEnd) (handle : Vector UInt8 16) (aad plaintext : Bytes)
  | openRecord (e : HttpEnd) (handle : Vector UInt8 16) (aad record : Bytes)

namespace HttpWorld

def start (kdf : KeyDerivation Key) : HttpWorld Key :=
  ⟨[], fun e => e.1.sealer kdf, fun e => e.1.opener kdf, fun _ => [], fun _ => []⟩

def exec [DecidableEq Key] (cipher : Cipher Key tagBytes) (expand : Key → Bytes → Bytes) (w : HttpWorld Key) :
    HttpCall → HttpWorld Key
  | .sealRecord e handle aad plaintext =>
    match (w.sealer e).seal cipher expand handle aad plaintext with
    | (sealer, .error _) => { w with sealer := update w.sealer e sealer }
    | (sealer, .ok (call, _)) =>
      { w with
        log := w.log ++ [call]
        sealer := update w.sealer e sealer
        sent := update w.sent e (w.sent e ++ [⟨handle, aad, plaintext⟩]) }
  | .openRecord e handle aad record =>
    match (w.opener e).openRecord expand w.log handle aad record with
    | (opener, .error _) => { w with opener := update w.opener e opener }
    | (opener, .ok plaintext) =>
      { w with
        opener := update w.opener e opener
        opened := update w.opened e (w.opened e ++ [⟨handle, aad, plaintext⟩]) }

def after [DecidableEq Key] (kdf : KeyDerivation Key) (cipher : Cipher Key tagBytes)
    (expand : Key → Bytes → Bytes) (calls : List HttpCall) : HttpWorld Key :=
  runFrom (exec cipher expand) (start kdf) calls

structure Sound (kdf : KeyDerivation Key) (w : HttpWorld Key) : Prop where
  sealer_eq : ∀ e, w.sealer e =
    { e.1.sealer kdf with usedHandles := ((w.sent e).map (·.handle)).toFinset }
  opener_eq : ∀ e, w.opener e =
    { e.1.opener kdf with usedHandles := ((w.opened e).map (·.handle)).toFinset }
  sent_nodup : ∀ e, ((w.sent e).map (·.handle)).Nodup
  opened_nodup : ∀ e, ((w.opened e).map (·.handle)).Nodup
  logged : ∀ entry ∈ w.log, ∃ e, ∃ m ∈ w.sent e, ∃ n, m.aad.length ≤ maxAadBytes ∧
    entry.key = e.1.key kdf ∧ entry.plaintext = m.plaintext ∧
    entry.aad = canonicalParts
      [httpLayout e.1.direction e.1.binding.sessionId m.handle n, m.aad]

variable {kdf : KeyDerivation Key} {cipher : Cipher Key tagBytes} {expand : Key → Bytes → Bytes}
  {w : HttpWorld Key} {e : HttpEnd}
  {record plaintext : Bytes} {handles : Finset (Vector UInt8 16)} {handle : Vector UInt8 16}

theorem sound_start : Sound kdf (start kdf) where
  sealer_eq _ := rfl
  opener_eq _ := rfl
  sent_nodup _ := nodup_nil
  opened_nodup _ := nodup_nil
  logged _ h := by cases h

theorem Sound.sent_of_plaintext [DecidableEq Key] (h : Sound kdf w) {aad : Bytes}
    (hok : (w.opener e).plaintext expand w.log handle aad record = .ok (plaintext, handles)) :
    ∃ n, ⟨handle, aad, plaintext⟩ ∈ w.sent (e.1, n) := by
  obtain ⟨-, -, haad, nonce, ciphertext, hentry⟩ := HttpOpener.plaintext_eq_ok hok
  simp only [h.opener_eq e, HttpChannel.opener] at hentry
  obtain ⟨⟨ch, n⟩, m, hm, size, hbound, hkey, hplain, hlayout⟩ :=
    h.logged _ (Aead.mem_under.mp hentry).1
  obtain rfl : e.1 = ch := HttpChannel.key_injective kdf hkey
  obtain ⟨hhandle, haad⟩ := httpAad_inj haad hbound hlayout
  refine ⟨n, ?_⟩
  obtain ⟨handle', aad', plaintext'⟩ := m
  obtain rfl : handle = handle' := hhandle
  obtain rfl : aad = aad' := haad
  obtain rfl : plaintext = plaintext' := hplain
  exact hm

theorem nodup_snoc {ms : List HttpMessage} {m : HttpMessage} (h : (ms.map (·.handle)).Nodup)
    (hm : m.handle ∉ (ms.map (·.handle)).toFinset) : ((ms ++ [m]).map (·.handle)).Nodup := by
  rw [map_append, map_singleton, ← concat_eq_append]
  exact h.concat fun hmem => hm (mem_toFinset.mpr hmem)

theorem toFinset_snoc (ms : List HttpMessage) (m : HttpMessage) :
    ((ms ++ [m]).map (·.handle)).toFinset =
      insert m.handle ((ms.map (·.handle)).toFinset) := by
  ext handle
  simp

theorem Sound.seal (h : Sound kdf w) {aad : Bytes}
    {call : Encryption Key}
    (hrecord : (w.sealer e).record cipher expand handle aad plaintext = .ok (call, record, handles)) :
    Sound kdf { w with
      log := w.log ++ [call]
      sealer := update w.sealer e { w.sealer e with usedHandles := handles }
      sent := update w.sent e (w.sent e ++ [⟨handle, aad, plaintext⟩]) } := by
  obtain ⟨hfresh, rfl, haad, hkey, hplain, hlayout⟩ := HttpSealer.record_eq_ok hrecord
  rw [h.sealer_eq e] at hfresh hkey hlayout
  refine ⟨fun e' => ?_, h.opener_eq, fun e' => ?_, h.opened_nodup, fun entry hentry => ?_⟩
  · by_cases he : e' = e
    · subst he
      simp only [update_self, h.sealer_eq e', toFinset_snoc]
    · simp only [update_of_ne he, h.sealer_eq e']
  · by_cases he : e' = e
    · subst he
      simp only [update_self]
      exact nodup_snoc (h.sent_nodup e') hfresh
    · simp only [update_of_ne he]
      exact h.sent_nodup e'
  · rcases mem_append.mp hentry with hentry | hentry
    · obtain ⟨e', m, hm, n, hfacts⟩ := h.logged entry hentry
      refine ⟨e', m, ?_, n, hfacts⟩
      by_cases he : e' = e
      · subst he
        simp only [update_self]
        exact mem_append_left _ hm
      · simpa only [update_of_ne he] using hm
    · obtain rfl := mem_singleton.mp hentry
      refine ⟨e, ⟨handle, aad, plaintext⟩, ?_, _, haad, hkey, hplain, hlayout⟩
      simp only [update_self]
      exact mem_append_right _ (mem_singleton_self _)

theorem Sound.openRecord [DecidableEq Key] (h : Sound kdf w) {aad : Bytes}
    (hok : (w.opener e).plaintext expand w.log handle aad record = .ok (plaintext, handles)) :
    Sound kdf { w with
      opener := update w.opener e { w.opener e with usedHandles := handles }
      opened := update w.opened e (w.opened e ++ [⟨handle, aad, plaintext⟩]) } := by
  obtain ⟨hfresh, rfl, -⟩ := HttpOpener.plaintext_eq_ok hok
  rw [h.opener_eq e] at hfresh
  refine ⟨h.sealer_eq, fun e' => ?_, h.sent_nodup, fun e' => ?_, h.logged⟩
  · by_cases he : e' = e
    · subst he
      simp only [update_self, h.opener_eq e', toFinset_snoc]
    · simp only [update_of_ne he, h.opener_eq e']
  · by_cases he : e' = e
    · subst he
      simp only [update_self]
      exact nodup_snoc (h.opened_nodup e') hfresh
    · simp only [update_of_ne he]
      exact h.opened_nodup e'

theorem sound_exec [DecidableEq Key] (h : Sound kdf w) (call : HttpCall) :
    Sound kdf (w.exec cipher expand call) := by
  cases call with
  | sealRecord e handle aad plaintext =>
    cases hrecord : (w.sealer e).record cipher expand handle aad plaintext with
    | error error =>
      simpa only [exec, HttpSealer.seal, hrecord, update_eq_self] using h
    | ok out =>
      simpa only [exec, HttpSealer.seal, hrecord] using h.seal hrecord
  | openRecord e handle aad record =>
    cases hok : (w.opener e).plaintext expand w.log handle aad record with
    | error error =>
      simpa only [exec, HttpOpener.openRecord, hok, update_eq_self] using h
    | ok out =>
      simpa only [exec, HttpOpener.openRecord, hok] using h.openRecord hok

variable (kdf cipher expand) in
theorem sound_after [DecidableEq Key] (calls : List HttpCall) :
    Sound kdf (after kdf cipher expand calls) :=
  @run_invariant _ _ (exec cipher expand) (Sound kdf) (fun _ call h => sound_exec h call) _
    sound_start calls

end HttpWorld

theorem httpHeader_eq_ok {d : Direction} {sessionId : Vector UInt8 32} {handle : Vector UInt8 16}
    {n : Nat} {header : Bytes} :
    httpHeader d sessionId handle n = .ok header ↔
      sessionId ≠ zeros 32 ∧ n < 2 ^ 32 ∧ header = httpLayout d sessionId handle n := by
  simp [httpHeader, bind_eq_ok, refuseIf_eq_ok, @eq_comm _ header]

/-- The decoder accepts the headers that are written, in front of a ciphertext of the length they
give, and those for the session of zeros, which are never written. -/
theorem decodeHttp_iff_header {record : Bytes} {decoded : DecodedHttpRecord} :
    decodeHttp record = .ok decoded ↔
      record = decoded.header ++ decoded.ciphertext ∧ tagBytes < decoded.ciphertext.length ∧
      decoded.ciphertext.length ≤ maxRecordPlaintextBytes + tagBytes ∧
      (httpHeader decoded.direction decoded.sessionId decoded.handle decoded.ciphertext.length =
          .ok decoded.header ∨
        decoded.sessionId = zeros 32 ∧ decoded.header = httpLayout decoded.direction (zeros 32)
          decoded.handle decoded.ciphertext.length) := by
  rw [decodeHttp_eq_ok, httpHeader_eq_ok]
  constructor
  · rintro ⟨hrecord, hheader, hmin, hmax⟩
    have hword : decoded.ciphertext.length < 2 ^ 32 := lt_of_le_of_lt hmax (by decide)
    refine ⟨hrecord, hmin, hmax, ?_⟩
    by_cases hzero : decoded.sessionId = zeros 32
    · exact .inr ⟨hzero, hzero ▸ hheader⟩
    · exact .inl ⟨hzero, hword, hheader⟩
  · rintro ⟨hrecord, hmin, hmax, ⟨-, -, hheader⟩ | ⟨hzero, hheader⟩⟩
    · exact ⟨hrecord, hheader, hmin, hmax⟩
    · exact ⟨hrecord, hzero ▸ hheader, hmin, hmax⟩

/-- After any calls by an attacker: no sealer sealed a handle twice and no opener opened one twice, a
record opens only to a message that a sealer of its session and direction sealed with the same handle
and associated data, and a record that does not open leaves the opener as it is. The decoder accepts
the headers that are written and those for the session of zeros. -/
theorem http_records_secure [DecidableEq Key] (kdf : KeyDerivation Key)
    (cipher : Cipher Key tagBytes) (expand : Key → Bytes → Bytes) (calls : List HttpCall)
    (e : HttpEnd) :
    let w := HttpWorld.after kdf cipher expand calls
    ((w.sent e).map (·.handle)).Nodup ∧
    (∀ handle aad record plaintext,
      ((w.opener e).openRecord expand w.log handle aad record).2 = .ok plaintext →
        ∃ n, ⟨handle, aad, plaintext⟩ ∈ w.sent (e.1, n)) ∧
    ((w.opened e).map (·.handle)).Nodup ∧
    (∀ handle aad record error,
      ((w.opener e).openRecord expand w.log handle aad record).2 = .error error →
        ((w.opener e).openRecord expand w.log handle aad record).1 = w.opener e) ∧
    (∀ record decoded, decodeHttp record = .ok decoded ↔
      record = decoded.header ++ decoded.ciphertext ∧ tagBytes < decoded.ciphertext.length ∧
      decoded.ciphertext.length ≤ maxRecordPlaintextBytes + tagBytes ∧
      (httpHeader decoded.direction decoded.sessionId decoded.handle decoded.ciphertext.length =
          .ok decoded.header ∨
        decoded.sessionId = zeros 32 ∧ decoded.header = httpLayout decoded.direction (zeros 32)
          decoded.handle decoded.ciphertext.length)) := by
  intro w
  have h := HttpWorld.sound_after kdf cipher expand calls
  refine ⟨h.sent_nodup e, fun handle aad record plaintext hok => ?_, h.opened_nodup e,
    fun handle aad record error herror => ?_, fun _ _ => decodeHttp_iff_header⟩
  · cases hplain : (w.opener e).plaintext expand w.log handle aad record with
    | error error => simp [HttpOpener.openRecord, hplain] at hok
    | ok out =>
      simp only [HttpOpener.openRecord, hplain, Except.ok.injEq] at hok
      obtain ⟨p, handles⟩ := out
      obtain rfl : p = plaintext := hok
      exact h.sent_of_plaintext hplain
  · cases hplain : (w.opener e).plaintext expand w.log handle aad record with
    | error error => simp only [HttpOpener.openRecord, hplain]
    | ok out => simp [HttpOpener.openRecord, hplain] at herror

def zeroSessionRecord : Bytes :=
  httpLayout .clientToServer (zeros 32) (Vector.replicate 16 1) 17 ++ List.replicate 17 0

theorem decodeHttp_zeroSession :
    (decodeHttp zeroSessionRecord).toOption.isSome = true ∧
      ∀ direction sessionId handle n,
        httpHeader direction sessionId handle n ≠ .ok (zeroSessionRecord.take httpHeaderBytes) := by
  refine ⟨by decide, fun d sessionId handle n hheader => ?_⟩
  obtain ⟨hne, -, hlayout⟩ := httpHeader_eq_ok.mp hheader
  have htake : zeroSessionRecord.take httpHeaderBytes =
      httpLayout .clientToServer (zeros 32) (Vector.replicate 16 1) 17 :=
    take_left' (length_httpLayout ..)
  have hleft := (httpLayout_fields d sessionId handle n []).2.2.2.1
  have hright := (httpLayout_fields .clientToServer (zeros 32) (Vector.replicate 16 1) 17 []).2.2.2.1
  rw [← hlayout, htake] at hleft
  exact hne (Vector.toList_inj.mp (hleft.symm.trans hright))

end Abyssal.Transport
