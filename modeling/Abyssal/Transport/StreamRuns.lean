import Abyssal.Transport.Streams

/-! Runs of all attachment streams at once. The attacker chooses payloads and feeds the openers byte
strings of its own. -/

namespace Abyssal.Transport

open List hiding Vector
open Function

structure SealedFrame where
  frame : AttachmentFrame
  record : Bytes

structure StreamWorld (Key : Type) where
  log : List (Encryption Key)
  sealer : StreamChannel → AttachmentStream Key
  opener : StreamChannel → AttachmentStream Key
  sent : StreamChannel → List SealedFrame
  opened : StreamChannel → List AttachmentFrame

inductive StreamCall
  | sealData (ch : StreamChannel) (random : Nat → UInt8) (payload : Bytes)
  | sealPadding (ch : StreamChannel) (random : Nat → UInt8)
  | sealEnd (ch : StreamChannel) (random : Nat → UInt8)
  | openRecord (ch : StreamChannel) (record : Bytes)

namespace StreamWorld

variable {Key : Type} [DecidableEq Key]

def start (kdf : KeyDerivation Key) (lengths : StreamLengths) : StreamWorld Key :=
  ⟨[], fun ch => ch.stream kdf (lengths.sealed ch), fun ch => ch.stream kdf (lengths.opened ch),
    fun _ => [], fun _ => []⟩

def sealFrame (w : StreamWorld Key) (ch : StreamChannel) (frame : AttachmentFrame)
    (out : AttachmentStream Key × List (Encryption Key) × Except TransportError Bytes) :
    StreamWorld Key :=
  { w with
    log := w.log ++ out.2.1
    sealer := update w.sealer ch out.1
    sent := update w.sent ch (w.sent ch ++ match out.2.2 with
      | .ok record => [⟨frame, record⟩]
      | .error _ => []) }

def exec (cipher : Cipher Key tagBytes) (w : StreamWorld Key) : StreamCall → StreamWorld Key
  | .sealData ch random payload =>
    w.sealFrame ch (.data payload) ((w.sealer ch).sealData cipher random payload)
  | .sealPadding ch random => w.sealFrame ch .padding ((w.sealer ch).sealPadding cipher random)
  | .sealEnd ch random => w.sealFrame ch .endOfStream ((w.sealer ch).sealEnd cipher random)
  | .openRecord ch record =>
    let out := (w.opener ch).openRecord w.log record
    { w with
      opener := update w.opener ch out.1
      opened := update w.opened ch (w.opened ch ++ match out.2 with
        | .ok frame => [frame]
        | .error _ => []) }

def after (kdf : KeyDerivation Key) (cipher : Cipher Key tagBytes) (lengths : StreamLengths)
    (calls : List StreamCall) : StreamWorld Key :=
  runFrom (exec cipher) (start kdf lengths) calls

structure Sound (kdf : KeyDerivation Key) (cipher : Cipher Key tagBytes) (lengths : StreamLengths)
    (w : StreamWorld Key) (ch : StreamChannel) : Prop where
  sealer_eq : ∃ p, Progress.run (.ofLength (lengths.sealed ch).1) ((w.sent ch).map (·.frame)) = some p ∧
    w.sealer ch = ch.streamAt kdf (lengths.sealed ch) (w.sent ch).length p
  opener_eq : ∃ q, Progress.run (.ofLength (lengths.opened ch).1) (w.opened ch) = some q ∧
    w.opener ch = ch.streamAt kdf (lengths.opened ch) (w.opened ch).length q
  length_under : (Aead.under (ch.key kdf) w.log).length = (w.sent ch).length
  numbered : Aead.Numbered (streamNonce ch.direction) (Aead.under (ch.key kdf) w.log)
  records : ∀ i s, (w.sent ch)[i]? = some s → ∃ e, (Aead.under (ch.key kdf) w.log)[i]? = some e ∧
    (ch.streamAt kdf (lengths.sealed ch) i .start).Seals cipher s.frame e s.record
  opened_sent : w.opened ch <+: (w.sent ch).map (·.frame)

variable {kdf : KeyDerivation Key} {cipher : Cipher Key tagBytes} {lengths : StreamLengths}
  {w : StreamWorld Key} {ch : StreamChannel}
  {s : SealedFrame} {frame : AttachmentFrame} {p : Progress}

theorem proper_length (n : AttachmentLength) : (StreamLayout.ofLength n.1).Proper :=
  StreamLayout.proper_ofLength n.2.1 n.2.2

section

variable (h : Sound kdf cipher lengths w ch)

include h

theorem Sound.sent_le : (w.sent ch).length ≤ 1025 := by
  obtain ⟨p, hp, -⟩ := h.sealer_eq
  have hle := (Progress.passed_of_run (proper_length _) hp).length_le (proper_length _)
  rwa [length_map] at hle

theorem Sound.opened_le : (w.opened ch).length ≤ (w.sent ch).length := by
  have hle := h.opened_sent.length_le
  rwa [length_map] at hle

theorem Sound.decrypt_iff {i : Nat} (hi : i ≤ 1025) {aad plaintext ciphertext : Bytes} :
    Aead.decrypt w.log (ch.key kdf) (streamNonce ch.direction i) aad ciphertext = some plaintext ↔
      (Aead.under (ch.key kdf) w.log)[i]? =
        some ⟨ch.key kdf, streamNonce ch.direction i, aad, plaintext, ciphertext⟩ := by
  have hmax : (1025 : Nat) < wordMax := by decide
  exact Aead.decrypt_numbered h.numbered (h.length_under ▸ h.sent_le.trans hmax.le)
    (fun i hi j hj => wsNonce_inj hi hj) (hi.trans_lt hmax)

theorem Sound.opener_counter : (w.opener ch).nextCounter < wordMax := by
  obtain ⟨q, -, heq⟩ := h.opener_eq
  rw [heq]
  exact (h.opened_le.trans h.sent_le).trans_lt (by decide)

theorem Sound.readFrame_eq_ok {record : Bytes}
    (hok : (w.opener ch).readFrame w.log record = .ok frame) :
    ∃ s, (w.sent ch)[(w.opened ch).length]? = some s ∧ s.frame = frame ∧ s.record = record := by
  obtain ⟨q, -, heq⟩ := h.opener_eq
  rw [heq] at hok
  obtain ⟨-, -, header, ciphertext, plaintext, hdecode, hdecrypt, hframe⟩ :=
    AttachmentStream.readFrame_eq_ok.mp hok
  have hentry := (h.decrypt_iff (h.opened_le.trans h.sent_le)).mp hdecrypt
  have hbound := (List.getElem?_eq_some_iff.mp hentry).1
  rw [h.length_under] at hbound
  obtain ⟨e, he, random, plaintext', hplaintext, hcall, hrecord⟩ :=
    h.records _ _ (getElem?_eq_getElem hbound)
  rw [hentry] at he
  obtain rfl := Option.some.inj he
  -- the entry fixes the associated data, hence the header, and the ciphertext
  obtain ⟨hrecordEq, hheader⟩ := decodeStreamRecord_append hdecode
  have haad : canonicalParts [header, streamContextDomain, ch.binding.context] =
      canonicalParts [streamHeader ch.direction (w.opened ch).length, streamContextDomain,
        ch.binding.context] := congrArg Encryption.aad hcall
  have hshort : Short header ∧ Short (streamHeader ch.direction (w.opened ch).length) := by
    rw [Short, Short, hheader, length_streamHeader]
    decide
  have hcontext : Short ch.binding.context := by
    rw [Short, StreamChannel.length_context]
    decide
  have hdomain : Short streamContextDomain := by decide
  have hparts := canonicalParts_inj haad rfl (by simp [hshort, hdomain, hcontext])
    (by simp [hshort, hdomain, hcontext])
  obtain rfl : header = streamHeader ch.direction (w.opened ch).length := (List.cons.inj hparts).1
  refine ⟨_, getElem?_eq_getElem hbound, ?_, hrecord.trans hrecordEq.symm⟩
  obtain rfl : plaintext = plaintext' := congrArg Encryption.plaintext hcall
  exact Except.ok.inj ((decodeFramePlaintext_frame hplaintext).2.symm.trans hframe)

theorem Sound.readFrame_next
    (hs : (w.sent ch)[(w.opened ch).length]? = some s) (hended : (w.opener ch).ended = false) :
    (w.opener ch).readFrame w.log s.record = .ok s.frame := by
  obtain ⟨q, -, heq⟩ := h.opener_eq
  obtain ⟨e, he, random, plaintext, hplaintext, rfl, hrecord⟩ := h.records _ s hs
  have hcounter := h.opener_counter
  rw [heq] at hended hcounter ⊢
  obtain ⟨hlength, hdecoded⟩ := decodeFramePlaintext_frame hplaintext
  refine AttachmentStream.readFrame_eq_ok.mpr ⟨hcounter.ne, hended, _, _, plaintext, ?_,
    (h.decrypt_iff (h.opened_le.trans h.sent_le)).mpr he, hdecoded⟩
  rw [hrecord]
  exact decodeStreamRecord_header hcounter.le ((cipher.length_encrypt ..).trans (by rw [hlength]))

end

theorem sound_start (ch : StreamChannel) : Sound kdf cipher lengths (start kdf lengths) ch where
  sealer_eq := ⟨.start, rfl, rfl⟩
  opener_eq := ⟨.start, rfl, rfl⟩
  length_under := rfl
  numbered := Aead.numbered_nil
  records := fun _ _ h => by cases h
  opened_sent := nil_prefix

theorem Sound.of_eq (h : Sound kdf cipher lengths w ch) {w' : StreamWorld Key}
    (hlog : Aead.under (ch.key kdf) w'.log = Aead.under (ch.key kdf) w.log)
    (hsealer : w'.sealer ch = w.sealer ch) (hopener : w'.opener ch = w.opener ch)
    (hsent : w'.sent ch = w.sent ch) (hopened : w'.opened ch = w.opened ch) :
    Sound kdf cipher lengths w' ch := by
  constructor <;> simp only [hlog, hsealer, hopener, hsent, hopened]
  exacts [h.sealer_eq, h.opener_eq, h.length_under, h.numbered, h.records, h.opened_sent]

theorem Sound.sealFrame_self (h : Sound kdf cipher lengths w ch) {call : Encryption Key}
    {record : Bytes} (hstep : (w.sealer ch).progress.step (w.sealer ch).layout frame = some p)
    (hseals : (w.sealer ch).Seals cipher frame call record) :
    Sound kdf cipher lengths
      (w.sealFrame ch frame ((w.sealer ch).advance p, [call], .ok record)) ch := by
  obtain ⟨q, hrun, heq⟩ := h.sealer_eq
  rw [heq] at hstep hseals ⊢
  have hkey : call.key = ch.key kdf ∧ call.nonce = streamNonce ch.direction (w.sent ch).length := by
    obtain ⟨_, _, -, rfl, -⟩ := hseals
    exact ⟨rfl, rfl⟩
  have hunder := Aead.under_snoc_self w.log hkey.1
  constructor <;> simp only [sealFrame, update_self, hunder, map_append,
    map_singleton, length_append, length_singleton]
  case sealer_eq =>
    refine ⟨p, ?_, rfl⟩
    rw [Progress.run_snoc, hrun]
    exact hstep
  case opener_eq => exact h.opener_eq
  case length_under => rw [h.length_under]
  case numbered => exact h.numbered.snoc (hkey.2.trans (by rw [h.length_under]))
  case opened_sent => exact h.opened_sent.trans (prefix_append ..)
  case records => exact related_snoc h.length_under h.records hseals

theorem sound_sealFrame (h : ∀ ch, Sound kdf cipher lengths w ch)
    {out : AttachmentStream Key × List (Encryption Key) × Except TransportError Bytes}
    (hout : (w.sealer ch).SealOutcome cipher frame out) (ch' : StreamChannel) :
    Sound kdf cipher lengths (w.sealFrame ch frame out) ch' := by
  rcases hout with ⟨e, rfl⟩ | ⟨p, call, record, hstep, hseals, rfl⟩
  · simp only [sealFrame, append_nil, update_eq_self]
    exact h ch'
  · by_cases hch : ch' = ch
    · subst hch
      exact (h ch').sealFrame_self hstep hseals
    · have hkey : call.key ≠ ch'.key kdf := by
        obtain ⟨q, -, heq⟩ := (h ch).sealer_eq
        rw [heq] at hseals
        obtain ⟨_, _, -, rfl, -⟩ := hseals
        exact fun hsame => hch (StreamChannel.key_injective kdf hsame).symm
      exact (h ch').of_eq (Aead.under_snoc_of_ne w.log hkey) (update_of_ne hch ..) rfl
        (update_of_ne hch ..) rfl

section

variable (h : Sound kdf cipher lengths w ch)

include h

theorem Sound.passed_sealer : (w.sealer ch).layout.Proper ∧
      (w.sealer ch).progress.Passed (w.sealer ch).layout ((w.sent ch).map (·.frame)) := by
  obtain ⟨p, hp, heq⟩ := h.sealer_eq
  rw [heq]
  exact ⟨proper_length _, Progress.passed_of_run (proper_length _) hp⟩

theorem Sound.passed_opener : (w.opener ch).layout.Proper ∧
      (w.opener ch).progress.Passed (w.opener ch).layout (w.opened ch) := by
  obtain ⟨q, hq, heq⟩ := h.opener_eq
  rw [heq]
  exact ⟨proper_length _, Progress.passed_of_run (proper_length _) hq⟩

theorem Sound.openRecord_self (hs : (w.sent ch)[(w.opened ch).length]? = some s)
    (hstep : (w.opener ch).progress.step (w.opener ch).layout s.frame = some p) :
    Sound kdf cipher lengths { w with
      opener := update w.opener ch ((w.opener ch).advance p)
      opened := update w.opened ch (w.opened ch ++ [s.frame]) } ch := by
  obtain ⟨q, hrun, heq⟩ := h.opener_eq
  rw [heq] at hstep ⊢
  constructor <;> simp only [update_self, length_append, length_singleton]
  case sealer_eq => exact h.sealer_eq
  case opener_eq =>
    refine ⟨p, ?_, rfl⟩
    rw [Progress.run_snoc, hrun]
    exact hstep
  case length_under => exact h.length_under
  case numbered => exact h.numbered
  case records => exact h.records
  case opened_sent =>
    refine prefix_snoc h.opened_sent ?_
    rw [getElem?_map, hs]
    rfl

end

theorem exec_openRecord (h : ∀ ch, Sound kdf cipher lengths w ch) (ch : StreamChannel)
    (record : Bytes) :
    w.exec cipher (.openRecord ch record) = w ∨
      ∃ p s, (w.sent ch)[(w.opened ch).length]? = some s ∧ s.record = record ∧
        (w.opener ch).progress.step (w.opener ch).layout s.frame = some p ∧
        w.exec cipher (.openRecord ch record) = { w with
          opener := update w.opener ch ((w.opener ch).advance p)
          opened := update w.opened ch (w.opened ch ++ [s.frame]) } := by
  obtain ⟨hl, hp⟩ := (h ch).passed_opener
  rcases AttachmentStream.openRecord_outcome hl hp (h ch).opener_counter w.log record with
    ⟨e, hout⟩ | ⟨p, frame, hread, hstep, hout⟩
  · left
    simp only [exec, hout, append_nil, update_eq_self]
  · obtain ⟨s, hs, rfl, hrecord⟩ := (h ch).readFrame_eq_ok hread
    refine .inr ⟨p, s, hs, hrecord, hstep, ?_⟩
    simp only [exec, hout]

theorem sound_exec (h : ∀ ch, Sound kdf cipher lengths w ch) (call : StreamCall)
    (ch : StreamChannel) : Sound kdf cipher lengths (w.exec cipher call) ch := by
  cases call with
  | sealData ch' random payload =>
    obtain ⟨hl, hp⟩ := (h ch').passed_sealer
    exact sound_sealFrame h (AttachmentStream.sealData_outcome hl hp payload) ch
  | sealPadding ch' random => exact sound_sealFrame h AttachmentStream.sealPadding_outcome ch
  | sealEnd ch' random => exact sound_sealFrame h AttachmentStream.sealEnd_outcome ch
  | openRecord ch' record =>
    rcases exec_openRecord h ch' record with hsame | ⟨p, s, hs, -, hstep, hexec⟩
    · rw [hsame]
      exact h ch
    · rw [hexec]
      by_cases hch : ch = ch'
      · subst hch
        exact (h ch).openRecord_self hs hstep
      · exact (h ch).of_eq rfl rfl (update_of_ne hch ..) rfl (update_of_ne hch ..)

variable (kdf cipher lengths) in
theorem sound_after (calls : List StreamCall) (ch : StreamChannel) :
    Sound kdf cipher lengths (after kdf cipher lengths calls) ch :=
  @run_invariant _ _ (exec cipher) (fun w => ∀ ch, Sound kdf cipher lengths w ch)
    (fun _ call h => sound_exec h call) _ sound_start calls ch

theorem Sound.step_next (h : Sound kdf cipher lengths w ch)
    (hlengths : lengths.sealed ch = lengths.opened ch)
    (hs : (w.sent ch)[(w.opened ch).length]? = some s) :
    ∃ p, (w.opener ch).progress.step (w.opener ch).layout s.frame = some p := by
  obtain ⟨p, hp, -⟩ := h.sealer_eq
  obtain ⟨q, hq, heq⟩ := h.opener_eq
  obtain ⟨rest, hrest⟩ := prefix_snoc h.opened_sent (l := s.frame) (by
    rw [getElem?_map, hs]
    rfl)
  rw [← hrest, append_assoc, hlengths] at hp
  obtain ⟨q', q'', hq', hstep⟩ := Progress.exists_step_of_run hp
  obtain rfl : q = q' := Option.some.inj (hq.symm.trans hq')
  rw [heq]
  exact ⟨q'', hstep⟩

theorem Sound.openRecord_next (h : Sound kdf cipher lengths w ch)
    (hs : (w.sent ch)[(w.opened ch).length]? = some s)
    (hstep : (w.opener ch).progress.step (w.opener ch).layout s.frame = some p) :
    (w.opener ch).openRecord w.log s.record = ((w.opener ch).advance p, .ok s.frame) := by
  obtain ⟨hl, hp⟩ := h.passed_opener
  exact AttachmentStream.openRecord_of_step hl hp h.opener_counter
    (h.readFrame_next hs (Progress.ended_of_step hstep)) hstep

def feed (w : StreamWorld Key) (ch : StreamChannel) : List StreamCall :=
  ((w.sent ch).drop (w.opened ch).length).map fun s => .openRecord ch s.record

theorem opened_feed (h : ∀ ch, Sound kdf cipher lengths w ch)
    (hlengths : lengths.sealed ch = lengths.opened ch) :
    (runFrom (exec cipher) w (w.feed ch)).opened ch = (w.sent ch).map (·.frame) := by
  unfold feed
  generalize hrest : (w.sent ch).drop (w.opened ch).length = rest
  induction rest generalizing w with
  | nil =>
    refine (h ch).opened_sent.eq_of_length_le ?_
    rw [length_map]
    exact drop_eq_nil_iff.mp hrest
  | cons s rest ih =>
    have hs : (w.sent ch)[(w.opened ch).length]? = some s := by
      rw [← head?_drop, hrest]
      rfl
    obtain ⟨p, hstep⟩ := (h ch).step_next hlengths hs
    have hexec : w.exec cipher (.openRecord ch s.record) = { w with
        opener := update w.opener ch ((w.opener ch).advance p)
        opened := update w.opened ch (w.opened ch ++ [s.frame]) } := by
      simp only [exec, (h ch).openRecord_next hs hstep]
    have hnext := ih (sound_exec h (.openRecord ch s.record)) (by
      rw [hexec]
      simp only [update_self, length_append, length_singleton]
      rw [← drop_drop, hrest]
      rfl)
    rw [hexec] at hnext
    rw [map_cons, runFrom, foldl_cons, hexec]
    exact hnext

theorem Sound.complete (h : Sound kdf cipher lengths w ch) (hended : (w.opener ch).ended = true) :
    lengths.opened ch = lengths.sealed ch ∧ w.opened ch = (w.sent ch).map (·.frame) ∧
      ((w.opened ch).flatMap AttachmentFrame.payload).length = (lengths.sealed ch).1 := by
  obtain ⟨p, hp, -⟩ := h.sealer_eq
  obtain ⟨q, hq, heq⟩ := h.opener_eq
  rw [heq] at hended
  have hpassed := Progress.passed_of_run (proper_length _) hq
  have hend : .endOfStream ∈ w.opened ch := by
    obtain ⟨chunks, -, hframes⟩ := hpassed.ended_iff.mp hended
    rw [hframes]
    exact mem_append_right _ (mem_singleton_self _)
  have hall : w.opened ch = (w.sent ch).map (·.frame) := by
    obtain ⟨rest, hrest⟩ := h.opened_sent
    cases rest with
    | nil => rw [← hrest, append_nil]
    | cons frame rest =>
      rw [← hrest] at hp
      obtain ⟨q', q'', hq', hstep⟩ := Progress.exists_step_of_run hp
      have htrue := (Progress.passed_of_run (proper_length _) hq').ended_of_mem hend
      rw [Progress.ended_of_step hstep] at htrue
      cases htrue
  have hsealed := Progress.passed_of_run (proper_length (lengths.sealed ch)) hp
  rw [← hall] at hsealed
  have hbytes := hsealed.bytes_eq_of_ended (proper_length _) (hsealed.ended_of_mem hend)
  have hbytes' := hpassed.bytes_eq_of_ended (proper_length _) hended
  exact ⟨Subtype.ext (hbytes'.symm.trans hbytes), hall, hbytes⟩

end StreamWorld

/-- After any calls by an attacker: the data opened is the front of the data sealed, the opener is
complete exactly when it has opened the whole layout, a record that does not open leaves it as it is,
no record opens but the next one of its own sealer, it completes only under the length of its sealer
and then with all of the payload, and under that length it opens the sealer's own records in order. -/
theorem stream_secure {Key : Type} [DecidableEq Key] (kdf : KeyDerivation Key)
    (cipher : Cipher Key tagBytes) (lengths : StreamLengths) (calls : List StreamCall)
    (ch : StreamChannel) :
    let w := StreamWorld.after kdf cipher lengths calls
    let sealed := (w.sent ch).map (·.frame)
    (w.opened ch).flatMap AttachmentFrame.payload <+: sealed.flatMap AttachmentFrame.payload ∧
    ((w.opener ch).isComplete = true ↔
      Progress.Complete (.ofLength (lengths.opened ch).1) (w.opened ch)) ∧
    (∀ record, ((w.opener ch).openRecord w.log record).2.isOk = false →
      ((w.opener ch).openRecord w.log record).1 = w.opener ch) ∧
    (∀ record frame, ((w.opener ch).openRecord w.log record).2 = .ok frame →
      ∃ s, (w.sent ch)[(w.opened ch).length]? = some s ∧ s.record = record ∧ s.frame = frame) ∧
    ((w.opener ch).isComplete = true → lengths.opened ch = lengths.sealed ch ∧
      w.opened ch = sealed ∧
      (sealed.flatMap AttachmentFrame.payload).length = (lengths.sealed ch).1) ∧
    (lengths.sealed ch = lengths.opened ch →
      (runFrom (StreamWorld.exec cipher) w (w.feed ch)).opened ch = sealed) := by
  intro w sealed
  have hall := StreamWorld.sound_after kdf cipher lengths calls
  have h := hall ch
  obtain ⟨hl, hp⟩ := h.passed_opener
  refine ⟨?_, ?_, fun record herror => ?_, fun record frame hok => ?_, fun hended => ?_,
    StreamWorld.opened_feed hall⟩
  · obtain ⟨rest, hrest⟩ := h.opened_sent
    exact ⟨rest.flatMap AttachmentFrame.payload, by rw [← flatMap_append, hrest]⟩
  · obtain ⟨q, hq, heq⟩ := h.opener_eq
    have hiff := (Progress.passed_of_run (StreamWorld.proper_length _) hq).ended_iff
    rw [← hiff, heq]
    rfl
  · rcases AttachmentStream.openRecord_outcome hl hp h.opener_counter w.log record with
      ⟨e, hout⟩ | ⟨p, frame, -, -, hout⟩
    · rw [hout]
    · rw [hout] at herror
      cases herror
  · rcases AttachmentStream.openRecord_outcome hl hp h.opener_counter w.log record with
      ⟨e, hout⟩ | ⟨p, frame', hread, -, hout⟩
    · rw [hout] at hok
      cases hok
    · rw [hout] at hok
      obtain rfl := Except.ok.inj hok
      obtain ⟨s, hs, hframe, hrecord⟩ := h.readFrame_eq_ok hread
      exact ⟨s, hs, hrecord, hframe⟩
  · obtain ⟨hlengths, hopened, hbytes⟩ := h.complete hended
    refine ⟨hlengths, hopened, ?_⟩
    rw [hopened] at hbytes
    exact hbytes

namespace Scenario

def upload : StreamChannel where
  root := Vector.replicate 32 1
  binding := ⟨Vector.replicate 32 2, Vector.replicate 32 3, Vector.replicate 16 4, by decide,
    by decide, by decide⟩
  direction := .clientToServer
  root_ne := by decide

def lengths : StreamLengths :=
  ⟨fun _ => ⟨524289, by decide⟩, fun _ => ⟨524288, by decide⟩⟩

def chunk : Bytes := List.replicate 262144 7

def oneChunk : StreamWorld (List UInt8 × List UInt8 × List UInt8) :=
  StreamWorld.after .free (.clear _ _) lengths [.sealData upload (fun _ => 0) chunk]

end Scenario

open Scenario

theorem step_first_chunk {n : Nat} (hn : attachmentStreamPayloadBytes < n)
    (hcount : 0 < (StreamLayout.ofLength n).dataFrames) {payload : Bytes}
    (hpayload : payload.length = attachmentStreamPayloadBytes) :
    Progress.start.step (.ofLength n) (.data payload) =
      some ⟨1, 0, 0 + payload.length, false⟩ := by
  refine if_pos ⟨rfl, rfl, hcount, ?_⟩
  rw [hpayload]
  simp only [StreamLayout.ofLength, Progress.start]
  omega

/-- The first data frame of a sealer opens under another length. -/
theorem chunk_opens_under_other_length :
    ∃ s, oneChunk.sent upload = [s] ∧
      ((oneChunk.opener upload).openRecord oneChunk.log s.record).2 = .ok (.data chunk) := by
  have hchunk : chunk.length = attachmentStreamPayloadBytes := length_replicate
  obtain ⟨call, record, hseal⟩ := AttachmentStream.sealData_of_step (.clear _ _) (fun _ => 0)
    (StreamWorld.proper_length (lengths.sealed upload)) (Progress.passed_start _)
    (s := upload.stream .free (lengths.sealed upload)) (by decide)
    (step_first_chunk (n := 524289) (by decide) (by decide) hchunk)
  have hworld : oneChunk = StreamWorld.sealFrame (.start .free lengths) upload (.data chunk)
      (_, [call], .ok record) :=
    congrArg (StreamWorld.sealFrame _ upload (.data chunk)) hseal
  have hsent : oneChunk.sent upload = [⟨.data chunk, record⟩] := by
    rw [hworld]
    simp only [StreamWorld.sealFrame, update_self]
    rfl
  have hopened : oneChunk.opened upload = [] := by
    rw [hworld]
    rfl
  have hopener : oneChunk.opener upload = upload.stream .free (lengths.opened upload) := by
    rw [hworld]
    rfl
  have hsound := StreamWorld.sound_after .free (.clear _ tagBytes) lengths
    [.sealData upload (fun _ => 0) chunk] upload
  refine ⟨_, hsent, ?_⟩
  have hnext := hsound.openRecord_next (s := ⟨.data chunk, record⟩)
    (p := ⟨1, 0, 0 + chunk.length, false⟩) (by
      change (oneChunk.sent _)[(oneChunk.opened _).length]? = _
      rw [hsent, hopened]
      rfl) (by
      change (oneChunk.opener _).progress.step (oneChunk.opener _).layout _ = _
      rw [hopener]
      exact step_first_chunk (by decide) (by decide) hchunk)
  exact congrArg Prod.snd hnext

end Abyssal.Transport
