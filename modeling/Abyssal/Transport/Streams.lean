import Abyssal.Base.Runs
import Abyssal.Transport.Attachments

/-! Attachment streams under attack. A sealer and an opener both keep the same small machine, the
progress of a stream through its layout; the sealer runs it on the frames it seals and the opener on
the frames it opens. An opener opens exactly the next record of the sealer with its key, so the frames
it opened are the first ones sealed. -/

namespace Abyssal.Transport

open Option
open List hiding Vector

structure Progress where
  dataFrames : Nat
  paddingFrames : Nat
  bytesSeen : Nat
  ended : Bool

variable {payload : Bytes} {frame : AttachmentFrame}

namespace Progress

def start : Progress := ⟨0, 0, 0, false⟩

def step (l : StreamLayout) (p : Progress) : AttachmentFrame → Option Progress
  | .data payload =>
    if p.ended = false ∧ p.paddingFrames = 0 ∧ p.dataFrames < l.dataFrames ∧
        payload.length = min (l.ciphertextLen - p.dataFrames * attachmentStreamPayloadBytes)
          attachmentStreamPayloadBytes then
      some { p with dataFrames := p.dataFrames + 1, bytesSeen := p.bytesSeen + payload.length }
    else none
  | .padding =>
    if p.ended = false ∧ p.dataFrames = l.dataFrames ∧
        p.dataFrames + p.paddingFrames < l.bucketFrames then
      some { p with paddingFrames := p.paddingFrames + 1 }
    else none
  | .endOfStream =>
    if p.ended = false ∧ p.bytesSeen = l.ciphertextLen ∧
        p.dataFrames + p.paddingFrames = l.bucketFrames then
      some { p with ended := true }
    else none

structure Passed (l : StreamLayout) (frames : List AttachmentFrame) (p : Progress) : Prop where
  shape : ∃ chunks : List Bytes, frames = chunks.map .data ++
    List.replicate p.paddingFrames .padding ++ (if p.ended then [.endOfStream] else []) ∧
    chunks.length = p.dataFrames
  bytes : p.bytesSeen = (frames.flatMap AttachmentFrame.payload).length
  covered : p.bytesSeen = min l.ciphertextLen (p.dataFrames * attachmentStreamPayloadBytes)
  data_le : p.dataFrames ≤ l.dataFrames
  padded : 0 < p.paddingFrames → p.dataFrames = l.dataFrames
  bucket_le : p.dataFrames + p.paddingFrames ≤ l.bucketFrames
  finished : p.ended = true →
    p.dataFrames = l.dataFrames ∧ p.dataFrames + p.paddingFrames = l.bucketFrames
  length_eq : frames.length = p.dataFrames + p.paddingFrames + (if p.ended then 1 else 0)

variable {l : StreamLayout} {frames : List AttachmentFrame} {p p' : Progress}

theorem passed_start (l : StreamLayout) : Passed l [] start where
  shape := ⟨[], rfl, rfl⟩
  bytes := rfl
  covered := by simp [start]
  data_le := Nat.zero_le _
  padded := fun h => absurd h (lt_irrefl _)
  bucket_le := Nat.zero_le _
  finished := fun h => Bool.noConfusion h
  length_eq := rfl

section

variable (h : Passed l frames p)

include h

theorem Passed.data (hl : l.Proper)
    (hstep : step l p (.data payload) = some p') : Passed l (frames ++ [.data payload]) p' := by
  simp only [step, ite_none_right_eq_some, some.injEq] at hstep
  obtain ⟨⟨hended, hpadding, hdata, hlength⟩, rfl⟩ := hstep
  obtain ⟨chunks, hframes, hchunks⟩ := h.shape
  have hcovered := h.covered
  constructor <;> simp only [hended, hpadding]
  case shape =>
    refine ⟨chunks ++ [payload], ?_, by rw [length_append, hchunks]; rfl⟩
    rw [hframes, hended, hpadding]
    simp
  case bytes =>
    rw [flatMap_append, length_append, ← h.bytes]
    simp [AttachmentFrame.payload]
  case covered =>
    rw [hlength, hcovered, Nat.succ_mul]
    -- With the size of a chunk written out, the kernel would multiply by it in unary.
    generalize attachmentStreamPayloadBytes = n
    omega
  case data_le => exact hdata
  case padded => exact fun hpos => absurd hpos (lt_irrefl _)
  case bucket_le => exact (Nat.succ_le_of_lt hdata).trans hl.data_le
  case finished => exact fun hfalse => Bool.noConfusion hfalse
  case length_eq =>
    rw [length_append, h.length_eq, hended, hpadding]
    rfl

theorem Passed.padding (hstep : step l p .padding = some p') :
    Passed l (frames ++ [.padding]) p' := by
  simp only [step, ite_none_right_eq_some, some.injEq] at hstep
  obtain ⟨⟨hended, hdata, hbucket⟩, rfl⟩ := hstep
  obtain ⟨chunks, hframes, hchunks⟩ := h.shape
  constructor <;> simp only [hended]
  case shape =>
    refine ⟨chunks, ?_, hchunks⟩
    rw [hframes, hended, replicate_succ']
    simp
  case bytes =>
    rw [flatMap_append, length_append, ← h.bytes]
    rfl
  case covered => exact h.covered
  case data_le => exact h.data_le
  case padded => exact fun _ => hdata
  case bucket_le => exact hbucket
  case finished => exact fun hfalse => Bool.noConfusion hfalse
  case length_eq =>
    rw [length_append, h.length_eq, hended]
    rfl

theorem Passed.endOfStream (hl : l.Proper)
    (hstep : step l p .endOfStream = some p') : Passed l (frames ++ [.endOfStream]) p' := by
  simp only [step, ite_none_right_eq_some, some.injEq] at hstep
  obtain ⟨⟨hended, hbytes, hbucket⟩, rfl⟩ := hstep
  obtain ⟨chunks, hframes, hchunks⟩ := h.shape
  have hdata : p.dataFrames = l.dataFrames := by
    have hcovered := h.covered
    have hlower := hl.lower
    have hle := h.data_le
    unfold attachmentStreamPayloadBytes at hcovered hlower
    omega
  constructor <;> simp only
  case shape =>
    refine ⟨chunks, ?_, hchunks⟩
    rw [hframes, hended]
    simp
  case bytes =>
    rw [flatMap_append, length_append, ← h.bytes]
    rfl
  case covered => exact h.covered
  case data_le => exact h.data_le
  case padded => exact h.padded
  case bucket_le => exact h.bucket_le
  case finished => exact fun _ => ⟨hdata, hbucket⟩
  case length_eq =>
    rw [length_append, h.length_eq, hended]
    rfl

theorem Passed.step (hl : l.Proper) {frame : AttachmentFrame}
    (hstep : Progress.step l p frame = some p') : Passed l (frames ++ [frame]) p' := by
  cases frame with
  | data payload => exact h.data hl hstep
  | padding => exact h.padding hstep
  | endOfStream => exact h.endOfStream hl hstep

end

def run (l : StreamLayout) (frames : List AttachmentFrame) : Option Progress :=
  frames.foldlM (Progress.step l) start

variable (l frames) in
theorem run_snoc (frame : AttachmentFrame) :
    run l (frames ++ [frame]) = (run l frames).bind fun p => Progress.step l p frame := by
  simp only [run, foldlM_append, foldlM_cons, foldlM_nil]
  exact congrArg _ (funext fun p => bind_pure _)

theorem exists_step_of_run {rest : List AttachmentFrame}
    (hrun : run l (frames ++ frame :: rest) = some p) :
    ∃ q q', run l frames = some q ∧ Progress.step l q frame = some q' := by
  rw [run, foldlM_append] at hrun
  obtain ⟨q, hq, hrest⟩ := bind_eq_some_iff.mp hrun
  rw [foldlM_cons] at hrest
  obtain ⟨q', hstep, -⟩ := bind_eq_some_iff.mp hrest
  exact ⟨q, q', hq, hstep⟩

theorem ended_of_step (h : Progress.step l p frame = some p') : p.ended = false := by
  cases frame <;> simp only [Progress.step, ite_none_right_eq_some] at h <;> exact h.1.1

theorem passed_of_run (hl : l.Proper) (h : run l frames = some p) : Passed l frames p := by
  induction frames using List.reverseRecOn generalizing p with
  | nil =>
    obtain rfl := some.inj h
    exact passed_start l
  | append_singleton frames frame ih =>
    rw [run_snoc] at h
    obtain ⟨q, hq, hstep⟩ := bind_eq_some_iff.mp h
    exact (ih hq).step hl hstep

def Complete (l : StreamLayout) (frames : List AttachmentFrame) : Prop :=
  ∃ chunks : List Bytes, chunks.length = l.dataFrames ∧ frames = chunks.map .data ++
    List.replicate (l.bucketFrames - l.dataFrames) .padding ++ [.endOfStream]

variable (h : Passed l frames p)

include h

theorem Passed.ended_of_mem (hend : .endOfStream ∈ frames) : p.ended = true := by
  obtain ⟨chunks, hframes, -⟩ := h.shape
  by_contra hended
  rw [hframes, if_neg hended, append_nil] at hend
  rcases mem_append.mp hend with hmem | hmem
  · obtain ⟨_, -, heq⟩ := mem_map.mp hmem
    cases heq
  · cases eq_of_mem_replicate hmem

theorem Passed.ended_iff : p.ended = true ↔ Complete l frames := by
  constructor
  · intro hended
    obtain ⟨chunks, hframes, hchunks⟩ := h.shape
    obtain ⟨hdata, hbucket⟩ := h.finished hended
    refine ⟨chunks, hchunks.trans hdata, ?_⟩
    rw [hframes, hended, if_pos rfl, ← hdata, ← hbucket, Nat.add_sub_cancel_left]
  · rintro ⟨chunks, -, hcomplete⟩
    apply h.ended_of_mem
    rw [hcomplete]
    exact mem_append_right _ (mem_singleton_self _)

theorem Passed.bytes_eq_of_ended (hl : l.Proper) (hended : p.ended = true) :
    (frames.flatMap AttachmentFrame.payload).length = l.ciphertextLen := by
  rw [← h.bytes, h.covered, (h.finished hended).1]
  exact min_eq_left hl.upper

theorem Passed.length_le (hl : l.Proper) : frames.length ≤ 1025 := by
  have hbucket := h.bucket_le.trans hl.bucket_le
  rw [h.length_eq]
  unfold maxAttachmentBucketFrames at hbucket
  split <;> omega

end Progress

namespace AttachmentStream

variable {Key : Type} {cipher : Cipher Key tagBytes} {random : Nat → UInt8}
  {s : AttachmentStream Key} {frames : List AttachmentFrame}

def progress (s : AttachmentStream Key) : Progress :=
  ⟨s.dataFrames, s.paddingFrames, s.bytesSeen, s.ended⟩

def advance (s : AttachmentStream Key) (p : Progress) : AttachmentStream Key :=
  { s with
    nextCounter := s.nextCounter + 1
    dataFrames := p.dataFrames
    paddingFrames := p.paddingFrames
    bytesSeen := p.bytesSeen
    ended := p.ended }

def Seals (cipher : Cipher Key tagBytes) (s : AttachmentStream Key) (frame : AttachmentFrame)
    (call : Encryption Key) (record : Bytes) : Prop :=
  ∃ random plaintext, framePlaintext random frame.kind frame.payload = .ok plaintext ∧
    call = cipher.call s.key (streamNonce s.direction s.nextCounter) (canonicalParts
      [streamHeader s.direction s.nextCounter, streamContextDomain, s.context]) plaintext ∧
    record = streamHeader s.direction s.nextCounter ++ call.ciphertext

theorem sealFrame_eq_ok {frame : AttachmentFrame} {out : AttachmentStream Key × Encryption Key × Bytes}
    (h : s.sealFrame cipher random frame.kind frame.payload = .ok out) :
    s.Seals cipher frame out.2.1 out.2.2 ∧ out.1 = { s with nextCounter := s.nextCounter + 1 } := by
  simp only [sealFrame, bind_eq_ok, refuseIf_eq_ok, orRefuse_eq_ok, exists_const,
    Except.ok.injEq] at h
  obtain ⟨-, plaintext, hplaintext, -, next, hnext, rfl⟩ := h
  obtain ⟨-, rfl⟩ := checkedAdd_eq_some.mp hnext
  exact ⟨⟨random, plaintext, hplaintext, rfl, rfl⟩, rfl⟩

/-- A sealing call fails without a trace, or it seals the frame and makes the step. -/
def SealOutcome (cipher : Cipher Key tagBytes) (s : AttachmentStream Key) (frame : AttachmentFrame)
    (out : AttachmentStream Key × List (Encryption Key) × Except TransportError Bytes) : Prop :=
  (∃ e, out = (s, [], .error e)) ∨
    ∃ p call record, s.progress.step s.layout frame = some p ∧ s.Seals cipher frame call record ∧
      out = (s.advance p, [call], .ok record)

theorem sealData_outcome (hl : s.layout.Proper) (hp : s.progress.Passed s.layout frames)
    (payload : Bytes) : s.SealOutcome cipher (.data payload) (s.sealData cipher random payload) := by
  unfold sealData
  cases hrecord : s.dataRecord cipher random payload with
  | error e => exact .inl ⟨e, rfl⟩
  | ok out =>
    right
    simp only [dataRecord, bind_eq_ok, refuseIf_eq_ok, exists_const, not_or, not_not] at hrecord
    obtain ⟨⟨hended, hpadding⟩, n, hexpected, rfl, hseal⟩ := hrecord
    obtain ⟨hdata, hlength⟩ := hl.expectedDataLen_eq_ok.mp hexpected
    obtain ⟨hseals, hnext⟩ := @sealFrame_eq_ok _ _ _ _ (.data payload) _ hseal
    obtain ⟨self, call, record⟩ := out
    obtain rfl := hnext
    have hbucket := hl.data_le.trans hl.bucket_le
    have hcovered : s.bytesSeen = min _ (s.dataFrames * attachmentStreamPayloadBytes) := hp.covered
    have hcount : ¬ frameCountMax < s.dataFrames + 1 := by
      unfold maxAttachmentBucketFrames at hbucket
      unfold frameCountMax
      omega
    have hword : s.bytesSeen + payload.length ≤ wordMax := by
      unfold maxAttachmentBucketFrames at hbucket
      unfold attachmentStreamPayloadBytes at hcovered hlength
      unfold wordMax
      omega
    refine ⟨_, call, record, if_pos ⟨Bool.eq_false_of_not_eq_true hended, hpadding, hdata, hlength⟩, hseals, ?_⟩
    simp only [hcount, if_false, checkedAdd_of_le hword]
    rfl

variable (cipher random) in
theorem exists_sealFrame (hcounter : s.nextCounter < wordMax) (hframe : frame.Valid) :
    ∃ out, s.sealFrame cipher random frame.kind frame.payload = .ok out := by
  obtain ⟨plaintext, hplaintext⟩ :
      ∃ plaintext, framePlaintext random frame.kind frame.payload = .ok plaintext :=
    ⟨_, framePlaintext_eq_ok.mpr ⟨hframe, rfl⟩⟩
  have hlength := (decodeFramePlaintext_frame hplaintext).1
  refine ⟨_, bind_eq_ok.mpr ⟨(), refuseIf_eq_ok.mpr hcounter.ne, bind_eq_ok.mpr
    ⟨_, hplaintext, bind_eq_ok.mpr ⟨(), refuseIf_eq_ok.mpr (not_not.mpr ?_), bind_eq_ok.mpr
      ⟨_, orRefuse_eq_ok.mpr (checkedAdd_of_le (show s.nextCounter + 1 ≤ _ from hcounter)), rfl⟩⟩⟩⟩⟩
  rw [length_append, length_streamHeader, Cipher.call, cipher.length_encrypt, hlength]
  rfl

variable (cipher random) in
theorem sealData_of_step (hl : s.layout.Proper) (hp : s.progress.Passed s.layout frames)
    (hcounter : s.nextCounter < wordMax) {p : Progress}
    (hstep : s.progress.step s.layout (.data payload) = some p) :
    ∃ call record, s.sealData cipher random payload = (s.advance p, [call], .ok record) := by
  have hconds := hstep
  simp only [Progress.step, ite_none_right_eq_some] at hconds
  obtain ⟨hended, hpadding, hdata, hlength⟩ := hconds.1
  have hvalid : AttachmentFrame.Valid (.data payload) := by
    have hlower := hl.lower
    have hle : s.dataFrames * attachmentStreamPayloadBytes ≤
        (s.layout.dataFrames - 1) * attachmentStreamPayloadBytes :=
      Nat.mul_le_mul_right _ (Nat.le_sub_one_of_lt hdata)
    have hcap : 0 < attachmentStreamPayloadBytes := by decide
    have hbytes : payload.length = min (s.layout.ciphertextLen - s.dataFrames *
      attachmentStreamPayloadBytes) attachmentStreamPayloadBytes := hlength
    refine ⟨ne_nil_of_length_pos ?_, ?_⟩ <;>
      generalize attachmentStreamPayloadBytes = n at * <;> omega
  obtain ⟨out, hout⟩ := exists_sealFrame cipher random hcounter hvalid
  have hrecord : s.dataRecord cipher random payload = .ok out :=
    bind_eq_ok.mpr ⟨(), refuseIf_eq_ok.mpr (not_or.mpr ⟨by rw [show s.ended = false from hended]; decide,
      not_not.mpr hpadding⟩), bind_eq_ok.mpr ⟨_, hl.expectedDataLen_eq_ok.mpr ⟨hdata, rfl⟩,
        bind_eq_ok.mpr ⟨(), refuseIf_eq_ok.mpr (not_not.mpr hlength), hout⟩⟩⟩
  rcases @sealData_outcome _ cipher random s frames hl hp payload with
    ⟨e, hfail⟩ | ⟨p', call, record, hstep', -, hseal⟩
  · simp only [sealData, hrecord] at hfail
    split at hfail
    · simp at hfail
    · split at hfail <;> simp at hfail
  · obtain rfl : p = p' := some.inj (hstep.symm.trans hstep')
    exact ⟨call, record, hseal⟩

theorem sealPadding_outcome : s.SealOutcome cipher .padding (s.sealPadding cipher random) := by
  unfold sealPadding
  cases hrecord : s.paddingRecord cipher random with
  | error e => exact .inl ⟨e, rfl⟩
  | ok out =>
    right
    simp only [paddingRecord, bind_eq_ok, refuseIf_eq_ok, exists_const, not_or, not_not,
      not_le] at hrecord
    obtain ⟨⟨hended, hdata, hbucket⟩, hseal⟩ := hrecord
    obtain ⟨hseals, hnext⟩ := @sealFrame_eq_ok _ _ _ _ .padding _ hseal
    obtain ⟨self, call, record⟩ := out
    obtain rfl := hnext
    exact ⟨_, call, record, if_pos ⟨Bool.eq_false_of_not_eq_true hended, hdata, hbucket⟩, hseals, rfl⟩

theorem sealEnd_outcome : s.SealOutcome cipher .endOfStream (s.sealEnd cipher random) := by
  unfold sealEnd
  cases hrecord : s.endRecord cipher random with
  | error e => exact .inl ⟨e, rfl⟩
  | ok out =>
    right
    simp only [endRecord, bind_eq_ok, refuseIf_eq_ok, exists_const, not_or, not_not] at hrecord
    obtain ⟨⟨hended, hbytes, hbucket⟩, hseal⟩ := hrecord
    obtain ⟨hseals, hnext⟩ := @sealFrame_eq_ok _ _ _ _ .endOfStream _ hseal
    obtain ⟨self, call, record⟩ := out
    obtain rfl := hnext
    exact ⟨_, call, record, if_pos ⟨Bool.eq_false_of_not_eq_true hended, hbytes, hbucket⟩, hseals, rfl⟩

theorem checkData_eq_ok (hl : s.layout.Proper) {u : Unit} :
    s.checkData payload = .ok u ↔ s.paddingFrames = 0 ∧ s.dataFrames < s.layout.dataFrames ∧
      payload.length = min (s.layout.ciphertextLen - s.dataFrames * attachmentStreamPayloadBytes)
        attachmentStreamPayloadBytes := by
  simp only [checkData, bind_eq_ok, refuseIf_eq_ok, exists_const, not_not,
    hl.expectedDataLen_eq_ok]
  constructor
  · rintro ⟨hpadding, n, ⟨hdata, hn⟩, hlength⟩
    exact ⟨hpadding, hdata, hlength.trans hn⟩
  · rintro ⟨hpadding, hdata, hlength⟩
    exact ⟨hpadding, _, ⟨hdata, rfl⟩, hlength⟩

theorem acceptFrame_eq (hl : s.layout.Proper) (hp : s.progress.Passed s.layout frames)
    (hended : s.ended = false) (frame : AttachmentFrame) :
    (∃ e, s.progress.step s.layout frame = none ∧ s.acceptFrame frame = (s, .error e)) ∨
      ∃ p, s.progress.step s.layout frame = some p ∧
        s.acceptFrame frame = ({ s.advance p with nextCounter := s.nextCounter }, .ok ()) := by
  cases frame with
  | data payload =>
    cases hcheck : s.checkData payload with
    | error e =>
      refine .inl ⟨e, if_neg fun ⟨_, hrest⟩ => ?_, by simp only [acceptFrame, hcheck]⟩
      have hok := (checkData_eq_ok hl (u := ())).mpr hrest
      rw [hcheck] at hok
      cases hok
    | ok u =>
      have hrest := (checkData_eq_ok hl).mp hcheck
      have hcovered : s.bytesSeen = min _ (s.dataFrames * attachmentStreamPayloadBytes) := hp.covered
      have hbucket := hl.data_le.trans hl.bucket_le
      have hword : s.bytesSeen + payload.length ≤ wordMax := by
        have hlength := hrest.2.2
        unfold maxAttachmentBucketFrames at hbucket
        unfold attachmentStreamPayloadBytes at hcovered hlength
        unfold wordMax
        omega
      refine .inr ⟨_, if_pos ⟨hended, hrest⟩, ?_⟩
      simp only [acceptFrame, hcheck, checkedAdd_of_le hword]
      rfl
  | padding =>
    by_cases hnext : s.dataFrames = s.layout.dataFrames ∧
        s.dataFrames + s.paddingFrames < s.layout.bucketFrames
    · exact .inr ⟨_, if_pos ⟨hended, hnext⟩,
        if_neg (not_or.mpr ⟨not_not.mpr hnext.1, not_le.mpr hnext.2⟩)⟩
    · refine .inl ⟨_, if_neg fun hall => hnext hall.2, if_pos ?_⟩
      rwa [not_and_or, not_lt] at hnext
  | endOfStream =>
    by_cases hnext : s.bytesSeen = s.layout.ciphertextLen ∧
        s.dataFrames + s.paddingFrames = s.layout.bucketFrames
    · exact .inr ⟨_, if_pos ⟨hended, hnext⟩,
        if_neg (not_or.mpr ⟨not_not.mpr hnext.1, not_not.mpr hnext.2⟩)⟩
    · exact .inl ⟨_, if_neg fun hall => hnext hall.2, if_pos (not_and_or.mp hnext)⟩

section

variable [DecidableEq Key] {log : List (Encryption Key)} {record : Bytes}

theorem readFrame_eq_ok :
    s.readFrame log record = .ok frame ↔ s.nextCounter ≠ wordMax ∧ s.ended = false ∧
      ∃ header ciphertext plaintext,
        decodeStreamRecord record = .ok (header, s.direction, s.nextCounter, ciphertext) ∧
        Aead.decrypt log s.key (streamNonce s.direction s.nextCounter)
          (canonicalParts [header, streamContextDomain, s.context]) ciphertext = some plaintext ∧
        decodeFramePlaintext plaintext = .ok frame := by
  unfold readFrame
  simp only [bind_eq_ok, refuseIf_eq_ok, orRefuse_eq_ok, exists_const, Bool.not_eq_true]
  refine and_congr_right fun _ => and_congr_right fun _ => ⟨?_, ?_⟩
  · rintro ⟨⟨header, d, counter, ciphertext⟩, hdecode, hd, hge, hle, plaintext, hdecrypt, hframe⟩
    obtain rfl : d = s.direction := not_not.mp hd
    obtain rfl : counter = s.nextCounter := le_antisymm (not_lt.mp hle) (not_lt.mp hge)
    exact ⟨header, ciphertext, plaintext, hdecode, hdecrypt, hframe⟩
  · rintro ⟨header, ciphertext, plaintext, hdecode, hdecrypt, hframe⟩
    exact ⟨_, hdecode, not_not.mpr rfl, lt_irrefl _, lt_irrefl _, plaintext, hdecrypt, hframe⟩

theorem openRecord_outcome (hl : s.layout.Proper) (hp : s.progress.Passed s.layout frames)
    (hcounter : s.nextCounter < wordMax) (log : List (Encryption Key)) (record : Bytes) :
    (∃ e, s.openRecord log record = (s, .error e)) ∨
      ∃ p frame, s.readFrame log record = .ok frame ∧
        s.progress.step s.layout frame = some p ∧
        s.openRecord log record = (s.advance p, .ok frame) := by
  unfold openRecord
  cases hread : s.readFrame log record with
  | error e => exact .inl ⟨e, rfl⟩
  | ok frame =>
    obtain ⟨-, hended, -⟩ := readFrame_eq_ok.mp hread
    rcases acceptFrame_eq hl hp hended frame with ⟨e, -, haccept⟩ | ⟨p, hstep, haccept⟩
    · simp only [haccept]
      exact .inl ⟨e, rfl⟩
    · refine .inr ⟨p, frame, rfl, hstep, ?_⟩
      simp only [haccept, checkedAdd_of_le (show s.nextCounter + 1 ≤ wordMax from hcounter)]
      rfl

theorem openRecord_of_step (hl : s.layout.Proper) (hp : s.progress.Passed s.layout frames)
    (hcounter : s.nextCounter < wordMax) {p : Progress} (hread : s.readFrame log record = .ok frame)
    (hstep : s.progress.step s.layout frame = some p) :
    s.openRecord log record = (s.advance p, .ok frame) := by
  obtain ⟨-, hended, -⟩ := readFrame_eq_ok.mp hread
  rcases acceptFrame_eq hl hp hended frame with ⟨e, hnone, -⟩ | ⟨p', hsome, haccept⟩
  · rw [hstep] at hnone
    cases hnone
  · obtain rfl : p = p' := some.inj (hstep.symm.trans hsome)
    simp only [openRecord, hread, haccept,
      checkedAdd_of_le (show s.nextCounter + 1 ≤ wordMax from hcounter)]
    rfl

end

end AttachmentStream

@[ext] structure StreamChannel where
  root : Vector UInt8 32
  binding : AttachmentStreamBinding
  direction : Direction
  root_ne : root ≠ zeros 32

instance : DecidableEq StreamChannel := fun a b =>
  decidable_of_iff (a.root = b.root ∧ a.binding = b.binding ∧ a.direction = b.direction)
    (by cases a; cases b; simp)

def AttachmentLength : Type := { n : Nat // 0 < n ∧ n ≤ maxAttachmentCiphertextBytes }

/-- The lengths that the two ends of every channel were told. -/
structure StreamLengths where
  sealed : StreamChannel → AttachmentLength
  opened : StreamChannel → AttachmentLength

namespace StreamChannel

variable {Key : Type} (kdf : KeyDerivation Key) (ch : StreamChannel)

def key : Key := recordKey kdf ch.root streamProtocol ch.direction ch.binding.context

def stream (n : AttachmentLength) : AttachmentStream Key :=
  ⟨ch.key kdf, ch.binding.context, ch.direction, .ofLength n.1, 0, 0, 0, 0, false⟩

def streamAt (n : AttachmentLength) (counter : Nat) (p : Progress) : AttachmentStream Key :=
  ⟨ch.key kdf, ch.binding.context, ch.direction, .ofLength n.1, counter, p.dataFrames,
    p.paddingFrames, p.bytesSeen, p.ended⟩

theorem length_context (b : AttachmentStreamBinding) : b.context.length = 135 := by
  simp only [AttachmentStreamBinding.context, canonicalParts, flatMap_cons, flatMap_nil,
    length_append, length_lengthPrefixed, Vector.length_toList, length_nil]
  rfl

theorem deriveRecordKey_eq :
    deriveRecordKey kdf ch.root streamProtocol ch.direction ch.binding.context =
      .ok (ch.key kdf) := by
  have hlength := length_context ch.binding
  exact deriveRecordKey_eq_ok kdf ch.root_ne _ _ (hlength ▸ by decide) (hlength ▸ by decide)

theorem intoSealer_eq (n : AttachmentLength) :
    ch.binding.intoSealer kdf ch.root ch.direction n.1 = .ok (ch.stream kdf n) :=
  bind_eq_ok.mpr ⟨_, StreamLayout.new_eq n.2.1 n.2.2,
    bind_eq_ok.mpr ⟨_, ch.deriveRecordKey_eq kdf, rfl⟩⟩

theorem intoOpener_eq (n : AttachmentLength) :
    ch.binding.intoOpener kdf ch.root ch.direction n.1 (StreamLayout.ofLength n.1).dataFrames
      (StreamLayout.ofLength n.1).bucketFrames = .ok (ch.stream kdf n) :=
  bind_eq_ok.mpr ⟨_, StreamLayout.new_eq n.2.1 n.2.2,
    bind_eq_ok.mpr ⟨(), refuseIf_eq_ok.mpr (not_or.mpr ⟨not_not.mpr rfl, not_not.mpr rfl⟩),
      bind_eq_ok.mpr ⟨_, ch.deriveRecordKey_eq kdf, rfl⟩⟩⟩

theorem context_injective {b b' : AttachmentStreamBinding} (h : b.context = b'.context) : b = b' := by
  have hshort : ∀ v : Vector UInt8 32, Short v.toList := short_toList (by decide)
  have hshort' : ∀ v : Vector UInt8 16, Short v.toList := short_toList (by decide)
  have hdomain : Short streamContextDomain := by decide
  have hparts := canonicalParts_inj h rfl (by simp [hshort, hshort', hdomain])
    (by simp [hshort, hshort', hdomain])
  simp only [List.cons.injEq, Vector.toList_inj, and_true, true_and] at hparts
  obtain ⟨node, session, handle, h₁, h₂, h₃⟩ := b
  obtain ⟨node', session', handle', h₁', h₂', h₃'⟩ := b'
  obtain ⟨rfl, rfl, rfl⟩ := hparts
  rfl

variable {ch}

theorem key_injective {ch' : StreamChannel} (h : ch.key kdf = ch'.key kdf) : ch = ch' := by
  obtain ⟨hroot, hbinding, hdirection⟩ := recordKey_inj kdf (by decide) (by decide) length_context
    context_injective h
  exact StreamChannel.ext hroot hbinding hdirection

end StreamChannel

end Abyssal.Transport
