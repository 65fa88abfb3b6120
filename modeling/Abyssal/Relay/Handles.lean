import Abyssal.Relay.AttachmentReceipts
import Abyssal.Relay.ControlReceipts
import Abyssal.Transport.HttpRecords

/-! Handles are used once. Both stores hand every handle to at most one owner between two clears, and
the owner's worker seals at most one response with it. A completion from before a clear is kept out by
its generation. The control store counts its own clears; the attachment store takes the generation
from the relay's epoch, which a wipe moves before it clears the store, so that a handle can be reserved
twice under one epoch. -/

namespace Abyssal.Relay

open Transport (HttpSealer tagBytes)
open List hiding Vector

section Workers

variable {Key : Type} (cipher : Cipher Key tagBytes) (expand : Key → Bytes → Bytes)

def controlAad : Bytes := ascii "POST /v1/control"
def attachmentActionAad : Bytes := ascii "ABYSSAL-TRANSPORT-V11-ATTACHMENT-ACTION"

def sealAttempts (handle : Vector UInt8 16) (aad : Bytes) :
    HttpSealer Key → List Bytes → List (Encryption Key × Bytes)
  | _, [] => []
  | sealer, plaintext :: rest =>
    match sealer.seal cipher expand handle aad plaintext with
    | (sealer, .ok sealed) => sealed :: sealAttempts handle aad sealer rest
    | (sealer, .error _) => sealAttempts handle aad sealer rest

/-- An authenticated control request carries two sealers of its session, the second for the answer to
a request that ran out of time. -/
structure ControlWorker (Key : Type) where
  handle : Vector UInt8 16
  responseSealer : HttpSealer Key
  timeoutSealer : HttpSealer Key

/-- The records sealed by `run_control_worker`. The first argument is the encoded result that
`dispatch_control` comes to seal, if it comes so far in time; the second is the encoded failure. -/
def runControlWorker (worker : ControlWorker Key) (result failure : Option Bytes) :
    List (Encryption Key × Bytes) :=
  match result.bind fun encoded =>
      (worker.responseSealer.seal cipher expand worker.handle controlAad encoded).2.toOption with
  | some sealed => [sealed]
  | none =>
    (failure.bind fun encoded =>
      (worker.timeoutSealer.seal cipher expand worker.handle controlAad encoded).2.toOption).toList

/-- An attachment worker has one sealer for all its attempts: the result of its action, and a failure
when the action or its stream fails, panics or runs out of time. -/
def runAttachmentWorker (handle : Vector UInt8 16) (sealer : HttpSealer Key) (attempts : List Bytes) :
    List (Encryption Key × Bytes) :=
  sealAttempts cipher expand handle attachmentActionAad sealer attempts

variable {cipher expand}

theorem sealAttempts_used {handle : Vector UInt8 16} {aad : Bytes} {sealer : HttpSealer Key}
    (hused : handle ∈ sealer.usedHandles) (plaintexts : List Bytes) :
    sealAttempts cipher expand handle aad sealer plaintexts = [] := by
  induction plaintexts with
  | nil => rfl
  | cons plaintext rest ih =>
    cases hrecord : sealer.record cipher expand handle aad plaintext with
    | error e => simpa only [sealAttempts, HttpSealer.seal, hrecord] using ih
    | ok out => exact absurd hused (HttpSealer.record_eq_ok hrecord).1

theorem length_sealAttempts (handle : Vector UInt8 16) (aad : Bytes) (sealer : HttpSealer Key)
    (plaintexts : List Bytes) :
    (sealAttempts cipher expand handle aad sealer plaintexts).length ≤ 1 := by
  induction plaintexts with
  | nil => exact Nat.zero_le _
  | cons plaintext rest ih =>
    cases hrecord : sealer.record cipher expand handle aad plaintext with
    | error e => simpa only [sealAttempts, HttpSealer.seal, hrecord] using ih
    | ok out =>
      obtain ⟨call, record, handles⟩ := out
      obtain ⟨-, rfl, -⟩ := HttpSealer.record_eq_ok hrecord
      simp only [sealAttempts, HttpSealer.seal, hrecord, length_cons]
      rw [sealAttempts_used (Finset.mem_insert_self _ _)]
      rfl

theorem length_runControlWorker (worker : ControlWorker Key) (result failure : Option Bytes) :
    (runControlWorker cipher expand worker result failure).length ≤ 1 := by
  unfold runControlWorker
  split
  · exact le_rfl
  · exact Option.length_toList_le

end Workers

theorem sealed_nodup {R : Type} {grants : List Grant} (hgrants : (grants.map Grant.key).Nodup)
    {work : Grant → List R} (hwork : ∀ g, (work g).length ≤ 1) :
    ((grants.flatMap fun g => (work g).map fun r => (g.key, r)).map Prod.fst).Nodup := by
  induction grants with
  | nil => exact nodup_nil
  | cons g grants ih =>
    obtain ⟨hhead, htail⟩ := nodup_cons.mp hgrants
    rw [flatMap_cons, map_append, nodup_append]
    refine ⟨?_, ih htail, ?_⟩
    · rw [map_map]
      have hone := hwork g
      match work g, hone with
      | [], _ => exact nodup_nil
      | [_], _ => exact nodup_singleton _
    · intro a ha b hb hab
      obtain ⟨⟨k, r⟩, hr, rfl⟩ := mem_map.mp ha
      obtain ⟨⟨k', r'⟩, hr', rfl⟩ := mem_map.mp hb
      obtain ⟨_, -, hk⟩ := mem_map.mp hr
      obtain ⟨g', hg', hmem⟩ := mem_flatMap.mp hr'
      obtain ⟨_, -, hk'⟩ := mem_map.mp hmem
      simp only [Prod.mk.injEq] at hk hk'
      refine hhead (mem_map.mpr ⟨g', hg', ?_⟩)
      rw [hk.1, hk'.1]
      exact hab.symm

section Stale

variable {Store Call : Type} (desk : Desk Store Call ReceiptKey Grant Answer)

/-- One grant is made twice: a handle, for the same request, under the same generation. -/
def Reissued (calls : List Call) : Prop :=
  ∃ before call mid call' later g, calls = before ++ call :: (mid ++ call' :: later) ∧
    desk.granted (desk.after before) call = some g ∧
    desk.granted (desk.after (before ++ call :: mid)) call' = some g

/-- No completion for a grant from before a clear is stored after it. -/
def NeverStale (calls : List Call) : Prop :=
  ∀ before call later g, calls = before ++ call :: later →
    desk.granted (desk.after before) call = some g → (∃ c ∈ later, desk.clears c = true) →
    ∀ call' a, desk.filed (desk.after calls) call' = some a → a.grant ≠ g

variable {desk}

/-- The grant of an answer that is stored after a clear was made after it as well. -/
theorem granted_again (laws : desk.Lawful) {before later : List Call} {call call' : Call} {a : Answer}
    (hclear : ∃ c ∈ later, desk.clears c = true)
    (hfiled : desk.filed (desk.after (before ++ call :: later)) call' = some a)
    (hgrant : desk.grant = Answer.grant) :
    ∃ mid c rest, later = mid ++ c :: rest ∧
      desk.granted (desk.after (before ++ call :: mid)) c = some a.grant := by
  obtain ⟨before', c, rest, hsplit, hgranted, huncleared⟩ := laws.granted_of_filed hfiled
  obtain ⟨x, hx, hxclear⟩ := hclear
  rcases append_eq_append_iff.mp hsplit with ⟨mid, rfl, htail⟩ | ⟨mid, rfl, htail⟩
  · cases mid with
    | nil =>
      obtain ⟨-, rfl⟩ := cons_eq_cons.mp htail
      have := huncleared x hx
      simp [hxclear] at this
    | cons y mid =>
      obtain ⟨rfl, rfl⟩ := cons_eq_cons.mp htail
      exact ⟨mid, c, rest, rfl, hgrant ▸ hgranted⟩
  · have hmem : x ∈ rest := by
      cases mid with
      | nil =>
        obtain ⟨-, rfl⟩ := cons_eq_cons.mp htail
        exact hx
      | cons y mid =>
        obtain ⟨-, rfl⟩ := cons_eq_cons.mp htail
        exact mem_append_right _ (mem_cons_of_mem _ hx)
    have := huncleared x hmem
    simp [hxclear] at this

theorem neverStale_of_not_reissued (laws : desk.Lawful) (hgrant : desk.grant = Answer.grant)
    {calls : List Call} (h : ¬ Reissued desk calls) : NeverStale desk calls := by
  rintro before call later g rfl hgranted hclear call' a hfiled rfl
  obtain ⟨mid, c, rest, rfl, hagain⟩ := granted_again laws hclear hfiled hgrant
  exact h ⟨before, call, mid, c, rest, a.grant, rfl, hgranted, hagain⟩

end Stale

namespace ControlReceiptStore

def clearCount (calls : List Call) : Nat := (calls.filter desk.clears).length

theorem clearCount_append (calls calls' : List Call) :
    clearCount (calls ++ calls') = clearCount calls + clearCount calls' := by
  rw [clearCount, filter_append, length_append]
  rfl

theorem generation_step (s : ControlReceiptStore) (call : Call) :
    (s.step call).generation =
      if desk.clears call then (s.generation + 1) % 2 ^ 64 else s.generation := by
  cases call with
  | lookup order key digest generation now => exact (lookup_shrunk s).generation
  | prune order now => exact (shrunk_prune s order now).generation
  | clear => rfl
  | reserve order key digest generation now =>
    rcases reserve_cases s order key digest generation now with
      ⟨-, hshrunk⟩ | ⟨s', hshrunk, -, -, -, -, -, -, -, heq⟩
    · exact hshrunk.generation
    · rw [step, heq]
      exact hshrunk.generation
  | complete order key digest generation response now =>
    rcases complete_cases s order key digest generation response now with
      heq | ⟨old, -, -, -, heq⟩ <;> rw [step, heq] <;> exact (shrunk_prune s order now).generation

theorem generation_after (calls : List Call) :
    (desk.after calls).generation = clearCount calls % 2 ^ 64 := by
  induction calls using List.reverseRecOn with
  | nil => rfl
  | append_singleton calls call ih =>
    rw [Desk.after_snoc]
    refine (generation_step _ call).trans ?_
    rw [ih, clearCount_append, clearCount, clearCount, filter_singleton]
    cases desk.clears call with
    | false => simp
    | true => simp [Nat.mod_add_mod]

theorem not_reissued {calls : List Call} (h : clearCount calls < 2 ^ 64) :
    ¬ Reissued desk calls := by
  rintro ⟨before, call, mid, call', later, g, rfl, hfirst, hsecond⟩
  have hg : g.generation = clearCount before % 2 ^ 64 :=
    (granted_spent hfirst).2.2.trans (generation_after before)
  have hg' : g.generation = clearCount (before ++ call :: mid) % 2 ^ 64 :=
    (granted_spent hsecond).2.2.trans (generation_after _)
  -- Without a clear in between, the handle of the first grant is still spent at the second.
  have hcleared : ∃ c ∈ call :: mid, desk.clears c = true := by
    by_contra hnone
    simp only [not_exists, not_and, Bool.not_eq_true] at hnone
    have hspent : g.key ∈ (desk.after (before ++ call :: mid)).spentHandles := by
      rw [Desk.after_append]
      exact laws.spent_run (laws.sound_step (laws.sound_after before) call)
        (granted_spent hfirst).2.1 (fun c hc => hnone c (mem_cons_of_mem _ hc))
    exact (granted_spent hsecond).1 hspent
  have hcount : clearCount before < clearCount (before ++ call :: mid) := by
    obtain ⟨c, hc, hclear⟩ := hcleared
    have hpos : 0 < ((call :: mid).filter desk.clears).length :=
      length_pos_of_mem (mem_filter.mpr ⟨hc, hclear⟩)
    rw [clearCount_append]
    exact Nat.lt_add_of_pos_right hpos
  have hle : clearCount (before ++ call :: mid) < 2 ^ 64 := by
    rw [← cons_append, ← append_assoc, clearCount_append] at h
    exact lt_of_le_of_lt (Nat.le_add_right _ _) h
  rw [Nat.mod_eq_of_lt hle] at hg'
  rw [Nat.mod_eq_of_lt (hcount.trans hle)] at hg
  omega

end ControlReceiptStore

inductive Handler
  | arrived (grant : Grant)
  | authenticated (grant : Grant)

structure AttachmentRelay where
  epoch : Nat
  sessions : Finset (Vector UInt8 32)
  handlers : OrdMap Nat Handler
  workers : OrdMap Nat Grant
  calls : List AttachmentReceiptStore.Call

/-- Steps of handlers, numbered by their requests, and of a wipe: it moves the epoch, ends the
sessions and clears the receipts, with other locks to wait for in between. -/
inductive RelayEvent
  | arrive (request : Nat) (key : ReceiptKey) (digest : Digest)
  | authenticate (request : Nat) (order : VisitOrder ReceiptKey) (now : Nat)
  | reserve (request : Nat) (order : VisitOrder ReceiptKey) (uploadRetry : Bool) (now : Nat)
  | finish (request : Nat) (order : VisitOrder ReceiptKey) (response : Bytes) (now : Nat)
  | moveEpoch
  | endSessions
  | clearReceipts

namespace AttachmentRelay

open AttachmentReceiptStore (desk)

def start (sessions : Finset (Vector UInt8 32)) : AttachmentRelay :=
  ⟨0, sessions, .empty, .empty, []⟩

def store (self : AttachmentRelay) : AttachmentReceiptStore := desk.after self.calls

def exec (self : AttachmentRelay) : RelayEvent → AttachmentRelay
  | .arrive request key digest =>
    { self with handlers := self.handlers.insert request (.arrived ⟨key, digest, self.epoch⟩) }
  | .authenticate request order now =>
    match self.handlers.get? request with
    | some (.arrived g) =>
      let calls := self.calls ++ [.lookup order g.key g.digest g.generation now]
      -- Only a handle that no receipt answers goes on to the session.
      if (self.store.lookup order g.key g.digest g.generation now).2 = .missing ∧
          g.key.sessionId ∈ self.sessions then
        { self with calls := calls, handlers := self.handlers.insert request (.authenticated g) }
      else { self with calls := calls, handlers := self.handlers.erase request }
    | _ => self
  | .reserve request order uploadRetry now =>
    match self.handlers.get? request with
    | some (.authenticated g) =>
      let handlers := self.handlers.erase request
      if self.epoch ≠ g.generation then { self with handlers := handlers }
      else
        { self with
          handlers := handlers
          calls := self.calls ++ [.reserve order g.key g.digest g.generation uploadRetry now]
          workers :=
            if (self.store.reserve order g.key g.digest g.generation uploadRetry now).2 = .owner then
              self.workers.insert request g
            else self.workers }
    | _ => self
  | .finish request order response now =>
    match self.workers.get? request with
    | some g =>
      { self with
        workers := self.workers.erase request
        calls := self.calls ++ [.complete order g.key g.digest g.generation response now] }
    | none => self
  | .moveEpoch => { self with epoch := (self.epoch + 1) % 2 ^ 64 }
  | .endSessions => { self with sessions := ∅ }
  | .clearReceipts => { self with calls := self.calls ++ [.clear] }

def after (sessions : Finset (Vector UInt8 32)) (events : List RelayEvent) : AttachmentRelay :=
  runFrom exec (start sessions) events

end AttachmentRelay

/-- A handle of a session, reserved twice around the clear of one wipe. -/
def racedKey : ReceiptKey := ⟨Vector.replicate 32 1, Vector.replicate 16 2⟩

def racedGrant : Grant := ⟨racedKey, Vector.replicate 32 3, 1⟩

def firstResponse : Bytes := List.replicate attachmentActionRecordBytes 7

/-- A client sends one record twice while a wipe has moved the epoch and not yet cleared the receipts.
The first copy is reserved before the clear, the second after it. -/
def wipeRace : List RelayEvent :=
  [.moveEpoch, .arrive 1 racedKey (Vector.replicate 32 3), .arrive 2 racedKey (Vector.replicate 32 3),
    .authenticate 1 .byKey 10, .authenticate 2 .byKey 10, .reserve 1 .byKey false 11, .endSessions,
    .clearReceipts, .reserve 2 .byKey false 12]

theorem AttachmentReceiptStore.filed_of_entry {s : AttachmentReceiptStore} {receipt : Receipt}
    {order : VisitOrder ReceiptKey} {g : Grant} {response : Bytes} {now : Nat}
    (hentry : (s.prune order now).entries.get? g.key = some receipt)
    (hdigest : receipt.requestDigest = g.digest) (hgeneration : receipt.generation = g.generation)
    (hlength : response.length = attachmentActionRecordBytes) :
    desk.filed s (.complete order g.key g.digest g.generation response now) =
      some ⟨g, response⟩ := by
  refine if_pos ?_
  simp [complete, hentry, hdigest, hgeneration, hlength]

section

open AttachmentReceiptStore (desk)

theorem length_firstResponse : firstResponse.length = attachmentActionRecordBytes := by
  rw [firstResponse, length_replicate]

theorem wipeRace_calls : (AttachmentRelay.after {racedKey.sessionId} wipeRace).calls =
    [.lookup .byKey racedKey racedGrant.digest 1 10, .lookup .byKey racedKey racedGrant.digest 1 10] ++
      .reserve .byKey racedKey racedGrant.digest 1 false 11 ::
        [.clear, .reserve .byKey racedKey racedGrant.digest 1 false 12] := rfl

/-- The worker of the first copy owned the handle before the clear; after it, its completion is stored
in the receipt of the second copy, and both may seal a response with the one handle. -/
theorem wipe_race_stale :
    (AttachmentRelay.after {racedKey.sessionId} (wipeRace.take 6)).workers.get? 1 =
      some racedGrant ∧
    (AttachmentRelay.after {racedKey.sessionId} wipeRace).workers.get? 1 = some racedGrant ∧
    (AttachmentRelay.after {racedKey.sessionId} wipeRace).workers.get? 2 = some racedGrant ∧
    desk.filed (AttachmentRelay.after {racedKey.sessionId} wipeRace).store
      (.complete .byKey racedGrant.key racedGrant.digest racedGrant.generation firstResponse 13) =
        some ⟨racedGrant, firstResponse⟩ ∧
    ¬ NeverStale desk (AttachmentRelay.after {racedKey.sessionId} wipeRace).calls := by
  have hentry : ((AttachmentRelay.after {racedKey.sessionId} wipeRace).store.prune .byKey
      13).entries.get? racedGrant.key = some ⟨racedGrant.digest, 1, false, 12, .inFlight⟩ := by
    decide
  have hfiled : desk.filed (AttachmentRelay.after {racedKey.sessionId} wipeRace).store
      (.complete .byKey racedGrant.key racedGrant.digest racedGrant.generation firstResponse 13) =
        some ⟨racedGrant, firstResponse⟩ :=
    AttachmentReceiptStore.filed_of_entry hentry rfl rfl length_firstResponse
  refine ⟨by decide, by decide +kernel, by decide +kernel, hfiled, fun hnever => ?_⟩
  refine hnever _ _ _ racedGrant wipeRace_calls (by decide) ⟨.clear, ?_, rfl⟩ _ _ hfiled rfl
  exact mem_cons_self ..

end

/-- Over every history of the two stores, with any keys, digests, generations and clock readings:
between two clears a handle gets at most one owner, a returned response was stored for the same key,
digest and generation since the last clear, and the byte counters and limits hold. The owners' workers
seal at most one response with each handle. No completion from before a clear is stored after it, for
the control store while there were fewer than 2^64 clears, and for the attachment store while no handle
is granted twice for one request under one generation. -/
theorem handles_used_once {Key : Type} (cipher : Cipher Key tagBytes)
    (expand : Key → Bytes → Bytes) :
    (∀ calls, let desk := ControlReceiptStore.desk
      let s := desk.after calls
      (∀ segment, desk.Uncleared segment →
        ((desk.grants s segment).map Grant.key).Nodup ∧
        ∀ (worker : Grant → ControlWorker Key) (result failure : Grant → Option Bytes),
          (((desk.grants s segment).flatMap fun g =>
            (runControlWorker cipher expand (worker g) (result g) (failure g)).map
              fun r => (g.key, r)).map Prod.fst).Nodup) ∧
      (∀ call a, desk.returned s call = some a →
        desk.Since calls fun s c => desk.filed s c = some a) ∧
      (ControlReceiptStore.clearCount calls < 2 ^ 64 → NeverStale desk calls) ∧
      s.usedBytes = s.entries.size * controlRecordBytes ∧
      s.entries.size ≤ maxControlReceipts ∧ s.usedBytes ≤ maxControlReceiptBytes ∧
      s.spentHandles.card ≤ maxControlSpentHandles ∧
      s.spentHandleBytes ≤ maxControlSpentHandleBytes) ∧
    (∀ calls, let desk := AttachmentReceiptStore.desk
      let s := desk.after calls
      (∀ segment, desk.Uncleared segment →
        ((desk.grants s segment).map Grant.key).Nodup ∧
        ∀ (sealer : Grant → HttpSealer Key) (attempts : Grant → List Bytes),
          (((desk.grants s segment).flatMap fun g =>
            (runAttachmentWorker cipher expand g.key.handle (sealer g) (attempts g)).map
              fun r => (g.key, r)).map Prod.fst).Nodup) ∧
      (∀ call a, desk.returned s call = some a →
        desk.Since calls fun s c => desk.filed s c = some a) ∧
      (¬ Reissued desk calls → NeverStale desk calls) ∧
      s.usedBytes = s.entries.size * attachmentActionRecordBytes ∧
      s.entries.size ≤ maxReceipts ∧ s.usedBytes ≤ maxReceiptBytes ∧
      s.spent.card ≤ maxSpentHandles) := by
  constructor
  · intro calls desk s
    have hs : s.Sound := ControlReceiptStore.laws.sound_after calls
    refine ⟨fun segment hsegment => ?_, fun call a h => ControlReceiptStore.laws.filed_of_returned h,
      fun hcount => ?_, hs.used, hs.entries_le, hs.used_le, hs.spent_le, hs.spentUsed_le⟩
    · have hnodup := ControlReceiptStore.laws.grants_nodup hs hsegment
      exact ⟨hnodup, fun _ _ _ => sealed_nodup hnodup fun _ => length_runControlWorker ..⟩
    · exact neverStale_of_not_reissued ControlReceiptStore.laws rfl
        (ControlReceiptStore.not_reissued hcount)
  · intro calls desk s
    have hs : s.Sound := AttachmentReceiptStore.laws.sound_after calls
    refine ⟨fun segment hsegment => ?_,
      fun call a h => AttachmentReceiptStore.laws.filed_of_returned h,
      neverStale_of_not_reissued AttachmentReceiptStore.laws rfl, hs.used, hs.entries_le, hs.used_le,
      hs.spent_le⟩
    have hnodup := AttachmentReceiptStore.laws.grants_nodup hs hsegment
    exact ⟨hnodup, fun _ _ => sealed_nodup hnodup fun _ => length_sealAttempts ..⟩

end Abyssal.Relay
