import Abyssal.Base.Runs
import Abyssal.Transport.Records

/-! Bootstrap requests and the guard against their replay. A client without a session sends one
request under the node's HPKE key; the guard records the id of every request it opened until the
lifetime of the record is over, and forgets none of them to make room for another. -/

namespace Abyssal.Transport

open OrdMap

def maxBootstrapPlaintextBytes : Nat := 64 * 1024
def maxOperationBytes : Nat := 64
def maxBootstrapRequestIds : Nat := 4096
def minBootstrapReplayTtlMs : Nat := 1
def maxBootstrapReplayTtlMs : Nat := 24 * 60 * 60 * 1000
def bootstrapMagic : Bytes := ascii "ABH1"
def bootstrapHeaderBytes : Nat := 4 + 1 + 32 + 32 + 4
def bootstrapDomain : Bytes := ascii "ABYSSAL-TRANSPORT-V11-BOOTSTRAP"
def responseExportDomain : Bytes := ascii "ABYSSAL-TRANSPORT-V11-BOOTSTRAP-RESPONSE"

structure BootstrapContext where
  nodeSigningPublicKey : Vector UInt8 32
  bootstrapHpkePublicKey : Vector UInt8 32
  operation : Bytes
  requestId : Vector UInt8 32

namespace BootstrapContext

def validate (self : BootstrapContext) : Except TransportError Unit :=
  refuseIf (self.nodeSigningPublicKey = zeros 32 ∨ self.bootstrapHpkePublicKey = zeros 32 ∨
    self.requestId = zeros 32 ∨ self.operation = [] ∨ maxOperationBytes < self.operation.length)
    .invalidInput

def info (self : BootstrapContext) : Except TransportError Bytes := do
  self.validate
  .ok (canonicalParts [bootstrapDomain, self.nodeSigningPublicKey.toList,
    self.bootstrapHpkePublicKey.toList, self.operation, self.requestId.toList])

end BootstrapContext

structure DecodedBootstrapRequest where
  requestId : Vector UInt8 32
  encappedKey : Bytes
  ciphertext : Bytes

def decodeBootstrap (record : Bytes) : Except TransportError DecodedBootstrapRequest := do
  refuseIf (record.length < bootstrapHeaderBytes + tagBytes + 1 ∨
    bootstrapHeaderBytes + maxBootstrapPlaintextBytes + tagBytes < record.length) .tooLarge
  refuseIf (record.take 4 ≠ bootstrapMagic ∨ record[4]? ≠ some transportVersion) .nonCanonical
  let requestId ← orRefuse (exactly 32 ((record.drop 5).take 32)) .nonCanonical
  let length ← readU32 ((record.drop 69).take 4)
  refuseIf (length ≠ record.length - bootstrapHeaderBytes) .nonCanonical
  .ok ⟨requestId, (record.drop 37).take 32, record.drop bootstrapHeaderBytes⟩

/-- The receiving half of HPKE: keys and encapsulated keys may fail to parse, and an opened
message moves the receiver on. -/
structure Hpke (PrivateKey Receiver : Type) where
  parsePrivateKey : Vector UInt8 32 → Option PrivateKey
  validEncappedKey : Bytes → Bool
  setupReceiver : PrivateKey → Bytes → Bytes → Option Receiver
  openMessage : Receiver → Bytes → Bytes → Option (Receiver × Bytes)
  exportSecret : Receiver → Bytes → Option (Vector UInt8 44)

structure BootstrapResponseSealer where
  key : Bytes
  nonce : Bytes
  aad : Bytes

structure BootstrapServerExchange where
  plaintext : Bytes
  responseSealer : BootstrapResponseSealer

variable {PrivateKey Receiver : Type} (hpke : Hpke PrivateKey Receiver)

def responseMaterial (receiver : Receiver) (info : Bytes) : Except TransportError (Bytes × Bytes) := do
  let material ← orRefuse (hpke.exportSecret receiver (canonicalParts [responseExportDomain, info]))
    .authenticationFailed
  .ok (material.toList.take 32, material.toList.drop 32)

def openDecoded (privateKey : Vector UInt8 32) (context : BootstrapContext)
    (request : DecodedBootstrapRequest) : Except TransportError BootstrapServerExchange := do
  let info ← context.info
  refuseIf (request.requestId ≠ context.requestId) .authenticationFailed
  let privateKey ← orRefuse (hpke.parsePrivateKey privateKey) .invalidInput
  refuseIf (hpke.validEncappedKey request.encappedKey = false) .nonCanonical
  let receiver ← orRefuse (hpke.setupReceiver privateKey request.encappedKey info)
    .authenticationFailed
  let (receiver, plaintext) ← orRefuse (hpke.openMessage receiver request.ciphertext info)
    .authenticationFailed
  validatePlaintext plaintext maxBootstrapPlaintextBytes
  let (key, nonce) ← responseMaterial hpke receiver info
  .ok ⟨plaintext, ⟨key, nonce, info⟩⟩

structure BootstrapReplayGuard where
  consumedRequestIds : OrdMap (Vector UInt8 32) Nat
  replayTtlMs : Nat
  lastSeenMs : Option Nat
  ttl_bounds : minBootstrapReplayTtlMs ≤ replayTtlMs ∧ replayTtlMs ≤ maxBootstrapReplayTtlMs

namespace BootstrapReplayGuard

def new (replayTtlMs : Nat) : Except TransportError BootstrapReplayGuard :=
  if h : minBootstrapReplayTtlMs ≤ replayTtlMs ∧ replayTtlMs ≤ maxBootstrapReplayTtlMs then
    .ok ⟨.empty, replayTtlMs, none, h⟩
  else .error .invalidInput

def Live (self : BootstrapReplayGuard) (now consumedAtMs : Nat) : Prop :=
  now - consumedAtMs < self.replayTtlMs

instance (self : BootstrapReplayGuard) (now consumedAtMs : Nat) :
    Decidable (self.Live now consumedAtMs) := inferInstanceAs (Decidable (_ < _))

def activeRequestIds (self : BootstrapReplayGuard) (now : Nat) : OrdMap (Vector UInt8 32) Nat :=
  self.consumedRequestIds.filter fun _ consumedAtMs => self.Live now consumedAtMs

def record (self : BootstrapReplayGuard) (privateKey : Vector UInt8 32) (context : BootstrapContext)
    (request : Bytes) (now : Nat) :
    Except TransportError (BootstrapServerExchange × OrdMap (Vector UInt8 32) Nat) := do
  -- What `open_request` does once the clock was read: the recorded ids are replaced only when the
  -- request opened.
  let decoded ← decodeBootstrap request
  refuseIf (decoded.requestId ≠ context.requestId) .authenticationFailed
  let active := self.activeRequestIds now
  refuseIf (active.contains context.requestId) .replay
  refuseIf (maxBootstrapRequestIds ≤ active.size) .capacityExhausted
  let exchange ← openDecoded hpke privateKey context decoded
  .ok (exchange, active.insert context.requestId now)

def openRequest (self : BootstrapReplayGuard) (privateKey : Vector UInt8 32)
    (context : BootstrapContext) (request : Bytes) (now : Nat) :
    BootstrapReplayGuard × Except TransportError BootstrapServerExchange :=
  match context.validate with
  | .error e => (self, .error e)
  | .ok () =>
    if self.lastSeenMs.any (now < ·) then (self, .error .clockRollback)
    else
      let self := { self with lastSeenMs := some now }
      match self.record hpke privateKey context request now with
      | .error e => (self, .error e)
      | .ok (exchange, ids) => ({ self with consumedRequestIds := ids }, .ok exchange)

def discardAuthenticatedRequest (self : BootstrapReplayGuard) (requestId : Vector UInt8 32)
    (consumedAtMs : Nat) : BootstrapReplayGuard × Bool :=
  if self.consumedRequestIds.get? requestId ≠ some consumedAtMs then (self, false)
  else ({ self with consumedRequestIds := self.consumedRequestIds.erase requestId },
    (self.consumedRequestIds.get? requestId).isSome)

variable {exchange : BootstrapServerExchange}

section

variable {hpke} {self : BootstrapReplayGuard} {privateKey : Vector UInt8 32}
  {context : BootstrapContext} {request : Bytes} {now : Nat} {id : Vector UInt8 32}

theorem get?_activeRequestIds {t : Nat} :
    (self.activeRequestIds now).get? id = some t ↔
      self.consumedRequestIds.get? id = some t ∧ self.Live now t := by
  rw [activeRequestIds, get?_filter, Option.filter_eq_some_iff, decide_eq_true_iff]

theorem record_eq_ok {ids : OrdMap (Vector UInt8 32) Nat}
    (h : self.record hpke privateKey context request now = .ok (exchange, ids)) :
    (self.activeRequestIds now).get? context.requestId = none ∧
      (self.activeRequestIds now).size < maxBootstrapRequestIds ∧
      ids = (self.activeRequestIds now).insert context.requestId now := by
  simp only [record, bind_eq_ok, refuseIf_eq_ok, exists_const, Except.ok.injEq, Prod.mk.injEq] at h
  obtain ⟨_, _, _, hnew, hroom, _, _, rfl, rfl⟩ := h
  exact ⟨contains_eq_false.mp (Bool.eq_false_iff.mpr hnew), not_le.mp hroom, rfl⟩

/-- What comes of a request: it is refused without a change, it fails after its reading of the clock
was noted, or it opens and its id is recorded beside the live ones. -/
inductive Opens (self : BootstrapReplayGuard) (context : BootstrapContext) (now : Nat) :
    BootstrapReplayGuard × Except TransportError BootstrapServerExchange → Prop
  | refused {e : TransportError} (hreason : context.validate = .error e ∨
      e = .clockRollback ∧ ∃ last, self.lastSeenMs = some last ∧ now < last) :
      Opens self context now (self, .error e)
  | failed (e : TransportError) (hclock : ∀ last, self.lastSeenMs = some last → last ≤ now) :
      Opens self context now ({ self with lastSeenMs := some now }, .error e)
  | opened (exchange : BootstrapServerExchange)
      (hclock : ∀ last, self.lastSeenMs = some last → last ≤ now)
      (hnew : (self.activeRequestIds now).get? context.requestId = none)
      (hroom : (self.activeRequestIds now).size < maxBootstrapRequestIds) :
      Opens self context now ({ self with
        lastSeenMs := some now
        consumedRequestIds := (self.activeRequestIds now).insert context.requestId now },
          .ok exchange)

theorem opens (hpke : Hpke PrivateKey Receiver) (self : BootstrapReplayGuard)
    (privateKey : Vector UInt8 32) (context : BootstrapContext) (request : Bytes) (now : Nat) :
    self.Opens context now (self.openRequest hpke privateKey context request now) := by
  unfold openRequest
  cases hvalid : context.validate with
  | error e => exact .refused (.inl hvalid)
  | ok u =>
    simp only
    split_ifs with hback
    · obtain ⟨last, hlast, hlt⟩ := exists_of_any hback
      exact .refused (.inr ⟨rfl, last, hlast, hlt⟩)
    · have hclock : ∀ last, self.lastSeenMs = some last → last ≤ now := by
        intro last hlast
        simpa [hlast] using hback
      split
      · exact .failed _ hclock
      · rename_i exchange ids hrecord
        obtain ⟨hnew, hroom, rfl⟩ := record_eq_ok hrecord
        exact .opened exchange hclock hnew hroom

variable {outcome : BootstrapReplayGuard × Except TransportError BootstrapServerExchange}
  {e : TransportError} {last : Nat} (h : self.Opens context now outcome)

include h

theorem Opens.replayTtlMs : outcome.1.replayTtlMs = self.replayTtlMs := by
  cases h <;> rfl

theorem Opens.of_error (herror : outcome.2 = .error e) :
    outcome.1.consumedRequestIds = self.consumedRequestIds := by
  cases h with
  | refused | failed => rfl
  | opened => cases herror

theorem Opens.size (hsize : self.consumedRequestIds.size ≤ maxBootstrapRequestIds) :
    outcome.1.consumedRequestIds.size ≤ maxBootstrapRequestIds := by
  cases h with
  | refused | failed => exact hsize
  | opened _ _ hnew hroom =>
    rw [size_insert_new hnew]
    exact hroom

theorem Opens.keeps {t : Nat}
    (hid : self.consumedRequestIds.get? id = some t) (hlive : self.Live now t) :
    outcome.1.consumedRequestIds.get? id = some t := by
  cases h with
  | refused | failed => exact hid
  | opened _ _ hnew =>
    have hactive := get?_activeRequestIds.mpr ⟨hid, hlive⟩
    have hne : context.requestId ≠ id := fun hsame => by simp [← hsame, hnew] at hactive
    exact (get?_insert_of_ne _ _ hne).trans hactive

theorem Opens.full (hfull : maxBootstrapRequestIds ≤ (self.activeRequestIds now).size) :
    ∃ e, outcome.2 = .error e := by
  cases h with
  | refused | failed => exact ⟨_, rfl⟩
  | opened _ _ _ hroom => exact absurd hroom (not_lt.mpr hfull)

theorem Opens.lastSeenMs (hlast : self.lastSeenMs = some last) :
    ∃ last', outcome.1.lastSeenMs = some last' ∧ last ≤ last' := by
  cases h with
  | refused => exact ⟨last, hlast, le_rfl⟩
  | failed _ hclock | opened _ hclock => exact ⟨now, rfl, hclock last hlast⟩

theorem Opens.seen (hvalid : context.validate = .ok ()) :
    ∃ last, outcome.1.lastSeenMs = some last ∧ now ≤ last := by
  cases h with
  | refused hreason =>
    obtain hbad | ⟨-, last, hlast, hlt⟩ := hreason
    · rw [hvalid] at hbad
      cases hbad
    · exact ⟨last, hlast, hlt.le⟩
  | failed | opened => exact ⟨now, rfl, le_rfl⟩

end

theorem discard_cases (self : BootstrapReplayGuard) (id : Vector UInt8 32) (t : Nat) :
    (self.discardAuthenticatedRequest id t).1 = self ∨
    self.consumedRequestIds.get? id = some t ∧ (self.discardAuthenticatedRequest id t).1 =
      { self with consumedRequestIds := self.consumedRequestIds.erase id } := by
  unfold discardAuthenticatedRequest
  split_ifs with hother
  · exact .inl rfl
  · exact .inr ⟨not_not.mp hother, rfl⟩

inductive Call
  | openRequest (privateKey : Vector UInt8 32) (context : BootstrapContext) (request : Bytes)
      (now : Nat)
  | discard (requestId : Vector UInt8 32) (consumedAtMs : Nat)

def step (self : BootstrapReplayGuard) : Call → BootstrapReplayGuard
  | .openRequest privateKey context request now =>
    (self.openRequest hpke privateKey context request now).1
  | .discard requestId consumedAtMs => (self.discardAuthenticatedRequest requestId consumedAtMs).1

def after (self : BootstrapReplayGuard) (calls : List Call) : BootstrapReplayGuard :=
  runFrom (step hpke) self calls

variable {hpke} {self : BootstrapReplayGuard} {t now : Nat}

theorem step_replayTtlMs (call : Call) : (self.step hpke call).replayTtlMs = self.replayTtlMs := by
  cases call with
  | openRequest => exact (opens ..).replayTtlMs
  | discard id t => obtain heq | ⟨-, heq⟩ := discard_cases self id t <;> rw [step, heq]

theorem after_replayTtlMs (calls : List Call) :
    (self.after hpke calls).replayTtlMs = self.replayTtlMs := by
  induction calls generalizing self with
  | nil => rfl
  | cons call calls ih => exact ih.trans (step_replayTtlMs call)

def Bounded (self : BootstrapReplayGuard) : Prop :=
  self.consumedRequestIds.size ≤ maxBootstrapRequestIds

theorem Bounded.step (h : self.Bounded) (call : Call) : (self.step hpke call).Bounded := by
  cases call with
  | openRequest => exact (opens ..).size h
  | discard id t =>
    obtain heq | ⟨-, heq⟩ := discard_cases self id t <;> rw [BootstrapReplayGuard.step, heq]
    · exact h
    · exact (size_filter_le _ _).trans h

theorem Bounded.after (h : self.Bounded) (calls : List Call) : (self.after hpke calls).Bounded :=
  run_invariant (fun _ call h => h.step call) h calls

def Reached (self : BootstrapReplayGuard) (t : Nat) : Prop :=
  ∃ last, self.lastSeenMs = some last ∧ t ≤ last

theorem Reached.step (h : self.Reached t) (call : Call) :
    (self.step hpke call).Reached t := by
  obtain ⟨last, hlast, hle⟩ := h
  cases call with
  | openRequest =>
    obtain ⟨last', hlast', hle'⟩ := (opens ..).lastSeenMs hlast
    exact ⟨last', hlast', hle.trans hle'⟩
  | discard id t =>
    obtain heq | ⟨-, heq⟩ := discard_cases self id t <;> rw [BootstrapReplayGuard.step, heq] <;>
      exact ⟨last, hlast, hle⟩

theorem Reached.after (h : self.Reached t) (calls : List Call) :
    (self.after hpke calls).Reached t :=
  @run_invariant _ _ _ (Reached · t) (fun _ call h => h.step call) _ h calls

variable {privateKey : Vector UInt8 32} {context : BootstrapContext} {request : Bytes}

theorem Reached.le (h : self.Reached t)
    (hok : (self.openRequest hpke privateKey context request now).2 = .ok exchange) : t ≤ now := by
  obtain ⟨last, hlast, hle⟩ := h
  have hopens := opens hpke self privateKey context request now
  generalize self.openRequest hpke privateKey context request now = outcome at hok hopens
  cases hopens with
  | refused | failed => cases hok
  | opened _ hclock => exact hle.trans (hclock last hlast)

def RecordedOrLapsed (id : Vector UInt8 32) (t : Nat) (self : BootstrapReplayGuard) : Prop :=
  self.consumedRequestIds.get? id = some t ∨ self.Reached (t + self.replayTtlMs)

theorem RecordedOrLapsed.step {id : Vector UInt8 32} (h : RecordedOrLapsed id t self) (call : Call) :
    RecordedOrLapsed id t (self.step hpke call) ∨ call = .discard id t := by
  have httl : (self.step hpke call).replayTtlMs = self.replayTtlMs := step_replayTtlMs call
  rcases h with h | h
  · cases call with
    | discard id' t' =>
      obtain heq | ⟨hother, heq⟩ := discard_cases self id' t' <;> rw [BootstrapReplayGuard.step, heq]
      · exact .inl (.inl h)
      · by_cases hsame : id' = id
        · subst hsame
          obtain rfl := Option.some.inj (hother.symm.trans h)
          exact .inr rfl
        · exact .inl (.inl ((get?_erase_of_ne _ hsame).trans h))
    | openRequest privateKey context request now =>
      refine .inl ?_
      by_cases hlive : self.Live now t
      · exact .inl ((opens ..).keeps h hlive)
      · rw [BootstrapReplayGuard.step]
        have hopens := opens hpke self privateKey context request now
        generalize self.openRequest hpke privateKey context request now = outcome at hopens
        cases hopens with
        | refused | failed => exact .inl h
        | opened =>
          refine .inr ⟨now, rfl, ?_⟩
          change t + self.replayTtlMs ≤ now
          have hpos := self.ttl_bounds.1
          unfold Live at hlive
          unfold minBootstrapReplayTtlMs at hpos
          omega
  · exact .inl (.inr (httl ▸ h.step call))

theorem openRequest_recorded
    (h : (self.openRequest hpke privateKey context request now).2 = .ok exchange) :
    (self.openRequest hpke privateKey context request now).1.consumedRequestIds.get?
        context.requestId = some now ∧
      ∀ t, self.consumedRequestIds.get? context.requestId = some t → ¬ self.Live now t := by
  have hopens := opens hpke self privateKey context request now
  generalize self.openRequest hpke privateKey context request now = outcome at h hopens
  cases hopens with
  | refused | failed => cases h
  | opened _ _ hnew =>
    refine ⟨get?_insert_self _ _ _, fun t ht hlive => ?_⟩
    have hactive := get?_activeRequestIds.mpr ⟨ht, hlive⟩
    rw [hnew] at hactive
    cases hactive

/-- After an id was opened it opens again only when the lifetime of its record is over or after a
discard with its time. -/
theorem opened_again {k k' : Vector UInt8 32} {c c' : BootstrapContext} {r r' : Bytes}
    {first second : BootstrapServerExchange} {later : List Call}
    (hfirst : (self.openRequest hpke k c r t).2 = .ok first)
    (hsecond : (((self.step hpke (.openRequest k c r t)).after hpke later).openRequest hpke
      k' c' r' now).2 = .ok second) (hid : c'.requestId = c.requestId) :
    t + self.replayTtlMs ≤ now ∨ .discard c.requestId t ∈ later := by
  have hstart : RecordedOrLapsed c.requestId t (self.step hpke (.openRequest k c r t)) :=
    .inl (openRequest_recorded hfirst).1
  have hstep : ∀ (s : BootstrapReplayGuard) (call : Call), RecordedOrLapsed c.requestId t s →
      RecordedOrLapsed c.requestId t (s.step hpke call) ∨ call = .discard c.requestId t :=
    fun s call hs => hs.step call
  rcases run_leaves hstep hstart later with hend | ⟨before, call, rest, rfl, -, -, rfl⟩
  · refine .inl ?_
    have httl : ((self.step hpke (.openRequest k c r t)).after hpke later).replayTtlMs =
        self.replayTtlMs := (after_replayTtlMs later).trans (step_replayTtlMs _)
    rcases hend with hrecorded | hlapsed
    · have hdead := (openRequest_recorded hsecond).2 t (hid ▸ hrecorded)
      have hpos := self.ttl_bounds.1
      unfold Live at hdead
      unfold minBootstrapReplayTtlMs at hpos
      omega
    · exact httl ▸ hlapsed.le hsecond
  · exact .inr (by simp)

/-- The reading a call makes. A context that is not valid is refused before the clock is looked
at. -/
def Call.reading : Call → Option Nat
  | .openRequest _ context _ now => if context.validate = .ok () then some now else none
  | .discard _ _ => none

theorem reached_of_reading {calls : List Call} {call : Call} (hcall : call ∈ calls)
    (hreading : call.reading = some t) : (self.after hpke calls).Reached t := by
  induction calls generalizing self with
  | nil => cases hcall
  | cons first calls ih =>
    rcases List.mem_cons.mp hcall with rfl | hcall
    · refine Reached.after ?_ calls
      cases call with
      | discard => cases hreading
      | openRequest privateKey context request now =>
        rw [Call.reading] at hreading
        split_ifs at hreading with hvalid
        obtain rfl := Option.some.inj hreading
        exact (opens ..).seen hvalid
    · exact ih hcall

theorem Reached.refused (h : self.Reached t) (hlt : now < t) (privateKey : Vector UInt8 32)
    (context : BootstrapContext) (request : Bytes) :
    ∃ e, self.openRequest hpke privateKey context request now = (self, .error e) ∧
      (context.validate = .ok () → e = .clockRollback) := by
  obtain ⟨last, hlast, hle⟩ := h
  cases hvalid : context.validate with
  | error e => exact ⟨e, by simp [openRequest, hvalid], fun h => by cases h⟩
  | ok u =>
    have hearlier : now < last := hlt.trans_le hle
    exact ⟨_, by simp [openRequest, hvalid, hlast, hearlier], fun _ => rfl⟩

/-- Over every history of a guard: an id that was opened opens again only after the lifetime of its
record or a discard with its time; a reading earlier than one already made is refused; a request that
fails changes no record; live ids are never dropped, and a full table refuses new ones. -/
theorem replay_guard (hpke : Hpke PrivateKey Receiver) {ttl : Nat} {guard : BootstrapReplayGuard}
    (hnew : new ttl = .ok guard) (calls : List Call) :
    (guard.after hpke calls).consumedRequestIds.size ≤ maxBootstrapRequestIds ∧
    ∀ privateKey context request now,
      let s := guard.after hpke calls
      let outcome := s.openRequest hpke privateKey context request now
      (∀ exchange, outcome.2 = .ok exchange → ∀ before k c r t later first,
        calls = before ++ .openRequest k c r t :: later →
        ((guard.after hpke before).openRequest hpke k c r t).2 = .ok first →
        c.requestId = context.requestId →
          t + ttl ≤ now ∨ .discard context.requestId t ∈ later) ∧
      (∀ call ∈ calls, ∀ seen, call.reading = some seen → now < seen →
        ∃ e, outcome = (s, .error e) ∧ (context.validate = .ok () → e = .clockRollback)) ∧
      (∀ e, outcome.2 = .error e → outcome.1.consumedRequestIds = s.consumedRequestIds) ∧
      (∀ id t, s.consumedRequestIds.get? id = some t → now - t < ttl →
        outcome.1.consumedRequestIds.get? id = some t) ∧
      (maxBootstrapRequestIds ≤ (s.activeRequestIds now).size → ∃ e, outcome.2 = .error e) := by
  unfold new at hnew
  split_ifs at hnew with hbounds
  obtain rfl := Except.ok.inj hnew
  have hempty : Bounded ⟨.empty, ttl, none, hbounds⟩ := Nat.zero_le _
  refine ⟨hempty.after calls,
    fun privateKey context request now => ⟨?_, ?_, ?_, ?_, (opens ..).full⟩⟩
  · rintro exchange hok before k c r t later first rfl hfirst hid
    rw [← hid]
    have hrun : (after hpke ⟨.empty, ttl, none, hbounds⟩ (before ++ .openRequest k c r t :: later)) =
        ((after hpke ⟨.empty, ttl, none, hbounds⟩ before).step hpke (.openRequest k c r t)).after
          hpke later := List.foldl_append ..
    rw [hrun] at hok
    have hagain := opened_again hfirst hok hid.symm
    rwa [after_replayTtlMs] at hagain
  · exact fun call hcall seen hreading hlt => (reached_of_reading hcall hreading).refused hlt _ _ _
  · exact fun e he => (opens ..).of_error he
  · intro id t hid hlt
    refine (opens ..).keeps hid ?_
    rw [Live, after_replayTtlMs]
    exact hlt

def clearHpke : Hpke (Vector UInt8 32) Unit where
  parsePrivateKey key := some key
  validEncappedKey _ := true
  setupReceiver _ _ _ := some ()
  openMessage _ ciphertext _ := some ((), ciphertext.dropLast)
  exportSecret _ _ := some (zeros 44)

def sampleContext : BootstrapContext :=
  ⟨Vector.replicate 32 1, Vector.replicate 32 2, ascii "account", Vector.replicate 32 3⟩

def sampleRequest : Bytes :=
  bootstrapMagic ++ [transportVersion] ++ List.replicate 32 3 ++ List.replicate 32 4 ++ be 4 17 ++
    List.replicate 17 5

def sampleGuard : BootstrapReplayGuard := ⟨.empty, 600000, none, by decide⟩

def sampleCall (now : Nat) : Call :=
  .openRequest (Vector.replicate 32 6) sampleContext sampleRequest now

theorem replay_guard_sample :
    ((sampleGuard.openRequest clearHpke (Vector.replicate 32 6) sampleContext sampleRequest
      7).2.toOption.isSome = true) ∧
    ((sampleGuard.after clearHpke [sampleCall 7]).openRequest clearHpke (Vector.replicate 32 6)
      sampleContext sampleRequest 600006).2.toOption.isSome = false := by
  have hfirst : (sampleGuard.openRequest clearHpke (Vector.replicate 32 6) sampleContext sampleRequest
      7).2.toOption.isSome = true := by decide
  refine ⟨hfirst, ?_⟩
  have hguard := (replay_guard clearHpke (rfl : new 600000 = .ok sampleGuard) [sampleCall 7]).2
    (Vector.replicate 32 6) sampleContext sampleRequest 600006
  cases hsecond : ((sampleGuard.after clearHpke [sampleCall 7]).openRequest clearHpke
    (Vector.replicate 32 6) sampleContext sampleRequest 600006).2 with
  | error e => rfl
  | ok exchange =>
    cases hopened : (sampleGuard.openRequest clearHpke (Vector.replicate 32 6) sampleContext
      sampleRequest 7).2 with
    | error e =>
      rw [hopened] at hfirst
      cases hfirst
    | ok first =>
      rcases hguard.1 exchange hsecond [] _ _ _ _ [] first rfl hopened rfl with hlapsed | hdiscard
      · exact absurd hlapsed (by decide)
      · cases hdiscard

end BootstrapReplayGuard

end Abyssal.Transport
