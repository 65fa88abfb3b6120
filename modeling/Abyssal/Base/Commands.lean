import Abyssal.Base.Checked

/-! Commands that change a state in place and may stop with an error. What was changed before the
error stays changed, so a caller that wants it undone has to put an earlier state back. -/

namespace Abyssal

def Command (S α : Type) : Type := S → Except String α × S

namespace Command

variable {S T A α β : Type}

instance : Monad (Command S) where
  pure a := fun s => (.ok a, s)
  bind x f := fun s =>
    match x s with
    | (.ok a, s) => f a s
    | (.error e, s) => (.error e, s)

def get : Command S S := fun s => (.ok s, s)

def modify (f : S → S) : Command S Unit := fun s => (.ok (), f s)

def check (x : Except String α) : Command S α := fun s => (x, s)

def fail (error : String) : Command S α := check (.error error)

def each (f : α → Command S β) : List α → Command S (List β)
  | [] => pure []
  | a :: as => do
    let b ← f a
    let bs ← each f as
    pure (b :: bs)

def handle (x : Command S α) (onError : String → Command S β) (onOk : α → Command S β) :
    Command S β := fun s =>
  match x s with
  | (.error e, s) => onError e s
  | (.ok a, s) => onOk a s

def zoom (part : T → S) (put : S → T → T) (x : Command S α) : Command T α := fun t =>
  ((x (part t)).1, put (x (part t)).2 t)

variable {x : Command S α} {f : α → Command S β} {s s' : S} {a a' : α} {b : β}

theorem pure_run (a : α) (s : S) : (pure a : Command S α) s = (.ok a, s) := rfl

theorem pure_eq_ok : (pure a : Command S α) s = (.ok a', s') ↔ a = a' ∧ s = s' := by
  rw [pure_run, Prod.mk.injEq, Except.ok.injEq]

theorem ok_bind : (x >>= f) s = (.ok b, s') ↔ ∃ a s₁, x s = (.ok a, s₁) ∧ f a s₁ = (.ok b, s') := by
  change (match x s with | (.ok a, s) => f a s | (.error e, s) => (.error e, s)) = _ ↔ _
  cases h : x s with
  | mk result s₁ => cases result <;> simp

variable {s₁ : S}

theorem bind_of_ok (h : x s = (.ok a, s₁)) : (x >>= f) s = f a s₁ := by
  change (match x s with | (.ok a, s) => f a s | (.error e, s) => (.error e, s)) = _
  rw [h]

variable {e : String}

theorem bind_of_error (h : x s = (.error e, s₁)) : (x >>= f) s = (.error e, s₁) := by
  change (match x s with | (.ok a, s) => f a s | (.error e, s) => (.error e, s)) = _
  rw [h]

@[simp] theorem get_bind (f : S → Command S β) : (get >>= f) s = f s s := rfl

@[simp] theorem modify_bind (g : S → S) (f : Unit → Command S β) :
    (modify g >>= f) s = f () (g s) := rfl

theorem check_eq_ok {x : Except String α} : check x s = (.ok a, s') ↔ x = .ok a ∧ s = s' := by
  simp [check]

theorem check_bind_eq_ok {x : Except String α} :
    (check x >>= f) s = (.ok b, s') ↔ ∃ a, x = .ok a ∧ f a s = (.ok b, s') := by
  rw [ok_bind]
  constructor
  · rintro ⟨a, s₁, hx, hf⟩
    obtain ⟨hok, rfl⟩ := check_eq_ok.mp hx
    exact ⟨a, hok, hf⟩
  · rintro ⟨a, hx, hf⟩
    exact ⟨a, s, check_eq_ok.mpr ⟨hx, rfl⟩, hf⟩

variable {result : Except String α}

theorem run_of_result (h : (x s).1 = result) :
    x s = (result, (x s).2) := by rw [← h]

theorem map_run (g : α → β) (x : Command S α) (s : S) : (g <$> x) s = ((x s).1.map g, (x s).2) := by
  cases h : x s with
  | mk result s₁ =>
    cases result with
    | ok a => exact bind_of_ok h
    | error e => exact bind_of_error h

theorem map_run_ok {g : α → β}
    (h : (g <$> x) s = (.ok b, s')) : ∃ a, x s = (.ok a, s') ∧ b = g a := by
  rw [map_run] at h
  cases hx : x s with
  | mk result s₁ =>
    rw [hx] at h
    cases result with
    | error e => cases h
    | ok a =>
      obtain ⟨hb, rfl⟩ := Prod.mk.inj h
      exact ⟨a, rfl, (Except.ok.inj hb).symm⟩

theorem map_run_error {g : α → β} (h : (g <$> x) s = (.error e, s')) : x s = (.error e, s') := by
  rw [map_run] at h
  cases hx : x s with
  | mk result s₁ =>
    rw [hx] at h
    cases result with
    | ok a => cases h
    | error e' =>
      obtain ⟨he, rfl⟩ := Prod.mk.inj h
      rw [show e' = e from Except.error.inj he]

variable {put : S → T → T} {onError : String → Command S β} {onOk : α → Command S β}

theorem handle_of_ok (h : x s = (.ok a, s')) :
    handle x onError onOk s = onOk a s' := by
  rw [handle, h]

theorem handle_of_error (h : x s = (.error e, s')) :
    handle x onError onOk s = onError e s' := by
  rw [handle, h]

def Atomic (x : Command S α) : Prop := ∀ s e s', x s = (.error e, s') → s' = s

namespace Atomic

theorem cases {x : Command S α} (h : x.Atomic) (s : S) :
    (∃ e, x s = (.error e, s)) ∨ ∃ a s', x s = (.ok a, s') := by
  cases hx : x s with
  | mk result s' =>
    cases result with
    | error e => exact .inl ⟨e, by rw [h s e s' hx]⟩
    | ok a => exact .inr ⟨a, s', rfl⟩

theorem check_bind {x : Except String α} (hf : ∀ a, x = .ok a → Atomic (f a)) :
    Atomic (Command.check x >>= f) := by
  intro s e s' h
  cases x with
  | ok a => exact hf a rfl s e s' h
  | error e => exact (Prod.mk.inj h).2.symm

theorem get_bind {f : S → Command S β} (hf : ∀ s e s', f s s = (.error e, s') → s' = s) :
    Atomic (get >>= f) := hf

theorem modify (g : S → S) : Atomic (Command.modify g) := by
  intro s e s' h
  cases h

theorem zoom {part : T → S} (hput : ∀ t, put (part t) t = t) (hx : Atomic x) :
    Atomic (zoom part put x) := by
  intro t e t' h
  obtain ⟨hresult, rfl⟩ := Prod.mk.inj h
  have hsame : (x (part t)).2 = part t := hx (part t) e _ (Prod.ext hresult rfl)
  rw [hsame, hput]

end Atomic

def Keeps (g : S → A) (x : Command S α) : Prop := ∀ s, g (x s).2 = g s

namespace Keeps

variable {g : S → A}

theorem pure (a : α) : Keeps g (Pure.pure a) := fun _ => rfl

theorem get : Keeps g (Command.get : Command S S) := fun _ => rfl

theorem check (x : Except String α) : Keeps g (Command.check x : Command S α) := fun _ => rfl

theorem modify {m : S → S} (h : ∀ s, g (m s) = g s) : Keeps g (Command.modify m) := h

theorem comp {B : Type} (k : A → B) (hx : Keeps g x) : Keeps (fun s => k (g s)) x :=
  fun s => congrArg k (hx s)

theorem bind (hx : Keeps g x) (hf : ∀ a, Keeps g (f a)) : Keeps g (x >>= f) := by
  intro s
  have hkept := hx s
  cases h : x s with
  | mk result s₁ =>
    rw [h] at hkept
    cases result with
    | ok a => rw [bind_of_ok h, hf a s₁, hkept]
    | error e => rw [bind_of_error h, hkept]

theorem ite {c : Prop} [Decidable c] {y : Command S α} (hx : Keeps g x) (hy : Keeps g y) :
    Keeps g (if c then x else y) := by
  split_ifs
  · exact hx
  · exact hy

theorem each (hf : ∀ a, Keeps g (f a)) (as : List α) :
    Keeps g (Command.each f as) := by
  induction as with
  | nil => exact .pure _
  | cons a as ih => exact (hf a).bind fun _ => ih.bind fun _ => .pure _

end Keeps

theorem each_invariant {P : S → Prop} {as : List α} {bs : List β}
    (hstep : ∀ a ∈ as, ∀ s b s', P s → f a s = (.ok b, s') → P s') (hs : P s)
    (h : each f as s = (.ok bs, s')) : P s' := by
  induction as generalizing s bs with
  | nil =>
    obtain ⟨-, rfl⟩ := pure_eq_ok.mp h
    exact hs
  | cons a as ih =>
    obtain ⟨b, s₁, ha, hrest⟩ := ok_bind.mp h
    obtain ⟨bs', s₂, has, hdone⟩ := ok_bind.mp hrest
    obtain ⟨-, rfl⟩ := pure_eq_ok.mp hdone
    exact ih (fun a ha => hstep a (List.mem_cons_of_mem _ ha))
      (hstep a (List.mem_cons_self ..) s b s₁ hs ha) has

end Command
end Abyssal
