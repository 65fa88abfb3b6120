import Abyssal.Base.Runs
import Mathlib.Data.List.Induction

/-! Desks that hand out keys. A call may grant a key to its caller, file an answer under a grant,
return a filed answer, or clear the desk. The laws say how one call moves the keys that were handed
out, the grants that are open and the answers on file; from them follows, for every history, that
between two clears no key is granted twice and that what is returned was filed. -/

namespace Abyssal

open List

structure Desk (Store Call Key Grant Answer : Type) where
  start : Store
  step : Store → Call → Store
  granted : Store → Call → Option Grant
  filed : Store → Call → Option Answer
  returned : Store → Call → Option Answer
  clears : Call → Bool
  key : Grant → Key
  grant : Answer → Grant

namespace Desk

variable {Store Call Key Grant Answer : Type} (desk : Desk Store Call Key Grant Answer)

def after (calls : List Call) : Store := runFrom desk.step desk.start calls

def grants : Store → List Call → List Grant
  | _, [] => []
  | s, call :: calls => (desk.granted s call).toList ++ grants (desk.step s call) calls

def Uncleared (calls : List Call) : Prop := ∀ call ∈ calls, desk.clears call = false

/-- Some call of a history did something, and the desk was not cleared since. -/
def Since (calls : List Call) (done : Store → Call → Prop) : Prop :=
  ∃ before call later, calls = before ++ call :: later ∧ done (desk.after before) call ∧
    desk.Uncleared later

/-- How one call moves the keys handed out, the open grants and the answers on file. -/
structure Lawful where
  Sound : Store → Prop
  Spent : Store → Key → Prop
  Open : Store → Grant → Prop
  OnFile : Store → Answer → Prop
  sound_start : Sound desk.start
  sound_step : ∀ {s}, Sound s → ∀ call, Sound (desk.step s call)
  unspent_of_granted : ∀ {s call g}, Sound s → desk.granted s call = some g → ¬ Spent s (desk.key g)
  spent_of_granted : ∀ {s call g}, Sound s → desk.granted s call = some g →
    Spent (desk.step s call) (desk.key g)
  spent_step : ∀ {s call k}, Sound s → Spent s k → desk.clears call = false →
    Spent (desk.step s call) k
  open_start : ∀ g, ¬ Open desk.start g
  open_step : ∀ {s call g}, Sound s → Open (desk.step s call) g →
    desk.granted s call = some g ∨ Open s g ∧ desk.clears call = false
  open_of_filed : ∀ {s call a}, Sound s → desk.filed s call = some a → Open s (desk.grant a)
  onFile_start : ∀ a, ¬ OnFile desk.start a
  onFile_step : ∀ {s call a}, Sound s → OnFile (desk.step s call) a →
    desk.filed s call = some a ∨ OnFile s a ∧ desk.clears call = false
  onFile_of_returned : ∀ {s call a}, Sound s → desk.returned s call = some a → OnFile s a

variable {desk}

theorem after_append (calls calls' : List Call) :
    desk.after (calls ++ calls') = runFrom desk.step (desk.after calls) calls' :=
  foldl_append ..

theorem after_snoc (calls : List Call) (call : Call) :
    desk.after (calls ++ [call]) = desk.step (desk.after calls) call := after_append ..

variable {calls : List Call} {done : Store → Call → Prop} {call : Call}

theorem Since.snoc (h : desk.Since calls done) (hcall : desk.clears call = false) :
    desk.Since (calls ++ [call]) done := by
  obtain ⟨before, c, later, rfl, hdone, hlater⟩ := h
  refine ⟨before, c, later ++ [call], by simp, hdone, fun d hd => ?_⟩
  rcases mem_append.mp hd with hd | hd
  · exact hlater d hd
  · exact mem_singleton.mp hd ▸ hcall

/-- A fact that holds now, and that only one kind of call brings about, was brought about by such a
call since the desk was cleared last. -/
theorem since_of_holds {Sound : Store → Prop} (Holds : Store → Prop)
    (hsound : ∀ calls, Sound (desk.after calls)) (hstart : ¬ Holds desk.start)
    (hstep : ∀ s call, Sound s → Holds (desk.step s call) →
      done s call ∨ Holds s ∧ desk.clears call = false) (h : Holds (desk.after calls)) :
    desk.Since calls done := by
  induction calls using List.reverseRecOn with
  | nil => exact absurd h hstart
  | append_singleton calls call ih =>
    rw [after_snoc] at h
    rcases hstep _ call (hsound calls) h with hdone | ⟨hholds, hclear⟩
    · exact ⟨calls, call, [], rfl, hdone, fun _ h => by cases h⟩
    · exact (ih hholds).snoc hclear

namespace Lawful

variable (laws : desk.Lawful)

theorem sound_after (calls : List Call) : laws.Sound (desk.after calls) :=
  @run_invariant _ _ desk.step laws.Sound (fun _ call h => laws.sound_step h call) _
    laws.sound_start calls

variable {s : Store}

theorem spent_run {k : Key} (hs : laws.Sound s) (hspent : laws.Spent s k) {calls : List Call}
    (hclear : desk.Uncleared calls) :
    laws.Spent (runFrom desk.step s calls) k := by
  induction calls generalizing s with
  | nil => exact hspent
  | cons call calls ih =>
    exact ih (laws.sound_step hs call)
      (laws.spent_step hs hspent (hclear call (mem_cons_self ..)))
      (fun c hc => hclear c (mem_cons_of_mem _ hc))

theorem unspent_of_mem_grants {g : Grant} (hs : laws.Sound s) (hclear : desk.Uncleared calls)
    (hg : g ∈ desk.grants s calls) : ¬ laws.Spent s (desk.key g) := by
  induction calls generalizing s with
  | nil => cases hg
  | cons call calls ih =>
    rcases mem_append.mp hg with hg | hg
    · exact laws.unspent_of_granted hs (Option.mem_toList.mp hg)
    · intro hspent
      exact ih (laws.sound_step hs call) (fun c hc => hclear c (mem_cons_of_mem _ hc)) hg
        (laws.spent_step hs hspent (hclear call (mem_cons_self ..)))

theorem grants_nodup (hs : laws.Sound s) (hclear : desk.Uncleared calls) :
    ((desk.grants s calls).map desk.key).Nodup := by
  induction calls generalizing s with
  | nil => exact nodup_nil
  | cons call calls ih =>
    have hrest : desk.Uncleared calls := fun c hc => hclear c (mem_cons_of_mem _ hc)
    have htail := ih (laws.sound_step hs call) hrest
    cases hgranted : desk.granted s call with
    | none => simpa [grants, hgranted] using htail
    | some g =>
      simp only [grants, hgranted, Option.toList_some, singleton_append, map_cons,
        nodup_cons]
      refine ⟨fun hmem => ?_, htail⟩
      obtain ⟨g', hg', hkey⟩ := mem_map.mp hmem
      have hunspent := laws.unspent_of_mem_grants (laws.sound_step hs call) hrest hg'
      exact hunspent (hkey ▸ laws.spent_of_granted hs hgranted)

include laws

theorem filed_of_returned {a : Answer} (h : desk.returned (desk.after calls) call = some a) :
    desk.Since calls fun s c => desk.filed s c = some a :=
  since_of_holds (laws.OnFile · a) laws.sound_after (laws.onFile_start a)
    (fun _ _ hs hstep => laws.onFile_step hs hstep)
    (laws.onFile_of_returned (laws.sound_after calls) h)

theorem granted_of_filed {a : Answer} (h : desk.filed (desk.after calls) call = some a) :
    desk.Since calls fun s c => desk.granted s c = some (desk.grant a) :=
  since_of_holds (laws.Open · (desk.grant a)) laws.sound_after (laws.open_start _)
    (fun _ _ hs hstep => laws.open_step hs hstep)
    (laws.open_of_filed (laws.sound_after calls) h)

end Lawful

end Desk

end Abyssal
