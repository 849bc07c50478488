import Mathlib.Tactic.Common
import Parcel.Binding.Program

/-!
# Reported errors only grow

Much of binding changes nothing of the binder but its errors: it may report errors after those that
are reported already, and never takes one back. So when nothing is reported in the end, nothing was
reported on the way.
-/

namespace Parcel

open Code BindM

variable {α β : Type} {action : BindM α} {b : Binder}

namespace Binder

/-- The binder with other errors. -/
def reported (b : Binder) (errors : Array FileError) : Binder :=
  { b with errors }

/-- The binder after more errors in its file. -/
def adding (b : Binder) (new : List BindError) : Binder :=
  b.reported (b.errors.toList ++ new.map (FileError.mk b.file)).toArray

@[simp] lemma toList_errors_adding (b : Binder) (new : List BindError) :
    (b.adding new).errors.toList = b.errors.toList ++ new.map (FileError.mk b.file) := rfl

@[simp] lemma adding_nil (b : Binder) : b.adding [] = b := by
  rw [adding, List.map_nil, List.append_nil]
  rfl

@[simp] lemma adding_adding (b : Binder) (new new' : List BindError) :
    (b.adding new).adding new' = b.adding (new ++ new') := by
  simp only [adding, List.map_append, ← List.append_assoc]
  rfl

end Binder

/-- A computation runs the next one from the state that it leaves. -/
lemma bind_run_bind (action : BindM α) (next : α → BindM β) (b : Binder) :
    (action >>= next).run b = (next (action.run b).1).run (action.run b).2 := rfl

/-- Reading the state leaves it as it is. -/
lemma get_run_bind (next : Binder → BindM β) (b : Binder) :
    (get >>= next).run b = (next b).run b := rfl

lemma report_run (cause : BindCause) (span : Span) (b : Binder) :
    (report cause span).run b = ((), b.adding [⟨cause, span⟩]) := by
  have hpush : b.errors.push ⟨b.file, ⟨cause, span⟩⟩ =
      (b.errors.toList ++ [FileError.mk b.file ⟨cause, span⟩]).toArray :=
    Array.ext' (by simp)
  show ((), b.reported (b.errors.push ⟨b.file, ⟨cause, span⟩⟩)) = _
  rw [hpush]
  rfl

/-- A computation that does nothing but report errors. -/
def Reporting {α : Type} (action : BindM α) : Prop :=
  ∀ b, ∃ a new, action.run b = (a, b.adding new)

namespace Reporting

/-- Whatever was reported before, more errors may come after it, and nothing else changes. -/
lemma run (h : Reporting action) (b : Binder) (errs : Array FileError) :
    ∃ a errs', action.run (b.reported errs) = (a, b.reported errs') ∧
      errs.toList <+: errs'.toList := by
  obtain ⟨a, new, hrun⟩ := h (b.reported errs)
  exact ⟨a, _, hrun, List.prefix_append _ _⟩

end Reporting

lemma eq_empty_of_appended {errs errs' : Array FileError} (h : errs.toList <+: errs'.toList)
    (hempty : errs' = #[]) : errs = #[] := by
  rw [hempty] at h
  exact Array.toList_eq_nil_iff.mp (List.prefix_nil.mp h)

/-- If there is no error after it, there was none before it. -/
lemma Reporting.clean (h : Reporting action) {errs : Array FileError} {a : α}
    (hrun : action.run (b.reported errs) = (a, b.reported #[])) : errs = #[] := by
  obtain ⟨a', errs', hrun', hprefix⟩ := h.run b errs
  have herrs : errs' = #[] := congrArg Build.errors
    (congrArg Binder.toBuild (Prod.mk.inj (hrun'.symm.trans hrun)).2)
  exact eq_empty_of_appended hprefix herrs

/-- An error that is reported comes after those there are. -/
lemma prefix_push (errors : Array FileError) (error : FileError) :
    errors.toList <+: (errors.push error).toList := by
  rw [Array.toList_push]
  exact List.prefix_append _ _

end Parcel
