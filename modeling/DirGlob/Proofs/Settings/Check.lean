import DirGlob.Settings.Check

set_option autoImplicit false

/-! # What a check gives

A check of settings goes through its parts one by one. What it gives, if it gives something, comes
from its last part, whatever warnings the parts before it have collected. -/

namespace DirGlob.Settings

namespace Check

variable {α β : Type} {P : α → Prop}

/-- If the check does not end with a complaint, what it gives has the property. -/
def Gives (P : α → Prop) (a : Check α) : Prop :=
  ∀ ws x ws', a.run ws = .ok (x, ws') → P x

theorem gives_pure {x : α} (h : P x) : Gives P (pure x : Check α) := by
  intro ws x' ws' hrun
  cases hrun
  exact h

theorem gives_bind {a : Check β} {g : β → Check α} (h : ∀ y, Gives P (g y)) :
    Gives P (a >>= g) := by
  intro ws x ws' hrun
  rw [StateT.run_bind] at hrun
  cases hfirst : a.run ws with
  | error c =>
      rw [hfirst] at hrun
      cases hrun
  | ok r =>
      rw [hfirst] at hrun
      exact h r.1 r.2 x ws' hrun

theorem gives_complain (mode : Mode) (c : Complaint) {fallback : α} (h : P fallback) :
    Gives P (complain mode c fallback) := by
  cases mode with
  | strict => exact nofun
  | lenient => exact gives_bind fun _ => gives_pure h

/-- The working directory of checked settings is resolved in the present one, or is the present
    one. -/
theorem gives_value (mode : Mode) (ambient : String) (v : Value) :
    Gives (fun s => s.cwd = ambient ∨ ∃ given, s.cwd = WorkDir.resolveFrom ambient given [])
      (value mode ambient v) := by
  cases v with
  | dict entries =>
      refine gives_bind fun cwd => gives_bind fun _ => gives_bind fun _ => gives_bind fun _ => ?_
      exact gives_bind fun _ => gives_bind fun _ => gives_pure (.inr ⟨cwd, rfl⟩)
  | _ => exact gives_complain mode _ (.inl rfl)

end Check

theorem isAbsolute_cwd_of_check {mode : Mode} {ambient : String} {v : Value} {checked : Checked}
    (h : Path.isAbsolute ambient = true) (hcheck : check mode ambient v = .ok checked) :
    Path.isAbsolute checked.settings.cwd = true := by
  rw [check] at hcheck
  cases hrun : (Check.value mode ambient v).run [] with
  | error c =>
      rw [hrun] at hcheck
      cases hcheck
  | ok r =>
      rw [hrun] at hcheck
      cases hcheck
      rcases Check.gives_value mode ambient v [] r.1 r.2 hrun with hcwd | ⟨given, hcwd⟩
      · rw [hcwd]
        exact h
      · rw [hcwd]
        exact WorkDir.isAbsolute_resolveFrom h given []

end DirGlob.Settings
