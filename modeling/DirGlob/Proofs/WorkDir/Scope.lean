import DirGlob.Proofs.Lookup
import DirGlob.WorkDir.Scope

set_option autoImplicit false

/-! # What opening and closing a scope does

A scope keeps what it remembers until its handle is opened or closed: nothing else that happens to
the contexts touches it. Closing it for the first time brings the directory back that it remembers,
in its own context, and fails in any other one. -/

namespace DirGlob.WorkDir.Contexts

variable {c : Contexts} {handle other : String}

/-! ## Scopes by their handles -/

@[simp]
theorem scope?_setScope_self (c : Contexts) (handle : String) (s : Scope) :
    (c.setScope handle s).scope? handle = some s := by
  rw [scope?, setScope, lookup_put, if_pos rfl]

theorem scope?_setScope_of_ne (c : Contexts) (s : Scope) (h : other ≠ handle) :
    (c.setScope handle s).scope? other = c.scope? other := by
  rw [scope?, setScope, lookup_put, if_neg h, scope?]

/-- Making a handle stand for the scope that it stands for changes no scope. -/
theorem scope?_setScope_of_scope? {s : Scope} (h : c.scope? handle = some s) (other : String) :
    (c.setScope handle s).scope? other = c.scope? other := by
  by_cases ho : other = handle
  · rw [ho, scope?_setScope_self, h]
  · exact scope?_setScope_of_ne c s ho

/-! ## Restoring -/

@[simp]
theorem scope?_restore (c : Contexts) (s : Scope) (handle : String) :
    (c.restore s).scope? handle = c.scope? handle := by
  rw [restore]
  split <;> rfl

@[simp]
theorem current_restore (c : Contexts) (s : Scope) : (c.restore s).current = c.current := by
  rw [restore]
  split <;> rfl

@[simp]
theorem next_restore (c : Contexts) (s : Scope) : (c.restore s).next = c.next := by
  rw [restore]
  split <;> rfl

/-! ## Opening -/

@[simp]
theorem scope?_enter_self (c : Contexts) (handle directory : String) :
    (c.enter handle directory).scope? handle = some ⟨c.current, c.cwd, false⟩ := by
  rw [enter]
  cases c.scope? handle <;> simp

theorem scope?_enter_of_ne (c : Contexts) (directory : String) (h : other ≠ handle) :
    (c.enter handle directory).scope? other = c.scope? other := by
  have hset := scope?_setScope_of_ne { c with cwd := directory } ⟨c.current, c.cwd, false⟩ h
  rw [enter]
  cases c.scope? handle with
  | none => exact hset
  | some old => exact (scope?_restore _ old other).trans hset

@[simp]
theorem current_enter (c : Contexts) (handle directory : String) :
    (c.enter handle directory).current = c.current := by
  rw [enter]
  cases c.scope? handle <;> simp [setScope]

@[simp]
theorem next_enter (c : Contexts) (handle directory : String) :
    (c.enter handle directory).next = c.next := by
  rw [enter]
  cases c.scope? handle <;> simp [setScope]

/-! ## Closing -/

/-- In its own context a scope brings the directory back that it replaced. -/
theorem exit_of_own {directory : String}
    (h : c.scope? handle = some ⟨c.current, directory, false⟩) :
    c.exit handle =
      ({ c with cwd := directory }.setScope handle ⟨c.current, directory, true⟩, .ok ()) := by
  simp [exit, h, restore]

/-- In another context than its own a scope is used up without bringing anything back. -/
theorem exit_of_foreign {context : Nat} {directory : String}
    (h : c.scope? handle = some ⟨context, directory, false⟩) (hne : c.current ≠ context) :
    c.exit handle = (c.setScope handle ⟨context, directory, true⟩, .error .foreignContext) := by
  simp [exit, h, restore, Ne.symm hne]

/-- A scope that was to be closed before stays as it is. -/
theorem exit_of_spent {s : Scope} (h : c.scope? handle = some s) (hs : s.spent = true) :
    c.exit handle = (c.setScope handle s, .ok ()) := by
  obtain ⟨context, restores, spent⟩ := s
  cases hs
  simp [exit, h, restore]

theorem scope?_exit_self (c : Contexts) (handle : String) :
    (c.exit handle).1.scope? handle = (c.scope? handle).map ({ · with spent := true }) := by
  rw [exit]
  split <;> simp_all

theorem scope?_exit_of_ne (c : Contexts) (h : other ≠ handle) :
    (c.exit handle).1.scope? other = c.scope? other := by
  rw [exit]
  split
  · rfl
  · rw [scope?_setScope_of_ne _ _ h, scope?_restore]

@[simp]
theorem current_exit (c : Contexts) (handle : String) :
    (c.exit handle).1.current = c.current := by
  rw [exit]
  split <;> simp [setScope]

@[simp]
theorem next_exit (c : Contexts) (handle : String) : (c.exit handle).1.next = c.next := by
  rw [exit]
  split <;> simp [setScope]

end DirGlob.WorkDir.Contexts
