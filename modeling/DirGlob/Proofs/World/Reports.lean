import DirGlob.Proofs.Log.Errors
import DirGlob.Proofs.Log.Output
import DirGlob.Proofs.World.Keeps

set_option autoImplicit false

/-! # Diagnostics and output

A run does three things to the world besides filling the cache: it sets the log up, it reports, and
it prints. Reporting changes nothing but the hub, leaves what is on the error stream where it is, and
keeps a silent log silent (`Action.OnlyReports`). Only printing changes what is printed, and it fails
if the standard output is out of order (`Action.run_writeAll`). -/

namespace DirGlob

namespace World

variable {w w' w'' : World}

/-- From the one world to the other one only the hub has changed. What stands on the error stream
    stays there, and if the log was silent it is so still. -/
structure Reports (w w' : World) : Prop where
  only : w' = { w with hub := w'.hub, calm := w'.calm }
  errors : w.hub.GrowsTo w'.hub
  silent : ∀ text, w.hub.Silent text → w'.hub.Silent text

theorem reports_refl (w : World) : w.Reports w := ⟨rfl, w.hub.growsTo_refl, fun _ h => h⟩

theorem Reports.trans (h : w.Reports w') (h' : w'.Reports w'') : w.Reports w'' where
  only := by rw [h'.only, h.only]
  errors := h.errors.trans h'.errors
  silent text hs := h'.silent text (h.silent text hs)

theorem Reports.output (h : w.Reports w') : w'.output = w.output := by
  rw [h.only]

/-- The world with a text printed to the standard output. -/
def print (w : World) (text : String) : World :=
  { w with output := { w.output with text := w.output.text ++ text } }

theorem print_empty (w : World) : w.print "" = w := by
  rw [print, String.append_empty]

theorem print_print (w : World) (text text' : String) :
    (w.print text).print text' = w.print (text ++ text') := by
  simp only [print, String.append_assoc]

theorem output_print_congr (h : w.output = w'.output) (text : String) :
    (w.print text).output = (w'.print text).output := by
  rw [print, print, h]

end World

namespace Action

variable {α β : Type} {a b : Action Unit}

/-! ## Reporting -/

/-- The action succeeds, and it only reports. -/
def OnlyReports (a : Action Unit) : Prop := ∀ w, ∃ w', w.Reports w' ∧ a.run w = (.ok (), w')

theorem OnlyReports.run_bind (h : OnlyReports a) (g : Unit → Action β) (w : World) :
    ∃ w', w.Reports w' ∧ (a >>= g).run w = (g ()).run w' := by
  obtain ⟨w', hreports, hrun⟩ := h w
  exact ⟨w', hreports, run_bind_of_ok hrun⟩

theorem onlyReports_pure : OnlyReports (pure ()) := fun w => ⟨w, w.reports_refl, rfl⟩

theorem onlyReports_log (logger : String) (level : Log.Level) (message : String) :
    OnlyReports (log logger level message) :=
  fun w => ⟨_, ⟨rfl, w.hub.growsTo_log .., fun _ hs => hs.take _⟩, rfl⟩

theorem OnlyReports.bind (ha : OnlyReports a) (hb : OnlyReports b) :
    OnlyReports (a >>= fun _ => b) := by
  intro w
  obtain ⟨w', hreports, hrun⟩ := ha.run_bind (fun _ => b) w
  obtain ⟨w'', hreports', hrun'⟩ := hb w'
  exact ⟨w'', hreports.trans hreports', hrun.trans hrun'⟩

theorem onlyReports_forIn {body : α → Action Unit} (h : ∀ x, OnlyReports (body x)) (l : List α) :
    OnlyReports (forIn l PUnit.unit fun x _ => do
      body x
      pure (.yield PUnit.unit)) := by
  induction l with
  | nil => exact onlyReports_pure
  | cons x l ih =>
      rw [List.forIn_cons, bind_assoc]
      exact (h x).bind ih

/-! ## Printing -/

/-- Prints the pieces one after the other. -/
def writeAll (pieces : List String) : Action Unit :=
  forIn pieces PUnit.unit fun piece _ => do
    write piece
    pure (.yield PUnit.unit)

theorem run_write {w : World} (h : w.output.fault = none) (text : String) :
    (write text).run w = (.ok (), w.print text) := by
  rw [write, run_get_bind, h]
  rfl

theorem run_write_of_fault {w : World} {fault : String} (h : w.output.fault = some fault)
    (text : String) : (write text).run w = (.error (.output fault), w) := by
  rw [write, run_get_bind, h]
  rfl

theorem writeAll_cons (piece : String) (pieces : List String) :
    writeAll (piece :: pieces) = (write piece >>= fun _ => writeAll pieces) := by
  rw [writeAll, List.forIn_cons, bind_assoc]
  rfl

theorem run_writeAll {w : World} (h : w.output.fault = none) (pieces : List String) :
    (writeAll pieces).run w = (.ok (), w.print (String.join pieces)) := by
  induction pieces generalizing w with
  | nil =>
      rw [String.join_nil, World.print_empty]
      rfl
  | cons piece pieces ih =>
      have hprinted : (w.print piece).output.fault = none := h
      rw [writeAll_cons, run_bind_of_ok (run_write h piece), ih hprinted, World.print_print,
        String.join_cons]

/-- If the standard output is out of order, printing fails and leaves the world as it is, unless
    there is nothing to print. -/
theorem run_writeAll_of_fault {w : World} {fault : String} (h : w.output.fault = some fault)
    (pieces : List String) :
    (writeAll pieces).run w = (if pieces = [] then .ok () else .error (.output fault), w) := by
  cases pieces with
  | nil => rfl
  | cons piece pieces =>
      rw [writeAll_cons, run_bind_of_error (run_write_of_fault h piece),
        if_neg (List.cons_ne_nil piece pieces)]

end Action

end DirGlob
