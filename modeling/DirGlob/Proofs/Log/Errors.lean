import DirGlob.Proofs.Log.Hub

set_option autoImplicit false

/-! # The error stream

What has been written to the error stream stays there. The hub writes to it directly, when a record
comes to a hub without handlers or to the emergency console, and when a log file cannot be opened;
whatever it does, it only writes behind what is there (`growsTo_take`, `growsTo_configure`). -/

namespace DirGlob.Log.Hub

variable {h h' h'' : Hub}

/-- What stands on the error stream of the second hub begins with what stands on that of the first
    one. -/
def GrowsTo (h h' : Hub) : Prop := ∃ more, h'.errors = h.errors ++ more

theorem growsTo_of_eq (heq : h'.errors = h.errors) : h.GrowsTo h' :=
  ⟨"", by rw [heq, String.append_empty]⟩

theorem growsTo_refl (h : Hub) : h.GrowsTo h := growsTo_of_eq rfl

theorem GrowsTo.trans (hh : h.GrowsTo h') (hh' : h'.GrowsTo h'') : h.GrowsTo h'' := by
  obtain ⟨more, hmore⟩ := hh
  obtain ⟨more', hmore'⟩ := hh'
  exact ⟨more ++ more', by rw [hmore', hmore, String.append_assoc]⟩

theorem growsTo_writeError (h : Hub) (text : String) : h.GrowsTo (h.writeError text) :=
  ⟨text, rfl⟩

/-! ## Records -/

theorem growsTo_handle (h : Hub) (r : Record) (handler : Handler) :
    h.GrowsTo (h.handle r handler) := by
  rw [handle]
  split
  · exact growsTo_of_eq rfl
  · exact growsTo_writeError h _
  · exact growsTo_refl h

theorem growsTo_foldl {α : Type} {step : Hub → α → Hub} (hstep : ∀ h x, GrowsTo h (step h x))
    (h : Hub) (l : List α) : h.GrowsTo (l.foldl step h) := by
  induction l generalizing h with
  | nil => exact growsTo_refl h
  | cons x l ih => exact (hstep h x).trans (ih (step h x))

theorem growsTo_take (h : Hub) (r : Record) : h.GrowsTo (h.take r) := by
  rw [take]
  split
  · exact growsTo_refl h
  · split
    · split
      · exact growsTo_refl h
      · exact growsTo_writeError h _
    · exact growsTo_foldl (fun h x => h.growsTo_handle r x) h _

theorem growsTo_log (h : Hub) (logger : String) (level : Int) (message : String) :
    h.GrowsTo (h.log logger level message) :=
  h.growsTo_take _

/-! ## Setting up -/

theorem errors_shutdown (h : Hub) : h.shutdown.errors = h.errors := by
  rw [shutdown_eq_cleared, cleared]

theorem growsTo_attach (h : Hub) (sinks : List Sink) (broken : Option Breakdown) :
    h.GrowsTo (h.attach sinks broken).1 := by
  refine growsTo_of_eq ?_
  rw [attach]
  split
  · rfl
  · split <;> rfl

theorem growsTo_openSinks (h : Hub) (cfg : Config) (level : Int) (console : List Sink)
    (broken : Option Breakdown) : h.GrowsTo (h.openSinks cfg level console broken).1 := by
  rw [openSinks]
  split
  · generalize openLogFile h.outlets.disk cfg level broken = opened
    obtain ⟨disk, opened⟩ := opened
    have hdisk : h.GrowsTo { h with outlets := { h.outlets with disk } } := growsTo_of_eq rfl
    cases opened with
    | sink s => exact hdisk.trans (growsTo_attach _ _ broken)
    | refused e =>
        exact hdisk.trans ((growsTo_writeError _ _).trans (growsTo_attach _ _ broken))
    | failed f => exact hdisk
  · exact growsTo_attach h _ broken

theorem growsTo_install (h : Hub) (cfg : Config) (broken : Option Breakdown) :
    h.GrowsTo (h.install cfg broken).1 := by
  rw [install]
  split
  · exact growsTo_refl h
  · split
    · exact growsTo_refl h
    · next l _ =>
      have hshutdown : h.GrowsTo { h with level := l.number }.shutdown :=
        growsTo_of_eq (errors_shutdown _)
      simp only
      split
      · split
        · exact hshutdown
        · exact hshutdown.trans (growsTo_openSinks ..)
      · exact hshutdown.trans (growsTo_openSinks ..)

theorem growsTo_fallBack (h : Hub) (fault : SetupFault) : h.GrowsTo (h.fallBack fault) := by
  have hshutdown : h.GrowsTo ({ h.shutdown with level := Level.number .info }.addOurs .emergency) :=
    growsTo_of_eq h.errors_shutdown
  exact hshutdown.trans (growsTo_log ..)

/-- Setting the log up does not take anything from the error stream, however it ends. -/
theorem growsTo_configure (h : Hub) (cfg : Config) (force : Bool) (broken : Option Breakdown) :
    h.GrowsTo (h.configure cfg force broken) := by
  have hinstall := h.growsTo_install cfg broken
  rw [configure]
  split
  · exact growsTo_refl h
  · split
    · next heq => rwa [heq] at hinstall
    · next heq =>
      rw [heq] at hinstall
      exact hinstall.trans (growsTo_fallBack _ _)

end DirGlob.Log.Hub
