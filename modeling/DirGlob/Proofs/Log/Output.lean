import DirGlob.Proofs.Log.Hub

set_option autoImplicit false

/-! # The log and the standard output

A log file can be the standard output of the program, and then records stand among what the program
prints. A log is *silent* as long as none of its sinks is the standard output. Records keep it so
(`Hub.Silent.take`), and so does a set-up whose log file leads elsewhere, however it ends
(`Hub.Silent.configure`). -/

namespace DirGlob.Log

/-- Whether what is written to the sink stands on the standard output. -/
def Sink.isOutput : Sink → Bool
  | .console _ => false
  | .file _ _ _ _ _ isOutput => isOutput

/-- The path leads to the standard output, if a log file is given by it. -/
def Disk.IsOutput (d : Disk) (path : String) : Prop := d.device? (d.absolute path) = some .output

instance (d : Disk) (path : String) : Decidable (d.IsOutput path) :=
  inferInstanceAs (Decidable (_ = _))

theorem Sink.output_write {s : Sink} (h : s.isOutput = false) (r : Record) (o : Outlets) :
    (s.write o r).output = o.output := by
  unfold write
  split
  · rfl
  · cases s with
    | console level => rfl
    | file level path shownPath maxBytes backups isOutput =>
        obtain rfl : isOutput = false := h
        rfl

theorem Listener.output_drain {l : Listener} (h : ∀ s ∈ l.sinks, s.isOutput = false)
    (o : Outlets) : (l.drain o).output = o.output := by
  have hwrite (r : Record) (o : Outlets) :
      (l.sinks.foldl (fun o s => s.write o r) o).output = o.output :=
    List.foldlRecOn (motive := fun o' => o'.output = o.output) _ _ rfl
      fun o' ho' s hs => (Sink.output_write (h s hs) r o').trans ho'
  exact List.foldlRecOn (motive := fun o' => o'.output = o.output) _ _ rfl
    fun o' ho' r _ => (hwrite r o').trans ho'

namespace Hub

/-- No log file that is open is the standard output. -/
def IsSilent (h : Hub) : Prop := ∀ l, h.listener = some l → ∀ s ∈ l.sinks, s.isOutput = false

/-- What log files have put on the standard output once the log is stopped. -/
def logged (h : Hub) : String := h.shutdown.outlets.output

variable {h : Hub}

theorem isSilent_of_listener_none (hnone : h.listener = none) : h.IsSilent := by
  intro l hl
  rw [hnone] at hl
  cases hl

theorem IsSilent.logged_eq (hs : h.IsSilent) : h.logged = h.outlets.output := by
  rw [logged, shutdown, stopListener]
  split
  · rfl
  · next l hl =>
    show (l.stop h.outlets).2.output = _
    rw [Listener.stop]
    split
    · exact Listener.output_drain (hs l hl) h.outlets
    · rfl

/-- The log is silent, and so far its files have put this text on the standard output. -/
structure Silent (h : Hub) (text : String) : Prop where
  silent : h.IsSilent
  output : h.outlets.output = text

theorem IsSilent.toSilent (hs : h.IsSilent) : h.Silent h.logged := ⟨hs, hs.logged_eq.symm⟩

variable {text : String}

theorem Silent.logged_eq (hs : h.Silent text) : h.logged = text :=
  hs.silent.logged_eq.trans hs.output

theorem Silent.writeError (hs : h.Silent text) (more : String) : (h.writeError more).Silent text :=
  ⟨hs.silent, hs.output⟩

theorem Silent.take (hs : h.Silent text) (r : Record) : (h.take r).Silent text := by
  obtain ⟨errors, htake⟩ := h.take_eq r
  rw [htake]
  refine ⟨fun l hl => ?_, hs.output⟩
  split at hl
  · exact hs.silent l hl
  · obtain ⟨l', hl', rfl⟩ := Option.map_eq_some_iff.1 hl
    exact hs.silent l' hl'

/-- Setting the log up keeps it silent if the log file that is asked for is not the standard
    output. -/
theorem Silent.configure (hs : h.Silent text) {cfg : Config}
    (hfile : ∀ name, logFileName cfg.logFile = .ok name → ¬h.shutdown.outlets.disk.IsOutput name)
    (force : Bool) (broken : Option Breakdown) : (h.configure cfg force broken).Silent text := by
  rcases configure_cases h cfg force broken with ⟨-, -, hsame⟩ | ⟨-, hends⟩
  · rwa [hsame]
  · have houtput : h.shutdown.outlets.output = text := hs.logged_eq
    generalize h.configure cfg force broken = h' at hends
    cases hends with
    | idle => exact ⟨isSilent_of_listener_none rfl, houtput⟩
    | emergency => exact ⟨isSilent_of_listener_none rfl, houtput⟩
    | listening =>
        refine ⟨fun l hl s hsink => ?_, houtput⟩
        cases hl
        rcases List.mem_append.1 hsink with hconsole | hopened
        · split at hconsole
          · rw [List.mem_singleton.1 hconsole]
            rfl
          · cases hconsole
        · obtain ⟨name, shownPath, maxBytes, backups, hname, rfl⟩ :=
            Config.fileSink?_eq_some (Option.mem_toList.1 hopened)
          exact decide_eq_false (hfile name hname)

end Hub

end DirGlob.Log
