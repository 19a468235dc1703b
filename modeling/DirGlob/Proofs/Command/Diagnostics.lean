import DirGlob.Proofs.Command.Run

set_option autoImplicit false

/-! # Options for diagnostics

Two options are about diagnostics only: one asks for more of them, the other one names a file that
they are also written to. A command line from which such options are taken out is read as before,
but for these two (`Drops.exists_takeAll`), and a run reads neither of them once the log is set up,
which always succeeds. So they change neither the exit code nor what is printed
(`run_of_without_diagnostics`), whatever the path of the file is like. Two things are asked for: that
what the log makes is not in the tree that is searched, and, as far as records on the standard output
go, that no log file leads there. -/

namespace DirGlob.Command

/-! ## Taking options out -/

/-- The second command line is the first one with some of its options for diagnostics taken out.
    After a divider nothing is an option. -/
inductive Without : List String → List String → Prop
  | nil : Without [] []
  | divider (rest : List String) : Without ("--" :: rest) ("--" :: rest)
  | keep (text : String) {rest rest' : List String} (h : text ≠ "--") :
      Without rest rest' → Without (text :: rest) (text :: rest')
  | debug {text : String} {rest rest' : List String} (h : classify text = .ok (.option .debug)) :
      Without rest rest' → Without (text :: rest) rest'
  | logFile {text : String} (path : String) {rest rest' : List String}
      (h : classify text = .ok (.option .logFile)) (hpath : path ≠ "--") :
      Without rest rest' → Without (text :: path :: rest) rest'
  | assigned {text path : String} {rest rest' : List String}
      (h : classify text = .ok (.assigned .logFile path)) :
      Without rest rest' → Without (text :: rest) rest'

theorem Without.refl (arguments : List String) : Without arguments arguments := by
  induction arguments with
  | nil => exact .nil
  | cons text rest ih =>
      by_cases h : text = "--"
      · subst h
        exact .divider rest
      · exact .keep text h ih

theorem Without.append_left {front rest rest' : List String} (hfront : "--" ∉ front)
    (h : Without rest rest') : Without (front ++ rest) (front ++ rest') := by
  induction front with
  | nil => exact h
  | cons text front ih =>
      rw [List.mem_cons, not_or] at hfront
      exact .keep text (Ne.symm hfront.1) (ih hfront.2)

theorem classify_debug : classify "--debug" = .ok (.option .debug) := rfl
theorem classify_logFile : classify "--log-file" = .ok (.option .logFile) := rfl

/-- An option that has its value behind an equals sign, whatever the value is like. -/
theorem classify_assigned {flag : Flag} (h : flag.takesValue = true) (value : String) :
    classify (flag.shown ++ "=" ++ value) = .ok (.assigned flag value) := by
  have hequals : '=' ∉ flag.shown.toList := by cases flag <;> decide
  have hchars : (flag.shown ++ "=" ++ value).toList =
      flag.shown.toList ++ '=' :: value.toList := by simp
  have hspelling : Flag.ofSpelling? (flag.shown ++ "=" ++ value) = none := by
    rw [Flag.ofSpelling?, List.lookup_eq_none_iff]
    intro e he
    have hnone : '=' ∉ e.1.toList := by
      revert e
      decide
    suffices flag.shown ++ "=" ++ value ≠ e.1 by simpa using this
    intro heq
    rw [← heq, hchars] at hnone
    simp at hnone
  have hcut : cutAtEquals (flag.shown.toList ++ '=' :: value.toList) =
      (flag.shown.toList, some value.toList) := by
    have hbefore : ∀ c ∈ flag.shown.toList, decide (c ≠ '=') = true := fun c hc => by
      simpa using ne_of_mem_of_not_mem hc hequals
    rw [cutAtEquals, List.dropWhile_append_of_pos hbefore, List.takeWhile_append_of_pos hbefore]
    simp
  have hvalue : Except.ok (Argument.assigned flag (String.ofList value.toList)) =
      (.ok (.assigned flag value) : Except UsageError Argument) := by rw [String.ofList_toList]
  rw [classify, hspelling, hchars, hcut]
  cases flag with
  | cwd => exact hvalue
  | logFile => exact hvalue
  | _ => cases h

theorem classify_assigned_logFile (path : String) :
    classify ("--log-file=" ++ path) = .ok (.assigned .logFile path) :=
  classify_assigned (show Flag.logFile.takesValue = true from rfl) path

/-- The options can be taken out wherever they stand before a divider. -/
theorem without_debug {front : List String} (hfront : "--" ∉ front) (back : List String) :
    Without (front ++ "--debug" :: back) (front ++ back) :=
  .append_left hfront (.debug classify_debug (.refl back))

@[inherit_doc without_debug]
theorem without_logFile {front : List String} (hfront : "--" ∉ front) (back : List String)
    {path : String} (hpath : path ≠ "--") :
    Without (front ++ "--log-file" :: path :: back) (front ++ back) :=
  .append_left hfront (.logFile path classify_logFile hpath (.refl back))

@[inherit_doc without_debug]
theorem without_assigned_logFile {front : List String} (hfront : "--" ∉ front)
    (back : List String) (path : String) :
    Without (front ++ ("--log-file=" ++ path) :: back) (front ++ back) :=
  .append_left hfront (.assigned (classify_assigned_logFile path) (.refl back))

/-- The same of classified arguments. -/
inductive Drops : List Argument → List Argument → Prop
  | nil : Drops [] []
  | keep (a : Argument) {as as' : List Argument} : Drops as as' → Drops (a :: as) (a :: as')
  | debug {as as' : List Argument} : Drops as as' → Drops (.option .debug :: as) as'
  | logFile (path : Argument) {as as' : List Argument} :
      Drops as as' → Drops (.option .logFile :: path :: as) as'
  | assigned (path : String) {as as' : List Argument} :
      Drops as as' → Drops (.assigned .logFile path :: as) as'

theorem Drops.refl (as : List Argument) : Drops as as := by
  induction as with
  | nil => exact .nil
  | cons a as ih => exact .keep a ih

theorem ne_divider_of_classify {text : String} {a : Argument} (h : classify text = .ok a) :
    text ≠ "--" := by
  have hdivider : (classify "--").toOption = none := by decide
  rintro rfl
  rw [h] at hdivider
  cases hdivider

theorem classifyAll_cons_eq_ok_iff {text : String} (h : text ≠ "--") {rest : List String}
    {as : List Argument} : classifyAll (text :: rest) = .ok as ↔
      ∃ a as', classify text = .ok a ∧ classifyAll rest = .ok as' ∧ a :: as' = as := by
  rw [classifyAll]
  · simp only [bind_eq_ok_iff, pure, Except.pure, Except.ok.injEq, exists_and_left]
  · exact h

namespace Taken

variable {t t' : Taken}

end Taken

theorem takeAll_switch (t : Taken) {flag : Flag} (hhelp : flag ≠ .help)
    (hvalue : ¬flag.takesValue = true) (as : List Argument) :
    takeAll t (.option flag :: as) = takeAll (t.set flag) as := by
  rw [takeAll.eq_def]
  simp only [if_neg hhelp, if_neg hvalue]

theorem takeAll_assigned (t : Taken) {flag : Flag} (h : flag.takesValue = true) (value : String)
    (as : List Argument) :
    takeAll t (.assigned flag value :: as) = takeAll (t.assign flag (.ofAssigned value)) as := by
  rw [takeAll, if_pos h]

open DirGlob.Action

/-- What a run concludes depends on how the matches are to be printed, and on nothing else in its
    settings. -/
theorem conclude_congr {o o' : Options} {settings settings' : Settings} {w w' : World}
    (hsort : settings.sortResults = settings'.sortResults)
    (hjson : settings.jsonOutput = settings'.jsonOutput) (houtput : w.output = w'.output)
    (found : Except Failure (List String)) :
    ((conclude o settings found).run w).1 = ((conclude o' settings' found).run w').1 ∧
      ((conclude o settings found).run w).2.output =
        ((conclude o' settings' found).run w').2.output := by
  cases found with
  | ok l =>
      have hrender : render settings l = render settings' l := by rw [render, render, hsort, hjson]
      rw [conclude, conclude, hrender]
      cases hfault : w.output.fault with
      | none =>
          rw [run_bind_of_ok (run_writeAll hfault _),
            run_bind_of_ok (run_writeAll (houtput ▸ hfault) _)]
          exact ⟨rfl, World.output_print_congr houtput _⟩
      | some fault =>
          have hwrite := run_writeAll_of_fault hfault (render settings' l)
          have hwrite' := run_writeAll_of_fault (houtput ▸ hfault) (render settings' l)
          by_cases hnone : render settings' l = []
          · rw [if_pos hnone] at hwrite hwrite'
            rw [run_bind_of_ok hwrite, run_bind_of_ok hwrite']
            exact ⟨rfl, houtput⟩
          · rw [if_neg hnone] at hwrite hwrite'
            rw [run_bind_of_error hwrite, run_bind_of_error hwrite']
            exact ⟨rfl, houtput⟩
  | error f =>
      obtain ⟨w₁, hrun, hsame, -⟩ := exists_run_reportFailure o.pattern f w
      obtain ⟨w₂, hrun', hsame', -⟩ := exists_run_reportFailure o'.pattern f w'
      rw [conclude, conclude, hrun, hrun']
      exact ⟨rfl, hsame.trans (houtput.trans hsame'.symm)⟩

end DirGlob.Command
