import DirGlob.Proofs.World.Result

set_option autoImplicit false

/-! # The two modes of a check

A strict check and a lenient one go through the same parts, and each part looks at the mode by
itself. What the modes have in common is said part by part (`Check.ComesTo`): there is one result
that both come to, and one condition under which neither of them has anything to say. Where the
condition fails, a lenient check warns and goes on with the result, and a strict one ends with a
complaint. The condition is in two pieces, because the level is looked up last: values are of the
kinds that they should be of, and the level is known. The complaint of a strict check is about the
level exactly if the first piece holds.

So a check succeeds strictly exactly if it is silent leniently, and the failure of a strict check
tells what is wrong (`Action.checkSettings_strict_iff`). -/

namespace DirGlob

theorem Log.Level.ofName?_eq_none_iff {name : String} :
    ofName? name = none ↔ ∀ l : Level, l.name ≠ name := by
  have hall (l : Level) : l ∈ all := by cases l <;> decide
  simp [ofName?, hall]

namespace Settings

/-! ## What is acceptable -/

/-- A text, or nothing. -/
def FitsText (v : Value) : Prop := v.kind = "str" ∨ v.kind = "NoneType"

/-- A switch, or nothing. -/
def FitsSwitch (v : Value) : Prop := v.kind = "bool" ∨ v.kind = "NoneType"

/-- Whatever is given for a field is of the kind that it should be of. -/
structure Fits (given : List (String × Value)) : Prop where
  text : ∀ key ∈ ["cwd", "log_level", "log_file"], ∀ v, Value.get? given key = some v → FitsText v
  switch : ∀ key ∈ ["sort_results", "json_output"], ∀ v, Value.get? given key = some v →
    FitsSwitch v

/-- The level is given by a text that is not blank and names no level, whatever its case. -/
def LevelUnknown (given : List (String × Value)) : Prop :=
  ∃ s, Value.get? given "log_level" = some (.text s) ∧ Text.trim s ≠ "" ∧
    ∀ l : Log.Level, l.name ≠ Text.upper (Text.trim s)

/-- A dictionary with which nothing is wrong. -/
def Acceptable (v : Value) : Prop := ∃ given, v = .dict given ∧ Fits given ∧ ¬LevelUnknown given

/-! ## What a check comes to -/

/-- The value that a check looks at: the given one, or the default. -/
def fieldOf (ambient : String) (given : List (String × Value)) (key : String) : Value :=
  (Value.get? given key).getD ((Value.get? (defaults ambient).toEntries key).getD .null)

/-- The text that a value stands for. -/
def textOr (fallback : String) : Value → String
  | .text s => if Text.trim s = "" then fallback else Text.trim s
  | _ => fallback

/-- The switch that a value stands for. -/
def switchOr (field : String) (fallback : Bool) : Value → Bool
  | .bool b => b
  | v => ((Check.readSwitch field v).map (·.1)).getD fallback

/-- The level that a text stands for. -/
def levelOf (spelling : String) : Log.Level :=
  (Log.Level.ofName? (Text.upper spelling)).getD .info

/-- The settings that entries come to, in either mode. -/
def ofEntries (ambient : String) (given : List (String × Value)) : Settings where
  cwd := WorkDir.resolveFrom ambient (textOr ambient (fieldOf ambient given "cwd")) []
  sortResults := switchOr "sort_results" false (fieldOf ambient given "sort_results")
  jsonOutput := switchOr "json_output" false (fieldOf ambient given "json_output")
  logLevel := levelOf (textOr Log.Level.info.name (fieldOf ambient given "log_level"))
  logFile := textOr "" (fieldOf ambient given "log_file")
  extra := given.filter fun e => !keys.contains e.1

/-- The settings that a value comes to, in either mode. -/
def ofValue (ambient : String) : Value → Settings
  | .dict given => ofEntries ambient given
  | _ => defaults ambient

/-! ## The conditions, by what a check looks at -/

/-- What holds of the default holds of the field if it holds of what is given. -/
theorem fieldOf_iff {P : Value → Prop} {ambient key : String} {given : List (String × Value)}
    (h : P ((Value.get? (defaults ambient).toEntries key).getD .null)) :
    P (fieldOf ambient given key) ↔ ∀ v, Value.get? given key = some v → P v := by
  rw [fieldOf]
  cases Value.get? given key <;> simp [h]

theorem fits_iff (ambient : String) (given : List (String × Value)) :
    Fits given ↔
      FitsText (fieldOf ambient given "cwd") ∧ FitsText (fieldOf ambient given "log_level") ∧
        FitsText (fieldOf ambient given "log_file") ∧
        FitsSwitch (fieldOf ambient given "sort_results") ∧
        FitsSwitch (fieldOf ambient given "json_output") := by
  have htext {key : String} (hkey : key ∈ ["cwd", "log_level", "log_file"]) :
      FitsText (fieldOf ambient given key) ↔ ∀ v, Value.get? given key = some v → FitsText v :=
    fieldOf_iff <| by
      simp only [List.mem_cons, List.not_mem_nil, or_false] at hkey
      rcases hkey with rfl | rfl | rfl <;> exact .inl rfl
  have hswitch {key : String} (hkey : key ∈ ["sort_results", "json_output"]) :
      FitsSwitch (fieldOf ambient given key) ↔ ∀ v, Value.get? given key = some v → FitsSwitch v :=
    fieldOf_iff <| by
      simp only [List.mem_cons, List.not_mem_nil, or_false] at hkey
      rcases hkey with rfl | rfl <;> exact .inl rfl
  rw [htext (by simp), htext (by simp), htext (by simp), hswitch (by simp), hswitch (by simp)]
  constructor
  · intro h
    exact ⟨h.text _ (by simp), h.text _ (by simp), h.text _ (by simp), h.switch _ (by simp),
      h.switch _ (by simp)⟩
  · rintro ⟨hcwd, hlevel, hfile, hsort, hjson⟩
    exact ⟨by simpa using ⟨hcwd, hlevel, hfile⟩, by simpa using ⟨hsort, hjson⟩⟩

theorem levelUnknown_iff (ambient : String) (given : List (String × Value)) :
    LevelUnknown given ↔ Log.Level.ofName? (Text.upper
      (textOr Log.Level.info.name (fieldOf ambient given "log_level"))) = none := by
  have hinfo : Log.Level.ofName? (Text.upper Log.Level.info.name) ≠ none := by decide
  rw [LevelUnknown, fieldOf]
  cases Value.get? given "log_level" with
  | none =>
      have hdefault : Log.Level.ofName? (Text.upper
          (textOr Log.Level.info.name (.text Log.Level.info.name))) ≠ none := by decide
      exact iff_of_false (by simp) hdefault
  | some v =>
      cases v with
      | text s =>
          by_cases hblank : Text.trim s = ""
          · simp [textOr, hblank, hinfo]
          · simp [textOr, hblank, Log.Level.ofName?_eq_none_iff]
      | _ => simp [textOr, hinfo]

/-! ## Parts of a check -/

namespace Check

variable {α β : Type} {x : α} {y : β} {kinds kinds' known known' : Prop}

/-- A part of a check comes to `x`. Where both conditions hold, that is all; where one fails, a
    lenient check warns besides, and a strict one ends with a complaint that tells which it is. -/
structure ComesTo (part : Mode → Check α) (x : α) (kinds known : Prop) : Prop where
  silent : kinds → known → ∀ mode ws, (part mode).run ws = .ok (x, ws)
  lenient : ¬(kinds ∧ known) → ∀ ws, ∃ added, added ≠ [] ∧
    (part .lenient).run ws = .ok (x, ws ++ added)
  strict : ¬(kinds ∧ known) → ∃ c, ((∃ s, c = .unknownLevel s) ↔ kinds) ∧
    ∀ ws, (part .strict).run ws = .error c

theorem ComesTo.congr {part : Mode → Check α} (h : ComesTo part x kinds known)
    (hkinds : kinds ↔ kinds') (hknown : known ↔ known') : ComesTo part x kinds' known' := by
  rwa [← propext hkinds, ← propext hknown]

theorem comesTo_pure (x : α) : ComesTo (fun _ => pure x) x True True where
  silent _ _ _ _ := rfl
  lenient h := absurd ⟨trivial, trivial⟩ h
  strict h := absurd ⟨trivial, trivial⟩ h

/-- A complaint ends a strict check and is a warning in a lenient one. -/
theorem comesTo_complain {c : Complaint} (hc : (∃ s, c = .unknownLevel s) ↔ kinds)
    (hnot : ¬(kinds ∧ known)) (x : α) : ComesTo (complain · c x) x kinds known where
  silent hkinds hknown := absurd ⟨hkinds, hknown⟩ hnot
  lenient _ ws := ⟨[.complaint c], by simp, rfl⟩
  strict _ := ⟨c, hc, fun _ => rfl⟩

/-- Parts that follow each other are one part, if only the last one looks at the level. -/
theorem ComesTo.bind {part : Mode → Check α} {rest : Mode → α → Check β}
    (h : ComesTo part x kinds True) (hrest : ComesTo (rest · x) y kinds' known) :
    ComesTo (fun mode => part mode >>= rest mode) y (kinds ∧ kinds') known where
  silent := by
    rintro ⟨hkinds, hkinds'⟩ hknown mode ws
    rw [StateT.run_bind, h.silent hkinds trivial]
    exact hrest.silent hkinds' hknown mode ws
  lenient := by
    intro hnot ws
    by_cases hkinds : kinds
    · obtain ⟨added, hadded, hrun⟩ := hrest.lenient (fun hall => hnot ⟨⟨hkinds, hall.1⟩, hall.2⟩) ws
      refine ⟨added, hadded, ?_⟩
      rw [StateT.run_bind, h.silent hkinds trivial]
      exact hrun
    · obtain ⟨added, hadded, hrun⟩ := h.lenient (fun hall => hkinds hall.1) ws
      by_cases hall : kinds' ∧ known
      · refine ⟨added, hadded, ?_⟩
        rw [StateT.run_bind, hrun]
        exact hrest.silent hall.1 hall.2 .lenient _
      · obtain ⟨added', -, hrun'⟩ := hrest.lenient hall (ws ++ added)
        refine ⟨added ++ added', by simp [hadded], ?_⟩
        rw [StateT.run_bind, hrun, ← List.append_assoc]
        exact hrun'
  strict := by
    intro hnot
    by_cases hkinds : kinds
    · obtain ⟨c, hc, hrun⟩ := hrest.strict fun hall => hnot ⟨⟨hkinds, hall.1⟩, hall.2⟩
      refine ⟨c, hc.trans (and_iff_right hkinds).symm, fun ws => ?_⟩
      rw [StateT.run_bind, h.silent hkinds trivial]
      exact hrun ws
    · obtain ⟨c, hc, hrun⟩ := h.strict fun hall => hkinds hall.1
      refine ⟨c, iff_of_false (mt hc.1 hkinds) fun hall => hkinds hall.1, fun ws => ?_⟩
      rw [StateT.run_bind, hrun]
      rfl

theorem ComesTo.map {part : Mode → Check α} (h : ComesTo part x kinds known) (f : α → β) :
    ComesTo (fun mode => part mode >>= fun a => pure (f a)) (f x) kinds known where
  silent hkinds hknown mode ws := by
    rw [StateT.run_bind, h.silent hkinds hknown]
    rfl
  lenient hnot ws := by
    obtain ⟨added, hadded, hrun⟩ := h.lenient hnot ws
    refine ⟨added, hadded, ?_⟩
    rw [StateT.run_bind, hrun]
    rfl
  strict hnot := by
    obtain ⟨c, hc, hrun⟩ := h.strict hnot
    refine ⟨c, hc, fun ws => ?_⟩
    rw [StateT.run_bind, hrun]
    rfl

theorem comesTo_text (field fallback : String) (v : Value) :
    ComesTo (text · field fallback v) (textOr fallback v) (FitsText v) True := by
  cases v with
  | null => exact (comesTo_pure fallback).congr (by simp [FitsText, Value.kind]) .rfl
  | text s => exact (comesTo_pure _).congr (by simp [FitsText, Value.kind]) .rfl
  | _ =>
    refine comesTo_complain ?_ ?_ fallback
    all_goals simp [FitsText, Value.kind]

/-- What is no switch may still be read as one, but not without a warning. -/
theorem comesTo_switch_of_otherKind (field : String) (fallback : Bool) {v : Value}
    (hnull : v ≠ .null) (hbool : ∀ b, v ≠ .bool b) :
    ComesTo (switch · field fallback v) (switchOr field fallback v) False True := by
  have hvalue : switchOr field fallback v = ((readSwitch field v).map (·.1)).getD fallback := by
    cases v <;> first | rfl | simp_all
  have hread {on : Bool} {w : Warning} (h : readSwitch field v = some (on, w)) :
      switch .lenient field fallback v = (warn w >>= fun _ => pure on) := by
    cases v <;> simp_all [switch]
  have hlenient (h : readSwitch field v = none) : switch .lenient field fallback v =
      complain .lenient (.fieldKind field "bool" v.kind) fallback := by
    cases v <;> simp_all [switch]
  have hstrict : switch .strict field fallback v =
      complain .strict (.fieldKind field "bool" v.kind) fallback := by
    cases v <;> simp_all [switch]
  refine ⟨False.elim, fun _ ws => ?_, fun _ => ?_⟩
  · rw [hvalue]
    cases hcase : readSwitch field v with
    | none =>
        refine ⟨[.complaint (.fieldKind field "bool" v.kind)], by simp, ?_⟩
        rw [hlenient hcase]
        rfl
    | some r =>
        refine ⟨[r.2], by simp, ?_⟩
        rw [hread hcase]
        rfl
  · refine ⟨.fieldKind field "bool" v.kind, by simp, fun _ => ?_⟩
    rw [hstrict]
    rfl

theorem comesTo_switch (field : String) (fallback : Bool) (v : Value) :
    ComesTo (switch · field fallback v) (switchOr field fallback v) (FitsSwitch v) True := by
  cases v with
  | null => exact (comesTo_pure fallback).congr (by simp [FitsSwitch, Value.kind]) .rfl
  | bool b => exact (comesTo_pure b).congr (by simp [FitsSwitch, Value.kind]) .rfl
  | _ =>
    refine (comesTo_switch_of_otherKind field fallback ?_ ?_).congr ?_ .rfl
    all_goals simp [FitsSwitch, Value.kind]

theorem comesTo_level (spelling : String) :
    ComesTo (level · spelling) (levelOf spelling) True
      ¬Log.Level.ofName? (Text.upper spelling) = none := by
  simp only [level, levelOf]
  cases Log.Level.ofName? (Text.upper spelling) with
  | none => exact comesTo_complain (by simp) (by simp) _
  | some l => exact (comesTo_pure l).congr .rfl (by simp)

/-- The parts of a check of entries, put together. -/
theorem comesTo_entries (ambient : String) (given : List (String × Value)) :
    ComesTo (entries · ambient given) (ofEntries ambient given) (Fits given)
      ¬LevelUnknown given := by
  have hparts : ComesTo (entries · ambient given) (ofEntries ambient given) _ _ :=
    .bind (comesTo_text ..) <| .bind (comesTo_text ..) <| .bind (comesTo_text ..) <|
      .bind (comesTo_switch ..) <| .bind (comesTo_switch ..) <| .map (comesTo_level ..) _
  rw [levelUnknown_iff ambient]
  refine hparts.congr ?_ .rfl
  rw [fits_iff ambient, and_true]
  exact .rfl

theorem comesTo_value (ambient : String) (v : Value) :
    ComesTo (value · ambient v) (ofValue ambient v) (∃ given, v = .dict given ∧ Fits given)
      (∀ given, v = .dict given → ¬LevelUnknown given) := by
  cases v with
  | dict given => exact (comesTo_entries ambient given).congr (by simp) (by simp)
  | _ => exact comesTo_complain (by simp) (by simp) _

end Check

/-! ## The whole check -/

variable {ambient : String} {v : Value}

theorem acceptable_iff : Acceptable v ↔
    (∃ given, v = .dict given ∧ Fits given) ∧ ∀ given, v = .dict given → ¬LevelUnknown given := by
  constructor
  · rintro ⟨given, rfl, hfits, hknown⟩
    exact ⟨⟨given, rfl, hfits⟩, by rintro _ ⟨⟩; exact hknown⟩
  · rintro ⟨⟨given, hgiven, hfits⟩, hknown⟩
    exact ⟨given, hgiven, hfits, hknown given hgiven⟩

/-- With an acceptable value neither mode has anything to say. -/
theorem check_of_acceptable (h : Acceptable v) (mode : Mode) (ambient : String) :
    check mode ambient v = .ok ⟨ofValue ambient v, []⟩ := by
  obtain ⟨hkinds, hknown⟩ := acceptable_iff.1 h
  rw [check, (Check.comesTo_value ambient v).silent hkinds hknown]
  rfl

/-- A lenient check always comes to settings, and it warns of a value that is not acceptable. -/
theorem exists_check_lenient (ambient : String) (v : Value) :
    ∃ ws, check .lenient ambient v = .ok ⟨ofValue ambient v, ws⟩ ∧ (ws = [] ↔ Acceptable v) := by
  by_cases h : Acceptable v
  · exact ⟨[], check_of_acceptable h .lenient ambient, iff_of_true rfl h⟩
  · obtain ⟨ws, hws, hrun⟩ := (Check.comesTo_value ambient v).lenient (mt acceptable_iff.2 h) []
    refine ⟨ws, ?_, iff_of_false hws h⟩
    rw [check, hrun]
    rfl

/-- A strict check complains of a value that is not acceptable: of the level if nothing else is
    wrong with a dictionary, and else of a kind. -/
theorem exists_check_strict (ambient : String) (h : ¬Acceptable v) :
    ∃ c, check .strict ambient v = .error c ∧
      ((∃ s, c = .unknownLevel s) ↔ ∃ given, v = .dict given ∧ Fits given) := by
  obtain ⟨c, hc, hrun⟩ := (Check.comesTo_value ambient v).strict (mt acceptable_iff.2 h)
  refine ⟨c, ?_, hc⟩
  rw [check, hrun]
  rfl

end Settings

/-! ## The operation -/

theorem Failure.name_settings_eq_iff {c : Complaint} :
    (Failure.settings c).name = "ValueError" ↔ ∃ s, c = .unknownLevel s := by
  cases c <;> simp [Failure.name]

theorem Failure.name_settings (c : Complaint) :
    (Failure.settings c).name = "ValueError" ∨ (Failure.settings c).name = "TypeError" := by
  cases c <;> simp [Failure.name]

namespace Action

open Settings

/-- **A strict check is a lenient one that has nothing to warn of.** It succeeds exactly if the
    lenient one does so without a warning, and both give the same then. It fails for the value of
    the level exactly if nothing else is wrong with a dictionary, and for a kind otherwise. -/
theorem checkSettings_strict_iff (v : Value) (w : World) :
    let strict := ((checkSettings .strict v).run w).1
    let lenient := ((checkSettings .lenient v).run w).1
    ((∃ checked, strict = .ok checked) ↔
        ∃ checked, lenient = .ok checked ∧ checked.warnings = []) ∧
      (∀ checked, strict = .ok checked → lenient = .ok checked ∧ checked.warnings = []) ∧
      ((∃ f, strict = .error f ∧ f.name = "ValueError") ↔
        ∃ given, v = .dict given ∧ Fits given ∧ LevelUnknown given) ∧
      ∀ f, strict = .error f → f.name = "ValueError" ∨ f.name = "TypeError" := by
  intro strict lenient
  obtain ⟨ws, hcheck, hws⟩ := exists_check_lenient w.cwd v
  have hlenient : lenient = .ok ⟨ofValue w.cwd v, ws⟩ := by
    rw [show lenient = _ from result_checkSettings .lenient v w, hcheck]
    rfl
  rw [hlenient]
  by_cases h : Acceptable v
  · have hstrict : strict = .ok ⟨ofValue w.cwd v, []⟩ := by
      rw [show strict = _ from result_checkSettings .strict v w, check_of_acceptable h]
      rfl
    rw [hstrict, hws.2 h]
    obtain ⟨given, rfl, -, hknown⟩ := h
    refine ⟨?_, ?_, iff_of_false (by simp) (by simp [hknown]), nofun⟩
    · simp
    · rintro checked ⟨⟩
      exact ⟨rfl, rfl⟩
  · obtain ⟨c, hcheck, hc⟩ := exists_check_strict w.cwd h
    have hstrict : strict = .error (.settings c) := by
      rw [show strict = _ from result_checkSettings .strict v w, hcheck]
      rfl
    rw [hstrict]
    refine ⟨iff_of_false (by simp) ?_, nofun, ?_, ?_⟩
    · rintro ⟨checked, ⟨⟩, hnone⟩
      exact h (hws.1 hnone)
    · calc (∃ f, (.error (.settings c) : Except Failure Checked) = .error f ∧ f.name = "ValueError")
        _ ↔ ∃ s, c = .unknownLevel s := by simp [← Failure.name_settings_eq_iff]
        _ ↔ ∃ given, v = .dict given ∧ Fits given := hc
        _ ↔ ∃ given, v = .dict given ∧ Fits given ∧ LevelUnknown given := by
          refine exists_congr fun given => and_congr_right fun hgiven => ?_
          refine (and_iff_left_of_imp fun hfits => ?_).symm
          exact Classical.not_not.1 fun hknown => h ⟨given, hgiven, hfits, hknown⟩
    · rintro f ⟨⟩
      exact Failure.name_settings c

end Action

end DirGlob
