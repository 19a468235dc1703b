import DirGlob.Proofs.Settings.Modes
import DirGlob.Proofs.WorkDir.Resolve
import Mathlib.Data.List.Basic

set_option autoImplicit false

/-! # Checked settings are in normal form

What a check comes to is in normal form (`isNormal_ofValue`): an absolute working directory, a
trimmed path of the log file, and entries besides the known ones only under other keys. Settings in
normal form are acceptable to a check of either mode, and it leaves them as they are
(`IsNormal.ofValue_toValue`). So checking a second time adds nothing
(`Action.checkSettings_normalizes`).

The working directory is the exception: like any text it is trimmed, also where it was not given but
taken from the present one. So it may change in a directory whose path ends in a blank. -/

namespace DirGlob

/-! ## Dictionaries -/

namespace Value

theorem get?_append_of_forall_ne {entries entries' : List (String × Value)} {key : String}
    (h : ∀ e ∈ entries, e.1 ≠ key) : get? (entries ++ entries') key = get? entries' key := by
  have hnone : entries.find? (·.1 = key) = none := by simpa using h
  rw [get?, List.find?_append, hnone, Option.none_or, get?]

/-- Leaving entries out does not matter to the keys of other ones. -/
theorem get?_filter {p : String → Bool} {key : String} (h : p key = true)
    (entries : List (String × Value)) :
    get? (entries.filter fun e => p e.1) key = get? entries key := by
  rw [get?, get?, List.find?_filter]
  congr 2
  funext e
  by_cases hkey : e.1 = key
  · simp [hkey, h]
  · simp [hkey]

end Value

namespace Settings

variable {s : Settings} {ambient : String} {v : Value}

/-- The entries under keys that mean nothing are those besides the known ones. -/
theorem get?_toEntries_of_not_mem {key : String} (h : key ∉ keys) :
    Value.get? s.toEntries key = Value.get? s.extra key := by
  refine Value.get?_append_of_forall_ne ?_
  simp only [keys, List.mem_cons, List.not_mem_nil, or_false, not_or] at h
  obtain ⟨hcwd, hsort, hjson, hlevel, hfile⟩ := h
  simp [Ne.symm hcwd, Ne.symm hsort, Ne.symm hjson, Ne.symm hlevel, Ne.symm hfile]

theorem get?_extra_ofEntries (ambient : String) (given : List (String × Value)) {key : String}
    (h : key ∉ keys) : Value.get? (ofEntries ambient given).extra key = Value.get? given key :=
  Value.get?_filter (p := fun key => !keys.contains key) (by simpa using h) given

/-! ## Normal form -/

/-- Settings in normal form. -/
structure IsNormal (s : Settings) : Prop where
  cwd : Path.isAbsolute s.cwd = true
  logFile : Text.trim s.logFile = s.logFile
  extra : ∀ e ∈ s.extra, e.1 ∉ keys

/-- A value stands for the fallback, or for a text without the blanks around it. -/
theorem textOr_cases (fallback : String) (v : Value) :
    textOr fallback v = fallback ∨ ∃ t, Text.trim t ≠ "" ∧ textOr fallback v = Text.trim t := by
  cases v with
  | text t =>
      rw [textOr]
      split
      · exact .inl rfl
      · next hne => exact .inr ⟨t, hne, rfl⟩
  | _ => exact .inl rfl

theorem trim_textOr {fallback : String} (h : Text.trim fallback = fallback) (v : Value) :
    Text.trim (textOr fallback v) = textOr fallback v := by
  rcases textOr_cases fallback v with hfallback | ⟨t, -, ht⟩
  · rw [hfallback, h]
  · rw [ht, Text.trim_trim]

theorem textOr_ne_empty {fallback : String} (h : fallback ≠ "") (v : Value) :
    textOr fallback v ≠ "" := by
  rcases textOr_cases fallback v with hfallback | ⟨t, hne, ht⟩
  · rwa [hfallback]
  · rwa [ht]

theorem isNormal_defaults (h : Path.isAbsolute ambient = true) : (defaults ambient).IsNormal :=
  ⟨h, rfl, nofun⟩

theorem isNormal_ofValue (h : Path.isAbsolute ambient = true) (v : Value) :
    (ofValue ambient v).IsNormal := by
  cases v with
  | dict given =>
      refine ⟨WorkDir.isAbsolute_resolveFrom h _ [], trim_textOr (by decide) _, fun e he => ?_⟩
      simpa using (List.mem_filter.1 he).2
  | _ => exact isNormal_defaults h

/-- Nothing is wrong with settings that have been checked. -/
theorem acceptable_toValue (s : Settings) : Acceptable s.toValue := by
  refine ⟨s.toEntries, rfl, (fits_iff s.cwd _).2 ?_, mt (levelUnknown_iff s.cwd _).1 ?_⟩
  · exact ⟨.inl rfl, .inl rfl, .inl rfl, .inl rfl, .inl rfl⟩
  · show ¬Log.Level.ofName? (Text.upper (textOr _ (.text s.logLevel.name))) = none
    cases s.logLevel <;> decide

theorem levelOf_textOr_name (l : Log.Level) :
    levelOf (textOr Log.Level.info.name (.text l.name)) = l := by
  cases l <;> decide

/-- The fields of checked settings are looked at as they are. -/
theorem fieldOf_toEntries (ambient : String) (s : Settings) :
    fieldOf ambient s.toEntries "cwd" = .text s.cwd ∧
      fieldOf ambient s.toEntries "sort_results" = .bool s.sortResults ∧
      fieldOf ambient s.toEntries "json_output" = .bool s.jsonOutput ∧
      fieldOf ambient s.toEntries "log_level" = .text s.logLevel.name ∧
      fieldOf ambient s.toEntries "log_file" = .text s.logFile :=
  ⟨rfl, rfl, rfl, rfl, rfl⟩

theorem IsNormal.filter_toEntries (h : s.IsNormal) :
    s.toEntries.filter (fun e => !keys.contains e.1) = s.extra := by
  have hextra : s.extra.filter (fun e => !keys.contains e.1) = s.extra :=
    List.filter_eq_self.2 fun e he => by simpa using h.extra e he
  rw [toEntries, List.filter_append, hextra]
  rfl

/-- Checking settings in normal form again resolves the working directory again, and that is all. -/
theorem IsNormal.ofValue_toValue (h : s.IsNormal) (ambient : String) :
    ofValue ambient s.toValue =
      { s with cwd := WorkDir.resolveFrom ambient (textOr ambient (.text s.cwd)) [] } := by
  obtain ⟨hcwd, hsort, hjson, hlevel, hfile⟩ := fieldOf_toEntries ambient s
  have hlogFile : textOr "" (.text s.logFile) = s.logFile := by
    rw [textOr, h.logFile]
    split
    · next hempty => exact hempty.symm
    · rfl
  rw [toValue, ofValue, ofEntries, h.filter_toEntries, hcwd, hsort, hjson, hlevel, hfile,
    levelOf_textOr_name, hlogFile]
  rfl

/-! ## The working directory -/

/-- A text stands for itself if it is trimmed. -/
theorem textOr_of_trim {fallback t : String} (h : Text.trim t = t) (hne : t ≠ "") :
    textOr fallback (.text t) = t := by
  rw [textOr, h, if_neg hne]

/-- What is absolute does not begin with a blank. -/
theorem trim_eq_self_of_isAbsolute {p : String} (h : Path.isAbsolute p = true)
    (hlast : ∀ c, p.toList.getLast? = some c → Text.isBlank c = false) : Text.trim p = p := by
  refine Text.trim_eq_self_iff.2 fun c hc => hc.elim (fun hhead => ?_) (hlast c)
  have hslash : p.toList.head? = some '/' := by simpa [Path.isAbsolute] using h
  rw [hslash, Option.some.injEq] at hhead
  rw [← hhead]
  decide

/-- What is resolved is the base, or it ends as the path does. -/
theorem resolveFrom_eq_or_getLast?_eq (h : Path.isAbsolute ambient = true) {p : String}
    (hp : p ≠ "") : WorkDir.resolveFrom ambient p [] = ambient ∨
      (WorkDir.resolveFrom ambient p []).toList.getLast? = p.toList.getLast? := by
  by_cases hdot : p = "."
  · left
    rw [WorkDir.resolveFrom_eq_joinAll h, if_pos hdot]
    rfl
  · right
    rw [WorkDir.resolveFrom_of_ne_dot ambient hdot]
    by_cases habs : Path.isAbsolute p = true
    · rw [Path.join_of_isAbsolute ambient habs]
    · rw [Path.join_of_relative ambient (by simpa using habs), String.toList_append,
        List.getLast?_append_of_ne_nil _ (mt String.toList_eq_nil_iff.1 hp)]

theorem trim_resolveFrom (h : Path.isAbsolute ambient = true)
    (hambient : Text.trim ambient = ambient) {p : String} (hp : p ≠ "") (htrim : Text.trim p = p) :
    Text.trim (WorkDir.resolveFrom ambient p []) = WorkDir.resolveFrom ambient p [] := by
  rcases resolveFrom_eq_or_getLast?_eq h hp with hbase | hlast
  · rw [hbase, hambient]
  · refine trim_eq_self_of_isAbsolute (WorkDir.isAbsolute_resolveFrom h p []) fun c hc => ?_
    exact Text.trim_eq_self_iff.1 htrim c (.inr (hlast ▸ hc))

/-- In a directory whose path does not end in a blank, checking again resolves the working directory
    to itself. -/
theorem resolveFrom_cwd_ofValue (h : Path.isAbsolute ambient = true)
    (hambient : Text.trim ambient = ambient) (v : Value) :
    WorkDir.resolveFrom ambient (textOr ambient (.text (ofValue ambient v).cwd)) [] =
      (ofValue ambient v).cwd := by
  have habs := (isNormal_ofValue h v).cwd
  have htrim : Text.trim (ofValue ambient v).cwd = (ofValue ambient v).cwd := by
    cases v with
    | dict given =>
        exact trim_resolveFrom h hambient (textOr_ne_empty (Path.ne_empty_of_isAbsolute h) _)
          (trim_textOr hambient _)
    | _ => exact hambient
  rw [textOr_of_trim htrim (Path.ne_empty_of_isAbsolute habs),
    WorkDir.resolveFrom_of_isAbsolute ambient habs]

/-! ## As a dictionary -/

/-- The five entries of settings in normal form. -/
structure HasNormalFields (entries : List (String × Value)) : Prop where
  cwd : ∃ path, Value.get? entries "cwd" = some (.text path) ∧ Path.isAbsolute path = true
  sortResults : ∃ b, Value.get? entries "sort_results" = some (.bool b)
  jsonOutput : ∃ b, Value.get? entries "json_output" = some (.bool b)
  logLevel : ∃ l : Log.Level, Value.get? entries "log_level" = some (.text l.name)
  logFile : ∃ path, Value.get? entries "log_file" = some (.text path) ∧
    ∀ c, path.toList.head? = some c ∨ path.toList.getLast? = some c → Text.isBlank c = false

theorem IsNormal.hasNormalFields (h : s.IsNormal) : HasNormalFields s.toEntries where
  cwd := ⟨s.cwd, rfl, h.cwd⟩
  sortResults := ⟨s.sortResults, rfl⟩
  jsonOutput := ⟨s.jsonOutput, rfl⟩
  logLevel := ⟨s.logLevel, rfl⟩
  logFile := ⟨s.logFile, rfl, Text.trim_eq_self_iff.1 h.logFile⟩

end Settings

namespace Action

open Settings

/-- **Checking normalizes.** A lenient check of anything at all succeeds. What it gives is in normal
    form, with the entries under unknown keys as they were, and checking that again in the same
    directory has nothing to say, even strictly, and gives the same, but for the working directory
    where the present one ends in a blank. -/
theorem checkSettings_normalizes {w : World} (h : Path.isAbsolute w.cwd = true) (v : Value) :
    ∃ checked, ((checkSettings .lenient v).run w).1 = .ok checked ∧
      HasNormalFields checked.settings.toEntries ∧
      (∀ given, v = .dict given → ∀ key ∉ keys,
        Value.get? checked.settings.toEntries key = Value.get? given key) ∧
      ∀ (mode : Mode) (w' : World), w'.cwd = w.cwd →
        ∃ cwd, ((checkSettings mode checked.settings.toValue).run w').1 =
            .ok ⟨{ checked.settings with cwd }, []⟩ ∧
          ((∀ c, w.cwd.toList.getLast? = some c → Text.isBlank c = false) →
            cwd = checked.settings.cwd) := by
  obtain ⟨ws, hcheck, -⟩ := exists_check_lenient w.cwd v
  have hnormal := isNormal_ofValue h v
  refine ⟨⟨ofValue w.cwd v, ws⟩, ?_, hnormal.hasNormalFields, ?_, ?_⟩
  · rw [result_checkSettings, hcheck]
    rfl
  · rintro given rfl key hkey
    exact (get?_toEntries_of_not_mem hkey).trans (get?_extra_ofEntries w.cwd given hkey)
  · intro mode w' hcwd
    refine ⟨WorkDir.resolveFrom w.cwd (textOr w.cwd (.text (ofValue w.cwd v).cwd)) [], ?_,
      fun hlast => ?_⟩
    · rw [result_checkSettings, check_of_acceptable (acceptable_toValue _), hcwd,
        hnormal.ofValue_toValue]
      rfl
    · exact resolveFrom_cwd_ofValue h (trim_eq_self_of_isAbsolute h hlast) v

/-- A relative directory between blanks, a word for a switch, and fields of other kinds. -/
theorem checkSettings_normalizes_mixed :
    let w := World.start ⟨[]⟩ "/h" (.empty "/home") "" none
    let v : Value := .dict [("cwd", .text " x\n"), ("sort_results", .text "Yes"),
      ("json_output", .list []), ("log_level", .int 3), ("other", .null)]
    Path.isAbsolute w.cwd = true ∧ ∃ checked, ((checkSettings .lenient v).run w).1 = .ok checked ∧
      checked.settings.cwd = "/h/x" ∧ checked.settings.sortResults = true ∧
      HasNormalFields checked.settings.toEntries ∧
      Value.get? checked.settings.toEntries "other" = some .null ∧
      ((checkSettings .strict checked.settings.toValue).run w).1 = .ok ⟨checked.settings, []⟩ := by
  intro w v
  have habs : Path.isAbsolute w.cwd = true := by decide
  have hlast : w.cwd.toList.getLast? = some 'h' := by decide
  obtain ⟨checked, hrun, hfields, hunknown, hagain⟩ := checkSettings_normalizes habs v
  obtain ⟨cwd, hstrict, hcwd⟩ := hagain .strict w rfl
  have hsame : cwd = checked.settings.cwd := hcwd fun c hc => by
    rw [hlast, Option.some.injEq] at hc
    rw [← hc]
    decide
  rw [hsame] at hstrict
  have hsettings : checked.settings = ofValue w.cwd v := by
    obtain ⟨ws, hcheck, -⟩ := exists_check_lenient w.cwd v
    rw [result_checkSettings, hcheck] at hrun
    exact congrArg Checked.settings (Except.ok.inj hrun).symm
  have hfound : (ofValue w.cwd v).cwd = "/h/x" ∧ (ofValue w.cwd v).sortResults = true := by
    decide
  rw [← hsettings] at hfound
  exact ⟨habs, _, hrun, hfound.1, hfound.2, hfields, hunknown _ rfl "other" (by decide), hstrict⟩

end Action

end DirGlob
