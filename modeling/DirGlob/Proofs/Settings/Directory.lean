import DirGlob.Proofs.Settings.Normal

set_option autoImplicit false

/-! # The working directory that settings ask for

The working directory of checked settings comes from one of three sources: a text that is given, the
present directory in the place of nothing, and the present directory as the default of a field that
is left out. A text is trimmed before it is resolved, and the default goes the way of a text. So
checked settings name the directory that was asked for, blanks around a given path apart
(`Action.cwd_checkSettings`). -/

namespace DirGlob

/-- Whether the last character of a text is blank. -/
def Text.endsInBlank (s : String) : Bool := s.toList.getLast?.any isBlank

namespace Settings

variable {ambient s : String} {given : List (String × Value)}

/-! ## All but the working directory -/

/-- Nothing is wrong with a dictionary, its working directory apart. -/
def AcceptableBesidesCwd (given : List (String × Value)) : Prop :=
  Acceptable (.dict (given.filter fun e => e.1 ≠ "cwd"))

/-- With a working directory that fits, nothing is wrong with the whole dictionary. -/
theorem AcceptableBesidesCwd.acceptable (h : AcceptableBesidesCwd given)
    (hcwd : ∀ v, Value.get? given "cwd" = some v → FitsText v) : Acceptable (.dict given) := by
  obtain ⟨_, ⟨⟩, hfits, hknown⟩ := h
  have hget {key : String} (hkey : key ≠ "cwd") :
      Value.get? (given.filter fun e => e.1 ≠ "cwd") key = Value.get? given key :=
    Value.get?_filter (p := fun key => key ≠ "cwd") (by simpa using hkey) given
  refine ⟨given, rfl, ⟨?_, ?_⟩, ?_⟩
  · intro key hkey v hv
    by_cases hcase : key = "cwd"
    · subst hcase
      exact hcwd v hv
    · exact hfits.text key hkey v ((hget hcase).trans hv)
  · intro key hkey v hv
    have hne : key ≠ "cwd" := by
      rintro rfl
      simp at hkey
    exact hfits.switch key hkey v ((hget hne).trans hv)
  · rintro ⟨t, ht, hunknown⟩
    exact hknown ⟨t, (hget (by decide)).trans ht, hunknown⟩

/-! ## The three sources -/

theorem trim_of_isAbsolute (h : Path.isAbsolute s = true) (hend : Text.endsInBlank s = false) :
    Text.trim s = s := by
  refine trim_eq_self_of_isAbsolute h fun c hc => ?_
  rw [Text.endsInBlank, hc] at hend
  exact hend

theorem cwd_ofEntries_of_null (h : Path.isAbsolute ambient = true)
    (hcwd : Value.get? given "cwd" = some .null) : (ofEntries ambient given).cwd = ambient := by
  rw [ofEntries, fieldOf, hcwd]
  exact WorkDir.resolveFrom_of_isAbsolute ambient h

/-- The default is trimmed as well. -/
theorem cwd_ofEntries_of_none (h : Path.isAbsolute ambient = true)
    (hend : Text.endsInBlank ambient = false) (hcwd : Value.get? given "cwd" = none) :
    (ofEntries ambient given).cwd = ambient := by
  have hdefault : fieldOf ambient given "cwd" = .text ambient := by
    rw [fieldOf, hcwd]
    rfl
  have htext : textOr ambient (.text ambient) = ambient :=
    textOr_of_trim (trim_of_isAbsolute h hend) (Path.ne_empty_of_isAbsolute h)
  rw [ofEntries, hdefault, htext]
  exact WorkDir.resolveFrom_of_isAbsolute ambient h

theorem cwd_ofEntries_of_text (ambient : String) (hcwd : Value.get? given "cwd" = some (.text s))
    (hblank : Text.trim s ≠ "") :
    (ofEntries ambient given).cwd = WorkDir.resolveFrom ambient (Text.trim s) [] := by
  have htext : textOr ambient (.text s) = Text.trim s := if_neg hblank
  rw [ofEntries, fieldOf, hcwd, Option.getD_some, htext]

theorem ofValue_defaults (h : Path.isAbsolute ambient = true)
    (hend : Text.endsInBlank ambient = false) :
    ofValue ambient (defaults ambient).toValue = defaults ambient := by
  have htext : textOr ambient (.text ambient) = ambient :=
    textOr_of_trim (trim_of_isAbsolute h hend) (Path.ne_empty_of_isAbsolute h)
  rw [(isNormal_defaults h).ofValue_toValue]
  show { defaults ambient with
      cwd := WorkDir.resolveFrom ambient (textOr ambient (.text ambient)) [] } = defaults ambient
  rw [htext, WorkDir.resolveFrom_of_isAbsolute ambient h]
  rfl

end Settings

namespace Action

open Settings

theorem result_checkSettings_of_acceptable {v : Value} (h : Acceptable v) (mode : Mode)
    (w : World) :
    ((checkSettings mode v).run w).1 = .ok ⟨ofValue w.cwd v, []⟩ := by
  rw [result_checkSettings, check_of_acceptable h]
  rfl

/-- **The checked working directory is the one that was asked for.** With a dictionary whose other
    fields are in order, a check of either mode gives the present directory if there is nothing in
    the field, and what a trimmed text is resolved to if there is one; so an absolute path stays as
    it is unless it ends in a blank. In a directory whose own path does not end in a blank, a field
    that is left out gives the present directory too, and the default settings stay as they are. -/
theorem cwd_checkSettings {w : World} (h : Path.isAbsolute w.cwd = true)
    {given : List (String × Value)} (hothers : AcceptableBesidesCwd given) (mode : Mode) :
    let gives (path : String) : Prop := ∃ settings,
      ((checkSettings mode (.dict given)).run w).1 = .ok ⟨settings, []⟩ ∧ settings.cwd = path
    (Value.get? given "cwd" = some .null → gives w.cwd) ∧
      (Value.get? given "cwd" = none → Text.endsInBlank w.cwd = false → gives w.cwd) ∧
      (∀ s, Value.get? given "cwd" = some (.text s) → Text.trim s ≠ "" →
        (∃ path, ((resolve (.text (Text.trim s)) [] .null).run w).1 = .ok path ∧ gives path) ∧
          (Path.isAbsolute s = true → Text.endsInBlank s = false → gives s)) ∧
      (Text.endsInBlank w.cwd = false → ∀ defaults, (defaultSettings.run w).1 = .ok defaults →
        ((checkSettings mode defaults.toValue).run w).1 = .ok ⟨defaults, []⟩) := by
  intro gives
  have hgives (hfits : ∀ v, Value.get? given "cwd" = some v → FitsText v) :
      gives (ofEntries w.cwd given).cwd :=
    ⟨_, result_checkSettings_of_acceptable (hothers.acceptable hfits) mode w, rfl⟩
  refine ⟨fun hcwd => ?_, fun hcwd hend => ?_, fun s hcwd hblank => ?_,
    fun hend defaults hrun => ?_⟩
  · rw [← cwd_ofEntries_of_null h hcwd]
    exact hgives (by simp [hcwd, FitsText, Value.kind])
  · rw [← cwd_ofEntries_of_none h hend hcwd]
    exact hgives (by simp [hcwd])
  · have hpath : gives (WorkDir.resolveFrom w.cwd (Text.trim s) []) := by
      rw [← cwd_ofEntries_of_text w.cwd hcwd hblank]
      exact hgives (by simp [hcwd, FitsText, Value.kind])
    refine ⟨⟨_, ?_, hpath⟩, fun habs hend => ?_⟩
    · rw [run_resolve]
      exact WorkDir.resolve_of_ofValue w.cwd rfl
    · rwa [trim_of_isAbsolute habs hend, WorkDir.resolveFrom_of_isAbsolute _ habs] at hpath
  · obtain rfl : Settings.defaults w.cwd = defaults := Except.ok.inj hrun
    rw [result_checkSettings_of_acceptable (acceptable_toValue _), ofValue_defaults h hend]

/-- A relative path between blanks, and a level in small letters. -/
theorem cwd_checkSettings_of_padded :
    let w := World.start ⟨[]⟩ "/h" (.empty "/home") "" none
    let given : List (String × Value) := [("cwd", .text " x\n"), ("log_level", .text "debug")]
    Path.isAbsolute w.cwd = true ∧ AcceptableBesidesCwd given ∧
      (∃ settings, ((checkSettings .strict (.dict given)).run w).1 = .ok ⟨settings, []⟩ ∧
        settings.cwd = "/h/x") ∧
      ((checkSettings .strict (Settings.defaults "/h").toValue).run w).1 =
        .ok ⟨.defaults "/h", []⟩ := by
  intro w given
  have habs : Path.isAbsolute w.cwd = true := by decide
  have hothers : AcceptableBesidesCwd given := by
    refine ⟨[("log_level", .text "debug")], rfl, (fits_iff "/h" _).2 ?_,
      mt (levelUnknown_iff "/h" _).1 (by decide)⟩
    exact ⟨.inl rfl, .inl rfl, .inl rfl, .inl rfl, .inl rfl⟩
  obtain ⟨-, -, htext, hdefaults⟩ := cwd_checkSettings habs hothers .strict
  obtain ⟨⟨path, hresolve, settings, hrun, hcwd⟩, -⟩ := htext " x\n" rfl (by decide)
  have hpath : path = "/h/x" := by
    rw [run_resolve] at hresolve
    exact (Except.ok.inj hresolve).symm.trans (by decide)
  exact ⟨habs, hothers, ⟨settings, hrun, hcwd.trans hpath⟩, hdefaults (by decide) _ rfl⟩

/-- A given path does not keep the blanks around it. -/
theorem not_forall_cwd_checkSettings :
    ¬∀ (w : World) (given : List (String × Value)) (mode : Mode), Path.isAbsolute w.cwd = true →
      AcceptableBesidesCwd given → ∀ checked,
      ((checkSettings mode (.dict given)).run w).1 = .ok checked →
        (Value.get? given "cwd" = none ∨ Value.get? given "cwd" = some .null →
          checked.settings.cwd = w.cwd) ∧
        ∀ s, Value.get? given "cwd" = some (.text s) → Text.trim s ≠ "" →
          ((resolve (.text s) [] .null).run w).1 = .ok checked.settings.cwd := by
  intro h
  have hothers : AcceptableBesidesCwd [("cwd", .text " x")] :=
    ⟨[], rfl, ⟨nofun, nofun⟩, by simp [LevelUnknown, Value.get?]⟩
  obtain ⟨-, htext⟩ := h (.start ⟨[]⟩ "/h" (.empty "/home") "" none) [("cwd", .text " x")] .lenient
    (by decide) hothers _ rfl
  have hresolved := Except.ok.inj (htext " x" rfl (by decide))
  exact absurd hresolved (by decide)

end Action

end DirGlob
