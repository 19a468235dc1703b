import DirGlob.Log.Sink
import DirGlob.Proofs.Lookup

set_option autoImplicit false

/-! # The texts of log files

Of all that is done to the disk only writing changes the text of a file, and of no other file than
the one that is written to. Making directories and opening files leave all texts as they are: what
they put on the disk was not there, and is empty. -/

namespace DirGlob.Log

namespace Disk

variable {d d' : Disk} {path : String}

theorem find?_put (d : Disk) (path : String) (e : DiskEntry) (other : String) :
    (d.put path e).find? other = if key other = key path then some e else d.find? other :=
  lookup_put _ _ _ _

/-- A file or a device that is put in the place of something has the text that it is put with. -/
theorem textOf_put_self {e : DiskEntry} {text : String}
    (he : e = .file text ∨ ∃ device, e = .device device text) (d : Disk) (path : String) :
    (d.put path e).textOf path = text := by
  rw [textOf, find?_put, if_pos rfl]
  rcases he with rfl | ⟨device, rfl⟩ <;> rfl

theorem textOf_put_of_ne (e : DiskEntry) {other : String} (h : key other ≠ key path) :
    (d.put path e).textOf other = d.textOf other := by
  rw [textOf, find?_put, if_neg h, textOf]

theorem textOf_congr {other : String} (h : key other = key path) :
    d.textOf other = d.textOf path := by
  rw [textOf, find?, h, textOf, find?]

theorem textOf_append (d : Disk) (path text other : String) :
    (d.append path text).textOf other =
      d.textOf other ++ if key other = key path then text else "" := by
  by_cases h : key other = key path
  · rw [if_pos h, textOf_congr h, textOf_congr h, append]
    refine textOf_put_self ?_ d path
    cases d.device? path with
    | some device => exact .inr ⟨device, rfl⟩
    | none => exact .inl rfl
  · rw [if_neg h, String.append_empty, append, textOf_put_of_ne _ h]

/-- Every file has the same text on both disks. -/
def SameTexts (d d' : Disk) : Prop := ∀ path, d'.textOf path = d.textOf path

theorem SameTexts.trans {d'' : Disk} (h : d.SameTexts d') (h' : d'.SameTexts d'') :
    d.SameTexts d'' := fun path => (h' path).trans (h path)

theorem sameTexts_refl (d : Disk) : d.SameTexts d := fun _ => rfl

/-- A directory or an empty file that is put where nothing was. -/
theorem sameTexts_put {e : DiskEntry} (hnone : d.find? path = none)
    (he : e = .directory ∨ e = .file "") : d.SameTexts (d.put path e) := by
  intro other
  by_cases h : key other = key path
  · have hother : d.textOf path = "" := by rw [textOf, hnone]
    rw [textOf_congr h, textOf_congr h, hother]
    rcases he with rfl | rfl
    · rw [textOf, find?_put, if_pos rfl]
    · exact textOf_put_self (.inl rfl) d path
  · exact textOf_put_of_ne e h

theorem sameTexts_makeDirectory (hnone : d.find? path = none)
    (h : d.makeDirectory path = .ok d') : d.SameTexts d' := by
  rw [makeDirectory] at h
  cases hplace : d.checkPlace path with
  | error e =>
      rw [hplace] at h
      cases h
  | ok u =>
      rw [hplace] at h
      cases h
      exact sameTexts_put hnone (.inl rfl)

theorem sameTexts_openFile (h : d.openFile path = .ok d') : d.SameTexts d' := by
  rw [openFile] at h
  split at h
  · cases h
  · cases h
  · cases h
    exact sameTexts_refl d
  · cases h
    exact sameTexts_refl d
  · next hnone =>
    cases hplace : d.checkPlace path with
    | error e =>
        rw [hplace] at h
        cases h
    | ok u =>
        rw [hplace] at h
        cases h
        exact sameTexts_put hnone (.inr rfl)

end Disk

/-! ## Opening a log file -/

/-- Making directories changes no text, and never comes to an open file. -/
theorem makeDirectories_spec (d : Disk) (ps : List String) :
    d.SameTexts (makeDirectories d ps).1 ∧
      ∀ s : Sink, (makeDirectories d ps).2 ≠ some (.sink s) := by
  induction ps generalizing d with
  | nil => exact ⟨d.sameTexts_refl, by simp [makeDirectories]⟩
  | cons p ps ih =>
      rw [makeDirectories]
      split
      · exact ih d
      · next hnone =>
        split
        · exact ⟨d.sameTexts_refl, by simp⟩
        · split
          · next d' hd' =>
            have hsame := Disk.sameTexts_makeDirectory (by simpa using hnone) hd'
            exact ⟨hsame.trans (ih d').1, (ih d').2⟩
          · exact ⟨d.sameTexts_refl, by simp⟩

/-- Opening a log file changes no text; a sink that comes of it takes the level that it was set up
    with, and it is the standard output if the path of the log file leads there. -/
theorem openLogFile_spec (d : Disk) (cfg : Config) (level : Int) (broken : Option Breakdown) :
    d.SameTexts (openLogFile d cfg level broken).1 ∧
      ∀ s, (openLogFile d cfg level broken).2 = .sink s →
        ∃ name shownPath maxBytes backups, logFileName cfg.logFile = .ok name ∧
          s = .file level (d.absolute name) shownPath maxBytes backups
            (d.device? (d.absolute name) = some .output) := by
  rw [openLogFile]
  split
  · exact ⟨d.sameTexts_refl, by simp⟩
  · next name hname =>
    simp only
    generalize hmade : makeDirectories d _ = made
    obtain ⟨hsame, hnosink⟩ := hmade ▸ makeDirectories_spec d _
    obtain ⟨d', trouble⟩ := made
    cases trouble with
    | some trouble =>
        refine ⟨hsame, fun s hs => ?_⟩
        exact absurd (congrArg some hs) (hnosink s)
    | none =>
        simp only
        split
        · exact ⟨hsame, by simp⟩
        · exact ⟨hsame, by simp⟩
        · next maxBytes backups _ _ =>
          split
          · exact ⟨hsame, by simp⟩
          · split
            · exact ⟨hsame, by simp⟩
            · split
              · next d'' hd'' =>
                refine ⟨hsame.trans (Disk.sameTexts_openFile hd''), fun s hs => ?_⟩
                cases hs
                exact ⟨_, _, _, _, hname, rfl⟩
              · exact ⟨hsame, by simp⟩

end DirGlob.Log
