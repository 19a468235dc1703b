import DirGlob.Path.Normalize
import DirGlob.Proofs.Tree.Listing

set_option autoImplicit false

/-! # The entry that a path names

A path names an entry by the directory that all of it but the last component leads to, and by that
component. With a name joined to a directory this is the name in that directory, however the
directory is spelled (`named?_join`). -/

namespace DirGlob

namespace Path

variable {p : String} {before : List Char} {name : String}

/-- What stands before the last separator and behind it. Separators before that one do not count
    unless there is nothing else. -/
theorem cutLast_of_toList (h : p.toList = before ++ '/' :: name.toList)
    (hname : '/' ∉ name.toList) :
    cutLast p =
      (String.ofList (if trimEnd before = [] then before ++ ['/'] else trimEnd before), name) := by
  have hlast : (p.toList.reverse.takeWhile (· ≠ '/')).reverse = name.toList := by
    rw [h]
    exact rtakeWhile_append_cons before hname
  have hfirst : p.toList.take (p.toList.length - name.toList.length) = before ++ ['/'] := by
    have htext : p.toList = (before ++ ['/']) ++ name.toList := by simp [h]
    rw [htext, List.length_append, Nat.add_sub_cancel, List.take_left]
  have htrim : ((before ++ ['/']).reverse.dropWhile (· = '/')).reverse = trimEnd before :=
    trimEnd_concat_separator before
  simp only [cutLast, hlast, hfirst, htrim, List.isEmpty_iff, String.ofList_toList]

/-- The first part leads where everything before the last component leads. -/
theorem sameWay_fst_cutLast (h : p.toList = before ++ '/' :: name.toList)
    (hname : '/' ∉ name.toList) :
    SameWay (cutLast p).1 (String.ofList (before ++ ['/'])) := by
  rw [cutLast_of_toList h hname]
  by_cases hroot : trimEnd before = []
  · rw [if_pos hroot]
    exact .refl _
  · have htrim := sameWay_trimEnd (s := before ++ ['/']) (by rwa [trimEnd_concat_separator])
    rwa [if_neg hroot, ← trimEnd_concat_separator]

theorem snd_cutLast_join {directory : String} (hdirectory : directory ≠ "")
    (hname : '/' ∉ name.toList) : (cutLast (join directory name)).2 = name := by
  obtain ⟨before, -, hjoined⟩ := exists_toList_join hdirectory (isAbsolute_of_not_mem hname)
  rw [cutLast_of_toList hjoined hname]

end Path

namespace Tree

/-- The entry that a path names: the directory that everything before the last component leads to,
    and that component. -/
def named? (t : Tree) (path : String) : Option (Place × String) :=
  (t.directory? (Path.cutLast path).1).map fun place => (place, (Path.cutLast path).2)

/-- What is joined to a directory names an entry of that directory. -/
theorem named?_join (t : Tree) {directory name : String} (hdirectory : directory ≠ "")
    (hname : '/' ∉ name.toList) :
    t.named? (Path.join directory name) = (t.directory? directory).map (·, name) := by
  obtain ⟨before, hbefore, hjoined⟩ :=
    Path.exists_toList_join hdirectory (Path.isAbsolute_of_not_mem hname)
  have hway : Path.SameWay (Path.cutLast (Path.join directory name)).1 directory := by
    refine (Path.sameWay_fst_cutLast hjoined hname).trans ?_
    rw [← hbefore, String.ofList_toList]
    exact Path.sameWay_opened hdirectory
  rw [named?, t.directory?_congr hway, Path.snd_cutLast_join hdirectory hname]

end Tree

end DirGlob
