/-
Where a path leads.

A path that can be followed takes the way of its words.  So a name without a slash leads, below a
folder, to the way of that folder and the name, unless it stands for a folder itself.
-/
import PluginHelp.Files.Disk
import PluginHelp.Proofs.Except
import PluginHelp.Proofs.Files.Path

namespace PluginHelp

namespace Path

/-- A name that stands for something in a folder. -/
structure IsName (name : String) : Prop where
  plain : '/' ∉ name.toList
  filled : name ≠ ""
  leadsOn : name ≠ "." ∧ name ≠ ".."

variable {name : String}

theorem IsName.step_eq (h : IsName name) (way : List String) : step way name = way ++ [name] := by
  simp [step, h.filled, h.leadsOn.1, h.leadsOn.2]

theorem IsName.parts_eq (h : IsName name) : parts name = [name] := by
  rw [parts, Text.splitAt_of_notMem h.plain]
  simp

theorem parts_append_slash (folder rest : String) :
    parts (folder ++ "/" ++ rest) = parts folder ++ parts rest := by
  have hlist : (folder ++ "/" ++ rest).toList = folder.toList ++ '/' :: rest.toList := by simp
  rw [parts, hlist, Text.splitAt_append_sep, List.map_append]
  rfl

theorem startOf_append (place : List String) {folder : String} (h : folder ≠ "") (rest : String) :
    startOf place (folder ++ rest) = startOf place folder := by
  obtain ⟨c, cs, hcs⟩ : ∃ c cs, folder.toList = c :: cs := by
    cases hlist : folder.toList with
    | nil => exact absurd (String.toList_eq_nil_iff.mp hlist) h
    | cons c cs => exact ⟨c, cs, rfl⟩
  simp [startOf, isAbsolute, Text.beginsWith, hcs]

/-- A name in a folder leads one step on. -/
theorem walk_join (place : List String) (folder : String) (h : IsName name) :
    walk place (join folder name) = walk place folder ++ [name] := by
  have hrelative : Text.beginsWith "/" name = false := by
    rw [← Bool.not_eq_true, Text.beginsWith, List.isPrefixOf_iff_prefix]
    exact fun hbegins => h.plain (hbegins.subset List.mem_cons_self)
  unfold join
  rw [hrelative, Bool.or_false]
  by_cases hfolder : folder = ""
  · subst hfolder
    rw [if_pos BEq.rfl, walk, h.parts_eq, startOf, isAbsolute, hrelative]
    exact h.step_eq place
  · rw [if_neg (by simpa using hfolder)]
    by_cases hslash : folder.toList.getLast? = some '/'
    · -- the empty part after the last slash stays where it is
      obtain ⟨front, hfront⟩ := List.getLast?_eq_some_iff.mp hslash
      obtain ⟨start, rfl⟩ : ∃ start, folder = start ++ "/" ++ "" :=
        ⟨String.ofList front, String.toList_inj.mp (by simp [hfront])⟩
      have hwhole : start ++ "/" ++ "" ++ name = start ++ "/" ++ name := by simp
      rw [if_pos (beq_iff_eq.mpr hslash), walk, startOf_append place hfolder, hwhole,
        parts_append_slash, h.parts_eq, walk, parts_append_slash, List.foldl_append,
        List.foldl_append]
      exact h.step_eq _
    · rw [if_neg (by simpa using hslash), String.append_assoc, walk, startOf_append place hfolder,
        ← String.append_assoc, parts_append_slash, h.parts_eq, List.foldl_append]
      exact h.step_eq _

end Path

namespace Disk

variable {d : Disk} {root : Node} {way found : List String} {path text : String}

theorem follow_eq {parts : List String} (h : follow root way parts = .ok found) :
    found = parts.foldl Path.step way := by
  induction parts generalizing way with
  | nil => exact (Except.ok.inj h).symm
  | cons part parts ih =>
      rw [follow] at h
      split at h
      · cases h
      · cases h
      · split at h
        · cases h
        · exact ih h

/-- A path that can be followed takes the way of its words. -/
theorem locate_eq (h : d.locate path = .ok way) : way = Path.walk d.place path := by
  unfold locate at h
  split at h
  · cases h
  · exact follow_eq h

/-- A file is written where its path leads. -/
theorem writeFile_eq {after : Disk} (h : d.writeFile path text = .ok (way, after)) :
    way = Path.walk d.place path ∧ after.place = d.place := by
  unfold writeFile at h
  split at h
  · cases h
  · obtain ⟨found, hfound, hrest⟩ := Except.bind_eq_ok_iff.mp h
    dsimp only at hrest
    split at hrest
    · cases hrest
    · obtain ⟨rfl, rfl⟩ := Prod.mk.inj (Except.ok.inj hrest)
      exact ⟨locate_eq hfound, rfl⟩

end Disk

end PluginHelp
