/-
Paths as texts and as ways.

A path is compared with others as a text, but where a file lies is a matter of the names on the way
to it.  The two say the same as long as no name holds a slash: the parts of a path are then the names
on the way.  So a file that lies in the folder with the name of another one, by the texts of the two,
lies below the folder of that other one, by the ways to them.
-/
import Mathlib.Data.List.Basic
import PluginHelp.Files.Path

namespace PluginHelp

namespace Text

variable {sep : Char} {piece : List Char}

/-- Splitting gives at least one piece. -/
theorem splitAt_eq_concat (sep : Char) (text : List Char) :
    ∃ front last, splitAt sep text = front ++ [last] := by
  have hne : splitAt sep text ≠ [] := by
    cases text with
    | nil => simp [splitAt]
    | cons c rest =>
        rw [splitAt]
        split
        · simp
        · split <;> simp
  exact ⟨_, _, (List.dropLast_concat_getLast hne).symm⟩

/-- What stands before a separator is split by itself. -/
theorem splitAt_append_sep (text rest : List Char) :
    splitAt sep (text ++ sep :: rest) = splitAt sep text ++ splitAt sep rest := by
  induction text with
  | nil => simp [splitAt]
  | cons c text ih =>
      obtain ⟨front, last, hsplit⟩ := splitAt_eq_concat sep text
      rw [List.cons_append, splitAt, splitAt, ih]
      by_cases hc : (c == sep) = true
      · rw [if_pos hc, if_pos hc, List.cons_append]
      · rw [if_neg hc, if_neg hc, hsplit]
        cases front <;> simp

/-- A text without a separator is one piece. -/
theorem splitAt_of_notMem (h : sep ∉ piece) : splitAt sep piece = [piece] := by
  induction piece with
  | nil => rfl
  | cons c rest ih =>
      obtain ⟨hc, hrest⟩ : ¬sep = c ∧ sep ∉ rest := by simpa using h
      rw [splitAt, if_neg (by simpa using Ne.symm hc), ih hrest]

/-- A text without a separator goes on with the last piece of what stands before it. -/
theorem splitAt_append_of_notMem (h : sep ∉ piece) (text : List Char) :
    ∃ front last, splitAt sep text = front ++ [last]
      ∧ splitAt sep (text ++ piece) = front ++ [last ++ piece] := by
  induction text with
  | nil => exact ⟨[], [], rfl, splitAt_of_notMem h⟩
  | cons c text ih =>
      obtain ⟨front, last, hsplit, happend⟩ := ih
      rw [List.cons_append, splitAt, splitAt, hsplit, happend]
      by_cases hc : (c == sep) = true
      · rw [if_pos hc, if_pos hc]
        exact ⟨[] :: front, last, rfl, rfl⟩
      · rw [if_neg hc, if_neg hc]
        cases front with
        | nil => exact ⟨[], c :: last, rfl, rfl⟩
        | cons first front => exact ⟨(c :: first) :: front, last, rfl, rfl⟩

/-- Pieces without separators come back from the text that they make. -/
theorem splitAt_intercalate {pieces : List (List Char)} (hne : pieces ≠ [])
    (h : ∀ piece ∈ pieces, sep ∉ piece) : splitAt sep ([sep].intercalate pieces) = pieces := by
  induction pieces with
  | nil => exact absurd rfl hne
  | cons piece pieces ih =>
      have hpiece := splitAt_of_notMem (h piece List.mem_cons_self)
      cases pieces with
      | nil => simpa using hpiece
      | cons next pieces =>
          have hrest := ih (by simp) fun other hother => h other (List.mem_cons_of_mem _ hother)
          rw [List.intercalate_cons_cons, List.append_assoc, List.singleton_append,
            splitAt_append_sep, hrest, hpiece]
          rfl

end Text

namespace Path

/-- Names that can stand in a path: none of them holds a slash. -/
def ArePlain (way : List String) : Prop :=
  ∀ name ∈ way, '/' ∉ name.toList

theorem parts_ofNames {way : List String} (hne : way ≠ []) (h : ArePlain way) :
    parts (ofNames way) = way := by
  have hsplit : Text.splitAt '/' (ofNames way).toList = way.map String.toList := by
    rw [ofNames, String.toList_intercalate]
    refine Text.splitAt_intercalate (by simpa using hne) fun piece hpiece => ?_
    obtain ⟨name, hname, rfl⟩ := List.mem_map.mp hpiece
    exact h name hname
  rw [parts, hsplit, List.map_map]
  simp

/-- Different ways have different paths. -/
theorem ofNames_inj {way other : List String} (hne : way ≠ []) (h : ArePlain way)
    (hne' : other ≠ []) (h' : ArePlain other) (heq : ofNames way = ofNames other) :
    way = other := by
  rw [← parts_ofNames hne h, heq, parts_ofNames hne' h']

/-- A path is its stem and its extension. -/
theorem stem_append_extension (path : String) : stem path ++ (splitExtension path).2 = path := by
  unfold stem splitExtension
  generalize hbackwards : path.toList.reverse = backwards
  have hpath : path = String.ofList backwards.reverse := by
    rw [← hbackwards, List.reverse_reverse, String.ofList_toList]
  dsimp only
  generalize hextension : backwards.takeWhile (fun c => c != '.' && c != '/') = extension
  have hsplit : extension ++ backwards.drop extension.length = backwards := by
    obtain ⟨rest, hrest⟩ := List.takeWhile_prefix (p := fun c => c != '.' && c != '/') (l := backwards)
    rw [hextension] at hrest
    rw [← hrest, List.drop_left]
  split
  · rename_i stem hdrop
    split
    · rw [hpath, ← hsplit, hdrop, ← String.ofList_append]
      simp
    · simp
  · simp

/-- The last name of a path decides its extension. -/
theorem extension_append_slash (folder file : String) :
    (splitExtension (folder ++ "/" ++ file)).2 = (splitExtension file).2 := by
  have hstops {p : Char → Bool} (hp : p '/' = false) (front back : List Char) :
      (front ++ '/' :: back).takeWhile p = front.takeWhile p := by
    induction front with
    | nil => simp [hp]
    | cons c front ih => simp [List.takeWhile_cons, ih]
  have hbackwards : (folder ++ "/" ++ file).toList.reverse
      = file.toList.reverse ++ '/' :: folder.toList.reverse := by simp
  unfold splitExtension
  rw [hbackwards]
  generalize file.toList.reverse = backwards
  dsimp only
  rw [hstops rfl, List.drop_append_of_le_length (List.takeWhile_prefix _).length_le]
  rcases backwards.drop (backwards.takeWhile fun c => c != '.' && c != '/').length
    with _ | ⟨c, stem⟩
  · rfl
  · by_cases hc : c = '.'
    · subst hc
      have hname := hstops (p := (· != '/')) rfl stem folder.toList.reverse
      simp only [List.cons_append, hname]
      split <;> rfl
    · simp [hc]

/-- A file with an extension has something before it. -/
theorem getLast?_stem {path : String} (hext : (splitExtension path).2 = ".vim") :
    (stem path).toList.getLast? ≠ some '/' := by
  unfold stem
  unfold splitExtension at hext ⊢
  dsimp only at hext ⊢
  split at hext
  · split at hext
    · rename_i hany
      rw [if_pos hany, String.toList_ofList, List.getLast?_reverse]
      intro hslash
      obtain ⟨rest, rfl⟩ := List.head?_eq_some_iff.mp hslash
      simp at hany
    · simp at hext
  · simp at hext

/-- Whether a path leads into the folder that has the name of a file without its extension. -/
def isInside (file path : String) : Bool :=
  Text.beginsWith (stem file ++ "/") path

theorem isInside_iff {file path : String} :
    isInside file path = true ↔ ∃ rest, path.toList = (stem file).toList ++ '/' :: rest := by
  unfold isInside Text.beginsWith
  rw [List.isPrefixOf_iff_prefix, String.toList_append]
  constructor
  · rintro ⟨rest, hrest⟩
    exact ⟨rest, by rw [← hrest]; simp⟩
  · rintro ⟨rest, hrest⟩
    exact ⟨rest, by rw [hrest]; simp⟩

theorem vim_plain : '/' ∉ ".vim".toList := by
  simp

/-- A file that lies in such a folder has the name of the folder at the start of its stem. -/
theorem stem_of_isInside {file path : String} (hext : (splitExtension path).2 = ".vim")
    (h : isInside file path = true) :
    ∃ rest, (stem path).toList = (stem file).toList ++ '/' :: rest := by
  obtain ⟨rest, hrest⟩ := isInside_iff.mp h
  have hpath : (stem path).toList ++ ".vim".toList = (stem file).toList ++ '/' :: rest := by
    rw [← hrest, ← String.toList_append, ← hext, stem_append_extension]
  rcases List.append_eq_append_iff.mp hpath with ⟨more, -, hmore⟩ | ⟨more, hstem, hmore⟩
  · have hslash : '/' ∈ ".vim".toList := by
      rw [hmore]
      simp
    exact absurd hslash vim_plain
  · cases more with
    | nil => exact absurd (List.cons.inj hmore).1 (by decide)
    | cons c more =>
        obtain rfl : '/' = c := (List.cons.inj hmore).1
        exact ⟨more, hstem⟩

/-- What lies in the folder of a file lies in every folder that the file lies in. -/
theorem isInside_trans {outer file path : String} (hext : (splitExtension file).2 = ".vim")
    (hfile : isInside outer file = true) (hpath : isInside file path = true) :
    isInside outer path = true := by
  obtain ⟨rest, hstem⟩ := stem_of_isInside hext hfile
  obtain ⟨more, hmore⟩ := isInside_iff.mp hpath
  rw [isInside_iff, hmore, hstem]
  exact ⟨rest ++ '/' :: more, by simp⟩

/-- Whether a way goes on below the folder in which another one ends. -/
def Deeper (way other : List String) : Prop :=
  other.dropLast <+: way ∧ other.length < way.length

/-- A file in the folder with the name of another one lies below the folder of that one. -/
theorem deeper_of_isInside {way other : List String} (hne : way ≠ []) (hway : ArePlain way)
    (hne' : other ≠ []) (hother : ArePlain other)
    (hext : (splitExtension (ofNames other)).2 = ".vim")
    (h : isInside (ofNames other) (ofNames way) = true) : Deeper way other := by
  obtain ⟨rest, hrest⟩ := isInside_iff.mp h
  have hfile : (ofNames other).toList = (stem (ofNames other)).toList ++ ".vim".toList := by
    rw [← String.toList_append, ← hext, stem_append_extension]
  obtain ⟨front, last, hstem, hsplit⟩ :=
    Text.splitAt_append_of_notMem vim_plain (stem (ofNames other)).toList
  have hotherParts : other = (front ++ [last ++ ".vim".toList]).map String.ofList := by
    rw [← hsplit, ← hfile]
    exact (parts_ofNames hne' hother).symm
  have hwayParts : way = (front ++ [last] ++ Text.splitAt '/' rest).map String.ofList := by
    rw [← hstem, ← Text.splitAt_append_sep, ← hrest]
    exact (parts_ofNames hne hway).symm
  obtain ⟨more, final, hmore⟩ := Text.splitAt_eq_concat '/' rest
  rw [hotherParts, hwayParts, hmore]
  refine ⟨⟨(last :: more ++ [final]).map String.ofList, ?_⟩, ?_⟩
  · simp
  · simp

end Path

end PluginHelp
