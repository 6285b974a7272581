/-
The order in which the source files of a plugin are found.

The files of a folder come before those of the folders in it.  So a file that lies in the folder with
the name of another file comes after that one, whatever the names are; and since names in a folder
are unique, no path comes twice.
-/
import PluginHelp.Build.Crawl
import PluginHelp.Proofs.Files.Path
import PluginHelp.Proofs.Sorting

namespace PluginHelp

/-- A tree as a disk can hold it: the names in a folder are unique, and none of them holds a slash.
-/
inductive Node.Proper : Node → Prop
  | file (text : Option String) : Proper (.file text)
  | folder {children : List (String × Node)} (unique : (children.map (·.1)).Nodup)
      (plain : Path.ArePlain (children.map (·.1))) (inside : ∀ child ∈ children, Proper child.2) :
      Proper (.folder children)

theorem Node.proper_folder_iff {children : List (String × Node)} :
    (Node.folder children).Proper ↔ (children.map (·.1)).Nodup
      ∧ Path.ArePlain (children.map (·.1)) ∧ ∀ child ∈ children, child.2.Proper := by
  constructor
  · rintro (_ | ⟨unique, plain, inside⟩)
    exact ⟨unique, plain, inside⟩
  · rintro ⟨unique, plain, inside⟩
    exact .folder unique plain inside

namespace Build

open PluginHelp.Path

/-- A child that is a file, with its text. -/
def fileChild : String × Node → Option (String × Option String)
  | (name, .file text) => some (name, text)
  | (_, .folder _) => none

/-- A child that is a folder to be looked into, with what lies below it. -/
def folderChild (way : List String) :
    String × Node → Option (String × List (List String × Option String))
  | (_, .file _) => none
  | (name, .folder children) =>
    if isCrawled way name then some (name, filesBelow (way ++ [name]) (.folder children)) else none

theorem filesAmong_eq (way : List String) (children : List (String × Node)) :
    filesAmong way children
      = (children.filterMap fileChild, children.filterMap (folderChild way)) := by
  induction children with
  | nil => rw [filesAmong]; rfl
  | cons child children ih =>
      obtain ⟨name, node⟩ := child
      cases node with
      | file text =>
          rw [filesAmong, ih, List.filterMap_cons, List.filterMap_cons]
          rfl
      | folder inside =>
          rw [filesAmong, ih, List.filterMap_cons, List.filterMap_cons]
          simp only [fileChild, folderChild]
          split <;> rfl

/-- The files of a folder in the order of their names, and then what lies below its folders. -/
theorem filesBelow_folder (way : List String) (children : List (String × Node)) :
    filesBelow way (.folder children)
      = (Sorting.sortByKey (·.1) (children.filterMap fileChild)).map
          (fun found => (way ++ [found.1], found.2))
        ++ (Sorting.sortByKey (·.1) (children.filterMap (folderChild way))).flatMap (·.2) := by
  rw [filesBelow, filesAmong_eq]

theorem mem_files {children : List (String × Node)} {found : String × Option String}
    (h : found ∈ Sorting.sortByKey (·.1) (children.filterMap fileChild)) :
    (found.1, .file found.2) ∈ children := by
  obtain ⟨⟨name, node⟩, hchild, hfound⟩ :=
    List.mem_filterMap.mp ((Sorting.sortByKey_perm _ _).mem_iff.mp h)
  cases node with
  | file text =>
      obtain rfl := Option.some.inj hfound
      exact hchild
  | folder inside => cases hfound

theorem mem_folders {way : List String} {children : List (String × Node)}
    {found : String × List (List String × Option String)}
    (h : found ∈ Sorting.sortByKey (·.1) (children.filterMap (folderChild way))) :
    ∃ node, (found.1, node) ∈ children ∧ found.2 = filesBelow (way ++ [found.1]) node := by
  obtain ⟨⟨name, node⟩, hchild, hfound⟩ :=
    List.mem_filterMap.mp ((Sorting.sortByKey_perm _ _).mem_iff.mp h)
  cases node with
  | file text => cases hfound
  | folder inside =>
      rw [folderChild] at hfound
      split at hfound
      · obtain rfl := Option.some.inj hfound
        exact ⟨_, hchild, rfl⟩
      · cases hfound

theorem fileChild_name (child : String × Node) (found : String × Option String)
    (h : fileChild child = some found) : found.1 = child.1 := by
  obtain ⟨name, node⟩ := child
  cases node with
  | file text =>
      obtain rfl := Option.some.inj h
      rfl
  | folder inside => cases h

theorem folderChild_name (way : List String) (child : String × Node)
    (found : String × List (List String × Option String))
    (h : folderChild way child = some found) : found.1 = child.1 := by
  obtain ⟨name, node⟩ := child
  cases node with
  | file text => cases h
  | folder inside =>
      rw [folderChild] at h
      split at h
      · obtain rfl := Option.some.inj h
        rfl
      · cases h

/-- What is picked from children with unique names has unique names. -/
theorem sorted_unique {β : Type} {children : List (String × Node)}
    {pick : String × Node → Option (String × β)}
    (hpick : ∀ child found, pick child = some found → found.1 = child.1)
    (h : (children.map (·.1)).Nodup) :
    (Sorting.sortByKey (·.1) (children.filterMap pick)).Pairwise (fun a b => a.1 ≠ b.1) := by
  rw [(Sorting.sortByKey_perm _ _).pairwise_iff fun hne => hne.symm, List.pairwise_filterMap]
  refine (List.pairwise_map.mp h).imp fun hne a ha b hb => ?_
  rw [hpick _ a ha, hpick _ b hb]
  exact hne

/-- The files below a folder are reached by going on from it. -/
theorem filesBelow_below {node : Node} (h : node.Proper) (way : List String) :
    ∀ found ∈ filesBelow way node,
      ∃ rest, rest ≠ [] ∧ ArePlain rest ∧ found.1 = way ++ rest := by
  induction h generalizing way with
  | file text =>
      intro found hfound
      rw [filesBelow] at hfound
      cases hfound
  | @folder children unique plain inside ih =>
      intro found hfound
      have hname {name : String} {node : Node} (hchild : (name, node) ∈ children) :
          '/' ∉ name.toList := plain name (List.mem_map_of_mem hchild)
      rw [filesBelow_folder, List.mem_append] at hfound
      rcases hfound with hfile | hfolder
      · obtain ⟨file, hsorted, rfl⟩ := List.mem_map.mp hfile
        refine ⟨[file.1], by simp, ?_, rfl⟩
        intro name hmem
        rw [List.mem_singleton.mp hmem]
        exact hname (mem_files hsorted)
      · obtain ⟨folder, hfolder, hbelow⟩ := List.mem_flatMap.mp hfolder
        obtain ⟨node, hchild, hfiles⟩ := mem_folders hfolder
        rw [hfiles] at hbelow
        obtain ⟨rest, hne, hplain, hway⟩ := ih _ hchild _ found hbelow
        refine ⟨folder.1 :: rest, by simp, ?_, by rw [hway]; simp⟩
        intro name hmem
        rcases List.mem_cons.mp hmem with rfl | hrest
        · exact hname hchild
        · exact hplain name hrest

/-- Whether a file may come before another one: the other one is not the same, and the first does not
lie below the folder of the other one. -/
def MayPrecede (way other : List String) : Prop :=
  way ≠ other ∧ ¬Deeper way other

/-- Files come in the order in which they may. -/
theorem filesBelow_order {node : Node} (h : node.Proper) (way : List String) :
    (filesBelow way node).Pairwise fun a b => MayPrecede a.1 b.1 := by
  induction h generalizing way with
  | file text =>
      rw [filesBelow]
      exact List.Pairwise.nil
  | @folder children unique plain inside ih =>
      -- What lies in a folder is reached through its name, and not by that alone.
      have hbelow {folder : String × List (List String × Option String)}
          (hfolder : folder ∈ Sorting.sortByKey (·.1) (children.filterMap (folderChild way))) :
          ∀ found ∈ folder.2, ∃ rest, rest ≠ [] ∧ found.1 = way ++ folder.1 :: rest := by
        intro found hfound
        obtain ⟨node, hchild, hfiles⟩ := mem_folders hfolder
        rw [hfiles] at hfound
        obtain ⟨rest, hne, -, hway⟩ := filesBelow_below (inside _ hchild) _ found hfound
        exact ⟨rest, hne, by rw [hway]; simp⟩
      rw [filesBelow_folder, List.pairwise_append, List.pairwise_map, List.pairwise_flatMap]
      refine ⟨?_, ⟨?_, ?_⟩, ?_⟩
      · refine (sorted_unique fileChild_name unique).imp fun {a b} hne => ⟨by simp [hne], ?_⟩
        intro hdeeper
        have := hdeeper.2
        simp at this
      · intro folder hfolder
        obtain ⟨node, hchild, hfiles⟩ := mem_folders hfolder
        rw [hfiles]
        exact ih _ hchild _
      · refine List.Pairwise.imp_of_mem ?_ (sorted_unique (folderChild_name way) unique)
        intro a b ha hb hne x hx y hy
        obtain ⟨xs, hxs, hxway⟩ := hbelow ha x hx
        obtain ⟨ys, hys, hyway⟩ := hbelow hb y hy
        rw [hxway, hyway]
        refine ⟨by simp [hne], fun hdeeper => ?_⟩
        have hstart := hdeeper.1
        rw [List.dropLast_append_of_ne_nil (by simp), List.dropLast_cons_of_ne_nil hys,
          List.prefix_append_right_inj, List.cons_prefix_cons] at hstart
        exact hne hstart.1.symm
      · intro x hx y hy
        obtain ⟨file, hfile, rfl⟩ := List.mem_map.mp hx
        obtain ⟨folder, hfolder, hyfolder⟩ := List.mem_flatMap.mp hy
        obtain ⟨ys, hys, hyway⟩ := hbelow hfolder y hyfolder
        have hlength : (way ++ [file.1]).length < y.1.length := by
          have := List.length_pos_iff.mpr hys
          rw [hyway]
          simp
          omega
        refine ⟨fun heq => ?_, fun hdeeper => ?_⟩
        · have heq : way ++ [file.1] = y.1 := heq
          rw [heq] at hlength
          exact absurd hlength (Nat.lt_irrefl _)
        · exact absurd hdeeper.2 (Nat.lt_asymm hlength)

/-! ### Claims -/

/-- Whether a standalone file claims a path: it is its own, or lies in the folder with its name. -/
def claims (standalone path : String) : Bool :=
  path == standalone || isInside standalone path

theorem standaloneOf_eq (standalones : List String) (path : String) :
    standaloneOf standalones path = standalones.find? (claims · path) :=
  rfl

theorem claims_iff {standalone path : String} :
    claims standalone path = true ↔ path = standalone ∨ isInside standalone path = true := by
  rw [claims, Bool.or_eq_true, beq_iff_eq]

theorem claims_self (path : String) : claims path path = true :=
  claims_iff.mpr (Or.inl rfl)

/-- What claims a file claims all that the file claims. -/
theorem claims_trans {outer file path : String} (hext : (splitExtension file).2 = ".vim")
    (houter : claims outer file = true) (hfile : claims file path = true) :
    claims outer path = true := by
  rw [claims_iff] at houter hfile ⊢
  rcases houter with rfl | houter
  · exact hfile
  · rcases hfile with rfl | hfile
    · exact Or.inr houter
    · exact Or.inr (isInside_trans hext houter hfile)

/-- Only source files are found. -/
theorem extension_of_mem {root : Node} {found : String × Option String}
    (h : found ∈ sourceFiles root) : (splitExtension found.1).2 = ".vim" := by
  have := (List.mem_filter.mp h).2
  simpa using this

/-- No file claims one that is found before it. -/
theorem sourceFiles_order {root : Node} (h : root.Proper) :
    (sourceFiles root).Pairwise fun a b => claims b.1 a.1 = false := by
  refine List.pairwise_filter.mpr (List.pairwise_map.mpr ?_)
  refine List.Pairwise.imp_of_mem ?_ (filesBelow_order h [])
  intro a b ha hb hab _ hext
  obtain ⟨way, hne, hplain, hway⟩ := filesBelow_below h [] a ha
  obtain ⟨other, hne', hplain', hother⟩ := filesBelow_below h [] b hb
  rw [List.nil_append] at hway hother
  rw [hway, hother] at hab
  dsimp only at hext ⊢
  rw [hother] at hext
  rw [hway, hother, ← Bool.not_eq_true]
  intro hclaims
  rcases claims_iff.mp hclaims with hsame | hinside
  · exact hab.1 (ofNames_inj hne hplain hne' hplain' hsame)
  · exact hab.2 (deeper_of_isInside hne hplain hne' hplain' (beq_iff_eq.mp hext) hinside)

end Build

end PluginHelp
