/-
Standalone files that are not autoloaded.

The page of a standalone file is named after the namespace of the file, and only files in the
autoload folder have one.  Yet a file is taken for standalone by how its path begins, and the slash
after the name of the folder is not asked for.  So a source file in the root of the plugin is taken
for standalone as well if its name begins like that of the folder.  Such a file is a stray, and there
are no others: of the folders that are looked into, only one begins that way.

The files in the root are found first, and no other file claims one of them.  So the first stray is
met right after the main page is merged, before any other page is begun, and ends the work.  Without
strays, all that is claimed lies in the autoload folder.
-/
import PluginHelp.Proofs.Build.Written

namespace PluginHelp

open Act

namespace Build

/-! ### Where files are found -/

/-- A file right in the root of a plugin. -/
def InRoot (root : Node) (path : String) : Prop :=
  ∃ children text, root = .folder children ∧ (path, Node.file text) ∈ children

/-- A file in the root whose name begins like that of the autoload folder. -/
def IsStray (root : Node) (path : String) : Prop :=
  InRoot root path ∧ Text.beginsWith "autoload" path = true

theorem InRoot.plain {root : Node} {path : String} (hroot : root.Proper) (h : InRoot root path) :
    '/' ∉ path.toList := by
  obtain ⟨children, text, rfl, hchild⟩ := h
  obtain ⟨-, hplain, -⟩ := Node.proper_folder_iff.mp hroot
  exact hplain path (List.mem_map_of_mem hchild)

theorem crawled_of_folders {way : List String} {children : List (String × Node)}
    {found : String × List (List String × Option String)}
    (h : found ∈ Sorting.sortByKey (·.1) (children.filterMap (folderChild way))) :
    isCrawled way found.1 = true := by
  obtain ⟨⟨name, node⟩, -, hfound⟩ :=
    List.mem_filterMap.mp ((Sorting.sortByKey_perm _ _).mem_iff.mp h)
  cases node with
  | file text => cases hfound
  | folder inside =>
      rw [folderChild] at hfound
      split at hfound
      · obtain rfl := Option.some.inj hfound
        assumption
      · cases hfound

/-- A path that leads through a folder that is looked into. -/
def ThroughFolder (path : String) : Prop :=
  ∃ folder inside, isCrawled [] folder = true ∧ path = folder ++ "/" ++ inside

/-- The files in the root come before those in its folders. -/
theorem filesBelow_root {root : Node} (h : root.Proper) :
    ∃ top below, filesBelow [] root = top ++ below
      ∧ (∀ found ∈ top, InRoot root (Path.ofNames found.1))
      ∧ ∀ found ∈ below, ThroughFolder (Path.ofNames found.1) := by
  cases h with
  | file text =>
      refine ⟨[], [], by rw [filesBelow]; rfl, ?_, ?_⟩ <;> simp
  | @folder children unique plain inside =>
      refine ⟨_, _, filesBelow_folder [] children, ?_, ?_⟩
      · intro found hfound
        obtain ⟨file, hfile, rfl⟩ := List.mem_map.mp hfound
        refine ⟨children, file.2, rfl, ?_⟩
        rw [List.nil_append, Path.ofNames, String.intercalate_singleton]
        exact mem_files hfile
      · intro found hfound
        obtain ⟨folder, hfolder, hbelow⟩ := List.mem_flatMap.mp hfound
        obtain ⟨node, hchild, hfiles⟩ := mem_folders hfolder
        rw [hfiles] at hbelow
        obtain ⟨rest, hne, -, hway⟩ := filesBelow_below (inside _ hchild) _ found hbelow
        obtain ⟨name, names, rfl⟩ := List.exists_cons_of_ne_nil hne
        refine ⟨folder.1, Path.ofNames (name :: names), crawled_of_folders hfolder, ?_⟩
        rw [hway, List.nil_append, List.singleton_append, Path.ofNames,
          String.intercalate_cons_cons]
        rfl

/-- What is known of the places of files that were found. -/
structure Placed (root : Node) (top below : List SourceFile) : Prop where
  top : ∀ f ∈ top, InRoot root f.path
  below : ∀ f ∈ below, ThroughFolder f.path

/-- The same of the source files that were read. -/
theorem placed_of_paths {root : Node} (hroot : root.Proper) {files : List SourceFile}
    (hpaths : files.map (·.path) = (sourceFiles root).map (·.1)) :
    ∃ top below, files = top ++ below ∧ Placed root top below := by
  obtain ⟨top, below, hfiles, htop, hbelow⟩ := filesBelow_root hroot
  rw [sourceFiles, hfiles, List.map_append, List.filter_append, List.map_append] at hpaths
  obtain ⟨rootFiles, others, rfl, hrootFiles, hothers⟩ := List.map_eq_append_iff.mp hpaths
  -- A file that was read is one of those that were found there.
  have hplace {read : List SourceFile} {found : List (List String × Option String)}
      {P : String → Prop} (hfound : ∀ a ∈ found, P (Path.ofNames a.1))
      (hread : read.map (·.path) = ((found.map fun a => (Path.ofNames a.1, a.2)).filter fun a =>
        (Path.splitExtension a.1).2 == ".vim").map (·.1)) :
      ∀ f ∈ read, P f.path := by
    intro f hf
    have hmem : f.path ∈ read.map (·.path) := List.mem_map_of_mem hf
    rw [hread] at hmem
    obtain ⟨kept, hkept, hpath⟩ := List.mem_map.mp hmem
    obtain ⟨a, ha, rfl⟩ := List.mem_map.mp (List.mem_filter.mp hkept).1
    rw [← hpath]
    exact hfound a ha
  exact ⟨rootFiles, others, rfl, hplace htop hrootFiles, hplace hbelow hothers⟩

/-- Of the folders that are looked into, only one begins like the autoload folder. -/
theorem ThroughFolder.autoload {path : String} (h : ThroughFolder path)
    (hbegins : Text.beginsWith "autoload" path = true) :
    ∃ inside, path = "autoload" ++ "/" ++ inside := by
  obtain ⟨folder, inside, hcrawled, rfl⟩ := h
  have hname : folder = "after" ∨ folder ∈ codeFolders := by
    simpa [isCrawled] using hcrawled
  simp only [codeFolders, List.mem_cons, List.not_mem_nil, or_false] at hname
  rcases hname with rfl | rfl | rfl | rfl | rfl | rfl | rfl | rfl | rfl | rfl
  on_goal 4 => exact ⟨inside, rfl⟩
  all_goals simp [Text.beginsWith] at hbegins

theorem insideAutoload?_append (inside : String) :
    insideAutoload? ("autoload" ++ "/" ++ inside) = some inside := by
  simp [insideAutoload?, Text.dropHead?]

/-- A path without slashes does not lie in the autoload folder. -/
theorem spaceOf_of_plain {path : String} (h : '/' ∉ path.toList) : spaceOf path = none := by
  rw [spaceOf, Option.map_eq_none_iff]
  cases hinside : insideAutoload? path with
  | none => rfl
  | some inside =>
      rw [eq_of_insideAutoload? hinside] at h
      simp at h

end Build

/-! ### What merging may fail for -/

/-- The causes for which merging an entry may fail. -/
def Cause.OfMerging : Cause → Prop
  | ambiguousEntry | duplicateSection _ | duplicateBackmatter _ | noSuchPlace => True
  | cause => cause.OfEntry

/-- A step that fails only as merging may. -/
abbrev FailsAsMerging {σ α : Type} (act : Act σ α) : Prop :=
  Keeps (fun _ => True) Cause.OfMerging act

namespace Plugin

theorem consume_fails {e : Entry} (h : e.speaks = true) : FailsAsMerging (consume e) := by
  refine consume_of_puts (fun hsilent => ?_) (fun _ => trivial) (fun _ => trivial)
    (fun _ _ _ => trivial) fun _ _ _ => trivial
  rw [h] at hsilent
  cases hsilent

theorem collections_add_fails (collections : Collections) (kind : Value) (e : Entry) :
    Covers Cause.OfMerging (collections.add kind e) := by
  unfold Collections.add Collections.entries
  refine Covers.ite (fun _ => Covers.ok _) fun _ => Covers.bind ?_ fun _ _ => Covers.ok _
  exact Covers.ite (fun _ => Covers.ok _) fun _ => Covers.error trivial

theorem add_fails (e : Entry) : FailsAsMerging (add e) := by
  unfold add
  refine Keeps.ite (fun hspeaks => consume_fails hspeaks) fun _ => Keeps.get.bind fun p => ?_
  refine Keeps.bind (Keeps.ofExcept (collections_add_fails _ _ _)) fun _ => ?_
  exact Keeps.modify fun _ _ => trivial

end Plugin

namespace Page

theorem onPage_fails {α : Type} {act : Act Page α} (h : FailsAsMerging act) :
    FailsAsMerging (Context.onPage act) :=
  Keeps.on (fun _ _ => trivial) (fun _ _ _ _ => trivial) h

theorem takeIn_fails (e : Entry) : FailsAsMerging (takeIn e) := by
  have horder : FailsAsMerging (takeOrder e) := by
    unfold takeOrder
    split
    · exact Keeps.pure ()
    · refine Keeps.get.bind fun p => Keeps.ite (fun _ => ?_) fun _ => Keeps.fail trivial
      exact Keeps.modify fun _ _ => trivial
  have hsection : FailsAsMerging (addSection e) :=
    Keeps.get.bind fun p =>
      Keeps.bind (Keeps.ofExcept (settle_covers (fun _ => trivial) trivial _ _ _)) fun _ =>
        Keeps.modify fun _ _ => trivial
  have hbackmatter : FailsAsMerging (addBackmatter e) :=
    Keeps.get.bind fun p =>
      Keeps.bind (Keeps.ofExcept (settle_covers (fun _ => trivial) trivial _ _ _)) fun _ =>
        Keeps.modify fun _ _ => trivial
  have hplugin : FailsAsMerging (Context.onPlugin (Plugin.add e)) :=
    Keeps.on (fun _ _ => trivial) (fun _ _ _ _ => trivial) (Plugin.add_fails e)
  exact takeIn_of_steps (onPage_fails horder) hplugin (fun _ => onPage_fails hsection)
    (fun _ => onPage_fails hbackmatter)
    (fun collections kind => Plugin.collections_add_fails collections kind e) fun _ _ _ _ _ => trivial

theorem merge_fails (e : Entry) (space : Value) : FailsAsMerging (merge e space) :=
  merge_of_takeIn trivial (fun _ => trivial) (takeIn_fails _)

end Page

theorem Book.mergeAll_fails (i : Nat) (space : Value) (entries : List Entry) :
    FailsAsMerging (Book.mergeAll i space entries) := by
  have hentries : FailsAsMerging (Act.each entries fun e => Page.merge e space) :=
    Keeps.each fun e _ => Page.merge_fails e space
  intro b _
  unfold Book.mergeAll Book.onPage
  split
  · refine ⟨trivial, fun fault hfault => ?_⟩
    obtain rfl := Except.error.inj hfault
    trivial
  · exact ⟨trivial, (hentries _ trivial).2⟩

namespace Build

/-! ### Files that are claimed -/

variable {standalones : List String} {files : List SourceFile}

/-- What is refused if a file that is claimed has no namespace. -/
def notAutoloaded : Cause :=
  .assumption "Standalone files are autoloaded."

theorem notAutoloaded_of_merging {cause : Cause} (h : cause.OfMerging) : cause ≠ notAutoloaded := by
  rintro rfl
  have hwhat : "Standalone files are autoloaded." = Entry.usageAssumption := h
  exact absurd hwhat (by decide)

theorem mergeMain_cause (standalones : List String) (files : List SourceFile) :
    FailsAsMerging (mergeMain standalones files) :=
  Keeps.each fun _ _ => Book.mergeAll_fails _ _ _

/-- If all that is claimed has a namespace, nothing but merging can fail. -/
theorem mergeStandalone_cause (begun : Table String Nat)
    (h : ∀ f ∈ files, (standaloneOf standalones f.path).isSome → (spaceOf f.path).isSome) :
    FailsAsMerging (mergeStandalone standalones begun files) := by
  induction files generalizing begun with
  | nil => exact Keeps.pure ()
  | cons f rest ih =>
      obtain ⟨hf, hrest⟩ := List.forall_mem_cons.mp h
      rw [mergeStandalone]
      cases hclaimed : standaloneOf standalones f.path with
      | none => exact ih begun hrest
      | some standalone =>
          rw [hclaimed] at hf
          obtain ⟨space, hspace⟩ := Option.isSome_iff_exists.mp (hf rfl)
          rw [hspace]
          dsimp only
          split
          · exact (Book.mergeAll_fails _ _ _).bind fun _ => ih begun hrest
          · refine Keeps.get.bind fun b => Keeps.bind (Keeps.modify fun _ _ => trivial) fun _ => ?_
            exact (Book.mergeAll_fails _ _ _).bind fun _ => ih _ hrest

/-- The first file that is claimed is refused if it has no namespace. -/
theorem mergeStandalone_refuses {before after : List SourceFile} {f : SourceFile}
    (hbefore : ∀ g ∈ before, standaloneOf standalones g.path = none)
    (hclaimed : (standaloneOf standalones f.path).isSome) (hspace : spaceOf f.path = none)
    (begun : Table String Nat) :
    mergeStandalone standalones begun (before ++ f :: after) = Act.fail notAutoloaded := by
  induction before with
  | nil =>
      obtain ⟨standalone, hstandalone⟩ := Option.isSome_iff_exists.mp hclaimed
      rw [List.nil_append, mergeStandalone, hstandalone, hspace]
      rfl
  | cons g before ih =>
      obtain ⟨hg, hbefore⟩ := List.forall_mem_cons.mp hbefore
      rw [List.cons_append, mergeStandalone, hg]
      exact ih hbefore

/-- What a file in the autoload folder claims lies there too. -/
theorem space_of_claims {s path : String} {inside : String} (hs : s = "autoload" ++ "/" ++ inside)
    (hext : (Path.splitExtension s).2 = ".vim") (hclaims : claims s path = true) :
    (spaceOf path).isSome := by
  obtain ⟨below, hbelow⟩ : ∃ below, path = "autoload" ++ "/" ++ below := by
    rcases claims_iff.mp hclaims with rfl | hinside
    · exact ⟨inside, hs⟩
    · have hstem : Path.stem s = "autoload" ++ "/" ++ Path.stem inside := by
        have hsplit := Path.stem_append_extension s
        have hinner := Path.stem_append_extension inside
        rw [hext] at hsplit
        rw [hs, Path.extension_append_slash] at hext
        rw [hext] at hinner
        have hsame : (Path.stem s).toList ++ ".vim".toList
            = ("autoload" ++ "/" ++ Path.stem inside).toList ++ ".vim".toList := by
          rw [← String.toList_append, ← String.toList_append, hsplit, String.append_assoc, hinner, hs]
        exact String.toList_inj.mp (List.append_cancel_right hsame)
      obtain ⟨rest, hrest⟩ := Path.isInside_iff.mp hinside
      refine ⟨Path.stem inside ++ "/" ++ String.ofList rest, String.toList_inj.mp ?_⟩
      rw [hrest, hstem]
      simp
  rw [spaceOf, hbelow, insideAutoload?_append]
  rfl

theorem claimed_iff {path : String} :
    (standaloneOf ((files.filter isStandalone).map (·.path)) path).isSome
      ↔ ∃ s ∈ files, isStandalone s = true ∧ claims s.path path = true := by
  rw [standaloneOf_paths, Option.isSome_map, ← Option.ne_none_iff_isSome, Ne,
    owner?_eq_none_iff]
  simp

/-! ### Strays -/

variable {root : Node} {top below : List SourceFile}

/-- A file whose path begins like the autoload folder lies in it, or else it is a stray. -/
theorem Placed.autoload_iff (h : Placed root top below) (hroot : root.Proper) {f : SourceFile}
    (hf : f ∈ top ++ below) (hbegins : Text.beginsWith "autoload" f.path = true) :
    (∃ inside, f.path = "autoload" ++ "/" ++ inside) ↔ ¬IsStray root f.path := by
  constructor
  · rintro ⟨inside, hpath⟩ ⟨hin, -⟩
    have hplain := hin.plain hroot
    rw [hpath] at hplain
    simp at hplain
  · intro hstray
    rcases List.mem_append.mp hf with htop | hbelow
    · exact absurd ⟨h.top f htop, hbegins⟩ hstray
    · exact (h.below f hbelow).autoload hbegins

/-- A file in the root is not among those in the folders. -/
theorem Placed.mem_top (h : Placed root top below) (hroot : root.Proper) {f : SourceFile}
    (hf : f ∈ top ++ below) (hin : InRoot root f.path) : f ∈ top := by
  rcases List.mem_append.mp hf with htop | hbelow
  · exact htop
  · obtain ⟨folder, inside, -, hpath⟩ := h.below f hbelow
    have hplain := hin.plain hroot
    rw [hpath] at hplain
    simp at hplain

theorem begins_of_standalone {s : SourceFile} (h : isStandalone s = true) :
    Text.beginsWith "autoload" s.path = true :=
  (Bool.and_eq_true _ _ ▸ h).1

/-- If a file in the root is claimed, the first one that is ends the work. -/
theorem Placed.refuses (h : Placed root top below) (hroot : root.Proper) {f : SourceFile}
    (hf : f ∈ top) (hclaimed : (standaloneOf standalones f.path).isSome)
    (begun : Table String Nat) :
    mergeStandalone standalones begun (top ++ below) = Act.fail notAutoloaded := by
  have hfind : (top.find? fun g => (standaloneOf standalones g.path).isSome).isSome :=
    List.find?_isSome.mpr ⟨f, hf, hclaimed⟩
  obtain ⟨first, hfirst⟩ := Option.isSome_iff_exists.mp hfind
  obtain ⟨hfirstClaimed, before, after, rfl, hbefore⟩ := List.find?_eq_some_iff_append.mp hfirst
  rw [List.append_assoc, List.cons_append]
  refine mergeStandalone_refuses (fun g hg => ?_) hfirstClaimed ?_ begun
  · simpa using hbefore g hg
  · exact spaceOf_of_plain ((h.top first (by simp)).plain hroot)

/-- Merging all files begins with the main page. -/
theorem mergeFiles_eq (files : List SourceFile) (plugin : Plugin) :
    mergeFiles files { plugin }
      = (mergeMain ((files.filter isStandalone).map (·.path)) files >>= fun _ =>
          mergeStandalone ((files.filter isStandalone).map (·.path)) [] files)
        { plugin, pages := [{ name := plugin.name }] } := by
  rw [mergeFiles, get_bind_apply, Book.addPage, modify_bind_apply]
  rfl

/-- A file that is taken for standalone lies in the autoload folder, unless it is a stray.  Merging
the files of a plugin is refused for want of a namespace exactly if the main page is merged and there
is a stray that is taken for standalone. -/
theorem standalone_autoloaded_unless_stray {folder : String} {desk read : Desk}
    {readWarnings : List Warning} {plugin : Plugin} (hroot : root.Proper)
    (hread : readSources folder (sourceFiles root) desk = ⟨read, readWarnings, .ok files⟩) :
    (∀ s ∈ files, isStandalone s = true →
      ((∃ inside, s.path = "autoload" ++ "/" ++ inside) ↔ ¬IsStray root s.path))
    ∧ ((mergeFiles files { plugin }).result = .error { cause := notAutoloaded }
      ↔ (mergeMain ((files.filter isStandalone).map (·.path)) files
            { plugin, pages := [{ name := plugin.name }] }).result = .ok ()
        ∧ ∃ s ∈ files, isStandalone s = true ∧ IsStray root s.path) := by
  have hpaths := (readSources_paths folder (sourceFiles root) desk).of_ok hread
  have hfound := found_of_paths hroot hpaths
  obtain ⟨top, below, rfl, hplaced⟩ := placed_of_paths hroot hpaths
  have hplace : ∀ s ∈ top ++ below, isStandalone s = true →
      ((∃ inside, s.path = "autoload" ++ "/" ++ inside) ↔ ¬IsStray root s.path) :=
    fun s hs hstandalone => hplaced.autoload_iff hroot hs (begins_of_standalone hstandalone)
  refine ⟨hplace, ?_⟩
  rw [mergeFiles_eq]
  have hmain := mergeMain_cause (((top ++ below).filter isStandalone).map (·.path)) (top ++ below)
    { plugin, pages := [{ name := plugin.name }] } trivial
  rcases hrun : mergeMain (((top ++ below).filter isStandalone).map (·.path)) (top ++ below)
    { plugin, pages := [{ name := plugin.name }] } with ⟨b, warnings, fault | _⟩
  · -- The main page fails for a cause of its own.
    rw [hrun] at hmain
    rw [bind_apply_error _ hrun]
    refine ⟨fun h => ?_, fun h => by cases h.1⟩
    obtain rfl := Except.error.inj h
    exact absurd rfl (notAutoloaded_of_merging (hmain.2 _ rfl))
  · rw [bind_apply_ok _ hrun]
    refine ⟨fun h => ⟨rfl, ?_⟩, fun h => ?_⟩
    · by_contra hnone
      have hspaces : ∀ f ∈ top ++ below,
          (standaloneOf (((top ++ below).filter isStandalone).map (·.path)) f.path).isSome →
          (spaceOf f.path).isSome := by
        intro f _ hclaimed
        obtain ⟨s, hs, hstandalone, hclaims⟩ := claimed_iff.mp hclaimed
        obtain ⟨inside, hinside⟩ := (hplace s hs hstandalone).mpr fun hstray =>
          hnone ⟨s, hs, hstandalone, hstray⟩
        exact space_of_claims hinside (hfound.extension s hs) hclaims
      have hcause := (mergeStandalone_cause [] hspaces b trivial).2 _ h
      exact absurd rfl (notAutoloaded_of_merging hcause)
    · obtain ⟨-, s, hs, hstandalone, hstray⟩ := h
      have htop := hplaced.mem_top hroot hs hstray.1
      rw [hplaced.refuses hroot htop (claimed_iff.mpr ⟨s, hs, hstandalone, claims_self _⟩)]
      rfl

/-- Of two files that are taken for standalone, one is in the autoload folder and the other one is
beside it, and merging is refused because of that one. -/
theorem standalone_autoloaded_unless_stray_beside :
    let text := "\"\" @section Notes, intro\n\" @standalone\n\n"
    let root : Node := .folder
      [("autoload", .folder [("demo.vim", .file (some text))]), ("autoload.vim", .file (some text))]
    let desk : Desk := { disk := ⟨.folder [("demo", root)], []⟩ }
    ∃ read readWarnings files, root.Proper
      ∧ readSources "demo" (sourceFiles root) desk = ⟨read, readWarnings, .ok files⟩
      ∧ files.map (fun f => (f.path, isStandalone f))
        = [("autoload.vim", true), ("autoload/demo.vim", true)]
      ∧ IsStray root "autoload.vim"
      ∧ (mergeFiles files { plugin := { name := .text "demo" } }).result
        = .error { cause := notAutoloaded } := by
  intro text root desk
  have hroot : root.Proper := by
    simp [root, Path.ArePlain, Node.proper_folder_iff, Node.Proper.file]
  have hvalues : (readSources "demo" (sourceFiles root) desk).result.toOption.map (fun files =>
      (files.map (fun f => (f.path, isStandalone f)),
        (mergeMain ((files.filter isStandalone).map (·.path)) files
          { plugin := { name := .text "demo" }, pages := [{ name := .text "demo" }] }).result
          |>.toOption))
      = some ([("autoload.vim", true), ("autoload/demo.vim", true)], some ()) := by
    decide +kernel
  obtain ⟨files, hfiles, hvalues⟩ := Option.map_eq_some_iff.mp hvalues
  obtain ⟨hpaths, hmerged⟩ := Prod.mk.inj hvalues
  have hread := eq_ok_of_toOption hfiles
  have hmain := congrArg Outcome.result (eq_ok_of_toOption hmerged)
  have hstray : IsStray root "autoload.vim" := ⟨⟨_, some text, rfl, by simp⟩, rfl⟩
  obtain ⟨s, hs, hpath⟩ : ∃ s ∈ files, (s.path, isStandalone s) = ("autoload.vim", true) := by
    refine List.mem_map.mp ?_
    rw [hpaths]
    exact List.mem_cons_self
  obtain ⟨hpath, hstandalone⟩ := Prod.mk.inj hpath
  refine ⟨_, _, files, hroot, hread, hpaths, hstray, ?_⟩
  refine (standalone_autoloaded_unless_stray hroot hread).2.mpr ⟨hmain, s, hs, hstandalone, ?_⟩
  rw [hpath]
  exact hstray

end Build

end PluginHelp
