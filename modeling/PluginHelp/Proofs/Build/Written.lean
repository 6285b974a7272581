/-
The files that the pages of a plugin are written to.

The file of a page has the name of the page, with dashes for number signs, and the page of a
standalone file is named after the path of that file, with number signs for slashes.  Both signs end
up as dashes, and nothing tells them from the dashes that were there.  So two pages may have the
same file, and the one that is written later is the one that stays.  What is proved here is when
this happens, and that fewer files than pages are written then and only then.
-/
import Mathlib.Data.List.Nodup
import PluginHelp.Proofs.Build.Standalone
import PluginHelp.Proofs.Files.Disk
import PluginHelp.Proofs.Table

namespace PluginHelp

open Act

namespace Build

/-! ### Names of help files -/

/-- A name with dashes for number signs. -/
def dashed (name : String) : String :=
  Text.replaceChar '#' '-' name

/-- The file of a page with a name. -/
def fileOf (name : String) : String :=
  dashed name ++ ".txt"

/-- Whether a character separates the parts of a path or of a namespace. -/
def isSeparator (c : Char) : Bool :=
  c == '/' || c == '#'

/-- What is left of the path of a file in the name of its help file: it has no extension and no
separators at its end, and all other separators are dashes. -/
def leafName (inside : String) : String :=
  String.ofList ((Text.dropEndWhile isSeparator (Path.stem inside).toList).map fun c =>
    if isSeparator c then '-' else c)

theorem fileName_eq_ok_iff {page : Page} {file : String} :
    Help.fileName page = .ok file ↔ ∃ name, page.name = .text name ∧ file = fileOf name := by
  unfold Help.fileName
  split
  · rename_i name hname
    rw [hname]
    simp [fileOf, dashed, eq_comm]
  · rename_i hname
    constructor
    · intro h
      cases h
    · rintro ⟨name, htext, -⟩
      exact (hname name htext).elim

/-- The name of the page of an autoloaded file, with dashes for number signs. -/
theorem dashed_pageName (inside : String) :
    dashed (pageName (autoloadSpace inside)) = leafName inside := by
  have hspace : (autoloadSpace inside).toList.reverse
      = '#' :: (Path.stem inside).toList.reverse.map fun c => if c == '/' then '#' else c := by
    simp [autoloadSpace, Text.replaceChar]
  have hsign (c : Char) : ((if c == '/' then '#' else c) == '#') = isSeparator c := by
    by_cases hc : c = '/' <;> simp [isSeparator, hc]
  have hdash (c : Char) : (if isSeparator c then '-' else if c == '/' then '#' else c)
      = if isSeparator c then '-' else c := by
    by_cases hc : c = '/' <;> simp [isSeparator, hc]
  unfold dashed pageName leafName Text.replaceChar Text.dropEndWhile
  rw [hspace, List.dropWhile_cons_of_pos rfl, List.dropWhile_map]
  simp only [String.toList_ofList, List.map_reverse, List.map_map, Function.comp_def, hsign, hdash]

theorem isName_fileOf {name : String} (h : '/' ∉ name.toList) : Path.IsName (fileOf name) := by
  have hlist : (fileOf name).toList
      = (name.toList.map fun c => if c == '#' then '-' else c) ++ ['.', 't', 'x', 't'] := by
    simp [fileOf, dashed, Text.replaceChar]
  have hlong (short : String) (hshort : short.length < 4) : fileOf name ≠ short := by
    intro heq
    have hlength := congrArg List.length hlist
    rw [heq, String.length_toList, List.length_append] at hlength
    simp at hlength
    omega
  refine ⟨?_, hlong _ (by decide), hlong _ (by decide), hlong _ (by decide)⟩
  rw [hlist, List.mem_append, not_or]
  refine ⟨fun hmem => ?_, by simp⟩
  obtain ⟨c, hc, hslash⟩ := List.mem_map.mp hmem
  split at hslash
  · cases hslash
  · exact h (hslash ▸ hc)

theorem pageName_plain (inside : String) : '/' ∉ (pageName (autoloadSpace inside)).toList := by
  obtain ⟨signs, hspace, -⟩ := pageName_eq (autoloadSpace inside)
  intro hmem
  have hslash : '/' ∈ (autoloadSpace inside).toList := by
    rw [hspace]
    exact List.mem_append_left _ hmem
  rw [autoloadSpace, Text.replaceChar, String.toList_append, String.toList_ofList, List.mem_append]
    at hslash
  rcases hslash with hslash | hslash
  · obtain ⟨c, -, hc⟩ := List.mem_map.mp hslash
    split at hc
    · cases hc
    · rename_i hne
      exact hne (beq_iff_eq.mpr hc)
  · simp at hslash

/-- Without dashes and number signs on a path, it can be read off what is left of it. -/
theorem stem_eq {inside : String} (hext : (Path.splitExtension inside).2 = ".vim")
    (h : '-' ∉ inside.toList ∧ '#' ∉ inside.toList) :
    Path.stem inside = Text.replaceChar '-' '/' (leafName inside) := by
  have hstem (c : Char) (hc : c ∈ (Path.stem inside).toList) : c ∈ inside.toList := by
    rw [← Path.stem_append_extension inside, String.toList_append]
    exact List.mem_append_left _ hc
  have hend : Text.dropEndWhile isSeparator (Path.stem inside).toList
      = (Path.stem inside).toList := by
    have hlast := Path.getLast?_stem hext
    rw [← List.head?_reverse] at hlast
    rw [Text.dropEndWhile, List.reverse_eq_iff]
    cases hlist : (Path.stem inside).toList.reverse with
    | nil => rfl
    | cons c rest =>
        have hslash : c ≠ '/' := fun heq => hlast (by rw [hlist, heq]; rfl)
        have hsign : c ≠ '#' := fun heq =>
          h.2 (hstem '#' (List.mem_reverse.mp (by rw [hlist, heq]; exact List.mem_cons_self)))
        exact List.dropWhile_cons_of_neg (by simp [isSeparator, hslash, hsign])
  have hback (c : Char) (hc : c ∈ (Path.stem inside).toList) :
      (if (if isSeparator c then '-' else c) == '-' then '/' else if isSeparator c then '-' else c)
        = c := by
    have hdash : c ≠ '-' := fun heq => h.1 (heq ▸ hstem c hc)
    have hsign : c ≠ '#' := fun heq => h.2 (heq ▸ hstem c hc)
    by_cases hslash : c = '/' <;> simp [isSeparator, hdash, hsign, hslash]
  rw [leafName, hend, Text.replaceChar, String.toList_ofList, List.map_map, Function.comp_def,
    List.map_congr_left hback, List.map_id', String.ofList_toList]

/-- Files without dashes and number signs on their paths are told by what is left of these. -/
theorem leafName_inj {inside other : String} (hext : (Path.splitExtension inside).2 = ".vim")
    (hext' : (Path.splitExtension other).2 = ".vim")
    (h : '-' ∉ inside.toList ∧ '#' ∉ inside.toList)
    (h' : '-' ∉ other.toList ∧ '#' ∉ other.toList) (heq : leafName inside = leafName other) :
    inside = other := by
  rw [← Path.stem_append_extension inside, ← Path.stem_append_extension other, hext, hext',
    stem_eq hext h, stem_eq hext' h', heq]

/-! ### Writing the pages -/

/-- The way to the file of a page with a name. -/
def wayOf (place : List String) (folder name : String) : List String :=
  Path.walk place (Path.join folder (fileOf name))

/-- What a desk has become when pages were written.  A row holds the name of a page and its text. -/
structure Wrote (folder : String) (desk : Desk) (rows : List (String × String)) (t : Desk) :
    Prop where
  reached : t.reached = desk.reached ++ rows.map fun row => (row.1, fileOf row.1)
  place : t.disk.place = desk.disk.place
  written : t.written
    = desk.written.setAll (rows.map fun row => (wayOf desk.disk.place folder row.1, row.2))

variable {folder : String} {desk : Desk}

theorem Wrote.trans {rows more : List (String × String)} {t u : Desk}
    (h : Wrote folder desk rows t) (k : Wrote folder t more u) :
    Wrote folder desk (rows ++ more) u where
  reached := by
    rw [k.reached, h.reached, List.map_append, List.append_assoc]
  place := k.place.trans h.place
  written := by
    rw [k.written, h.written, h.place, List.map_append, Table.setAll_append]

/-- A page that is written goes into the file that its name gives. -/
theorem writePage_ensures (folder : String) (c : Context) (desk : Desk) :
    Ensures (writePage folder c) desk (fun _ t => ∃ name text, c.page.name = .text name
      ∧ Wrote folder desk [(name, text)] t) (fun _ => True) := by
  unfold writePage
  refine Ensures.ofExcept_bind (fun _ _ => trivial) fun file hfile => Ensures.modify_bind ?_
  refine Ensures.get_bind (Ensures.ofExcept_bind (fun _ _ => trivial) fun written hwritten => ?_)
  obtain ⟨way, disk⟩ := written
  obtain ⟨name, hname, rfl⟩ := fileName_eq_ok_iff.mp hfile
  obtain ⟨rfl, hplace⟩ := Disk.writeFile_eq hwritten
  refine Ensures.modify_bind ?_
  split
  · refine Ensures.pure ⟨name, _, hname, ?_, hplace, rfl⟩
    rw [hname]
    rfl
  · trivial

/-- Finishing a page leaves the names of all pages alone, and writes that page. -/
theorem finishPage_ensures (folder : String) {b : Book} {i : Nat} (hi : i < b.pages.length)
    (desk : Desk) :
    Ensures (finishPage folder b i) desk (fun after t =>
      after.pages.map (·.name) = b.pages.map (·.name)
      ∧ ∃ name text, (b.pages.map (·.name))[i]? = some (.text name)
        ∧ Wrote folder desk [(name, text)] t) (fun _ => True) := by
  have hnames := Book.names_onPage Page.close_name i b
  unfold finishPage
  refine Ensures.within_bind (fun _ _ => trivial) ?_
  generalize (Book.onPage i Page.close b).state = after at hnames ⊢
  have hlength : after.pages.length = b.pages.length := by
    simpa using congrArg List.length hnames
  have hpage : after.pages[i]? = some after.pages[i] := List.getElem?_eq_getElem (hlength ▸ hi)
  rw [hpage]
  refine Ensures.bind (writePage_ensures folder _ desk) fun _ t hwrote => Ensures.pure ⟨hnames, ?_⟩
  obtain ⟨name, text, hname, hwrote⟩ := hwrote
  refine ⟨name, text, ?_, hwrote⟩
  rw [← hnames, List.getElem?_map, hpage, ← hname]
  rfl

/-- Finishing pages writes each of them. -/
theorem finishPages_ensures (folder : String) {places : List Nat} {b : Book}
    (hplaces : ∀ i ∈ places, i < b.pages.length) (desk : Desk) :
    Ensures (finishPages folder b places) desk (fun _ t => ∃ rows,
      places.map (fun i => (b.pages.map (·.name))[i]?) = rows.map (fun row => some (.text row.1))
      ∧ Wrote folder desk rows t) (fun _ => True) := by
  induction places generalizing b desk with
  | nil => exact Ensures.pure ⟨[], rfl, (List.append_nil _).symm, rfl, rfl⟩
  | cons i places ih =>
      obtain ⟨hi, hrest⟩ := List.forall_mem_cons.mp hplaces
      rw [finishPages]
      refine Ensures.bind (finishPage_ensures folder hi desk) fun after t hfirst => ?_
      obtain ⟨hnames, name, text, hname, hwrote⟩ := hfirst
      have hlength : after.pages.length = b.pages.length := by
        simpa using congrArg List.length hnames
      refine (ih (fun j hj => hlength ▸ hrest j hj) t).mono fun _ u hmore => ?_
      obtain ⟨rows, hrows, hwrites⟩ := hmore
      refine ⟨(name, text) :: rows, ?_, hwrote.trans hwrites⟩
      rw [List.map_cons, List.map_cons, hname, ← hrows, hnames]

/-! ### Pages that share a file -/

/-- The ways to the files of pages differ exactly if the names of the files do. -/
theorem ways_nodup_iff (place : List String) (folder : String) {names : List String}
    (h : ∀ name ∈ names, '/' ∉ name.toList) :
    (names.map (wayOf place folder)).Nodup ↔ (names.map dashed).Nodup := by
  have hways : names.map (wayOf place folder)
      = (names.map dashed).map fun leaf => Path.walk place folder ++ [leaf ++ ".txt"] := by
    rw [List.map_map]
    refine List.map_congr_left fun name hname => ?_
    exact Path.walk_join place folder (isName_fileOf (h name hname))
  rw [hways, List.nodup_map_iff]
  intro leaf other heq
  simpa using heq

/-- The names of the files of pages with given names. -/
theorem fileNames_eq {book : Book} {names : List String}
    (hnames : book.pages.map (·.name) = names.map .text) :
    book.pages.map Help.fileName = (names.map dashed).map fun leaf => .ok (leaf ++ ".txt") := by
  calc book.pages.map Help.fileName
      = (book.pages.map (·.name)).map fun name => Help.fileName { name } := by
        rw [List.map_map]
        rfl
    _ = (names.map dashed).map fun leaf => .ok (leaf ++ ".txt") := by
        rw [hnames, List.map_map, List.map_map]
        rfl

/-- The pages of a book with given names are reached one by one, and as many files as pages are
written exactly if the ways to them are distinct. -/
theorem finishPages_written {book : Book} {names : List String}
    (hnames : book.pages.map (·.name) = names.map .text) {docFolder : String}
    {before after : Desk} {warnings : List Warning} (hreached : before.reached = [])
    (hwritten : before.written = [])
    (h : finishPages docFolder book (List.range book.pages.length) before
      = ⟨after, warnings, .ok ()⟩) :
    after.reached = names.map (fun name => (name, fileOf name))
      ∧ (after.written.length = book.pages.length
        ↔ (names.map (wayOf before.disk.place docFolder)).Nodup) := by
  obtain ⟨rows, hrows, hwrote⟩ :=
    (finishPages_ensures docFolder (fun i hi => List.mem_range.mp hi) before).of_ok h
  have hall : (List.range book.pages.length).map (fun i => (book.pages.map (·.name))[i]?)
      = (book.pages.map (·.name)).map some := by
    refine List.ext_getElem (by simp) fun i hi _ => ?_
    have hlt : i < (book.pages.map (·.name)).length := by simpa using hi
    rw [List.getElem_map, List.getElem_range, List.getElem_map, List.getElem?_eq_getElem hlt]
  have htitles : names = rows.map (·.1) := by
    rw [hall, hnames, List.map_map] at hrows
    have hsame : names.map (some ∘ Value.text) = (rows.map (·.1)).map (some ∘ Value.text) := by
      rw [hrows, List.map_map]
      rfl
    refine List.map_injective_iff.mpr ?_ hsame
    intro name other heq
    exact Value.text.inj (Option.some.inj heq)
  have hlength : book.pages.length = rows.length := by
    simpa [htitles] using congrArg List.length hnames
  refine ⟨?_, ?_⟩
  · rw [hwrote.reached, hreached, htitles, List.map_map]
    rfl
  · have hrow : (rows.map fun row => (wayOf before.disk.place docFolder row.1, row.2)).length
        = rows.length := List.length_map _
    rw [hwrote.written, hwritten, hlength, ← hrow, Table.length_setAll_iff, htitles, Table.keys,
      List.map_map, List.map_map]
    rfl

theorem eq_of_insideAutoload? {path inside : String} (h : insideAutoload? path = some inside) :
    path = "autoload" ++ "/" ++ inside := by
  unfold insideAutoload? Text.dropHead? at h
  split at h
  · rename_i hbegins
    obtain ⟨rest, hrest⟩ := List.isPrefixOf_iff_prefix.mp hbegins
    obtain rfl := Option.some.inj h
    refine String.toList_inj.mp ?_
    rw [← hrest, List.drop_left]
    simp
  · cases h

/-- The paths inside the autoload folder of the files that have a page of their own. -/
def ownInsides (files : List SourceFile) : List String :=
  (files.filter (hasOwnPage files)).filterMap fun s => insideAutoload? s.path

/-- All files that have a page of their own lie inside the autoload folder. -/
theorem ownInsides_eq {files : List SourceFile} (hfound : Found files)
    (hspaces : ∀ f ∈ files, (owner? files f.path).isSome → (spaceOf f.path).isSome) :
    (files.filter (hasOwnPage files)).map (fun s => insideAutoload? s.path)
      = (ownInsides files).map some := by
  have hall {items : List SourceFile}
      (h : ∀ s ∈ items, (insideAutoload? s.path).isSome) :
      items.map (fun s => insideAutoload? s.path)
        = (items.filterMap fun s => insideAutoload? s.path).map some := by
    induction items with
    | nil => rfl
    | cons s items ih =>
        obtain ⟨hs, hitems⟩ := List.forall_mem_cons.mp h
        obtain ⟨inside, hinside⟩ := Option.isSome_iff_exists.mp hs
        rw [List.map_cons, List.filterMap_cons, hinside, ih hitems]
        rfl
  refine hall fun s hs => ?_
  obtain ⟨hmem, hown⟩ := List.mem_filter.mp hs
  have hspace := hspaces s hmem (by rw [(hfound.hasOwnPage_iff hmem).mp hown]; rfl)
  rwa [spaceOf, Option.isSome_map] at hspace

theorem titles_eq {files : List SourceFile}
    (h : (files.filter (hasOwnPage files)).map (fun s => insideAutoload? s.path)
      = (ownInsides files).map some) :
    (files.filter (hasOwnPage files)).map titleOf
      = (ownInsides files).map fun inside => .text (pageName (autoloadSpace inside)) := by
  calc (files.filter (hasOwnPage files)).map titleOf
      = ((files.filter (hasOwnPage files)).map fun s => insideAutoload? s.path).map
        fun inside => .text (pageName ((inside.map autoloadSpace).getD "")) := by
        rw [List.map_map]
        rfl
    _ = (ownInsides files).map fun inside => .text (pageName (autoloadSpace inside)) := by
        rw [h, List.map_map]
        rfl

/-- The paths of two different files with pages of their own differ. -/
theorem ownInsides_nodup {files : List SourceFile} (hfound : Found files) :
    (ownInsides files).Nodup := by
  have hpaths : ownInsides files
      = ((files.filter (hasOwnPage files)).map (·.path)).filterMap insideAutoload? := by
    rw [List.filterMap_map]
    rfl
  rw [hpaths]
  refine List.Nodup.filterMap ?_ (hfound.distinct.sublist (List.filter_sublist.map _))
  intro path other inside hpath hother
  rw [eq_of_insideAutoload? hpath, eq_of_insideAutoload? hother]

theorem extension_of_ownInsides {files : List SourceFile} (hfound : Found files) :
    ∀ inside ∈ ownInsides files, (Path.splitExtension inside).2 = ".vim" := by
  intro inside hinside
  obtain ⟨s, hs, hpath⟩ := List.mem_filterMap.mp hinside
  have hext := hfound.extension s (List.mem_filter.mp hs).1
  rwa [eq_of_insideAutoload? hpath, Path.extension_append_slash] at hext

/-- Two pages may have the same file.  The names of the files are the name of the plugin and the
paths of the standalone files with dashes for all separators, and they are distinct exactly if these
are.  As many files as pages are written exactly if the names of the files are distinct. -/
theorem fileNames_distinct_iff {root : Node} {folder name : String} {desk read : Desk}
    {readWarnings warnings : List Warning} {files : List SourceFile} {plugin : Plugin} {book : Book}
    (hroot : root.Proper)
    (hread : readSources folder (sourceFiles root) desk = ⟨read, readWarnings, .ok files⟩)
    (hname : plugin.name = .text name)
    (hmerge : mergeFiles files { plugin } = ⟨book, warnings, .ok ()⟩) :
    -- the names of the files
    ((files.filter (hasOwnPage files)).map (fun s => insideAutoload? s.path)
        = (ownInsides files).map some
      ∧ book.pages.map Help.fileName
        = (dashed name :: (ownInsides files).map leafName).map (fun leaf => .ok (leaf ++ ".txt")))
    -- when they are distinct
    ∧ ((book.pages.map Help.fileName).Nodup
      ↔ dashed name ∉ (ownInsides files).map leafName ∧ ((ownInsides files).map leafName).Nodup)
    ∧ ((∀ inside ∈ ownInsides files, '-' ∉ inside.toList ∧ '#' ∉ inside.toList) →
      ((ownInsides files).map leafName).Nodup)
    -- what is written
    ∧ ∀ docFolder before after finishWarnings, before.reached = [] → before.written = [] →
      finishPages docFolder book (List.range book.pages.length) before
        = ⟨after, finishWarnings, .ok ()⟩ →
      after.reached.map (fun page => .ok page.2) = book.pages.map Help.fileName
      ∧ (after.written.length = book.pages.length
        ↔ (after.reached.map fun page =>
          Path.walk before.disk.place (Path.join docFolder page.2)).Nodup)
      ∧ ('/' ∉ name.toList → (after.written.length = book.pages.length
        ↔ (book.pages.map Help.fileName).Nodup)) := by
  have hpaths := (readSources_paths folder (sourceFiles root) desk).of_ok hread
  have hfound := found_of_paths hroot hpaths
  obtain ⟨hbyPage, hspaces⟩ := mergeFiles_ok hfound hmerge
  have hinsides := ownInsides_eq hfound hspaces
  have hnames : book.pages.map (·.name)
      = (name :: (ownInsides files).map fun inside => pageName (autoloadSpace inside)).map
        .text := by
    rw [mergeByPage_names hbyPage, hname, titles_eq hinsides, List.map_cons, List.map_map]
    rfl
  have hleaves : (name :: (ownInsides files).map fun inside => pageName (autoloadSpace inside)).map
      dashed = dashed name :: (ownInsides files).map leafName := by
    rw [List.map_cons, List.map_map]
    exact congrArg _ (List.map_congr_left fun inside _ => dashed_pageName inside)
  have hfiles := fileNames_eq hnames
  rw [hleaves] at hfiles
  have hdistinct : (book.pages.map Help.fileName).Nodup
      ↔ (dashed name :: (ownInsides files).map leafName).Nodup := by
    rw [hfiles, List.nodup_map_iff]
    intro leaf other heq
    simpa using heq
  refine ⟨⟨hinsides, hfiles⟩, hdistinct.trans List.nodup_cons, ?_, ?_⟩
  · intro hplain
    refine List.Nodup.map_on ?_ (ownInsides_nodup hfound)
    intro inside hinside other hother heq
    have hext := extension_of_ownInsides hfound
    exact leafName_inj (hext inside hinside) (hext other hother) (hplain inside hinside)
      (hplain other hother) heq
  · intro docFolder before after finishWarnings hreached hwritten hfinish
    obtain ⟨hafter, hcount⟩ := finishPages_written hnames hreached hwritten hfinish
    refine ⟨?_, ?_, fun hslash => ?_⟩
    · rw [hafter, fileNames_eq hnames, List.map_map, List.map_map]
      rfl
    · rw [hcount, hafter, List.map_map]
      rfl
    · rw [hcount, hdistinct, ← hleaves]
      refine ways_nodup_iff _ _ (List.forall_mem_cons.mpr ⟨hslash, fun other hother => ?_⟩)
      obtain ⟨inside, -, rfl⟩ := List.mem_map.mp hother
      exact pageName_plain inside

/-- The page of a standalone file with the name of the plugin has the file of the main page, and two
pages make one file. -/
theorem fileNames_distinct_iff_same_name :
    let root : Node := .folder
      [("autoload", .folder
        [("demo.vim", .file (some "\"\" @section Notes, intro\n\" @standalone\n\n"))]),
        ("doc", .folder [])]
    let desk : Desk := { disk := ⟨.folder [("demo", root)], []⟩ }
    ∃ read readWarnings files book warnings after finishWarnings, root.Proper
      ∧ readSources "demo" (sourceFiles root) desk = ⟨read, readWarnings, .ok files⟩
      ∧ mergeFiles files { plugin := { name := .text "demo" } } = ⟨book, warnings, .ok ()⟩
      ∧ finishPages "demo/doc" book (List.range book.pages.length) desk
        = ⟨after, finishWarnings, .ok ()⟩
      ∧ ownInsides files = ["demo.vim"] ∧ ¬(book.pages.map Help.fileName).Nodup
      ∧ after.written.length ≠ book.pages.length := by
  intro root desk
  have hroot : root.Proper := by
    simp [root, Path.ArePlain, Node.proper_folder_iff, Node.Proper.file]
  have hvalues : (readSources "demo" (sourceFiles root) desk).result.toOption.map (fun files =>
      let merged := mergeFiles files { plugin := { name := .text "demo" } }
      (ownInsides files, merged.result.toOption,
        (finishPages "demo/doc" merged.state (List.range merged.state.pages.length) desk).result
          |>.toOption))
      = some (["demo.vim"], some (), some ()) := by
    decide +kernel
  obtain ⟨files, hfiles, hvalues⟩ := Option.map_eq_some_iff.mp hvalues
  obtain ⟨hinsides, hvalues⟩ := Prod.mk.inj hvalues
  obtain ⟨hmerged, hfinished⟩ := Prod.mk.inj hvalues
  have hread := eq_ok_of_toOption hfiles
  have hmerge := eq_ok_of_toOption hmerged
  have hfinish := eq_ok_of_toOption hfinished
  obtain ⟨-, hdistinct, -, hwritten⟩ := fileNames_distinct_iff hroot hread rfl hmerge
  have hsame : ¬((mergeFiles files { plugin := { name := .text "demo" } }).state.pages.map
      Help.fileName).Nodup := by
    rw [hdistinct, hinsides]
    exact fun h => h.1 (by decide +kernel)
  obtain ⟨-, -, hcount⟩ := hwritten _ _ _ _ rfl rfl hfinish
  refine ⟨_, _, files, _, _, _, _, hroot, hread, hmerge, hfinish, hinsides, hsame, ?_⟩
  exact fun hlength => hsame ((hcount (by simp)).mp hlength)

end Build

end PluginHelp
