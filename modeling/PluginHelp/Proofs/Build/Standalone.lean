/-
How the files of a plugin are divided among its pages.

A file goes to the page of the first standalone file that claims it, and to the main page if none
does.  Whoever claims a standalone file claims all that this one claims, so a standalone file has a
page of its own exactly if none before it claims it, and the first one that claims a file is always
one that has a page.  A page is begun when the first of its files is met.  That this is the
standalone file itself, after which the page is then named, rests on the order in which files are
found: no file claims one that comes before it.

The pages are begun one by one while files are merged, but what is merged into a page has nothing to
do with the pages that are begun later.  So the book is the one that comes about if all pages are
begun first, and then each file is merged into its page.
-/
import PluginHelp.Build.Pages
import PluginHelp.Proofs.Build.Crawling
import PluginHelp.Proofs.Page.Naming

namespace PluginHelp

open Act

/-! ### Pages that come later -/

namespace Book

variable {α : Type} {b : Book} {i : Nat}

/-- The book with further pages. -/
def extend (b : Book) (pages : List Page) : Book :=
  { b with pages := b.pages ++ pages }

/-- A step on a page leaves the other pages alone. -/
theorem onPage_other {j : Nat} (act : Act Context α) (hj : j ≠ i) (b : Book) :
    (onPage i act b).state.pages[j]? = b.pages[j]? := by
  unfold onPage
  split
  · rfl
  · exact List.getElem?_set_ne hj.symm

theorem length_onPage (i : Nat) (act : Act Context α) (b : Book) :
    (onPage i act b).state.pages.length = b.pages.length := by
  unfold onPage
  split
  · rfl
  · simp

/-- A step on a page does not see the pages that come later. -/
theorem onPage_extend (act : Act Context α) (hi : i < b.pages.length) (pages : List Page) :
    onPage i act (b.extend pages)
      = ⟨(onPage i act b).state.extend pages, (onPage i act b).warnings,
        (onPage i act b).result⟩ := by
  have hthere : b.pages[i]? = some b.pages[i] := List.getElem?_eq_getElem hi
  have hpage : (b.extend pages).pages[i]? = some b.pages[i] := by
    rw [extend, List.getElem?_append_left hi, hthere]
  unfold onPage
  rw [hpage, hthere]
  simp [extend, List.set_append_left, hi]

end Book

namespace Build

/-! ### The pages of a plugin -/

/-- The first standalone file that claims a path. -/
def owner? (files : List SourceFile) (path : String) : Option SourceFile :=
  files.find? fun s => isStandalone s && claims s.path path

/-- Whether a file has a page of its own: it is its own owner. -/
def hasOwnPage (files : List SourceFile) (f : SourceFile) : Bool :=
  (owner? files f.path).map (·.path) == some f.path

/-- The place of the page that a file belongs to.  The first one is the main page; the others are
those of the files that have one, in the order of these files. -/
def pageOf (files : List SourceFile) (f : SourceFile) : Nat :=
  match owner? files f.path with
  | none => 0
  | some s => ((files.filter (hasOwnPage files)).map (·.path)).idxOf s.path + 1

/-- The name of the page of a standalone file. -/
def titleOf (f : SourceFile) : Value :=
  .text (pageName ((spaceOf f.path).getD ""))

/-- Merges a file into its page. -/
def mergeFile (files : List SourceFile) (f : SourceFile) : Act Book Unit :=
  Book.mergeAll (pageOf files f) (.ofText? (spaceOf f.path)) f.entries

/-- The files in the order in which they are merged: first those of the main page. -/
def mergeOrder (files : List SourceFile) : List SourceFile :=
  files.filter (fun f => (owner? files f.path).isNone)
    ++ files.filter (fun f => (owner? files f.path).isSome)

/-- Begins all pages and then merges each file into its page. -/
def mergeByPage (files : List SourceFile) : Act Book Unit := do
  Book.addPage (← Act.get).plugin.name
  Act.each (files.filter (hasOwnPage files)) fun f => Book.addPage (titleOf f)
  Act.each (mergeOrder files) (mergeFile files)

/-- A standalone file that claims a path, and before which none does. -/
structure ClaimsFirst (files : List SourceFile) (s : SourceFile) (path : String) : Prop where
  standalone : isStandalone s = true
  claims : claims s.path path = true
  first : ∃ before after, files = before ++ s :: after
    ∧ ∀ t ∈ before, isStandalone t = true → Build.claims t.path path = false

/-- Files as they are found: they are source files, and none claims one that comes before it. -/
structure Found (files : List SourceFile) : Prop where
  extension : ∀ f ∈ files, (Path.splitExtension f.path).2 = ".vim"
  order : files.Pairwise fun a b => claims b.path a.path = false

variable {files : List SourceFile} {f s : SourceFile} {path : String}

theorem owner?_eq_some_iff : owner? files path = some s ↔ ClaimsFirst files s path := by
  unfold owner?
  rw [List.find?_eq_some_iff_append, Bool.and_eq_true]
  simp only [Bool.not_and, Bool.or_eq_true, Bool.not_eq_true', ← Bool.not_eq_true (isStandalone _),
    ← imp_iff_not_or]
  constructor
  · rintro ⟨⟨hstandalone, hclaims⟩, hfirst⟩
    exact ⟨hstandalone, hclaims, hfirst⟩
  · rintro ⟨hstandalone, hclaims, hfirst⟩
    exact ⟨⟨hstandalone, hclaims⟩, hfirst⟩

theorem owner?_eq_none_iff :
    owner? files path = none
      ↔ ∀ s ∈ files, isStandalone s = true → claims s.path path = false := by
  simp [owner?]

theorem standaloneOf_paths (files : List SourceFile) (path : String) :
    standaloneOf ((files.filter isStandalone).map (·.path)) path
      = (owner? files path).map (·.path) := by
  rw [standaloneOf_eq, List.find?_map, List.find?_filter]
  simp [owner?]

/-- The paths of files that were found are unique. -/
theorem Found.distinct (h : Found files) : (files.map (·.path)).Nodup := by
  refine List.pairwise_map.mpr (h.order.imp fun {a b} hclaims heq => ?_)
  rw [heq, claims_self] at hclaims
  cases hclaims

theorem Found.eq_of_path (h : Found files) {a b : SourceFile} (ha : a ∈ files) (hb : b ∈ files)
    (heq : a.path = b.path) : a = b :=
  List.inj_on_of_nodup_map h.distinct ha hb heq

/-- The owner of a file owns itself. -/
theorem Found.owner_self (h : Found files) (hs : owner? files path = some s) :
    owner? files s.path = some s := by
  obtain ⟨hstandalone, hclaims, before, after, hfiles, hbefore⟩ := owner?_eq_some_iff.mp hs
  refine owner?_eq_some_iff.mpr ⟨hstandalone, claims_self _, before, after, hfiles, ?_⟩
  intro t ht htstandalone
  rw [← Bool.not_eq_true]
  intro hts
  have hext := h.extension s (by rw [hfiles]; simp)
  have := claims_trans hext hts hclaims
  rw [hbefore t ht htstandalone] at this
  cases this

theorem Found.hasOwnPage_iff (h : Found files) (hf : f ∈ files) :
    hasOwnPage files f = true ↔ owner? files f.path = some f := by
  unfold hasOwnPage
  rw [beq_iff_eq, Option.map_eq_some_iff]
  constructor
  · rintro ⟨s, hs, hpath⟩
    obtain ⟨-, -, before, after, hfiles, -⟩ := owner?_eq_some_iff.mp hs
    rw [h.eq_of_path (by rw [hfiles]; simp) hf hpath] at hs
    exact hs
  · intro hs
    exact ⟨f, hs, rfl⟩

/-- The owner of a file comes before it, unless it is the file itself. -/
theorem Found.owner_before (h : Found files) {done rest : List SourceFile}
    (hfiles : files = done ++ f :: rest) (hs : owner? files f.path = some s) :
    s = f ∨ s ∈ done := by
  obtain ⟨-, hclaims, before, after, hsplit, -⟩ := owner?_eq_some_iff.mp hs
  have hmem : s ∈ done ++ f :: rest := by
    rw [← hfiles, hsplit]
    simp
  rcases List.mem_append.mp hmem with hdone | hmem
  · exact Or.inr hdone
  · rcases List.mem_cons.mp hmem with heq | hrest
    · exact Or.inl heq
    · have horder := h.order
      rw [hfiles] at horder
      have := List.rel_of_pairwise_cons (List.pairwise_append.mp horder).2.1 hrest
      rw [hclaims] at this
      cases this

/-! ### Merging into the pages -/

theorem pageOf_none (hf : owner? files f.path = none) : pageOf files f = 0 := by
  rw [pageOf, hf]

theorem pageOf_some (hs : owner? files f.path = some s) :
    pageOf files f = ((files.filter (hasOwnPage files)).map (·.path)).idxOf s.path + 1 := by
  rw [pageOf, hs]

theorem hasOwnPage_none (hf : owner? files f.path = none) : hasOwnPage files f = false := by
  rw [hasOwnPage, hf]
  rfl

/-- The page that a file begins if it has one. -/
def newPage (f : SourceFile) : Page :=
  { name := titleOf f }

/-- Merging a file into a page that is there does not see the pages that come later. -/
theorem mergeFile_extend {b t : Book} {warnings : List Warning}
    (hi : pageOf files f < b.pages.length) (h : mergeFile files f b = ⟨t, warnings, .ok ()⟩)
    (pages : List Page) :
    mergeFile files f (b.extend pages) = ⟨t.extend pages, warnings, .ok ()⟩ := by
  unfold mergeFile Book.mergeAll at h ⊢
  rw [Book.onPage_extend _ hi, h]

theorem length_mergeFile {b t : Book} {warnings : List Warning}
    (h : mergeFile files f b = ⟨t, warnings, .ok ()⟩) : t.pages.length = b.pages.length := by
  unfold mergeFile Book.mergeAll at h
  rw [← Book.length_onPage _ _ b, h]

/-- What is known of the pages that were begun for the files that are done. -/
structure Begun (files done : List SourceFile) (begun : Table String Nat) (b : Book) : Prop where
  length : b.pages.length = (done.filter (hasOwnPage files)).length + 1
  place : ∀ s ∈ done, hasOwnPage files s = true →
    begun.get? s.path = some (((files.filter (hasOwnPage files)).map (·.path)).idxOf s.path + 1)
  absent : ∀ path, path ∉ done.map (·.path) → begun.get? path = none

variable {done rest : List SourceFile} {begun : Table String Nat} {b : Book}

/-- A file without a page of its own begins none. -/
theorem Begun.skip (h : Begun files done begun b) (hf : hasOwnPage files f = false) {t : Book}
    (ht : t.pages.length = b.pages.length) : Begun files (done ++ [f]) begun t where
  length := by
    rw [ht, h.length, List.filter_append, List.filter_singleton, hf]
    simp
  place := by
    intro s hs hown
    rcases List.mem_append.mp hs with hdone | hlast
    · exact h.place s hdone hown
    · rw [List.mem_singleton.mp hlast, hf] at hown
      cases hown
  absent := by
    intro path hpath
    exact h.absent path fun hmem => hpath (by simp at hmem ⊢; exact Or.inl hmem)

/-- The place of a page that files before some others begin. -/
theorem idxOf_lt (hfiles : files = done ++ rest) (hs : s ∈ done)
    (hown : hasOwnPage files s = true) :
    ((files.filter (hasOwnPage files)).map (·.path)).idxOf s.path
      < (done.filter (hasOwnPage files)).length := by
  have hmem : s.path ∈ (done.filter (hasOwnPage files)).map (·.path) :=
    List.mem_map_of_mem (List.mem_filter.mpr ⟨hs, hown⟩)
  have hsplit : (files.filter (hasOwnPage files)).map (·.path)
      = (done.filter (hasOwnPage files)).map (·.path)
        ++ (rest.filter (hasOwnPage files)).map (·.path) := by
    rw [← List.map_append, ← List.filter_append, ← hfiles]
  rw [hsplit, List.idxOf_append_of_mem hmem]
  have := List.idxOf_lt_length_iff.mpr hmem
  rwa [List.length_map] at this

/-- A file has another path than those before it. -/
theorem Found.path_new (h : Found files) (hfiles : files = done ++ f :: rest) :
    f.path ∉ done.map (·.path) := by
  have hdistinct := h.distinct
  rw [hfiles, List.map_append, List.map_cons] at hdistinct
  exact fun hmem => (List.nodup_append.mp hdistinct).2.2 _ hmem _ List.mem_cons_self rfl

/-- The place of the page that a file begins. -/
theorem Found.idxOf_eq (h : Found files) (hfiles : files = done ++ f :: rest)
    (hown : hasOwnPage files f = true) :
    ((files.filter (hasOwnPage files)).map (·.path)).idxOf f.path
      = (done.filter (hasOwnPage files)).length := by
  have hnew : f.path ∉ (done.filter (hasOwnPage files)).map (·.path) := fun hmem =>
    h.path_new hfiles ((List.filter_sublist.map _).subset hmem)
  have hsplit : (files.filter (hasOwnPage files)).map (·.path)
      = (done.filter (hasOwnPage files)).map (·.path)
        ++ f.path :: (rest.filter (hasOwnPage files)).map (·.path) := by
    rw [← List.map_cons, ← List.filter_cons_of_pos hown, ← List.map_append, ← List.filter_append,
      ← hfiles]
  rw [hsplit, List.idxOf_append_of_notMem hnew, List.idxOf_cons_self, List.length_map, Nat.add_zero]

/-- A file with a page of its own begins it. -/
theorem Begun.add (h : Begun files done begun b) (hfound : Found files)
    (hfiles : files = done ++ f :: rest) (hf : hasOwnPage files f = true) {t : Book}
    (ht : t.pages.length = b.pages.length + 1) :
    Begun files (done ++ [f]) (begun.set f.path b.pages.length) t where
  length := by
    rw [ht, h.length, List.filter_append, List.filter_singleton, hf]
    simp
  place := by
    intro s hs hown
    rcases List.mem_append.mp hs with hdone | hlast
    · have hne : (f.path == s.path) = false := by
        rw [beq_eq_false_iff_ne]
        exact fun heq => hfound.path_new hfiles (heq ▸ List.mem_map_of_mem hdone)
      rw [Table.get?_set_of_unlike _ _ hne]
      exact h.place s hdone hown
    · rw [List.mem_singleton.mp hlast, Table.get?_set_self, h.length, hfound.idxOf_eq hfiles hf]
  absent := by
    intro path hpath
    obtain ⟨hdone, hne⟩ : path ∉ done.map (·.path) ∧ f.path ≠ path := by
      rw [List.map_append, List.mem_append, not_or] at hpath
      exact ⟨hpath.1, fun heq => hpath.2 (by simp [heq])⟩
    rw [Table.get?_set_of_unlike _ _ (beq_eq_false_iff_ne.mpr hne)]
    exact h.absent path hdone

theorem newPage_of_space {space : String} (h : spaceOf f.path = some space) :
    ({ name := .text (pageName space) } : Page) = newPage f := by
  rw [newPage, titleOf, h]
  rfl

/-- A file that has an owner is merged into its page, which it begins if it is its own owner. -/
theorem mergeStandalone_cons (h : Found files) {t : Book} {warnings : List Warning}
    (hfiles : files = done ++ f :: rest) (hbegun : Begun files done begun b)
    (hs : owner? files f.path = some s) {space : String} (hspace : spaceOf f.path = some space)
    (hrun : mergeStandalone ((files.filter isStandalone).map (·.path)) begun (f :: rest) b
      = ⟨t, warnings, .ok ()⟩) :
    ∃ began merged begun' before after,
      began = b.extend (([f].filter (hasOwnPage files)).map newPage)
      ∧ pageOf files f < began.pages.length
      ∧ mergeFile files f began = ⟨merged, before, .ok ()⟩
      ∧ Begun files (done ++ [f]) begun' merged
      ∧ mergeStandalone ((files.filter isStandalone).map (·.path)) begun' rest merged
        = ⟨t, after, .ok ()⟩
      ∧ warnings = before ++ after := by
  have hf : f ∈ files := by rw [hfiles]; simp
  rw [mergeStandalone, standaloneOf_paths, hs] at hrun
  dsimp only [Option.map_some] at hrun
  rw [hspace] at hrun
  dsimp only at hrun
  rcases h.owner_before hfiles hs with rfl | hdone
  · have hown := (h.hasOwnPage_iff hf).mpr hs
    have hpage : pageOf files s = b.pages.length := by
      rw [pageOf_some hs, h.idxOf_eq hfiles hown, hbegun.length]
    rw [hbegun.absent _ (h.path_new hfiles)] at hrun
    dsimp only at hrun
    rw [get_bind_apply, Book.addPage, modify_bind_apply, newPage_of_space hspace] at hrun
    obtain ⟨merged, before, _, after, hmerge, hmore, hwarnings⟩ := bind_eq_ok_iff.mp hrun
    have hmergeFile : mergeFile files s (b.extend [newPage s]) = ⟨merged, before, .ok ()⟩ := by
      rw [mergeFile, hpage, hspace]
      exact hmerge
    refine ⟨_, merged, _, before, after, rfl, ?_, ?_, ?_, hmore, hwarnings⟩
    · rw [hpage, List.filter_singleton, hown]
      simp [Book.extend]
    · rw [List.filter_singleton, hown]
      exact hmergeFile
    · refine hbegun.add h hfiles hown ?_
      rw [length_mergeFile hmergeFile]
      simp [Book.extend]
  · have howner : hasOwnPage files s = true :=
      (h.hasOwnPage_iff (by rw [hfiles]; simp [hdone])).mpr (h.owner_self hs)
    have hother : hasOwnPage files f = false := by
      rw [← Bool.not_eq_true, h.hasOwnPage_iff hf, hs]
      intro heq
      obtain rfl := Option.some.inj heq
      exact h.path_new hfiles (List.mem_map_of_mem hdone)
    rw [hbegun.place s hdone howner] at hrun
    obtain ⟨merged, before, _, after, hmerge, hmore, hwarnings⟩ := bind_eq_ok_iff.mp hrun
    have hmergeFile : mergeFile files f b = ⟨merged, before, .ok ()⟩ := by
      rw [mergeFile, pageOf_some hs, hspace]
      exact hmerge
    have hsame : b.extend (([f].filter (hasOwnPage files)).map newPage) = b := by
      rw [List.filter_singleton, hother]
      simp [Book.extend]
    refine ⟨b, merged, begun, before, after, hsame.symm, ?_, hmergeFile, ?_, hmore, hwarnings⟩
    · rw [pageOf_some hs, hbegun.length]
      exact Nat.add_lt_add_right (idxOf_lt hfiles hdone howner) 1
    · exact hbegun.skip hother (length_mergeFile hmergeFile)

/-- Merging the files that are left into the pages that are begun and those that they begin, is
merging each of them into its page once all of these are there. -/
theorem mergeStandalone_ok (h : Found files) {t : Book} {warnings : List Warning}
    (hfiles : files = done ++ rest) (hbegun : Begun files done begun b)
    (hrun : mergeStandalone ((files.filter isStandalone).map (·.path)) begun rest b
      = ⟨t, warnings, .ok ()⟩) :
    Act.each (rest.filter fun f => (owner? files f.path).isSome) (mergeFile files)
        (b.extend ((rest.filter (hasOwnPage files)).map newPage)) = ⟨t, warnings, .ok ()⟩
      ∧ ∀ f ∈ rest, (owner? files f.path).isSome → (spaceOf f.path).isSome := by
  induction rest generalizing done begun b warnings with
  | nil =>
      refine ⟨?_, fun f hf => by cases hf⟩
      rw [List.filter_nil, List.filter_nil, List.map_nil, each_nil, ← hrun]
      simp [Book.extend, mergeStandalone]
  | cons f rest ih =>
      have hnext : files = (done ++ [f]) ++ rest := by rw [hfiles]; simp
      cases hs : owner? files f.path with
      | none =>
          have hown := hasOwnPage_none hs
          rw [mergeStandalone, standaloneOf_paths, hs] at hrun
          obtain ⟨heach, hspace⟩ := ih hnext (hbegun.skip hown rfl) hrun
          rw [List.filter_cons_of_neg (by simp [hs]), List.filter_cons_of_neg (by simp [hown])]
          refine ⟨heach, fun g hg hsome => ?_⟩
          rcases List.mem_cons.mp hg with rfl | hg
          · rw [hs] at hsome
            cases hsome
          · exact hspace g hg hsome
      | some s =>
          obtain ⟨space, hspace⟩ : ∃ space, spaceOf f.path = some space := by
            cases hspace : spaceOf f.path with
            | some space => exact ⟨space, rfl⟩
            | none =>
                rw [mergeStandalone, standaloneOf_paths, hs] at hrun
                dsimp only [Option.map_some] at hrun
                rw [hspace] at hrun
                cases hrun
          obtain ⟨began, merged, begun', before, after, hbegan, hplace, hmerge, hbegun', hmore,
            rfl⟩ := mergeStandalone_cons h hfiles hbegun hs hspace hrun
          obtain ⟨heach, hspaces⟩ := ih hnext hbegun' hmore
          have hpages : b.extend (((f :: rest).filter (hasOwnPage files)).map newPage)
              = began.extend ((rest.filter (hasOwnPage files)).map newPage) := by
            rw [hbegan, ← List.singleton_append, List.filter_append, List.map_append]
            simp [Book.extend]
          refine ⟨?_, fun g hg hsome => ?_⟩
          · rw [List.filter_cons_of_pos (by simp [hs]), hpages, each_cons,
              bind_apply_ok _ (mergeFile_extend hplace hmerge _), heach]
          · rcases List.mem_cons.mp hg with rfl | hg
            · rw [hspace]
              rfl
            · exact hspaces g hg hsome

/-- Merging files into pages that are there does not see the pages that come later. -/
theorem mergeFiles_extend {items : List SourceFile} {t : Book} {warnings : List Warning}
    (hitems : ∀ f ∈ items, pageOf files f < b.pages.length)
    (hrun : Act.each items (mergeFile files) b = ⟨t, warnings, .ok ()⟩) (pages : List Page) :
    Act.each items (mergeFile files) (b.extend pages) = ⟨t.extend pages, warnings, .ok ()⟩
      ∧ t.pages.length = b.pages.length := by
  induction items generalizing b warnings with
  | nil =>
      rw [each_nil] at hrun ⊢
      obtain ⟨rfl, rfl, -⟩ := Outcome.mk.inj hrun
      exact ⟨rfl, rfl⟩
  | cons f items ih =>
      obtain ⟨hf, hmore⟩ := List.forall_mem_cons.mp hitems
      rw [each_cons] at hrun
      obtain ⟨merged, before, _, after, hmerge, hrest, rfl⟩ := bind_eq_ok_iff.mp hrun
      have hlength := length_mergeFile hmerge
      obtain ⟨heach, hlater⟩ := ih (fun g hg => by rw [hlength]; exact hmore g hg) hrest
      refine ⟨?_, hlater.trans hlength⟩
      rw [each_cons, bind_apply_ok _ (mergeFile_extend hf hmerge pages), heach]

theorem each_addPage (items : List SourceFile) (b : Book) :
    Act.each items (fun f => Book.addPage (titleOf f)) b
      = ⟨b.extend (items.map newPage), [], .ok ()⟩ := by
  induction items generalizing b with
  | nil =>
      rw [each_nil]
      simp [Book.extend]
  | cons f items ih =>
      rw [each_cons, Book.addPage, modify_bind_apply, ih]
      simp [Book.extend, newPage]

/-- Merging the files of a plugin is beginning all its pages and merging each file into its page. -/
theorem mergeFiles_ok (h : Found files) {plugin : Plugin} {book : Book} {warnings : List Warning}
    (hrun : mergeFiles files { plugin } = ⟨book, warnings, .ok ()⟩) :
    mergeByPage files { plugin } = ⟨book, warnings, .ok ()⟩
      ∧ ∀ f ∈ files, (owner? files f.path).isSome → (spaceOf f.path).isSome := by
  have hmain : mergeMain ((files.filter isStandalone).map (·.path)) files
      = Act.each (files.filter fun f => (owner? files f.path).isNone) (mergeFile files) := by
    have hnone (f : SourceFile) :
        (standaloneOf ((files.filter isStandalone).map (·.path)) f.path).isNone
          = (owner? files f.path).isNone := by
      rw [standaloneOf_paths, Option.isNone_map]
    rw [mergeMain, List.filter_congr fun f _ => hnone f]
    refine each_congr fun f hf => ?_
    rw [mergeFile, pageOf_none (Option.isNone_iff_eq_none.mp (List.mem_filter.mp hf).2)]
  unfold mergeFiles at hrun
  rw [get_bind_apply, Book.addPage, modify_bind_apply, hmain] at hrun
  obtain ⟨first, before, _, after, hfirst, hrest, rfl⟩ := bind_eq_ok_iff.mp hrun
  have hplaces : ∀ f ∈ files.filter (fun f => (owner? files f.path).isNone),
      pageOf files f < 1 := by
    intro f hf
    rw [pageOf_none (Option.isNone_iff_eq_none.mp (List.mem_filter.mp hf).2)]
    exact Nat.zero_lt_one
  obtain ⟨hlater, hlength⟩ :=
    mergeFiles_extend hplaces hfirst ((files.filter (hasOwnPage files)).map newPage)
  have hbegun : Begun files [] [] first :=
    ⟨hlength, fun _ hs => (List.not_mem_nil hs).elim, fun _ _ => rfl⟩
  obtain ⟨heach, hspaces⟩ := mergeStandalone_ok h rfl hbegun hrest
  refine ⟨?_, hspaces⟩
  unfold mergeByPage mergeOrder
  rw [get_bind_apply, Book.addPage, modify_bind_apply, bind_apply_ok _ (each_addPage _ _),
    each_append, bind_apply_ok _ hlater, heach]
  rfl

/-! ### The files of a plugin -/

/-- A file that was read is known by its path. -/
theorem readSource_path {σ : Type} (name path : String) (text : Option String) (s : σ) :
    Ensures (readSource name path text) s (fun file _ => file.path = path) (fun _ => True) := by
  unfold readSource
  cases text with
  | none => trivial
  | some text =>
      refine Ensures.within_bind (fun _ _ => trivial) ?_
      have hfile (enters : Bool) (entries more : List Entry) :
          Ensures (if enters = true then pure ⟨path, more⟩ else pure ⟨path, entries⟩ :
            Act σ SourceFile) s (fun file _ => file.path = path) (fun _ => True) :=
        Ensures.ite (fun _ => Ensures.pure rfl) fun _ => Ensures.pure rfl
      refine Ensures.ite (fun _ => ?_) fun _ => Ensures.pure rfl
      cases entersPlugin (Text.lines text) with
      | ok enters => exact hfile enters _ _
      | error fault => trivial

theorem readSources_paths (folder : String) (found : List (String × Option String)) (desk : Desk) :
    Ensures (readSources folder found) desk
      (fun files _ => files.map (·.path) = found.map (·.1)) (fun _ => True) := by
  induction found generalizing desk with
  | nil => exact Ensures.pure rfl
  | cons first found ih =>
      obtain ⟨path, text⟩ := first
      refine Ensures.bind (readSource_path _ path text desk) fun file t hfile => ?_
      refine Ensures.bind (ih t) fun files u hfiles => Ensures.pure ?_
      rw [List.map_cons, List.map_cons, hfile, hfiles]

/-- The files that were read are as they were found. -/
theorem found_of_paths {root : Node} (hroot : root.Proper)
    (hpaths : files.map (·.path) = (sourceFiles root).map (·.1)) : Found files where
  extension := by
    intro f hf
    have hmem : f.path ∈ (sourceFiles root).map (·.1) := by
      rw [← hpaths]
      exact List.mem_map_of_mem hf
    obtain ⟨found, hfound, hpath⟩ := List.mem_map.mp hmem
    rw [← hpath]
    exact extension_of_mem hfound
  order := by
    have horder : ((sourceFiles root).map (·.1)).Pairwise fun a b => claims b a = false :=
      List.pairwise_map.mpr (sourceFiles_order hroot)
    rw [← hpaths] at horder
    exact List.pairwise_map.mp horder

/-- Merging files leaves the names of the pages alone. -/
theorem mergeFile_names (files items : List SourceFile) :
    Confined (fun b : Book => b.pages.map (·.name)) (fun _ => True)
      (Act.each items (mergeFile files)) := by
  refine fun shown => Keeps.each fun f _ b hb => ⟨?_, fun _ _ => trivial⟩
  exact (Book.names_mergeAll _ _ _ b).trans hb

/-- The names of the pages: that of the plugin, and one for each file that has a page. -/
theorem mergeByPage_names {plugin : Plugin} {book : Book} {warnings : List Warning}
    (h : mergeByPage files { plugin } = ⟨book, warnings, .ok ()⟩) :
    book.pages.map (·.name) = plugin.name :: (files.filter (hasOwnPage files)).map titleOf := by
  unfold mergeByPage at h
  rw [get_bind_apply, Book.addPage, modify_bind_apply, bind_apply_ok _ (each_addPage _ _)] at h
  obtain ⟨rfl, -, -⟩ := Outcome.mk.inj h
  refine ((mergeFile_names files (mergeOrder files)).view_eq _).trans ?_
  simp [Book.extend, newPage]

/-- Each file comes once in the order in which files are merged. -/
theorem mergeOrder_perm (files : List SourceFile) : (mergeOrder files).Perm files := by
  have hperm := List.filter_append_perm (fun f => (owner? files f.path).isNone) files
  simp only [Option.not_isNone] at hperm
  exact hperm

/-- The place of a page tells the file that it was begun for. -/
theorem Found.pageOf_eq_iff (h : Found files) {i : Nat}
    (hi : (files.filter (hasOwnPage files))[i]? = some s) (f : SourceFile) :
    pageOf files f = i + 1 ↔ ClaimsFirst files s f.path := by
  have hdistinct : ((files.filter (hasOwnPage files)).map (·.path)).Nodup :=
    h.distinct.sublist (List.filter_sublist.map _)
  have hplace : ((files.filter (hasOwnPage files)).map (·.path))[i]? = some s.path := by
    rw [List.getElem?_map, hi]
    rfl
  obtain ⟨hlt, hget⟩ := List.getElem?_eq_some_iff.mp hplace
  have hs : s ∈ files := (List.mem_filter.mp (List.mem_of_getElem? hi)).1
  have hidx : ((files.filter (hasOwnPage files)).map (·.path)).idxOf s.path = i := by
    rw [← hget, hdistinct.idxOf_getElem]
  rw [← owner?_eq_some_iff]
  constructor
  · intro hpage
    cases howner : owner? files f.path with
    | none =>
        rw [pageOf_none howner] at hpage
        cases hpage
    | some t =>
        have ht : t ∈ files := List.mem_of_find?_eq_some howner
        have hown := (h.hasOwnPage_iff ht).mpr (h.owner_self howner)
        have hmem : t.path ∈ (files.filter (hasOwnPage files)).map (·.path) :=
          List.mem_map_of_mem (List.mem_filter.mpr ⟨ht, hown⟩)
        rw [pageOf_some howner, Nat.add_right_cancel_iff, ← hidx] at hpage
        rw [h.eq_of_path ht hs ((List.idxOf_inj hmem).mp hpage)]
  · intro howner
    rw [pageOf_some howner, hidx]

theorem pageOf_eq_zero_iff (f : SourceFile) :
    pageOf files f = 0 ↔ ∀ s ∈ files, isStandalone s = true → claims s.path f.path = false := by
  rw [← owner?_eq_none_iff]
  cases howner : owner? files f.path with
  | none => simp [pageOf_none howner]
  | some s => simp [pageOf_some howner]

/-- A file belongs to a page that there is. -/
theorem Found.pageOf_lt (h : Found files) (f : SourceFile) :
    pageOf files f < (files.filter (hasOwnPage files)).length + 1 := by
  cases howner : owner? files f.path with
  | none =>
      rw [pageOf_none howner]
      exact Nat.zero_lt_succ _
  | some s =>
      have hs : s ∈ files := List.mem_of_find?_eq_some howner
      rw [pageOf_some howner, Nat.add_lt_add_iff_right]
      exact idxOf_lt (List.append_nil files).symm hs
        ((h.hasOwnPage_iff hs).mpr (h.owner_self howner))

/-- The name of a page is the namespace of its file without the signs at its end. -/
theorem pageName_eq (space : String) :
    ∃ signs, space.toList = (pageName space).toList ++ List.replicate signs '#'
      ∧ (pageName space).toList.getLast? ≠ some '#' := by
  have hname : (pageName space).toList = (space.toList.reverse.dropWhile (· == '#')).reverse := by
    rw [pageName, String.toList_ofList, Text.dropEndWhile]
  have hsigns : space.toList.reverse.takeWhile (· == '#')
      = List.replicate (space.toList.reverse.takeWhile (· == '#')).length '#' := by
    refine List.eq_replicate_length.mpr fun c hc => ?_
    exact beq_iff_eq.mp (List.all_eq_true.mp List.all_takeWhile c hc)
  refine ⟨(space.toList.reverse.takeWhile (· == '#')).length, ?_, ?_⟩
  · rw [hname, ← List.reverse_replicate, ← hsigns, ← List.reverse_append,
      List.takeWhile_append_dropWhile, List.reverse_reverse]
  · rw [hname, List.getLast?_reverse]
    intro hhead
    have := List.head?_dropWhile_not (· == '#') space.toList.reverse
    rw [hhead] at this
    simp at this

/-- The files of a plugin are divided among its pages.  Each file that is found is merged into one
page and no other: that of the first standalone file that claims it, or else the main page.  The
pages besides the main one are those of the standalone files that none before them claims, and each
is named after the namespace of its file. -/
theorem mergeFiles_divides {root : Node} {folder : String} {desk read : Desk}
    {readWarnings warnings : List Warning} {files : List SourceFile} {plugin : Plugin} {book : Book}
    (hroot : root.Proper)
    (hread : readSources folder (sourceFiles root) desk = ⟨read, readWarnings, .ok files⟩)
    (hmerge : mergeFiles files { plugin } = ⟨book, warnings, .ok ()⟩) :
    -- each file that is found is merged once, and into its page
    (files.map (·.path) = (sourceFiles root).map (·.1) ∧ (files.map (·.path)).Nodup
      ∧ mergeByPage files { plugin } = ⟨book, warnings, .ok ()⟩ ∧ (mergeOrder files).Perm files
      ∧ ∀ f, pageOf files f < book.pages.length
        ∧ ∀ j, j ≠ pageOf files f → ∀ b, (mergeFile files f b).state.pages[j]? = b.pages[j]?)
    -- the pages and their names
    ∧ (book.pages.map (·.name) = plugin.name :: (files.filter (hasOwnPage files)).map titleOf
      ∧ ∀ s ∈ files, hasOwnPage files s = true →
        ∃ inside name signs, insideAutoload? s.path = some inside ∧ titleOf s = .text name
          ∧ (autoloadSpace inside).toList = name.toList ++ List.replicate signs '#'
          ∧ name.toList.getLast? ≠ some '#')
    -- what the pages hold
    ∧ (∀ s ∈ files, hasOwnPage files s = true ↔ ClaimsFirst files s s.path)
    ∧ ∀ f, (pageOf files f = 0
        ↔ ∀ s ∈ files, isStandalone s = true → claims s.path f.path = false)
      ∧ ∀ i s, (files.filter (hasOwnPage files))[i]? = some s →
        (pageOf files f = i + 1 ↔ ClaimsFirst files s f.path) := by
  have hpaths : files.map (·.path) = (sourceFiles root).map (·.1) :=
    (readSources_paths folder (sourceFiles root) desk).of_ok hread
  have hfound := found_of_paths hroot hpaths
  obtain ⟨hbyPage, hspaces⟩ := mergeFiles_ok hfound hmerge
  have hnames := mergeByPage_names hbyPage
  refine ⟨⟨hpaths, hfound.distinct, hbyPage, mergeOrder_perm files, fun f => ⟨?_, ?_⟩⟩,
    ⟨hnames, fun s hs hown => ?_⟩, fun s hs => ?_,
    fun f => ⟨pageOf_eq_zero_iff f, fun i s hi => hfound.pageOf_eq_iff hi f⟩⟩
  · have hlength := congrArg List.length hnames
    rw [List.length_map, List.length_cons, List.length_map] at hlength
    rw [hlength]
    exact hfound.pageOf_lt f
  · intro j hj b
    exact Book.onPage_other _ hj b
  · have howner := (hfound.hasOwnPage_iff hs).mp hown
    obtain ⟨space, hspace⟩ := Option.isSome_iff_exists.mp (hspaces s hs (by rw [howner]; rfl))
    obtain ⟨inside, hinside, rfl⟩ := Option.map_eq_some_iff.mp hspace
    obtain ⟨signs, hsigns, hlast⟩ := pageName_eq (autoloadSpace inside)
    refine ⟨inside, pageName (autoloadSpace inside), signs, hinside, ?_, hsigns, hlast⟩
    rw [titleOf, hspace]
    rfl
  · rw [hfound.hasOwnPage_iff hs, owner?_eq_some_iff]

/-- A standalone file that claims another one leaves it no page.  One that only has a similar name
is not claimed. -/
theorem mergeFiles_divides_nested :
    let notes (name : String) : Node :=
      .file (some ("\"\"\n\" @section " ++ name ++ "\n\" @standalone\n\n"))
    let root : Node := .folder
      [("plugin", .folder [("b.vim", .file (some ""))]),
        ("autoload", .folder
          [("a", .folder [("b.vim", notes "Inner"), ("c.vim", .file (some ""))]),
            ("ab.vim", notes "Other"), ("a.vim", notes "Outer")])]
    ∃ read readWarnings files book warnings, root.Proper
      ∧ readSources "demo" (sourceFiles root) ⟨⟨root, []⟩, [], []⟩ = ⟨read, readWarnings, .ok files⟩
      ∧ mergeFiles files { plugin := { name := .text "demo" } } = ⟨book, warnings, .ok ()⟩
      ∧ files.map (fun f => (f.path, isStandalone f, pageOf files f))
        = [("autoload/a.vim", true, 1), ("autoload/ab.vim", true, 2), ("autoload/a/b.vim", true, 1),
          ("autoload/a/c.vim", false, 1), ("plugin/b.vim", false, 0)]
      ∧ book.pages.map (·.name) = [.text "demo", .text "a", .text "ab"] := by
  intro notes root
  have hroot : root.Proper := by
    simp [root, notes, Path.ArePlain, Node.proper_folder_iff, Node.Proper.file]
  have hvalues : (readSources "demo" (sourceFiles root) ⟨⟨root, []⟩, [], []⟩).result.toOption.map
      (fun files => (files.map fun f => (f.path, isStandalone f, pageOf files f),
        (files.filter (hasOwnPage files)).map titleOf,
        (mergeFiles files { plugin := { name := .text "demo" } }).result.toOption))
      = some ([("autoload/a.vim", true, 1), ("autoload/ab.vim", true, 2),
        ("autoload/a/b.vim", true, 1), ("autoload/a/c.vim", false, 1), ("plugin/b.vim", false, 0)],
        [.text "a", .text "ab"], some ()) := by
    decide +kernel
  obtain ⟨files, hfiles, hvalues⟩ := Option.map_eq_some_iff.mp hvalues
  obtain ⟨hplaces, hvalues⟩ := Prod.mk.inj hvalues
  obtain ⟨htitles, hresult⟩ := Prod.mk.inj hvalues
  have hread := eq_ok_of_toOption hfiles
  have hmerge := eq_ok_of_toOption hresult
  have hnames := (mergeFiles_divides hroot hread hmerge).2.1.1
  rw [htitles] at hnames
  exact ⟨_, _, files, _, _, hroot, hread, hmerge, hplaces, hnames⟩

/-- A page loses more than the last sign of the namespace: here the namespace is `a##`, and the page
is named `a`. -/
theorem mergeFiles_name_loses_signs :
    let root : Node := .folder
      [("autoload", .folder
        [("a#.vim", .file
          (some "\"\"\n\" @section Introduction, intro\n\" @standalone\n\" Hello.\n\n"))])]
    root.Proper ∧ spaceOf "autoload/a#.vim" = some ("a#" ++ "#")
      ∧ ∃ read readWarnings files book warnings,
        readSources "demo" (sourceFiles root) ⟨⟨root, []⟩, [], []⟩
          = ⟨read, readWarnings, .ok files⟩
        ∧ mergeFiles files { plugin := { name := .text "demo" } } = ⟨book, warnings, .ok ()⟩
        ∧ files.map (fun f => (f.path, isStandalone f)) = [("autoload/a#.vim", true)]
        ∧ book.pages.map (·.name) = [.text "demo", .text "a"] := by
  intro root
  have hroot : root.Proper := by
    simp [root, Path.ArePlain, Node.proper_folder_iff, Node.Proper.file]
  have hvalues : (readSources "demo" (sourceFiles root) ⟨⟨root, []⟩, [], []⟩).result.toOption.map
      (fun files => (files.map fun f => (f.path, isStandalone f),
        (mergeFiles files { plugin := { name := .text "demo" } }).state.pages.map (·.name),
        (mergeFiles files { plugin := { name := .text "demo" } }).result.toOption))
      = some ([("autoload/a#.vim", true)], [.text "demo", .text "a"], some ()) := by
    decide +kernel
  refine ⟨hroot, by decide +kernel, ?_⟩
  obtain ⟨files, hfiles, hvalues⟩ := Option.map_eq_some_iff.mp hvalues
  obtain ⟨hpaths, hvalues⟩ := Prod.mk.inj hvalues
  obtain ⟨hnames, hresult⟩ := Prod.mk.inj hvalues
  exact ⟨_, _, files, _, _, eq_ok_of_toOption hfiles, eq_ok_of_toOption hresult, hpaths, hnames⟩

end Build

end PluginHelp
