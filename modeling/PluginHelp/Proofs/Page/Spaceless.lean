/-
Functions of files without a namespace.

A file outside the autoload folder has no namespace, and its functions are merged with nothing in the
place of one.  That is not the empty text: it cannot be put before a name, and it cannot be compared
with a namespace, not even with itself.  So such a function has no full name unless it is a member of a
dictionary, and a list with such a function in it cannot be sorted unless that is the only one.

Whether the functions of a page can be listed depends on nothing else.  It turns out when the page is
closed, for the functions are the first that closing asks for.
-/
import PluginHelp.Proofs.Page.Closable
import PluginHelp.Proofs.Page.Parts
import PluginHelp.Proofs.Source.Named

namespace PluginHelp

open Act

namespace Entry

variable {e : Entry} {space : Option String} {name : String}

/-! ### Names -/

/-- A name with a namespace before it.  Without a namespace there is none. -/
def nameIn (space : Option String) (name : String) : Except Cause Value :=
  match space with
  | some space => .ok (.text (space ++ name))
  | none => .error .wrongValue

/-- A function as a page has collected it from a file with a namespace or without one. -/
structure FunctionIn (space : Option String) (name : String) (e : Entry) : Prop where
  kind : e.isOf .function = true
  plain : e.own? "exception" = none
  name : e.own? "name" = some (.text name)
  space : e.own? "namespace" = some (.ofText? space)

namespace FunctionIn

/-- A function that is in no dictionary is named after its namespace. -/
theorem fullName_of_free (h : FunctionIn space name e) (hfree : e.own? "dict" = none) :
    e.fullName = nameIn space name := by
  rw [Entry.fullName_of_free h.kind h.name hfree h.plain, h.space]
  cases space <;> rfl

theorem fullName_of_member (h : FunctionIn space name e) {dictionary : Value}
    (hmember : e.own? "dict" = some dictionary) : ∃ full, e.fullName = .ok (.text full) :=
  ⟨_, Entry.fullName_of_member h.kind h.name hmember⟩

theorem tagName_of_first (h : FunctionIn space name e) (hfirst : e.isSecondary = false) :
    e.tagName = e.fullName >>= fun full => .ok (.text (full.shown ++ "()")) := by
  unfold tagName
  rw [hfirst, h.kind, hasOwn_eq, h.plain]
  rfl

theorem tagName_of_free (h : FunctionIn space name e) (hfirst : e.isSecondary = false)
    (hfree : e.own? "dict" = none) : e.tagName = nameIn space (name ++ "()") := by
  rw [h.tagName_of_first hfirst, h.fullName_of_free hfree]
  cases space with
  | none => rfl
  | some space => simp [nameIn, bind, Except.bind, Value.shown, String.append_assoc]

end FunctionIn

/-- Whether the tag of a function begins with its namespace: it has a tag, and it is in no dictionary. -/
def isCalledBySpace (e : Entry) : Bool :=
  !e.isSecondary && !e.hasOwn "dict"

theorem isCalledBySpace_iff :
    e.isCalledBySpace = true ↔ e.isSecondary = false ∧ e.own? "dict" = none := by
  simp [isCalledBySpace, hasOwn_eq]

end Entry

namespace Page

open Entry

variable {e : Entry} {space : Option String} {name : String}

theorem keyTag_of_spaceless (h : FunctionIn none name e) (hcalled : e.isCalledBySpace = true) :
    keyTag e = .error .wrongValue := by
  obtain ⟨hfirst, hfree⟩ := isCalledBySpace_iff.mp hcalled
  rw [keyTag, h.tagName_of_free hfirst hfree]
  rfl

/-- Where the namespace is there or is not needed, a function can be looked for. -/
theorem keyTag_of_spaced (h : FunctionIn space name e)
    (hspace : e.isCalledBySpace = true → space ≠ none) : ∃ tag, keyTag e = .ok tag := by
  have htext {text : String} (htag : e.tagName = .ok (.text text)) : ∃ tag, keyTag e = .ok tag := by
    rw [keyTag, htag]
    exact ⟨_, rfl⟩
  cases hfirst : e.isSecondary with
  | true =>
      rw [keyTag, tagName, hfirst]
      exact ⟨_, rfl⟩
  | false =>
      cases hdict : e.own? "dict" with
      | some dictionary =>
          obtain ⟨full, hfull⟩ := h.fullName_of_member hdict
          have htag := h.tagName_of_first hfirst
          rw [hfull] at htag
          exact htext htag
      | none =>
          have htag := h.tagName_of_free hfirst hdict
          obtain ⟨held, rfl⟩ := Option.ne_none_iff_exists'.mp
            (hspace (isCalledBySpace_iff.mpr ⟨hfirst, hdict⟩))
          exact htext htag

/-! ### Lists of functions -/

/-- Functions that cannot be listed: one of them has no namespace, and it is either not alone or
called by it. -/
def Unlistable (functions : List Entry) : Prop :=
  ∃ e ∈ functions, e.own? "namespace" = some .nothing
    ∧ (2 ≤ functions.length ∨ e.isCalledBySpace = true)

instance (functions : List Entry) : Decidable (Unlistable functions) :=
  inferInstanceAs (Decidable (∃ _, _ ∧ _))

variable {functions : List Entry}

theorem arrange_functions (functions : List Entry) :
    arrange Kind.function.toValue functions
      = sortByValue (fun e => .ok ((e.own? "namespace").getD (.text ""))) functions :=
  if_pos (by decide)

/-- Functions can be arranged if all of them have a namespace or there is only one of them. -/
theorem arrange_covers_of_listable (h : ∀ e ∈ functions, ∃ space name, FunctionIn space name e)
    (hlistable : ¬Unlistable functions) (allowed : Cause → Prop) :
    Covers allowed (arrange Kind.function.toValue functions) := by
  rw [arrange_functions]
  by_cases hspaceless : ∃ e ∈ functions, e.own? "namespace" = some .nothing
  · obtain ⟨e, he, hnothing⟩ := hspaceless
    have hone : functions.length = 1 := by
      have hpos := List.length_pos_of_mem he
      have hnot : ¬2 ≤ functions.length := fun htwo => hlistable ⟨e, he, hnothing, Or.inl htwo⟩
      omega
    obtain ⟨only, rfl⟩ := List.length_eq_one_iff.mp hone
    exact Covers.ok _
  · refine sortByValue_texts (fun e he => ?_) allowed
    obtain ⟨space, name, hfunction⟩ := h e he
    cases space with
    | none => exact absurd ⟨e, he, hfunction.space⟩ hspaceless
    | some space => exact ⟨space, by rw [hfunction.space]; rfl⟩

/-- Functions that cannot be listed are not found, whatever else the page has. -/
theorem collection_of_unlistable {p : Page}
    (h : ∀ e ∈ p.collections.under .function, ∃ space name, FunctionIn space name e)
    (hunlistable : Unlistable (p.collections.under .function)) :
    p.collection Kind.function.toValue = .error .wrongValue := by
  have hcause : Covers (· = .wrongValue) (p.collection Kind.function.toValue) := by
    refine collection_covers_of_tags ?_ fun e he => ?_
    · rw [arrange_functions]
      exact sortByValue_covers (fun _ => Covers.ok _) (by rfl) _
    · obtain ⟨space, name, hfunction⟩ := h e he
      by_cases hspaceless : e.isCalledBySpace = true ∧ space = none
      · obtain ⟨hcalled, rfl⟩ := hspaceless
        rw [keyTag_of_spaceless hfunction hcalled]
        exact Covers.error rfl
      · obtain ⟨tag, htag⟩ := keyTag_of_spaced hfunction fun hcalled hnone =>
          hspaceless ⟨hcalled, hnone⟩
        rw [htag]
        exact Covers.ok _
  cases hfound : p.collection Kind.function.toValue with
  | error cause => rw [hcause cause hfound]
  | ok entries =>
      obtain ⟨e, he, hnothing, htwo | hcalled⟩ := hunlistable
      · obtain ⟨held, hheld, hrest⟩ := Except.bind_eq_ok_iff.mp hfound
        rw [Collections.entries_eq] at hheld
        obtain ⟨arranged, harranged, -⟩ := Except.bind_eq_ok_iff.mp hrest
        rw [← Except.ok.inj hheld, arrange_functions] at harranged
        exact absurd harranged
          (sortByValue_ne_ok_of_nothing he (by rw [hnothing]; rfl) htwo arranged)
      · obtain ⟨space, name, hfunction⟩ := h e he
        obtain rfl : space = none := by
          cases space with
          | none => rfl
          | some space =>
              rw [hfunction.space] at hnothing
              cases hnothing
        obtain ⟨tag, htag⟩ := keyTag_of_collection hfound e he
        rw [keyTag_of_spaceless hfunction hcalled] at htag
        cases htag

/-- All other functions are found. -/
theorem collection_of_listable {p : Page}
    (h : ∀ e ∈ p.collections.under .function, ∃ space name, FunctionIn space name e)
    (hlistable : ¬Unlistable (p.collections.under .function)) :
    ∃ entries, p.collection Kind.function.toValue = .ok entries := by
  have hcause : Covers (fun _ => False) (p.collection Kind.function.toValue) := by
    refine collection_covers_of_tags (arrange_covers_of_listable h hlistable _) fun e he => ?_
    obtain ⟨space, name, hfunction⟩ := h e he
    obtain ⟨tag, htag⟩ := keyTag_of_spaced hfunction fun hcalled hnone => by
      subst hnone
      exact hlistable ⟨e, he, hfunction.space, Or.inr hcalled⟩
    rw [htag]
    exact Covers.ok _
  cases hfound : p.collection Kind.function.toValue with
  | error cause => exact (hcause cause hfound).elim
  | ok entries => exact ⟨entries, rfl⟩

/-! ### Closing -/

/-- The functions are the first that closing asks for. -/
theorem close_of_unlisted {c : Context} {cause : Cause}
    (h : c.page.collection Kind.function.toValue = .error cause) :
    close c = ⟨c, [], .error { cause }⟩ := by
  have hfirst : addKindSection .function "functions" "Functions" c = ⟨c, [], .error { cause }⟩ := by
    unfold addKindSection
    dsimp only
    rw [if_neg (by decide), get_bind_apply, h]
    rfl
  have hsections : addKindSections c = ⟨c, [], .error { cause }⟩ := bind_apply_error _ hfirst
  rw [close_eq, bind_apply_error _ hsections]

/-! ### Pages about functions -/

/-- A page that documents functions and nothing else.  No order was given, and there is no section
but that of the functions. -/
structure AboutFunctions (functions : List Entry) (p : Page) : Prop where
  unordered : p.order = .nothing
  unbacked : p.backmatters = []
  sections : ∀ row ∈ p.sections, row.1 = .text "functions" ∧ isNested row.2 = false
  functions : p.collections.under .function = functions
  others : ∀ kind ∈ shownKinds, kind ≠ .function → p.collections.under kind = []

variable {p : Page}

/-- The section of the functions is added where it is missing. -/
theorem merge_functionsSection {c : Context} (h : AboutFunctions functions c.page)
    (hnone : c.page.sections.has (.text "functions") = false) :
    Ensures (merge (newSection "functions" "Functions") .nothing) c
      (fun _ d => AboutFunctions functions d.page) (fun _ => False) := by
  let held : Section := ⟨c.page.arrivals, (newSection "functions" "Functions").placed .nothing⟩
  have hget : c.page.sections.get? (.text "functions") = none := by simpa [Table.has] using hnone
  show Ensures (Context.onPage (addSection held.entry)) c _ _
  refine Ensures.on (Ensures.get_bind ?_)
  rw [settle_of_none (a := held) rfl hget]
  refine Ensures.modify ⟨h.unordered, h.unbacked, ?_, h.functions, h.others⟩
  exact Table.forall_mem_set
    (P := fun (key : Value) (s : Section) => key = .text "functions" ∧ isNested s = false)
    h.sections fun key hkey => ⟨Value.beq_text_iff.mp hkey, rfl⟩

/-- A kind of which nothing was collected gets no section. -/
theorem addKindSection_of_none {kind : Kind} {c : Context}
    (h : c.page.collections.under kind = []) (id title : String) :
    addKindSection kind id title c = ⟨c, [], .ok ()⟩ := by
  have hnone := collection_of_none h
  unfold addKindSection
  dsimp only
  by_cases hflag : (kind == .flag) = true
  · have hhelp : addFlagHelp c = ⟨c, [], .ok ()⟩ := by
      obtain rfl : kind = .flag := by simpa using hflag
      unfold addFlagHelp
      rw [get_bind_apply, hnone]
      rfl
    rw [if_pos hflag, bind_apply_ok _ hhelp, get_bind_apply, hnone]
    rfl
  · rw [if_neg hflag, get_bind_apply, hnone]
    rfl

/-- Nothing goes wrong when such a page gets its sections, as long as the functions can be listed. -/
theorem addKindSections_aboutFunctions {c : Context} (h : AboutFunctions functions c.page)
    (hfound : ∀ p, AboutFunctions functions p →
      ∃ entries, p.collection Kind.function.toValue = .ok entries) :
    Ensures addKindSections c (fun _ d => AboutFunctions functions d.page) (fun _ => False) := by
  refine Ensures.each (fun _ (d : Context) => AboutFunctions functions d.page) h ?_
  intro done row rest d hrows hd
  have hrow : row ∈ kindSections := by
    rw [hrows]
    simp
  have hcases : row = (.function, "functions", "Functions") ∨ row.1 ≠ .function := by
    have hall : ∀ row ∈ kindSections,
        row = (.function, "functions", "Functions") ∨ row.1 ≠ .function := by decide
    exact hall row hrow
  rcases hcases with rfl | hother
  · obtain ⟨entries, hentries⟩ := hfound d.page hd
    unfold addKindSection
    dsimp only
    rw [if_neg (by decide)]
    refine Ensures.get_bind ?_
    rw [hentries, ofExcept_ok_bind]
    refine Ensures.ite (fun hmissing => ?_) fun _ => Ensures.pure hd
    exact merge_functionsSection hd (by simpa using (Bool.and_eq_true_iff.mp hmissing).2)
  · have hnone := hd.others row.1 (List.mem_map_of_mem hrow) hother
    unfold Ensures
    dsimp only
    rw [addKindSection_of_none hnone]
    exact hd

/-- The order of such a page has its only section, if there is one. -/
theorem AboutFunctions.ordered (h : AboutFunctions functions p) :
    (completeList [] p.sections.has).all (·.isKey) = true
      ∧ ∀ row ∈ p.sections, (completeList [] p.sections.has).contains row.1 = true := by
  have hkeys := fun row hrow => (h.sections row hrow).1
  cases hsections : p.sections with
  | nil =>
      have hhas : Table.has ([] : Table Value Section) = fun _ => false := rfl
      rw [hhas]
      exact ⟨by decide, by simp⟩
  | cons row rest =>
      rw [hsections] at hkeys
      have hhas : Table.has (row :: rest) = fun id => id == .text "functions" := by
        funext id
        rw [Table.has_eq_any, Bool.eq_iff_iff, List.any_eq_true]
        constructor
        · rintro ⟨other, hother, hlike⟩
          rw [hkeys other hother] at hlike
          exact BEq.symm hlike
        · intro hlike
          refine ⟨row, List.mem_cons_self, ?_⟩
          rw [hkeys row List.mem_cons_self]
          exact BEq.symm hlike
      rw [hhas]
      refine ⟨by decide, fun other hother => ?_⟩
      rw [hkeys other hother]
      decide

/-- Such a page gets as far as to its order. -/
theorem AboutFunctions.beforeOrder (h : AboutFunctions functions p) :
    ∃ order, (Page.beforeOrder p).result = .ok order := by
  obtain ⟨hkeys, hall⟩ := h.ordered
  have hflat := fun row hrow => (h.sections row hrow).2
  have hensures : Ensures Page.beforeOrder p (fun _ _ => True) (fun _ => False) := by
    unfold Page.beforeOrder
    refine Ensures.get_bind ?_
    dsimp only
    split
    · rename_i hfind
      rw [h.unbacked] at hfind
      cases hfind
    · rw [h.unordered]
      refine Ensures.ofExcept_bind (Covers.ok _) fun order horder => ?_
      obtain rfl := Except.ok.inj horder
      refine Ensures.modify_bind ?_
      have hattach := attachNested_of_flat
        (p := { p with order := .list (completeList [] p.sections.has) }) hflat
      refine Ensures.bind_of_ok (by rw [hattach]) ?_
      rw [hattach]
      refine Ensures.modify_bind (Ensures.get_bind ?_)
      dsimp only [Value.items?, Option.getD_some]
      rw [checkNeglected_of_contained hkeys fun row hrow => hall row (List.mem_of_mem_filter hrow)]
      trivial
  exact hensures.exists_ok

/-- Such a page can be closed as soon as its functions can be listed. -/
theorem close_aboutFunctions {c : Context} (hbuilt : BuiltFrom WellFormed c)
    (h : AboutFunctions functions c.page)
    (hfound : ∀ p, AboutFunctions functions p →
      ∃ entries, p.collection Kind.function.toValue = .ok entries) :
    (close c).result = .ok () ∧ (close c).state.page.chunks.fault = none := by
  have hopen : Open (beforeOutline c) :=
    (addKindSections_keeps c (hbuilt.built fun _ he => he.unlevelled).isOpen).1
  have htitled : AllTitled (beforeOutline c) := by
    have hholds := (hbuilt.mono fun _ he => he.outlinable).holds outlinable_placeable
    exact (addKindSections_titled c hholds.allTitled).1
  have hadds := addKindSections_aboutFunctions h hfound
  obtain ⟨_, hadded⟩ := hadds.exists_ok
  have habout : AboutFunctions functions (beforeOutline c) := hadds.of_ok (by rw [← hadded])
  obtain ⟨order, horder⟩ := habout.beforeOrder
  have houtline : Ensures close c (fun _ _ => True)
      (fun cause => Crosses (beforeOutline c).sections (order.items?.getD [])
        ∧ ∃ child, cause = .orderedChild child order) := by
    rw [close_eq]
    refine Ensures.bind_of_ok hadded (Ensures.on ?_)
    exact (outline_crosses hopen htitled horder).mono fun _ _ _ => trivial
  have hclose : (close c).result = .ok () := by
    cases hresult : (close c).result with
    | ok a => rfl
    | error fault =>
        -- Only a nested section can stand too late, and there is none.
        obtain ⟨⟨i, j, top, s, -, -, -, hs, hbelow⟩, -⟩ := houtline.of_error hresult
        obtain ⟨row, hrow, rfl⟩ := List.mem_map.mp (sectionAt_eq_some hopen.filed hs).1
        have hnested := hbelow.nested
        rw [(habout.sections row hrow).2] at hnested
        cases hnested
  refine ⟨hclose, ?_⟩
  have harrangeable := hbuilt.mono fun _ he => he.arrangeable
  rw [(harrangeable.closed arrangeable_placeable (fun _ he => he.unlevelled) hclose).chunks_eq]

/-! ### What arrives -/

/-- Merging a function leaves the sections and the backmatters alone. -/
theorem merge_function_tables (h : e.isOf .function = true) (space : Value) :
    Confined (fun c : Context => (c.page.sections, c.page.backmatters)) (fun _ => True)
      (merge e space) := by
  have honPage {act : Act Page Unit}
      (hact : Confined (fun p : Page => (p.sections, p.backmatters)) (fun _ => True) act) :
      Confined (fun c : Context => (c.page.sections, c.page.backmatters)) (fun _ => True)
        (Context.onPage act) :=
    fun shown => Keeps.on (fun _ hc => hc) (fun _ _ _ hp => hp) (hact shown)
  have hother (kind : Kind) (hlabel : kind.label ≠ Kind.function.label) (hsome : kind.label ≠ "") :
      ¬(e.placed space).isOf kind = true := by
    rw [isOf_placed space e hsome, isOf_eq_false (isOf_iff.mp h) hlabel.symm]
    decide
  have horder := honPage ((takeOrder_confined (e.placed space)).comp fun p =>
    (p.sections, p.backmatters))
  exact fun shown => merge_of_takeIn trivial (fun _ => trivial) (takeIn_of_steps (horder shown)
    (fun _ hc => ⟨hc, fun _ _ => trivial⟩)
    (fun hsect => absurd hsect (hother .sect (by decide) (by decide)))
    (fun hback => absurd hback (hother .backmatter (by decide) (by decide)))
    (fun _ _ _ _ => trivial) fun _ _ hc _ _ => hc)

/-! ### Pages built from files -/

/-- An entry of a file, with the namespace of the file if it has one. -/
def ofFileEntry (a : Entry × Option String) : Arrival :=
  (a.1, .ofText? a.2)

section Files

variable {plugin : Plugin} {pageName : Value} {arrivals : List (Entry × Option String)} {c : Context}
  {warnings : List Warning}

/-- What was collected from files came from one of them, and belongs where it stands. -/
theorem arrival_of_collected
    (hmerge : mergeAll (arrivals.map ofFileEntry) ⟨plugin, { name := pageName }⟩
      = ⟨c, warnings, .ok ()⟩)
    {kind : Kind} (hkind : kind.IsCollected) (he : e ∈ c.page.collections.under kind) :
    ∃ a ∈ arrivals, e = a.1.placed (.ofText? a.2)
      ∧ ∃ library, Plugin.shelf library e = kind.toValue := by
  have hgrown := ((mergeAll_ensures _ _).of_ok hmerge).page kind hkind
  rw [hgrown] at he
  obtain ⟨arrival, harrival, hplaced, hshelf⟩ := mem_shelved he
  obtain ⟨a, ha, rfl⟩ := List.mem_map.mp harrival
  exact ⟨a, ha, hplaced, hshelf⟩

/-- A function that was collected has its name and the namespace of its file. -/
theorem functionIn_of_collected (hread : ∀ a ∈ arrivals, IsRead a.1)
    (hmerge : mergeAll (arrivals.map ofFileEntry) ⟨plugin, { name := pageName }⟩
      = ⟨c, warnings, .ok ()⟩)
    (he : e ∈ c.page.collections.under .function) :
    ∃ a ∈ arrivals, e = a.1.placed (.ofText? a.2) ∧ ∃ name, FunctionIn a.2 name e := by
  obtain ⟨a, ha, rfl, library, hshelf⟩ := arrival_of_collected hmerge (by decide) he
  obtain ⟨hkind, hplain⟩ := Plugin.kindValue_of_shelf hshelf (by decide)
  have hplaced : (a.1.placed (.ofText? a.2)).isOf .function = true := isOf_iff.mpr hkind
  have hfunction : a.1.isOf .function = true := by
    rwa [isOf_placed _ a.1 (by decide)] at hplaced
  have hexception : a.1.hasOwn "exception" = false := by
    rw [← hasOwn_placed_of_ne (.ofText? a.2) a.1 (by decide) (by decide)]
    exact hplain hplaced
  obtain ⟨file, lines, hentry⟩ := hread a ha
  obtain ⟨name, hname⟩ := (Source.entries_named file lines a.1 hentry).function hfunction hexception
  refine ⟨a, ha, rfl, name, hplaced, ?_, ?_, ?_⟩
  · rw [own?_placed _ a.1 (by decide) (by decide)]
    simpa [hasOwn_eq] using hexception
  · rw [own?_placed _ a.1 (by decide) (by decide)]
    exact hname
  · have hspaced := (mergeAll_spaced _ _).of_ok hmerge
    refine hspaced (ofFileEntry a) (List.mem_map_of_mem ha) ?_
    show a.1.kindValue.isGiven = true
    rw [isOf_iff.mp hfunction]
    decide

/-- Where nothing but functions arrives, the page is about functions. -/
theorem aboutFunctions_of_files
    (hmerge : mergeAll (arrivals.map ofFileEntry) ⟨plugin, { name := pageName }⟩
      = ⟨c, warnings, .ok ()⟩)
    (hfunctions : ∀ a ∈ arrivals, a.1.isOf .function = true ∧ a.1.hasOwn "exception" = false)
    (horder : c.page.order = .nothing) :
    AboutFunctions (c.page.collections.under .function) c.page := by
  have htables : (c.page.sections, c.page.backmatters) = ([], []) := by
    have hconfined : Confined (fun c : Context => (c.page.sections, c.page.backmatters))
        (fun _ => True) (mergeAll (arrivals.map ofFileEntry)) := by
      refine fun shown => Keeps.each fun arrival harrival => ?_
      obtain ⟨a, ha, rfl⟩ := List.mem_map.mp harrival
      exact merge_function_tables (hfunctions a ha).1 _ shown
    have hview := hconfined.view_eq ⟨plugin, { name := pageName }⟩
    rw [hmerge] at hview
    exact hview
  obtain ⟨hsections, hbackmatters⟩ := Prod.mk.inj htables
  refine ⟨horder, hbackmatters, ?_, rfl, fun kind hkind hother => ?_⟩
  · rw [hsections]
    simp
  · refine List.eq_nil_iff_forall_not_mem.mpr fun e he => hother ?_
    obtain ⟨a, ha, rfl, library, hshelf⟩ :=
      arrival_of_collected hmerge (shownKinds_collected kind hkind) he
    have hfunction : (a.1.placed (.ofText? a.2)).isOf .function = true := by
      rw [isOf_placed _ a.1 (by decide)]
      exact (hfunctions a ha).1
    have hplain : (a.1.placed (.ofText? a.2)).hasOwn "exception" = false := by
      rw [hasOwn_placed_of_ne _ a.1 (by decide) (by decide)]
      exact (hfunctions a ha).2
    have hsame := documentedAs_of_shelf hshelf
    rw [documentedAs, hfunction, hplain, Bool.and_false, if_neg (by decide),
      isOf_iff.mp hfunction] at hsame
    exact shownKinds_eq_of_label kind hkind .function (by decide) (Value.text.inj hsame).symm

/--
**Functions of files without a namespace have no name, and they keep a page from being closed.**

A function that is in no dictionary is named after the namespace of its file, and where the file has
none, neither the name nor the tag can be made.  The functions of a page can be found unless one
of them has no namespace and is not alone or is called by it.  If they cannot be found, then the page
cannot be closed, whatever else there is on it, and it stays as it is.  If they can be found, then
nothing goes wrong on a page of functions.
-/
theorem closable_unless_spaceless (hread : ∀ a ∈ arrivals, IsRead a.1)
    (hmerge : mergeAll (arrivals.map ofFileEntry) ⟨plugin, { name := pageName }⟩
      = ⟨c, warnings, .ok ()⟩) :
    let functions := c.page.collections.under .function
    (∀ e ∈ functions, ∃ a ∈ arrivals, e = a.1.placed (.ofText? a.2)
      ∧ e.own? "namespace" = some (.ofText? a.2)
      ∧ ∃ name, e.own? "name" = some (.text name)
        ∧ (e.hasOwn "dict" = false → e.fullName = nameIn a.2 name
          ∧ (e.isSecondary = false → e.tagName = nameIn a.2 (name ++ "()"))))
    ∧ (Unlistable functions → c.page.collection Kind.function.toValue = .error .wrongValue
      ∧ close c = ⟨c, [], .error { cause := .wrongValue }⟩)
    ∧ (¬Unlistable functions → ∃ entries, c.page.collection Kind.function.toValue = .ok entries)
    ∧ (¬Unlistable functions → c.page.order = .nothing →
      (∀ a ∈ arrivals, a.1.isOf .function = true ∧ a.1.hasOwn "exception" = false) →
      (close c).result = .ok () ∧ (close c).state.page.chunks.fault = none) := by
  intro functions
  have hcollected (e : Entry) (he : e ∈ functions) := functionIn_of_collected hread hmerge he
  have hin (e : Entry) (he : e ∈ functions) : ∃ space name, FunctionIn space name e := by
    obtain ⟨a, -, -, name, hfunction⟩ := hcollected e he
    exact ⟨a.2, name, hfunction⟩
  refine ⟨fun e he => ?_, fun hunlistable => ?_, collection_of_listable hin, ?_⟩
  · obtain ⟨a, ha, hplaced, name, hfunction⟩ := hcollected e he
    refine ⟨a, ha, hplaced, hfunction.space, name, hfunction.name, fun hfree => ?_⟩
    have hnone : e.own? "dict" = none := by simpa [hasOwn_eq] using hfree
    exact ⟨hfunction.fullName_of_free hnone, fun hfirst => hfunction.tagName_of_free hfirst hnone⟩
  · have hnone := collection_of_unlistable hin hunlistable
    exact ⟨hnone, close_of_unlisted hnone⟩
  · intro hlistable horder hfunctions
    have hbuilt : BuiltFrom WellFormed c := by
      have hstart : BuiltFrom WellFormed ⟨plugin, { name := pageName }⟩ := .start _ _
      have hwell : ∀ arrival ∈ arrivals.map ofFileEntry, arrival.1.WellFormed := by
        intro arrival harrival
        obtain ⟨a, ha, rfl⟩ := List.mem_map.mp harrival
        exact (hread a ha).wellFormed
      have hmerged := hstart.mergeAll hwell
      rwa [hmerge] at hmerged
    refine close_aboutFunctions hbuilt (aboutFunctions_of_files hmerge hfunctions horder) fun p hp => ?_
    have hsame : p.collections.under .function = functions := hp.functions
    rw [← hsame] at hin hlistable
    exact collection_of_listable hin hlistable

end Files

/-- A page with a function that has no namespace cannot be closed, be it the only one or not.  Without
that function it can. -/
theorem closable_unless_spaceless_mixed :
    let plain := (Source.entries none ["\"\" @public\n", "\" Adds an item.\n",
      "function Add(item)\n"]).state.map (·, (none : Option String))
    let spaced := (Source.entries none ["\"\" @public\n", "\" Stops.\n",
      "function demo#Stop()\n"]).state.map (·, some "demo#")
    let page (arrivals : List (Entry × Option String)) : Context :=
      (mergeAll (arrivals.map ofFileEntry)
        ⟨{ name := .text "demo" }, { name := .text "demo" }⟩).state
    (∃ e, (page plain).page.collections.under .function = [e]
      ∧ e.fullName = .error .wrongValue ∧ e.tagName = .error .wrongValue)
    ∧ (∃ e, (page spaced).page.collections.under .function = [e]
      ∧ e.fullName = .ok (.text "demo#Stop") ∧ e.tagName = .ok (.text "demo#Stop()"))
    ∧ (close (page plain)).result = .error { cause := .wrongValue }
    ∧ (close (page (spaced ++ plain))).result = .error { cause := .wrongValue }
    ∧ (close (page spaced)).result = .ok () ∧ (close (page spaced)).state.page.chunks.fault = none := by
  intro plain spaced page
  have hplain : ∀ a ∈ plain, IsRead a.1 := by
    intro a ha
    obtain ⟨e, he, rfl⟩ := List.mem_map.mp ha
    exact ⟨none, _, he⟩
  have hspaced : ∀ a ∈ spaced, IsRead a.1 := by
    intro a ha
    obtain ⟨e, he, rfl⟩ := List.mem_map.mp ha
    exact ⟨none, _, he⟩
  have hboth : ∀ a ∈ spaced ++ plain, IsRead a.1 := fun a ha =>
    (List.mem_append.mp ha).elim (hspaced a) (hplain a)
  let fresh : Context := ⟨{ name := .text "demo" }, { name := .text "demo" }⟩
  have hrun (arrivals : List (Entry × Option String))
      (hok : (mergeAll (arrivals.map ofFileEntry) fresh).result = .ok ()) :
      mergeAll (arrivals.map ofFileEntry) fresh
        = ⟨page arrivals, (mergeAll (arrivals.map ofFileEntry) fresh).warnings, .ok ()⟩ := by
    rw [← hok]
  obtain ⟨hplainOk, hplainFree, hplainFirst, hplainNot⟩ :
      (mergeAll (plain.map ofFileEntry) fresh).result = .ok ()
      ∧ ((page plain).page.collections.under .function).map (·.hasOwn "dict") = [false]
      ∧ ((page plain).page.collections.under .function).map (·.isSecondary) = [false]
      ∧ Unlistable ((page plain).page.collections.under .function) := by decide +kernel
  obtain ⟨hspacedOk, hspacedNames, hspacedFree, hspacedFirst, hspacedNot, horder, hfunctions⟩ :
      (mergeAll (spaced.map ofFileEntry) fresh).result = .ok ()
      ∧ ((page spaced).page.collections.under .function).map (·.own? "name")
        = [some (.text "Stop")]
      ∧ ((page spaced).page.collections.under .function).map (·.hasOwn "dict") = [false]
      ∧ ((page spaced).page.collections.under .function).map (·.isSecondary) = [false]
      ∧ ¬Unlistable ((page spaced).page.collections.under .function)
      ∧ (page spaced).page.order = .nothing
      ∧ ∀ a ∈ spaced, a.1.isOf .function = true ∧ a.1.hasOwn "exception" = false := by
    decide +kernel
  obtain ⟨hbothOk, hbothNot⟩ :
      (mergeAll ((spaced ++ plain).map ofFileEntry) fresh).result = .ok ()
      ∧ Unlistable ((page (spaced ++ plain)).page.collections.under .function) := by
    decide +kernel
  obtain ⟨hplainTold, hplainStops, -⟩ := closable_unless_spaceless hplain (hrun plain hplainOk)
  obtain ⟨hspacedTold, -, -, hspacedCloses⟩ :=
    closable_unless_spaceless hspaced (hrun spaced hspacedOk)
  obtain ⟨-, hbothStops, -⟩ := closable_unless_spaceless hboth (hrun _ hbothOk)
  refine ⟨?_, ?_, ?_, ?_, hspacedCloses hspacedNot horder hfunctions⟩
  · obtain ⟨e, _, he, hfree, hrest⟩ := List.map_eq_cons_iff.mp hplainFree
    obtain rfl := List.map_eq_nil_iff.mp hrest
    have hfirst : e.isSecondary = false := by simpa [he] using hplainFirst
    obtain ⟨a, ha, -, -, name, -, htold⟩ := hplainTold e (by rw [he]; exact List.mem_cons_self)
    obtain ⟨entry, -, rfl⟩ := List.mem_map.mp ha
    exact ⟨e, he, (htold hfree).1, (htold hfree).2 hfirst⟩
  · obtain ⟨e, _, he, hfree, hrest⟩ := List.map_eq_cons_iff.mp hspacedFree
    obtain rfl := List.map_eq_nil_iff.mp hrest
    have hfirst : e.isSecondary = false := by simpa [he] using hspacedFirst
    obtain ⟨a, ha, -, -, name, hname, htold⟩ := hspacedTold e (by rw [he]; exact List.mem_cons_self)
    obtain ⟨entry, -, rfl⟩ := List.mem_map.mp ha
    obtain rfl : name = "Stop" := by simpa [he, hname] using hspacedNames
    exact ⟨e, he, (htold hfree).1, (htold hfree).2 hfirst⟩
  · rw [(hplainStops hplainNot).2]
  · rw [(hbothStops hbothNot).2]

end Page

end PluginHelp
