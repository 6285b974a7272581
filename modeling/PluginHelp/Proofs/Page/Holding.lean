/-
What a page holds.

Everything that a page holds was merged into it: its sections, its backmatters and what it has
collected.  So a property that all merged entries have, and that is not lost when an entry is given
the namespace of its file, is one of everything that the page holds, and each entry stands where its
kind asks for.

When a page is closed, it gets a section for every kind of which it has collected something.  These
are merged like all others, and collections stay as they are.  Then the sections are brought into
their outline, and nothing else changes.  So what was merged is also all that a closed page holds.
-/
import PluginHelp.Proofs.Page.Close
import PluginHelp.Proofs.Page.Shelves

namespace PluginHelp.Page

open Act Entry

variable {P Q : Entry → Prop} {c : Context} {e : Entry}

/-! ### Pages that were built from some entries -/

/-- A page as it may be when it is closed: entries with a property were merged into it, one after the
other, each of which may have failed.  Meanwhile the plugin may have changed, since other pages share
it. -/
inductive BuiltFrom (P : Entry → Prop) : Context → Prop
  | start (plugin : Plugin) (name : Value) : BuiltFrom P ⟨plugin, { name }⟩
  | merge {c : Context} {e : Entry} (space : Value) :
    BuiltFrom P c → P e → BuiltFrom P (Page.merge e space c).state
  | share {c : Context} (plugin : Plugin) : BuiltFrom P c → BuiltFrom P { c with plugin }

namespace BuiltFrom

theorem mono (h : BuiltFrom P c) (k : ∀ e, P e → Q e) : BuiltFrom Q c := by
  induction h with
  | start plugin name => exact .start plugin name
  | merge space _ he ih => exact .merge space ih (k _ he)
  | share plugin _ ih => exact .share plugin ih

theorem built (h : BuiltFrom P c) (k : ∀ e, P e → e.hasOwn "level" = false) : Built c := by
  induction h with
  | start plugin name => exact .start plugin name
  | merge space _ he ih => exact .merge _ space ih (k _ he)
  | share plugin _ ih => exact .share plugin ih

/-- Merging entries one after the other builds a page, also if one of them fails. -/
theorem mergeAll {arrivals : List Arrival} (h : BuiltFrom P c) (harrivals : ∀ a ∈ arrivals, P a.1) :
    BuiltFrom P (Page.mergeAll arrivals c).state := by
  induction arrivals generalizing c with
  | nil => exact h
  | cons a rest ih =>
      obtain ⟨ha, hrest⟩ := List.forall_mem_cons.mp harrivals
      have hmerged := h.merge a.2 ha
      rw [Page.mergeAll, each_cons]
      rcases hmerge : Page.merge a.1 a.2 c with ⟨d, warnings, fault | b⟩
      · rw [hmerge] at hmerged
        rw [bind_apply_error _ hmerge]
        exact hmerged
      · rw [hmerge] at hmerged
        rw [bind_apply_ok _ hmerge]
        exact ih hmerged hrest

/-- The entries of a file have the same namespace. -/
theorem merge_each {entries : List Entry} (h : BuiltFrom P c) (space : Value)
    (hentries : ∀ e ∈ entries, P e) :
    BuiltFrom P (Act.each entries (fun e => Page.merge e space) c).state := by
  rw [← each_map (fun e : Entry => ((e, space) : Arrival)) entries fun a => Page.merge a.1 a.2]
  refine h.mergeAll fun a ha => ?_
  obtain ⟨e, he, rfl⟩ := List.mem_map.mp ha
  exact hentries e he

end BuiltFrom

/-- An entry that was read from the lines of a file, as far as they could be read. -/
def IsRead (e : Entry) : Prop :=
  ∃ file lines, e ∈ (Source.entries file lines).state

theorem IsRead.wellFormed (h : IsRead e) : e.WellFormed := by
  obtain ⟨file, lines, he⟩ := h
  exact Source.entries_wellFormed file lines e he

theorem IsRead.settled (h : IsRead e) : e.Settled := by
  obtain ⟨file, lines, he⟩ := h
  exact Source.entries_settled file lines e he

/-- A page into which the entries of a file with a namespace are merged. -/
def ofFileIn (space : Value) (name : String) (lines : List String) : Context :=
  (Act.each (Source.entries none lines).state (fun e => merge e space)
    ⟨{ name := .text name }, { name := .text name }⟩).state

theorem builtFrom_ofFileIn (space : Value) (name : String) (lines : List String) :
    BuiltFrom IsRead (ofFileIn space name lines) :=
  (BuiltFrom.start _ _).merge_each _ fun _ he => ⟨none, lines, he⟩

/-! ### Entries that can be taken in -/

/-- A property that an entry keeps when it is given its namespace, and that the sections have which a
page gets by itself. -/
structure Placeable (P : Entry → Prop) : Prop where
  placed : ∀ {e : Entry} (space : Value), P e → P (e.placed space)
  newSection : ∀ {e : Entry} {id title : String}, e.own = (newSection id title).own → P e

theorem Placeable.and (h : Placeable P) (k : Placeable Q) : Placeable fun e => P e ∧ Q e where
  placed space he := ⟨h.placed space he.1, k.placed space he.2⟩
  newSection hown := ⟨h.newSection hown, k.newSection hown⟩

theorem settled_placeable : Placeable Settled where
  placed space he := placed_settled he space
  newSection hown := newSection_settled _ _ hown

theorem wellFormed_placeable : Placeable WellFormed where
  placed {e} space he := by
    refine he.congr (fun kind hlabel => isOf_placed space e hlabel) fun control hcontrol => ?_
    refine own?_placed space e ?_ ?_
    all_goals
      rintro rfl
      simp at hcontrol
  newSection {e id title} hown := by
    have hwell : (newSection id title).WellFormed := by
      refine ⟨rfl, fun _ => rfl, fun _ => ⟨rfl, isText_some title⟩, fun hdict => ?_, ?_⟩
      · cases hdict
      · intro held hheld
        cases hheld
    exact hwell.of_own hown

theorem hasOwn_placed (space : Value) (e : Entry) :
    (e.placed space).hasOwn "namespace" = true := by
  rw [placed, setOwn_apply]
  split
  · rw [hasOwn_eq, own?_putOwn_self]
    rfl
  · rename_i hunlike
    cases hheld : e.marked.own? "namespace" with
    | some held =>
        rw [hasOwn_eq, hheld]
        rfl
    | none =>
        rw [hheld] at hunlike
        exact absurd BEq.rfl hunlike

theorem hasOwn_placed_of_ne (space : Value) (e : Entry) {control : String}
    (h : control ≠ "namespace") (htype : control ≠ "type") :
    (e.placed space).hasOwn control = e.hasOwn control := by
  rw [hasOwn_eq, own?_placed space e h htype, hasOwn_eq]

/-! ### What a page holds -/

/-- An entry as a page holds it. -/
structure Held (P : Entry → Prop) (e : Entry) : Prop where
  fits : P e
  placed : e.hasOwn "namespace" = true

/-- Everything that a page holds has a property and stands where it is to stand. -/
structure Holds (P : Entry → Prop) (p : Page) : Prop where
  sections : ∀ row ∈ p.sections, Held P row.2.entry ∧ row.2.entry.isOf .sect = true
  backmatters : ∀ row ∈ p.backmatters, Held P row.2 ∧ row.2.isOf .backmatter = true
  distinct : Distinct p.backmatters.keys
  collected : ∀ kind, ∀ e ∈ p.collections.under kind,
    Held P e ∧ ∃ library, Plugin.shelf library e = kind.toValue

theorem Held.mono (h : Held P e) (k : ∀ e, P e → Q e) : Held Q e :=
  ⟨k e h.fits, h.placed⟩

theorem Holds.mono {p : Page} (h : Holds P p) (k : ∀ e, P e → Q e) : Holds Q p where
  sections row hrow := ⟨(h.sections row hrow).1.mono k, (h.sections row hrow).2⟩
  backmatters row hrow := ⟨(h.backmatters row hrow).1.mono k, (h.backmatters row hrow).2⟩
  distinct := h.distinct
  collected kind e he := ⟨(h.collected kind e he).1.mono k, (h.collected kind e he).2⟩

/-- A step on a page that leaves it with nothing but such entries, whether it succeeds or not. -/
abbrev KeepsHeld (P : Entry → Prop) (act : Act Page Unit) : Prop :=
  Keeps (Holds P) (fun _ => True) act

theorem takeOrder_holds (e : Entry) : KeepsHeld P (takeOrder e) := by
  unfold takeOrder
  split
  · exact Keeps.pure ()
  · refine Keeps.get.bind fun p => Keeps.ite (fun _ => ?_) fun _ => Keeps.fail trivial
    exact Keeps.modify fun _ hp => ⟨hp.sections, hp.backmatters, hp.distinct, hp.collected⟩

theorem addSection_holds (he : Held P e) (hsect : e.isOf .sect = true) :
    KeepsHeld P (addSection e) := by
  intro p hp
  unfold addSection
  rw [get_bind_apply]
  cases hsettle : settle Section.entry p.sections ⟨p.arrivals, e⟩ .duplicateSection with
  | error cause => exact ⟨hp, fun _ _ => trivial⟩
  | ok sections =>
      refine ⟨⟨?_, hp.backmatters, hp.distinct, hp.collected⟩, fun _ _ => trivial⟩
      show ∀ row ∈ sections, Held P row.2.entry ∧ row.2.entry.isOf .sect = true
      rcases settle_eq_ok hsettle with rfl | rfl
      · exact hp.sections
      · exact Table.forall_mem_set
          (P := fun (_ : Value) (s : Section) => Held P s.entry ∧ s.entry.isOf .sect = true)
          hp.sections fun _ _ => ⟨he, hsect⟩

theorem addBackmatter_holds (he : Held P e) (hback : e.isOf .backmatter = true) :
    KeepsHeld P (addBackmatter e) := by
  intro p hp
  unfold addBackmatter
  rw [get_bind_apply]
  cases hsettle : settle id p.backmatters e .duplicateBackmatter with
  | error cause => exact ⟨hp, fun _ _ => trivial⟩
  | ok backmatters =>
      refine ⟨⟨hp.sections, ?_, ?_, hp.collected⟩, fun _ _ => trivial⟩
      · show ∀ row ∈ backmatters, Held P row.2 ∧ row.2.isOf .backmatter = true
        rcases settle_eq_ok hsettle with rfl | rfl
        · exact hp.backmatters
        · exact Table.forall_mem_set
            (P := fun (_ : Value) (e : Entry) => Held P e ∧ e.isOf .backmatter = true)
            hp.backmatters fun _ _ => ⟨he, hback⟩
      · show Distinct backmatters.keys
        rcases settle_eq_ok hsettle with rfl | rfl
        · exact hp.distinct
        · exact Table.distinct_set hp.distinct _ _

theorem collect_holds (he : Held P e) {p : Page} (hp : Holds P p) {library : Bool}
    {collections : Collections} (h : p.collections.add (Plugin.shelf library e) e = .ok collections) :
    Holds P { p with collections } := by
  refine ⟨hp.sections, hp.backmatters, hp.distinct, fun kind other hother => ?_⟩
  rw [Collections.under_add h kind, List.mem_append] at hother
  rcases hother with hother | hother
  · exact hp.collected kind other hother
  · split at hother
    · rename_i hlike
      rw [List.mem_singleton.mp hother]
      exact ⟨he, library, Value.beq_text_iff.mp hlike⟩
    · cases hother

theorem takeIn_holds (he : Held P e) :
    Keeps (fun c : Context => Holds P c.page) (fun _ => True) (takeIn e) := by
  have hpage {act : Act Page Unit} (h : KeepsHeld P act) :
      Keeps (fun c : Context => Holds P c.page) (fun _ => True) (Context.onPage act) :=
    Keeps.on (fun _ hc => hc) (fun _ _ _ hp => hp) h
  exact takeIn_of_steps (hpage (takeOrder_holds e)) (fun _ hc => ⟨hc, fun _ _ => trivial⟩)
    (fun hsect => hpage (addSection_holds he hsect))
    (fun hback => hpage (addBackmatter_holds he hback)) (fun _ _ _ _ => trivial)
    fun _ _ hc _ hadd => collect_holds he hc hadd

theorem merge_holds (hP : Placeable P) (he : P e) (space : Value) :
    Keeps (fun c : Context => Holds P c.page) (fun _ => True) (merge e space) :=
  merge_of_takeIn trivial (fun _ => trivial)
    (takeIn_holds ⟨hP.placed space he, hasOwn_placed space e⟩)

/-- What was merged into a page is all that it holds. -/
theorem BuiltFrom.holds (hP : Placeable P) (h : BuiltFrom P c) : Holds P c.page := by
  induction h with
  | start plugin name =>
      refine ⟨by simp, by simp, List.Pairwise.nil, fun kind e he => ?_⟩
      cases he
  | merge space _ he ih => exact (merge_holds hP he space _ ih).1
  | share plugin _ ih => exact ih

theorem addKindSections_holds (hP : Placeable P) :
    Keeps (fun c : Context => Holds P c.page) (fun _ => True) addKindSections :=
  addKindSections_of_merge (fun _ _ => trivial) (fun _ _ _ _ => trivial)
    fun _ _ _ hown => merge_holds hP (hP.newSection hown) _

/-! ### What is found under a kind -/

theorem withoutFallbacks_sublist {tags : List Value} {entries kept : List Entry}
    (h : withoutFallbacks tags entries = .ok kept) : kept.Sublist entries := by
  induction entries generalizing kept with
  | nil =>
      obtain rfl : [] = kept := Except.ok.inj h
      exact List.Sublist.slnil
  | cons e rest ih =>
      have hrest (keep : Bool)
          (hkept : (do
            let others ← withoutFallbacks tags rest
            pure (if keep then e :: others else others)) = Except.ok kept) :
          kept.Sublist (e :: rest) := by
        obtain ⟨others, hothers, heq⟩ := Except.bind_eq_ok_iff.mp hkept
        obtain rfl := Except.ok.inj heq
        cases keep with
        | true => exact (ih hothers).cons_cons e
        | false => exact (ih hothers).cons e
      rw [withoutFallbacks] at h
      dsimp only at h
      split at h
      · obtain ⟨tag, -, hkept⟩ := Except.bind_eq_ok_iff.mp h
        exact hrest _ hkept
      · exact hrest true h

theorem arrange_perm {kind : Value} {entries arranged : List Entry}
    (h : arrange kind entries = .ok arranged) : arranged.Perm entries := by
  unfold arrange at h
  split at h
  · exact (sortByValue_sorted h).perm
  · split at h
    · exact (Sorting.sort_sorted isBefore_consistent h).perm
    · obtain rfl := Except.ok.inj h
      exact List.Perm.refl _

/-- Whatever is found under a kind was collected under it. -/
theorem collection_subset {p : Page} {kind : Kind} {entries : List Entry}
    (h : p.collection kind.toValue = .ok entries) : ∀ e ∈ entries, e ∈ p.collections.under kind := by
  obtain ⟨held, hheld, hfound⟩ := Except.bind_eq_ok_iff.mp h
  rw [Collections.entries_eq] at hheld
  obtain ⟨arranged, harranged, hfirm⟩ := Except.bind_eq_ok_iff.mp hfound
  obtain ⟨tags, -, hkept⟩ := Except.bind_eq_ok_iff.mp hfirm
  intro e he
  rw [Except.ok.inj hheld]
  exact (arrange_perm harranged).subset ((withoutFallbacks_sublist hkept).subset he)

/-- Each fallback is looked for. -/
theorem keyTag_of_withoutFallbacks {tags : List Value} {entries kept : List Entry}
    (h : withoutFallbacks tags entries = .ok kept) (he : e ∈ entries)
    (hfallback : e.isFallback = true) : ∃ tag, keyTag e = .ok tag := by
  induction entries generalizing kept with
  | nil => cases he
  | cons other rest ih =>
      rw [withoutFallbacks] at h
      dsimp only at h
      split at h
      · obtain ⟨tag, htag, h⟩ := Except.bind_eq_ok_iff.mp h
        obtain ⟨keep, -, h⟩ := Except.bind_eq_ok_iff.mp h
        obtain ⟨others, hothers, -⟩ := Except.bind_eq_ok_iff.mp h
        rcases List.mem_cons.mp he with rfl | he
        · exact ⟨tag, htag⟩
        · exact ih hothers he
      · rename_i hfirm
        obtain ⟨keep, -, h⟩ := Except.bind_eq_ok_iff.mp h
        obtain ⟨others, hothers, -⟩ := Except.bind_eq_ok_iff.mp h
        rcases List.mem_cons.mp he with rfl | he
        · exact absurd hfallback hfirm
        · exact ih hothers he

/-- Where the entries of a kind are found, all that were collected under it could be looked for. -/
theorem keyTag_of_collection {p : Page} {kind : Kind} {entries : List Entry}
    (h : p.collection kind.toValue = .ok entries) :
    ∀ e ∈ p.collections.under kind, ∃ tag, keyTag e = .ok tag := by
  obtain ⟨held, hheld, hfound⟩ := Except.bind_eq_ok_iff.mp h
  rw [Collections.entries_eq] at hheld
  obtain ⟨arranged, harranged, hfirm⟩ := Except.bind_eq_ok_iff.mp hfound
  obtain ⟨tags, htags, hkept⟩ := Except.bind_eq_ok_iff.mp hfirm
  intro e he
  rw [Except.ok.inj hheld] at he
  have hmem := (arrange_perm harranged).mem_iff.mpr he
  cases hfallback : e.isFallback with
  | false =>
      refine Except.exists_mapM_iff.mp ⟨tags, htags⟩ e (List.mem_filter.mpr ⟨hmem, ?_⟩)
      rw [hfallback]
      rfl
  | true => exact keyTag_of_withoutFallbacks hkept hmem hfallback

/-- Finding the entries of a kind fails only where arranging them or looking for one of them does. -/
theorem collection_covers_of_tags {p : Page} {kind : Kind} {allowed : Cause → Prop}
    (harrange : Covers allowed (arrange kind.toValue (p.collections.under kind)))
    (htags : ∀ e ∈ p.collections.under kind, Covers allowed (keyTag e)) :
    Covers allowed (p.collection kind.toValue) := by
  rw [collection, Collections.entries_eq]
  refine harrange.bind fun arranged harranged => ?_
  have harrangedTags (e : Entry) (he : e ∈ arranged) : Covers allowed (keyTag e) :=
    htags e ((arrange_perm harranged).mem_iff.mp he)
  refine Covers.bind (Covers.mapM fun e he => ?_) fun tags _ => withoutFallbacks_covers harrangedTags tags
  exact harrangedTags e (List.mem_of_mem_filter he)

theorem collection_of_none {p : Page} {kind : Kind} (h : p.collections.under kind = []) :
    p.collection kind.toValue = .ok [] := by
  have harrange : arrange kind.toValue [] = .ok [] := by
    unfold arrange
    split
    · rfl
    · split <;> rfl
  rw [collection, Collections.entries_eq, h]
  show (arrange kind.toValue [] >>= _) = _
  rw [harrange]
  rfl

/-! ### The sections that a page gets -/

/-- An entry that is put under its identifier is found there, and nothing else is lost. -/
theorem settle_has {α : Type} {entry : α → Entry} {table result : Table Value α} {a : α}
    {duplicate : Value → Cause} (h : settle entry table a duplicate = .ok result) :
    result.has ((entry a).ownD "id") = true
      ∧ ∀ key, table.has key = true → result.has key = true := by
  have hset : (table.set ((entry a).ownD "id") a).has ((entry a).ownD "id") = true
      ∧ ∀ key, table.has key = true → (table.set ((entry a).ownD "id") a).has key = true := by
    refine ⟨?_, fun key hkey => ?_⟩
    · rw [Table.has_set, BEq.rfl, Bool.or_true]
    · rw [Table.has_set, hkey, Bool.true_or]
  by_cases hhas : table.has ((entry a).ownD "id") = true
  · rcases settle_eq_ok h with rfl | rfl
    · exact ⟨hhas, fun _ hkey => hkey⟩
    · exact hset
  · have hnone : table.get? ((entry a).ownD "id") = none := by
      simpa [Table.has] using hhas
    unfold settle at h
    dsimp only at h
    rw [hnone] at h
    split at h
    · obtain rfl := Except.ok.inj h
      exact hset
    · cases h

/-- A page has what it had: the same collections, and every section still. -/
structure Enlarged (p q : Page) : Prop where
  collected : ∀ kind : Kind, kind.IsCollected → q.collections.under kind = p.collections.under kind
  kept : ∀ key, p.sections.has key = true → q.sections.has key = true

theorem Enlarged.refl (p : Page) : Enlarged p p :=
  ⟨fun _ _ => rfl, fun _ hkey => hkey⟩

theorem Enlarged.trans {p q r : Page} (h : Enlarged p q) (k : Enlarged q r) : Enlarged p r where
  collected kind hkind := (k.collected kind hkind).trans (h.collected kind hkind)
  kept key hkey := k.kept key (h.kept key hkey)

/-- What is collected under a kind is arranged in the same way wherever it is collected. -/
theorem Enlarged.collection {p q : Page} (h : Enlarged p q) {kind : Kind}
    (hkind : kind.IsCollected) : q.collection kind.toValue = p.collection kind.toValue := by
  rw [Page.collection, Page.collection, Collections.entries_eq, Collections.entries_eq,
    h.collected kind hkind]

theorem takeIn_section (hsect : e.isOf .sect = true) (c : Context) :
    Ensures (takeIn e) c (fun _ d => d.page.sections.has (e.ownD "id") = true
      ∧ ∀ key, c.page.sections.has key = true → d.page.sections.has key = true)
      (fun _ => True) := by
  unfold takeIn
  have horder : Ensures (Context.onPage (takeOrder e)) c
      (fun _ d => d.page.sections = c.page.sections) (fun _ => True) :=
    Ensures.on (Ensures.of_confined ((takeOrder_confined e).comp Page.sections) c.page)
  refine Ensures.bind horder fun _ d hd => ?_
  have hplugin : Ensures (Context.onPlugin (Plugin.add e)) d
      (fun _ u => u.page = d.page) (fun _ => True) :=
    Ensures.on ((Plugin.add_ensures e d.plugin).mono fun _ _ _ => rfl)
  refine Ensures.bind hplugin fun _ u hu => ?_
  rw [if_pos hsect, ← hd, ← hu]
  refine Ensures.on (Ensures.get_bind (Ensures.ofExcept_bind (fun _ _ => trivial) ?_))
  intro sections hsettle
  exact Ensures.modify (settle_has hsettle)

/-- Merging a section enlarges a page. -/
theorem merge_section (hsect : e.isOf .sect = true) (space : Value) (c : Context) :
    Ensures (merge e space) c (fun _ d => Enlarged c.page d.page
      ∧ d.page.sections.has (e.ownD "id") = true) (fun _ => True) := by
  have hplaced : (e.placed space).isOf .sect = true := by
    rw [isOf_placed space e (by decide)]
    exact hsect
  have hid : (e.placed space).ownD "id" = e.ownD "id" := by
    rw [ownD, own?_placed space e (by decide) (by decide), ownD]
  have hsections : Ensures (merge e space) c
      (fun _ d => d.page.sections.has (e.ownD "id") = true
        ∧ ∀ key, c.page.sections.has key = true → d.page.sections.has key = true)
      (fun _ => True) := by
    rw [merge_eq, isOf_iff.mp hsect, if_pos (by decide), if_neg (by decide), ← hid]
    exact Ensures.within_bind (fun _ _ => trivial) (takeIn_section hplaced c)
  refine (((merge_ensures e space c).both hsections).mono ?_).allow fun _ _ => trivial
  rintro _ d ⟨htaken, hhas, hkept⟩
  refine ⟨⟨fun kind hkind => ?_, hkept⟩, hhas⟩
  have hspeaks : (e.placed space).speaks = true := by rw [speaks, hplaced, Bool.true_or]
  rw [htaken.page kind hkind, Plugin.shelf_of_speaks hspeaks _ hkind, if_neg (by decide),
    List.append_nil]

theorem newSection_isOf (id title : String) (h : e.own = (newSection id title).own) :
    e.isOf .sect = true ∧ e.ownD "id" = .text id := by
  rw [isOf_of_own h, ownD, own?, h]
  exact ⟨rfl, rfl⟩

theorem addFlagHelp_enlarges (c : Context) :
    Ensures addFlagHelp c (fun _ d => Enlarged c.page d.page) (fun _ => True) := by
  unfold addFlagHelp
  refine Ensures.get_bind (Ensures.ofExcept_bind (fun _ _ => trivial) fun flags _ => ?_)
  refine Ensures.ite (fun _ => ?_) fun _ => Ensures.pure (Enlarged.refl _)
  -- What the text says does not matter, and Lean must not read it.
  generalize flagHelp = text
  refine Ensures.within_bind (fun _ _ => trivial) ?_
  refine (merge_section (newSection_isOf "config" "Configuration" ?_).1 _ c).mono
    fun _ _ hd => hd.1
  have htold : Confined Entry.own (fun _ => True) (addLine text) :=
    (addLine_tells text).confined (fun _ => rfl) _
  exact htold.view_eq _

/-- A kind of which something is collected has its section afterwards. -/
theorem addKindSection_enlarges {kind : Kind} (hkind : kind.IsCollected) (id title : String)
    (c : Context) :
    Ensures (addKindSection kind id title) c (fun _ d => Enlarged c.page d.page
      ∧ ∃ entries, c.page.collection kind.toValue = .ok entries
        ∧ (entries ≠ [] → d.page.sections.has (.text id) = true)) (fun _ => True) := by
  -- Whether the section on flags was added before or not, the kind is looked at in the same way.
  have hadd (d : Context) (hd : Enlarged c.page d.page) : Ensures (do
      let page := (← Act.get).page
      let entries ← Act.ofExcept (page.collection kind.toValue)
      if !entries.isEmpty && !page.sections.has (.text id) then
        merge (newSection id title) .nothing) d
      (fun _ u => Enlarged c.page u.page ∧ ∃ entries, c.page.collection kind.toValue = .ok entries
        ∧ (entries ≠ [] → u.page.sections.has (.text id) = true)) (fun _ => True) := by
    refine Ensures.get_bind (Ensures.ofExcept_bind (fun _ _ => trivial) fun entries hentries => ?_)
    rw [hd.collection hkind] at hentries
    refine Ensures.ite (fun _ => ?_) fun hthere => ?_
    · obtain ⟨hsect, hid⟩ := newSection_isOf id title (rfl : (newSection id title).own = _)
      refine (merge_section hsect _ d).mono fun _ u hu => ?_
      rw [hid] at hu
      exact ⟨hd.trans hu.1, entries, hentries, fun _ => hu.2⟩
    · refine Ensures.pure ⟨hd, entries, hentries, fun hsome => ?_⟩
      simpa [hsome] using hthere
  unfold addKindSection
  dsimp only
  refine Ensures.ite (fun _ => ?_) fun _ => hadd c (Enlarged.refl _)
  exact Ensures.bind (addFlagHelp_enlarges c) fun _ d hd => hadd d hd

theorem kindSections_collected : ∀ row ∈ kindSections, row.1.IsCollected := by decide

/-- Every kind of which a page has collected something gets its section. -/
theorem addKindSections_enlarges (c : Context) :
    Ensures addKindSections c (fun _ d => Enlarged c.page d.page
      ∧ ∀ row ∈ kindSections, ∃ entries, c.page.collection row.1.toValue = .ok entries
        ∧ (entries ≠ [] → d.page.sections.has (.text row.2.1) = true)) (fun _ => True) := by
  refine Ensures.each (fun (done : List (Kind × String × String)) (d : Context) =>
    Enlarged c.page d.page ∧ ∀ row ∈ done, ∃ entries, c.page.collection row.1.toValue = .ok entries
      ∧ (entries ≠ [] → d.page.sections.has (.text row.2.1) = true))
    ⟨Enlarged.refl _, by simp⟩ ?_
  intro done row rest d hrows hd
  have hkind : row.1.IsCollected := kindSections_collected row (by rw [hrows]; simp)
  refine (addKindSection_enlarges hkind row.2.1 row.2.2 d).mono fun _ u hu => ?_
  obtain ⟨henlarged, entries, hentries, hsection⟩ := hu
  refine ⟨hd.1.trans henlarged, fun other hother => ?_⟩
  rcases List.mem_append.mp hother with hother | hother
  · obtain ⟨found, hfound, hhas⟩ := hd.2 other hother
    exact ⟨found, hfound, fun hsome => henlarged.kept _ (hhas hsome)⟩
  · obtain rfl : other = row := by simpa using hother
    rw [hd.1.collection hkind] at hentries
    exact ⟨entries, hentries, hsection⟩

/-! ### Closed pages -/

/-- A page before its outline and after it, and what is known of both. -/
structure ClosedFrom (P : Entry → Prop) (p q : Page) : Prop where
  filed : Filed p.sections
  holds : Holds P p
  outlined : Outlined p q
  found : ∀ row ∈ kindSections, ∃ entries, q.collection row.1.toValue = .ok entries
    ∧ (entries ≠ [] → p.sections.has (.text row.2.1) = true)

theorem BuiltFrom.closed (hP : Placeable P) (hlevel : ∀ e, P e → e.hasOwn "level" = false)
    (h : BuiltFrom P c) (hclose : (close c).result = .ok ()) :
    ClosedFrom P (beforeOutline c) (close c).state.page := by
  have hbuilt : Built c := h.built hlevel
  have houtlined : Outlined (beforeOutline c) (close c).state.page :=
    (close_ensures hbuilt).of_ok (by rw [← hclose])
  have hadded : (addKindSections c).result = .ok () := by
    rw [close_eq] at hclose
    rcases hadd : addKindSections c with ⟨d, warnings, fault | a⟩
    · rw [bind_apply_error _ hadd] at hclose
      cases hclose
    · rfl
  obtain ⟨henlarged, hfound⟩ := (addKindSections_enlarges c).of_ok (by rw [← hadded])
  refine ⟨(addKindSections_keeps c hbuilt.isOpen).1.filed,
    (addKindSections_holds hP c (h.holds hP)).1, houtlined, fun row hrow => ?_⟩
  have hkind : row.1.IsCollected := kindSections_collected row hrow
  obtain ⟨entries, hentries, hhas⟩ := hfound row hrow
  refine ⟨entries, ?_, hhas⟩
  rw [← hentries, ← henlarged.collection hkind, collection, houtlined.collections]
  rfl

namespace ClosedFrom

variable {p q : Page}

theorem mono (h : ClosedFrom P p q) (k : ∀ e, P e → Q e) : ClosedFrom Q p q :=
  ⟨h.filed, h.holds.mono k, h.outlined, h.found⟩

/-- A section of a closed page is one that it had before, at a level. -/
theorem row (h : ClosedFrom P p q) {row : Value × Section} (hrow : row ∈ q.sections) :
    ∃ s ∈ sectionsOf p.sections, ∃ level, (row.1 == idOf s) = true ∧ row.2 = atLevel level s := by
  obtain ⟨-, -, -, s, level, -, -, -, hdepth, hkey, hheld⟩ := h.outlined.brought row hrow
  exact ⟨s, hdepth.mem, level, hkey, hheld⟩

theorem isOf_sect (h : ClosedFrom P p q) {row : Value × Section} (hrow : row ∈ q.sections) :
    row.2.entry.isOf .sect = true := by
  obtain ⟨s, hs, level, -, hheld⟩ := h.row hrow
  obtain ⟨before, hbefore, rfl⟩ := List.mem_map.mp hs
  rw [hheld, isOf, kindValue, ownD, own?_atLevel level before.2 (by decide)]
  exact (h.holds.sections before hbefore).2

/-- What a closed page has collected under a kind was merged, and stands there for its kind. -/
theorem collected (h : ClosedFrom P p q) {kind : Kind} {entries : List Entry}
    (hentries : q.collection kind.toValue = .ok entries) :
    ∀ e ∈ entries, Held P e ∧ ∃ library, Plugin.shelf library e = kind.toValue := by
  intro e he
  have hmem := collection_subset hentries e he
  rw [h.outlined.collections] at hmem
  exact h.holds.collected kind e hmem

theorem backmatter (h : ClosedFrom P p q) {id : Value} (hget : q.backmatters.get? id = some e) :
    Held P e ∧ e.isOf .backmatter = true := by
  rw [h.outlined.backmatters] at hget
  obtain ⟨key, hmem, -⟩ := Table.mem_of_get? hget
  exact h.holds.backmatters _ hmem

/-- Where no links go in a circle, no section is lost. -/
theorem has_section (h : ClosedFrom P p q) (hcircles : ∀ s, ¬Circular p.sections s) {key : Value}
    (hkey : p.sections.has key = true) : q.sections.has key = true := by
  obtain ⟨row, hrow, hlike⟩ := Table.has_iff.mp hkey
  rw [← Table.has_congr _ hlike, h.outlined.kept_iff row hrow]
  refine Classical.byContradiction fun hunrooted => ?_
  obtain ⟨circle, hcircle, -⟩ := exists_circular h.outlined.linked (List.mem_map_of_mem hrow) hunrooted
  exact hcircles circle hcircle

/-- Where no section was lost, no links go in a circle. -/
theorem not_circular (h : ClosedFrom P p q)
    (hkept : p.sections.keys.all q.sections.has = true) (s : Section) : ¬Circular p.sections s := by
  intro hcircle
  obtain ⟨row, hrow, rfl⟩ := List.mem_map.mp hcircle.1
  have hhas := List.all_eq_true.mp hkept row.1 (List.mem_map_of_mem hrow)
  exact hcircle.not_rooted h.filed ((h.outlined.kept_iff row hrow).mp hhas)

end ClosedFrom

end PluginHelp.Page
