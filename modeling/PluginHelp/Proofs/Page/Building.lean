/-
How pages come about.

A page starts without sections, and entries are merged into it one after the other.  Whatever the
entries are, and whether merging them succeeds or not, each section stands under its own identifier,
has a number of its own and has no level, as long as no entry brings one along.  The sections that a
page gets because of what it documents are merged like all others.  So a page is open, in the sense
that its sections can be brought into an outline, up to the moment when it is closed.
-/
import PluginHelp.Proofs.Page.Merging
import PluginHelp.Proofs.Page.Outline

namespace PluginHelp.Page

open Act Entry

/-! ### Sections of an open page -/

theorem settle_eq_ok {α : Type} {entry : α → Entry} {table result : Table Value α} {a : α}
    {duplicate : Value → Cause} (h : settle entry table a duplicate = .ok result) :
    result = table ∨ result = table.set ((entry a).ownD "id") a := by
  unfold settle at h
  dsimp only at h
  split at h
  · split at h
    · exact Or.inr (Except.ok.inj h).symm
    · split at h
      · exact Or.inr (Except.ok.inj h).symm
      · split at h
        · exact Or.inl (Except.ok.inj h).symm
        · simp at h
  · simp at h

/-- What has an identifier of its own is put under it. -/
theorem settle_of_none {α : Type} {entry : α → Entry} {table : Table Value α} {a : α}
    (hkey : ((entry a).ownD "id").isKey = true)
    (hnone : table.get? ((entry a).ownD "id") = none) (duplicate : Value → Cause) :
    settle entry table a duplicate = .ok (table.set ((entry a).ownD "id") a) := by
  unfold settle
  dsimp only
  rw [if_pos hkey, hnone]

theorem settle_covers {α : Type} {allowed : Cause → Prop} {duplicate : Value → Cause}
    (hduplicate : ∀ id, allowed (duplicate id)) (hvalue : allowed .wrongValue)
    (entry : α → Entry) (table : Table Value α) (a : α) :
    Covers allowed (settle entry table a duplicate) := by
  unfold settle
  refine Covers.ite (fun _ => ?_) fun _ => Covers.error hvalue
  split
  · exact Covers.ok _
  · refine Covers.ite (fun _ => Covers.ok _) fun _ => ?_
    exact Covers.ite (fun _ => Covers.ok _) fun _ => Covers.error (hduplicate _)

/-- A section with a new number can be put under its identifier. -/
theorem Filed.set {table : Table Value Section} (h : Filed table) {s : Section}
    (hnew : ∀ row ∈ table, row.2.number ≠ s.number) (hlevel : s.entry.hasOwn "level" = false) :
    Filed (table.set (idOf s) s) where
  distinct := Table.distinct_set h.distinct _ _
  own := Table.forall_mem_set (P := fun id s => (id == idOf s) = true) h.own fun _ hk => hk
  unlevelled := Table.forall_mem_set
    (P := fun (_ : Value) (s : Section) => s.entry.hasOwn "level" = false) h.unlevelled
    fun _ _ => hlevel
  numbers := by
    rcases Table.set_cases table (idOf s) s with ⟨-, hset⟩ | ⟨front, k, held, back, rfl, -, hset⟩
    · rw [hset, List.map_append]
      refine h.numbers.append (List.nodup_singleton _) ?_
      rw [List.map_singleton, List.disjoint_singleton]
      intro hmem
      obtain ⟨row, hrow, heq⟩ := List.mem_map.mp hmem
      exact hnew row hrow heq
    · have hnumbers := h.numbers
      rw [List.map_append, List.map_cons, List.nodup_middle, ← List.map_append,
        List.nodup_cons] at hnumbers
      rw [hset, List.map_append, List.map_cons, List.nodup_middle, ← List.map_append,
        List.nodup_cons]
      refine ⟨?_, hnumbers.2⟩
      intro hmem
      obtain ⟨row, hrow, heq⟩ := List.mem_map.mp hmem
      exact hnew row (by simp at hrow ⊢; tauto) heq

theorem addSection_keeps {e : Entry} (h : e.hasOwn "level" = false) :
    Keeps Open NotTooDeep (addSection e) := by
  intro p hp
  unfold addSection
  rw [get_bind_apply]
  cases hsettle : settle Section.entry p.sections ⟨p.arrivals, e⟩ .duplicateSection with
  | error cause =>
      refine ⟨hp, ?_⟩
      rintro _ ⟨⟩
      exact settle_covers (fun _ => by simp) (by decide) _ _ _ cause hsettle
  | ok sections =>
      refine ⟨⟨hp.attached, ?_, ?_⟩, fun _ hfault => by cases hfault⟩
      · show Filed sections
        rcases settle_eq_ok hsettle with rfl | rfl
        · exact hp.filed
        · exact hp.filed.set (fun row hrow => Nat.ne_of_lt (hp.numbered row hrow)) h
      · show ∀ row ∈ sections, row.2.number < p.arrivals + 1
        have hbefore : ∀ row ∈ p.sections, row.2.number < p.arrivals + 1 :=
          fun row hrow => Nat.lt_succ_of_lt (hp.numbered row hrow)
        rcases settle_eq_ok hsettle with rfl | rfl
        · exact hbefore
        · exact Table.forall_mem_set
            (P := fun (_ : Value) (s : Section) => s.number < p.arrivals + 1) hbefore
            fun _ _ => Nat.lt_succ_self _

/-! ### Merging -/

/-- A step that leaves the page open whether it succeeds or not, and that does not fail because
something lies too deep. -/
abbrev LeavesOpen {α : Type} (act : Act Context α) : Prop :=
  Keeps (fun c : Context => Open c.page) NotTooDeep act

/-- A step on the page that leaves it open. -/
theorem onPage_keeps {α : Type} {act : Act Page α} (h : Keeps Open NotTooDeep act) :
    LeavesOpen (Context.onPage act) :=
  Keeps.on (fun _ hc => hc) (fun _ _ _ hp => hp) h

/-- A step on the plugin of a context leaves the page alone. -/
theorem onPlugin_keeps {α : Type} {act : Act Plugin α}
    (h : Keeps (fun _ => True) NotTooDeep act) :
    LeavesOpen (Context.onPlugin act) :=
  Keeps.on (fun _ _ => trivial) (fun _ _ hc _ => hc) h

theorem takeOrder_keeps (e : Entry) : Keeps Open NotTooDeep (takeOrder e) := by
  unfold takeOrder
  split
  · exact Keeps.pure ()
  · refine Keeps.get.bind fun p => Keeps.ite (fun _ => ?_) fun _ => Keeps.fail (by simp)
    exact Keeps.modify fun _ hp => ⟨hp.attached, hp.filed, hp.numbered⟩

theorem addBackmatter_keeps (e : Entry) : Keeps Open NotTooDeep (addBackmatter e) := by
  unfold addBackmatter
  refine Keeps.get.bind fun p => Keeps.bind (Keeps.ofExcept ?_) fun backmatters => ?_
  · exact settle_covers (fun _ => by simp) (by decide) _ _ _
  · exact Keeps.modify fun _ hp => ⟨hp.attached, hp.filed, hp.numbered⟩

theorem entries_covers (collections : Collections) (kind : Value) :
    Covers NotTooDeep (collections.entries kind) := by
  unfold Collections.entries
  exact Covers.ite (fun _ => Covers.ok _) fun _ => Covers.error (by decide)

theorem collections_add_covers (collections : Collections) (kind : Value) (e : Entry) :
    Covers NotTooDeep (collections.add kind e) := by
  unfold Collections.add
  refine Covers.ite (fun _ => Covers.ok _) fun _ => ?_
  exact (entries_covers _ _).bind fun _ _ => Covers.ok _

theorem consume_keeps (e : Entry) : Keeps (fun _ => True) NotTooDeep (Plugin.consume e) :=
  Plugin.consume_of_puts (fun _ _ => by simp) (fun _ => by simp) (fun _ => by simp)
    (fun _ _ _ => trivial) fun _ _ _ => trivial

theorem plugin_add_keeps (e : Entry) : Keeps (fun _ => True) NotTooDeep (Plugin.add e) := by
  unfold Plugin.add
  refine Keeps.ite (fun _ => consume_keeps e) fun _ => Keeps.get.bind fun p => ?_
  refine Keeps.bind (Keeps.ofExcept (collections_add_covers _ _ _)) fun collections => ?_
  exact Keeps.modify fun _ _ => trivial

/-- Merging an entry without a level leaves a page open. -/
theorem merge_keeps {e : Entry} (h : e.hasOwn "level" = false) (space : Value) :
    LeavesOpen (merge e space) := by
  have hlevel : (e.placed space).hasOwn "level" = false :=
    ((setOwn_framed space (by decide)).unlevelled.view_eq e).trans h
  refine merge_of_takeIn (by simp) (fun _ => by simp) ?_
  exact takeIn_of_steps (onPage_keeps (takeOrder_keeps _)) (onPlugin_keeps (plugin_add_keeps _))
    (fun _ => onPage_keeps (addSection_keeps hlevel)) (fun _ => onPage_keeps (addBackmatter_keeps _))
    (fun _ _ => collections_add_covers _ _ _) fun _ _ hc _ _ =>
      ⟨hc.attached, hc.filed, hc.numbered⟩

/-! ### Sections that a page needs -/

theorem fullName_notTooDeep (e : Entry) : Covers NotTooDeep e.fullName :=
  (fullName_covers e).mono fun _ hcause => notTooDeep_of_entry hcause.ofEntry

theorem keyTag_covers (e : Entry) : Covers NotTooDeep (keyTag e) := by
  have htag : Covers NotTooDeep e.tagName :=
    (tagName_covers e).mono fun _ hcause => notTooDeep_of_entry hcause.ofEntry
  refine htag.bind fun tag _ => ?_
  exact Covers.ite (fun _ => Covers.ok _) fun _ => Covers.error (by decide)

theorem arrange_covers (kind : Value) (entries : List Entry) :
    Covers NotTooDeep (arrange kind entries) := by
  unfold arrange
  refine Covers.ite (fun _ => ?_) fun _ => Covers.ite (fun _ => ?_) fun _ => Covers.ok _
  · exact sortByValue_covers (fun _ => Covers.ok _) (by decide) _
  · refine Sorting.sort_covers fun e _ other _ => ?_
    exact (fullName_notTooDeep e).bind fun _ _ => (fullName_notTooDeep other).bind fun _ _ =>
      valueBefore_covers (by decide) _ _

theorem withoutFallbacks_covers {allowed : Cause → Prop} {entries : List Entry}
    (h : ∀ e ∈ entries, Covers allowed (keyTag e)) (tags : List Value) :
    Covers allowed (withoutFallbacks tags entries) := by
  induction entries with
  | nil => exact Covers.ok _
  | cons e rest ih =>
      obtain ⟨he, hrest⟩ := List.forall_mem_cons.mp h
      have hothers := ih hrest
      unfold withoutFallbacks
      dsimp only
      refine Covers.ite (fun _ => ?_) fun _ => hothers.bind fun _ _ => Covers.ok _
      exact he.bind fun _ _ => hothers.bind fun _ _ => Covers.ok _

theorem collection_covers (p : Page) (kind : Value) : Covers NotTooDeep (p.collection kind) := by
  refine (entries_covers _ _).bind fun _ _ => (arrange_covers _ _).bind fun entries _ => ?_
  exact (Covers.mapM fun e _ => keyTag_covers e).bind fun _ _ =>
    withoutFallbacks_covers (fun e _ => keyTag_covers e) _

/-- Adds the sections on what a page documents. -/
def addKindSections : Act Context Unit :=
  Act.each kindSections fun (kind, id, title) => addKindSection kind id title

theorem close_eq : close = addKindSections >>= fun _ => Context.onPage outline :=
  rfl

/-- All that is done to add these sections is to merge them, and they pass nothing on.  So they keep
what merging such a section keeps. -/
theorem addKindSections_of_plain {inv : Context → Prop} {allowed : Cause → Prop}
    (hentry : ∀ cause : Cause, cause.OfEntry → allowed cause)
    (hcollection : ∀ p kind, Covers allowed (collection p kind))
    (hmerge : ∀ (e : Entry) (id title : String), e.own = (newSection id title).own →
      e.shared = [] → Keeps inv allowed (merge e .nothing)) :
    Keeps inv allowed addKindSections := by
  have hflags : Keeps inv allowed addFlagHelp := by
    unfold addFlagHelp
    refine Keeps.get.bind fun c => Keeps.bind (Keeps.ofExcept (hcollection _ _)) fun flags => ?_
    refine Keeps.ite (fun _ => Keeps.within_bind ?_ ?_) fun _ => Keeps.pure ()
    · intro fault hfault
      exact hentry _ ((addLine_tells _).framed.cause hfault)
    · have hown : Confined Entry.own (fun _ => True) (addLine flagHelp) :=
        (addLine_tells flagHelp).confined (fun _ => rfl) _
      have hshared : Confined Entry.shared (fun _ => True) (addLine flagHelp) :=
        (addLine_tells flagHelp).confined (fun _ => rfl) _
      exact hmerge _ "config" "Configuration" (hown.view_eq _) (hshared.view_eq _)
  refine Keeps.each fun row _ => ?_
  obtain ⟨kind, id, title⟩ := row
  unfold addKindSection
  dsimp only
  refine Keeps.ite (fun _ => hflags.bind fun _ => ?_) fun _ => ?_
  all_goals
    refine Keeps.get.bind fun c => Keeps.bind (Keeps.ofExcept (hcollection _ _)) fun _ => ?_
    exact Keeps.ite (fun _ => hmerge _ id title rfl rfl) fun _ => Keeps.pure ()

/-- What merging any section with an identifier and a title keeps is kept by these sections. -/
theorem addKindSections_of_merge {inv : Context → Prop} {allowed : Cause → Prop}
    (hentry : ∀ cause : Cause, cause.OfEntry → allowed cause)
    (hcollection : ∀ p kind, Covers allowed (collection p kind))
    (hmerge : ∀ (e : Entry) (id title : String), e.own = (newSection id title).own →
      Keeps inv allowed (merge e .nothing)) :
    Keeps inv allowed addKindSections :=
  addKindSections_of_plain hentry hcollection fun e id title hown _ => hmerge e id title hown

theorem newSection_unlevelled {e : Entry} {id title : String}
    (h : e.own = (newSection id title).own) : e.hasOwn "level" = false := by
  rw [hasOwn, h]
  rfl

theorem addKindSections_keeps : LeavesOpen addKindSections :=
  addKindSections_of_merge (fun _ => notTooDeep_of_entry) collection_covers
    fun _ _ _ hown => merge_keeps (newSection_unlevelled hown) _

/-! ### Pages that were built -/

/-- A page as it may be when it is closed: entries were merged into it, one after the other, of
which none had a level.  Meanwhile the plugin may have changed, since other pages share it. -/
inductive Built : Context → Prop
  | start (plugin : Plugin) (name : Value) : Built ⟨plugin, { name }⟩
  | merge {c : Context} (e : Entry) (space : Value) :
    Built c → e.hasOwn "level" = false → Built (Page.merge e space c).state
  | share {c : Context} (plugin : Plugin) : Built c → Built { c with plugin }

theorem Built.isOpen {c : Context} (h : Built c) : Open c.page := by
  induction h with
  | start plugin name => exact ⟨rfl, ⟨.nil, by simp, by simp, by simp⟩, by simp⟩
  | merge e space _ hlevel ih => exact (merge_keeps hlevel space _ ih).1
  | share plugin _ ih => exact ih

/-- Merging the entries of a file one after the other builds a page, also if one of them fails. -/
theorem Built.merge_each {entries : List Entry} {c : Context} (h : Built c) (space : Value)
    (hentries : ∀ e ∈ entries, e.hasOwn "level" = false) :
    Built (Act.each entries (fun e => Page.merge e space) c).state := by
  induction entries generalizing c with
  | nil => exact h
  | cons e rest ih =>
      obtain ⟨he, hrest⟩ := List.forall_mem_cons.mp hentries
      have hbuilt := h.merge e space he
      rw [each_cons]
      match hmerge : Page.merge e space c with
      | ⟨d, warnings, .error fault⟩ =>
          rw [hmerge] at hbuilt
          rw [bind_apply_error _ hmerge]
          exact hbuilt
      | ⟨d, warnings, .ok ()⟩ =>
          rw [hmerge] at hbuilt
          rw [bind_apply_ok _ hmerge]
          exact ih hbuilt hrest

end PluginHelp.Page
