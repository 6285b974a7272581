/-
What a plugin knows of its pages.

Links are looked up in what the plugin has collected, and not in what their page has.  An entry that
is merged goes into the collection of the page and into that of the plugin at once, and closing a page
touches neither.  So while the files of a plugin are merged and its pages are closed, the plugin knows
everything that its pages have collected, and each of these entries has what the files gave it.
-/
import PluginHelp.Proofs.Build.Standalone
import PluginHelp.Proofs.Page.Holding
import PluginHelp.Proofs.Page.Naming
import PluginHelp.Proofs.Source.Named

namespace PluginHelp

open Act

/-! ### One step -/

namespace Page

variable {P : Entry → Prop} {c d : Context} {e : Entry}

/-- An entry with a property is where it is to stand. -/
def CollectedAs (P : Entry → Prop) (kind : Kind) (e : Entry) : Prop :=
  P e ∧ ∃ library, Plugin.shelf library e = kind.toValue

/-- A page and its plugin have gained the same entries. -/
def Gained (P : Entry → Prop) (c d : Context) : Prop :=
  ∀ kind : Kind, kind.IsCollected → ∃ more,
    d.page.collections.under kind = c.page.collections.under kind ++ more
    ∧ d.plugin.collections.under kind = c.plugin.collections.under kind ++ more
    ∧ ∀ e ∈ more, CollectedAs P kind e

theorem Gained.of_same (hplugin : d.plugin.collections = c.plugin.collections)
    (hpage : d.page.collections = c.page.collections) : Gained P c d := by
  intro kind _
  refine ⟨[], ?_, ?_, by simp⟩
  · rw [hpage, List.append_nil]
  · rw [hplugin, List.append_nil]

theorem Gained.trans {b : Context} (h : Gained P b c) (k : Gained P c d) : Gained P b d := by
  intro kind hkind
  obtain ⟨first, hpage, hplugin, hfirst⟩ := h kind hkind
  obtain ⟨next, hpage', hplugin', hnext⟩ := k kind hkind
  refine ⟨first ++ next, ?_, ?_, fun e he => ?_⟩
  · rw [hpage', hpage, List.append_assoc]
  · rw [hplugin', hplugin, List.append_assoc]
  · rcases List.mem_append.mp he with he | he
    · exact hfirst e he
    · exact hnext e he

theorem TakenIn.gained (h : TakenIn e c d) (he : P e) : Gained P c d := by
  intro kind hkind
  refine ⟨_, h.page kind hkind, h.plugin kind hkind, fun other hother => ?_⟩
  split at hother
  · rename_i hlike
    rw [List.mem_singleton.mp hother]
    exact ⟨he, _, Value.beq_text_iff.mp hlike⟩
  · cases hother

/-- Merging entries one after the other. -/
theorem merge_each_gains {entries : List Entry} {space : Value}
    (h : ∀ e ∈ entries, P (e.placed space)) (c : Context) :
    Ensures (Act.each entries fun e => merge e space) c (fun _ d => Gained P c d)
      (fun _ => True) := by
  refine Ensures.each (fun _ d => Gained P c d) (Gained.of_same rfl rfl) ?_
  intro done e rest t hentries ht
  refine (merge_ensures e space t).mono fun _ u hu => ht.trans (hu.gained (h e ?_))
  rw [hentries]
  simp

/-- A step that leaves alone what the plugin and the page have collected. -/
abbrev LeavesCollections {α : Type} (act : Act Context α) : Prop :=
  Confined (fun c : Context => (c.plugin.collections, c.page.collections)) (fun _ => True) act

theorem onPage_collections {α : Type} {act : Act Page α}
    (h : Confined Page.collections (fun _ => True) act) : LeavesCollections (Context.onPage act) := by
  rintro _ c rfl
  exact ⟨congrArg (Prod.mk _) (h.view_eq c.page), fun _ _ => trivial⟩

theorem onPlugin_collections {α : Type} {act : Act Plugin α}
    (h : Confined Plugin.collections (fun _ => True) act) :
    LeavesCollections (Context.onPlugin act) := by
  rintro _ c rfl
  exact ⟨congrArg (Prod.mk · _) (h.view_eq c.plugin), fun _ _ => trivial⟩

theorem consume_collections (e : Entry) :
    Confined Plugin.collections (fun _ => True) (Plugin.consume e) :=
  fun _ => Plugin.consume_of_puts (fun _ _ => trivial) (fun _ => trivial) (fun _ => trivial)
    (fun _ _ hp => hp) fun _ _ hp => hp

/-- A section is not collected. -/
theorem merge_section_collections (hsect : e.isOf .sect = true) (space : Value) :
    LeavesCollections (merge e space) := by
  have hplaced : (e.placed space).isOf .sect = true :=
    (Entry.isOf_placed space e (by decide)).trans hsect
  have hadd : Plugin.add (e.placed space) = Plugin.consume (e.placed space) := by
    unfold Plugin.add
    rw [hplaced]
    rfl
  have hplugin : LeavesCollections (Context.onPlugin (Plugin.add (e.placed space))) := by
    rw [hadd]
    exact onPlugin_collections (consume_collections _)
  have horder : LeavesCollections (Context.onPage (takeOrder (e.placed space))) :=
    onPage_collections ((takeOrder_confined _).comp Page.collections)
  refine fun shown => merge_of_takeIn trivial (fun _ => trivial) (takeIn_of_steps (horder shown)
    (hplugin shown) (fun _ => onPage_collections (addSection_confined _) shown)
    (fun _ => onPage_collections (addBackmatter_confined _) shown) (fun _ _ _ _ => trivial) ?_)
  intro hsilent
  rw [Entry.speaks, hplaced] at hsilent
  cases hsilent

/-- Closing a page changes nothing about what is collected. -/
theorem close_collections : LeavesCollections close := by
  rw [close_eq]
  refine Confined.bind (fun shown => ?_) fun _ =>
    onPage_collections (outline_outside.comp Prod.snd)
  exact addKindSections_of_merge (fun _ _ => trivial) (fun _ _ _ _ => trivial)
    fun e id title hown => merge_section_collections (newSection_isOf id title hown).1 .nothing shown

theorem close_gains (c : Context) :
    Ensures close c (fun _ d => Gained P c d) (fun _ => True) := by
  refine (Ensures.of_confined close_collections c).mono fun _ d hd => ?_
  exact Gained.of_same (congrArg Prod.fst hd) (congrArg Prod.snd hd)

end Page

/-! ### Books -/

namespace Book

variable {P : Entry → Prop} {b : Book}

/-- The plugin knows everything that its pages have collected, and each of these entries has a
property. -/
structure Shares (P : Entry → Prop) (b : Book) : Prop where
  known : ∀ page ∈ b.pages, ∀ kind : Kind, kind.IsCollected →
    ∀ e ∈ page.collections.under kind, e ∈ b.plugin.collections.under kind
  fits : ∀ kind : Kind, kind.IsCollected →
    ∀ e ∈ b.plugin.collections.under kind, Page.CollectedAs P kind e

theorem Shares.start {plugin : Plugin} (h : plugin.collections = []) :
    Shares P { plugin } := by
  refine ⟨by simp, fun kind _ e he => ?_⟩
  rw [Collections.under, show ({ plugin } : Book).plugin.collections = [] from h] at he
  cases he

theorem Shares.addPage (h : Shares P b) (name : Value) :
    Ensures (Book.addPage name) b (fun _ d => Shares P d) (fun _ => True) := by
  refine Ensures.modify ⟨fun page hpage => ?_, h.fits⟩
  rcases List.mem_append.mp hpage with hpage | hpage
  · exact h.known page hpage
  · rw [List.mem_singleton.mp hpage]
    intro kind _ e he
    cases he

/-- A step on a page ensures what it ensures of that page and of the plugin. -/
theorem onPage_ensures {α : Type} {i : Nat} {act : Act Context α} {post : α → Book → Prop}
    (h : ∀ page, b.pages[i]? = some page → Ensures act ⟨b.plugin, page⟩
      (fun a d => post a ⟨d.plugin, b.pages.set i d.page⟩) (fun _ => True)) :
    Ensures (Book.onPage i act) b post (fun _ => True) := by
  unfold Ensures
  cases hpage : b.pages[i]? with
  | none =>
      have hfail : Book.onPage i act b = Act.fail .noSuchPlace b := by
        unfold Book.onPage
        rw [hpage]
      rw [hfail]
      trivial
  | some page =>
      have hrun : Book.onPage i act b
          = ⟨⟨(act ⟨b.plugin, page⟩).state.plugin,
              b.pages.set i (act ⟨b.plugin, page⟩).state.page⟩,
            (act ⟨b.plugin, page⟩).warnings, (act ⟨b.plugin, page⟩).result⟩ := by
        unfold Book.onPage
        rw [hpage]
      rw [hrun]
      exact h page hpage

/-- A step on a page that the plugin takes part in. -/
theorem Shares.onPage (h : Shares P b) (i : Nat) {act : Act Context Unit}
    (hact : ∀ c, Ensures act c (fun _ d => Page.Gained P c d) (fun _ => True)) :
    Ensures (Book.onPage i act) b (fun _ d => Shares P d) (fun _ => True) := by
  refine onPage_ensures fun page hpage => (hact ⟨b.plugin, page⟩).mono fun _ d hd => ?_
  refine ⟨fun other hother kind hkind e he => ?_, fun kind hkind e he => ?_⟩
  · obtain ⟨more, hgained, hplugin, -⟩ := hd kind hkind
    show e ∈ d.plugin.collections.under kind
    rw [hplugin, List.mem_append]
    rcases List.mem_or_eq_of_mem_set hother with hother | rfl
    · exact Or.inl (h.known other hother kind hkind e he)
    · rw [hgained, List.mem_append] at he
      exact he.imp_left (h.known page (List.mem_of_getElem? hpage) kind hkind e)
  · obtain ⟨more, -, hplugin, hmore⟩ := hd kind hkind
    rw [show d.plugin.collections.under kind = _ from hplugin, List.mem_append] at he
    exact he.elim (h.fits kind hkind e) (hmore e)

theorem Shares.mergeAll (h : Shares P b) (i : Nat) {space : Value} {entries : List Entry}
    (hentries : ∀ e ∈ entries, P (e.placed space)) :
    Ensures (Book.mergeAll i space entries) b (fun _ d => Shares P d) (fun _ => True) :=
  h.onPage i (Page.merge_each_gains hentries)

/-- Closes the pages at some places. -/
def closeAll (places : List Nat) : Act Book Unit :=
  Act.each places fun i => onPage i Page.close

theorem Shares.closeAll (h : Shares P b) (places : List Nat) :
    Ensures (Book.closeAll places) b (fun _ d => Shares P d) (fun _ => True) :=
  Ensures.each (fun _ d => Shares P d) h fun _ i _ _ _ ht => ht.onPage i Page.close_gains

end Book

namespace Build

/-! ### Merging files -/

section Merging

variable {P : Entry → Prop} {b : Book} {standalones : List String} {files : List SourceFile}

theorem mergeMain_shares (h : b.Shares P)
    (hfiles : ∀ f ∈ files, ∀ e ∈ f.entries, ∀ space, P (e.placed space)) :
    Ensures (mergeMain standalones files) b (fun _ d => d.Shares P) (fun _ => True) := by
  refine Ensures.each (fun _ d => Book.Shares P d) h fun done f rest t hdone ht => ?_
  have hf : f ∈ files.filter fun f => (standaloneOf standalones f.path).isNone := by
    rw [hdone]
    simp
  exact ht.mergeAll 0 fun e he => hfiles f (List.mem_of_mem_filter hf) e he _

theorem mergeStandalone_shares (h : b.Shares P)
    (hfiles : ∀ f ∈ files, ∀ e ∈ f.entries, ∀ space, P (e.placed space))
    (begun : Table String Nat) :
    Ensures (mergeStandalone standalones begun files) b (fun _ d => d.Shares P)
      (fun _ => True) := by
  induction files generalizing begun b with
  | nil => exact Ensures.pure h
  | cons f rest ih =>
      obtain ⟨hf, hrest⟩ := List.forall_mem_cons.mp hfiles
      have hmerge {d : Book} (hd : d.Shares P) (i : Nat) (space : String)
          (begun : Table String Nat) :
          Ensures (Book.mergeAll i (.text space) f.entries >>= fun _ =>
            mergeStandalone standalones begun rest) d (fun _ t => t.Shares P) (fun _ => True) :=
        Ensures.bind (hd.mergeAll i fun e he => hf e he _) fun _ t ht => ih ht hrest begun
      rw [mergeStandalone]
      split
      · exact ih h hrest begun
      · split
        · trivial
        · split
          · exact hmerge h _ _ _
          · refine Ensures.get_bind (Ensures.bind (h.addPage _) fun _ t ht => ?_)
            exact hmerge ht _ _ _

/-- While files are merged, the plugin knows everything that its pages have collected. -/
theorem mergeFiles_shares {plugin : Plugin} (hnone : plugin.collections = [])
    (hfiles : ∀ f ∈ files, ∀ e ∈ f.entries, ∀ space, P (e.placed space)) :
    Ensures (mergeFiles files) { plugin } (fun _ d => d.Shares P) (fun _ => True) := by
  have hstart : Book.Shares P { plugin } := .start hnone
  refine Ensures.get_bind (Ensures.bind (hstart.addPage _) fun _ t ht => ?_)
  refine Ensures.bind (mergeMain_shares ht hfiles) fun _ u hu => ?_
  exact mergeStandalone_shares hu hfiles []

end Merging

/-! ### Reading files -/

/-- The entries of a file are those that were read from its lines, and the flag that says whether it
is loaded. -/
theorem readSource_entries {σ : Type} (name path : String) (text : Option String) (s : σ) :
    Ensures (readSource name path text) s
      (fun file _ => ∀ e ∈ file.entries, Page.IsRead e ∨ e = (loadFlag path).state)
      (fun _ => True) := by
  unfold readSource
  cases text with
  | none => trivial
  | some text =>
      refine Ensures.within_bind (fun _ _ => trivial) ?_
      have hread : ∀ e ∈ (Source.entries (some name) (Text.lines text)).state,
          Page.IsRead e ∨ e = (loadFlag path).state :=
        fun e he => Or.inl ⟨_, _, he⟩
      have hflag : ∀ e ∈ (Source.entries (some name) (Text.lines text)).state
          ++ [(loadFlag path).state], Page.IsRead e ∨ e = (loadFlag path).state := by
        intro e he
        rcases List.mem_append.mp he with he | he
        · exact hread e he
        · exact Or.inr (List.mem_singleton.mp he)
      refine Ensures.ite (fun _ => ?_) fun _ => Ensures.pure hread
      cases entersPlugin (Text.lines text) with
      | ok enters => exact Ensures.ite (fun _ => Ensures.pure hflag) fun _ => Ensures.pure hread
      | error fault => trivial

theorem readSources_entries (folder : String) (found : List (String × Option String))
    (desk : Desk) :
    Ensures (readSources folder found) desk
      (fun files _ => ∀ f ∈ files, ∀ e ∈ f.entries,
        Page.IsRead e ∨ ∃ path, e = (loadFlag path).state) (fun _ => True) := by
  induction found generalizing desk with
  | nil => exact Ensures.pure (by simp)
  | cons first found ih =>
      obtain ⟨path, text⟩ := first
      refine Ensures.bind (readSource_entries _ path text desk) fun file t hfile => ?_
      refine Ensures.bind (ih t) fun files u hfiles => Ensures.pure ?_
      exact List.forall_mem_cons.mpr ⟨fun e he => (hfile e he).imp_right fun h => ⟨path, h⟩, hfiles⟩

end Build

/-- An entry that has its usage if it needs one, and its name if it is about a flag or a dictionary. -/
structure Entry.Tellable (e : Entry) : Prop where
  settled : e.Settled
  flag : e.isOf .flag = true → e.hasOwn "name" = true
  dictionary : e.isOf .dictionary = true → e.hasOwn "dict" = true

namespace Build

open Entry

/-- Naming an entry and telling it two lines gives it its name and no other control. -/
theorem own_of_named {e : Entry} (h : e.marked.own? "name" = none) (name first second : String) :
    ((setOwn "name" (.text name) >>= fun _ => addLine first >>= fun _ => addLine second) e).state.own
      = (e.marked.putOwn "name" (.text name)).own := by
  have hname : setOwn "name" (.text name) e
      = ⟨e.marked.putOwn "name" (.text name), [], .ok ()⟩ := by
    rw [setOwn_apply, h]
    exact if_pos BEq.rfl
  have htold : Confined Entry.own (fun _ => True) (addLine first >>= fun _ => addLine second) :=
    ((addLine_tells first).bind (addLine_tells second)).confined (fun _ => rfl) _
  rw [bind_apply_ok _ hname]
  exact htold.view_eq _

/-- A flag that says whether a file is loaded has its kind and its name for controls. -/
theorem loadFlag_own (path : String) :
    (loadFlag path).state.own
      = [("type", Kind.flag.toValue), ("name", .text (flagName path))] := by
  unfold loadFlag Act.run
  dsimp only
  -- What the lines say does not matter, and Lean must not read it.
  generalize "Configures whether " ++ path ++ " should be loaded." = first
  generalize Draft.initialLine _ = second
  generalize flagName path = name
  rw [own_of_named rfl]
  rfl

theorem loadFlag_tellable (path : String) : (loadFlag path).state.Tellable := by
  have hown (control : String) : (loadFlag path).state.own? control
      = Table.get? [("type", Kind.flag.toValue), ("name", .text (flagName path))] control := by
    rw [own?, loadFlag_own]
  have hkind : (loadFlag path).state.kindValue = Kind.flag.toValue := by
    rw [kindValue, ownD, hown]
    rfl
  have hneeds : (loadFlag path).state.needsUsage = false := by
    rw [needsUsage, isOf_eq_false hkind (by decide), isOf_eq_false hkind (by decide)]
    rfl
  refine ⟨⟨fun hyes => ?_, fun _ => hown "usage"⟩, fun _ => ?_, fun hdict => ?_⟩
  · rw [hneeds] at hyes
    cases hyes
  · rw [hasOwn_eq, hown]
    rfl
  · rw [isOf_eq_false hkind (by decide)] at hdict
    cases hdict

theorem tellable_of_read {e : Entry} (h : Page.IsRead e) : e.Tellable := by
  refine ⟨h.settled, ?_, h.wellFormed.named⟩
  obtain ⟨file, lines, he⟩ := h
  exact (Source.entries_named file lines e he).flag

theorem tellable_placed {e : Entry} (h : e.Tellable) (space : Value) : (e.placed space).Tellable := by
  refine ⟨placed_settled h.settled space, ?_, ?_⟩
  · rw [isOf_placed space e (by decide), Page.hasOwn_placed_of_ne space e (by decide) (by decide)]
    exact h.flag
  · rw [isOf_placed space e (by decide), Page.hasOwn_placed_of_ne space e (by decide) (by decide)]
    exact h.dictionary

/-- However many pages of a plugin are closed after its files are merged, the plugin knows everything
that its pages have collected. -/
theorem shares_of_files {folder : String} {found : List (String × Option String)}
    {desk read : Desk} {files : List SourceFile} {plugin : Plugin} {book b : Book}
    {places : List Nat} {readWarnings mergeWarnings closeWarnings : List Warning}
    (hread : readSources folder found desk = ⟨read, readWarnings, .ok files⟩)
    (hnone : plugin.collections = [])
    (hmerge : mergeFiles files { plugin } = ⟨book, mergeWarnings, .ok ()⟩)
    (hclose : Book.closeAll places book = ⟨b, closeWarnings, .ok ()⟩) : b.Shares Tellable := by
  have hfiles : ∀ f ∈ files, ∀ e ∈ f.entries, ∀ space, (e.placed space).Tellable := by
    intro f hf e he space
    refine tellable_placed ?_ space
    rcases (readSources_entries folder found desk).of_ok hread f hf e he with hread | ⟨path, hflag⟩
    · exact tellable_of_read hread
    · rw [hflag]
      exact loadFlag_tellable path
  exact (((mergeFiles_shares hnone hfiles).of_ok hmerge).closeAll places).of_ok hclose

end Build

end PluginHelp
