/-
Links that cross from one page to another.

Links are looked up in what the whole plugin has collected, so a link finds its entry wherever that
is documented.  But the word for a flag or a dictionary begins with the name of a page, and the link
takes the page that it stands on, while the tag takes the page that has the entry.  So the two are the
same word exactly if the two pages have the same name.

A link to a secondary entry does not even have the name of the entry in it.  What is looked up is the
tag, and a secondary entry has none, although it is written with one.
-/
import PluginHelp.Proofs.Build.Sharing
import PluginHelp.Proofs.Help.Tagged

namespace PluginHelp

open Act Entry

/-- What stands between the name of a page and that of a flag or a dictionary. -/
def Kind.separator? : Kind → Option String
  | .flag => some ":"
  | .dictionary => some "."
  | _ => none

variable {kind : Kind} {word separator name : String} {e : Entry}

theorem Kind.of_separator (h : kind.separator? = some separator) :
    kind = .flag ∧ separator = ":" ∨ kind = .dictionary ∧ separator = "." := by
  cases kind with
  | flag => exact Or.inl ⟨rfl, (Option.some.inj h).symm⟩
  | dictionary => exact Or.inr ⟨rfl, (Option.some.inj h).symm⟩
  | _ => cases h

/-! ### Names -/

namespace Entry

/-- Only the name of a function depends on more than its own controls. -/
theorem fullName_of_slugged (hsep : kind.separator? = some separator)
    (hkind : e.kindValue = kind.toValue) : e.fullName = e.localName := by
  have hfunction : e.isOf .function = false := by
    rcases Kind.of_separator hsep with ⟨rfl, -⟩ | ⟨rfl, -⟩
    · exact isOf_eq_false hkind (by decide)
    · exact isOf_eq_false hkind (by decide)
  unfold fullName
  rw [hfunction]
  rfl

/-- The tag of a flag or a dictionary is its full name, unless it is secondary. -/
theorem tagName_of_slugged (hsep : kind.separator? = some separator)
    (hkind : e.kindValue = kind.toValue) :
    e.tagName = if e.isSecondary then .ok .nothing else e.fullName := by
  have hother : e.isOf .function = false ∧ e.isOf .command = false := by
    rcases Kind.of_separator hsep with ⟨rfl, -⟩ | ⟨rfl, -⟩
    · exact ⟨isOf_eq_false hkind (by decide), isOf_eq_false hkind (by decide)⟩
    · exact ⟨isOf_eq_false hkind (by decide), isOf_eq_false hkind (by decide)⟩
  unfold tagName
  rw [hother.1, hother.2]
  rfl

end Entry

namespace Page

theorem kindValue_of_slugged {P : Entry → Prop} (hsep : kind.separator? = some separator)
    (h : CollectedAs P kind e) : e.kindValue = kind.toValue := by
  obtain ⟨-, library, hshelf⟩ := h
  refine (Plugin.kindValue_of_shelf hshelf ?_).1
  rcases Kind.of_separator hsep with ⟨rfl, -⟩ | ⟨rfl, -⟩
  · decide
  · decide

/-- Flags and dictionaries that were collected have a full name. -/
theorem fullName_of_tellable (hsep : kind.separator? = some separator)
    (h : CollectedAs Tellable kind e) : ∃ held, e.fullName = .ok held := by
  have hkind := kindValue_of_slugged hsep h
  rw [fullName_of_slugged hsep hkind]
  unfold localName
  rcases Kind.of_separator hsep with ⟨rfl, -⟩ | ⟨rfl, -⟩
  · obtain ⟨held, hheld⟩ := Option.isSome_iff_exists.mp (h.1.flag (isOf_iff.mpr hkind))
    rw [isOf_eq_false hkind (by decide), show e.own? "name" = some held from hheld]
    exact ⟨held, rfl⟩
  · obtain ⟨held, hheld⟩ := Option.isSome_iff_exists.mp (h.1.dictionary (isOf_iff.mpr hkind))
    rw [isOf_iff.mpr hkind, needOwn, show e.own? "dict" = some held from hheld]
    exact ⟨held, rfl⟩

end Page

/-- An entry that is the only one with its full name is what a link by that name means. -/
theorem Plugin.lookUpTag_of_only {p : Plugin} (hsep : kind.separator? = some separator)
    (hnamed : ∀ x ∈ p.collections.under kind, ∃ held, x.fullName = .ok held)
    (he : e ∈ p.collections.under kind) (hname : e.fullName = .ok (.text name))
    (honly : (p.collections.under kind).countP (·.fullName = .ok (.text name)) = 1) :
    p.lookUpTag kind.toValue (.text name) = e.tagName := by
  have hlinked : linkedName kind.toValue (.text name) = .ok (.text name) := by
    rcases Kind.of_separator hsep with ⟨rfl, -⟩ | ⟨rfl, -⟩
    · rfl
    · rfl
  obtain ⟨front, back, hsplit⟩ := List.append_of_mem he
  rw [hsplit, List.countP_append, List.countP_cons_of_pos (by simpa using hname)] at honly
  -- No other entry has the name, and all of them have one.
  have hunlike : ∀ x ∈ front ++ back, Unlike (.text name) x := by
    intro x hx
    have hmem : x ∈ p.collections.under kind := by
      rw [hsplit]
      simp only [List.mem_append, List.mem_cons] at hx ⊢
      tauto
    obtain ⟨held, hheld⟩ := hnamed x hmem
    have hnone : (front ++ back).countP (·.fullName = .ok (.text name)) = 0 := by
      rw [List.countP_append]
      omega
    have hother := List.countP_eq_zero.mp hnone x hx
    refine unlike_text_iff.mpr ⟨held, hheld, ?_⟩
    rintro rfl
    simp [hheld] at hother
  exact lookUpTag_of_first hlinked hsplit (fun x hx => hunlike x (List.mem_append_left back hx))
    hname (Value.beq_text_iff.mpr rfl) fun x hx => hunlike x (List.mem_append_right front hx)

namespace Help

/-- A link takes the page that it stands on. -/
theorem expand_slugged {c : Context} {space found : Value} (hword : kind.inlineWord? = some word)
    (hsep : kind.separator? = some separator) (helement : Pattern.IsElement name)
    (hfound : c.plugin.lookUpTag kind.toValue (.text name) = .ok found) :
    expand c space (Pattern.inlineText word name)
      = .ok ("|" ++ slug c.page found separator ++ "|") := by
  refine expand_inlineText (isWord_inlineWord hword) helement ?_
  rcases Kind.of_separator hsep with ⟨rfl, rfl⟩ | ⟨rfl, rfl⟩
  · obtain rfl : "flag" = word := Option.some.inj hword
    show (c.plugin.lookUpTag Kind.flag.toValue (.text name) >>= _) = _
    rw [hfound]
    rfl
  · obtain rfl : "dict" = word := Option.some.inj hword
    show (c.plugin.lookUpTag Kind.dictionary.toValue (.text name) >>= _) = _
    rw [hfound]
    rfl

/-- A tag takes the page that has the entry. -/
theorem beginsWithTag_slugged (hsep : kind.separator? = some separator)
    (h : Page.CollectedAs Tellable kind e) (hname : e.fullName = .ok (.text name)) (c : Context) :
    BeginsWithTag c e (slug c.page (.text name) separator) := by
  have hkind := Page.kindValue_of_slugged hsep h
  have hof := isOf_iff_of_kind hkind
  have hlarge : e.isLarge = false := by
    unfold isLarge
    rw [hof, hof]
    rcases Kind.of_separator hsep with ⟨rfl, -⟩ | ⟨rfl, -⟩ <;> rfl
  have htagged : e.isTagged = true := by
    rw [isTagged, hlarge]
    exact Bool.or_true _
  have husable : ¬IsUnusable e := by
    rintro ⟨hcommand, -⟩
    rw [isLarge, hcommand] at hlarge
    cases hlarge
  have hwritten : kind ∈ writtenKinds := by
    rcases Kind.of_separator hsep with ⟨rfl, -⟩ | ⟨rfl, -⟩ <;> decide
  have hword : (tagOn c.page e (.text name)).shown = slug c.page (.text name) separator := by
    unfold tagOn
    rw [hof, hof]
    rcases Kind.of_separator hsep with ⟨rfl, rfl⟩ | ⟨rfl, rfl⟩ <;> rfl
  obtain ⟨line, indent, hline⟩ := writeChunk_of_tagged (c := c) h.1.settled hkind hwritten husable
    htagged hname fun _ => Value.noConfusion
  rw [← hword]
  exact hline.withTag

/-- Only the names of the pages tell two such words apart. -/
theorem slug_inj_iff {here home : Page} (part : Value) (separator : String) :
    slug here part separator = slug home part separator ↔ here.name.shown = home.name.shown := by
  simp [slug, String.append_assoc]

/--
**A link to a flag or a dictionary leads to its tag exactly from pages of the same name.**

Whatever files a plugin has and however many of its pages are closed, a link finds the only entry of
a name, on whichever page that is documented.  But the word of the link begins with the name of the
page that the link stands on, and the tag with the name of the page that has the entry.  If the entry
is secondary, the name of the entry is missing from the link as well.
-/
theorem link_leads_home_iff_same_name {folder : String} {found : List (String × Option String)}
    {desk read : Build.Desk} {files : List Build.SourceFile} {plugin : Plugin} {book b : Book}
    {places : List Nat} {readWarnings mergeWarnings closeWarnings : List Warning}
    (hread : Build.readSources folder found desk = ⟨read, readWarnings, .ok files⟩)
    (hnone : plugin.collections = [])
    (hmerge : Build.mergeFiles files { plugin } = ⟨book, mergeWarnings, .ok ()⟩)
    (hclose : Book.closeAll places book = ⟨b, closeWarnings, .ok ()⟩)
    {home : Page} (hhome : home ∈ b.pages) (hword : kind.inlineWord? = some word)
    (hsep : kind.separator? = some separator) (he : e ∈ home.collections.under kind)
    (hname : e.fullName = .ok (.text name)) (helement : Pattern.IsElement name)
    (honly : (b.plugin.collections.under kind).countP (·.fullName = .ok (.text name)) = 1)
    (here : Page) (space : Value) :
    let linked := slug here (if e.isSecondary then .nothing else .text name) separator
    let tagged := slug home (.text name) separator
    expand ⟨b.plugin, here⟩ space (Pattern.inlineText word name) = .ok ("|" ++ linked ++ "|")
    ∧ (∀ c : Context, c.page.name = home.name → BeginsWithTag c e tagged)
    ∧ (e.isSecondary = false → (linked = tagged ↔ here.name.shown = home.name.shown)) := by
  intro linked tagged
  have hshares := Build.shares_of_files hread hnone hmerge hclose
  have hcollected : kind.IsCollected := by
    rcases Kind.of_separator hsep with ⟨rfl, -⟩ | ⟨rfl, -⟩ <;> decide
  have hknown := hshares.known home hhome kind hcollected e he
  have hfits := hshares.fits kind hcollected
  have hlookUp := Plugin.lookUpTag_of_only hsep
    (fun x hx => Page.fullName_of_tellable hsep (hfits x hx)) hknown hname honly
  rw [tagName_of_slugged hsep (Page.kindValue_of_slugged hsep (hfits e hknown)), hname] at hlookUp
  refine ⟨?_, fun c hc => ?_, fun hfirst => ?_⟩
  · refine expand_slugged hword hsep helement (hlookUp.trans ?_)
    cases e.isSecondary <;> rfl
  · have htag := beginsWithTag_slugged hsep (hfits e hknown) hname c
    rwa [show slug c.page (.text name) separator = tagged by rw [slug, hc, ← slug]] at htag
  · rw [show linked = slug here (.text name) separator by simp [linked, hfirst]]
    exact slug_inj_iff _ _

/-- A dictionary of the main page: the link on the main page leads to its tag, and the one on the
other page leads nowhere. -/
theorem link_leads_home_iff_same_name_timer :
    let found := [("autoload/demo/lib.vim",
        some "\"\" @section Notes, intro\n\" @standalone\n\" See @dict(Timer).\n\n"),
      ("plugin/demo.vim", some "\"\" @dict Timer\n\" Counts down.\n\n")]
    let desk : Build.Desk := { disk := ⟨.folder [], []⟩ }
    ∃ read readWarnings files book mergeWarnings b closeWarnings home lib e,
      Build.readSources "demo" found desk = ⟨read, readWarnings, .ok files⟩
      ∧ Build.mergeFiles files { plugin := { name := .text "demo" } }
        = ⟨book, mergeWarnings, .ok ()⟩
      ∧ Book.closeAll [0, 1] book = ⟨b, closeWarnings, .ok ()⟩
      ∧ b.pages = [home, lib] ∧ e ∈ home.collections.under .dictionary
      ∧ (∀ c : Context, c.page.name = home.name → BeginsWithTag c e "demo.Timer")
      ∧ expand ⟨b.plugin, home⟩ .nothing "@dict(Timer)" = .ok "|demo.Timer|"
      ∧ expand ⟨b.plugin, lib⟩ .nothing "@dict(Timer)" = .ok "|demo#lib.Timer|" := by
  intro found desk
  have hvalues : (Build.readSources "demo" found desk).result.toOption.any (fun files =>
      let merged := Build.mergeFiles files { plugin := { name := .text "demo" } }
      let closed := Book.closeAll [0, 1] merged.state
      merged.result = .ok () ∧ closed.result = .ok ()
      ∧ closed.state.pages.map (·.name) = [.text "demo", .text "demo#lib"]
      ∧ closed.state.pages.map (fun page => (page.collections.under .dictionary).map (·.fullName))
        = [[.ok (.text "Timer")], []]
      ∧ closed.state.pages.map (fun page => (page.collections.under .dictionary).map (·.isSecondary))
        = [[false], []]
      ∧ (closed.state.plugin.collections.under .dictionary).countP
          (·.fullName = .ok (.text "Timer")) = 1) = true := by
    decide +kernel
  obtain ⟨files, hfiles, hvalues⟩ := (Option.any_eq_true _ _).mp hvalues
  obtain ⟨hmerged, hclosed, hpages, hnames, hfirsts, honly⟩ := of_decide_eq_true hvalues
  have hread := eq_ok_of_toOption hfiles
  rcases hmerge : Build.mergeFiles files { plugin := { name := .text "demo" } }
    with ⟨book, mergeWarnings, result⟩
  rw [hmerge] at hmerged hclosed hpages hnames hfirsts honly
  rcases hclose : Book.closeAll [0, 1] book with ⟨b, closeWarnings, closeResult⟩
  rw [hclose] at hclosed hpages hnames hfirsts honly
  obtain rfl : result = .ok () := hmerged
  obtain rfl : closeResult = .ok () := hclosed
  obtain ⟨home, _, hb, hhome, hpages⟩ := List.map_eq_cons_iff.mp hpages
  obtain ⟨lib, _, rfl, hlib, hpages⟩ := List.map_eq_cons_iff.mp hpages
  obtain rfl := List.map_eq_nil_iff.mp hpages
  rw [hb] at hnames hfirsts
  have hb : b.pages = [home, lib] := hb
  simp only [List.map_cons, List.map_nil, List.cons.injEq, and_true] at hnames hfirsts
  obtain ⟨e, _, he, hname, hrest⟩ := List.map_eq_cons_iff.mp hnames.1
  obtain rfl := List.map_eq_nil_iff.mp hrest
  have hfirst : e.isSecondary = false := by simpa [he] using hfirsts.1
  have hin : home ∈ b.pages := by
    rw [hb]
    exact List.mem_cons_self
  have hmem : e ∈ home.collections.under .dictionary := by simp [he]
  have hword : Kind.dictionary.inlineWord? = some "dict" := rfl
  have hlinks := link_leads_home_iff_same_name hread rfl hmerge hclose hin hword rfl hmem hname
    (Pattern.isElement_of_all (by decide) rfl) honly
  rw [hfirst] at hlinks
  obtain ⟨hlinked, htag, -⟩ := hlinks home .nothing
  obtain ⟨hother, -, -⟩ := hlinks lib .nothing
  have hslug (page : Page) (own : String) (hpage : page.name = .text own) :
      slug page (.text "Timer") "." = own ++ ".Timer" := by
    rw [slug, hpage, String.append_assoc]
    rfl
  refine ⟨_, _, files, book, _, b, _, home, lib, e, hread, hmerge, hclose, hb, hmem, ?_, ?_, ?_⟩
  · rw [hslug home "demo" hhome] at htag
    exact htag
  · exact hlinked.trans (by rw [if_neg (by decide), hslug home "demo" hhome]; rfl)
  · exact hother.trans (by rw [if_neg (by decide), hslug lib "demo#lib" hlib]; rfl)

end Help

end PluginHelp
