/-
What merging an entry does to what is documented.

An entry is kept with the namespace of its file.  Merging it adds it to the collection of its kind,
of the page and of the plugin alike, or to none; which one that is depends on the entry and on
whether the plugin is a library at that moment.  Only a section or a backmatter can make the plugin a
library, and it stays one.  Nothing else about the collections ever changes: `TakenIn` says all of it,
and what holds after many entries follows by induction.
-/
import PluginHelp.Page.Book
import PluginHelp.Proofs.Entry.Controls
import PluginHelp.Proofs.Table

namespace PluginHelp

open Act

/-- A kind whose entries are collected: all but sections and backmatters. -/
def Kind.IsCollected (kind : Kind) : Prop :=
  kind.label ≠ Kind.sect.label ∧ kind.label ≠ Kind.backmatter.label

instance (kind : Kind) : Decidable kind.IsCollected :=
  inferInstanceAs (Decidable (_ ∧ _))

/-! ### Entries as a page keeps them -/

namespace Entry

/-- The entry as a page keeps it: with the namespace of its file. -/
def placed (space : Value) (e : Entry) : Entry :=
  (setOwn "namespace" space e).state

theorem own?_placed (space : Value) (e : Entry) {control : String} (h : control ≠ "namespace")
    (htype : control ≠ "type") : (e.placed space).own? control = e.own? control :=
  own?_setOwn e space h.symm htype

theorem kindValue_placed (space : Value) (e : Entry) :
    (e.placed space).kindValue = if e.kindValue.isGiven then e.kindValue else .flag true := by
  rw [placed, setOwn_apply]
  split
  · exact (kindValue_putOwn_of_ne _ space (by decide)).trans (kindValue_marked e)
  · exact kindValue_marked e

theorem frame_placed (space : Value) (e : Entry) : (e.placed space).frame = e.frame :=
  (setOwn_framed space (by decide)).view_eq e

theorem shared_placed (space : Value) (e : Entry) : (e.placed space).shared = e.shared := by
  rw [placed, setOwn_apply]
  split <;> rfl

theorem isOf_placed (space : Value) (e : Entry) {kind : Kind} (h : kind.label ≠ "") :
    (e.placed space).isOf kind = e.isOf kind := by
  rw [isOf, kindValue_placed, ← kindValue_marked]
  exact isOf_marked e h

/-- Whether an entry may speak about the plugin. -/
def speaks (e : Entry) : Bool :=
  e.isOf .sect || e.isOf .backmatter

/-- Whether an entry makes the plugin a library. -/
def makesLibrary (e : Entry) : Bool :=
  e.speaks && ((e.shared.get? "library").getD .nothing).isGiven

theorem speaks_placed (space : Value) (e : Entry) : (e.placed space).speaks = e.speaks := by
  rw [speaks, speaks, isOf_placed space e (by decide), isOf_placed space e (by decide)]

theorem makesLibrary_placed (space : Value) (e : Entry) :
    (e.placed space).makesLibrary = e.makesLibrary := by
  rw [makesLibrary, makesLibrary, speaks_placed, shared_placed]

end Entry

/-! ### Collections -/

namespace Collections

/-- The entries that are collected under a kind. -/
def under (collections : Collections) (kind : Kind) : List Entry :=
  (collections.get? kind.toValue).getD []

theorem entries_eq (collections : Collections) (kind : Kind) :
    collections.entries kind.toValue = .ok (collections.under kind) :=
  rfl

/-- Adding an entry adds it at the end of the collection of its kind, and of no other. -/
theorem under_add {collections result : Collections} {key : Value} {e : Entry}
    (h : collections.add key e = .ok result) (kind : Kind) :
    result.under kind = collections.under kind ++ if key == kind.toValue then [e] else [] := by
  unfold add entries at h
  by_cases hnothing : key.isNothing = true
  · rw [if_pos hnothing] at h
    obtain rfl := Except.ok.inj h
    have hunlike : (key == kind.toValue) = false := by
      cases key <;> first | rfl | simp [Value.isNothing] at hnothing
    rw [hunlike, if_neg (by decide), List.append_nil]
  · rw [if_neg hnothing] at h
    by_cases hkey : key.isKey = true
    · rw [if_pos hkey] at h
      obtain rfl := Except.ok.inj h
      unfold under
      by_cases hlike : (key == kind.toValue) = true
      · rw [if_pos hlike, ← Table.get?_congr _ hlike, ← Table.get?_congr _ hlike,
          Table.get?_set_self]
        rfl
      · rw [if_neg hlike, Table.get?_set_of_unlike _ _ (by simpa using hlike), List.append_nil]
    · rw [if_neg hkey] at h
      cases h

end Collections

/-! ### What the plugin makes of an entry -/

namespace Plugin

/-- The kind under which an entry is collected, in a library and elsewhere. -/
def shelf (library : Bool) (e : Entry) : Value :=
  collectionKind { name := .nothing, library := .flag library } e

/-- All that counts about the plugin is whether it is a library. -/
theorem collectionKind_eq_shelf (p : Plugin) (e : Entry) :
    p.collectionKind e = shelf p.library.isGiven e :=
  rfl

theorem shelf_of_not_function {e : Entry} (h : e.isOf .function = false) (library : Bool) :
    shelf library e = e.kindValue := by
  rw [shelf, collectionKind, h]
  rfl

theorem shelf_of_speaks {e : Entry} (h : e.speaks = true) (library : Bool) {kind : Kind}
    (hkind : kind.IsCollected) : (shelf library e == kind.toValue) = false := by
  have hheld : e.kindValue = Kind.sect.toValue ∨ e.kindValue = Kind.backmatter.toValue := by
    simpa [Entry.speaks, Entry.isOf_iff] using h
  rw [← Bool.not_eq_true, Kind.toValue, Value.beq_text_iff]
  rcases hheld with hheld | hheld
  · rw [shelf_of_not_function (Entry.isOf_eq_false hheld (by decide)), hheld]
    exact fun heq => hkind.1 (Value.text.inj heq).symm
  · rw [shelf_of_not_function (Entry.isOf_eq_false hheld (by decide)), hheld]
    exact fun heq => hkind.2 (Value.text.inj heq).symm

/-- Taking over a control keeps what putting it somewhere keeps. -/
theorem takeOver_of_put {inv : Plugin → Prop} {allowed : Cause → Prop} {control : String}
    {held : Plugin → Value} {put : Value → Plugin → Plugin} {e : Entry}
    (hcause : allowed (.redundantControl control)) (hput : ∀ value p, inv p → inv (put value p)) :
    Keeps inv allowed (takeOver control held put e) := by
  unfold takeOver
  split
  · exact Keeps.pure ()
  · refine Keeps.get.bind fun p => Keeps.ite (fun _ => ?_) fun _ => Keeps.fail hcause
    exact Keeps.modify fun p hp => hput _ p hp

/-- What a section says about the plugin keeps whatever does not depend on it. -/
theorem consume_of_puts {inv : Plugin → Prop} {allowed : Cause → Prop} {e : Entry}
    (hassumed : e.speaks = false → ∀ what, allowed (.assumption what))
    (hinvalid : ∀ what, allowed (.invalidEntry what))
    (hredundant : ∀ control, allowed (.redundantControl control))
    (hstylization : ∀ value p, inv p → inv { p with stylization := value })
    (hlibrary : ∀ value p, inv p → inv { p with library := value }) :
    Keeps inv allowed (consume e) := by
  have htake : Keeps inv allowed (do
      takeOver "stylization" (·.stylization) (fun value p => { p with stylization := value }) e
      takeOver "library" (·.library) (fun value p => { p with library := value }) e) :=
    (takeOver_of_put (hredundant _) hstylization).bind fun _ =>
      takeOver_of_put (hredundant _) hlibrary
  unfold consume
  refine Keeps.bind (Keeps.assume fun hsilent => hassumed hsilent _) fun _ => ?_
  dsimp only
  refine Keeps.ite (fun _ => Keeps.bind (Keeps.fail (hinvalid _)) fun _ => ?_) fun _ => ?_
  all_goals
    refine Keeps.ite (fun _ => Keeps.bind (Keeps.fail (hinvalid _)) fun _ => ?_) fun _ => ?_
  all_goals
    exact htake

/-- A control that is taken over was not there before. -/
theorem takeOver_ensures (control : String) (held : Plugin → Value) (put : Value → Plugin → Plugin)
    (e : Entry) (p : Plugin) :
    Ensures (takeOver control held put e) p
      (fun _ q => (e.shared.get? control = none ∧ q = p)
        ∨ ∃ value, e.shared.get? control = some value ∧ held p = .nothing ∧ q = put value p)
      (fun _ => True) := by
  unfold takeOver
  split
  · rename_i hnone
    exact Ensures.pure (Or.inl ⟨hnone, rfl⟩)
  · rename_i value hsome
    refine Ensures.get_bind (Ensures.ite (fun hfree => ?_) fun _ => trivial)
    refine Ensures.modify (Or.inr ⟨value, hsome, ?_, rfl⟩)
    cases hheld : held p <;> simp_all [Value.isNothing]

/-- What a section says about the plugin changes its name and whether it is a library, at most. -/
theorem consume_ensures (e : Entry) (p : Plugin) :
    Ensures (consume e) p
      (fun _ q => q.collections = p.collections
        ∧ q.library.isGiven
          = (p.library.isGiven || ((e.shared.get? "library").getD .nothing).isGiven))
      (fun _ => True) := by
  have htake : Ensures (do
      takeOver "stylization" (·.stylization) (fun value p => { p with stylization := value }) e
      takeOver "library" (·.library) (fun value p => { p with library := value }) e) p
      (fun _ q => q.collections = p.collections
        ∧ q.library.isGiven
          = (p.library.isGiven || ((e.shared.get? "library").getD .nothing).isGiven))
      (fun _ => True) := by
    refine Ensures.bind (takeOver_ensures _ _ _ e p) fun _ q hq => ?_
    have hsame : q.collections = p.collections ∧ q.library = p.library := by
      rcases hq with ⟨-, rfl⟩ | ⟨value, -, -, rfl⟩ <;> exact ⟨rfl, rfl⟩
    refine (takeOver_ensures _ _ _ e q).mono ?_
    rintro _ r (⟨hnone, rfl⟩ | ⟨value, hsome, hfree, rfl⟩)
    · rw [hnone, hsame.1, hsame.2]
      exact ⟨rfl, (Bool.or_false _).symm⟩
    · rw [← hsame.2, hfree, hsome]
      exact ⟨hsame.1, rfl⟩
  unfold consume
  refine Ensures.assume_bind (fun _ => trivial) fun _ => ?_
  exact Ensures.ite (fun _ => trivial) fun _ => Ensures.ite (fun _ => trivial) fun _ => htake

end Plugin

/-- What adding an entry does to collections: it goes to the end of one of them, or into none. -/
def Adds (library : Bool) (e : Entry) (before after : Collections) : Prop :=
  ∀ kind : Kind, kind.IsCollected →
    after.under kind
      = before.under kind ++ if Plugin.shelf library e == kind.toValue then [e] else []

theorem Adds.of_add {library : Bool} {e : Entry} {before after : Collections}
    (h : before.add (Plugin.shelf library e) e = .ok after) : Adds library e before after :=
  fun kind _ => Collections.under_add h kind

/-- An entry that is of no kind that is collected is added to none. -/
theorem Adds.of_unlike {library : Bool} {e : Entry}
    (h : ∀ kind : Kind, kind.IsCollected → (Plugin.shelf library e == kind.toValue) = false)
    (collections : Collections) : Adds library e collections collections := by
  intro kind hkind
  rw [h kind hkind, if_neg (by decide), List.append_nil]

theorem Plugin.add_ensures (e : Entry) (p : Plugin) :
    Ensures (Plugin.add e) p
      (fun _ q => Adds p.library.isGiven e p.collections q.collections
        ∧ q.library.isGiven = (p.library.isGiven || e.makesLibrary))
      (fun _ => True) := by
  unfold Plugin.add
  refine Ensures.ite (fun hspeaks => ?_) fun hsilent => ?_
  · refine (consume_ensures e p).mono ?_
    rintro _ q ⟨hcollections, hlibrary⟩
    refine ⟨?_, ?_⟩
    · rw [hcollections]
      exact Adds.of_unlike (fun _ hkind => shelf_of_speaks hspeaks _ hkind) _
    · rw [hlibrary, Entry.makesLibrary, show e.speaks = true from hspeaks, Bool.true_and]
  · refine Ensures.get_bind (Ensures.ofExcept_bind (fun _ _ => trivial) fun collections hadd => ?_)
    refine Ensures.modify ⟨Adds.of_add hadd, ?_⟩
    have hno : e.speaks = false := by simpa [Entry.speaks] using hsilent
    rw [Entry.makesLibrary, hno, Bool.false_and, Bool.or_false]

/-! ### Merging one entry -/

namespace Page

/-- What taking in an entry leaves behind. -/
structure TakenIn (e : Entry) (c d : Context) : Prop where
  page : Adds c.plugin.library.isGiven e c.page.collections d.page.collections
  plugin : Adds c.plugin.library.isGiven e c.plugin.collections d.plugin.collections
  library : d.plugin.library.isGiven = (c.plugin.library.isGiven || e.makesLibrary)

/-- Takes in an entry whose namespace is known. -/
def takeIn (e : Entry) : Act Context Unit := do
  Context.onPage (takeOrder e)
  Context.onPlugin (Plugin.add e)
  if e.isOf .sect then
    Context.onPage (addSection e)
  else if e.isOf .backmatter then
    Context.onPage (addBackmatter e)
  else
    let c ← Act.get
    let collections ← Act.ofExcept (c.page.collections.add (c.plugin.collectionKind e) e)
    Context.onPage (Act.modify ({ · with collections }))

/-- Documentation is given its namespace and taken in. -/
theorem merge_eq (e : Entry) (space : Value) :
    merge e space =
      if e.kindValue.isGiven then
        if e.kindValue.isYes then Act.fail .ambiguousEntry
        else Act.within (Entry.setOwn "namespace" space) e >>= takeIn
      else
        pure () := by
  unfold merge
  by_cases hgiven : e.kindValue.isGiven = true
  · by_cases hyes : e.kindValue.isYes = true
    · rw [if_pos hgiven, if_pos hyes]
      simp only [hgiven, hyes]
      rfl
    · rw [if_pos hgiven, if_neg hyes]
      simp only [hgiven, hyes]
      rfl
  · rw [if_neg hgiven]
    simp only [hgiven]
    rfl

/-- Taking in an entry keeps what each step of it keeps. -/
theorem takeIn_of_steps {inv : Context → Prop} {allowed : Cause → Prop} {e : Entry}
    (horder : Keeps inv allowed (Context.onPage (takeOrder e)))
    (hplugin : Keeps inv allowed (Context.onPlugin (Plugin.add e)))
    (hsect : e.isOf .sect = true → Keeps inv allowed (Context.onPage (addSection e)))
    (hback : e.isOf .backmatter = true → Keeps inv allowed (Context.onPage (addBackmatter e)))
    (hcause : ∀ collections kind, Covers allowed (Collections.add collections kind e))
    (hcollect : e.speaks = false → ∀ c, inv c → ∀ collections,
      c.page.collections.add (c.plugin.collectionKind e) e = .ok collections →
      inv { c with page := { c.page with collections } }) :
    Keeps inv allowed (takeIn e) := by
  unfold takeIn
  refine horder.bind fun _ => hplugin.bind fun _ => ?_
  refine Keeps.ite hsect fun hnotSect => Keeps.ite hback fun hnotBack c hc => ?_
  have hsilent : e.speaks = false := by simp [Entry.speaks, hnotSect, hnotBack]
  rw [get_bind_apply]
  cases hadd : c.page.collections.add (c.plugin.collectionKind e) e with
  | error cause => exact Keeps.fail (hcause _ _ _ hadd) c hc
  | ok collections => exact ⟨hcollect hsilent c hc collections hadd, fun _ hfault => by cases hfault⟩

/-- Merging an entry keeps what taking it in keeps. -/
theorem merge_of_takeIn {inv : Context → Prop} {allowed : Cause → Prop} {e : Entry} {space : Value}
    (hambiguous : allowed .ambiguousEntry)
    (hspace : ∀ held, allowed (.inconsistentControl "namespace" held space))
    (h : Keeps inv allowed (takeIn (e.placed space))) : Keeps inv allowed (merge e space) := by
  rw [merge_eq]
  refine Keeps.ite (fun _ => Keeps.ite (fun _ => Keeps.fail hambiguous) fun _ => ?_) fun _ =>
    Keeps.pure ()
  refine Keeps.within_bind (fun fault hfault => ?_) h
  obtain ⟨held, hcause⟩ := (Entry.setOwn_ensures "namespace" space e).of_error hfault
  rw [hcause]
  exact hspace held

/-- A step on a page that touches only its sections, its backmatters and its order. -/
theorem onPage_ensures {act : Act Page Unit} (h : Confined Page.collections (fun _ => True) act)
    (c : Context) :
    Ensures (Context.onPage act) c
      (fun _ d => d.plugin = c.plugin ∧ d.page.collections = c.page.collections)
      (fun _ => True) :=
  Ensures.on ((Ensures.of_confined h c.page).mono fun _ _ hsame => ⟨rfl, hsame⟩)

/-- Nothing but the order of a page is taken over. -/
theorem takeOrder_confined (e : Entry) :
    Confined (fun p : Page => { p with order := .nothing }) (fun _ => True) (takeOrder e) := by
  unfold takeOrder
  split
  · exact Confined.pure ()
  · refine Confined.get.bind fun p => Confined.ite (fun _ => ?_) fun _ => Confined.fail trivial
    exact Confined.modify fun _ => rfl

theorem addSection_confined (e : Entry) :
    Confined Page.collections (fun _ => True) (addSection e) := by
  unfold addSection
  refine Confined.get.bind fun p => Confined.bind (Confined.ofExcept fun _ _ => trivial) fun _ => ?_
  exact Confined.modify fun _ => rfl

theorem addBackmatter_confined (e : Entry) :
    Confined Page.collections (fun _ => True) (addBackmatter e) := by
  unfold addBackmatter
  refine Confined.get.bind fun p => Confined.bind (Confined.ofExcept fun _ _ => trivial) fun _ => ?_
  exact Confined.modify fun _ => rfl

theorem takeIn_ensures (e : Entry) (c : Context) :
    Ensures (takeIn e) c (fun _ d => TakenIn e c d) (fun _ => True) := by
  unfold takeIn
  refine Ensures.bind (onPage_ensures ((takeOrder_confined e).comp Page.collections) c) ?_
  rintro _ d ⟨hplugin, hpage⟩
  suffices h : Ensures _ d (fun _ d' => TakenIn e d d') (fun _ => True) by
    refine h.mono fun _ d' hd => ⟨?_, ?_, ?_⟩
    · rw [← hpage, ← hplugin]
      exact hd.page
    · rw [← hplugin]
      exact hd.plugin
    · rw [← hplugin]
      exact hd.library
  have hadd : Ensures (Context.onPlugin (Plugin.add e)) d
      (fun _ u => (Adds d.plugin.library.isGiven e d.plugin.collections u.plugin.collections
          ∧ u.plugin.library.isGiven = (d.plugin.library.isGiven || e.makesLibrary))
        ∧ u.page.collections = d.page.collections)
      (fun _ => True) :=
    Ensures.on ((Plugin.add_ensures e d.plugin).mono fun _ _ hadd => ⟨hadd, rfl⟩)
  refine Ensures.bind hadd ?_
  rintro _ u ⟨⟨hadds, hlibrary⟩, hsame⟩
  -- A section or a backmatter leaves the collections of the page as they are.
  have hspeaker {act : Act Page Unit} (hspeaks : e.speaks = true)
      (h : Confined Page.collections (fun _ => True) act) :
      Ensures (Context.onPage act) u (fun _ d' => TakenIn e d d') (fun _ => True) := by
    refine (onPage_ensures h u).mono ?_
    rintro _ v ⟨hv, hvpage⟩
    refine ⟨?_, ?_, ?_⟩
    · rw [hvpage, hsame]
      exact Adds.of_unlike (fun _ hkind => Plugin.shelf_of_speaks hspeaks _ hkind) _
    · rw [hv]
      exact hadds
    · rw [hv]
      exact hlibrary
  refine Ensures.ite (fun hsect => ?_) fun hsect => Ensures.ite (fun hback => ?_) fun hback => ?_
  · exact hspeaker (by rw [Entry.speaks, hsect, Bool.true_or]) (addSection_confined e)
  · exact hspeaker (by rw [Entry.speaks, hback, Bool.or_true]) (addBackmatter_confined e)
  · have hno : e.makesLibrary = false := by
      simp [Entry.makesLibrary, Entry.speaks, hsect, hback]
    have hstill : u.plugin.library.isGiven = d.plugin.library.isGiven := by
      rw [hlibrary, hno, Bool.or_false]
    refine Ensures.get_bind (Ensures.ofExcept_bind (fun _ _ => trivial) fun collections hadd => ?_)
    refine Ensures.on (Ensures.modify ⟨?_, hadds, hlibrary⟩)
    rw [Plugin.collectionKind_eq_shelf, hstill, hsame] at hadd
    exact Adds.of_add hadd

/-- Merging takes in the entry with its namespace; what is no documentation is added to nothing. -/
theorem merge_ensures (e : Entry) (space : Value) (c : Context) :
    Ensures (merge e space) c (fun _ d => TakenIn (e.placed space) c d) (fun _ => True) := by
  rw [merge_eq]
  refine Ensures.ite (fun hgiven => Ensures.ite (fun _ => trivial) fun _ => ?_) fun hnone => ?_
  · exact Ensures.within_bind (fun _ _ => trivial) (takeIn_ensures (e.placed space) c)
  · have hkind : (e.placed space).kindValue = .flag true := by
      rw [Entry.kindValue_placed, if_neg hnone]
    have hunlike (kind : Kind) : (e.placed space).isOf kind = false := by
      rw [← Bool.not_eq_true, Entry.isOf_iff, hkind]
      exact fun heq => by cases heq
    have hnowhere : ∀ kind : Kind, kind.IsCollected →
        (Plugin.shelf c.plugin.library.isGiven (e.placed space) == kind.toValue) = false := by
      intro kind _
      rw [Plugin.shelf_of_not_function (hunlike .function)]
      exact hunlike kind
    refine Ensures.pure ⟨Adds.of_unlike hnowhere _, Adds.of_unlike hnowhere _, ?_⟩
    rw [Entry.makesLibrary, Entry.speaks, hunlike, hunlike, Bool.or_self, Bool.false_and,
      Bool.or_false]

/-- An entry that is merged has the namespace of its file. -/
theorem merge_spaced (e : Entry) (space : Value) (c : Context) :
    Ensures (merge e space) c
      (fun _ _ => e.kindValue.isGiven = true → (e.placed space).own? "namespace" = some space)
      (fun _ => True) := by
  rw [merge_eq]
  refine Ensures.ite (fun _ => Ensures.ite (fun _ => trivial) fun _ => ?_) fun hnone =>
    Ensures.pure fun hgiven => absurd hgiven hnone
  refine Ensures.within_bind_of_ok (fun _ _ => trivial) fun hset => ?_
  have hstate : (Entry.setOwn "namespace" space e).state = e.marked.putOwn "namespace" space :=
    (Entry.setOwn_ensures "namespace" space e).of_ok (by rw [← hset])
  refine (takeIn_ensures _ c).mono fun _ _ _ _ => ?_
  rw [Entry.placed, hstate]
  exact Entry.own?_putOwn_self _ _ _

/-! ### Merging many entries -/

/-- An entry that comes to a page, with the namespace of its file. -/
abbrev Arrival := Entry × Value

/-- The entry as the page will keep it. -/
def Arrival.placed (a : Arrival) : Entry :=
  a.1.placed a.2

/-- Merges entries one after the other. -/
def mergeAll (arrivals : List Arrival) : Act Context Unit :=
  Act.each arrivals fun a => merge a.1 a.2

/-- The entries that are collected under a kind as they arrive, in a plugin that is a library at
first or is not. -/
def shelved (library : Bool) (kind : Kind) : List Arrival → List Entry
  | [] => []
  | a :: rest =>
    (if Plugin.shelf library a.placed == kind.toValue then [a.placed] else [])
      ++ shelved (library || a.1.makesLibrary) kind rest

/-- What many arrivals leave behind. -/
structure Grown (arrivals : List Arrival) (c d : Context) : Prop where
  page : ∀ kind : Kind, kind.IsCollected →
    d.page.collections.under kind
      = c.page.collections.under kind ++ shelved c.plugin.library.isGiven kind arrivals
  plugin : ∀ kind : Kind, kind.IsCollected →
    d.plugin.collections.under kind
      = c.plugin.collections.under kind ++ shelved c.plugin.library.isGiven kind arrivals
  library : d.plugin.library.isGiven
    = (c.plugin.library.isGiven || arrivals.any (·.1.makesLibrary))

theorem mergeAll_ensures (arrivals : List Arrival) (c : Context) :
    Ensures (mergeAll arrivals) c (fun _ d => Grown arrivals c d) (fun _ => True) := by
  induction arrivals generalizing c with
  | nil =>
      refine Ensures.pure ⟨?_, ?_, ?_⟩
      · intro kind _
        exact (List.append_nil _).symm
      · intro kind _
        exact (List.append_nil _).symm
      · exact (Bool.or_false _).symm
  | cons a rest ih =>
      rw [mergeAll, each_cons]
      refine Ensures.bind (merge_ensures a.1 a.2 c) fun _ t ht => ?_
      have hlibrary : t.plugin.library.isGiven = (c.plugin.library.isGiven || a.1.makesLibrary) := by
        rw [ht.library, Entry.makesLibrary_placed]
      refine (ih t).mono fun _ d hd => ⟨?_, ?_, ?_⟩
      · intro kind hkind
        rw [hd.page kind hkind, ht.page kind hkind, hlibrary, List.append_assoc]
        rfl
      · intro kind hkind
        rw [hd.plugin kind hkind, ht.plugin kind hkind, hlibrary, List.append_assoc]
        rfl
      · rw [hd.library, hlibrary, List.any_cons, Bool.or_assoc]

/-- Entries that are merged have the namespaces of their files. -/
theorem mergeAll_spaced (arrivals : List Arrival) (c : Context) :
    Ensures (mergeAll arrivals) c
      (fun _ _ => ∀ a ∈ arrivals, a.1.kindValue.isGiven = true →
        a.placed.own? "namespace" = some a.2)
      (fun _ => True) := by
  refine Ensures.each (fun (done : List Arrival) _ => ∀ a ∈ done, a.1.kindValue.isGiven = true →
    a.placed.own? "namespace" = some a.2) (by simp) ?_
  intro done a rest d _ hdone
  refine (merge_spaced a.1 a.2 d).mono fun _ _ hspaced other hother => ?_
  rcases List.mem_append.mp hother with hother | hother
  · exact hdone other hother
  · obtain rfl := List.mem_singleton.mp hother
    exact hspaced

/-- What is collected under a kind arrived and belongs there. -/
theorem mem_shelved {library : Bool} {kind : Kind} {arrivals : List Arrival} {e : Entry}
    (he : e ∈ shelved library kind arrivals) :
    ∃ a ∈ arrivals, e = a.placed ∧ ∃ library, Plugin.shelf library e = kind.toValue := by
  induction arrivals generalizing library with
  | nil => cases he
  | cons a rest ih =>
      rcases List.mem_append.mp he with he | he
      · split at he
        · rename_i hlike
          obtain rfl := List.mem_singleton.mp he
          exact ⟨a, List.mem_cons_self, rfl, library, Value.beq_text_iff.mp hlike⟩
        · cases he
      · obtain ⟨other, hother, hplaced⟩ := ih he
        exact ⟨other, List.mem_cons_of_mem _ hother, hplaced⟩

end Page

end PluginHelp
