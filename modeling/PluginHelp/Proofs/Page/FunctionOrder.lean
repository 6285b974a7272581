/-
The functions of a page, in whatever order they came.

Functions are listed by namespace, and those of one namespace in the order in which they came.  A
fallback is left out if another function has its tag.  So two pages list the same functions as soon as
those of each namespace came in the same order: a list that is sorted by namespace is known by the
functions of each namespace, and leaving some of them out depends only on which there are.

A function without a name has no tag, and then there is no list at all.  Which function that is, and so
the cause, is again the same in both orders.
-/
import PluginHelp.Proofs.Page.Library
import PluginHelp.Proofs.Page.Plain
import PluginHelp.Proofs.Page.Spaceless

namespace PluginHelp

open Act

theorem Value.text_beq_text (s t : String) : (Value.text s == .text t) = (s == t) := by
  rw [Bool.eq_iff_iff, beq_text_iff, beq_iff_eq]
  exact ⟨Value.text.inj, congrArg _⟩

/-- The namespace of an entry, if it is a text. -/
def Entry.space (e : Entry) : String :=
  ((e.own? "namespace").bind Value.text?).getD ""

/-- An entry whose namespace is a text. -/
def Entry.IsSpaced (e : Entry) : Prop :=
  e.own? "namespace" = some (.text e.space)

theorem Entry.isSpaced_of_own {e : Entry} {space : String}
    (h : e.own? "namespace" = some (.text space)) : e.IsSpaced ∧ e.space = space := by
  have hspace : e.space = space := by
    rw [Entry.space, h]
    rfl
  exact ⟨by rw [IsSpaced, h, hspace], hspace⟩

namespace Page

/-! ### Sorting by namespace -/

/-- Functions with namespaces are arranged by them, and those of one namespace stay as they are. -/
theorem arrange_of_spaced {functions : List Entry} (h : ∀ e ∈ functions, e.IsSpaced) :
    ∃ arranged, arrange Kind.function.toValue functions = .ok arranged
      ∧ arranged.Perm functions
      ∧ (arranged.Pairwise fun e f => e.space ≤ f.space)
      ∧ ∀ space, arranged.filter (·.space == space) = functions.filter (·.space == space) := by
  have hkey (e : Entry) (he : e ∈ functions) :
      (e.own? "namespace").getD (.text "") = .text e.space := by
    rw [show _ = _ from h e he]
    rfl
  rw [arrange_functions]
  cases hsort : sortByValue (fun e => .ok ((e.own? "namespace").getD (.text ""))) functions with
  | error cause =>
      have hnever : Covers (fun _ => False)
          (sortByValue (fun e => .ok ((e.own? "namespace").getD (.text ""))) functions) :=
        sortByValue_texts (fun e he => ⟨e.space, congrArg _ (hkey e he)⟩) _
      exact (hnever cause hsort).elim
  | ok arranged =>
      have hsorted := sortByValue_sorted hsort
      refine ⟨arranged, rfl, hsorted.perm, ?_, fun space => ?_⟩
      · refine hsorted.ordered.imp_of_mem ?_
        rintro e f he hf ⟨x, y, hx, hy, hbefore⟩
        obtain rfl := Except.ok.inj hx
        obtain rfl := Except.ok.inj hy
        rw [hkey e (hsorted.perm.mem_iff.mp he), hkey f (hsorted.perm.mem_iff.mp hf), Value.before?]
          at hbefore
        exact not_lt.mp (of_decide_eq_false (Option.some.inj hbefore))
      · have hfilter := sortByValue_filter hsort (.text space)
        have hsame {entries : List Entry} (hentries : ∀ e ∈ entries, e ∈ functions) :
            entries.filter (fun e => (e.own? "namespace").getD (.text "") == .text space)
              = entries.filter (·.space == space) := by
          refine List.filter_congr fun e he => ?_
          rw [hkey e (hentries e he), Value.text_beq_text]
        rw [hsame fun e he => hsorted.perm.mem_iff.mp he, hsame fun _ he => he] at hfilter
        exact hfilter

/-- What is arranged depends only on the order inside each namespace. -/
theorem arrange_eq_of_spaces {functions others : List Entry} (h : ∀ e ∈ functions, e.IsSpaced)
    (hothers : ∀ e ∈ others, e.IsSpaced)
    (hsame : ∀ space, functions.filter (·.space == space) = others.filter (·.space == space)) :
    arrange Kind.function.toValue functions = arrange Kind.function.toValue others := by
  obtain ⟨arranged, harranged, -, hordered, hspaces⟩ := arrange_of_spaced h
  obtain ⟨second, hsecond, -, hordered', hspaces'⟩ := arrange_of_spaced hothers
  rw [harranged, hsecond, eq_of_filter_key hordered hordered' fun space => ?_]
  rw [hspaces, hspaces', hsame]

/-! ### Fallbacks that are left out -/

/-- The tag of an entry, if it has one. -/
def tag? (e : Entry) : Option Value :=
  e.tagName.toOption

/-- Whether an entry that is no fallback has the tag of a given one. -/
def isOverridden (entries : List Entry) (e : Entry) : Bool :=
  entries.any fun f => !f.isFallback && tag? f == tag? e

/-- Whether an entry is listed among others: it is unless it is a fallback that is overridden. -/
def isListedAmong (entries : List Entry) (e : Entry) : Bool :=
  !(e.isFallback && isOverridden entries e)

theorem isListedAmong_of_perm {entries others : List Entry} (h : entries.Perm others) (e : Entry) :
    isListedAmong entries e = isListedAmong others e := by
  have hany : isOverridden entries e = isOverridden others e := by
    rw [Bool.eq_iff_iff, isOverridden, isOverridden, List.any_eq_true, List.any_eq_true]
    simp only [h.mem_iff]
  rw [isListedAmong, isListedAmong, hany]

theorem tag?_of_keyTag {e : Entry} {tag : Value} (h : keyTag e = .ok tag) : tag? e = some tag := by
  obtain ⟨found, hfound, hkey⟩ := Except.bind_eq_ok_iff.mp h
  split at hkey
  · obtain rfl := Except.ok.inj hkey
    rw [tag?, hfound]
    rfl
  · cases hkey

theorem firmTags_of_tags {entries : List Entry} {tag : Entry → Value}
    (h : ∀ e ∈ entries, keyTag e = .ok (tag e)) :
    firmTags entries = .ok ((entries.filter (!·.isFallback)).map tag) := by
  rw [firmTags, Except.mapM_eq_ok_iff, List.forall₂_map_right_iff, List.forall₂_same]
  exact fun e he => h e (List.mem_of_mem_filter he)

theorem withoutFallbacks_of_tags {tags : List Value} {entries : List Entry} {tag : Entry → Value}
    (h : ∀ e ∈ entries, keyTag e = .ok (tag e)) :
    withoutFallbacks tags entries
      = .ok (entries.filter fun e => !(e.isFallback && tags.contains (tag e))) := by
  induction entries with
  | nil => rfl
  | cons e rest ih =>
      obtain ⟨he, hrest⟩ := List.forall_mem_cons.mp h
      rw [withoutFallbacks, ih hrest, he, List.filter_cons]
      cases e.isFallback with
      | false => rfl
      | true =>
          rw [if_pos rfl, Bool.true_and]
          rfl

/-- Where every entry has a tag, exactly the fallbacks that are overridden are left out. -/
theorem withoutFallbacks_eq {entries : List Entry} (h : ∀ e ∈ entries, ∃ tag, keyTag e = .ok tag) :
    (firmTags entries >>= fun tags => withoutFallbacks tags entries)
      = .ok (entries.filter (isListedAmong entries)) := by
  let tag (e : Entry) : Value := (tag? e).getD .nothing
  have htags (e : Entry) (he : e ∈ entries) : keyTag e = .ok (tag e) ∧ tag? e = some (tag e) := by
    obtain ⟨found, hfound⟩ := h e he
    have htag : tag? e = some found := tag?_of_keyTag hfound
    have hsame : tag e = found := by
      show (tag? e).getD .nothing = found
      rw [htag]
      rfl
    exact ⟨by rw [hfound, hsame], by rw [htag, hsame]⟩
  have hoverridden (e : Entry) (he : e ∈ entries) :
      ((entries.filter (!·.isFallback)).map tag).contains (tag e) = isOverridden entries e := by
    rw [List.contains_eq_any_beq, List.any_map, List.any_filter, isOverridden, Bool.eq_iff_iff,
      List.any_eq_true, List.any_eq_true]
    refine exists_congr fun f => and_congr_right fun hf => ?_
    rw [(htags e he).2, (htags f hf).2, Option.some_beq_some, BEq.comm]
    rfl
  rw [firmTags_of_tags fun e he => (htags e he).1]
  show withoutFallbacks _ entries = _
  rw [withoutFallbacks_of_tags fun e he => (htags e he).1]
  refine congrArg Except.ok (List.filter_congr fun e he => ?_)
  rw [isListedAmong, hoverridden e he]

/-! ### The list of functions -/

/-- A function that is no exception is looked for by its tag. -/
theorem keyTag_eq_tagName {e : Entry} (h : e.isOf .function = true)
    (hplain : e.hasOwn "exception" = false) : keyTag e = e.tagName := by
  rw [keyTag]
  cases htag : e.tagName with
  | error cause => rfl
  | ok tag =>
      have hkey : tag.isKey = true := by
        unfold Entry.tagName at htag
        rw [h, hplain] at htag
        split at htag
        · obtain rfl := Except.ok.inj htag
          rfl
        · obtain ⟨full, -, hfull⟩ := Except.bind_eq_ok_iff.mp htag
          obtain rfl := Except.ok.inj hfull
          rfl
      show (if tag.isKey then _ else _) = _
      rw [if_pos hkey]
      rfl

/-- Where all tags are there, a fallback is listed exactly if nothing else has its tag. -/
theorem isListedAmong_iff {entries : List Entry} (htags : ∀ e ∈ entries, ∃ tag, e.tagName = .ok tag)
    {e : Entry} (he : e ∈ entries) :
    isListedAmong entries e = true
      ↔ (e.isFallback = true → ∀ f ∈ entries, f.isFallback = false → ∀ tag held,
          e.tagName = .ok tag → f.tagName = .ok held → (held == tag) = false) := by
  obtain ⟨tag, htag⟩ := htags e he
  have hsome {f : Entry} {held : Value} (hheld : f.tagName = .ok held) : tag? f = some held := by
    rw [tag?, hheld]
    rfl
  rw [isListedAmong, Bool.not_eq_true', Bool.and_eq_false_imp]
  refine imp_congr_right fun _ => ?_
  rw [isOverridden, List.any_eq_false]
  refine forall₂_congr fun f hf => ?_
  obtain ⟨held, hheld⟩ := htags f hf
  rw [hsome htag, hsome hheld, htag, hheld, Option.some_beq_some]
  cases f.isFallback <;> simp

/-- A list of functions: they are in the order of their namespaces, and those of one namespace are
those that were collected, as they came, without the fallbacks that are overridden. -/
structure ListedBySpace (functions list : List Entry) : Prop where
  ordered : list.Pairwise fun e f => e.space ≤ f.space
  spaces : ∀ space, list.filter (·.space == space)
    = (functions.filter (·.space == space)).filter (isListedAmong functions)

theorem ListedBySpace.mem_iff {functions list : List Entry} (h : ListedBySpace functions list)
    (e : Entry) : e ∈ list ↔ e ∈ functions ∧ isListedAmong functions e = true := by
  have hspace : e ∈ list.filter (·.space == e.space)
      ↔ e ∈ (functions.filter (·.space == e.space)).filter (isListedAmong functions) := by
    rw [h.spaces]
  simpa using hspace

/-- The functions of a page can be listed if each of them has a tag, and they are listed by
namespace. -/
theorem collection_of_spaced {p : Page} (hspaced : ∀ e ∈ p.collections.under .function, e.IsSpaced)
    (htags : ∀ e ∈ p.collections.under .function, ∃ tag, keyTag e = .ok tag) :
    ∃ list, p.collection Kind.function.toValue = .ok list
      ∧ ListedBySpace (p.collections.under .function) list := by
  obtain ⟨arranged, harranged, hperm, hordered, hspaces⟩ := arrange_of_spaced hspaced
  have hkept := withoutFallbacks_eq fun e he => htags e (hperm.mem_iff.mp he)
  refine ⟨arranged.filter (isListedAmong arranged), ?_, hordered.sublist List.filter_sublist, ?_⟩
  · rw [collection, Collections.entries_eq]
    show (arrange Kind.function.toValue (p.collections.under .function) >>= _) = _
    rw [harranged]
    exact hkept
  · intro space
    rw [← hspaces, List.filter_comm]
    exact List.filter_congr fun e _ => isListedAmong_of_perm hperm e

/-! ### Merging functions -/

/-- A function that passes nothing on, from a file with a namespace. -/
structure Arrival.IsFunction (a : Arrival) : Prop where
  kind : a.1.isOf .function = true
  plain : a.1.shared = []
  spaced : ∃ space, a.2 = .text space

/-- Whether a function is collected under its kind. -/
def Arrival.isCollected (library : Bool) (a : Arrival) : Bool :=
  a.agrees && a.goesUnder library .function

/-- The functions that are collected out of those that arrive. -/
def functionsOf (library : Bool) (arrivals : List Arrival) : List Entry :=
  (arrivals.filter (·.isCollected library)).map Arrival.placed

theorem shelf_isKey {e : Entry} (h : e.isOf .function = true) (library : Bool) :
    (Plugin.shelf library e).isKey = true := by
  rw [Plugin.shelf, Plugin.collectionKind, if_pos h, Entry.isOf_iff.mp h]
  repeat' split
  all_goals rfl

/-- Nothing is in the way of collecting a function. -/
theorem add_covers {e : Entry} (h : e.isOf .function = true) (collections : Collections)
    (p : Plugin) (allowed : Cause → Prop) :
    Covers allowed (collections.add (p.collectionKind e) e) := by
  rw [Plugin.collectionKind_eq_shelf, Collections.add, Collections.entries,
    if_pos (shelf_isKey h _)]
  exact Covers.ite (fun _ => Covers.ok _) fun _ => Covers.ok _

/-- A function that passes nothing on is always taken in. -/
theorem takeIn_function {e : Entry} (h : e.isOf .function = true) (hplain : e.shared = [])
    (c : Context) : TakenIn e c (takeIn e c).state := by
  have hsect : e.isOf .sect = false := Entry.isOf_eq_false (Entry.isOf_iff.mp h) (by decide)
  have hback : e.isOf .backmatter = false := Entry.isOf_eq_false (Entry.isOf_iff.mp h) (by decide)
  have horder : Context.onPage (takeOrder e) = pure () := by
    rw [takeOrder_of_plain hplain]
    rfl
  have hadd : Ensures (Context.onPlugin (Plugin.add e)) c (fun _ _ => True) (fun _ => False) := by
    rw [Plugin.add, hsect, hback]
    exact Ensures.on (Ensures.get_bind (Ensures.ofExcept_bind (add_covers h _ c.plugin _) fun _ _ =>
      Ensures.modify trivial))
  have hnever : Ensures (takeIn e) c (fun _ _ => True) (fun _ => False) := by
    rw [takeIn, horder, pure_bind, hsect, hback]
    refine Ensures.bind hadd fun _ d _ => ?_
    exact Ensures.get_bind (Ensures.ofExcept_bind (add_covers h _ d.plugin _) fun _ _ =>
      Ensures.on (Ensures.modify trivial))
  obtain ⟨u, hresult⟩ := hnever.exists_ok
  exact (takeIn_ensures e c).of_ok (by rw [← hresult])

theorem merge_function {a : Arrival} (h : a.IsFunction) (c : Context) :
    (merge a.1 a.2 c).state.page.collections.under .function
        = c.page.collections.under .function ++ functionsOf c.plugin.library.isGiven [a]
      ∧ (merge a.1 a.2 c).state.plugin.library.isGiven = c.plugin.library.isGiven := by
  have hready : a.Ready := Arrival.ready_of_isOf h.kind (by decide)
  cases hagrees : a.agrees with
  | false =>
      have hnone : functionsOf c.plugin.library.isGiven [a] = [] := by
        simp [functionsOf, Arrival.isCollected, hagrees]
      rw [merge_of_disagrees hready hagrees, hnone, List.append_nil]
      exact ⟨rfl, rfl⟩
  | true =>
      have hkind : a.placed.isOf .function = true :=
        (Entry.isOf_placed a.2 a.1 (by decide)).trans h.kind
      have htaken := takeIn_function hkind ((Entry.shared_placed a.2 a.1).trans h.plain) c
      rw [merge_of_agrees hready hagrees]
      refine ⟨(htaken.page .function (by decide)).trans ?_, ?_⟩
      · have hcollected : a.isCollected c.plugin.library.isGiven
            = (Plugin.shelf c.plugin.library.isGiven a.placed == Kind.function.toValue) := by
          rw [Arrival.isCollected, hagrees, Bool.true_and]
          rfl
        rw [functionsOf, List.filter_cons, hcollected]
        split <;> rfl
      · have hsilent : a.placed.makesLibrary = false := by
          rw [Entry.makesLibrary, Entry.speaks,
            Entry.isOf_eq_false (Entry.isOf_iff.mp hkind) (by decide),
            Entry.isOf_eq_false (Entry.isOf_iff.mp hkind) (by decide)]
          rfl
        rw [htaken.library, hsilent, Bool.or_false]

/-- After any functions, those are collected that are to be. -/
theorem under_mergeEach {arrivals : List Arrival} (h : ∀ a ∈ arrivals, a.IsFunction)
    (plugin : Plugin) (name : Value) :
    (mergeEach arrivals ⟨plugin, { name }⟩).page.collections.under .function
        = functionsOf plugin.library.isGiven arrivals
      ∧ (mergeEach arrivals ⟨plugin, { name }⟩).plugin.library.isGiven = plugin.library.isGiven := by
  induction arrivals using List.reverseRecOn with
  | nil => exact ⟨rfl, rfl⟩
  | append_singleton arrivals a ih =>
      obtain ⟨hunder, hlibrary⟩ := ih fun b hb => h b (List.mem_append_left _ hb)
      obtain ⟨hlast, hsame⟩ := merge_function (h a (by simp)) (mergeEach arrivals ⟨plugin, { name }⟩)
      rw [mergeEach_concat, hlast, hsame, hunder, hlibrary]
      refine ⟨?_, rfl⟩
      rw [functionsOf, functionsOf, functionsOf, List.filter_append, List.map_append]

/-- What is collected has the namespace that it was given. -/
theorem placed_space {a : Arrival} (h : a.IsFunction) (hagrees : a.agrees = true) :
    a.placed.IsSpaced ∧ a.2 = .text a.placed.space := by
  obtain ⟨space, hspace⟩ := h.spaced
  have hown : a.placed.own? "namespace" = some (.text space) := by
    unfold Arrival.agrees at hagrees
    rw [Arrival.placed, Entry.placed, Entry.setOwn_apply, Entry.own?_marked _ (by decide), hagrees,
      if_pos rfl, Entry.own?_putOwn_self, hspace]
  obtain ⟨hspaced, hsame⟩ := Entry.isSpaced_of_own hown
  exact ⟨hspaced, by rw [hspace, hsame]⟩

theorem functionsOf_filter {arrivals : List Arrival} (h : ∀ a ∈ arrivals, a.IsFunction)
    (library : Bool) (space : String) :
    (functionsOf library arrivals).filter (·.space == space)
      = functionsOf library (arrivals.filter (·.2 == .text space)) := by
  rw [functionsOf, functionsOf, List.filter_map, List.filter_filter, List.filter_filter]
  congr 1
  refine List.filter_congr fun a ha => ?_
  cases hagrees : a.agrees with
  | false => simp [Arrival.isCollected, hagrees]
  | true =>
      have hspace := (placed_space (h a ha) hagrees).2
      have hlike : (a.2 == .text space) = (a.placed.space == space) := by
        rw [hspace, Value.text_beq_text]
      rw [hlike, Bool.and_comm]
      rfl

theorem functionsOf_spaced {arrivals : List Arrival} (h : ∀ a ∈ arrivals, a.IsFunction)
    (library : Bool) : ∀ e ∈ functionsOf library arrivals, e.IsSpaced := by
  intro e he
  obtain ⟨a, ha, rfl⟩ := List.mem_map.mp he
  obtain ⟨ha, hcollected⟩ := List.mem_filter.mp ha
  exact (placed_space (h a ha) (Bool.and_eq_true_iff.mp hcollected).1).1

theorem keyTag_of_functionsOf {arrivals : List Arrival} {library : Bool} {e : Entry}
    (he : e ∈ functionsOf library arrivals) : keyTag e = e.tagName := by
  obtain ⟨a, ha, rfl⟩ := List.mem_map.mp he
  have hunder := (Bool.and_eq_true_iff.mp (List.mem_filter.mp ha).2).2
  obtain ⟨hkind, hplain⟩ := Plugin.kindValue_of_shelf (Value.beq_text_iff.mp hunder) (by decide)
  have hfunction : a.placed.isOf .function = true := Entry.isOf_iff.mpr hkind
  exact keyTag_eq_tagName hfunction (hplain hfunction)

/--
**The list of functions does not depend on the order of the files.**

Functions are merged into two pages, some of which may be refused, and those of each namespace come
in the same order.  Then both pages give the same answer.  They give a list exactly if each collected
function has a tag.  The list is sorted by namespace and keeps the order inside of each; it has every
function that is no fallback, and a fallback exactly if no other function has its tag.
-/
theorem collection_of_any_order (plugin other : Plugin) (name title : Value)
    (arrivals others : List Arrival) (hfunctions : ∀ a ∈ arrivals, a.IsFunction)
    (hsame : ∀ space : Value, arrivals.filter (·.2 == space) = others.filter (·.2 == space))
    (hlibrary : plugin.library.isGiven = other.library.isGiven) :
    let p := (mergeEach arrivals ⟨plugin, { name }⟩).page
    let q := (mergeEach others ⟨other, { name := title }⟩).page
    let functions := functionsOf plugin.library.isGiven arrivals
    p.collection Kind.function.toValue = q.collection Kind.function.toValue
    ∧ ((∃ list, p.collection Kind.function.toValue = .ok list)
        ↔ ∀ e ∈ functions, ∃ tag, e.tagName = .ok tag)
    ∧ ∀ list, p.collection Kind.function.toValue = .ok list →
        ListedBySpace functions list
        ∧ ∀ e, e ∈ list ↔ e ∈ functions ∧ (e.isFallback = true →
            ∀ f ∈ functions, f.isFallback = false → ∀ tag held, e.tagName = .ok tag →
              f.tagName = .ok held → (held == tag) = false) := by
  intro p q functions
  have hothers (b : Arrival) (hb : b ∈ others) : b.IsFunction := by
    have hkept : b ∈ others.filter (·.2 == b.2) := List.mem_filter.mpr ⟨hb, BEq.rfl⟩
    rw [← hsame] at hkept
    exact hfunctions b (List.mem_filter.mp hkept).1
  have hp : p.collections.under .function = functions := (under_mergeEach hfunctions plugin name).1
  have hq : q.collections.under .function = functionsOf other.library.isGiven others :=
    (under_mergeEach hothers other title).1
  have hspaced := functionsOf_spaced hfunctions plugin.library.isGiven
  have hkeys (e : Entry) (he : e ∈ functions) : keyTag e = e.tagName :=
    keyTag_of_functionsOf he
  have hfound : (∃ list, p.collection Kind.function.toValue = .ok list) →
      ∀ e ∈ functions, ∃ tag, e.tagName = .ok tag := by
    rintro ⟨list, hlist⟩ e he
    rw [← hkeys e he]
    exact keyTag_of_collection hlist e (by rw [hp]; exact he)
  have hlisted (htags : ∀ e ∈ functions, ∃ tag, e.tagName = .ok tag) :
      ∃ list, p.collection Kind.function.toValue = .ok list ∧ ListedBySpace functions list := by
    rw [← hp]
    refine collection_of_spaced (by rw [hp]; exact hspaced) fun e he => ?_
    rw [hp] at he
    rw [hkeys e he]
    exact htags e he
  refine ⟨?_, ⟨hfound, fun htags => ?_⟩, fun list hlist => ?_⟩
  · have harrange : arrange Kind.function.toValue functions
        = arrange Kind.function.toValue (functionsOf other.library.isGiven others) := by
      refine arrange_eq_of_spaces hspaced (functionsOf_spaced hothers _) fun space => ?_
      rw [functionsOf_filter hfunctions, functionsOf_filter hothers, hsame, hlibrary]
    rw [collection, collection, Collections.entries_eq, Collections.entries_eq, hp, hq]
    show (arrange Kind.function.toValue functions >>= _) = _
    rw [harrange]
    rfl
  · obtain ⟨list, hlist, -⟩ := hlisted htags
    exact ⟨list, hlist⟩
  · have htags := hfound ⟨list, hlist⟩
    obtain ⟨same, hsame, hbySpace⟩ := hlisted htags
    obtain rfl : same = list := Except.ok.inj (hsame.symm.trans hlist)
    refine ⟨hbySpace, fun e => ?_⟩
    rw [hbySpace.mem_iff]
    exact and_congr_right fun he => isListedAmong_iff htags he

/-- Two files may come in either order.  The fallback of the second one is left out, as the file has
another function of that name. -/
theorem collection_of_any_order_two_files :
    let function (name : String) : Entry :=
      { own := [("type", Kind.function.toValue), ("name", .text name), ("private", .flag false)] }
    let first : List Arrival := [(function "Add", .text "demo#a#"), (function "Drop", .text "demo#a#")]
    let second : List Arrival := [({ function "Run" with isFallback := true }, .text "demo#b#"),
      (function "Run", .text "demo#b#")]
    let found (arrivals : List Arrival) :=
      (mergeEach arrivals ⟨{ name := .text "demo" }, { name := .text "demo" }⟩).page.collection
        Kind.function.toValue
    found (first ++ second) = found (second ++ first)
    ∧ ∃ list, found (first ++ second) = .ok list
      ∧ ListedBySpace (functionsOf false (first ++ second)) list
      ∧ list.length = 3 := by
  intro function first second found
  have hfunctions : ∀ a ∈ first ++ second, a.IsFunction := by
    intro a ha
    simp only [first, second, List.cons_append, List.nil_append, List.mem_cons, List.not_mem_nil,
      or_false] at ha
    rcases ha with rfl | rfl | rfl | rfl
    all_goals exact ⟨rfl, rfl, _, rfl⟩
  have hsame (space : Value) : (first ++ second).filter (·.2 == space)
      = (second ++ first).filter (·.2 == space) := by
    rw [List.filter_append, List.filter_append]
    cases ha : (Value.text "demo#a#" == space) with
    | false =>
        have hnone : first.filter (·.2 == space) = [] :=
          List.filter_eq_nil_iff.mpr (by simp [first, ha])
        rw [hnone, List.nil_append, List.append_nil]
    | true =>
        have hb : (Value.text "demo#b#" == space) = false := by
          rw [← BEq.congr_right ha]
          decide
        have hnone : second.filter (·.2 == space) = [] :=
          List.filter_eq_nil_iff.mpr (by simp [second, hb])
        rw [hnone, List.nil_append, List.append_nil]
  obtain ⟨hequal, -, hlist⟩ := collection_of_any_order { name := .text "demo" }
    { name := .text "demo" } (.text "demo") (.text "demo") (first ++ second) (second ++ first)
    hfunctions hsame rfl
  have hlength : ((found (first ++ second)).map List.length).toOption = some 3 := by decide +kernel
  refine ⟨hequal, ?_⟩
  cases hfound : found (first ++ second) with
  | error cause =>
      rw [hfound] at hlength
      cases hlength
  | ok list =>
      rw [hfound] at hlength
      exact ⟨list, rfl, (hlist list hfound).1, Option.some.inj hlength⟩

/-- Where a function without a name was collected, there is no list. -/
theorem collection_of_unnamed_function :
    let a : Arrival :=
      ({ own := [("type", Kind.function.toValue), ("private", .flag false)] }, .text "demo#")
    let after := mergeAll [a] ⟨{ name := .text "demo" }, { name := .text "demo" }⟩
    after.result = .ok ()
    ∧ (after.state.page.collections.under .function).length = 1
    ∧ after.state.page.collection Kind.function.toValue = .error (.missing "Unnamed block.") := by
  decide +kernel

end Page

end PluginHelp
