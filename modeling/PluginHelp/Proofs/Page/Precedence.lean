/-
Whether a section comes before those below it.

A page goes along its order.  It takes each section that the order names out of its table and puts
it at the end, and then it puts everything below that section.  But putting a section that is there
already does not move it.  So where a section at the top is named for the first time, all that lies
below it comes after it, and where it is named once more, it is moved behind all that lies below it,
which stays where it is.  Nested sections are never taken out, so each of them always comes before
those right below it.

`Arranged` says this of the part of the order that is done.  It does not speak of places, which
change with every section that is moved, but of pairs of sections.
-/
import PluginHelp.Proofs.Page.Closable
import PluginHelp.Proofs.Page.Completion
import PluginHelp.Proofs.Page.Plain

namespace PluginHelp

/-! ### Keys that come before each other -/

section Precedes

variable {κ ν : Type} [BEq κ] {keys more : List κ} {a b : κ}

/-- Among some keys, one that is like the first of two comes before one that is like the second. -/
def Precedes (keys : List κ) (a b : κ) : Prop :=
  ∃ k l, [k, l].Sublist keys ∧ (k == a) = true ∧ (l == b) = true

theorem Precedes.mono (h : Precedes keys a b) (hsublist : keys.Sublist more) :
    Precedes more a b := by
  obtain ⟨k, l, hpair, hk, hl⟩ := h
  exact ⟨k, l, hpair.trans hsublist, hk, hl⟩

/-- When another key is taken out and some are added at the end, two keys stand to each other as
before. -/
theorem Precedes.moved [PartialEquivBEq κ] (h : Precedes keys a b) {key : κ}
    (ha : (a == key) = false) (hb : (b == key) = false) (more : List κ) :
    Precedes (keys.filter (!· == key) ++ more) a b := by
  obtain ⟨k, l, hpair, hk, hl⟩ := h
  have hkept := hpair.filter (!· == key)
  rw [List.filter_cons_of_pos (by rw [BEq.congr_left hk, ha]; rfl),
    List.filter_cons_of_pos (by rw [BEq.congr_left hl, hb]; rfl), List.filter_nil] at hkept
  exact ⟨k, l, hkept.trans (List.sublist_append_left _ _), hk, hl⟩

theorem precedes_append {k l : κ} (hk : k ∈ keys) (ha : (k == a) = true) (hl : l ∈ more)
    (hb : (l == b) = true) : Precedes (keys ++ more) a b :=
  ⟨k, l, (List.singleton_sublist.mpr hk).append (List.singleton_sublist.mpr hl), ha, hb⟩

/-- Where the keys of a table are distinct, the rows come in the order of their keys. -/
theorem Precedes.rows [EquivBEq κ] {t : Table κ ν} (h : Precedes t.keys a b)
    (hdistinct : Distinct t.keys) {row other : κ × ν} (hrow : row ∈ t) (hother : other ∈ t)
    (ha : (row.1 == a) = true) (hb : (other.1 == b) = true) : [row, other].Sublist t := by
  obtain ⟨k, l, hpair, hk, hl⟩ := h
  obtain ⟨rows, hrows, hkeys⟩ := List.sublist_map_iff.mp hpair
  obtain ⟨first, rest, rfl, rfl, hrest⟩ := List.map_eq_cons_iff.mp hkeys.symm
  obtain ⟨second, last, rfl, rfl, hlast⟩ := List.map_eq_cons_iff.mp hrest
  obtain rfl := List.map_eq_nil_iff.mp hlast
  have hmem := hrows.subset
  obtain rfl : row = first :=
    Table.eq_of_alike hdistinct hrow (hmem (by simp)) (BEq.trans ha (BEq.symm hk))
  obtain rfl : other = second :=
    Table.eq_of_alike hdistinct hother (hmem (by simp)) (BEq.trans hb (BEq.symm hl))
  exact hrows

/-- Where nothing stands twice, of two items only one comes before the other. -/
theorem not_sublist_of_swapped {α : Type} {items : List α} (h : items.Nodup) {x y : α}
    (hpair : [x, y].Sublist items) : ¬[y, x].Sublist items := by
  intro hswapped
  obtain ⟨i, j, hlt, hi, hj⟩ := Page.pair_sublist_iff.mp hpair
  obtain ⟨m, n, hlt', hm, hn⟩ := Page.pair_sublist_iff.mp hswapped
  have hplace {k l : Nat} {a : α} (hk : items[k]? = some a) (hl : items[l]? = some a) : k = l :=
    (List.getElem?_inj (List.getElem?_eq_some_iff.mp hk).1 h).mp (hk.trans hl.symm)
  have hfirst := hplace hi hn
  have hsecond := hplace hj hm
  omega

end Precedes

namespace Page

open Act Entry

/-! ### Walks -/

variable {table : Table Value Section}

/-- In a walk, every section comes before those right below it. -/
theorem Walk.precedes {level : Nat} {tops : List (Value × Section)} {rows : Table Value Section}
    (h : Walk table level tops rows) :
    (∀ top ∈ tops, (top.1 == idOf top.2) = true) → ∀ top ∈ tops, ∀ {upper s : Section},
      Under table top.2 upper → s ∈ childrenOf table upper →
      Precedes rows.keys (idOf upper) (idOf s) := by
  induction h with
  | nil =>
      intro _ top htop
      simp at htop
  | @cons level id held children rest branch others hsorted hbranch _ ihbranch ihrest =>
      intro htops top htop upper s hupper hs
      obtain ⟨hid, hrest⟩ := List.forall_mem_cons.mp htops
      have hchildren : ∀ top ∈ children.map fun child => (idOf child, child),
          (top.1 == idOf top.2) = true := by
        intro top htop
        obtain ⟨child, -, rfl⟩ := List.mem_map.mp htop
        exact BEq.rfl
      have hmem {child : Section} (hchild : child ∈ childrenOf table held) :
          (idOf child, child) ∈ children.map fun child => (idOf child, child) :=
        List.mem_map_of_mem (hsorted.perm.mem_iff.mpr hchild)
      rw [Table.keys, List.map_append, List.map_cons]
      rcases List.mem_cons.mp htop with rfl | htop
      · refine Precedes.mono ?_ (List.sublist_append_left _ _)
        rcases hupper.eq_or_child with rfl | ⟨child, hchild, hunder⟩
        · -- The section itself stands in front of its branch.
          obtain ⟨row, hrow, hkey⟩ :=
            Table.has_iff.mp (hbranch.has hchildren (idOf s, s) (hmem hs) s .self)
          have hfront : id ∈ [id] := List.mem_cons_self
          exact precedes_append hfront hid (List.mem_map_of_mem hrow) hkey
        · exact (ihbranch hchildren _ (hmem hchild) hunder hs).mono (List.sublist_cons_self _ _)
      · exact (ihrest hrest top htop hupper hs).mono (List.sublist_append_right _ _)

/-! ### Going along the order -/

/-- How the sections under those that are done stand to each other: a section comes before those
right below it, but one at the top that was named more than once comes after them. -/
structure Arranged (table : Table Value Section) (done keys : List Value) : Prop where
  before : ∀ {top upper s : Section}, Depth table top 0 → Under table top upper →
    s ∈ childrenOf table upper → 0 < done.count (idOf top) →
    isNested upper = true ∨ done.count (idOf top) ≤ 1 → Precedes keys (idOf upper) (idOf s)
  after : ∀ {top s : Section}, Depth table top 0 → s ∈ childrenOf table top →
    1 < done.count (idOf top) → Precedes keys (idOf s) (idOf top)

theorem arranged_start (keys : List Value) : Arranged table [] keys where
  before _ _ _ hnamed := by simp at hnamed
  after _ _ hnamed := by simp at hnamed

theorem count_concat (done : List Value) (id key : Value) :
    (done ++ [id]).count key = done.count key + if id == key then 1 else 0 := by
  rw [List.count_append, List.count_singleton]

section Step

variable {start p : Page} {done : List Value} {id : Value} {named : Section}
  {rows : Table Value Section}

/-- The keys after a section was named: what was there stays, but for the section itself, and what
was not there comes after it. -/
theorem keys_named (hfiled : Filed table) (hnamed : Depth table named 0)
    (hid : (id == idOf named) = true) (hrows : Walk table 0 [(id, named)] rows)
    (sections : Table Value Section) :
    ((sections.erase id).setAll rows).keys = sections.keys.filter (!· == id)
      ++ rows.keys.filter (!(sections.erase id).has ·) := by
  have hdistinct : Distinct rows.keys :=
    hrows.distinct hfiled (by simpa [Tops] using ⟨hnamed, hid⟩) (List.pairwise_singleton _ _)
  rw [Table.keys_setAll _ hdistinct, Table.keys_erase]

/-- A nested section is not the one that was named. -/
theorem idOf_unlike_of_nested (hfiled : Filed table) (hnamed : Depth table named 0)
    (hid : (id == idOf named) = true) {s : Section} (hs : s ∈ sectionsOf table)
    (hnested : isNested s = true) : (idOf s == id) = false := by
  cases hlike : idOf s == id with
  | false => rfl
  | true =>
      obtain rfl : s = named := hfiled.eq_of_alike hs hnamed.mem (BEq.trans hlike hid)
      rw [hnamed.not_nested] at hnested
      cases hnested

/-- What lies under another section at the top is not the one that was named either. -/
theorem idOf_unlike_of_under (hfiled : Filed table) (hnamed : Depth table named 0)
    (hid : (id == idOf named) = true) {top s : Section} (htop : Depth table top 0)
    (hunlike : (id == idOf top) = false) (hs : Under table top s) : (idOf s == id) = false := by
  cases hlike : idOf s == id with
  | false => rfl
  | true =>
      obtain rfl : s = named :=
        hfiled.eq_of_alike (hs.mem htop.mem) hnamed.mem (BEq.trans hlike hid)
      obtain rfl : top = s := Under.unique hfiled htop hnamed hs .self
      rw [hid] at hunlike
      cases hunlike

/-- What is put for a section that is named for the first time was not there, but for the section
itself. -/
theorem AddedAll.fresh (hfiled : Filed table) (h : AddedAll table start done p)
    (hstart : start.sections = leftOut table []) (hnamed : Depth table named 0)
    (hid : (id == idOf named) = true) (hrows : Walk table 0 [(id, named)] rows)
    (hfirst : done.count (idOf named) = 0) :
    rows.keys.filter (!(p.sections.erase id).has ·) = rows.keys := by
  refine List.filter_eq_self.mpr fun key hkey => ?_
  obtain ⟨row, hrow, rfl⟩ := List.mem_map.mp hkey
  obtain ⟨top, htop, s, d, hunder, hs, hkey, -⟩ :=
    hrows.row (by simpa [Tops] using ⟨hnamed, hid⟩) row hrow
  obtain rfl : top = (id, named) := by simpa using htop
  rw [Table.has_erase]
  cases hhas : p.sections.has row.1 with
  | false => rfl
  | true =>
      cases hnested : isNested s with
      | false =>
          obtain rfl : named = s :=
            Under.unique hfiled hnamed (.top hs.mem hnested) hunder .self
          rw [BEq.trans hid (BEq.symm hkey)]
          rfl
      | true =>
          -- It was brought by the one at the top that it lies under, which was not named yet.
          obtain ⟨earlier, hearlier, other, hother, hlike, hunder'⟩ :=
            h.nested hfiled hstart hhas hs.mem hnested hkey
          obtain rfl : named = other := Under.unique hfiled hnamed hother hunder hunder'
          have hcount : 0 < done.count (idOf named) :=
            List.countP_pos_iff.mpr ⟨earlier, hearlier, hlike⟩
          omega

/-- An identifier that no section has changes nothing. -/
theorem Arranged.pass (hfiled : Filed table) (h : Arranged table done p.sections.keys)
    (hprogress : Progress table start done p) (hnone : p.sections.has id = false) :
    Arranged table (done ++ [id]) p.sections.keys := by
  -- A section at the top is always there, so it is none of them that was named.
  have hsame {top : Section} (htop : Depth table top 0) :
      (done ++ [id]).count (idOf top) = done.count (idOf top) := by
    rw [count_concat]
    cases hlike : id == idOf top with
    | false => rfl
    | true => simp [hprogress.kept id (has_leftOut_nil hfiled htop hlike)] at hnone
  constructor
  · intro top upper s htop hupper hs hcount honce
    rw [hsame htop] at hcount honce
    exact h.before htop hupper hs hcount honce
  · intro top s htop hs hcount
    rw [hsame htop] at hcount
    exact h.after htop hs hcount

/-- A section that was named is moved to the end, followed by what was not there before. -/
theorem Arranged.put (hfiled : Filed table) (h : Arranged table done p.sections.keys)
    (hdone : AddedAll table start done p) (hstart : start.sections = leftOut table [])
    (hnamed : Depth table named 0) (hid : (id == idOf named) = true)
    (hrows : Walk table 0 [(id, named)] rows) :
    Arranged table (done ++ [id]) ((p.sections.erase id).setAll rows).keys := by
  rw [keys_named hfiled hnamed hid hrows]
  have hbelow {upper s : Section} (hs : s ∈ childrenOf table upper) : (idOf s == id) = false :=
    idOf_unlike_of_nested hfiled hnamed hid (mem_childrenOf.mp hs).1 (mem_childrenOf.mp hs).2.1
  constructor
  · intro top upper s htop hupper hs hcount honce
    rw [count_concat] at hcount honce
    cases hlike : id == idOf top with
    | false =>
        rw [hlike] at hcount honce
        have hunlike := idOf_unlike_of_under hfiled hnamed hid htop hlike hupper
        exact (h.before htop hupper hs hcount honce).moved hunlike (hbelow hs) _
    | true =>
        obtain rfl : top = named :=
          hfiled.eq_of_alike htop.mem hnamed.mem (BEq.trans (BEq.symm hlike) hid)
        rw [hlike, if_pos rfl] at honce
        rcases Nat.eq_zero_or_pos (done.count (idOf top)) with hfirst | hagain
        · rw [hdone.fresh hfiled hstart hnamed hid hrows hfirst]
          exact (hrows.precedes (by simpa using hid) (id, top) (by simp) hupper hs).mono
            (List.sublist_append_right _ _)
        · have hnested : isNested upper = true := honce.resolve_right (by omega)
          have hunlike := idOf_unlike_of_nested hfiled hnamed hid (hupper.mem htop.mem) hnested
          exact (h.before htop hupper hs hagain (Or.inl hnested)).moved hunlike (hbelow hs) _
  · intro top s htop hs hcount
    rw [count_concat] at hcount
    cases hlike : id == idOf top with
    | false =>
        rw [hlike] at hcount
        have hunlike := idOf_unlike_of_under hfiled hnamed hid htop hlike .self
        exact (h.after htop hs hcount).moved (hbelow hs) hunlike _
    | true =>
        rw [hlike, if_pos rfl] at hcount
        have hbefore : 0 < done.count (idOf top) := by omega
        obtain ⟨earlier, hearlier, hsame⟩ := List.countP_pos_iff.mp hbefore
        -- What lies below it is there since it was named before, and it goes to the end.
        obtain ⟨row, hrow, hkey⟩ := Table.has_iff.mp
          ((hdone.progress hfiled hstart).listed earlier hearlier top htop hsame s
            (.step .self hs))
        obtain ⟨last, hlast, hlastKey⟩ := Table.has_iff.mp
          (hrows.has (by simpa using hid) (id, named) (by simp) named .self)
        have hlastId : (last.1 == id) = true := BEq.trans hlastKey (BEq.symm hid)
        refine precedes_append (k := row.1) (l := last.1) ?_ hkey ?_ (BEq.trans hlastId hlike)
        · refine List.mem_filter.mpr ⟨List.mem_map_of_mem hrow, ?_⟩
          rw [BEq.congr_left hkey, hbelow hs]
          rfl
        · refine List.mem_filter.mpr ⟨List.mem_map_of_mem hlast, ?_⟩
          rw [Table.has_erase, BEq.symm hlastId]
          simp

end Step

theorem AddedAll.arranged (hfiled : Filed table) {start p : Page} {done : List Value}
    (h : AddedAll table start done p) (hstart : start.sections = leftOut table []) :
    Arranged table done p.sections.keys := by
  induction h with
  | nil => exact arranged_start _
  | step hdone hadded ih =>
      cases hadded with
      | absent hnone => exact ih.pass hfiled (hdone.progress hfiled hstart) hnone
      | present hnamed hid hrows => exact ih.put hfiled hdone hstart hnamed hid hrows

/-! ### How often the order names a section -/

theorem count_congr {a b : Value} (h : (a == b) = true) (ids : List Value) :
    ids.count a = ids.count b := by
  rw [List.count, List.count]
  exact List.countP_congr fun key _ => by rw [BEq.congr_right h]

/-- What is put into an order is put in once, so what it names more than once was given so. -/
theorem Filled.named_twice_iff {isSection : Value → Bool} {explicit done order : List Value}
    (h : Filled isSection explicit done order) (id : Value) :
    1 < order.count id ↔ 1 < explicit.count id := by
  cases hmissing : (missing isSection explicit done).contains id with
  | true =>
      obtain ⟨other, hother, hlike⟩ := List.contains_iff_exists_mem_beq.mp hmissing
      have hnone : explicit.count other = 0 := by
        refine List.countP_eq_zero.mpr fun key hkey => ?_
        rw [unlike_of_not_contains (mem_missing.mp hother).2.2 key hkey]
        decide
      rw [count_congr hlike, count_congr hlike, h.once other hother, hnone]
      omega
  | false =>
      have hsame : explicit.countP (· == id) = order.countP (· == id) := by
        rw [← h.kept, List.countP_filter]
        refine List.countP_congr fun key _ => ?_
        have hkept (hlike : (key == id) = true) :
            (missing isSection explicit done).contains key = false := by
          rw [List.contains_eq_any_beq, List.any_eq_false]
          intro other hother
          rw [BEq.congr_left hlike, BEq.comm, unlike_of_not_contains hmissing other hother]
          decide
        rw [Bool.and_eq_true]
        exact ⟨And.left, fun hlike => ⟨hlike, by simp [hkept hlike]⟩⟩
      show 1 < order.countP (· == id) ↔ 1 < explicit.countP (· == id)
      rw [hsame]

/-- The order of a page names a section more than once only if it was given so. -/
theorem completeOrder_named_twice_iff {explicit order : Value} {isSection : Value → Bool}
    (h : completeOrder explicit isSection = .ok order) (id : Value) :
    1 < (order.items?.getD []).count id ↔ 1 < (explicit.items?.getD []).count id := by
  unfold completeOrder at h
  split at h
  · split at h
    · obtain rfl := Except.ok.inj h
      exact (completeList_completed _ _).filled.named_twice_iff id
    · split at h
      · obtain rfl := Except.ok.inj h
        rfl
      · cases h
    · cases h
  · obtain rfl := Except.ok.inj h
    have hempty : explicit.items?.getD [] = [] := by
      cases explicit <;> simp_all [Value.isGiven, Value.items?]
    rw [hempty]
    exact (completeList_completed _ _).filled.named_twice_iff id

/-- The sections that a page gets by itself say nothing about its order. -/
theorem beforeOutline_order (c : Context) : (beforeOutline c).order = c.page.order := by
  have hconfined : Confined (fun c : Context => c.page.order) (fun _ => True) addKindSections := by
    intro shown
    refine addKindSections_of_plain (fun _ _ => trivial) (fun _ _ _ _ => trivial) ?_
    intro e id title hown hshared
    refine merge_of_takeIn trivial (fun _ => trivial) ?_
    have hsect : (e.placed .nothing).isOf .sect = true := by
      rw [isOf_placed _ e (by decide)]
      exact (newSection_isOf id title hown).1
    rw [takeIn_of_speaks ((shared_placed _ e).trans hshared) (by rw [speaks, hsect, Bool.true_or]),
      if_pos hsect]
    have hsection : Confined Page.order (fun _ => True) (addSection (e.placed .nothing)) := by
      unfold addSection
      refine Confined.get.bind fun p => ?_
      refine Confined.bind (Confined.ofExcept fun _ _ => trivial) fun _ => ?_
      exact Confined.modify fun _ => rfl
    exact Keeps.on (fun _ hc => hc) (fun _ _ _ hp => hp) (hsection shown)
  exact hconfined.view_eq c

/-! ### Closed pages -/

/-- In an outline, a section comes after the one that it lies below, unless that one is at the top
and was named more than once.  Then it comes before it. -/
theorem Outlined.upper_first {p q : Page} (hfiled : Filed p.sections) (h : Outlined p q)
    (harranged : Arranged p.sections (q.order.items?.getD []) q.sections.keys)
    {row : Value × Section} (hrow : row ∈ q.sections) (hnested : isNested row.2 = true) :
    q.sections.has (parentOf row.2) = true
    ∧ ∀ upper ∈ q.sections, (upper.1 == parentOf row.2) = true →
      (isNested upper.2 = true ∨ (q.order.items?.getD []).count upper.1 ≤ 1 →
        [upper, row].Sublist q.sections)
      ∧ (isNested upper.2 = false ∧ 1 < (q.order.items?.getD []).count upper.1 →
        [row, upper].Sublist q.sections) := by
  obtain ⟨id, hid, top, s, d, htop, hlike, hunder, -, hkey, hheld⟩ := h.brought row hrow
  rw [hheld, isNested_atLevel] at hnested
  rw [hheld, parentOf_atLevel]
  cases hunder with
  | self =>
      rw [htop.not_nested] at hnested
      cases hnested
  | @step above _ habove hs =>
      obtain ⟨-, -, hparent⟩ := mem_childrenOf.mp hs
      have hcount : 0 < (q.order.items?.getD []).count (idOf top) :=
        List.countP_pos_iff.mpr ⟨id, hid, hlike⟩
      constructor
      · have hrooted : Rooted p.sections above := by
          rcases habove.depth htop with rfl | ⟨e, -, hdepth⟩
          · exact ⟨0, htop⟩
          · exact ⟨e, hdepth⟩
        obtain ⟨held, hmem, rfl⟩ := List.mem_map.mp (habove.mem htop.mem)
        rw [Table.has_congr _ (BEq.trans hparent (BEq.symm (hfiled.own held hmem)))]
        exact (h.kept_iff held hmem).mpr hrooted
      · intro upper hupper hsame
        obtain ⟨-, -, -, t, e, -, -, -, ht, htkey, htheld⟩ := h.brought upper hupper
        obtain rfl : t = above := hfiled.eq_of_alike ht.mem (habove.mem htop.mem)
          (BEq.trans (BEq.symm htkey) (BEq.trans hsame hparent))
        rw [htheld, isNested_atLevel, count_congr htkey]
        have htopOf (hnot : isNested t = false) : t = top :=
          Under.unique hfiled (.top ht.mem hnot) htop .self habove
        constructor
        · intro honce
          refine (harranged.before htop habove hs hcount ?_).rows h.distinct hupper hrow htkey hkey
          cases hcase : isNested t with
          | true => exact Or.inl rfl
          | false =>
              rw [hcase] at honce
              rw [← htopOf hcase]
              exact Or.inr (honce.resolve_left (by decide))
        · rintro ⟨hnot, htwice⟩
          obtain rfl := htopOf hnot
          exact (harranged.after htop hs htwice).rows h.distinct hrow hupper hkey htkey

/-- Bringing the sections of a page into an outline arranges them along its order. -/
theorem outline_arranged {p : Page} (h : Open p) :
    Ensures outline p (fun _ q => Arranged p.sections (q.order.items?.getD []) q.sections.keys)
      NotTooDeep := by
  refine (outline_runs h).mono ?_
  rintro _ q ⟨order, start, hstart, hq⟩
  have hsections : start.sections = leftOut p.sections [] := by rw [hstart.unchanged]
  have horder : q.order = order := by
    rw [(hq.progress h.filed hsections).unchanged, hstart.unchanged]
  rw [horder]
  exact hq.arranged h.filed hsections

theorem close_arranged {c : Context} (h : Built c) :
    Ensures close c (fun _ d => Arranged (beforeOutline c).sections
      (d.page.order.items?.getD []) d.page.sections.keys) NotTooDeep := by
  rw [close_eq]
  refine Ensures.bind (Ensures.of_keeps addKindSections_keeps h.isOpen) ?_
  rintro _ d ⟨rfl, hopen⟩
  exact Ensures.on (outline_arranged hopen)

/--
**A section of a closed page comes after the one that it lies below, unless that one is at the top
and the order names it more than once.**

Then it comes before it.  What counts is the order that was given, before it is completed.
-/
theorem close_upper_first_iff {c : Context} (h : Built c) (hclose : (close c).result = .ok ()) :
    ∀ row ∈ (close c).state.page.sections, isNested row.2 = true →
      (close c).state.page.sections.has (parentOf row.2) = true
      ∧ ∀ upper ∈ (close c).state.page.sections, (upper.1 == parentOf row.2) = true →
        ([upper, row].Sublist (close c).state.page.sections
          ↔ isNested upper.2 = true ∨ (c.page.order.items?.getD []).count upper.1 ≤ 1)
        ∧ ([row, upper].Sublist (close c).state.page.sections
          ↔ isNested upper.2 = false ∧ 1 < (c.page.order.items?.getD []).count upper.1) := by
  have hfiled : Filed (beforeOutline c).sections := (addKindSections_keeps c h.isOpen).1.filed
  have houtlined : Outlined (beforeOutline c) (close c).state.page :=
    (close_ensures h).of_ok (by rw [← hclose])
  have harranged := (close_arranged h).of_ok (by rw [← hclose])
  have hnodup : (close c).state.page.sections.Nodup := by
    refine List.Nodup.of_map Prod.fst (houtlined.distinct.imp ?_)
    rintro a b hunlike rfl
    simp at hunlike
  intro row hrow hnested
  obtain ⟨hhas, hall⟩ := houtlined.upper_first hfiled harranged hrow hnested
  refine ⟨hhas, fun upper hupper hsame => ?_⟩
  have hnamed := completeOrder_named_twice_iff houtlined.ordered upper.1
  rw [beforeOutline_order] at hnamed
  obtain ⟨hfirst, hlast⟩ := hall upper hupper hsame
  rw [← hnamed, ← Nat.not_lt, ← hnamed]
  rw [← Nat.not_lt] at hfirst
  rcases Classical.em (isNested upper.2 = false
      ∧ 1 < ((close c).state.page.order.items?.getD []).count upper.1) with htwice | honce
  · have hsublist := hlast htwice
    have hnot := not_sublist_of_swapped hnodup hsublist
    refine ⟨⟨fun hswapped => absurd hswapped hnot, ?_⟩, fun _ => htwice, fun _ => hsublist⟩
    simp [htwice.1, htwice.2]
  · have hor : isNested upper.2 = true
        ∨ ¬1 < ((close c).state.page.order.items?.getD []).count upper.1 := by
      cases hcase : isNested upper.2 with
      | true => exact Or.inl rfl
      | false => exact Or.inr fun htwice => honce ⟨hcase, htwice⟩
    have hsublist := hfirst hor
    have hnot := not_sublist_of_swapped hnodup hsublist
    exact ⟨⟨fun _ => hor, fun _ => hsublist⟩, fun hswapped => absurd hswapped hnot,
      fun htwice => absurd htwice honce⟩

/-- A section that is ordered twice comes after what lies right below it, and that comes before what
lies below it in turn. -/
theorem close_upper_first_iff_twice :
    let c := ofFileIn (.text "demo#") "demo" ["\"\" @section First\n",
      "\" @order first first\n", "\n",
      "\"\" @section Second\n", "\" @parentsection first\n", "\n",
      "\"\" @section Third\n", "\" @parentsection second\n", "\n"]
    (close c).result = .ok ()
    ∧ (close c).state.page.sections.keys = [.text "second", .text "third", .text "first"]
    ∧ ∀ row ∈ (close c).state.page.sections, isNested row.2 = true →
      (close c).state.page.sections.has (parentOf row.2) = true
      ∧ ∀ upper ∈ (close c).state.page.sections, (upper.1 == parentOf row.2) = true →
        ([upper, row].Sublist (close c).state.page.sections
          ↔ isNested upper.2 = true
            ∨ ([.text "first", .text "first"] : List Value).count upper.1 ≤ 1)
        ∧ ([row, upper].Sublist (close c).state.page.sections
          ↔ isNested upper.2 = false
            ∧ 1 < ([.text "first", .text "first"] : List Value).count upper.1) := by
  intro c
  have hbuilt : Built c := (builtFrom_ofFileIn _ _ _).built fun _ he => he.wellFormed.unlevelled
  obtain ⟨hclose, hkeys, horder⟩ : (close c).result = .ok ()
      ∧ (close c).state.page.sections.keys = [.text "second", .text "third", .text "first"]
      ∧ c.page.order = .list [.text "first", .text "first"] := by decide +kernel
  refine ⟨hclose, hkeys, ?_⟩
  clear_value c
  have hpairs := close_upper_first_iff hbuilt hclose
  rw [horder] at hpairs
  exact hpairs

end Page

end PluginHelp
