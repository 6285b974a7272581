/-
The order of values.

Not all values can be compared, and of two values that can be compared with a third one nothing
follows for each other in general.  Still the order is a good one where there is any: it treats
values that are alike alike, it never puts two values before each other, and what is not after
something that is not after a third value is not after that one either.  This is what sorting relies
on.
-/
import Mathlib.Data.String.Basic
import PluginHelp.Page.Basic
import PluginHelp.Proofs.Sorting

namespace PluginHelp.Value

/-! ### Comparing two values -/

/-- What two values must be for a comparison to have an answer, and what it is. -/
inductive Compared : Value → Value → Bool → Prop
  | texts (a b : String) : Compared (text a) (text b) (decide (a < b))
  | numbers {a b : Value} {m n : Int} (ha : a.number? = some m) (hb : b.number? = some n) :
    Compared a b (decide (m < n))
  | lists {as bs : List Value} {answer : Bool} (h : itemsBefore? as bs = some answer) :
    Compared (list as) (list bs) answer

theorem before?_eq_some_iff {a b : Value} {answer : Bool} :
    a.before? b = some answer ↔ Compared a b answer := by
  constructor
  · intro h
    unfold before? at h
    split at h
    · rw [← Option.some.inj h]
      exact .texts _ _
    · exact .lists h
    · obtain ⟨n, hn, rfl⟩ := Option.map_eq_some_iff.mp h
      exact .numbers rfl hn
    · obtain ⟨n, hn, rfl⟩ := Option.map_eq_some_iff.mp h
      exact .numbers rfl hn
    · simp at h
  · intro h
    cases h with
    | texts a b => rw [before?]
    | lists h => rw [before?, h]
    | @numbers _ _ m n ha hb =>
        cases a with
        | number k =>
            obtain rfl : k = m := by simpa [number?] using ha
            rw [before?, hb]
            rfl
        | flag yes =>
            obtain rfl : (if yes then 1 else 0) = m := by simpa [number?] using ha
            rw [before?, hb]
            rfl
        | _ => simp [number?] at ha

/-- A value cannot be compared with nothing, in whichever order. -/
theorem nothing_before? (b : Value) : nothing.before? b = none := by
  cases b <;> rfl

theorem before?_nothing (a : Value) : a.before? nothing = none := by
  cases a <;> rfl

/-- What holds of a value as soon as it holds of the items of a list holds of all values. -/
theorem induction_items {motive : Value → Prop}
    (step : ∀ a, (∀ items, a = list items → ∀ item ∈ items, motive item) → motive a) (a : Value) :
    motive a := by
  refine step a ?_
  intro items ha item hitem
  exact induction_items step item
termination_by sizeOf a
decreasing_by
  have := List.sizeOf_lt_of_mem hitem
  subst ha
  simp only [list.sizeOf_spec]
  omega

/-! ### Likeness -/

theorem number?_counted (a : Value) : a.counted.number? = a.number? := by
  cases a <;> rfl

theorem counted_of_number? {a : Value} {n : Int} (h : a.number? = some n) :
    a.counted = number n := by
  cases a <;> simp_all [number?, counted]

theorem eq_text_of_counted {a : Value} {s : String} (h : a.counted = text s) : a = text s := by
  cases a <;> simp_all [counted]

theorem eq_list_of_counted {a : Value} {items : List Value} (h : a.counted = list items) :
    ∃ held, a = list held ∧ countedItems held = items := by
  cases a <;> simp_all [counted]

/-- Lists of values of which each is alike are compared alike. -/
theorem itemsBefore?_congr {as : List Value}
    (hbefore : ∀ a ∈ as, ∀ a' b b' : Value, a.counted = a'.counted → b.counted = b'.counted →
      a.before? b = a'.before? b') :
    ∀ {as' bs bs' : List Value}, countedItems as = countedItems as' →
      countedItems bs = countedItems bs' → itemsBefore? as bs = itemsBefore? as' bs' := by
  induction as with
  | nil =>
      intro as' bs bs' has hbs
      cases as' with
      | cons a' as' => simp [countedItems] at has
      | nil =>
          cases bs <;> cases bs' <;> simp_all [countedItems, itemsBefore?]
  | cons a as ih =>
      intro as' bs bs' has hbs
      cases as' with
      | nil => simp [countedItems] at has
      | cons a' as' =>
          obtain ⟨ha, has⟩ : a.counted = a'.counted ∧ countedItems as = countedItems as' := by
            simpa [countedItems] using has
          cases bs with
          | nil => cases bs' <;> simp_all [countedItems, itemsBefore?]
          | cons b bs =>
              cases bs' with
              | nil => simp [countedItems] at hbs
              | cons b' bs' =>
                  obtain ⟨hb, hbs⟩ :
                      b.counted = b'.counted ∧ countedItems bs = countedItems bs' := by
                    simpa [countedItems] using hbs
                  have hsame : (a == b) = (a' == b') := by
                    rw [Bool.eq_iff_iff, beq_iff, beq_iff, ha, hb]
                  rw [itemsBefore?, itemsBefore?, hsame,
                    ih (fun x hx => hbefore x (List.mem_cons_of_mem _ hx)) has hbs,
                    hbefore a List.mem_cons_self a' b b' ha hb]

/-- A comparison has the same answer for values that are alike, if it has for the items of lists. -/
theorem Compared.congr {a a' b b' : Value} {answer : Bool} (ha : a.counted = a'.counted)
    (hb : b.counted = b'.counted)
    (hitems : ∀ as as' bs bs', a = list as → a' = list as' → b = list bs → b' = list bs' →
      itemsBefore? as bs = itemsBefore? as' bs')
    (h : Compared a b answer) : Compared a' b' answer := by
  cases h with
  | texts s t =>
      rw [eq_text_of_counted ha.symm, eq_text_of_counted hb.symm]
      exact .texts s t
  | numbers hm hn =>
      refine .numbers ?_ ?_
      · rw [← number?_counted, ← ha, number?_counted, hm]
      · rw [← number?_counted, ← hb, number?_counted, hn]
  | @lists as bs _ h =>
      obtain ⟨as', rfl, -⟩ := eq_list_of_counted (a := a') ha.symm
      obtain ⟨bs', rfl, -⟩ := eq_list_of_counted (a := b') hb.symm
      rw [hitems as as' bs bs' rfl rfl rfl rfl] at h
      exact .lists h

/-- Values that are alike are compared alike. -/
theorem before?_congr (a : Value) : ∀ a' b b' : Value, a.counted = a'.counted →
    b.counted = b'.counted → a.before? b = a'.before? b' := by
  induction a using induction_items with
  | step a ih =>
      intro a' b b' ha hb
      have hitems : ∀ as as' bs bs', a = list as → a' = list as' → b = list bs → b' = list bs' →
          itemsBefore? as bs = itemsBefore? as' bs' := by
        rintro as as' bs bs' rfl rfl rfl rfl
        exact itemsBefore?_congr (ih as rfl) (list.inj ha) (list.inj hb)
      ext answer
      rw [before?_eq_some_iff, before?_eq_some_iff]
      constructor
      · exact Compared.congr ha hb hitems
      · refine Compared.congr ha.symm hb.symm ?_
        intro as' as bs' bs ha' ha hb' hb
        exact (hitems as as' bs bs' ha ha' hb hb').symm

/-! ### Order -/

theorem itemsBefore?_asymm {as : List Value}
    (hbefore : ∀ a ∈ as, ∀ b : Value, a.before? b = some true → b.before? a = some false) :
    ∀ {bs : List Value}, itemsBefore? as bs = some true → itemsBefore? bs as = some false := by
  induction as with
  | nil =>
      intro bs h
      rw [itemsBefore?]
  | cons a as ih =>
      intro bs h
      cases bs with
      | nil => simp [itemsBefore?] at h
      | cons b bs =>
          rw [itemsBefore?] at h ⊢
          rw [BEq.comm]
          split at h
          · rw [if_pos ‹_›]
            exact ih (fun x hx => hbefore x (List.mem_cons_of_mem _ hx)) h
          · rw [if_neg ‹_›]
            exact hbefore a List.mem_cons_self b h

/-- No two values are before each other. -/
theorem before?_asymm (a : Value) :
    ∀ b : Value, a.before? b = some true → b.before? a = some false := by
  induction a using induction_items with
  | step a ih =>
      intro b h
      rw [before?_eq_some_iff] at h ⊢
      generalize htrue : true = answer at h
      cases h with
      | texts s t =>
          have hst : s < t := by simpa using htrue.symm
          have : false = decide (t < s) := by simp [hst.asymm]
          rw [this]
          exact .texts t s
      | @numbers _ _ m n hm hn =>
          have hmn : m < n := by simpa using htrue.symm
          have : false = decide (n < m) := by simp [hmn.asymm]
          rw [this]
          exact .numbers hn hm
      | @lists as bs _ h =>
          rw [← htrue] at h
          exact .lists (itemsBefore?_asymm (ih as rfl) h)

/-- A value is not before one that is like it. -/
theorem unlike_of_before? {a b : Value} (h : a.before? b = some true) : ¬(a == b) = true := by
  intro hlike
  have hself : a.before? a = some true := by
    rw [before?_congr a a a b rfl (beq_iff.mp hlike), h]
  simp [before?_asymm a a hself] at hself

theorem itemsBefore?_connex {as : List Value}
    (hbefore : ∀ a ∈ as, ∀ b : Value, a.before? b = some false →
      a.counted = b.counted ∨ b.before? a = some true) :
    ∀ {bs : List Value}, itemsBefore? as bs = some false →
      countedItems as = countedItems bs ∨ itemsBefore? bs as = some true := by
  induction as with
  | nil =>
      intro bs h
      cases bs with
      | nil => exact Or.inl rfl
      | cons b bs => simp [itemsBefore?] at h
  | cons a as ih =>
      intro bs h
      cases bs with
      | nil => exact Or.inr (by rw [itemsBefore?])
      | cons b bs =>
          rw [itemsBefore?] at h ⊢
          rw [BEq.comm]
          split at h
          · rename_i hab
            rw [if_pos hab, countedItems, countedItems, beq_iff.mp hab, List.cons.injEq]
            simpa using ih (fun x hx => hbefore x (List.mem_cons_of_mem _ hx)) h
          · rename_i hab
            rw [if_neg hab]
            rcases hbefore a List.mem_cons_self b h with halike | hbefore
            · exact absurd (beq_iff.mpr halike) hab
            · exact Or.inr hbefore

/-- Of two values that can be compared and are not alike, one is before the other. -/
theorem before?_connex (a : Value) :
    ∀ b : Value, a.before? b = some false → a.counted = b.counted ∨ b.before? a = some true := by
  induction a using induction_items with
  | step a ih =>
      intro b h
      rw [before?_eq_some_iff] at h ⊢
      generalize hfalse : false = answer at h
      cases h with
      | texts s t =>
          have hst : ¬s < t := by simpa using hfalse.symm
          rcases eq_or_lt_of_le (not_lt.mp hst) with rfl | hts
          · exact Or.inl rfl
          · exact Or.inr (by simpa [hts] using Compared.texts t s)
      | @numbers _ _ m n hm hn =>
          have hmn : ¬m < n := by simpa using hfalse.symm
          rcases eq_or_lt_of_le (not_lt.mp hmn) with rfl | hnm
          · exact Or.inl ((counted_of_number? hm).trans (counted_of_number? hn).symm)
          · exact Or.inr (by simpa [hnm] using Compared.numbers hn hm)
      | @lists as bs _ h =>
          rw [← hfalse] at h
          rcases itemsBefore?_connex (ih as rfl) h with halike | hbefore
          · exact Or.inl (by rw [counted, counted, halike])
          · exact Or.inr (.lists hbefore)

theorem itemsBefore?_trans {as : List Value}
    (hbefore : ∀ a ∈ as, ∀ b c : Value, a.before? b = some true → b.before? c = some true →
      a.before? c = some true) :
    ∀ {bs cs : List Value}, itemsBefore? as bs = some true → itemsBefore? bs cs = some true →
      itemsBefore? as cs = some true := by
  induction as with
  | nil =>
      intro bs cs _ h
      cases cs with
      | nil => cases bs <;> simp [itemsBefore?] at h
      | cons c cs => rw [itemsBefore?]
  | cons a as ih =>
      intro bs cs hab hbc
      cases bs with
      | nil => simp [itemsBefore?] at hab
      | cons b bs =>
          cases cs with
          | nil => simp [itemsBefore?] at hbc
          | cons c cs =>
              rw [itemsBefore?] at hab hbc ⊢
              split at hab
              · rename_i hlike
                rw [BEq.congr_left hlike]
                split at hbc
                · rw [if_pos ‹_›]
                  exact ih (fun x hx => hbefore x (List.mem_cons_of_mem _ hx)) hab hbc
                · rw [if_neg ‹_›, before?_congr a b c c (beq_iff.mp hlike) rfl]
                  exact hbc
              · rename_i hunlike
                split at hbc
                · rename_i hlike
                  rw [← BEq.congr_right hlike, if_neg hunlike,
                    ← before?_congr a a b c rfl (beq_iff.mp hlike)]
                  exact hab
                · have hac := hbefore a List.mem_cons_self b c hab hbc
                  rw [if_neg (unlike_of_before? hac)]
                  exact hac

/-- What is before a value that is before a third one is before that one, too. -/
theorem before?_trans (a : Value) :
    ∀ b c : Value, a.before? b = some true → b.before? c = some true →
      a.before? c = some true := by
  induction a using induction_items with
  | step a ih =>
      intro b c hab hbc
      rw [before?_eq_some_iff] at hab hbc
      generalize hfirst : true = first at hab
      generalize hsecond : true = second at hbc
      rw [← hfirst, before?_eq_some_iff]
      cases hab with
      | texts s t =>
          cases hbc with
          | numbers hn _ => simp [number?] at hn
          | texts _ u =>
              have hst : s < t := by simpa using hfirst.symm
              have htu : t < u := by simpa using hsecond.symm
              simpa [hst.trans htu] using Compared.texts s u
      | @numbers _ _ l m hl hm =>
          cases hbc with
          | texts => simp [number?] at hm
          | lists => simp [number?] at hm
          | @numbers _ _ m' n hm' hn =>
              obtain rfl : m = m' := Option.some.inj (hm.symm.trans hm')
              have hlm : l < m := by simpa using hfirst.symm
              have hmn : m < n := by simpa using hsecond.symm
              simpa [hlm.trans hmn] using Compared.numbers hl hn
      | @lists as bs _ h =>
          cases hbc with
          | numbers hn _ => simp [number?] at hn
          | lists k =>
              rw [← hfirst] at h
              rw [← hsecond] at k
              exact .lists (itemsBefore?_trans (ih as rfl) h k)

/-- A value that is not after one that is not after a third value is not after that one. -/
theorem before?_false_trans {a b c : Value} (hab : b.before? a = some false)
    (hbc : c.before? b = some false) : c.before? a = some false := by
  rcases before?_connex b a hab with hlike | hab'
  · rw [before?_congr c c a b rfl hlike.symm]
    exact hbc
  · rcases before?_connex c b hbc with hlike | hbc'
    · rw [before?_congr c b a a hlike rfl]
      exact hab
    · exact before?_asymm a c (before?_trans a b c hab' hbc')

end PluginHelp.Value

/-! ### Sorting by a value -/

namespace PluginHelp.Entry

open Sorting

theorem valueBefore_eq_ok_iff {a b : Value} {answer : Bool} :
    valueBefore a b = .ok answer ↔ a.before? b = some answer := by
  unfold valueBefore
  cases a.before? b <;> simp

theorem valueBefore_covers {allowed : Cause → Prop} (h : allowed .wrongValue) (a b : Value) :
    Covers allowed (valueBefore a b) := by
  unfold valueBefore
  split
  · exact Covers.ok _
  · exact Covers.error h

/-- Sorting may rely on the order of values. -/
theorem valueBefore_consistent {α : Type} (key : α → Value) :
    Consistent fun a b => valueBefore (key a) (key b) where
  asymm h := valueBefore_eq_ok_iff.mpr (Value.before?_asymm _ _ (valueBefore_eq_ok_iff.mp h))
  trans h k := valueBefore_eq_ok_iff.mpr
    (Value.before?_false_trans (valueBefore_eq_ok_iff.mp h) (valueBefore_eq_ok_iff.mp k))

theorem isBefore_eq_ok_iff {e other : Entry} {before : Bool} :
    e.isBefore other = .ok before ↔ ∃ name held, e.fullName = .ok name ∧ other.fullName = .ok held
      ∧ valueBefore name held = .ok before := by
  rw [isBefore, Except.bind_eq_ok_iff]
  constructor
  · rintro ⟨name, hname, h⟩
    obtain ⟨held, hheld, hbefore⟩ := Except.bind_eq_ok_iff.mp h
    exact ⟨name, held, hname, hheld, hbefore⟩
  · rintro ⟨name, held, hname, hheld, hbefore⟩
    exact ⟨name, hname, Except.bind_eq_ok_iff.mpr ⟨held, hheld, hbefore⟩⟩

/-- Sorting may rely on the order of full names. -/
theorem isBefore_consistent : Consistent isBefore where
  asymm h := by
    obtain ⟨name, held, hname, hheld, hbefore⟩ := isBefore_eq_ok_iff.mp h
    exact isBefore_eq_ok_iff.mpr
      ⟨held, name, hheld, hname, (valueBefore_consistent id).asymm hbefore⟩
  trans h k := by
    obtain ⟨second, first, hsecond, hfirst, hbefore⟩ := isBefore_eq_ok_iff.mp h
    obtain ⟨third, same, hthird, hsame, hnext⟩ := isBefore_eq_ok_iff.mp k
    obtain rfl : second = same := Except.ok.inj (hsecond.symm.trans hsame)
    exact isBefore_eq_ok_iff.mpr
      ⟨third, first, hthird, hfirst, (valueBefore_consistent id).trans hbefore hnext⟩

end PluginHelp.Entry

namespace PluginHelp.Page

open Sorting

variable {α : Type}

/-- The key of an item is not after that of another one. -/
def KeyNotAfter (key : α → Except Cause Value) (a b : α) : Prop :=
  ∃ x y, key a = .ok x ∧ key b = .ok y ∧ y.before? x = some false

theorem mapM_keyed {key : α → Except Cause Value} {items : List α} {keyed : List (Value × α)}
    (h : items.mapM (fun a => do return (← key a, a)) = .ok keyed) :
    keyed.map (·.2) = items ∧ ∀ pair ∈ keyed, key pair.2 = .ok pair.1 := by
  induction items generalizing keyed with
  | nil =>
      obtain rfl : [] = keyed := Except.ok.inj h
      simp
  | cons a rest ih =>
      rw [List.mapM_cons, Except.bind_eq_ok_iff] at h
      obtain ⟨pair, hpair, h⟩ := h
      obtain ⟨x, hx, hpair⟩ := Except.bind_eq_ok_iff.mp hpair
      obtain rfl : (x, a) = pair := Except.ok.inj hpair
      obtain ⟨others, hothers, h⟩ := Except.bind_eq_ok_iff.mp h
      obtain rfl : (x, a) :: others = keyed := Except.ok.inj h
      obtain ⟨hitems, hkeys⟩ := ih hothers
      refine ⟨by rw [List.map_cons, hitems], ?_⟩
      rw [List.forall_mem_cons]
      exact ⟨hx, hkeys⟩

/-- Items that can be sorted by a value come out sorted by it. -/
theorem sortByValue_sorted {key : α → Except Cause Value} {items sorted : List α}
    (h : sortByValue key items = .ok sorted) : Sorted (KeyNotAfter key) items sorted := by
  rw [sortByValue, Except.bind_eq_ok_iff] at h
  obtain ⟨keyed, hkeyed, h⟩ := h
  obtain ⟨ordered, hordered, h⟩ := Except.bind_eq_ok_iff.mp h
  obtain rfl : ordered.map (·.2) = sorted := Except.ok.inj h
  obtain ⟨rfl, hkeys⟩ := mapM_keyed hkeyed
  have hsorted := sort_sorted (Entry.valueBefore_consistent Prod.fst) hordered
  have hnotAfter : ∀ {p q : Value × α}, p ∈ keyed → q ∈ keyed →
      (NotAfter (fun a b => Entry.valueBefore a.1 b.1) p q ↔ KeyNotAfter key p.2 q.2) := by
    intro p q hp hq
    rw [NotAfter, Entry.valueBefore_eq_ok_iff]
    constructor
    · intro h
      exact ⟨p.1, q.1, hkeys p hp, hkeys q hq, h⟩
    · rintro ⟨x, y, hx, hy, h⟩
      obtain rfl : p.1 = x := Except.ok.inj ((hkeys p hp).symm.trans hx)
      obtain rfl : q.1 = y := Except.ok.inj ((hkeys q hq).symm.trans hy)
      exact h
  refine ⟨hsorted.perm.map _, ?_, ?_⟩
  · refine List.pairwise_map.mpr (hsorted.ordered.imp_of_mem ?_)
    intro p q hp hq h
    exact (hnotAfter (hsorted.perm.mem_iff.mp hp) (hsorted.perm.mem_iff.mp hq)).mp h
  · intro a b hsub hnot
    obtain ⟨pairs, hpairs, hab⟩ := List.sublist_map_iff.mp hsub
    obtain ⟨p, q, rfl, rfl, rfl⟩ : ∃ p q, pairs = [p, q] ∧ p.2 = a ∧ q.2 = b := by
      obtain ⟨p, tail, rfl, hp, htail⟩ := List.map_eq_cons_iff.mp hab.symm
      obtain ⟨q, nothing, rfl, hq, hnothing⟩ := List.map_eq_cons_iff.mp htail
      obtain rfl := List.map_eq_nil_iff.mp hnothing
      exact ⟨p, q, rfl, hp, hq⟩
    have hp : p ∈ keyed := hpairs.subset (by simp)
    have hq : q ∈ keyed := hpairs.subset (by simp)
    exact (hsorted.stable p q hpairs ((hnotAfter hp hq).mpr hnot)).map _

/-- Sorting by a value fails because a key is missing or because two of them cannot be compared. -/
theorem sortByValue_covers_of_keys {allowed : Cause → Prop} {key : α → Except Cause Value}
    {items : List α} (hkey : ∀ a ∈ items, Covers allowed (key a))
    (hvalue : ∀ a ∈ items, ∀ b ∈ items, ∀ x y, key a = .ok x → key b = .ok y →
      Covers allowed (Entry.valueBefore x y)) :
    Covers allowed (sortByValue key items) := by
  refine Covers.bind (Covers.mapM fun a ha => ?_) fun keyed hkeyed => ?_
  · exact (hkey a ha).bind fun _ _ => Covers.ok _
  · obtain ⟨rfl, hkeys⟩ := mapM_keyed hkeyed
    refine (sort_covers fun p hp q hq => ?_).bind fun _ _ => Covers.ok _
    exact hvalue p.2 (List.mem_map_of_mem hp) q.2 (List.mem_map_of_mem hq) p.1 q.1 (hkeys p hp)
      (hkeys q hq)

theorem sortByValue_covers {allowed : Cause → Prop} {key : α → Except Cause Value}
    (hkey : ∀ a, Covers allowed (key a)) (hvalue : allowed .wrongValue) (items : List α) :
    Covers allowed (sortByValue key items) :=
  sortByValue_covers_of_keys (fun a _ => hkey a)
    fun _ _ _ _ x y _ _ => Entry.valueBefore_covers hvalue x y

/-- Two items or more cannot be sorted if one of them has nothing for its key. -/
theorem sortByValue_ne_ok_of_nothing {key : α → Except Cause Value} {items : List α} {a : α}
    (ha : a ∈ items) (hkey : key a = .ok .nothing) (htwo : 2 ≤ items.length) (sorted : List α) :
    sortByValue key items ≠ .ok sorted := by
  intro h
  have hsorted := sortByValue_sorted h
  have hbefore {b : α} (hb : KeyNotAfter key b a) : False := by
    obtain ⟨x, y, -, hy, hxy⟩ := hb
    obtain rfl : Value.nothing = y := Except.ok.inj (hkey.symm.trans hy)
    rw [Value.nothing_before?] at hxy
    cases hxy
  have hafter {b : α} (hb : KeyNotAfter key a b) : False := by
    obtain ⟨x, y, hx, -, hxy⟩ := hb
    obtain rfl : Value.nothing = x := Except.ok.inj (hkey.symm.trans hx)
    rw [Value.before?_nothing] at hxy
    cases hxy
  -- There is another item right beside this one, and the two would have been compared.
  obtain ⟨front, back, rfl⟩ := List.append_of_mem (hsorted.perm.mem_iff.mpr ha)
  have hordered := List.pairwise_append.mp hsorted.ordered
  cases front with
  | cons b rest => exact hbefore (hordered.2.2 b List.mem_cons_self a List.mem_cons_self)
  | nil =>
      cases back with
      | cons b rest =>
          exact hafter ((List.pairwise_cons.mp hordered.2.1).1 b List.mem_cons_self)
      | nil =>
          have hlength := hsorted.perm.length_eq
          simp only [List.nil_append, List.length_singleton] at hlength
          omega

/-- Items whose keys are texts can always be sorted. -/
theorem sortByValue_texts {key : α → Except Cause Value} {items : List α}
    (h : ∀ a ∈ items, ∃ text, key a = .ok (.text text)) (allowed : Cause → Prop) :
    Covers allowed (sortByValue key items) := by
  refine sortByValue_covers_of_keys (fun a ha => ?_) fun a ha b hb x y hx hy => ?_
  · obtain ⟨text, htext⟩ := h a ha
    rw [htext]
    exact Covers.ok _
  · obtain ⟨text, htext⟩ := h a ha
    obtain ⟨other, hother⟩ := h b hb
    obtain rfl : Value.text text = x := Except.ok.inj (htext.symm.trans hx)
    obtain rfl : Value.text other = y := Except.ok.inj (hother.symm.trans hy)
    exact Covers.ok _

/-- Sorting by a value leaves the items of each key as they stood. -/
theorem sortByValue_filter {key : α → Value} {items sorted : List α}
    (h : sortByValue (fun a => .ok (key a)) items = .ok sorted) (k : Value) :
    sorted.filter (key · == k) = items.filter (key · == k) := by
  rw [sortByValue, Except.bind_eq_ok_iff] at h
  obtain ⟨keyed, hkeyed, h⟩ := h
  obtain ⟨ordered, hordered, h⟩ := Except.bind_eq_ok_iff.mp h
  obtain rfl : ordered.map (·.2) = sorted := Except.ok.inj h
  obtain ⟨rfl, hkeys⟩ := mapM_keyed hkeyed
  have hfilter : ordered.filter (fun pair => pair.1 == k) = keyed.filter (fun pair => pair.1 == k) := by
    refine sort_filter (fun a b ha hb hbefore => ?_) hordered
    exact Value.unlike_of_before? (Entry.valueBefore_eq_ok_iff.mp hbefore)
      (BEq.trans ha (BEq.symm hb))
  have hpairs {pairs : List (Value × α)} (hpairs : ∀ pair ∈ pairs, pair ∈ keyed) :
      (pairs.map (·.2)).filter (key · == k) = (pairs.filter (fun pair => pair.1 == k)).map (·.2) := by
    rw [List.filter_map]
    congr 1
    refine List.filter_congr fun pair hpair => ?_
    show (key pair.2 == k) = _
    rw [Except.ok.inj (hkeys pair (hpairs pair hpair))]
  have hperm := (sort_sorted (Entry.valueBefore_consistent Prod.fst) hordered).perm
  rw [hpairs fun pair hpair => hperm.mem_iff.mp hpair, hpairs fun _ hpair => hpair, hfilter]

/-- A list in the order of its keys is known by the items of each key. -/
theorem eq_of_filter_key {key : α → String} {items others : List α}
    (hitems : items.Pairwise fun a b => key a ≤ key b)
    (hothers : others.Pairwise fun a b => key a ≤ key b)
    (h : ∀ k, items.filter (key · == k) = others.filter (key · == k)) : items = others := by
  have hmem {l m : List α} (h : ∀ k, l.filter (key · == k) = m.filter (key · == k)) {a : α}
      (ha : a ∈ l) : a ∈ m := by
    have hkept : a ∈ l.filter (key · == key a) := List.mem_filter.mpr ⟨ha, by simp⟩
    rw [h] at hkept
    exact (List.mem_filter.mp hkept).1
  induction items generalizing others with
  | nil =>
      refine (List.eq_nil_iff_forall_not_mem.mpr fun b hb => ?_).symm
      cases hmem (fun k => (h k).symm) hb
  | cons a items ih =>
      cases others with
      | nil => cases hmem h List.mem_cons_self
      | cons b others =>
          obtain ⟨hfirst, hrest⟩ := List.pairwise_cons.mp hitems
          obtain ⟨hother, hmore⟩ := List.pairwise_cons.mp hothers
          -- Both heads have the least key, so each is the first item of that key.
          have hle : key a ≤ key b := by
            rcases List.mem_cons.mp (hmem (fun k => (h k).symm) (List.mem_cons_self : b ∈ b :: others))
              with rfl | hb
            · exact le_refl _
            · exact hfirst b hb
          have hge : key b ≤ key a := by
            rcases List.mem_cons.mp (hmem h (List.mem_cons_self : a ∈ a :: items)) with rfl | ha
            · exact le_refl _
            · exact hother a ha
          have hsame : key b = key a := le_antisymm hge hle
          have hhead := h (key a)
          rw [List.filter_cons_of_pos (by simp), List.filter_cons_of_pos (by simp [hsame])] at hhead
          obtain ⟨rfl, -⟩ := List.cons.inj hhead
          refine congrArg (a :: ·) (ih hrest hmore fun k => ?_)
          have hk := h k
          rw [List.filter_cons, List.filter_cons] at hk
          split at hk
          · exact (List.cons.inj hk).2
          · exact hk

end PluginHelp.Page
