/-
Controls that are demanded in any order.

Lines of documentation and of code demand three things of an entry: that it be documentation, that it
be of some kind, or that one of its other controls have some value.  The kind passes through three
states on the way, none, one yet to come and a kind for good, and every demand makes it one yet to
come at least.  A control takes only values that are like the one it has, and so does a kind for good.

So a demand can be met exactly if it agrees with what the entry has settled on before, and all of them
can be met exactly if no two of them differ, nor one of them from the entry as it was.  That speaks of
the demands as a collection.  What the entry has in the end can be said in the same way: it is what
was demanded, and what it had where nothing was demanded.  No order is left in either, so none counts.
-/
import PluginHelp.Proofs.Entry.Kept

namespace PluginHelp

/-! ### Demands -/

/-- A value that a line gives to a control: a text, a yes or no, or a list of texts. -/
inductive Setting where
  | text (s : String)
  | flag (yes : Bool)
  | texts (items : List String)

/-- The value that a setting is. -/
def Setting.value : Setting → Value
  | text s => .text s
  | flag yes => .flag yes
  | texts items => .texts items

/-- What a line demands of an entry: that it be documentation, that it be of a kind, or that another
control have a value. -/
inductive Demand where
  | documentation
  | kind (label : String) (hlabel : label ≠ "")
  | control (name : String) (hname : name ≠ "type") (setting : Setting)

namespace Demand

/-- The step that a demand is. -/
def act : Demand → Act Entry Unit
  | documentation => Entry.setKind (.flag true)
  | kind label _ => Entry.setKind (.text label)
  | control name _ setting => Entry.setOwn name setting.value

/-- The setting that a demand has for a control, of which the kind is one. -/
def setting? (name : String) : Demand → Option Setting
  | documentation => none
  | kind label _ => if name = "type" then some (.text label) else none
  | control own _ setting => if name = own then some setting else none

/-- The value that a demand has for a control. -/
def value? (name : String) (demand : Demand) : Option Value :=
  (demand.setting? name).map Setting.value

end Demand

/-! ### Values that are alike -/

namespace Value

theorem counted_texts (items : List String) : (texts items).counted = texts items := by
  have hitems : countedItems (items.map text) = items.map text := by
    induction items with
    | nil => rfl
    | cons item items ih =>
        rw [List.map_cons, countedItems, ih]
        rfl
  rw [texts, counted, hitems]

/-- All of some values are alike. -/
def AllAlike (values : List Value) : Prop :=
  ∀ v ∈ values, ∀ w ∈ values, (v == w) = true

variable {v w : Value} {values : List Value}

/-- Of two values that are alike, the first may be left out. -/
theorem allAlike_cons_cons : AllAlike (v :: w :: values) ↔ (v == w) = true ∧ AllAlike (w :: values) := by
  constructor
  · intro h
    refine ⟨h v (by simp) w (by simp), fun a ha b hb => ?_⟩
    exact h a (List.mem_cons_of_mem v ha) b (List.mem_cons_of_mem v hb)
  · rintro ⟨hvw, h⟩
    have hlike : ∀ a ∈ v :: w :: values, (a == w) = true := by
      intro a ha
      rcases List.mem_cons.mp ha with rfl | ha
      · exact hvw
      · exact h a ha w List.mem_cons_self
    intro a ha b hb
    exact PartialEquivBEq.trans (hlike a ha) (BEq.symm (hlike b hb))

end Value

/-- Settings that are alike are the same. -/
theorem Setting.eq_of_alike {a b : Setting} (h : (a.value == b.value) = true) : a = b := by
  rw [Value.beq_iff] at h
  cases a with
  | text s =>
      cases b with
      | text other => exact congrArg text (Value.text.inj h)
      | flag => cases h
      | texts => cases h
  | flag yes =>
      cases b with
      | flag other => cases yes <;> cases other <;> first | rfl | cases h
      | text => cases h
      | texts => cases h
  | texts items =>
      cases b with
      | texts others =>
          rw [value, value, Value.counted_texts, Value.counted_texts] at h
          have hitems := Value.list.inj h
          exact congrArg texts (List.map_injective_iff.mpr (fun _ _ => Value.text.inj) hitems)
      | text => cases h
      | flag => cases h

namespace Entry

open Act Value

variable {e t u : Entry} {demand : Demand} {demands others : List Demand} {name : String}

/-! ### What an entry has settled on -/

/-- An entry has no kind, or one that is given: neither an empty text nor a zero stands for it. -/
def KindOrNone (e : Entry) : Prop :=
  e.kindValue = .nothing ∨ e.kindValue.isGiven = true

/-- The value that a control has for good.  A kind yet to come is none. -/
def settled? (e : Entry) (name : String) : Option Value :=
  if name = "type" ∧ (e.kindValue = .nothing ∨ e.kindValue = .flag true) then none else e.own? name

/-- The entry that a demand leaves if it can be met. -/
def granting (e : Entry) : Demand → Entry
  | .documentation => e.marked
  | .kind label _ => e.putOwn "type" (.text label)
  | .control name _ setting => e.marked.putOwn name setting.value

/-- A demand agrees with what the entry has settled on. -/
def Agrees (e : Entry) (demand : Demand) : Prop :=
  ∀ name setting held, demand.setting? name = some setting → e.settled? name = some held →
    (held == setting.value) = true

theorem settled?_of_ne (h : name ≠ "type") (e : Entry) : e.settled? name = e.own? name :=
  if_neg fun hname => h hname.1

theorem own?_of_kindValue {kind : Value} (h : e.kindValue = kind) (hkind : kind ≠ .nothing) :
    e.own? "type" = some kind := by
  rw [kindValue, ownD] at h
  cases hown : e.own? "type" with
  | none =>
      rw [hown] at h
      exact absurd h.symm hkind
  | some held =>
      rw [hown] at h
      exact congrArg some h

/-- The kind of an entry for good. -/
theorem settled?_type {kind : Value} :
    e.settled? "type" = some kind ↔
      e.kindValue = kind ∧ kind ≠ .nothing ∧ kind ≠ .flag true := by
  unfold settled?
  constructor
  · intro h
    split at h
    · cases h
    · rename_i hopen
      have hkind : e.kindValue = kind := by rw [kindValue, ownD, h, Option.getD_some]
      refine ⟨hkind, ?_, ?_⟩
      · rintro rfl
        exact hopen ⟨rfl, Or.inl hkind⟩
      · rintro rfl
        exact hopen ⟨rfl, Or.inr hkind⟩
  · rintro ⟨hkind, hnothing, hyes⟩
    rw [if_neg (by rintro ⟨-, h | h⟩ <;> simp_all)]
    exact own?_of_kindValue hkind hnothing

/-- An entry has a kind for good, or it has none, or one yet to come. -/
theorem settled?_type_cases (e : Entry) :
    e.settled? "type" = some e.kindValue
      ∨ e.settled? "type" = none ∧ (e.kindValue = .nothing ∨ e.kindValue = .flag true) := by
  by_cases hopen : e.kindValue = .nothing ∨ e.kindValue = .flag true
  · exact Or.inr ⟨if_pos ⟨rfl, hopen⟩, hopen⟩
  · exact Or.inl (settled?_type.mpr ⟨rfl, not_or.mp hopen⟩)

/-! ### One demand -/

/-- Documentation has settled on what it had settled on before. -/
theorem settled?_marked (h : e.KindOrNone) (name : String) :
    e.marked.settled? name = e.settled? name := by
  by_cases hname : name = "type"
  · subst hname
    refine Option.ext fun kind => ?_
    rw [settled?_type, settled?_type, kindValue_marked]
    rcases h with hnone | hgiven
    · rw [hnone]
      simp only [isGiven, Bool.false_eq_true, if_false]
      constructor
      · rintro ⟨hkind, -, hyes⟩
        exact absurd hkind.symm hyes
      · rintro ⟨hkind, hnothing, -⟩
        exact absurd hkind.symm hnothing
    · rw [if_pos hgiven]
  · rw [settled?_of_ne hname, settled?_of_ne hname, own?_marked e hname]

/-- What is demanded is settled then, and all else is as it was. -/
theorem settled?_granting (h : e.KindOrNone) (demand : Demand) (name : String) :
    (e.granting demand).settled? name = (demand.value? name).or (e.settled? name) := by
  cases demand with
  | documentation => exact settled?_marked h name
  | kind label hlabel =>
      rw [granting, Demand.value?, Demand.setting?]
      split
      · rename_i hname
        subst hname
        exact settled?_type.mpr ⟨kindValue_putOwn_type e _, by simp [Setting.value]⟩
      · rename_i hname
        rw [settled?_of_ne hname, settled?_of_ne hname]
        exact own?_putOwn_of_ne e _ (Ne.symm hname)
  | control own hown setting =>
      rw [granting, Demand.value?, Demand.setting?]
      split
      · rename_i hname
        subst hname
        rw [settled?_of_ne hown, own?_putOwn_self]
        rfl
      · rename_i hname
        have hother := own?_putOwn_of_ne e.marked setting.value (Ne.symm hname)
        rw [settled?, kindValue_putOwn_of_ne _ _ hown, hother]
        exact settled?_marked h name

theorem isGiven_marked (e : Entry) : e.marked.kindValue.isGiven = true := by
  rw [kindValue_marked]
  split
  · assumption
  · rfl

/-- An entry of which something was demanded has a kind, or one yet to come. -/
theorem isGiven_granting (e : Entry) (demand : Demand) :
    (e.granting demand).kindValue.isGiven = true := by
  cases demand with
  | documentation => exact isGiven_marked e
  | kind label hlabel =>
      rw [granting, kindValue_putOwn_type]
      simpa [isGiven] using hlabel
  | control own hown setting =>
      rw [granting, kindValue_putOwn_of_ne _ _ hown]
      exact isGiven_marked e

theorem own?_granting_of_some {setting : Setting} (h : demand.setting? name = some setting) :
    (e.granting demand).own? name = some setting.value := by
  cases demand with
  | documentation => cases h
  | kind label hlabel =>
      obtain ⟨rfl, hlabel⟩ := Option.ite_none_right_eq_some.mp h
      obtain rfl := Option.some.inj hlabel
      exact own?_putOwn_self e "type" _
  | control own hown other =>
      obtain ⟨rfl, hother⟩ := Option.ite_none_right_eq_some.mp h
      obtain rfl := Option.some.inj hother
      exact own?_putOwn_self e.marked name _

/-- A demand leaves every other control as it was, except that it makes the entry documentation. -/
theorem own?_granting_of_none (h : demand.setting? name = none) :
    (e.granting demand).own? name = e.marked.own? name := by
  cases demand with
  | documentation => rfl
  | kind label hlabel =>
      have hname : "type" ≠ name := by
        rintro rfl
        cases h
      rw [own?_marked e hname.symm]
      exact own?_putOwn_of_ne e _ hname
  | control own hown setting =>
      have hname : own ≠ name := by
        rintro rfl
        simp [Demand.setting?] at h
      exact own?_putOwn_of_ne e.marked _ hname

theorem own?_marked_of_isGiven (h : e.kindValue.isGiven = true) :
    e.marked.own? "type" = e.own? "type" := by
  have hsome : e.own? "type" = some e.kindValue := by
    refine own?_of_kindValue rfl fun hnothing => ?_
    rw [hnothing] at h
    cases h
  rw [marked, own?_putOwn_self, if_pos h, hsome]

theorem setKind_respects {wanted : Value} (h : wanted.isGiven = true) :
    Respects KindOrNone (fun _ => True) (setKind wanted) := by
  intro e _
  unfold Ensures
  rw [setKind_apply]
  split_ifs with hsame hgiven hopen
  · exact Or.inr ((congrArg isGiven (kindValue_putOwn_type e _)).trans hgiven)
  · exact Or.inr ((congrArg isGiven (kindValue_putOwn_type e _)).trans h)
  · exact Or.inr ((congrArg isGiven (kindValue_putOwn_type e _)).trans h)
  · trivial

theorem setOwn_respects (h : name ≠ "type") (value : Value) :
    Respects KindOrNone (fun _ => True) (setOwn name value) := by
  intro e _
  refine ((setOwn_ensures name value e).mono ?_).allow fun _ _ => trivial
  rintro _ _ rfl
  rw [KindOrNone, kindValue_putOwn_of_ne _ _ h]
  exact Or.inr (isGiven_marked e)

/-- Documentation gives no entry an empty kind. -/
theorem kindOrNone_kept : Kept KindOrNone (fun _ => True) where
  new _ := Or.inl rfl
  own h hown := by
    rw [KindOrNone, kindValue, ownD, own?, hown]
    exact h
  marked := setKind_respects rfl
  kind kind hkind := by
    simp only [bareKinds, List.mem_cons, List.not_mem_nil, or_false] at hkind
    rcases hkind with rfl | rfl | rfl <;> exact setKind_respects rfl
  control control hcontrol := by
    refine setOwn_respects ?_
    rintro rfl
    revert hcontrol
    decide
  dict name := setOwn_respects (by decide) _
  sect title id := (setKind_respects rfl).bind
    ((setOwn_respects (by decide) _).bind (setOwn_respects (by decide) _))
  setting name := (setKind_respects rfl).bind (setOwn_respects (by decide) _)
  redundant _ := trivial
  misplaced _ := trivial

/-- A demand that agrees with the entry is met. -/
theorem act_of_agrees (h : e.Agrees demand) : demand.act e = ⟨e.granting demand, [], .ok ()⟩ := by
  cases demand with
  | documentation => rfl
  | kind label hlabel =>
      rw [Demand.act, setKind_apply, granting]
      rcases settled?_type_cases e with hsettled | ⟨-, hopen⟩
      · have hkind := beq_text_iff.mp (h "type" (.text label) _ rfl hsettled)
        rw [hkind, ite_self, if_pos (by simp)]
      · rcases hopen with hkind | hkind <;> rw [hkind] <;> rfl
  | control own hown setting =>
      rw [Demand.act, setOwn_apply, granting, own?_marked e hown, if_pos]
      cases hheld : e.own? own with
      | none => exact BEq.rfl
      | some held =>
          exact h own setting held (if_pos rfl) ((settled?_of_ne hown e).trans hheld)

/-- A demand that does not agree with the entry fails, and makes it documentation at most. -/
theorem act_of_not_agrees (h : ¬e.Agrees demand) :
    ∃ t fault, demand.act e = ⟨t, [], .error fault⟩ ∧ (t = e ∨ t = e.marked) := by
  unfold Agrees at h
  push Not at h
  obtain ⟨name, setting, held, hsetting, hheld, hunlike⟩ := h
  cases demand with
  | documentation => cases hsetting
  | kind label hlabel =>
      rw [Demand.setting?] at hsetting
      split at hsetting
      · rename_i hname
        subst hname
        obtain rfl := Option.some.inj hsetting
        obtain ⟨hkind, hnothing, hyes⟩ := settled?_type.mp hheld
        rw [Demand.act, setKind_apply, hkind, if_neg, if_neg]
        · exact ⟨_, _, rfl, Or.inl rfl⟩
        · cases held <;> simp_all [isNothing, isYes]
        · rw [BEq.comm]
          simpa [isYes, Setting.value] using hunlike
      · cases hsetting
  | control own hown other =>
      rw [Demand.setting?] at hsetting
      split at hsetting
      · rename_i hname
        subst hname
        obtain rfl := Option.some.inj hsetting
        rw [settled?_of_ne hown] at hheld
        rw [Demand.act, setOwn_apply, own?_marked e hown, hheld, Option.getD_some, if_neg hunlike]
        exact ⟨_, _, rfl, Or.inr rfl⟩
      · cases hsetting

/-! ### All demands -/

/-- The values for a control: the one that the entry has settled on and those that are demanded. -/
def wanted (e : Entry) (demands : List Demand) (name : String) : List Value :=
  (e.settled? name).toList ++ demands.filterMap (Demand.value? name)

/-- What an entry has when all demands are met. -/
structure Granted (e : Entry) (demands : List Demand) (t : Entry) : Prop where
  given : ∀ demand ∈ demands, ∀ name setting, demand.setting? name = some setting →
    t.own? name = some setting.value
  kept : ∀ name, name ≠ "type" → (∀ demand ∈ demands, demand.setting? name = none) →
    t.own? name = e.own? name
  kind : (∀ demand ∈ demands, demand.setting? "type" = none) →
    t.own? "type" = if demands = [] then e.own? "type" else e.marked.own? "type"

theorem mem_wanted_of_mem {setting : Setting} (hdemand : demand ∈ demands)
    (hsetting : demand.setting? name = some setting) : setting.value ∈ e.wanted demands name := by
  refine List.mem_append_right _ (List.mem_filterMap.mpr ⟨demand, hdemand, ?_⟩)
  rw [Demand.value?, hsetting, Option.map_some]

/-- The first demand agrees with the entry, and the others agree once it has been met. -/
theorem wanted_cons (h : e.KindOrNone) :
    (∀ name, AllAlike (e.wanted (demand :: demands) name))
      ↔ e.Agrees demand ∧ ∀ name, AllAlike ((e.granting demand).wanted demands name) := by
  have hcons (name : String) : e.wanted (demand :: demands) name
      = (e.settled? name).toList
        ++ ((demand.value? name).toList ++ demands.filterMap (Demand.value? name)) := by
    rw [wanted, List.filterMap_cons]
    cases demand.value? name <;> rfl
  have hgranted (name : String) : (e.granting demand).wanted demands name
      = ((demand.value? name).or (e.settled? name)).toList
        ++ demands.filterMap (Demand.value? name) := by
    rw [wanted, settled?_granting h]
  simp only [hcons, hgranted]
  constructor
  · intro hall
    refine ⟨fun name setting held hsetting hheld => ?_, fun name => ?_⟩
    · refine hall name held (by simp [hheld]) setting.value ?_
      simp [Demand.value?, hsetting]
    · have hname := hall name
      cases hvalue : demand.value? name with
      | none => simpa [hvalue] using hname
      | some value =>
          rw [hvalue] at hname
          exact fun v hv w hw => hname v (List.mem_append_right _ hv) w (List.mem_append_right _ hw)
  · rintro ⟨hagrees, hall⟩ name
    have hname := hall name
    cases hsetting : demand.setting? name with
    | none => simpa [Demand.value?, hsetting] using hname
    | some setting =>
        rw [Demand.value?, hsetting] at hname ⊢
        cases hheld : e.settled? name with
        | none => exact hname
        | some held => exact allAlike_cons_cons.mpr ⟨hagrees name setting held hsetting hheld, hname⟩

/-- What all demands leave, from what the others leave when the first has been met. -/
theorem Granted.cons (hall : ∀ name, AllAlike ((e.granting demand).wanted demands name))
    (h : (e.granting demand).Granted demands t) (hkind : e.KindOrNone) :
    e.Granted (demand :: demands) t := by
  have htype (hnone : ∀ d ∈ demands, d.setting? "type" = none) :
      t.own? "type" = (e.granting demand).own? "type" := by
    rw [h.kind hnone, own?_marked_of_isGiven (isGiven_granting e demand), ite_self]
  refine ⟨fun d hd name setting hsetting => ?_, fun name hname hnone => ?_, fun hnone => ?_⟩
  · rcases List.mem_cons.mp hd with rfl | hd
    · by_cases hmore : ∃ other ∈ demands, ∃ again, other.setting? name = some again
      · -- A later demand for the same control has the same setting.
        obtain ⟨other, hother, again, hagain⟩ := hmore
        have hfirst : setting.value ∈ (e.granting d).wanted demands name := by
          refine List.mem_append_left _ ?_
          rw [settled?_granting hkind, Demand.value?, hsetting]
          exact List.mem_singleton_self _
        have hlike := hall name _ hfirst _ (mem_wanted_of_mem hother hagain)
        rw [h.given other hother name again hagain, Setting.eq_of_alike hlike]
      · have hnone : ∀ other ∈ demands, other.setting? name = none := by
          intro other hother
          rw [Option.eq_none_iff_forall_ne_some]
          exact fun again hagain => hmore ⟨other, hother, again, hagain⟩
        by_cases hname : name = "type"
        · subst hname
          exact (htype hnone).trans (own?_granting_of_some hsetting)
        · exact (h.kept name hname hnone).trans (own?_granting_of_some hsetting)
    · exact h.given d hd name setting hsetting
  · obtain ⟨hfirst, hothers⟩ := List.forall_mem_cons.mp hnone
    rw [h.kept name hname hothers, own?_granting_of_none hfirst, own?_marked e hname]
  · obtain ⟨hfirst, hothers⟩ := List.forall_mem_cons.mp hnone
    rw [htype hothers, own?_granting_of_none hfirst, if_neg (List.cons_ne_nil _ _)]

/-- If no two values for a control differ, all demands are met. -/
theorem each_of_allAlike : ∀ {demands : List Demand} {e : Entry}, e.KindOrNone →
    (∀ name, AllAlike (e.wanted demands name)) →
      ∃ t, each demands Demand.act e = ⟨t, [], .ok ()⟩ ∧ e.Granted demands t := by
  intro demands
  induction demands with
  | nil =>
      intro e _ _
      refine ⟨e, rfl, ?_, ?_, ?_⟩
      · exact List.forall_mem_nil _
      · exact fun _ _ _ => rfl
      · exact fun _ => rfl
  | cons demand demands ih =>
      intro e hkind hall
      obtain ⟨hagrees, hothers⟩ := (wanted_cons hkind).mp hall
      obtain ⟨t, heach, hgranted⟩ := ih (Or.inr (isGiven_granting e demand)) hothers
      refine ⟨t, ?_, hgranted.cons hothers hkind⟩
      rw [each_cons, bind_apply_ok _ (act_of_agrees hagrees), heach]
      rfl

/-- If all demands are met, no two values for a control differ. -/
theorem allAlike_of_each : ∀ {demands : List Demand} {e : Entry}, e.KindOrNone →
    (each demands Demand.act e).result = .ok () → ∀ name, AllAlike (e.wanted demands name) := by
  intro demands
  induction demands with
  | nil =>
      intro e _ _ name v hv w hw
      rw [wanted, List.filterMap_nil, List.append_nil, Option.mem_toList] at hv hw
      rw [Option.some.inj (hv.symm.trans hw)]
      exact BEq.rfl
  | cons demand demands ih =>
      intro e hkind hok
      rw [each_cons] at hok
      by_cases hagrees : e.Agrees demand
      · rw [bind_apply_ok _ (act_of_agrees hagrees)] at hok
        exact (wanted_cons hkind).mpr ⟨hagrees, ih (Or.inr (isGiven_granting e demand)) hok⟩
      · obtain ⟨t, fault, hact, -⟩ := act_of_not_agrees hagrees
        rw [bind_apply_error _ hact] at hok
        cases hok

/-- A kind for good stays, whatever is demanded. -/
theorem settled?_act {kind : Value} (hkind : e.KindOrNone) (h : e.settled? "type" = some kind)
    (demand : Demand) : (demand.act e).state.settled? "type" = some kind := by
  by_cases hagrees : e.Agrees demand
  · rw [act_of_agrees hagrees, settled?_granting hkind]
    cases hsetting : demand.setting? "type" with
    | none => simpa [Demand.value?, hsetting] using h
    | some setting =>
        have hlike := hagrees "type" setting kind hsetting h
        rw [Demand.value?, hsetting]
        cases demand with
        | documentation => cases hsetting
        | kind label hlabel =>
            obtain rfl := Option.some.inj hsetting
            exact congrArg some (beq_text_iff.mp hlike).symm
        | control own hown other => exact absurd (Option.ite_none_right_eq_some.mp hsetting).1.symm hown
  · obtain ⟨t, fault, hact, rfl | rfl⟩ := act_of_not_agrees hagrees
    · rw [hact]
      exact h
    · rw [hact]
      exact (settled?_marked hkind "type").trans h

theorem settled?_each {kind : Value} : ∀ {demands : List Demand} {e : Entry}, e.KindOrNone →
    e.settled? "type" = some kind →
      (each demands Demand.act e).state.settled? "type" = some kind := by
  intro demands
  induction demands with
  | nil => exact fun _ h => h
  | cons demand demands ih =>
      intro e hkind h
      have hfirst := settled?_act hkind h demand
      rw [each_cons]
      by_cases hagrees : e.Agrees demand
      · rw [act_of_agrees hagrees] at hfirst
        rw [bind_apply_ok _ (act_of_agrees hagrees)]
        exact ih (Or.inr (isGiven_granting e demand)) hfirst
      · obtain ⟨t, fault, hact, -⟩ := act_of_not_agrees hagrees
        rw [hact] at hfirst
        rw [bind_apply_error _ hact]
        exact hfirst

/-! ### Any order -/

theorem Granted.perm (h : e.Granted demands t) (hperm : demands.Perm others) :
    e.Granted others t where
  given demand hdemand := h.given demand (hperm.mem_iff.mpr hdemand)
  kept name hname hnone := h.kept name hname fun demand hdemand => hnone demand (hperm.mem_iff.mp hdemand)
  kind hnone := by
    have hempty : demands = [] ↔ others = [] := by
      rw [← List.length_eq_zero_iff, hperm.length_eq, List.length_eq_zero_iff]
    rw [h.kind fun demand hdemand => hnone demand (hperm.mem_iff.mp hdemand)]
    simp only [hempty]

/-- What was demanded says what an entry has under each control. -/
theorem Granted.own?_eq (h : e.Granted demands t) (k : e.Granted demands u) (name : String) :
    t.own? name = u.own? name := by
  by_cases hsome : ∃ demand ∈ demands, ∃ setting, demand.setting? name = some setting
  · obtain ⟨demand, hdemand, setting, hsetting⟩ := hsome
    rw [h.given demand hdemand name setting hsetting, k.given demand hdemand name setting hsetting]
  · have hnone : ∀ demand ∈ demands, demand.setting? name = none := by
      intro demand hdemand
      rw [Option.eq_none_iff_forall_ne_some]
      exact fun setting hsetting => hsome ⟨demand, hdemand, setting, hsetting⟩
    by_cases hname : name = "type"
    · subst hname
      rw [h.kind hnone, k.kind hnone]
    · rw [h.kept name hname hnone, k.kept name hname hnone]

theorem allAlike_wanted_perm (hperm : demands.Perm others) :
    AllAlike (e.wanted demands name) ↔ AllAlike (e.wanted others name) := by
  have hmem (v : Value) : v ∈ e.wanted demands name ↔ v ∈ e.wanted others name :=
    ((hperm.filterMap _).append_left _).mem_iff
  simp only [AllAlike, hmem]

/-- The order of demands does not count: in any other order they fail as well, or they are met as well
and leave the same controls.  They are met exactly if at most one kind is demanded and no control is to
have two different values, where what the entry has settled on before counts too.  A kind for good is
never changed, not even by a demand that fails. -/
theorem demands_in_any_order (e : Entry) (hkind : e.KindOrNone) (demands : List Demand) :
    (∀ others, demands.Perm others →
      (∃ fault other, (each demands Demand.act e).result = .error fault
        ∧ (each others Demand.act e).result = .error other)
      ∨ (each demands Demand.act e).result = .ok () ∧ (each others Demand.act e).result = .ok ()
        ∧ ∀ name, (each demands Demand.act e).state.own? name
          = (each others Demand.act e).state.own? name)
    ∧ (∀ kind, e.settled? "type" = some kind →
      (each demands Demand.act e).state.own? "type" = some kind)
    ∧ ((each demands Demand.act e).result = .ok () ↔
      AllAlike (e.wanted demands "type")
        ∧ ∀ name, name ≠ "type" → AllAlike (e.wanted demands name)) := by
  refine ⟨fun others hperm => ?_, fun kind hsettled => ?_, fun hok => ?_, fun hall => ?_⟩
  · by_cases hall : ∀ name, AllAlike (e.wanted demands name)
    · have hothers : ∀ name, AllAlike (e.wanted others name) :=
        fun name => (allAlike_wanted_perm hperm).mp (hall name)
      obtain ⟨t, hours, ht⟩ := each_of_allAlike hkind hall
      obtain ⟨u, htheirs, hu⟩ := each_of_allAlike hkind hothers
      rw [hours, htheirs]
      exact Or.inr ⟨rfl, rfl, (ht.perm hperm).own?_eq hu⟩
    · refine Or.inl ?_
      cases hours : (each demands Demand.act e).result with
      | ok => exact absurd (allAlike_of_each hkind hours) hall
      | error fault =>
          cases htheirs : (each others Demand.act e).result with
          | ok =>
              have hothers := allAlike_of_each hkind htheirs
              exact absurd (fun name => (allAlike_wanted_perm hperm).mpr (hothers name)) hall
          | error other => exact ⟨fault, other, rfl, rfl⟩
  · obtain ⟨hheld, hnothing, -⟩ := settled?_type.mp (settled?_each hkind hsettled)
    exact own?_of_kindValue hheld hnothing
  · have hall := allAlike_of_each hkind hok
    exact ⟨hall "type", fun name _ => hall name⟩
  · obtain ⟨hkinds, hvalues⟩ := hall
    have hboth (name : String) : AllAlike (e.wanted demands name) := by
      by_cases hname : name = "type"
      · exact hname ▸ hkinds
      · exact hvalues name hname
    obtain ⟨t, hours, -⟩ := each_of_allAlike hkind hboth
    rw [hours]

/-- An entry that is documentation of a kind yet to come. -/
def begunEntry : Entry where
  own := [("type", .flag true), ("deprecated", .text "Use Start.")]

/-- What lines demand of a private function. -/
def privateDemands : List Demand :=
  [.control "private" (by decide) (.flag true), .kind "FUNCTION" (by decide),
    .control "args" (by decide) (.texts ["path", "..."])]

/-- A kind that comes last is as good as one that comes first, and two kinds fail in either order. -/
theorem demands_in_any_order_private :
    (each privateDemands Demand.act begunEntry).result = .ok ()
      ∧ (∀ name, (each privateDemands Demand.act begunEntry).state.own? name
        = (each privateDemands.reverse Demand.act begunEntry).state.own? name)
      ∧ ∃ fault, (each (privateDemands ++ [.kind "COMMAND" (by decide)]) Demand.act
        begunEntry).result = .error fault := by
  have hkind : begunEntry.KindOrNone := Or.inr rfl
  have hok : (each privateDemands Demand.act begunEntry).result = .ok () := by rfl
  have htwo : ¬AllAlike
      (begunEntry.wanted (privateDemands ++ [.kind "COMMAND" (by decide)]) "type") := by
    intro hall
    have hfirst : Demand.kind "FUNCTION" (by decide)
        ∈ privateDemands ++ [.kind "COMMAND" (by decide)] := by simp [privateDemands]
    have hlast : Demand.kind "COMMAND" (by decide)
        ∈ privateDemands ++ [.kind "COMMAND" (by decide)] := by simp
    cases hall _ (mem_wanted_of_mem hfirst rfl) _ (mem_wanted_of_mem hlast rfl)
  refine ⟨hok, ?_, ?_⟩
  · rcases (demands_in_any_order begunEntry hkind privateDemands).1 _
      (List.reverse_perm _).symm with ⟨fault, other, hfault, -⟩ | ⟨-, -, hsame⟩
    · cases hok.symm.trans hfault
    · exact hsame
  · have hiff := (demands_in_any_order begunEntry hkind
      (privateDemands ++ [.kind "COMMAND" (by decide)])).2.2
    cases hresult : (each (privateDemands ++ [.kind "COMMAND" (by decide)]) Demand.act
        begunEntry).result with
    | error fault => exact ⟨fault, rfl⟩
    | ok => exact absurd (hiff.mp hresult).1 htwo

end Entry

end PluginHelp
