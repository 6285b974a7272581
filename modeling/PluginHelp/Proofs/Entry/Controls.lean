/-
What setting a control does to an entry.

Setting a control makes an entry documentation: if it has no kind, it gets the kind that is yet to
come.  A kind takes the place of none and of one yet to come, and of nothing else.  Every other
control takes only what is like the value it has.  So what an entry says under other controls is left
as it was, and a step that succeeds leaves an entry that is known in full.
-/
import PluginHelp.Proofs.Entry.Frame

namespace PluginHelp

theorem Value.beq_text_iff {value : Value} {s : String} :
    (value == .text s) = true ↔ value = .text s := by
  rw [beq_iff]
  constructor
  · intro h
    cases value <;> simp_all [counted]
  · rintro rfl
    rfl

namespace Entry

open Act

theorem isOf_iff {e : Entry} {kind : Kind} : e.isOf kind = true ↔ e.kindValue = kind.toValue :=
  Value.beq_text_iff

theorem isOf_eq_false {e : Entry} {kind other : Kind} (h : e.kindValue = kind.toValue)
    (hlabel : kind.label ≠ other.label) : e.isOf other = false := by
  rw [← Bool.not_eq_true, isOf_iff, h]
  intro heq
  exact hlabel (Value.text.inj heq)

theorem isOf_of_own {e t : Entry} (h : t.own = e.own) (kind : Kind) : t.isOf kind = e.isOf kind := by
  rw [isOf, isOf, kindValue, kindValue, ownD, ownD, own?, own?, h]

theorem hasOwn_eq (e : Entry) (control : String) : e.hasOwn control = (e.own? control).isSome :=
  rfl

@[simp] theorem kindValue_putOwn_type (e : Entry) (value : Value) :
    (e.putOwn "type" value).kindValue = value := by
  rw [kindValue, ownD, own?_putOwn_self]
  rfl

theorem kindValue_putOwn_of_ne (e : Entry) {control : String} (value : Value)
    (h : control ≠ "type") : (e.putOwn control value).kindValue = e.kindValue := by
  rw [kindValue, ownD, own?_putOwn_of_ne e value h]
  rfl

/-! ### Kinds -/

/-- The entry as documentation: if it has no kind, it has one yet to come. -/
def marked (e : Entry) : Entry :=
  e.putOwn "type" (if e.kindValue.isGiven then e.kindValue else .flag true)

theorem own?_marked (e : Entry) {control : String} (h : control ≠ "type") :
    e.marked.own? control = e.own? control :=
  own?_putOwn_of_ne e _ h.symm

theorem kindValue_marked (e : Entry) :
    e.marked.kindValue = if e.kindValue.isGiven then e.kindValue else .flag true :=
  kindValue_putOwn_type e _

theorem isOf_marked (e : Entry) {kind : Kind} (h : kind.label ≠ "") :
    e.marked.isOf kind = e.isOf kind := by
  rw [isOf, isOf, kindValue_marked]
  by_cases hgiven : e.kindValue.isGiven = true
  · rw [if_pos hgiven]
  · rw [if_neg hgiven, Bool.eq_iff_iff, Kind.toValue, Value.beq_text_iff, Value.beq_text_iff]
    constructor
    · intro heq
      cases heq
    · intro heq
      simp [heq, Value.isGiven, h] at hgiven

/-- Asking for a kind yet to come never fails. -/
theorem setKind_yes (e : Entry) : setKind (.flag true) e = ⟨e.marked, [], .ok ()⟩ :=
  rfl

theorem setKind_apply (wanted : Value) (e : Entry) :
    setKind wanted e =
      if wanted.isYes || wanted == e.kindValue then
        ⟨e.putOwn "type" (if e.kindValue.isGiven then e.kindValue else wanted), [], .ok ()⟩
      else if e.kindValue.isNothing || e.kindValue.isYes then
        ⟨e.putOwn "type" wanted, [], .ok ()⟩
      else
        ⟨e, [], .error { cause := .kindConflict e.kindValue wanted }⟩ := by
  unfold setKind
  rw [get_bind_apply]
  split
  · rfl
  · split <;> rfl

/-- A kind that is set is the kind of the entry then, and before there was none, or one yet to come,
or the same one. -/
theorem setKind_ensures (kind : Kind) (e : Entry) :
    Ensures (setKind kind.toValue) e
      (fun _ t => t = e.putOwn "type" kind.toValue
        ∧ (e.kindValue = .nothing ∨ e.kindValue = .flag true ∨ e.kindValue = kind.toValue))
      (fun cause => ∃ held, cause = .kindConflict held kind.toValue) := by
  unfold setKind
  refine Ensures.get_bind (Ensures.ite (fun hsame => ?_) fun _ => Ensures.ite (fun hopen => ?_) ?_)
  · have hheld : e.kindValue = kind.toValue := by
      rw [← isOf_iff, isOf, BEq.comm]
      simpa [Kind.toValue, Value.isYes] using hsame
    refine Ensures.modify ⟨?_, Or.inr (Or.inr hheld)⟩
    rw [hheld, ite_self]
  · refine Ensures.modify ⟨rfl, ?_⟩
    cases hheld : e.kindValue <;> simp_all [Value.isNothing, Value.isYes]
  · exact fun _ => ⟨e.kindValue, rfl⟩

/-! ### Other controls -/

theorem setOwn_apply (control : String) (value : Value) (e : Entry) :
    setOwn control value e =
      if (e.marked.own? control).getD value == value then
        ⟨e.marked.putOwn control value, [], .ok ()⟩
      else
        ⟨e.marked, [],
          .error { cause := .inconsistentControl control ((e.marked.own? control).getD value) value }⟩
      := by
  unfold setOwn
  rw [bind_apply_ok _ (setKind_yes e), get_bind_apply, List.nil_append]
  split
  · rfl
  · rfl

/-- A control that is set has the value then. -/
theorem setOwn_ensures (control : String) (value : Value) (e : Entry) :
    Ensures (setOwn control value) e (fun _ t => t = e.marked.putOwn control value)
      (fun cause => ∃ held, cause = .inconsistentControl control held value) := by
  unfold Ensures
  rw [setOwn_apply]
  by_cases hlike : ((e.marked.own? control).getD value == value) = true
  · rw [if_pos hlike]
  · rw [if_neg hlike]
    exact ⟨_, rfl⟩

/-- A control that is passed on is set once; another time fails. -/
theorem setShared_apply (control : String) (value : Value) (e : Entry) :
    setShared control value e =
      if e.shared.has control then
        ⟨e.marked, [], .error { cause := .redundantControl control }⟩
      else
        ⟨{ e.marked with shared := e.shared.set control value }, [], .ok ()⟩ := by
  unfold setShared
  rw [bind_apply_ok _ (setKind_yes e), get_bind_apply, List.nil_append,
    show e.marked.shared = e.shared from rfl]
  split
  · rfl
  · rfl

/-- Setting a control leaves every other one as it was, the kind apart, also if it fails. -/
theorem own?_setOwn (e : Entry) {control other : String} (value : Value) (h : control ≠ other)
    (htype : other ≠ "type") : (setOwn control value e).state.own? other = e.own? other := by
  rw [setOwn_apply]
  split
  · exact (own?_putOwn_of_ne _ value h).trans (own?_marked e htype)
  · exact own?_marked e htype

/-- Setting a control leaves the kind as it was, also if it fails. -/
theorem isOf_setOwn (e : Entry) {control : String} (value : Value) (h : control ≠ "type")
    {kind : Kind} (hlabel : kind.label ≠ "") :
    (setOwn control value e).state.isOf kind = e.isOf kind := by
  rw [setOwn_apply]
  split
  · rw [isOf, kindValue_putOwn_of_ne _ value h]
    exact isOf_marked e hlabel
  · exact isOf_marked e hlabel

/-! ### Names -/

section Names

variable {e : Entry} {name : Value}

theorem localName_of_function (hfunction : e.isOf .function = true)
    (hname : e.own? "name" = some name) : e.localName = .ok name := by
  rw [localName, isOf_eq_false (isOf_iff.mp hfunction) (by decide), hname]
  rfl

/-- A function in a dictionary is named after it. -/
theorem fullName_of_member {dictionary : Value} (hfunction : e.isOf .function = true)
    (hname : e.own? "name" = some name) (hmember : e.own? "dict" = some dictionary) :
    e.fullName
      = .ok (.text (dictionary.shown ++ "." ++ ((e.own? "attribute").getD name).shown)) := by
  rw [fullName, hfunction, hmember, localName_of_function hfunction hname]
  rfl

/-- Any other function is named after its namespace. -/
theorem fullName_of_free (hfunction : e.isOf .function = true) (hname : e.own? "name" = some name)
    (hfree : e.own? "dict" = none) (hexception : e.own? "exception" = none) :
    e.fullName = joinValues ((e.own? "namespace").getD (.text "")) name := by
  rw [fullName, hfunction, hfree, hexception, localName_of_function hfunction hname]
  rfl

theorem fullName_of_command (hcommand : e.isOf .command = true)
    (hname : e.own? "name" = some name) : e.fullName = .ok name := by
  have hno {other : Kind} (hne : Kind.command.label ≠ other.label) : e.isOf other = false :=
    isOf_eq_false (isOf_iff.mp hcommand) hne
  rw [fullName, hno (by decide), localName, hno (by decide), hname]
  rfl

end Names

end Entry

end PluginHelp
