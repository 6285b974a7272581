/-
What documentation alone can say about an entry.

Before a line of code tells what an entry is about, some controls are never there: the parameters
and the namespace of a function, the head of a command, and the usage, which closing works out.  Only
a section or a setting is given its name by documentation.  Every line of documentation keeps this,
and what it may fail for is reported as a fault of the documentation.
-/
import PluginHelp.Proofs.Entry.Kept

namespace PluginHelp

open Act

/-- The causes that are reported as faults of the documentation.  All others mean that something came
up that is not checked. -/
def Cause.isForeseen : Cause → Bool
  | general _ | cannotContinue _ | kindConflict .. | noSuchEntry .. | badArguments ..
  | unknownDirective _ | unknownInline _ | redundantControl _ | inconsistentControl ..
  | multipleHeaders | invalidEntry _ | ambiguousEntry | badStructure _ | noSuchSection _
  | misplacedParent _ | noSuchParent .. | duplicateSection _ | duplicateBackmatter _
  | neglectedSections .. | orderedChild .. => true
  | _ => false

namespace Entry

/-- The controls that documentation does not give, beside the name of most entries. -/
def definedControls : List String :=
  ["args", "namespace", "head", "usage"]

/-- An entry that nothing but documentation has spoken about. -/
structure Undefined (e : Entry) : Prop where
  absent : ∀ control ∈ definedControls, e.own? control = none
  unnamed : e.own? "name" = none ∨ e.isOf .sect = true ∨ e.isOf .setting = true

variable {e t : Entry}

theorem undefined_new (isSecondary : Bool) : Undefined { isSecondary } :=
  ⟨fun _ _ => rfl, Or.inl rfl⟩

/-- What has the same controls is as undefined. -/
theorem Undefined.of_own (h : e.Undefined) (hown : t.own = e.own) : t.Undefined := by
  have hsame (control : String) : t.own? control = e.own? control := by rw [own?, own?, hown]
  refine ⟨fun control hcontrol => (hsame control).trans (h.absent control hcontrol), ?_⟩
  rw [hsame, isOf_of_own hown, isOf_of_own hown]
  exact h.unnamed

/-- A control that documentation may give. -/
theorem Undefined.putOwn (h : e.Undefined) {control : String} (value : Value)
    (hcontrol : control ∉ "type" :: definedControls)
    (hname : control = "name" → e.isOf .sect = true ∨ e.isOf .setting = true) :
    (e.putOwn control value).Undefined := by
  have hkind : control ≠ "type" := by
    rintro rfl
    exact hcontrol List.mem_cons_self
  have hof (kind : Kind) : (e.putOwn control value).isOf kind = e.isOf kind := by
    rw [isOf, isOf, kindValue_putOwn_of_ne e value hkind]
  refine ⟨fun other hother => ?_, ?_⟩
  · rw [own?_putOwn_of_ne e value]
    · exact h.absent other hother
    · rintro rfl
      exact hcontrol (List.mem_cons_of_mem _ hother)
  · rw [hof, hof]
    by_cases heq : control = "name"
    · exact Or.inr (hname heq)
    · rw [own?_putOwn_of_ne e value heq]
      exact h.unnamed

/-- A kind that does not take the place of that of a section or a setting. -/
theorem Undefined.putKind (h : e.Undefined) (value : Value)
    (hkind : e.isOf .sect = true ∨ e.isOf .setting = true → value = e.kindValue) :
    (e.putOwn "type" value).Undefined := by
  refine ⟨fun other hother => ?_, ?_⟩
  · rw [own?_putOwn_of_ne e value]
    · exact h.absent other hother
    · rintro rfl
      revert hother
      decide
  · rw [own?_putOwn_of_ne e value (by decide)]
    rcases h.unnamed with hnone | hof
    · exact Or.inl hnone
    · refine Or.inr ?_
      rw [isOf, isOf, kindValue_putOwn_type, hkind hof]
      exact hof

theorem Undefined.marked (h : e.Undefined) : e.marked.Undefined := by
  refine h.putKind _ fun hof => ?_
  have hgiven : e.kindValue.isGiven = true := by
    rcases hof with hof | hof
    · rw [isOf_iff.mp hof]
      rfl
    · rw [isOf_iff.mp hof]
      rfl
  rw [if_pos hgiven]

/-! ### Steps -/

/-- A kind that is set takes the place of none, or of one yet to come. -/
theorem setKind_undefined (he : e.Undefined) (kind : Kind) :
    Ensures (setKind kind.toValue) e (fun _ t => t.Undefined ∧ t.isOf kind = true)
      (·.isForeseen = true) := by
  refine ((setKind_ensures kind e).mono ?_).allow ?_
  · rintro _ t ⟨rfl, hbefore⟩
    refine ⟨he.putKind _ fun hof => ?_, isOf_iff.mpr (kindValue_putOwn_type e _)⟩
    rw [isOf_iff, isOf_iff] at hof
    rcases hbefore with hnone | hyes | hsame
    · rw [hnone] at hof
      rcases hof with hof | hof <;> cases hof
    · rw [hyes] at hof
      rcases hof with hof | hof <;> cases hof
    · exact hsame.symm
  · rintro _ ⟨held, rfl⟩
    rfl

/-- From this entry, setting a control that documentation may give keeps the entry undefined. -/
theorem setOwn_undefined (he : e.Undefined) {control : String} (value : Value)
    (hcontrol : control ∉ "type" :: definedControls)
    (hname : control = "name" → e.isOf .sect = true ∨ e.isOf .setting = true) :
    Ensures (setOwn control value) e (fun _ t => t.Undefined) (·.isForeseen = true) := by
  refine ((setOwn_ensures control value e).mono ?_).allow ?_
  · rintro _ t rfl
    refine he.marked.putOwn value hcontrol fun heq => ?_
    rw [isOf_marked e (by decide), isOf_marked e (by decide)]
    exact hname heq
  · rintro _ ⟨held, rfl⟩
    rfl

/-- Documentation keeps an entry undefined, or its fault is foreseen. -/
theorem undefined_kept : Kept Undefined (·.isForeseen = true) where
  new := undefined_new
  own := Undefined.of_own
  marked e he := by
    unfold Ensures
    rw [setKind_yes]
    exact he.marked
  kind kind _ e he := (setKind_undefined he kind).mono fun _ _ ht => ht.1
  control control hcontrol value e he := by
    have hother : ∀ control ∈ docControls, control ∉ "type" :: definedControls ∧ control ≠ "name" := by
      decide
    exact setOwn_undefined he value (hother control hcontrol).1
      fun hname => absurd hname (hother control hcontrol).2
  dict name e he := setOwn_undefined he _ (by decide) fun hname => absurd hname (by decide)
  sect title id e he := by
    refine Ensures.bind (setKind_undefined he .sect) fun _ t ht => ?_
    refine Ensures.bind (setOwn_undefined ht.1 _ (by decide) fun _ => Or.inl ht.2) fun _ u hu => ?_
    exact setOwn_undefined hu _ (by decide) fun hname => absurd hname (by decide)
  setting name e he := by
    refine Ensures.bind (setKind_undefined he .setting) fun _ t ht => ?_
    exact setOwn_undefined ht.1 _ (by decide) fun _ => Or.inr ht.2
  redundant _ := rfl
  misplaced _ := rfl

end Entry

end PluginHelp
