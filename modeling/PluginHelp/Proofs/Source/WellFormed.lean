/-
The entries of a file are well-formed.

A section that is read from a file has an identifier and a title, and a dictionary has a name, since
the lines that make them one give these as well.  Levels are given to sections when a page is closed,
and nothing that can be written in a file gives one before that.  Neither is there an empty kind.
All of this holds of every entry that is finished, whatever is found wrong later.
-/
import PluginHelp.Proofs.Entry.Demands
import PluginHelp.Proofs.Source.Finishing

namespace PluginHelp

open Act

namespace Entry

/-- The value of a control is a text, if there is one. -/
def IsText (value : Option Value) : Prop :=
  ∀ held, value = some held → ∃ text, held = .text text

theorem isText_some (text : String) : IsText (some (.text text)) :=
  fun _ hheld => ⟨text, (Option.some.inj hheld).symm⟩

/-- What an entry of its kind has to say: a section has an identifier and a title that is a text, a
dictionary has a name, the name of a dictionary is a text wherever it stands, and no entry has a
level. -/
structure WellFormed (e : Entry) : Prop where
  unlevelled : e.hasOwn "level" = false
  identified : e.isOf .sect = true → e.hasOwn "id" = true
  titled : e.isOf .sect = true → e.hasOwn "name" = true ∧ IsText (e.own? "name")
  named : e.isOf .dictionary = true → e.hasOwn "dict" = true
  dictionary : IsText (e.own? "dict")

variable {e t : Entry}

/-- All of it is said by a few controls. -/
theorem WellFormed.congr (h : e.WellFormed)
    (hkind : ∀ kind : Kind, kind.label ≠ "" → t.isOf kind = e.isOf kind)
    (hown : ∀ control ∈ ["level", "id", "name", "dict"], t.own? control = e.own? control) :
    t.WellFormed := by
  have hhas {control : String} (hcontrol : control ∈ ["level", "id", "name", "dict"]) :
      t.hasOwn control = e.hasOwn control := congrArg Option.isSome (hown control hcontrol)
  refine ⟨?_, ?_, ?_, ?_, ?_⟩
  · rw [hhas (by simp)]
    exact h.unlevelled
  · rw [hhas (by simp), hkind .sect (by decide)]
    exact h.identified
  · rw [hhas (by simp), hown "name" (by simp), hkind .sect (by decide)]
    exact h.titled
  · rw [hhas (by simp), hkind .dictionary (by decide)]
    exact h.named
  · rw [hown "dict" (by simp)]
    exact h.dictionary

theorem WellFormed.of_own (h : e.WellFormed) (hown : t.own = e.own) : t.WellFormed := by
  refine h.congr (fun kind _ => isOf_of_own hown kind) fun control _ => ?_
  rw [own?, own?, hown]

/-- An entry that is neither a section nor a dictionary has little to say. -/
theorem wellFormed_of_kind {kind : Kind} (hkind : e.kindValue = kind.toValue)
    (hsect : kind.label ≠ Kind.sect.label) (hdict : kind.label ≠ Kind.dictionary.label)
    (hlevel : e.hasOwn "level" = false) (hname : IsText (e.own? "dict")) : e.WellFormed := by
  have hnoSect := isOf_eq_false hkind hsect
  have hnoDict := isOf_eq_false hkind hdict
  exact ⟨hlevel, by simp [hnoSect], by simp [hnoSect], by simp [hnoDict], hname⟩

theorem WellFormed.marked (h : e.WellFormed) : e.marked.WellFormed := by
  refine h.congr (fun kind hlabel => isOf_marked e hlabel) fun control hcontrol => ?_
  refine own?_marked e ?_
  rintro rfl
  simp at hcontrol

theorem hasOwn_putOwn_of_has {other : String} (h : e.hasOwn other = true) (control : String)
    (value : Value) : (e.putOwn control value).hasOwn other = true := by
  by_cases heq : control = other
  · rw [← heq, hasOwn_eq, own?_putOwn_self]
    rfl
  · rw [hasOwn_putOwn_of_ne e value heq]
    exact h

/-- A control that is a text stays one, if it is given a text. -/
theorem isText_putOwn {control other : String} {value : Value} (h : IsText (e.own? other))
    (hvalue : control = other → ∃ text, value = .text text) :
    IsText ((e.putOwn control value).own? other) := by
  by_cases heq : control = other
  · obtain ⟨text, rfl⟩ := hvalue heq
    rw [← heq, own?_putOwn_self]
    exact isText_some text
  · rw [own?_putOwn_of_ne e value heq]
    exact h

/-- A control may be given any value, if it is not the kind or the level; titles and the names of
dictionaries must be texts. -/
theorem WellFormed.putOwn (h : e.WellFormed) {control : String} (value : Value)
    (hcontrol : control ∉ ["type", "level"])
    (htext : control ∈ ["name", "dict"] → ∃ text, value = .text text) :
    (e.putOwn control value).WellFormed := by
  simp only [List.mem_cons, List.not_mem_nil, or_false, not_or] at hcontrol htext
  have hkind (kind : Kind) : (e.putOwn control value).isOf kind = e.isOf kind := by
    rw [isOf, isOf, kindValue_putOwn_of_ne e value hcontrol.1]
  refine ⟨?_, fun hsect => ?_, fun hsect => ⟨?_, ?_⟩, fun hdict => ?_, ?_⟩
  · rw [hasOwn_putOwn_of_ne e value hcontrol.2]
    exact h.unlevelled
  · exact hasOwn_putOwn_of_has (h.identified (hkind .sect ▸ hsect)) control value
  · exact hasOwn_putOwn_of_has (h.titled (hkind .sect ▸ hsect)).1 control value
  · exact isText_putOwn (h.titled (hkind .sect ▸ hsect)).2 fun heq => htext (Or.inl heq)
  · exact hasOwn_putOwn_of_has (h.named (hkind .dictionary ▸ hdict)) control value
  · exact isText_putOwn h.dictionary fun heq => htext (Or.inr heq)

/-! ### Lines -/

theorem setOwn_wellFormed (he : e.WellFormed) {control : String} (value : Value)
    (hcontrol : control ∉ ["type", "level"])
    (htext : control ∈ ["name", "dict"] → ∃ text, value = .text text) :
    Ensures (setOwn control value) e (fun _ t => t.WellFormed) (fun _ => True) := by
  refine ((setOwn_ensures control value e).mono ?_).allow fun _ _ => trivial
  rintro _ t rfl
  exact he.marked.putOwn value hcontrol htext

theorem setKind_wellFormed (he : e.WellFormed) (kind : Kind)
    (hsect : kind.label ≠ Kind.sect.label) (hdict : kind.label ≠ Kind.dictionary.label) :
    Ensures (setKind kind.toValue) e (fun _ t => t.WellFormed) (fun _ => True) := by
  refine ((setKind_ensures kind e).mono ?_).allow fun _ _ => trivial
  rintro _ t ⟨rfl, -⟩
  refine wellFormed_of_kind (kindValue_putOwn_type e _) hsect hdict ?_ ?_
  · rw [hasOwn_putOwn_of_ne e _ (by decide)]
    exact he.unlevelled
  · rw [own?_putOwn_of_ne e _ (by decide)]
    exact he.dictionary

/-- A section is given its title and its identifier together with its kind. -/
theorem sect_wellFormed (he : e.WellFormed) (title id : String) :
    Ensures (DocLine.sect title id).update e (fun _ t => t.WellFormed) (fun _ => True) := by
  have hgains : Ensures (DocLine.sect title id).update e
      (fun _ t => Gains .sect [("id", .text id), ("name", .text title)] e t)
      (·.isForeseen = true) := by
    refine Ensures.bind (setKind_gains .sect e) fun _ t ht => ?_
    refine Ensures.bind (ht.setOwn (by decide) _ (by decide)) fun _ u hu => ?_
    exact hu.setOwn (by decide) _ (by decide)
  refine (hgains.mono fun _ t ht => ?_).allow fun _ _ => trivial
  have hname : t.own? "name" = some (.text title) := ht.own "name" (by decide)
  refine ⟨?_, fun _ => ?_, fun _ => ⟨?_, ?_⟩, fun hdict => ?_, ?_⟩
  · rw [hasOwn_eq, ht.own "level" (by decide)]
    exact he.unlevelled
  · rw [hasOwn_eq, ht.own "id" (by decide)]
    rfl
  · rw [hasOwn_eq, hname]
    rfl
  · rw [hname]
    exact isText_some title
  · rw [isOf_eq_false ht.kindValue (by decide)] at hdict
    cases hdict
  · rw [ht.own "dict" (by decide)]
    exact he.dictionary

/-- Documentation keeps an entry well-formed. -/
theorem wellFormed_kept : Kept WellFormed (fun _ => True) where
  new isSecondary := by
    have hnone (kind : Kind) : isOf { isSecondary } kind = false := rfl
    have hdict : own? { isSecondary } "dict" = none := rfl
    exact ⟨rfl, by simp [hnone], by simp [hnone], by simp [hnone], by simp [IsText, hdict]⟩
  own := WellFormed.of_own
  marked e he := by
    unfold Ensures
    rw [setKind_yes]
    exact he.marked
  kind kind hkind e he := by
    have hother : ∀ kind ∈ bareKinds,
        kind.label ≠ Kind.sect.label ∧ kind.label ≠ Kind.dictionary.label := by decide
    exact setKind_wellFormed he kind (hother kind hkind).1 (hother kind hkind).2
  control control hcontrol value e he := by
    have hother : ∀ control ∈ docControls,
        control ∉ ["type", "level"] ∧ control ∉ ["name", "dict"] := by decide
    exact setOwn_wellFormed he value (hother control hcontrol).1
      fun hmem => absurd hmem (hother control hcontrol).2
  dict name e he := setOwn_wellFormed he _ (by decide) fun _ => ⟨name, rfl⟩
  sect title id e he := sect_wellFormed he title id
  setting name e he := by
    refine Ensures.bind (setKind_wellFormed he .setting (by decide) (by decide)) fun _ t ht => ?_
    exact setOwn_wellFormed ht _ (by decide) fun _ => ⟨name, rfl⟩
  redundant _ := trivial
  misplaced _ := trivial

/-- A closed entry is as well-formed as it was: if closing makes it a dictionary, it has a name. -/
theorem SameButUsage.wellFormed (he : e.WellFormed) (h : SameButUsage e.shut.inferred t) :
    t.WellFormed := by
  have hinferred : e.shut.inferred.WellFormed := by
    have hshut : e.shut.WellFormed := he.of_own rfl
    unfold inferred
    split
    · rename_i hnamed
      have hkind := kindValue_putOwn_type e.shut Kind.dictionary.toValue
      have hsect := isOf_eq_false hkind (show _ ≠ Kind.sect.label by decide)
      refine ⟨?_, by simp [hsect], by simp [hsect], fun _ => ?_, ?_⟩
      · rw [hasOwn_putOwn_of_ne _ _ (by decide)]
        exact hshut.unlevelled
      · exact hasOwn_putOwn_of_has (Bool.and_eq_true_iff.mp hnamed).2 _ _
      · rw [own?_putOwn_of_ne _ _ (by decide)]
        exact hshut.dictionary
    · exact hshut
  refine hinferred.congr (fun kind _ => h.isOf kind) fun control hcontrol => h.own control ?_
  rintro rfl
  simp at hcontrol

/-- Closing gives no entry an empty kind either. -/
theorem SameButUsage.kindOrNone (he : e.KindOrNone) (h : SameButUsage e.shut.inferred t) :
    t.KindOrNone := by
  rw [KindOrNone, h.kindValue]
  unfold inferred
  split
  · exact Or.inr (congrArg Value.isGiven (kindValue_putOwn_type e.shut _))
  · exact he

end Entry

namespace CodeLine

open Entry

/-- What a line of code defines is neither a section nor a dictionary. -/
theorem update_wellFormed (line : CodeLine) {e : Entry} (he : e.WellFormed) :
    Ensures line.update e (fun _ t => t.WellFormed) (fun _ => True) := by
  cases hkind : line.kind? with
  | none =>
      rw [update_of_none hkind]
      exact Ensures.pure he
  | some kind =>
      have hother : kind.label ≠ Kind.sect.label ∧ kind.label ≠ Kind.dictionary.label := by
        cases line with
        | blank | endOfFile | unrecognized line => cases hkind
        | function name space parameters | command name flags | setting name | flag name initial =>
            obtain rfl := Option.some.inj hkind
            decide
      have huntold : ∀ control ∈ ["level", "dict"], line.controls.lookup control = none := by
        cases line with
        | function name space parameters => cases space <;> simp [controls]
        | _ => simp [controls]
      refine ((update_gains hkind e).mono fun _ t ht => ?_).allow fun _ _ => trivial
      refine wellFormed_of_kind ht.kindValue hother.1 hother.2 ?_ ?_
      · rw [hasOwn_eq, ht.own "level" (by decide), huntold "level" (by simp)]
        exact he.unlevelled
      · rw [ht.own "dict" (by decide), huntold "dict" (by simp)]
        exact he.dictionary

/-- What a line of code defines has its kind. -/
theorem update_kindOrNone (line : CodeLine) {e : Entry} (he : e.KindOrNone) :
    Ensures line.update e (fun _ t => t.KindOrNone) (fun _ => True) := by
  cases hkind : line.kind? with
  | none =>
      rw [update_of_none hkind]
      exact Ensures.pure he
  | some kind =>
      have hgiven : kind.toValue.isGiven = true := by
        cases line with
        | blank | endOfFile | unrecognized line => cases hkind
        | function name space parameters | command name flags | setting name | flag name initial =>
            obtain rfl := Option.some.inj hkind
            rfl
      refine ((update_gains hkind e).mono fun _ t ht => ?_).allow fun _ _ => trivial
      exact Or.inr ((congrArg Value.isGiven ht.kindValue).trans hgiven)

theorem completed_wellFormed {line : CodeLine} {e t : Entry} (hopen : e.isClosed = false)
    (hundefined : e.Undefined) (he : e.WellFormed) (h : line.completed e = .ok t) :
    t.WellFormed := by
  obtain ⟨u, before, wasOpen, after, hupdate, hclose⟩ := completed_eq_ok h
  have hu := (update_wellFormed line he).of_ok hupdate
  exact SameButUsage.wellFormed hu (completed_same hopen hundefined hupdate hclose).1

end CodeLine

/-- The entries of a file are well-formed. -/
theorem Source.entries_wellFormed (file : Option String) (lines : List String) :
    ∀ e ∈ (Source.entries file lines).state, e.WellFormed := by
  intro e he
  obtain ⟨line, begun, hopen, ⟨hundefined, hbegun⟩, hcompleted⟩ :=
    Source.entries_completed (Entry.undefined_kept.and Entry.wellFormed_kept) file lines e he
  exact CodeLine.completed_wellFormed hopen hundefined hbegun hcompleted

/-- The entries of a file have a kind or none, so their controls can be demanded in any order. -/
theorem Source.entries_kindOrNone (file : Option String) (lines : List String) :
    ∀ e ∈ (Source.entries file lines).state, e.KindOrNone := by
  intro e he
  obtain ⟨line, begun, hopen, ⟨hundefined, hbegun⟩, hcompleted⟩ :=
    Source.entries_completed (Entry.undefined_kept.and Entry.kindOrNone_kept) file lines e he
  obtain ⟨u, before, wasOpen, after, hupdate, hclose⟩ := CodeLine.completed_eq_ok hcompleted
  have hu := (CodeLine.update_kindOrNone line hbegun).of_ok hupdate
  exact Entry.SameButUsage.kindOrNone hu (CodeLine.completed_same hopen hundefined hupdate hclose).1

end PluginHelp
