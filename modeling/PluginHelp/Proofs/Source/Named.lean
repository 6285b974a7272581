/-
The names of functions and flags.

Documentation makes an entry one about a function, but it does not name it, and it makes none one
about a flag.  Both take their names from the line of code below the comment.  A flag may be defined
without a proper name, and then it has nothing for a name; a function always has a text.  Where no
line of code tells, an entry about a function is finished only if it is marked as an exception.
-/
import PluginHelp.Proofs.Source.Stranded
import PluginHelp.Proofs.Source.Usages

namespace PluginHelp

open Act

namespace Entry

variable {e t : Entry}

/-- Flags and functions have names. -/
structure Named (e : Entry) : Prop where
  flag : e.isOf .flag = true → e.hasOwn "name" = true
  function : e.isOf .function = true → e.hasOwn "exception" = false →
    ∃ name, e.own? "name" = some (.text name)

/-- What is neither a flag nor a function needs no name from a line of code. -/
theorem named_of_kind {kind : Kind} (hkind : e.kindValue = kind.toValue)
    (hflag : kind.label ≠ Kind.flag.label) (hfunction : kind.label ≠ Kind.function.label) :
    e.Named := by
  refine ⟨fun hyes => ?_, fun hyes => ?_⟩
  · rw [isOf_eq_false hkind hflag] at hyes
    cases hyes
  · rw [isOf_eq_false hkind hfunction] at hyes
    cases hyes

/-- Documentation makes no entry one about a flag. -/
theorem unflagged_kept : Kept (fun e => e.isOf .flag = false) (fun _ => True) where
  new _ := rfl
  own he hown := (isOf_of_own hown _).trans he
  marked e he := by
    unfold Ensures
    rw [setKind_yes]
    exact (isOf_marked e (by decide)).trans he
  kind kind hkind e _ := by
    have hother : ∀ kind ∈ bareKinds, kind.label ≠ Kind.flag.label := by decide
    refine ((setKind_gains kind e).mono fun _ t ht => ?_).allow fun _ _ => trivial
    exact isOf_eq_false ht.kindValue (hother kind hkind)
  control control hcontrol value e he := by
    have hother : ∀ control ∈ docControls, control ≠ "type" := by decide
    refine ((setOwn_ensures control value e).mono ?_).allow fun _ _ => trivial
    rintro _ t rfl
    rw [isOf, kindValue_putOwn_of_ne _ value (hother control hcontrol)]
    exact (isOf_marked e (by decide)).trans he
  dict name e he := by
    refine ((setOwn_ensures "dict" (.text name) e).mono ?_).allow fun _ _ => trivial
    rintro _ t rfl
    rw [isOf, kindValue_putOwn_of_ne _ _ (by decide)]
    exact (isOf_marked e (by decide)).trans he
  sect title id e _ := by
    refine Ensures.bind ((setKind_gains .sect e).allow fun _ _ => trivial) fun _ t ht => ?_
    refine Ensures.bind ((ht.setOwn (by decide) _ (by decide)).allow fun _ _ => trivial) fun _ u hu => ?_
    refine ((hu.setOwn (by decide) _ (by decide)).mono fun _ v hv => ?_).allow fun _ _ => trivial
    exact isOf_eq_false hv.kindValue (by decide)
  setting name e _ := by
    refine Ensures.bind ((setKind_gains .setting e).allow fun _ _ => trivial) fun _ t ht => ?_
    refine ((ht.setOwn (by decide) _ (by decide)).mono fun _ u hu => ?_).allow fun _ _ => trivial
    exact isOf_eq_false hu.kindValue (by decide)
  redundant _ := trivial
  misplaced _ := trivial

end Entry

namespace CodeLine

open Entry

variable {line : CodeLine} {e t : Entry}

/-- What a line of code defines is named by it. -/
theorem completed_named_of_kind {kind : Kind} (hkind : line.kind? = some kind)
    (hopen : e.isClosed = false) (hundefined : e.Undefined) (h : line.completed e = .ok t) :
    t.Named := by
  have hdefines := completed_defines hkind hopen hundefined h
  have hname {name : Value} (hlookup : line.controls.lookup "name" = some name) :
      t.own? "name" = some name := by
    rw [hdefines.own "name" (by decide) (by decide), hlookup, Option.some_or]
  cases line with
  | function name space parameters =>
      obtain rfl := Option.some.inj hkind
      refine ⟨fun hflag => ?_, fun _ _ => ⟨name, hname ?_⟩⟩
      · rw [isOf_eq_false hdefines.kindValue (by decide)] at hflag
        cases hflag
      · cases space <;> rfl
  | command name flags | setting name =>
      obtain rfl := Option.some.inj hkind
      exact named_of_kind hdefines.kindValue (by decide) (by decide)
  | flag name initial =>
      obtain rfl := Option.some.inj hkind
      refine ⟨fun _ => ?_, fun hfunction => ?_⟩
      · rw [hasOwn_eq, hname rfl]
        rfl
      · rw [isOf_eq_false hdefines.kindValue (by decide)] at hfunction
        cases hfunction
  | blank | endOfFile | unrecognized line => cases hkind

/-- Where no line of code tells, no function is finished that needs a name. -/
theorem completed_named_of_none (hkind : line.kind? = none) (hopen : e.isClosed = false)
    (hundefined : e.Undefined) (hflag : e.isOf .flag = false) (h : line.completed e = .ok t) :
    t.Named := by
  obtain ⟨u, before, wasOpen, after, hupdate, hclose⟩ := completed_eq_ok h
  have hsame := (completed_same hopen hundefined hupdate hclose).1
  rw [update_of_none hkind] at hupdate
  obtain ⟨rfl, -, -⟩ := Outcome.mk.inj hupdate
  -- Closing infers no kind but that of a dictionary.
  have hof {kind : Kind} (hlabel : kind.label ≠ Kind.dictionary.label) (hkind : t.isOf kind = true) :
      e.isOf kind = true := by
    rw [hsame.isOf] at hkind
    unfold inferred at hkind
    split at hkind
    · rw [isOf_eq_false (kindValue_putOwn_type _ _) hlabel.symm] at hkind
      cases hkind
    · exact hkind
  refine ⟨fun hyes => ?_, fun hfunction hplain => ?_⟩
  · rw [hof (by decide) hyes] at hflag
    cases hflag
  · have hnone : e.hasOwn "exception" = false := by
      rw [hsame.hasOwn (by decide)] at hplain
      rw [← hplain, hasOwn_eq, hasOwn_eq, own?_inferred e (by decide)]
    have hneeds : e.needsUsage = true := by
      rw [needsUsage, hof (by decide) hfunction, hnone]
      rfl
    rw [completed_stranded hkind hopen hundefined hneeds] at h
    cases h

end CodeLine

/-- The functions and the flags of a file have names. -/
theorem Source.entries_named (file : Option String) (lines : List String) :
    ∀ e ∈ (Source.entries file lines).state, e.Named := by
  intro e he
  obtain ⟨line, begun, hopen, ⟨hundefined, hflag⟩, hcompleted⟩ :=
    Source.entries_completed (Entry.undefined_kept.and Entry.unflagged_kept) file lines e he
  cases hkind : line.kind? with
  | none => exact CodeLine.completed_named_of_none hkind hopen hundefined hflag hcompleted
  | some kind => exact CodeLine.completed_named_of_kind hkind hopen hundefined hcompleted

end PluginHelp
