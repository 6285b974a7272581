/-
When a usage can be worked out.

For that the name of what is documented has to be known, and the parameters if it is a function.  Only
the line of code that defines it gives them.  Once they are there nothing can go wrong; where they are
missing it always does, whatever header there is.
-/
import PluginHelp.Proofs.Entry.Closing
import PluginHelp.Proofs.Entry.Defining

namespace PluginHelp

open Act

namespace Entry

/-- The usage that a header makes once it is laid out. -/
def usageFrom (header : Header) : Act Entry String := do
  let e ← Act.get
  let separator := if e.isOf .function then ", " else " "
  let required ← requiredArguments
  let optional ← optionalArguments
  let name ← Act.ofExcept e.fullName
  match name with
  | .text name =>
    let usage := Header.fillHoles header.usage name separator
      (separator.intercalate
        ((required.filter (!(header.required.map Value.text).contains ·)).map
          fun argument => Header.showRequired argument.shown))
      (separator.intercalate
        ((optional.filter (!header.optional.contains ·)).map Header.showOptional))
    return if e.isOf .command && !Text.beginsWith ":" usage then ":" ++ usage else usage
  | _ => Act.fail .wrongValue

theorem usageOf_eq (header : Header) :
    usageOf header
      = (if header.kind == .usage then layOut header else pure header) >>= usageFrom := by
  unfold usageOf
  split <;> rfl

variable {e t : Entry}

/-- A header with its slots laid out for what the entry is about. -/
def laidOut (e : Entry) (header : Header) : Header :=
  let slots := (Pattern.usageSlot.findTexts header.usage).map Header.normalSlot
  { header with
    usage :=
      if e.isOf .function then "<>(" ++ ", ".intercalate slots ++ ")"
      else ":" ++ ((e.own? "head").getD (.text "<>")).shown ++ " " ++ " ".intercalate slots }

/-- Laying out a header for a function or a command always succeeds. -/
theorem layOut_apply (header : Header) (h : e.isOf .function = true ∨ e.isOf .command = true) :
    layOut header e = ⟨{ e with header := some (e.laidOut header) }, [], .ok (e.laidOut header)⟩ := by
  unfold layOut laidOut
  rw [get_bind_apply]
  dsimp only
  cases hfunction : e.isOf .function with
  | true => rfl
  | false =>
      have hcommand : e.isOf .command = true := by
        rcases h with h | h
        · rw [hfunction] at h
          cases h
        · exact h
      rw [hcommand]
      rfl

/-- A usage is worked out from a header that was laid out. -/
theorem usageOf_apply (header : Header) (h : e.isOf .function = true ∨ e.isOf .command = true) :
    ∃ made t, t.unheaded = e.unheaded ∧ usageOf header e = usageFrom made t := by
  rw [usageOf_eq]
  split
  · refine ⟨e.laidOut header, { e with header := some (e.laidOut header) }, rfl, ?_⟩
    rw [bind_apply_ok _ (layOut_apply header h)]
    rfl
  · exact ⟨header, e, rfl, rfl⟩

/-! ### What is missing -/

/-- Without its parameters a function has no usage. -/
theorem usageFrom_function (header : Header) (hfunction : e.isOf .function = true)
    (hargs : e.own? "args" = none) :
    (usageFrom header e).result = .error { cause := .wrongValue } := by
  have hrequired : requiredArguments e = ⟨e, [], .error { cause := .wrongValue }⟩ := by
    have hnone : e.namedParameters = .error .wrongValue := by
      rw [namedParameters, ownD, hargs]
      rfl
    unfold requiredArguments
    rw [get_bind_apply]
    dsimp only
    rw [hfunction, hnone]
    rfl
  unfold usageFrom
  rw [get_bind_apply]
  dsimp only
  rw [bind_apply_error _ hrequired]

/-- The arguments of a command are those that the text mentions. -/
theorem requiredArguments_of_command (hcommand : e.isOf .command = true) :
    requiredArguments e = ⟨e, [], .ok (e.required.map Value.text)⟩ := by
  unfold requiredArguments
  rw [get_bind_apply]
  dsimp only
  rw [isOf_eq_false (isOf_iff.mp hcommand) (by decide)]
  rfl

theorem optionalArguments_of_command (hcommand : e.isOf .command = true) :
    optionalArguments e = ⟨e, [], .ok e.optional⟩ := by
  unfold optionalArguments
  rw [get_bind_apply, isOf_eq_false (isOf_iff.mp hcommand) (by decide)]
  rfl

/-- Without its name a command has no usage. -/
theorem usageFrom_command (header : Header) (hcommand : e.isOf .command = true)
    (hname : e.own? "name" = none) :
    (usageFrom header e).result = .error { cause := .missing "Unnamed block." } := by
  have hno {other : Kind} (hne : Kind.command.label ≠ other.label) : e.isOf other = false :=
    isOf_eq_false (isOf_iff.mp hcommand) hne
  have hfull : e.fullName = .error (.missing "Unnamed block.") := by
    rw [fullName, hno (by decide), localName, hno (by decide), hname]
    rfl
  unfold usageFrom
  rw [get_bind_apply]
  dsimp only
  rw [bind_apply_ok _ (requiredArguments_of_command hcommand),
    bind_apply_ok _ (optionalArguments_of_command hcommand), hfull]
  rfl

/-! ### What suffices -/

/-- An entry that knows what it is about: its full name, and the parameters of a function. -/
structure Described (e : Entry) : Prop where
  name : ∃ name, e.fullName = .ok (.text name)
  parameters : e.isOf .function = true → ∃ parameters, e.own? "args" = some (.texts parameters)

theorem Described.of_own (h : e.Described) (hown : t.own = e.own) : t.Described := by
  rcases e with ⟨own⟩
  rcases t with ⟨other⟩
  obtain rfl : other = own := hown
  exact ⟨h.name, h.parameters⟩

theorem requiredArguments_succeeds (h : e.Described) :
    Ensures requiredArguments e (fun _ t => t = e) (fun _ => False) := by
  unfold requiredArguments
  refine Ensures.get_bind ?_
  dsimp only
  refine Ensures.ite (fun hfunction => ?_) fun _ => Ensures.pure rfl
  obtain ⟨parameters, hargs⟩ := h.parameters hfunction
  have hnamed : e.namedParameters = .ok ((parameters.map Value.text).filter
      (· != .text furtherParameters)) := by
    rw [namedParameters, ownD, hargs]
    rfl
  rw [hnamed, ofExcept_ok_bind]
  have hkeys : ((parameters.map Value.text).filter (· != .text furtherParameters)).all (·.isKey)
      = true := by
    rw [List.all_eq_true]
    intro value hvalue
    obtain ⟨text, -, rfl⟩ := List.mem_map.mp (List.mem_of_mem_filter hvalue)
    rfl
  refine Ensures.ite (fun _ => Ensures.pure rfl) fun _ => ?_
  rw [hkeys, if_neg (by decide)]
  refine Ensures.ite (fun _ => Ensures.pure rfl) fun _ => ?_
  exact Ensures.ite (fun _ => Ensures.warn_bind (Ensures.pure rfl)) fun _ => Ensures.pure rfl

theorem optionalArguments_succeeds (h : e.Described) :
    Ensures optionalArguments e (fun _ t => t = e) (fun _ => False) := by
  unfold optionalArguments
  refine Ensures.get_bind (Ensures.ite (fun hsome => ?_) fun _ => Ensures.pure rfl)
  obtain ⟨parameters, hargs⟩ := h.parameters (Bool.and_eq_true_iff.mp hsome).1
  obtain ⟨name, hname⟩ := h.name
  have hmore : e.takesMore
      = .ok ((parameters.map Value.text).contains (.text furtherParameters)) := by
    rw [takesMore, ownD, hargs]
    rfl
  rw [hmore, ofExcept_ok_bind, hname, ofExcept_ok_bind]
  exact Ensures.ite (fun _ => Ensures.pure rfl) fun _ => Ensures.warn_bind (Ensures.pure rfl)

theorem usageFrom_succeeds (header : Header) (h : e.Described) :
    Ensures (usageFrom header) e (fun _ _ => True) (fun _ => False) := by
  obtain ⟨name, hname⟩ := h.name
  unfold usageFrom
  refine Ensures.get_bind ?_
  refine Ensures.bind (requiredArguments_succeeds h) fun required t ht => ?_
  subst ht
  refine Ensures.bind (optionalArguments_succeeds h) fun optional u hu => ?_
  rw [hname, ofExcept_ok_bind]
  exact Ensures.pure trivial

/-! ### Closing -/

theorem isOf_inferred (e : Entry) {kind : Kind} (h : Kind.dictionary.label ≠ kind.label) :
    e.inferred.isOf kind = e.isOf kind := by
  unfold inferred
  split
  · rename_i hcond
    have hyes := kindValue_of_isYes (Bool.and_eq_true_iff.mp hcond).1
    rw [isOf_eq_false (kindValue_putOwn_type e _) h]
    symm
    rw [← Bool.not_eq_true, isOf_iff, hyes]
    intro heq
    cases heq
  · rfl

theorem needsUsage_inferred (e : Entry) : e.shut.inferred.needsUsage = e.needsUsage := by
  rw [needsUsage, isOf_inferred _ (by decide), isOf_inferred _ (by decide), hasOwn_eq,
    own?_inferred e (by decide)]
  rfl

/-- What needs a usage has its kind. -/
theorem inferred_of_needsUsage (h : e.needsUsage = true) : e.inferred = e := by
  have hof := Bool.or_eq_true_iff.mp (Bool.and_eq_true_iff.mp h).1
  rw [isOf_iff, isOf_iff] at hof
  unfold inferred
  rw [if_neg]
  intro hcond
  rw [kindValue_of_isYes (Bool.and_eq_true_iff.mp hcond).1] at hof
  rcases hof with hof | hof <;> cases hof

/-- What a usage is worked out from says the same as the entry does. -/
theorem settleUsage_apply (h : e.needsUsage = true) :
    ∃ made t, t.own = e.own ∧
      (settleUsage e).result = (usageFrom made t).result.map fun _ => () := by
  have hof := Bool.or_eq_true_iff.mp (Bool.and_eq_true_iff.mp h).1
  -- The header is given or a plain one; either way nothing but the header is touched before.
  have hput (s : Entry) (header : Header) (hs : s.own = e.own)
      (hof : s.isOf .function = true ∨ s.isOf .command = true) :
      ∃ made t, t.own = e.own ∧
        ((do
          let usage ← usageOf header
          Act.modify (·.putOwn "usage" (.text usage))) s).result
        = (usageFrom made t).result.map fun _ => () := by
    obtain ⟨made, t, ht, husage⟩ := usageOf_apply header hof
    refine ⟨made, t, (congrArg own ht).trans hs, ?_⟩
    rcases hrun : usageFrom made t with ⟨u, warnings, fault | usage⟩
    · rw [bind_apply_error _ (husage.trans hrun)]
      rfl
    · rw [bind_apply_ok _ (husage.trans hrun)]
      rfl
  rw [needsUsage] at h
  unfold settleUsage
  rw [get_bind_apply, h, if_pos rfl]
  dsimp only
  split
  · rw [modify_bind_apply]
    exact hput _ _ rfl hof
  · exact hput _ _ rfl hof

/-- Whether a mark stands on an entry that only a function may have. -/
def misplacesPrivate (e : Entry) : Bool :=
  e.hasOwn "private" && !e.isOf .function

theorem settleUsage_of_no_usage (hneeds : e.needsUsage = false) :
    settleUsage e.shut.inferred = ⟨e.shut.inferred, [], .ok ()⟩ := by
  have hcond := needsUsage_inferred e
  rw [hneeds, needsUsage] at hcond
  unfold settleUsage
  rw [get_bind_apply, hcond]
  rfl

/-- An entry that needs no usage is closed unless it must not be private. -/
theorem close_of_no_usage (hopen : e.isClosed = false) (hneeds : e.needsUsage = false) :
    (close e).result = if e.misplacesPrivate then
      .error { cause := .invalidEntry "Only functions may be marked as private." } else .ok true := by
  have hnone := settleUsage_of_no_usage hneeds
  have hprivate : e.shut.inferred.misplacesPrivate = e.misplacesPrivate := by
    rw [misplacesPrivate, isOf_inferred _ (by decide), hasOwn_eq, own?_inferred e (by decide)]
    rfl
  rw [close_apply hopen, bind_apply_ok _ hnone, ← hprivate, misplacesPrivate]
  unfold checkPrivate
  rw [get_bind_apply]
  split <;> rfl

theorem checkPrivate_ensures (e : Entry) :
    Ensures checkPrivate e (fun _ _ => True) (·.isForeseen = true) := by
  unfold checkPrivate
  exact Ensures.get_bind (Ensures.ite (fun _ => Ensures.fail_bind rfl) fun _ => Ensures.pure trivial)

/-- An entry that knows what it is about is closed, or its fault is foreseen. -/
theorem close_foreseen (hopen : e.isClosed = false) (h : e.needsUsage = true → e.Described) :
    Ensures close e (fun _ _ => True) (·.isForeseen = true) := by
  cases hneeds : e.needsUsage with
  | false =>
      unfold Ensures
      rw [close_of_no_usage hopen hneeds]
      cases e.misplacesPrivate with
      | true => rfl
      | false => trivial
  | true =>
      have hshut : e.shut.inferred = e.shut := inferred_of_needsUsage hneeds
      obtain ⟨made, t, hown, hresult⟩ := settleUsage_apply (show e.shut.needsUsage = true from hneeds)
      have hsettle : Ensures settleUsage e.shut (fun _ _ => True) (·.isForeseen = true) := by
        have hmade := usageFrom_succeeds made ((h hneeds).of_own hown)
        unfold Ensures at hmade ⊢
        rw [hresult]
        cases husage : (usageFrom made t).result with
        | error fault =>
            rw [husage] at hmade
            exact hmade.elim
        | ok usage => trivial
      have hclose := Ensures.bind hsettle fun _ u _ => checkPrivate_ensures u
      unfold Ensures at hclose ⊢
      rw [close_apply hopen, hshut]
      exact hclose

/-- What goes wrong where a usage has to do without a line of code. -/
def strandedCause (e : Entry) : Cause :=
  if e.isOf .function then .wrongValue else .missing "Unnamed block."

/-- An entry that needs a usage, but that only documentation has spoken about, cannot be closed. -/
theorem close_stranded (hopen : e.isClosed = false) (hundefined : e.Undefined)
    (hneeds : e.needsUsage = true) : (close e).result = .error { cause := e.strandedCause } := by
  have hshut : e.shut.inferred = e.shut := inferred_of_needsUsage hneeds
  obtain ⟨made, t, hown, hresult⟩ := settleUsage_apply (show e.shut.needsUsage = true from hneeds)
  have hundefined : t.Undefined := hundefined.of_own hown
  have hof (kind : Kind) : t.isOf kind = e.isOf kind := isOf_of_own hown kind
  have husage : (usageFrom made t).result = .error { cause := e.strandedCause } := by
    unfold strandedCause
    cases hfunction : e.isOf .function with
    | true =>
        have hargs := hundefined.absent "args" (by decide)
        exact usageFrom_function made ((hof _).trans hfunction) hargs
    | false =>
        have hcommand : t.isOf .command = true := by
          rw [needsUsage, hfunction, Bool.false_or, Bool.and_eq_true_iff] at hneeds
          exact (hof _).trans hneeds.1
        have hno {other : Kind} (hne : Kind.command.label ≠ other.label) : t.isOf other = false :=
          isOf_eq_false (isOf_iff.mp hcommand) hne
        refine usageFrom_command made hcommand ?_
        rcases hundefined.unnamed with hname | hsect | hsetting
        · exact hname
        · rw [hno (by decide)] at hsect
          cases hsect
        · rw [hno (by decide)] at hsetting
          cases hsetting
  rw [husage] at hresult
  rw [close_apply hopen, hshut]
  rcases hsettle : settleUsage e.shut with ⟨u, warnings, fault | a⟩
  · rw [hsettle] at hresult
    rw [bind_apply_error _ hsettle]
    exact congrArg Except.error (Except.error.inj hresult)
  · rw [hsettle] at hresult
    cases hresult

end Entry

open Entry

/-- What a line of code defines knows what it is about. -/
theorem CodeLine.described_of_gains {line : CodeLine} {kind : Kind} {e t : Entry}
    (hkind : line.kind? = some kind) (hundefined : e.Undefined) (h : Gains kind line.controls e t)
    (hneeds : t.needsUsage = true) : t.Described := by
  have hof {other : Kind} (hne : kind.label ≠ other.label) : t.isOf other = false :=
    isOf_eq_false h.kindValue hne
  have hexception : t.own? "exception" = none := by
    have hnone := (Bool.and_eq_true_iff.mp hneeds).2
    rw [hasOwn_eq] at hnone
    simpa using hnone
  cases line with
  | function name space parameters =>
      obtain rfl : Kind.function = kind := Option.some.inj hkind
      have hname : t.own? "name" = some (.text name) := by
        rw [h.own _ (by decide)]
        cases space <;> rfl
      have hspace : ∃ space, (t.own? "namespace").getD (.text "") = .text space := by
        rw [h.own _ (by decide), hundefined.absent _ (by decide)]
        cases space with
        | none => exact ⟨_, rfl⟩
        | some space => exact ⟨_, rfl⟩
      refine ⟨?_, fun _ => ⟨parameters, ?_⟩⟩
      · have hfunction := isOf_iff.mpr h.kindValue
        cases hdict : t.own? "dict" with
        | none =>
            obtain ⟨space, hspace⟩ := hspace
            rw [fullName_of_free hfunction hname hdict hexception, hspace]
            exact ⟨_, rfl⟩
        | some dictionary =>
            rw [fullName_of_member hfunction hname hdict]
            exact ⟨_, rfl⟩
      · rw [h.own _ (by decide)]
        cases space <;> rfl
  | command name flags =>
      obtain rfl : Kind.command = kind := Option.some.inj hkind
      have hname : t.own? "name" = some (.text name) := h.own _ (by decide)
      refine ⟨⟨name, fullName_of_command (isOf_iff.mpr h.kindValue) hname⟩, fun hfunction => ?_⟩
      rw [hof (by decide)] at hfunction
      cases hfunction
  | setting name =>
      obtain rfl : Kind.setting = kind := Option.some.inj hkind
      rw [needsUsage, hof (by decide), hof (by decide)] at hneeds
      cases hneeds
  | flag name initial =>
      obtain rfl : Kind.flag = kind := Option.some.inj hkind
      rw [needsUsage, hof (by decide), hof (by decide)] at hneeds
      cases hneeds
  | blank | endOfFile | unrecognized line => cases hkind

end PluginHelp
