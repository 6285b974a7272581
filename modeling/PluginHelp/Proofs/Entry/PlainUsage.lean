/-
Closing a function or a command with a plain header.

A plain header is one that lists slots, or the one that an entry without a header gets.  Its usage is
worked out from the name and from the arguments that are known: those that the text mentions, and
for a function those of its signature.
-/
import PluginHelp.Proofs.Entry.Usage
import PluginHelp.Proofs.Entry.UsageLine

namespace PluginHelp.Entry

open Act Header Pattern

variable {e : Entry} {header : Header} {required optional parameters : List String} {name : String}

/-! ### The arguments of a function -/

/-- The parameters of a signature that have names. -/
def named (parameters : List String) : List String :=
  parameters.filter (· != furtherParameters)

/-- The required arguments of a function: its parameters, unless the text mentions others. -/
def inferredRequired (e : Entry) (parameters : List String) : List String :=
  if e.required.all (named parameters).contains then named parameters else e.required

/-- The optional arguments of a function: those that the text mentions, if there is room for them. -/
def inferredOptional (e : Entry) (parameters : List String) : List String :=
  if parameters.contains furtherParameters then e.optional else []

/-- The warning about required arguments that are neither parameters nor as many as these. -/
def requiredWarnings (e : Entry) (parameters : List String) : List Warning :=
  if e.required.all (named parameters).contains || e.required.length == (named parameters).length then
    []
  else
    [.argumentMismatch ((named parameters).map Value.text) e.required]

/-- The warning about optional arguments that there is no room for. -/
def optionalWarnings (e : Entry) (parameters : List String) (name : String) : List Warning :=
  if e.optional.isEmpty || parameters.contains furtherParameters then []
  else [.unacceptedOptionals name]

theorem namedParameters_eq (hargs : e.own? "args" = some (.texts parameters)) :
    e.namedParameters = .ok ((named parameters).map Value.text) := by
  have hkept : (parameters.map Value.text).filter (· != .text furtherParameters)
      = (named parameters).map Value.text := by
    rw [List.filter_map, named]
    refine congrArg (List.map Value.text) (List.filter_congr fun parameter _ => ?_)
    have hsame : (Value.text parameter == .text furtherParameters)
        = (parameter == furtherParameters) := by
      rw [Bool.eq_iff_iff]
      simp [Value.beq_text_iff]
    exact congrArg not hsame
  rw [namedParameters, ownD, hargs, ← hkept]
  rfl

theorem requiredArguments_of_function (hfunction : e.isOf .function = true)
    (hargs : e.own? "args" = some (.texts parameters)) :
    requiredArguments e = ⟨e, e.requiredWarnings parameters,
      .ok ((e.inferredRequired parameters).map Value.text)⟩ := by
  have hkeys : ((named parameters).map Value.text).all (·.isKey) = true := by
    simp [Value.isKey]
  have hall : (e.required.map Value.text).all ((named parameters).map Value.text).contains
      = e.required.all (named parameters).contains := by
    rw [List.all_map]
    simp only [Function.comp_def, contains_map_text]
  unfold requiredArguments requiredWarnings inferredRequired
  rw [get_bind_apply]
  dsimp only
  rw [hfunction, if_pos rfl, namedParameters_eq hargs, ofExcept_ok_bind, hkeys, hall,
    List.length_map]
  cases hnone : e.required.isEmpty with
  | true =>
      rw [List.isEmpty_iff.mp hnone]
      rfl
  | false =>
      cases hsubset : e.required.all (named parameters).contains with
      | true => rfl
      | false =>
          rw [bne]
          cases e.required.length == (named parameters).length <;> rfl

theorem optionalArguments_of_function (hfunction : e.isOf .function = true)
    (hargs : e.own? "args" = some (.texts parameters)) (hname : e.fullName = .ok (.text name)) :
    optionalArguments e = ⟨e, e.optionalWarnings parameters name,
      .ok (e.inferredOptional parameters)⟩ := by
  have hmore : e.takesMore = .ok (parameters.contains furtherParameters) := by
    rw [takesMore, ownD, hargs, ← contains_map_text]
    rfl
  unfold optionalArguments optionalWarnings inferredOptional
  rw [get_bind_apply, hfunction, hmore, ofExcept_ok_bind, hname]
  cases hnone : e.optional.isEmpty with
  | true =>
      simp [List.isEmpty_iff.mp hnone]
  | false =>
      cases parameters.contains furtherParameters with
      | true => rfl
      | false => rfl

/-! ### Working out a usage -/

/-- A usage whose arguments and whose name are known. -/
theorem usageFrom_apply {before after : List Warning} {separator usage : String}
    (hrequired : requiredArguments e = ⟨e, before, .ok (required.map Value.text)⟩)
    (hoptional : optionalArguments e = ⟨e, after, .ok optional⟩)
    (hname : e.fullName = .ok (.text name))
    (hseparator : (if e.isOf .function then ", " else " ") = separator)
    (husage : fillHoles header.usage name separator
        (separator.intercalate (header.remainingRequired required))
        (separator.intercalate (header.remainingOptional optional)) = usage) :
    usageFrom header e = ⟨e, before ++ after,
      .ok (if e.isOf .command && !Text.beginsWith ":" usage then ":" ++ usage else usage)⟩ := by
  unfold usageFrom
  rw [get_bind_apply]
  dsimp only
  rw [bind_apply_ok _ hrequired, bind_apply_ok _ hoptional, hname, ofExcept_ok_bind]
  dsimp only
  rw [hseparator, map_filter_text, ← remainingOptional, husage]
  simp

/-- What the text mentions as arguments has the form of arguments. -/
structure Mentioned (e : Entry) : Prop where
  required : ∀ word ∈ e.required, IsArgument word.toList
  optional : ∀ word ∈ e.optional, IsMention word.toList

theorem isArgument_inferredRequired (h : e.Mentioned)
    (hparameters : ∀ word ∈ parameters, IsArgument word.toList) :
    ∀ word ∈ e.inferredRequired parameters, IsArgument word.toList := by
  unfold inferredRequired
  split
  · exact fun word hword => hparameters word (List.mem_of_mem_filter hword)
  · exact h.required

theorem isMention_inferredOptional (h : e.Mentioned) (parameters : List String) :
    ∀ word ∈ e.inferredOptional parameters, IsMention word.toList := by
  unfold inferredOptional
  split
  · exact h.optional
  · simp

/-- The usage of a function that a plain header makes. -/
theorem usageFrom_laidOut_function (header : Header) (hfunction : e.isOf .function = true)
    (hargs : e.own? "args" = some (.texts parameters)) (hname : e.fullName = .ok (.text name))
    (hverbatim : Verbatim name) (hmentioned : e.Mentioned)
    (hparameters : ∀ word ∈ parameters, IsArgument word.toList) :
    usageFrom (e.laidOut header) e
      = ⟨e, e.requiredWarnings parameters ++ e.optionalWarnings parameters name,
        .ok (name ++ "(" ++ parenthesized (header.remainingRequired (e.inferredRequired parameters))
          (header.remainingOptional (e.inferredOptional parameters)) (slots header.usage) ++ ")")⟩ := by
  have hcommand : e.isOf .command = false := isOf_eq_false (isOf_iff.mp hfunction) (by decide)
  have hlaid : (e.laidOut header).usage = "<>(" ++ ", ".intercalate (slots header.usage) ++ ")" := by
    rw [laidOut, hfunction]
    rfl
  have hfilled := fillHoles_function
    (isWord_remainingRequired header (isArgument_inferredRequired hmentioned hparameters))
    (isWord_remainingOptional header (isMention_inferredOptional hmentioned parameters))
    (isSlot_slots header.usage) hverbatim
  rw [usageFrom_apply (requiredArguments_of_function hfunction hargs)
    (optionalArguments_of_function hfunction hargs hname) hname (if_pos hfunction)
    (hlaid ▸ hfilled), hcommand]
  rfl

/-- The usage of a command that a plain header makes. -/
theorem usageFrom_laidOut_command (header : Header) (flags : CommandFlags)
    (hcommand : e.isOf .command = true)
    (hhead : e.own? "head" = some (.text flags.head)) (hname : e.fullName = .ok (.text name))
    (hverbatim : Verbatim name) (hmentioned : e.Mentioned) :
    usageFrom (e.laidOut header) e
      = ⟨e, [], .ok (flags.usage name (arguments (header.remainingRequired e.required)
          (header.remainingOptional e.optional) (slots header.usage))
        ++ if (slots header.usage).isEmpty || endsEmpty (header.remainingRequired e.required)
          (header.remainingOptional e.optional) (slots header.usage) then " " else "")⟩ := by
  have hfunction : e.isOf .function = false := isOf_eq_false (isOf_iff.mp hcommand) (by decide)
  have hlaid : (e.laidOut header).usage
      = ":" ++ flags.head ++ " " ++ " ".intercalate (slots header.usage) := by
    rw [laidOut, hfunction, hhead]
    rfl
  have hfilled := fillHoles_command flags (isWord_remainingRequired header hmentioned.required)
    (isWord_remainingOptional header hmentioned.optional)
    (isSlot_slots header.usage) hverbatim
  have hcolon (arguments : List String) (pad : String) :
      Text.beginsWith ":" (flags.usage name arguments ++ pad) = true := by
    simp [Text.beginsWith, CommandFlags.usage]
  rw [usageFrom_apply (requiredArguments_of_command hcommand)
    (optionalArguments_of_command hcommand) hname (if_neg (by simp [hfunction]))
    (hlaid ▸ hfilled), hcolon, hcommand]
  rfl

/-- The entry with a header, or without one. -/
def headed (e : Entry) (header : Option Header) : Entry :=
  { e with header }

/-- Working out the usage that a plain header makes leaves the header laid out. -/
theorem settleUsage_of_plain {warnings : List Warning} {usage : String} (hneeds : e.needsUsage = true)
    (hheader : e.header.getD plainHeader = header) (hkind : header.kind = .usage)
    (husage : ∀ given, usageFrom (e.laidOut header) (e.headed given)
      = ⟨e.headed given, warnings, .ok usage⟩) :
    settleUsage e = ⟨(e.headed (some (e.laidOut header))).putOwn "usage" (.text usage), warnings,
      .ok ()⟩ := by
  have hof := Bool.or_eq_true_iff.mp (Bool.and_eq_true_iff.mp hneeds).1
  have hmade (given : Option Header) : usageOf header (e.headed given)
      = ⟨e.headed (some (e.laidOut header)), warnings, .ok usage⟩ := by
    have hlaid : layOut header (e.headed given)
        = ⟨e.headed (some (e.laidOut header)), [], .ok (e.laidOut header)⟩ :=
      layOut_apply header hof
    rw [usageOf_eq, hkind, if_pos (by rfl), bind_apply_ok _ hlaid, husage, List.nil_append]
  have hput (given : Option Header) :
      (usageOf header >>= fun usage => Act.modify (·.putOwn "usage" (.text usage))) (e.headed given)
        = ⟨(e.headed (some (e.laidOut header))).putOwn "usage" (.text usage), warnings, .ok ()⟩ := by
    rw [bind_apply_ok _ (hmade given)]
    simp [Act.modify]
  rw [needsUsage] at hneeds
  unfold settleUsage
  rw [get_bind_apply, hneeds, if_pos rfl, hheader]
  dsimp only
  split
  · rw [modify_bind_apply]
    exact hput (some plainHeader)
  · exact hput e.header

/-- Closing an entry with a plain header. -/
theorem close_of_plain {warnings : List Warning} {usage : String} (hopen : e.isClosed = false)
    (hneeds : e.needsUsage = true) (hheader : e.header.getD plainHeader = header)
    (hkind : header.kind = .usage)
    (husage : ∀ given, usageFrom (e.laidOut header) (e.shut.headed given)
      = ⟨e.shut.headed given, warnings, .ok usage⟩) :
    (close e).state.own? "usage" = some (.text usage) ∧ (close e).warnings = warnings
      ∧ (close e).result = if e.misplacesPrivate then
        .error { cause := .invalidEntry "Only functions may be marked as private." } else .ok true := by
  have hshut : e.shut.inferred = e.shut := inferred_of_needsUsage hneeds
  have hsettled := settleUsage_of_plain (e := e.shut) hneeds hheader hkind husage
  rw [close_apply hopen, hshut, bind_apply_ok _ hsettled]
  generalize hmade : (e.shut.headed (some (e.shut.laidOut header))).putOwn "usage" (.text usage) = t
  have hsame : SameButUsage e.shut t := by
    have hheaded : SameButUsage e.shut (e.shut.headed (some (e.shut.laidOut header))) :=
      sameButUsage_of_unheaded rfl
    rw [← hmade]
    exact hheaded.putUsage _
  have hprivate : (t.hasOwn "private" && !t.isOf .function) = e.misplacesPrivate := by
    rw [hsame.hasOwn (by decide), hsame.isOf]
    rfl
  have husage : t.own? "usage" = some (.text usage) := by
    rw [← hmade]
    exact own?_putOwn_self _ _ _
  unfold checkPrivate
  rw [get_bind_apply, hprivate]
  cases e.misplacesPrivate with
  | true => exact ⟨husage, List.append_nil _, rfl⟩
  | false => exact ⟨husage, List.append_nil _, rfl⟩

/-- Closing an entry that needs no usage leaves it without. -/
theorem close_keeps_usage (hopen : e.isClosed = false) (hneeds : e.needsUsage = false) :
    (close e).state.own? "usage" = e.own? "usage" ∧ (close e).warnings = [] := by
  rw [close_apply hopen, bind_apply_ok _ (settleUsage_of_no_usage hneeds)]
  unfold checkPrivate
  rw [get_bind_apply]
  split
  · exact ⟨own?_inferred e (by decide), rfl⟩
  · exact ⟨own?_inferred e (by decide), rfl⟩

/-- Closing a function with a plain header gives it its usage. -/
theorem close_function (hopen : e.isClosed = false) (hneeds : e.needsUsage = true)
    (hfunction : e.isOf .function = true) (hname : e.fullName = .ok (.text name))
    (hverbatim : Verbatim name) (hargs : e.own? "args" = some (.texts parameters))
    (hparameters : ∀ word ∈ parameters, IsArgument word.toList) (hmentioned : e.Mentioned)
    (hheader : e.header.getD plainHeader = header) (hkind : header.kind = .usage) :
    (close e).state.own? "usage" = some (.text (name ++ "("
        ++ parenthesized (header.remainingRequired (e.inferredRequired parameters))
          (header.remainingOptional (e.inferredOptional parameters)) (slots header.usage) ++ ")"))
      ∧ (close e).warnings = e.requiredWarnings parameters ++ e.optionalWarnings parameters name
      ∧ (close e).result = .ok true := by
  have hprivate : e.misplacesPrivate = false := by
    rw [misplacesPrivate, hfunction, Bool.not_true, Bool.and_false]
  have hline (given : Option Header) : usageFrom (e.laidOut header) (e.shut.headed given)
      = ⟨e.shut.headed given, e.requiredWarnings parameters ++ e.optionalWarnings parameters name,
        .ok (name ++ "(" ++ parenthesized (header.remainingRequired (e.inferredRequired parameters))
          (header.remainingOptional (e.inferredOptional parameters)) (slots header.usage) ++ ")")⟩ :=
    usageFrom_laidOut_function header hfunction hargs hname hverbatim
      ⟨hmentioned.required, hmentioned.optional⟩ hparameters
  obtain ⟨husage, hwarnings, hresult⟩ := close_of_plain hopen hneeds hheader hkind hline
  rw [hprivate] at hresult
  exact ⟨husage, hwarnings, hresult⟩

/-! ### Commands -/

/-- Closing a command with a plain header gives it its usage. -/
theorem close_command (flags : CommandFlags) (hopen : e.isClosed = false)
    (hneeds : e.needsUsage = true) (hcommand : e.isOf .command = true)
    (hname : e.own? "name" = some (.text name)) (hverbatim : Verbatim name)
    (hhead : e.own? "head" = some (.text flags.head)) (hmentioned : e.Mentioned)
    (hheader : e.header.getD plainHeader = header) (hkind : header.kind = .usage) :
    (close e).state.own? "usage" = some (.text (flags.usage name
        (arguments (header.remainingRequired e.required) (header.remainingOptional e.optional)
          (slots header.usage))
        ++ if (slots header.usage).isEmpty || endsEmpty (header.remainingRequired e.required)
          (header.remainingOptional e.optional) (slots header.usage) then " " else ""))
      ∧ (close e).warnings = []
      ∧ (close e).result = if e.misplacesPrivate then
        .error { cause := .invalidEntry "Only functions may be marked as private." } else .ok true := by
  refine close_of_plain hopen hneeds hheader hkind fun given => ?_
  exact usageFrom_laidOut_command header flags hcommand hhead
    (fullName_of_command hcommand hname) hverbatim ⟨hmentioned.required, hmentioned.optional⟩

/-- Closing a command that is not marked as an exception gives it its usage: its head with its name,
and after a space each the arguments of the slots.  A last slot without arguments leaves a space at the
end.  A command that is marked as an exception gets no usage.  Either way nobody is warned, and only a
mark that commands must not have is refused. -/
theorem close_command_usage (flags : CommandFlags) (hopen : e.isClosed = false)
    (hcommand : e.isOf .command = true) (hname : e.own? "name" = some (.text name))
    (hverbatim : Verbatim name) (hhead : e.own? "head" = some (.text flags.head))
    (hmentioned : e.Mentioned) (hheader : e.header.getD plainHeader = header)
    (hkind : header.kind = .usage) :
    let required := header.remainingRequired e.required
    let optional := header.remainingOptional e.optional
    let slots := slots header.usage
    (close e).state.own? "usage" = (if e.hasOwn "exception" then e.own? "usage" else
        some (.text (flags.usage name (arguments required optional slots)
          ++ if slots.isEmpty || endsEmpty required optional slots then " " else "")))
      ∧ (close e).warnings = []
      ∧ (close e).result = if e.hasOwn "private" then
        .error { cause := .invalidEntry "Only functions may be marked as private." } else .ok true := by
  have hprivate : e.misplacesPrivate = e.hasOwn "private" := by
    rw [misplacesPrivate, isOf_eq_false (isOf_iff.mp hcommand) (by decide), Bool.not_false,
      Bool.and_true]
  have hneeds : e.needsUsage = !e.hasOwn "exception" := by
    rw [needsUsage, hcommand, Bool.or_true, Bool.true_and]
  intro required optional slots
  rw [← hprivate]
  cases hexception : e.hasOwn "exception" with
  | true =>
      rw [hexception, Bool.not_true] at hneeds
      obtain ⟨husage, hwarnings⟩ := close_keeps_usage hopen hneeds
      exact ⟨husage, hwarnings, close_of_no_usage hopen hneeds⟩
  | false =>
      rw [hexception, Bool.not_false] at hneeds
      exact close_command flags hopen hneeds hcommand hname hverbatim hhead hmentioned hheader hkind

/-- A command that closing gives a usage. -/
def shoutCommand : Entry where
  own := [("type", .text "COMMAND"), ("name", .text "Shout"), ("head", .text "[range]<>[!]")]
  header := some (.ofUsage .usage "{word} {} []")
  required := ["word", "tone"]

theorem close_command_usage_shout :
    (close shoutCommand).state.own? "usage"
      = some (.text ":[range]Shout[!] {word} {tone} ") := by
  have hname : shoutCommand.own? "name" = some (.text "Shout") := by decide
  have hmentioned : shoutCommand.Mentioned := ⟨by decide +kernel, by simp [shoutCommand]⟩
  have hclosed := close_command_usage ⟨true, true, false, false, false, false⟩ (by decide) (by decide)
    hname (by simp [Verbatim]) (by decide) hmentioned rfl rfl
  exact hclosed.1.trans (by decide +kernel)

/-! ### Functions -/

/-- Closing a function that is not marked as an exception gives it its usage: its full name, and the
slots of its header in parentheses.  That is the same as the arguments that the slots stand for, with
separators between them, exactly if nothing is left of the holes: a first hole for required or for
optional arguments is not filled, and a separator stays next to a first or a last slot without
arguments.  A function that is marked as an exception gets no usage. -/
theorem close_function_usage (hopen : e.isClosed = false) (hfunction : e.isOf .function = true)
    (hname : e.fullName = .ok (.text name)) (hverbatim : Verbatim name)
    (hargs : e.own? "args" = some (.texts parameters))
    (hparameters : ∀ word ∈ parameters, IsArgument word.toList) (hmentioned : e.Mentioned)
    (hheader : e.header = some header) (hkind : header.kind = .usage) :
    let required := header.remainingRequired (e.inferredRequired parameters)
    let optional := header.remainingOptional (e.inferredOptional parameters)
    let slots := slots header.usage
    (close e).state.own? "usage" = (if e.hasOwn "exception" then e.own? "usage" else
        some (.text (name ++ "(" ++ parenthesized required optional slots ++ ")")))
      ∧ (parenthesized required optional slots = ", ".intercalate (arguments required optional slots)
        ↔ leavesNothing required optional slots = true)
      ∧ (close e).result = .ok true := by
  have hprivate : e.misplacesPrivate = false := by
    rw [misplacesPrivate, hfunction, Bool.not_true, Bool.and_false]
  have hneeds : e.needsUsage = !e.hasOwn "exception" := by
    rw [needsUsage, hfunction, Bool.true_or, Bool.true_and]
  intro required optional slots
  have hleft := parenthesized_eq_iff
    (isWord_remainingRequired header (isArgument_inferredRequired hmentioned hparameters))
    (isWord_remainingOptional header (isMention_inferredOptional hmentioned parameters))
    (isSlot_slots header.usage)
  cases hexception : e.hasOwn "exception" with
  | true =>
      rw [hexception, Bool.not_true] at hneeds
      have hresult := close_of_no_usage hopen hneeds
      rw [hprivate] at hresult
      exact ⟨(close_keeps_usage hopen hneeds).1, hleft, hresult⟩
  | false =>
      rw [hexception, Bool.not_false] at hneeds
      obtain ⟨husage, -, hresult⟩ := close_function hopen hneeds hfunction hname hverbatim hargs
        hparameters hmentioned (hheader ▸ rfl) hkind
      exact ⟨husage, hleft, hresult⟩

/-- A function whose header begins with a hole for required arguments. -/
def joinFunction : Entry where
  own := [("type", .text "FUNCTION"), ("namespace", .text "demo#"), ("name", .text "Join"),
    ("args", .texts ["first", "..."])]
  header := some (.ofUsage .usage "{} sep []")
  optional := ["sep", "last"]

/-- The first hole is left as it is, though there is an argument for it. -/
theorem close_function_usage_join :
    (close joinFunction).state.own? "usage"
        = some (.text "demo#Join({}, {sep}, [sep], [last])")
      ∧ (close joinFunction).result = .ok true := by
  have hoptional : ∀ word ∈ joinFunction.optional, IsArgument word.toList := by decide +kernel
  have hmentioned : joinFunction.Mentioned :=
    ⟨by simp [joinFunction], fun word hword => Or.inl (hoptional word hword)⟩
  have hargs : joinFunction.own? "args" = some (.texts ["first", "..."]) := by decide
  have hname : joinFunction.fullName = .ok (.text "demo#Join") := by decide +kernel
  obtain ⟨husage, -, hresult⟩ := close_function_usage (by decide) (by decide) hname
    (by simp [Verbatim]) hargs (by decide +kernel) hmentioned rfl rfl
  exact ⟨husage.trans (by decide +kernel), hresult⟩

end PluginHelp.Entry
