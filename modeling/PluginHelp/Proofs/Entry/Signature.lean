/-
The signatures that functions without a header get.

Whatever documentation mentions as an argument has the form of one, and the names that a function hears
are plain.  So the usage of a function without a header is filled without disturbance: it has the full
name, the required arguments and then the optional ones.
-/
import PluginHelp.Proofs.Entry.Heard
import PluginHelp.Proofs.Entry.PlainUsage

namespace PluginHelp.Entry

open Act Header Pattern

variable {e t : Entry} {lines : List DocLine}

/-! ### What mentioned arguments look like -/

theorem captures_bracketed (opening closing : Char) :
    Captures (standing (char opening ++ capture 1 argument ++ char closing)) 1 IsArgument :=
  ((((spells_argument.captures 1).preceded _).followed rfl).preceded _).followed rfl

theorem isArgument_of_required {text word : String} (h : word ∈ requiredArgument.findTexts text) :
    IsArgument word.toList :=
  (captures_bracketed _ _).of_mem_findTexts (by decide) h

theorem isArgument_of_optional {text word : String} (h : word ∈ optionalArgument.findTexts text) :
    IsArgument word.toList :=
  (captures_bracketed _ _).of_mem_findTexts (by decide) h

/-- How the argument of a value by default is written: as a name, or as one in brackets. -/
def IsDefaultName (text : List Char) : Prop :=
  isName text = true ∨ ∃ name, isName name = true ∧ text = '[' :: (name ++ [']'])

theorem IsDefaultName.isMention {text : List Char} (h : IsDefaultName text) : IsMention text := by
  rcases h with hname | ⟨name, hname, rfl⟩
  · exact Or.inl (isArgument_of_isName hname)
  · exact Or.inr ⟨name, isArgument_of_isName hname, rfl⟩

theorem isDefaultName_of_match {text : String} {m : Match} (h : defaultValue.match? text = some m) :
    IsDefaultName (m.group 1).toList := by
  have hbracketed : Spells (char '[' ++ Pattern.name ++ char ']' <|> Pattern.name) IsDefaultName := by
    refine ((((spells_char '[').seq spells_isName).seq (spells_char ']')).alt spells_isName).mono ?_
    rintro _ (⟨_, _, rfl, ⟨_, name, rfl, rfl, hname⟩, rfl⟩ | hname)
    · exact Or.inr ⟨name, hname, rfl⟩
    · exact Or.inl hname
  have hcaptured : Captures defaultValue 1 IsDefaultName :=
    (((((((hbracketed.captures 1).preceded _).followed rfl).followed rfl).followed rfl).followed
      rfl).followed rfl)
  exact hcaptured.of_match? (by decide) h

theorem isDefaultName_of_read {source argument value : String}
    (h : DocLine.read source = .ok (.default argument value)) : IsDefaultName argument.toList := by
  obtain ⟨told, htold⟩ | ⟨keyword, arguments, m, hm, hline⟩ := DocLine.exists_match_of_read h
  · cases htold
  · cases keyword with
    | default =>
        obtain ⟨rfl, -⟩ := DocLine.default.inj hline
        exact isDefaultName_of_match hm
    | _ => cases hline

/-- What holds of whatever each line mentions holds of what all of them mention. -/
theorem forall_mem_mentions {P : String → Prop} {mentioned : Mode → DocLine → List String}
    (h : ∀ mode, ∀ line ∈ lines, ∀ word ∈ mentioned mode line, P word) :
    ∀ mode, ∀ word ∈ mentions mentioned mode lines, P word := by
  induction lines with
  | nil => simp [mentions]
  | cons line lines ih =>
      intro mode word hword
      rcases List.mem_append.mp hword with hword | hword
      · exact h mode line List.mem_cons_self word hword
      · exact ih (fun mode line hline => h mode line (List.mem_cons_of_mem _ hline)) _ word hword

theorem isArgument_of_mem_requiredIn {mode : Mode} {line : DocLine} {word : String}
    (h : word ∈ mode.requiredIn line) : IsArgument word.toList := by
  obtain ⟨text, -, hword⟩ := List.mem_flatMap.mp h
  exact isArgument_of_required hword

theorem isMention_of_mem_optionalIn {mode : Mode} {line : DocLine} {word : String}
    (hread : ∃ source, DocLine.read source = .ok line) (h : word ∈ mode.optionalIn line) :
    IsMention word.toList := by
  rcases List.mem_append.mp h with hword | hword
  · obtain ⟨text, -, hword⟩ := List.mem_flatMap.mp hword
    exact Or.inl (isArgument_of_optional hword)
  · obtain ⟨source, hsource⟩ := hread
    cases line with
    | default argument value =>
        obtain rfl := List.mem_singleton.mp hword
        exact (isDefaultName_of_read hsource).isMention
    | _ => cases hword

/-- What an entry was told, from the start. -/
theorem Told.mentions_eq (h : Told {} lines t) :
    t.required = (mentions Mode.requiredIn .plain lines).eraseDups
      ∧ t.optional = (mentions Mode.optionalIn .plain lines).eraseDups := by
  have hnew : ({} : Entry).Noted .plain (firstMentions []) (firstMentions []) := ⟨rfl, rfl, rfl⟩
  obtain ⟨-, hrequired, hoptional⟩ := h.noted hnew
  rw [List.nil_append, firstMentions_eq] at hrequired hoptional
  exact ⟨hrequired, hoptional⟩

theorem Told.mentioned (h : Told {} lines t)
    (hread : ∀ line ∈ lines, ∃ source, DocLine.read source = .ok line) : t.Mentioned := by
  obtain ⟨hrequired, hoptional⟩ := h.mentions_eq
  constructor
  · intro word hword
    rw [hrequired, List.mem_eraseDups] at hword
    exact forall_mem_mentions (fun _ _ _ _ hin => isArgument_of_mem_requiredIn hin) _ word hword
  · intro word hword
    rw [hoptional, List.mem_eraseDups] at hword
    exact forall_mem_mentions (fun _ line hline _ hin =>
      isMention_of_mem_optionalIn (hread line hline) hin) _ word hword

/-! ### Signatures -/

/-- Without a header, the parentheses hold all arguments. -/
theorem parenthesized_plainHeader (required optional : List String) :
    parenthesized (plainHeader.remainingRequired required) (plainHeader.remainingOptional optional)
        (slots plainHeader.usage)
      = ", ".intercalate (required.map showRequired ++ optional.map showOptional) := by
  have hslots : slots plainHeader.usage = [allHole] := by decide +kernel
  have hrequired : plainHeader.required = [] := by decide +kernel
  have hoptional : plainHeader.optional = [] := by decide +kernel
  rw [hslots, remainingRequired, hrequired, remainingOptional, hoptional]
  simp [parenthesized, firstArguments, endsEmpty, String.join]

theorem verbatim_of_isFullNameChar {name : String}
    (h : ∀ c ∈ name.toList, isFullNameChar c = true) : Verbatim name := by
  have hsigns : ['<', '{', '[', '\\'].all (!isFullNameChar ·) = true := rfl
  intro sign hsign hmem
  have hnot := List.all_eq_true.mp hsigns sign hsign
  rw [h sign hmem] at hnot
  cases hnot

/-- Closing a function without a header gives it the usage that its signature and its documentation
make: its full name, and in parentheses its required arguments in braces and its optional ones in
brackets.  The required arguments are the named parameters, unless the documentation mentions others;
then they are those that it mentions.  The optional ones are those that the documentation mentions, if
the signature has room for them.  There is a warning if the required arguments are neither parameters
nor as many as these, and one if there is no room for optional ones. -/
theorem close_signature {parameters : List String} (hheard : Heard {} lines t)
    (hopen : t.isClosed = false) (hfunction : t.isOf .function = true)
    (hexception : t.hasOwn "exception" = false) (hheader : t.header = none)
    (hnamed : t.hasOwn "name" = true) (hargs : t.own? "args" = some (.texts parameters))
    (hparameters : ∀ word ∈ parameters, IsArgument word.toList) :
    let mentioned := (mentions Mode.requiredIn .plain lines).eraseDups
    let options := (mentions Mode.optionalIn .plain lines).eraseDups
    let named := parameters.filter (· != "...")
    let required := if ∀ word ∈ mentioned, word ∈ named then named else mentioned
    let optional := if "..." ∈ parameters then options else []
    ∃ name, t.fullName = .ok (.text name)
      ∧ (close t).state.own? "usage" = some (.text (name ++ "("
        ++ ", ".intercalate (required.map showRequired ++ optional.map showOptional) ++ ")"))
      ∧ (close t).result = .ok true
      ∧ (close t).warnings
        = (if (∀ word ∈ mentioned, word ∈ named) ∨ mentioned.length = named.length then []
            else [.argumentMismatch (named.map Value.text) mentioned])
          ++ if options = [] ∨ "..." ∈ parameters then [] else [.unacceptedOptionals name] := by
  have hneeds : t.needsUsage = true := by
    rw [needsUsage, hfunction, hexception]
    rfl
  have hplain : t.header.getD plainHeader = plainHeader := by
    rw [hheader]
    rfl
  have hplainly : t.PlainlyNamed := hheard.plainlyNamed plainlyNamed_new
  obtain ⟨name, hfull, hchars⟩ := hplainly.exists_fullName hfunction hexception hnamed
  obtain ⟨husage, hwarnings, hresult⟩ := close_function hopen hneeds hfunction hfull
    (verbatim_of_isFullNameChar hchars) hargs hparameters
    (hheard.told.mentioned hheard.exists_source) hplain rfl
  obtain ⟨hrequired, hoptional⟩ := hheard.told.mentions_eq
  intro mentioned options named required optional
  have hall : t.required.all (Entry.named parameters).contains = true
      ↔ ∀ word ∈ mentioned, word ∈ named := by
    rw [hrequired, List.all_eq_true]
    simp only [List.contains_iff_mem]
    rfl
  have hmore : parameters.contains furtherParameters = true ↔ "..." ∈ parameters :=
    List.contains_iff_mem
  have hinferred : t.inferredRequired parameters = required := by
    rw [inferredRequired, if_congr hall rfl hrequired]
    rfl
  have haccepted : t.inferredOptional parameters = optional := if_congr hmore hoptional rfl
  have hmismatch : t.requiredWarnings parameters
      = if (∀ word ∈ mentioned, word ∈ named) ∨ mentioned.length = named.length then []
        else [.argumentMismatch (named.map Value.text) mentioned] := by
    refine if_congr ?_ rfl (by rw [hrequired]; rfl)
    rw [Bool.or_eq_true_iff, hall, beq_iff_eq, hrequired]
    rfl
  have hunaccepted : t.optionalWarnings parameters name
      = if options = [] ∨ "..." ∈ parameters then [] else [.unacceptedOptionals name] := by
    refine if_congr ?_ rfl rfl
    rw [Bool.or_eq_true_iff, hmore, List.isEmpty_iff, hoptional]
  refine ⟨name, hfull, ?_, hresult, ?_⟩
  · rw [husage, hinferred, haccepted, parenthesized_plainHeader]
  · rw [hwarnings, hmismatch, hunaccepted]

/-- Documentation that renames a parameter, with an argument in code and one with a value by
default. -/
def copyLines : List DocLine :=
  [.text "Copies {from} to {to}: >", .text "  Copy({other})", .text "<",
    .default "mode" "[mask]", .throws "ERROR(NotFound)" (some "if {from} is missing.")]

/-- The function that these lines document, above the line of code that defines it. -/
def copyFunction : Entry :=
  ((CodeLine.read "function! demo#Copy(path, ...) abort").update
    (copyLines.foldl (fun e line => (line.update e).state) {})).state

/-- What is mentioned in code is no argument, and two arguments are not as many as one parameter. -/
theorem close_signature_copy :
    (close copyFunction).state.own? "usage"
        = some (.text "demo#Copy({from}, {to}, [mask], [mode])")
      ∧ (close copyFunction).warnings = [.argumentMismatch [.text "path"] ["from", "to"]] := by
  have htext : DocLine.read "\" Copies {from} to {to}: >"
      = .ok (.text "Copies {from} to {to}: >") := by rfl
  have hcode : DocLine.read "\"   Copy({other})" = .ok (.text "  Copy({other})") := by rfl
  have hend : DocLine.read "\" <" = .ok (.text "<") := by rfl
  have hdefault : DocLine.read "\" @default mode=[mask]" = .ok (.default "mode" "[mask]") := by rfl
  have hthrows : DocLine.read "\" @throws NotFound if {from} is missing."
      = .ok (.throws "ERROR(NotFound)" (some "if {from} is missing.")) := by rfl
  have hheard : Heard {} copyLines copyFunction :=
    .line htext (.line hcode (.line hend (.line hdefault (.line hthrows (.code _ (.done _))))))
  have hargs : copyFunction.own? "args" = some (.texts ["path", "..."]) := by decide +kernel
  have hfull : copyFunction.fullName = .ok (.text "demo#Copy") := by decide +kernel
  obtain ⟨name, h, husage, -, hwarnings⟩ := close_signature hheard (by decide +kernel)
    (by decide +kernel) (by decide +kernel) (by decide +kernel) (by decide +kernel) hargs
    (by decide +kernel)
  obtain rfl := Value.text.inj (Except.ok.inj (hfull.symm.trans h))
  exact ⟨husage.trans (by decide +kernel), hwarnings.trans (by decide +kernel)⟩

end PluginHelp.Entry
