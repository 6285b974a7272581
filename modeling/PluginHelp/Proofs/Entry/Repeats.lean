/-
When a usage names an argument twice.

The holes of a header are filled with the arguments that the text mentions and that the header does
not name itself.  What a header names itself is looked for as in running text: in braces or
brackets, and by itself.  But its slots may be written otherwise, bare or one right after the other.
So an argument that the text mentions is put into a hole although there is a slot for it, unless the
header spells it just as usages show it, and with nothing next to it.
-/
import PluginHelp.Proofs.Entry.PlainUsage
import PluginHelp.Proofs.Pattern.Names
import PluginHelp.Source.Directive

namespace PluginHelp

open Pattern PluginHelp.Text

namespace Header

variable {header : Header} {required optional : List String} {slot argument : String}

/-! ### Holes and other slots -/

/-- Whether a slot is a hole. -/
def isHole (slot : String) : Bool :=
  [allHole, "{}", "[]"].contains slot

theorem slotArguments_of_not_isHole (h : isHole slot = false) (required optional : List String) :
    slotArguments required optional slot = [slot] := by
  simp only [isHole, List.contains_cons, List.contains_nil, Bool.or_false, Bool.or_eq_false_iff,
    beq_eq_false_iff_ne] at h
  rw [slotArguments, if_neg h.1, if_neg h.2.1, if_neg h.2.2]

/-- What a hole stands for is left out one by one. -/
theorem slotArguments_filter (h : isHole slot = true) (keeps : String → Bool) :
    slotArguments (required.filter keeps) (optional.filter keeps) slot
      = (slotArguments required optional slot).filter keeps := by
  have hslot : slot = allHole ∨ slot = "{}" ∨ slot = "[]" := by
    simpa [isHole] using h
  rcases hslot with rfl | rfl | rfl
  · exact (List.filter_append _ _).symm
  · rfl
  · rfl

/-- The arguments of a line: those of its slots that are no holes, and what the holes stand for. -/
theorem arguments_perm (required optional slots : List String) :
    (arguments required optional slots).Perm
      (slots.filter (!isHole ·) ++ arguments required optional (slots.filter isHole)) := by
  have hkept : arguments required optional (slots.filter (!isHole ·))
      = slots.filter (!isHole ·) := by
    have hsingle : ∀ slot ∈ slots.filter (!isHole ·),
        slotArguments required optional slot = [slot] := by
      intro slot hslot
      refine slotArguments_of_not_isHole ?_ required optional
      simpa using (List.mem_filter.mp hslot).2
    rw [arguments, List.flatMap_congr hsingle, List.flatMap_singleton']
  have hparts := (List.filter_append_perm isHole slots).symm.flatMap_right
    (slotArguments required optional)
  rw [List.flatMap_append] at hparts
  refine hparts.trans (List.perm_append_comm.trans (List.Perm.of_eq ?_))
  exact congrArg (· ++ arguments required optional (slots.filter isHole)) hkept

/-! ### What a header names itself -/

/-- The arguments that a header names itself, as usages show them. -/
def ownArguments (header : Header) : List String :=
  header.required.map showRequired ++ header.optional.map showOptional

theorem showRequired_injective : Function.Injective showRequired := by
  intro a b h
  have hlists := congrArg String.toList h
  rw [toList_showRequired, toList_showRequired] at hlists
  exact String.toList_inj.mp (List.append_cancel_right (List.cons.inj hlists).2)

theorem showOptional_injective : Function.Injective showOptional := by
  intro a b h
  have hlists := congrArg String.toList h
  rw [toList_showOptional, toList_showOptional] at hlists
  exact String.toList_inj.mp (List.append_cancel_right (List.cons.inj hlists).2)

theorem showRequired_ne_showOptional (a b : String) : showRequired a ≠ showOptional b := by
  intro h
  have hlists := congrArg String.toList h
  rw [toList_showRequired, toList_showOptional] at hlists
  cases (List.cons.inj hlists).1

theorem showRequired_mem_ownArguments :
    showRequired argument ∈ header.ownArguments ↔ argument ∈ header.required := by
  rw [ownArguments, List.mem_append, List.mem_map_of_injective showRequired_injective]
  refine or_iff_left fun hmem => ?_
  obtain ⟨other, -, hother⟩ := List.mem_map.mp hmem
  exact showRequired_ne_showOptional argument other hother.symm

theorem showOptional_mem_ownArguments :
    showOptional argument ∈ header.ownArguments ↔ argument ∈ header.optional := by
  rw [ownArguments, List.mem_append, List.mem_map_of_injective showOptional_injective]
  refine or_iff_right fun hmem => ?_
  obtain ⟨other, -, hother⟩ := List.mem_map.mp hmem
  exact showRequired_ne_showOptional other argument hother

theorem remainingRequired_eq (header : Header) (required : List String) :
    header.remainingRequired required
      = (required.map showRequired).filter (!header.ownArguments.contains ·) := by
  rw [remainingRequired, List.filter_map]
  refine congrArg (List.map showRequired) (List.filter_congr fun argument _ => ?_)
  rw [Bool.eq_iff_iff]
  simp [showRequired_mem_ownArguments]

theorem remainingOptional_eq (header : Header) (optional : List String) :
    header.remainingOptional optional
      = (optional.map showOptional).filter (!header.ownArguments.contains ·) := by
  rw [remainingOptional, List.filter_map]
  refine congrArg (List.map showOptional) (List.filter_congr fun argument _ => ?_)
  rw [Bool.eq_iff_iff]
  simp [showOptional_mem_ownArguments]

/-- What the holes of a header stand for, those that it names itself included. -/
def mentionsFor (header : Header) (required optional : List String) : List String :=
  arguments (required.map showRequired) (optional.map showOptional)
    ((slots header.usage).filter isHole)

/-- The holes are filled with what the header does not name itself. -/
theorem arguments_holes (header : Header) (required optional : List String) :
    arguments (header.remainingRequired required) (header.remainingOptional optional)
        ((slots header.usage).filter isHole)
      = (header.mentionsFor required optional).filter (!header.ownArguments.contains ·) := by
  rw [remainingRequired_eq, remainingOptional_eq, mentionsFor, arguments, arguments,
    List.filter_flatMap]
  refine List.flatMap_congr fun slot hslot => ?_
  exact slotArguments_filter (List.mem_filter.mp hslot).2 _

/-! ### Names -/

/-- The name of an argument that a usage shows: without brackets and dots. -/
def shownName (argument : String) : String :=
  String.ofList (argument.toList.filter isNameRest)

/-- The names of the slots of a header that are no holes. -/
def slotNames (header : Header) : List String :=
  ((slots header.usage).filter (!isHole ·)).map shownName

variable {own mentioned names : List String}

/-- What is left of the mentions has different names. -/
theorem nodup_left_iff :
    ((mentioned.filter (!own.contains ·)).map shownName).Nodup
      ↔ mentioned.Pairwise fun a b => shownName a = shownName b → a ∈ own ∨ b ∈ own := by
  rw [List.Nodup, List.pairwise_map, List.pairwise_filter]
  refine List.Pairwise.iff fun a b => ?_
  simp only [Bool.not_eq_true', List.contains_eq_mem, decide_eq_false_iff_not, ne_eq]
  tauto

/-- What is left of the mentions has none of the names. -/
theorem apart_left_iff :
    (∀ name ∈ names, ∀ other ∈ (mentioned.filter (!own.contains ·)).map shownName, name ≠ other)
      ↔ ∀ argument ∈ mentioned, shownName argument ∈ names → argument ∈ own := by
  constructor
  · intro h argument hargument hname
    by_contra hown
    refine h _ hname _ (List.mem_map_of_mem (List.mem_filter.mpr ⟨hargument, ?_⟩)) rfl
    simpa using hown
  · rintro h name hname _ hother rfl
    obtain ⟨argument, hleft, rfl⟩ := List.mem_map.mp hother
    obtain ⟨hargument, hnot⟩ := List.mem_filter.mp hleft
    simp [h argument hargument hname] at hnot

/-- No name comes twice in a line exactly if the header has none twice, it names itself each
argument for a hole whose name it has, and the other ones for its holes have different names. -/
theorem nodup_shownNames_iff (header : Header) (required optional : List String) :
    ((arguments (header.remainingRequired required) (header.remainingOptional optional)
        (slots header.usage)).map shownName).Nodup
      ↔ header.slotNames.Nodup
        ∧ (∀ argument ∈ header.mentionsFor required optional,
          shownName argument ∈ header.slotNames → argument ∈ header.ownArguments)
        ∧ (header.mentionsFor required optional).Pairwise fun a b =>
          shownName a = shownName b → a ∈ header.ownArguments ∨ b ∈ header.ownArguments := by
  rw [((arguments_perm _ _ _).map shownName).nodup_iff, List.map_append, arguments_holes,
    List.nodup_append, ← slotNames, nodup_left_iff, apart_left_iff]
  exact and_congr_right fun _ => and_comm

end Header

/-! ### Commands -/

namespace Entry

open Header

variable {e : Entry} {header : Header} {name : String}

theorem header_of_usage {written : String}
    (h : DocLine.ofDirective .usage written = .ok (.header header)) :
    header = .ofUsage .usage header.usage := by
  unfold DocLine.ofDirective at h
  split at h
  · obtain rfl := DocLine.header.inj (Except.ok.inj h)
    rfl
  · cases h

/-- What a header names itself: the arguments that stand in it by themselves, in their brackets. -/
theorem mem_ownArguments_ofUsage (usage argument : String) :
    (showRequired argument ∈ (Header.ofUsage .usage usage).ownArguments
        ↔ isNamedArgument argument.toList = true
          ∧ StandsIn (showRequired argument).toList usage.toList)
      ∧ (showOptional argument ∈ (Header.ofUsage .usage usage).ownArguments
        ↔ isNamedArgument argument.toList = true
          ∧ StandsIn (showOptional argument).toList usage.toList) := by
  rw [showRequired_mem_ownArguments, showOptional_mem_ownArguments, toList_showRequired,
    toList_showOptional]
  exact ⟨mem_findTexts_standing rfl rfl (by decide), mem_findTexts_standing rfl rfl (by decide)⟩

/-- The usage of a command with a header of its own names no argument twice exactly if the header
does not, each argument that the text mentions for a hole, and that the header has too, stands in
the header by itself and in the same brackets, and the other ones have different names.  A bare
argument, one next to another slot or one in other brackets is named again. -/
theorem close_command_repeats {written : String} (flags : CommandFlags) (hopen : e.isClosed = false)
    (hcommand : e.isOf .command = true) (hname : e.own? "name" = some (.text name))
    (hverbatim : Verbatim name) (hhead : e.own? "head" = some (.text flags.head))
    (hmentioned : e.Mentioned)
    (haccepted : DocLine.ofDirective .usage written = .ok (.header header))
    (hheader : e.header = some header) :
    let required := header.remainingRequired e.required
    let optional := header.remainingOptional e.optional
    let line := arguments required optional (slots header.usage)
    (close e).state.own? "usage" = (if e.hasOwn "exception" then e.own? "usage" else
        some (.text (flags.usage name line ++ if (slots header.usage).isEmpty
          || endsEmpty required optional (slots header.usage) then " " else "")))
      ∧ ((line.map shownName).Nodup ↔ header.slotNames.Nodup
        ∧ (∀ argument ∈ header.mentionsFor e.required e.optional,
          shownName argument ∈ header.slotNames → argument ∈ header.ownArguments)
        ∧ (header.mentionsFor e.required e.optional).Pairwise fun a b =>
          shownName a = shownName b → a ∈ header.ownArguments ∨ b ∈ header.ownArguments)
      ∧ ∀ argument,
        (showRequired argument ∈ header.ownArguments ↔ isNamedArgument argument.toList = true
          ∧ StandsIn (showRequired argument).toList header.usage.toList)
        ∧ (showOptional argument ∈ header.ownArguments ↔ isNamedArgument argument.toList = true
          ∧ StandsIn (showOptional argument).toList header.usage.toList) := by
  have hmade := header_of_usage haccepted
  have hneeds : e.needsUsage = !e.hasOwn "exception" := by
    rw [needsUsage, hcommand, Bool.or_true, Bool.true_and]
  intro required optional line
  refine ⟨?_, nodup_shownNames_iff header e.required e.optional, fun argument => ?_⟩
  · cases hexception : e.hasOwn "exception" with
    | true =>
        rw [hexception, Bool.not_true] at hneeds
        exact (close_keeps_usage hopen hneeds).1
    | false =>
        rw [hexception, Bool.not_false] at hneeds
        exact (close_command flags hopen hneeds hcommand hname hverbatim hhead hmentioned
          (hheader ▸ rfl) (hmade ▸ rfl)).1
  · rw [hmade]
    exact mem_ownArguments_ofUsage header.usage argument

/-- A command whose header has a bare argument that the text mentions. -/
def openCommand : Entry where
  own := [("type", .text "COMMAND"), ("name", .text "Open"), ("head", .text "<>")]
  header := some (.ofUsage .usage "{} file")
  required := ["file", "mode"]

theorem close_command_repeats_bare :
    (close openCommand).state.own? "usage"
        = some (.text ":Open {file} {mode} {file}")
      ∧ (Header.ofUsage .usage "{} file").slotNames = ["file"]
      ∧ ¬ ((arguments ["{file}", "{mode}"] [] ["{}", "{file}"]).map
        shownName).Nodup := by
  have hname : openCommand.own? "name" = some (.text "Open") := by decide
  have hmentioned : openCommand.Mentioned := ⟨by decide +kernel, by simp [openCommand]⟩
  have haccepted : DocLine.ofDirective .usage "{} file"
      = .ok (.header (.ofUsage .usage "{} file")) := by decide +kernel
  obtain ⟨husage, hnodup, -⟩ := close_command_repeats ⟨false, false, false, false, false, false⟩
    (by decide) (by decide) hname (by simp [Verbatim]) (by decide) hmentioned haccepted rfl
  refine ⟨husage.trans (by decide +kernel), by decide +kernel, fun honce => ?_⟩
  have hown := (hnodup.mp honce).2.1 "{file}" (by decide +kernel) (by decide +kernel)
  exact absurd hown (by decide +kernel)

end Entry

end PluginHelp
