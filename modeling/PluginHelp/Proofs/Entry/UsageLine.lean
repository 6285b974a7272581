/-
The usages that plain headers make.

A plain header is a list of slots, and its usage is made of what they stand for: in parentheses behind
the name of a function, or in a row behind the head of a command.  For a command that is all there is
to say, but for a space that a last slot without arguments leaves at the end.  In the parentheses of
a function the first slot has no blank before it, and the separators at the ends have no other one
next to them.  So there a first hole for required or for optional arguments is left as it is, and a
first or last slot without arguments leaves its separator behind.
-/
import PluginHelp.Proofs.Entry.Filling
import PluginHelp.Proofs.Entry.Controls
import PluginHelp.Source.Code

namespace PluginHelp

open Pattern PluginHelp.Text

namespace Header

/-! ### Slots and arguments as text -/

/-- The arguments that a slot stands for. -/
def slotArguments (required optional : List String) (slot : String) : List String :=
  if slot = allHole then required ++ optional
  else if slot = "{}" then required
  else if slot = "[]" then optional
  else [slot]

variable {required optional slots : List String} {name : String}

theorem map_slotArguments (required optional : List String) (slot : String) :
    (slotArguments required optional slot).map String.toList
      = slotWords (required.map String.toList) (optional.map String.toList) slot.toList := by
  have hall : slot.toList = holeForAll ↔ slot = allHole := by
    rw [← String.toList_inj, toList_allHole]
  have hrequired : slot.toList = holeForRequired ↔ slot = "{}" := by
    rw [← String.toList_inj]
    rfl
  have hoptional : slot.toList = holeForOptional ↔ slot = "[]" := by
    rw [← String.toList_inj]
    rfl
  simp only [slotWords, slotArguments, hall, hrequired, hoptional]
  split
  · exact List.map_append
  · split
    · rfl
    · split <;> rfl

theorem map_flatMap_slotArguments (required optional slots : List String) :
    (slots.flatMap (slotArguments required optional)).map String.toList
      = (slots.map String.toList).flatMap
          (slotWords (required.map String.toList) (optional.map String.toList)) := by
  rw [List.map_flatMap, List.flatMap_map]
  simp only [map_slotArguments]

theorem isEmpty_slotArguments (required optional : List String) (slot : String) :
    (slotWords (required.map String.toList) (optional.map String.toList) slot.toList).isEmpty
      = (slotArguments required optional slot).isEmpty := by
  rw [← map_slotArguments, List.isEmpty_map]

theorem toList_join_map (sep : String) (words : List String) :
    (String.join (words.map (sep ++ ·))).toList = row sep.toList (words.map String.toList) := by
  rw [String.toList_join]
  simp [row, List.flatMap_map]

theorem ofList_intercalate (sep : String) (words : List String) :
    String.ofList (List.intercalate sep.toList (words.map String.toList)) = sep.intercalate words := by
  rw [← String.toList_intercalate, String.ofList_toList]

theorem isWord_map {words : List String} (h : ∀ word ∈ words, IsWord word.toList) :
    ∀ word ∈ words.map String.toList, IsWord word :=
  List.forall_mem_map.mpr h

/-- A name that stands for itself wherever it is put: it has no bracket in which a hole could begin,
and no backslash. -/
def Verbatim (name : String) : Prop :=
  ∀ sign ∈ ['<', '{', '[', '\\'], sign ∉ name.toList

theorem Verbatim.calm (h : Verbatim name) : Calm markPairs name.toList := by
  intro pair hpair
  have hall : markPairs.all (fun pair => ['<', '{', '[', '\\'].contains pair.1) = true := rfl
  exact calm_of_not_mem (h _ (by simpa using List.all_eq_true.mp hall pair hpair))

/-- A usage line with its holes filled, as text. -/
theorem toList_fillHoles {u : Surroundings} {usage sep : String} {first : List Char}
    {words : List (List Char)} (h : u.WellFormed) (hsep : u.sep = sep.toList)
    (husage : usage.toList = u.lead ++ first ++ row u.sep words ++ u.tail)
    (hrequired : ∀ word ∈ required, IsWord word.toList)
    (hoptional : ∀ word ∈ optional, IsWord word.toList) (hfirst : u.Admits first)
    (hwords : ∀ word ∈ words, Fits word) (hname : Verbatim name) :
    (fillHoles usage name sep (sep.intercalate required) (sep.intercalate optional)).toList
      = u.before ++ name.toList ++ u.after ++ u.line (Surroundings.allWords
          (required.map String.toList) (optional.map String.toList) first words) ++ u.tail := by
  have hfilled := fillHoles_eq h (isWord_map hrequired) (isWord_map hoptional) hfirst hwords
    hname.calm
  rw [← husage, hsep, String.ofList_toList, String.ofList_toList, ofList_intercalate,
    ofList_intercalate] at hfilled
  rw [hfilled, String.toList_ofList]

/-- The arguments of the slots in the order of the slots. -/
def arguments (required optional slots : List String) : List String :=
  slots.flatMap (slotArguments required optional)

/-! ### Functions -/

/-- What the first slot in parentheses becomes: only the hole for all arguments is filled there. -/
def firstArguments (required optional : List String) (first : String) : List String :=
  if first = allHole then required ++ optional else [first]

/-- Whether the last slot stands for nothing. -/
def endsEmpty (required optional slots : List String) : Bool :=
  slots.getLast?.any fun slot => (slotArguments required optional slot).isEmpty

/-- What stands in the parentheses of a function's usage. -/
def parenthesized (required optional : List String) : List String → String
  | [] => ""
  | first :: rest =>
    ", ".intercalate (firstArguments required optional first)
      ++ String.join ((rest.flatMap (slotArguments required optional)).map (", " ++ ·))
      ++ if endsEmpty required optional rest then ", " else ""

/-- What surrounds the slots in the usage of a function. -/
def parentheses : Surroundings :=
  ⟨[], ['('], [',', ' '], [')']⟩

theorem parentheses_wellFormed : parentheses.WellFormed where
  before := inert_of_all rfl
  after := inert_of_all rfl
  tail := inert_of_all rfl
  sep := Or.inl rfl
  ends := rfl

theorem any_getLast?_map (required optional slots : List String) :
    (slots.map String.toList).getLast?.any (fun word =>
        (slotWords (required.map String.toList) (optional.map String.toList) word).isEmpty)
      = endsEmpty required optional slots := by
  rw [List.getLast?_map, Option.any_map, endsEmpty]
  simp only [isEmpty_slotArguments]

theorem intercalate_firstWords (sep : List Char) (required optional : List String)
    (first : String) :
    List.intercalate sep (Surroundings.firstWords (required.map String.toList)
        (optional.map String.toList) first.toList)
      = List.intercalate sep ((firstArguments required optional first).map String.toList) := by
  have hall : first.toList = holeForAll ↔ first = allHole := by
    rw [← String.toList_inj, toList_allHole]
  simp only [Surroundings.firstWords, firstArguments, hall]
  split
  · rw [intercalate_orEmpty, List.map_append]
  · rfl

theorem toList_parenthesized (hrequired : ∀ word ∈ required, IsWord word.toList)
    (hoptional : ∀ word ∈ optional, IsWord word.toList)
    (hslots : ∀ slot ∈ slots, IsSlot slot.toList) :
    (parenthesized required optional slots).toList
      = parentheses.line (Surroundings.allWords (required.map String.toList)
          (optional.map String.toList) ((slots.map String.toList).headD [])
          (slots.map String.toList).tail) := by
  cases slots with
  | nil => rfl
  | cons first rest =>
      have hrest : ∀ word ∈ rest.map String.toList, IsSlot word :=
        List.forall_mem_map.mpr fun slot hslot => hslots slot (List.mem_cons_of_mem _ hslot)
      rw [List.map_cons, List.headD_cons, List.tail_cons,
        Surroundings.line_allWords (isWord_map hrequired) (isWord_map hoptional) hrest,
        intercalate_firstWords, ← map_flatMap_slotArguments, any_getLast?_map, parenthesized,
        String.toList_append, String.toList_append, String.toList_intercalate, toList_join_map,
        apply_ite String.toList]
      rfl

/-- The usage of a function whose slots are laid out. -/
theorem fillHoles_function (hrequired : ∀ word ∈ required, IsWord word.toList)
    (hoptional : ∀ word ∈ optional, IsWord word.toList) (hslots : ∀ slot ∈ slots, IsSlot slot.toList)
    (hname : Verbatim name) :
    fillHoles ("<>(" ++ ", ".intercalate slots ++ ")") name ", " (", ".intercalate required)
        (", ".intercalate optional)
      = name ++ "(" ++ parenthesized required optional slots ++ ")" := by
  have hfits : ∀ word ∈ slots.map String.toList, Fits word :=
    List.forall_mem_map.mpr fun slot hslot => Or.inr (hslots slot hslot)
  have hfirst : parentheses.Admits ((slots.map String.toList).headD []) := by
    refine ⟨?_, fun _ => ⟨[], '(', rfl, rfl⟩⟩
    cases slots with
    | nil => exact Or.inl rfl
    | cons first rest => exact hfits _ List.mem_cons_self
  have hlaid : ("<>(" ++ ", ".intercalate slots ++ ")").toList
      = parentheses.lead ++ (slots.map String.toList).headD []
        ++ row parentheses.sep (slots.map String.toList).tail ++ parentheses.tail := by
    rw [List.append_assoc parentheses.lead, ← intercalate_eq]
    simp [String.toList_intercalate, parentheses, Surroundings.lead]
  rw [← String.toList_inj, toList_fillHoles parentheses_wellFormed rfl hlaid hrequired hoptional
    hfirst (fun word hword => hfits word (List.mem_of_mem_tail hword)) hname,
    ← toList_parenthesized hrequired hoptional hslots]
  simp [parentheses]

/-! ### What is left of holes and separators -/

/-- Neither a hole nor a superfluous separator is left in the parentheses: the first slot is not a
hole for arguments of one sort, and of several slots the first and the last stand for something. -/
def leavesNothing (required optional : List String) : List String → Bool
  | [] => true
  | first :: rest =>
    first != "{}" && first != "[]"
      && (rest.isEmpty || !(slotArguments required optional first).isEmpty
        && !endsEmpty required optional rest)

theorem isWord_slotArguments (hrequired : ∀ word ∈ required, IsWord word.toList)
    (hoptional : ∀ word ∈ optional, IsWord word.toList) {slot : String} (hslot : IsSlot slot.toList) :
    ∀ word ∈ slotArguments required optional slot, IsWord word.toList := by
  intro word hword
  have hmem : word.toList
      ∈ slotWords (required.map String.toList) (optional.map String.toList) slot.toList := by
    rw [← map_slotArguments]
    exact List.mem_map_of_mem hword
  rcases mem_slotWords hslot hmem with hmem | hmem | hword
  · exact isWord_map hrequired _ hmem
  · exact isWord_map hoptional _ hmem
  · exact hword

theorem firstArguments_eq {first : String} (hbrace : first ≠ "{}") (hbracket : first ≠ "[]") :
    firstArguments required optional first = slotArguments required optional first := by
  rw [firstArguments, slotArguments, if_neg hbrace, if_neg hbracket]

/-- A separator between two lists of words is superfluous if one of them is empty. -/
theorem intercalate_append_eq_iff {sep : List Char} (hsep : sep ≠ []) {front back : List (List Char)}
    {pad : List Char} (hback : back = [] → pad ≠ []) :
    List.intercalate sep front ++ row sep back ++ pad = List.intercalate sep (front ++ back)
      ↔ front ≠ [] ∧ pad = [] := by
  cases front with
  | nil =>
      refine iff_of_false (fun heq => ?_) (by simp)
      cases back with
      | nil => exact hback rfl (by simpa using heq)
      | cons word back =>
          -- One separator more makes the line longer.
          have hlength := congrArg List.length heq
          rw [List.nil_append, intercalate_cons, row_cons] at hlength
          have hpos := List.length_pos_iff.mpr hsep
          simp only [List.length_append, List.intercalate_nil, List.length_nil] at hlength
          omega
  | cons word front =>
      rw [List.cons_append, intercalate_cons, intercalate_cons, row_append, ← List.append_assoc word,
        List.append_right_eq_self]
      simp

/-- Several slots without arguments end with one. -/
theorem endsEmpty_of_arguments (hslots : slots ≠ []) (h : arguments required optional slots = []) :
    endsEmpty required optional slots = true := by
  rw [endsEmpty, List.getLast?_eq_some_getLast hslots, Option.any_some, List.isEmpty_iff]
  exact List.flatMap_eq_nil_iff.mp h _ (List.getLast_mem hslots)

theorem ne_allHole {slot : String} (h : slot = "{}" ∨ slot = "[]") : slot ≠ allHole := by
  rintro rfl
  rw [← String.toList_inj, ← String.toList_inj, toList_allHole] at h
  simp [holeForAll] at h

/-- A hole that is left as it is does not stand for arguments. -/
theorem parenthesized_hole_ne (hrequired : ∀ word ∈ required, IsWord word.toList)
    (hoptional : ∀ word ∈ optional, IsWord word.toList) {first : String} {rest : List String}
    (hslots : ∀ slot ∈ first :: rest, IsSlot slot.toList)
    (hfirst : first = "{}" ∨ first = "[]") :
    parenthesized required optional (first :: rest)
      ≠ ", ".intercalate (arguments required optional (first :: rest)) := by
  intro heq
  have hcalm : Calm argumentPairs
      (", ".intercalate (arguments required optional (first :: rest))).toList := by
    rw [String.toList_intercalate]
    refine calm_intercalate parentheses_wellFormed.sep_holes (List.forall_mem_map.mpr ?_)
    intro word hword
    obtain ⟨slot, hslot, hword⟩ := List.mem_flatMap.mp hword
    exact (isWord_slotArguments hrequired hoptional (hslots slot hslot) word hword).inert.holes
  rw [← heq, parenthesized, firstArguments, if_neg (ne_allHole hfirst)] at hcalm
  rcases hfirst with rfl | rfl
  · have hnot := hcalm _ brace_mem
    simp [calm] at hnot
  · have hnot := hcalm _ bracket_mem
    simp [calm] at hnot

/-- The parentheses hold the arguments of the slots exactly if nothing is left of the holes. -/
theorem parenthesized_eq_iff (hrequired : ∀ word ∈ required, IsWord word.toList)
    (hoptional : ∀ word ∈ optional, IsWord word.toList)
    (hslots : ∀ slot ∈ slots, IsSlot slot.toList) :
    parenthesized required optional slots = ", ".intercalate (arguments required optional slots)
      ↔ leavesNothing required optional slots = true := by
  cases slots with
  | nil => exact iff_of_true rfl rfl
  | cons first rest =>
      by_cases hhole : first = "{}" ∨ first = "[]"
      · refine iff_of_false (parenthesized_hole_ne hrequired hoptional hslots hhole) ?_
        rcases hhole with rfl | rfl <;> simp [leavesNothing]
      · obtain ⟨hbrace, hbracket⟩ := not_or.mp hhole
        have hother : leavesNothing required optional (first :: rest)
            = (rest.isEmpty || !(slotArguments required optional first).isEmpty
              && !endsEmpty required optional rest) := by
          simp [leavesNothing, hbrace, hbracket]
        rw [hother, parenthesized, firstArguments_eq hbrace hbracket]
        cases rest with
        | nil => simp [arguments, endsEmpty, String.join]
        | cons second rest =>
            have hpad : (arguments required optional (second :: rest)).map String.toList = [] →
                (if endsEmpty required optional (second :: rest) then ", " else "").toList ≠ [] := by
              intro hnone
              rw [endsEmpty_of_arguments (by simp) (List.map_eq_nil_iff.mp hnone)]
              simp
            have hsplit : arguments required optional (first :: second :: rest)
                = slotArguments required optional first
                  ++ arguments required optional (second :: rest) :=
              List.flatMap_cons
            rw [← String.toList_inj, String.toList_append, String.toList_append,
              String.toList_intercalate, String.toList_intercalate, toList_join_map, hsplit,
              List.map_append]
            refine (intercalate_append_eq_iff (by simp) hpad).trans ?_
            simp

end Header

namespace CommandFlags

/-- What may stand before the name of a command. -/
def front (f : CommandFlags) : String :=
  (if f.range then "[range]" else "")
    ++ (if f.count then "[count]" else "")
    ++ (if f.register then "[\"x]" else "")
    ++ (if f.buffer then "[N]" else "")

/-- What may stand after the name of a command. -/
def back (f : CommandFlags) : String :=
  if f.bang then "[!]" else ""

/-- The head of a command's usage with the name in its hole. -/
def headFor (f : CommandFlags) (name : String) : String :=
  f.front ++ name ++ f.back

theorem head_eq (f : CommandFlags) : f.head = f.headFor "<>" :=
  rfl

/-- The usage of a command: its head, and each argument after a space. -/
def usage (f : CommandFlags) (name : String) (arguments : List String) : String :=
  ":" ++ f.headFor name ++ String.join (arguments.map (" " ++ ·))

/-- What surrounds the slots in the usage of a command. -/
def surroundings (f : CommandFlags) : Header.Surroundings :=
  ⟨':' :: f.front.toList, f.back.toList, [' '], []⟩

theorem inert_shown {text : String} (h : Header.Inert text.toList) (shown : Bool) :
    Header.Inert (if shown then text else "").toList := by
  cases shown with
  | true => exact h
  | false => exact Header.inert_of_all rfl

theorem surroundings_wellFormed (f : CommandFlags) : f.surroundings.WellFormed where
  before := by
    have hfront : Header.Inert f.front.toList := by
      unfold front
      simp only [String.toList_append]
      exact (((inert_shown (Header.inert_of_all rfl) _).append
        (inert_shown (Header.inert_of_all rfl) _)).append
        (inert_shown (Header.inert_of_all rfl) _)).append (inert_shown (Header.inert_of_all rfl) _)
    have hcolon : Header.Inert [':'] := Header.inert_of_all rfl
    exact hcolon.append hfront
  after := inert_shown (Header.inert_of_all rfl) f.bang
  tail := Header.inert_of_all rfl
  sep := Or.inr rfl
  ends := rfl

end CommandFlags

namespace Header

variable {required optional slots : List String} {name : String}

/-! ### Commands -/

/-- The usage of a command whose slots are laid out. -/
theorem fillHoles_command (flags : CommandFlags) (hrequired : ∀ word ∈ required, IsWord word.toList)
    (hoptional : ∀ word ∈ optional, IsWord word.toList) (hslots : ∀ slot ∈ slots, IsSlot slot.toList)
    (hname : Verbatim name) :
    fillHoles (":" ++ flags.head ++ " " ++ " ".intercalate slots) name " "
        (" ".intercalate required) (" ".intercalate optional)
      = flags.usage name (arguments required optional slots)
        ++ if slots.isEmpty || endsEmpty required optional slots then " " else "" := by
  have hlaid : (":" ++ flags.head ++ " " ++ " ".intercalate slots).toList
      = flags.surroundings.lead ++ []
        ++ row flags.surroundings.sep (orEmpty (slots.map String.toList))
        ++ flags.surroundings.tail := by
    rw [row_orEmpty, CommandFlags.head_eq, CommandFlags.headFor]
    simp [String.toList_intercalate, CommandFlags.surroundings, Surroundings.lead]
  have hfits : ∀ word ∈ orEmpty (slots.map String.toList), Fits word := by
    unfold orEmpty
    split
    · simp [Fits]
    · exact List.forall_mem_map.mpr fun slot hslot => Or.inr (hslots slot hslot)
  have hline : flags.surroundings.line (Surroundings.allWords (required.map String.toList)
      (optional.map String.toList) [] (orEmpty (slots.map String.toList)))
      = row [' '] ((arguments required optional slots).map String.toList)
        ++ if slots.isEmpty || endsEmpty required optional slots then [' '] else [] := by
    cases slots with
    | nil => rfl
    | cons slot rest =>
        rw [orEmpty, if_neg (by simp), Surroundings.line_allWords (isWord_map hrequired)
          (isWord_map hoptional) (List.forall_mem_map.mpr hslots), any_getLast?_map, arguments,
          map_flatMap_slotArguments]
        rfl
  rw [← String.toList_inj, toList_fillHoles flags.surroundings_wellFormed rfl hlaid hrequired
    hoptional ⟨Or.inl rfl, fun h => absurd rfl h⟩ hfits hname, hline]
  simp only [CommandFlags.usage, CommandFlags.headFor, String.toList_append, toList_join_map,
    apply_ite String.toList]
  simp [CommandFlags.surroundings]

/-! ### What a header does not name itself -/

/-- The required arguments that a header does not name, as usage lines show them. -/
def remainingRequired (header : Header) (required : List String) : List String :=
  (required.filter (!header.required.contains ·)).map showRequired

/-- The optional arguments that a header does not name, as usage lines show them. -/
def remainingOptional (header : Header) (optional : List String) : List String :=
  (optional.filter (!header.optional.contains ·)).map showOptional

theorem isWord_remainingRequired (header : Header) (h : ∀ word ∈ required, IsArgument word.toList) :
    ∀ word ∈ header.remainingRequired required, IsWord word.toList :=
  List.forall_mem_map.mpr fun word hword => isWord_showRequired (h word (List.mem_of_mem_filter hword))

theorem isWord_remainingOptional (header : Header) (h : ∀ word ∈ optional, IsMention word.toList) :
    ∀ word ∈ header.remainingOptional optional, IsWord word.toList :=
  List.forall_mem_map.mpr fun word hword => isWord_showOptional (h word (List.mem_of_mem_filter hword))

theorem contains_map_text (texts : List String) (s : String) :
    (texts.map Value.text).contains (.text s) = texts.contains s := by
  rw [Bool.eq_iff_iff]
  simp [Value.beq_text_iff]

theorem map_filter_text (header : Header) (required : List String) :
    ((required.map Value.text).filter (!(header.required.map Value.text).contains ·)).map
        (fun argument => showRequired argument.shown)
      = header.remainingRequired required := by
  rw [remainingRequired, List.filter_map, List.map_map]
  simp only [Function.comp_def, contains_map_text]
  rfl

end Header

end PluginHelp
