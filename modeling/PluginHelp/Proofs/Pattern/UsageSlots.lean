/-
What is found of the slots of a usage line.

A usage line is checked with one pattern and cut into slots with another one.  What is found leaves
nothing out but blanks exactly if the line is a row of slots, with blanks between them or none.  A
bare argument is then found up to its end, also where the check took it for several ones.

The two patterns differ in what they let stand in square brackets: the check lets dots stand
anywhere among the letters, but only a name with three dots behind it at most is found as a slot.
So a line that was accepted is a row of slots exactly if its brackets hold such arguments only.
-/
import PluginHelp.Proofs.Pattern.Names

namespace PluginHelp.Pattern

open PluginHelp.Text

variable {read rest text word inner : List Char} {captured : List (Nat × String)} {c : Char}

/-! ### Rows of slots -/

/-- What the brackets of a slot hold: nothing, or an argument. -/
def holdsArgument (inner : List Char) : Bool :=
  inner.isEmpty || isNamedArgument inner

theorem holdsArgument_iff :
    holdsArgument inner = true ↔ inner = [] ∨ isNamedArgument inner = true := by
  rw [holdsArgument, Bool.or_eq_true, List.isEmpty_iff]

/-- A hole or an argument, as it is written in a usage line. -/
inductive WrittenSlot : List Char → Prop
  | braced {inner : List Char} (h : holdsArgument inner = true) :
    WrittenSlot ('{' :: (inner ++ ['}']))
  | bracketed {inner : List Char} (h : holdsArgument inner = true) :
    WrittenSlot ('[' :: (inner ++ [']']))
  | hole : WrittenSlot ['{', ']']
  | bare {name mark : List Char} (hname : isName name = true) (hmark : mark = [] ∨ mark = dots) :
    WrittenSlot (name ++ mark)

/-- Slots one after the other, with blanks between them or none. -/
inductive SlotRow : List Char → Prop
  | nil : SlotRow []
  | blank {c : Char} {rest : List Char} (hc : isBlank c = true) : SlotRow rest → SlotRow (c :: rest)
  | slot {word rest : List Char} (hword : WrittenSlot word) : SlotRow rest → SlotRow (word ++ rest)

theorem isArgumentChar_of_holds (h : holdsArgument inner = true) :
    ∀ c ∈ inner, isArgumentChar c = true := by
  rcases holdsArgument_iff.mp h with rfl | h
  · simp
  · exact (isArgument_of_isNamedArgument h).2

theorem WrittenSlot.ne_nil (h : WrittenSlot word) : word ≠ [] := by
  cases h with
  | bare hname _ => simp [ne_nil_of_isName hname]
  | _ => simp

/-- A slot has no blank. -/
theorem WrittenSlot.solid (h : WrittenSlot word) : ∀ c ∈ word, isBlank c = false := by
  have hbracketed {opening closing : Char} {inner : List Char} (hopening : isBlank opening = false)
      (hclosing : isBlank closing = false) (hinner : holdsArgument inner = true) :
      ∀ c ∈ opening :: (inner ++ [closing]), isBlank c = false := by
    intro c hc
    simp only [List.mem_cons, List.mem_append, List.not_mem_nil, or_false] at hc
    rcases hc with rfl | hc | rfl
    · exact hopening
    · exact isBlank_of_isArgumentChar (isArgumentChar_of_holds hinner c hc)
    · exact hclosing
  cases h with
  | braced hinner => exact hbracketed rfl rfl hinner
  | bracketed hinner => exact hbracketed rfl rfl hinner
  | hole => exact hbracketed rfl rfl (show holdsArgument [] = true from rfl)
  | bare hname hmark =>
      have hargument := isNamedArgument_iff.mpr ⟨_, _, rfl, hname, hmark⟩
      exact fun c hc => isBlank_of_isArgumentChar ((isArgument_of_isNamedArgument hargument).2 c hc)

/-- What a row of slots begins with can begin an argument, or can be no part of one. -/
theorem SlotRow.head (h : SlotRow text) (hc : text.head? = some c) :
    isNameStart c = true ∨ isArgumentChar c = false := by
  cases h with
  | nil => cases hc
  | blank hblank _ =>
      obtain rfl := Option.some.inj hc
      refine Or.inr (Bool.eq_false_iff.mpr fun hchar => ?_)
      rw [isBlank_of_isArgumentChar hchar] at hblank
      cases hblank
  | slot hword _ =>
      cases hword with
      | @bare name _ hname _ =>
          cases name with
          | nil => cases hname
          | cons d name =>
              obtain rfl := Option.some.inj hc
              exact Or.inl (isName_cons.mp hname).1
      | _ =>
          obtain rfl := Option.some.inj hc
          exact Or.inr rfl

theorem SlotRow.of_blank (h : SlotRow (c :: rest)) (hc : isBlank c = true) : SlotRow rest := by
  generalize htext : c :: rest = text at h
  cases h with
  | nil => cases htext
  | blank _ hrest =>
      obtain ⟨-, rfl⟩ := List.cons.inj htext
      exact hrest
  | slot hword _ =>
      obtain ⟨d, word, rfl⟩ := List.exists_cons_of_ne_nil hword.ne_nil
      obtain ⟨rfl, -⟩ := List.cons.inj htext
      rw [hword.solid c List.mem_cons_self] at hc
      cases hc

theorem isName_append {name more : List Char} (hname : isName name = true)
    (hmore : isName more = true) : isName (name ++ more) = true := by
  cases name with
  | nil => cases hname
  | cons c name =>
      obtain ⟨hc, hrest⟩ := isName_cons.mp hname
      refine isName_cons.mpr ⟨hc, fun d hd => ?_⟩
      rcases List.mem_append.mp hd with hd | hd
      · exact hrest d hd
      · exact isNameRest_of_isName hmore d hd

/-- A bare argument at the start of a row of slots, up to its end.  Bare arguments right behind each
other without dots are one. -/
theorem SlotRow.bare (h : SlotRow text) :
    ∀ {c : Char}, text.head? = some c → isNameStart c = true →
      ∃ name mark rest, text = name ++ mark ++ rest ∧ isName name = true ∧ Bounded mark rest
        ∧ SlotRow rest := by
  induction h with
  | nil =>
      intro c hc
      cases hc
  | blank hblank _ _ =>
      intro c hc hstart
      obtain rfl := Option.some.inj hc
      have hchar := isArgumentChar_of_isNameRest (isNameRest_of_isNameStart hstart)
      rw [isBlank_of_isArgumentChar hchar] at hblank
      cases hblank
  | @slot word rest hword hrest ih =>
      intro c hc hstart
      cases hword with
      | bare hname hmark =>
          rcases hmark with rfl | rfl
          · -- Without dots the name goes on with the bare argument behind it, if there is one.
            by_cases hnext : ∃ d, rest.head? = some d ∧ isNameStart d = true
            · obtain ⟨d, hd, hdstart⟩ := hnext
              obtain ⟨more, mark, back, rfl, hmore, hmark, hback⟩ := ih hd hdstart
              exact ⟨_ ++ more, mark, back, by simp, isName_append hname hmore, hmark, hback⟩
            · refine ⟨_, [], rest, rfl, hname, Or.inr ⟨rfl, fun d hd => ?_⟩, hrest⟩
              exact (hrest.head hd).resolve_left fun hdstart => hnext ⟨d, hd, hdstart⟩
          · exact ⟨_, dots, rest, rfl, hname, Or.inl rfl, hrest⟩
      | _ =>
          obtain rfl := Option.some.inj hc
          cases hstart

theorem Bounded.mark {mark : List Char} (h : Bounded mark rest) : mark = [] ∨ mark = dots :=
  (h.imp_right And.left).symm

/-! ### Finding slots -/

theorem spells_slot (opening closing : Char) :
    Spells (char opening ++ Pattern.optional argument ++ char closing) fun text =>
      ∃ inner, text = opening :: (inner ++ [closing]) ∧ holdsArgument inner = true := by
  refine (((spells_char opening).seq spells_isNamedArgument.optional).seq
    (spells_char closing)).mono ?_
  rintro _ ⟨_, _, rfl, ⟨_, inner, rfl, rfl, hinner⟩, rfl⟩
  exact ⟨inner, rfl, holdsArgument_iff.mpr hinner.symm⟩

theorem spells_usageSlot : Spells usageSlot WrittenSlot := by
  refine ((spells_slot '{' '}').alt ((spells_slot '[' ']').alt ((spells_chars _).alt
    spells_isNamedArgument))).mono ?_
  rintro _ (⟨inner, rfl, hinner⟩ | ⟨inner, rfl, hinner⟩ | rfl | hargument)
  · exact .braced hinner
  · exact .bracketed hinner
  · exact .hole
  · obtain ⟨name, mark, rfl, hname, hmark⟩ := isNamedArgument_iff.mp hargument
    exact .bare hname hmark

theorem usageSlot_moves : Moves usageSlot :=
  spells_usageSlot.moves fun _ => WrittenSlot.ne_nil

theorem takes_slot {opening closing : Char} (hclosing : isArgumentChar closing = false)
    (hinner : holdsArgument inner = true) (read rest : List Char) :
    Takes (char opening ++ Pattern.optional argument ++ char closing)
      ⟨read, opening :: (inner ++ [closing]) ++ rest, captured⟩
      ⟨(opening :: (inner ++ [closing])).reverse ++ read, rest, captured⟩ := by
  have hoptional : Takes (Pattern.optional argument)
      ⟨opening :: read, inner ++ closing :: rest, captured⟩
      ⟨inner.reverse ++ opening :: read, closing :: rest, captured⟩ := by
    rcases holdsArgument_iff.mp hinner with rfl | hargument
    · refine (refuses_argument ?_).optional
      rintro c ⟨⟩
      exact isNameStart_of_isArgumentChar hclosing
    · exact (takes_closed_argument hargument hclosing _ rest).alt
  have htakes := ((takes_char opening read _ captured).seq hoptional).seq (takes_char closing _ _ _)
  simpa using htakes

/-- A slot in brackets begins with its bracket. -/
theorem refuses_slot {opening closing : Char} (h : rest.head? ≠ some opening) :
    Refuses (char opening ++ Pattern.optional argument ++ char closing) ⟨read, rest, captured⟩ := by
  refine (spells_slot opening closing).refuses ?_
  rintro _ back ⟨inner, rfl, -⟩ hrest
  exact h (congrArg List.head? hrest)

/-- The hole for all arguments is no slot in braces. -/
theorem refuses_bracedSlot_hole : Refuses bracedSlot ⟨read, '{' :: ']' :: rest, captured⟩ := by
  refine (spells_slot '{' '}').refuses ?_
  rintro _ back ⟨inner, rfl, hinner⟩ hrest
  cases inner with
  | nil => cases hrest
  | cons d inner =>
      obtain ⟨rfl, -⟩ := List.cons.inj (List.cons.inj hrest).2
      cases isArgumentChar_of_holds hinner ']' List.mem_cons_self

theorem refuses_argumentsHole (h : rest.head? ≠ some '{') :
    Refuses argumentsHole ⟨read, rest, captured⟩ := by
  refine (spells_chars _).refuses ?_
  rintro _ back rfl hrest
  exact h (congrArg List.head? hrest)

/-- Where a row of slots goes on without a blank, a slot is found, and a row of slots is left. -/
theorem SlotRow.takes (h : SlotRow text) (hc : text.head? = some c) (hsolid : isBlank c = false)
    (read : List Char) :
    ∃ word rest, text = word ++ rest ∧ WrittenSlot word ∧ SlotRow rest
      ∧ Takes usageSlot ⟨read, text, []⟩ ⟨word.reverse ++ read, rest, []⟩ := by
  have hrow := h
  cases h with
  | nil => cases hc
  | blank hblank _ =>
      obtain rfl := Option.some.inj hc
      rw [hsolid] at hblank
      cases hblank
  | @slot word rest hword hrest =>
      cases hword with
      | braced hinner =>
          exact ⟨_, rest, rfl, .braced hinner, hrest, (takes_slot rfl hinner read rest).alt⟩
      | bracketed hinner =>
          refine ⟨_, rest, rfl, .bracketed hinner, hrest, ?_⟩
          exact Takes.altSecond (takes_slot rfl hinner read rest).alt (refuses_slot (by simp))
      | hole =>
          refine ⟨_, rest, rfl, .hole, hrest, ?_⟩
          have hhole : Takes argumentsHole ⟨read, ['{', ']'] ++ rest, []⟩
              ⟨['{', ']'].reverse ++ read, rest, []⟩ :=
            (takes_char _ _ _ _).seq (takes_char _ _ _ _)
          exact (hhole.alt.altSecond (refuses_slot (by simp))).altSecond refuses_bracedSlot_hole
      | @bare name mark hname hmark =>
          obtain ⟨d, hd, hstart⟩ : ∃ d, (name ++ mark ++ rest).head? = some d
              ∧ isNameStart d = true := by
            cases name with
            | nil => cases hname
            | cons d name => exact ⟨d, rfl, (isName_cons.mp hname).1⟩
          have hnot {sign : Char} (hsign : isNameStart sign = false) :
              (name ++ mark ++ rest).head? ≠ some sign := by
            rw [hd]
            rintro ⟨⟩
            rw [hstart] at hsign
            cases hsign
          obtain ⟨name, mark, rest, htext, hname, hmark, hrest⟩ := hrow.bare hd hstart
          rw [htext] at hnot ⊢
          refine ⟨name ++ mark, rest, rfl, .bare hname hmark.mark, hrest, ?_⟩
          refine Takes.altSecond (Takes.altSecond (Takes.altSecond ?_ ?_) ?_) ?_
          · exact takes_argument hname hmark read
          · exact refuses_argumentsHole (hnot rfl)
          · exact refuses_slot (hnot rfl)
          · exact refuses_slot (hnot rfl)

/-- What is printed of a text: its characters without the blanks. -/
def unblanked (text : List Char) : List Char :=
  text.filter fun c => !isBlank c

theorem unblanked_append (h : ∀ c ∈ word, isBlank c = false) (rest : List Char) :
    unblanked (word ++ rest) = word ++ unblanked rest := by
  have hword : unblanked word = word := by
    refine List.filter_eq_self.mpr fun c hc => ?_
    rw [h c hc, Bool.not_false]
  rw [unblanked, List.filter_append]
  exact congrArg (· ++ unblanked rest) hword

/-- Where a slot is found, it stands, and its text is noted. -/
theorem exists_slot {t : Scan} (h : usageSlot.endFrom? false ⟨read, rest, []⟩ = some t) :
    ∃ word, rest = word ++ t.rest ∧ WrittenSlot word
      ∧ (usageSlot.found ⟨read, rest, []⟩ t).text.toList = word := by
  obtain ⟨word, hread, hrest, hword⟩ := spells_usageSlot _ _ (endFrom?_reaches h)
  refine ⟨word, hrest, hword, ?_⟩
  rw [found, Scan.since_eq hread, String.toList_ofList]

section

variable {found : List Match}

/-- What is found is a part of what is printed. -/
theorem Finds.slots_sublist (h : Finds usageSlot read rest found) :
    (found.flatMap (·.text.toList)).Sublist (unblanked rest) := by
  induction h with
  | done => exact .slnil
  | hit hend _ ih =>
      obtain ⟨word, hrest, hword, htext⟩ := exists_slot hend
      rw [List.flatMap_cons, htext, hrest, unblanked_append hword.solid]
      exact ih.append_left word
  | @skip read c rest found _ _ ih => exact ih.trans ((List.sublist_cons_self c rest).filter _)

/-- Of a row of slots, everything that is printed is found. -/
theorem Finds.slots_of_row (h : Finds usageSlot read rest found) (hrow : SlotRow rest) :
    found.flatMap (·.text.toList) = unblanked rest := by
  induction h with
  | done => rfl
  | @hit read rest found t hend _ ih =>
      obtain ⟨word, hrest, hword, htext⟩ := exists_slot hend
      obtain ⟨c, more, rfl⟩ := List.exists_cons_of_ne_nil hword.ne_nil
      have hhead : rest.head? = some c := by rw [hrest]; rfl
      obtain ⟨_, back, -, -, hback, htakes⟩ :=
        hrow.takes hhead (hword.solid c List.mem_cons_self) read
      have ht : t.rest = back := by
        rw [Option.some.inj (hend.symm.trans htakes.endFrom?)]
      rw [List.flatMap_cons, htext, hrest, unblanked_append hword.solid, ih (ht ▸ hback)]
  | @skip read c rest found hsilent _ ih =>
      by_cases hc : isBlank c = true
      · rw [ih (hrow.of_blank hc), unblanked, unblanked, List.filter_cons_of_neg (by simp [hc])]
      · obtain ⟨_, _, -, -, -, htakes⟩ := hrow.takes rfl (Bool.eq_false_iff.mpr hc) read
        cases hsilent.symm.trans htakes.endFrom?

/-- If everything that is printed is found, the text is a row of slots. -/
theorem Finds.row_of_slots (h : Finds usageSlot read rest found)
    (hall : found.flatMap (·.text.toList) = unblanked rest) : SlotRow rest := by
  induction h with
  | done => exact .nil
  | hit hend _ ih =>
      obtain ⟨word, hrest, hword, htext⟩ := exists_slot hend
      rw [List.flatMap_cons, htext, hrest, unblanked_append hword.solid] at hall
      rw [hrest]
      exact .slot hword (ih (List.append_cancel_left hall))
  | @skip read c rest found _ hfinds ih =>
      by_cases hc : isBlank c = true
      · rw [unblanked, List.filter_cons_of_neg (by simp [hc])] at hall
        exact .blank hc (ih hall)
      · -- A character that is printed was passed by.
        have hshort := hfinds.slots_sublist.length_le
        rw [hall, unblanked, List.filter_cons_of_pos (by simp [hc])] at hshort
        exact absurd hshort (Nat.not_succ_le_self _)

end

/-- The slots that are found in a text make it up, but for its blanks, exactly if it is a row of
them. -/
theorem join_usageSlots_iff (s : String) :
    String.join (usageSlot.findTexts s) = String.ofList (unblanked s.toList)
      ↔ SlotRow s.toList := by
  have hfinds := finds_findAll usageSlot_moves s
  have hjoin : (String.join (usageSlot.findTexts s)).toList
      = (usageSlot.findAll s).flatMap (·.text.toList) := by
    have htexts : usageSlot.findTexts s = (usageSlot.findAll s).map (·.text) := rfl
    rw [htexts, String.toList_join, List.flatMap_map]
  rw [← String.toList_inj, hjoin, String.toList_ofList]
  exact ⟨hfinds.row_of_slots, hfinds.slots_of_row⟩

/-! ### Accepted lines -/

/-- What stands in square brackets in a text: after each opening bracket the text up to the next
closing one. -/
def inBrackets : List Char → List (List Char)
  | [] => []
  | c :: rest =>
    if c == '[' then rest.takeWhile (· != ']') :: inBrackets rest else inBrackets rest

theorem inBrackets_append (h : '[' ∉ text) (rest : List Char) :
    inBrackets (text ++ rest) = inBrackets rest := by
  induction text with
  | nil => rfl
  | cons c text ih =>
      rw [List.mem_cons, not_or] at h
      rw [List.cons_append, inBrackets, if_neg (by simpa using Ne.symm h.1), ih h.2]

theorem mem_inBrackets_append (text : List Char) (h : inner ∈ inBrackets rest) :
    inner ∈ inBrackets (text ++ rest) := by
  induction text with
  | nil => exact h
  | cons c text ih =>
      rw [List.cons_append, inBrackets]
      split
      · exact List.mem_cons_of_mem _ ih
      · exact ih

/-- Brackets around characters of arguments. -/
theorem inBrackets_bracketed (h : ∀ c ∈ inner, isArgumentChar c = true) (rest : List Char) :
    inBrackets ('[' :: (inner ++ [']']) ++ rest) = inner :: inBrackets rest := by
  have hnot {sign : Char} (hsign : isArgumentChar sign = false) : sign ∉ inner := by
    intro hmem
    rw [h sign hmem] at hsign
    cases hsign
  have hclosed : (inner ++ ']' :: rest).takeWhile (· != ']') = inner := by
    rw [List.takeWhile_append_of_pos, List.takeWhile_cons_of_neg (by simp), List.append_nil]
    intro c hc
    simpa using fun hclosing => hnot rfl (hclosing ▸ hc)
  rw [List.cons_append, inBrackets, if_pos (by rfl), inBrackets_append (by simpa using hnot rfl),
    List.append_assoc]
  exact congrArg (· :: inBrackets rest) hclosed

theorem WrittenSlot.inBrackets_append (h : WrittenSlot word) (rest : List Char) :
    ∀ inner ∈ inBrackets (word ++ rest), holdsArgument inner = true ∨ inner ∈ inBrackets rest := by
  have hother (hopening : '[' ∉ word) : ∀ inner ∈ inBrackets (word ++ rest),
      holdsArgument inner = true ∨ inner ∈ inBrackets rest := by
    rw [Pattern.inBrackets_append hopening]
    exact fun _ => Or.inr
  have hnot {inner : List Char} (hinner : holdsArgument inner = true) : '[' ∉ inner :=
    fun hmem => by cases isArgumentChar_of_holds hinner _ hmem
  cases h with
  | braced hinner => exact hother (by simpa using hnot hinner)
  | bracketed hinner =>
      rw [inBrackets_bracketed (isArgumentChar_of_holds hinner)]
      exact List.forall_mem_cons.mpr ⟨Or.inl hinner, fun _ => Or.inr⟩
  | hole => exact hother (by simp)
  | bare hname hmark =>
      refine hother (hnot (holdsArgument_iff.mpr (Or.inr ?_)))
      exact isNamedArgument_iff.mpr ⟨_, _, rfl, hname, hmark⟩

theorem SlotRow.inBrackets (h : SlotRow text) :
    ∀ inner ∈ inBrackets text, holdsArgument inner = true := by
  induction h with
  | nil => simp [Pattern.inBrackets]
  | blank hc _ ih =>
      rw [Pattern.inBrackets, if_neg]
      · exact ih
      · rw [beq_iff_eq]
        rintro rfl
        cases hc
  | slot hword _ ih =>
      intro inner hinner
      rcases hword.inBrackets_append _ inner hinner with hholds | hrest
      · exact hholds
      · exact ih inner hrest

/-- What the check of a line takes for a slot: a slot, or dots and characters of names in any order
in square brackets. -/
def AcceptedSlot (word : List Char) : Prop :=
  WrittenSlot word
    ∨ ∃ inner, word = '[' :: (inner ++ [']']) ∧ ∀ c ∈ inner, isArgumentChar c = true

theorem spells_dottedSlot :
    Spells dottedSlot fun word =>
      ∃ inner, word = '[' :: (inner ++ [']']) ∧ ∀ c ∈ inner, isArgumentChar c = true := by
  refine (((spells_char '[').seq (((spells_one _).seq (spells_many_one _)).seq
    (spells_text "...").optional).optional).seq (spells_char ']')).mono ?_
  rintro _ ⟨_, _, rfl, ⟨_, inner, rfl, rfl, hinner⟩, rfl⟩
  refine ⟨inner, rfl, ?_⟩
  rcases hinner with ⟨_, mark, rfl, ⟨_, rest, rfl, ⟨c, rfl, hc⟩, hrest⟩, hmark⟩ | rfl
  · intro d hd
    rw [List.mem_append, List.mem_append, List.mem_singleton] at hd
    rcases hd with (rfl | hd) | hd
    · rcases Bool.or_eq_true_iff.mp hc with hstart | hdot
      · exact isArgumentChar_of_isNameRest (isNameRest_of_isNameStart hstart)
      · rw [isArgumentChar, hdot, Bool.or_true]
    · exact hrest d hd
    · rcases hmark with rfl | rfl
      · obtain rfl : d = '.' := by simpa using hd
        rfl
      · cases hd
  · simp

theorem spells_acceptedSlot :
    Spells (bracedSlot <|> dottedSlot <|> argument <|> argumentsHole) AcceptedSlot := by
  refine ((spells_slot '{' '}').alt (spells_dottedSlot.alt (spells_isNamedArgument.alt
    (spells_chars _)))).mono ?_
  rintro _ (⟨inner, rfl, hinner⟩ | hdotted | hargument | rfl)
  · exact Or.inl (.braced hinner)
  · exact Or.inr hdotted
  · obtain ⟨name, mark, rfl, hname, hmark⟩ := isNamedArgument_iff.mp hargument
    exact Or.inl (.bare hname hmark)
  · exact Or.inl .hole

/-- An accepted line is made of slots with blanks before them; a line end may stand behind them. -/
theorem exists_parts_of_fits {s : String} (h : usageLine.fits s = true) :
    ∃ (parts : List (List Char)) (last : List Char), s.toList = parts.flatten ++ last
      ∧ (∀ part ∈ parts, ∃ gap word, part = gap ++ word ∧ (∀ c ∈ gap, isBlank c = true)
        ∧ AcceptedSlot word)
      ∧ ∀ c ∈ last, c = '\n' := by
  obtain ⟨m, hm⟩ := Option.isSome_iff_exists.mp h
  obtain ⟨last, hs, ⟨parts, hall, hparts⟩, hlast⟩ :=
    ((spells_many_one _).seq spells_acceptedSlot).many.of_whole hm
  exact ⟨parts, last, hall ▸ hs, hparts, hlast⟩

theorem SlotRow.indent {gap : List Char} (hgap : ∀ c ∈ gap, isBlank c = true)
    (hrest : SlotRow rest) : SlotRow (gap ++ rest) := by
  induction gap with
  | nil => exact hrest
  | cons c gap ih =>
      obtain ⟨hc, hgap⟩ := List.forall_mem_cons.mp hgap
      exact .blank hc (ih hgap)

/-- Accepted slots are a row of slots if their brackets hold arguments only. -/
theorem slotRow_of_parts {parts : List (List Char)} {last : List Char}
    (hparts : ∀ part ∈ parts, ∃ gap word, part = gap ++ word ∧ (∀ c ∈ gap, isBlank c = true)
      ∧ AcceptedSlot word)
    (hlast : ∀ c ∈ last, c = '\n')
    (hholds : ∀ inner ∈ inBrackets (parts.flatten ++ last), holdsArgument inner = true) :
    SlotRow (parts.flatten ++ last) := by
  induction parts with
  | nil =>
      have hrow : SlotRow (last ++ []) := by
        refine SlotRow.indent (fun c hc => ?_) .nil
        rw [hlast c hc]
        rfl
      simpa using hrow
  | cons part parts ih =>
      obtain ⟨⟨gap, word, rfl, hgap, hword⟩, hmore⟩ := List.forall_mem_cons.mp hparts
      rw [List.flatten_cons, List.append_assoc, List.append_assoc] at hholds ⊢
      have hback : SlotRow (parts.flatten ++ last) := ih hmore fun inner hinner =>
        hholds inner (mem_inBrackets_append gap (mem_inBrackets_append word hinner))
      refine SlotRow.indent hgap ?_
      rcases hword with hword | ⟨inner, rfl, hinner⟩
      · exact .slot hword hback
      · refine .slot (.bracketed (hholds inner (mem_inBrackets_append gap ?_))) hback
        rw [inBrackets_bracketed hinner]
        exact List.mem_cons_self

/-- The check of a usage line and the search for its slots agree, nothing but blanks being dropped
or torn apart, exactly on the lines whose square brackets hold nothing or an argument. -/
theorem join_usageSlots_of_accepted (s : String) (haccepted : usageLine.fits s = true) :
    String.join (usageSlot.findTexts s) = String.ofList (s.toList.filter fun c => !isBlank c)
      ↔ ∀ inner ∈ inBrackets s.toList, inner = [] ∨ isNamedArgument inner = true := by
  refine (join_usageSlots_iff s).trans ?_
  simp only [← holdsArgument_iff]
  refine ⟨SlotRow.inBrackets, fun hholds => ?_⟩
  obtain ⟨parts, last, hs, hparts, hlast⟩ := exists_parts_of_fits haccepted
  rw [hs] at hholds ⊢
  exact slotRow_of_parts hparts hlast hholds

/-- Dots alone in square brackets are accepted, but are not found. -/
theorem join_usageSlots_of_accepted_dots :
    usageLine.fits "{list} [...]" = true
      ∧ String.join (usageSlot.findTexts "{list} [...]")
        ≠ String.ofList ("{list} [...]".toList.filter fun c => !isBlank c) := by
  have haccepted : usageLine.fits "{list} [...]" = true := by decide +kernel
  refine ⟨haccepted, (not_congr (join_usageSlots_of_accepted _ haccepted)).mpr fun hholds => ?_⟩
  rcases hholds dots (by decide +kernel) with hnil | hnamed
  · cases hnil
  · cases hnamed

end PluginHelp.Pattern
