/-
The slots of a usage line.

A slot is a hole for arguments, or an argument in its brackets.  Names and arguments are inert: none
of the steps in which a usage line is filled finds anything in them, neither alone nor next to each
other.  So no step disturbs what an earlier one has put there.
-/
import PluginHelp.Entry.Usage
import PluginHelp.Proofs.Pattern.UsageSlots

namespace PluginHelp.Header

open PluginHelp.Pattern PluginHelp.Text

/-! ### Inert text -/

/-- What the holes for arguments begin with. -/
def argumentPairs : List (Char × Char) :=
  [('{', ']'), ('{', '}'), ('[', ']')]

theorem brace_mem : ('{', '}') ∈ argumentPairs := by
  simp [argumentPairs]

theorem bracket_mem : ('[', ']') ∈ argumentPairs := by
  simp [argumentPairs]

/-- What the hole for the name begins with, and what stands for a hole as text. -/
def markPairs : List (Char × Char) :=
  [('<', '>'), ('<', '|'), ('{', '|'), ('[', '|')]

/-- None of the pairs stands in a text, nor begins at its end. -/
def Calm (pairs : List (Char × Char)) (text : List Char) : Prop :=
  ∀ pair ∈ pairs, calm pair.1 pair.2 text = true

theorem Calm.append {pairs : List (Char × Char)} {front back : List Char}
    (hfront : Calm pairs front) (hback : Calm pairs back) : Calm pairs (front ++ back) :=
  fun pair hpair => calm_append (hfront pair hpair) (hback pair hpair)

theorem Calm.row {pairs : List (Char × Char)} {sep : List Char} {words : List (List Char)}
    (hsep : Calm pairs sep) (hwords : ∀ word ∈ words, Calm pairs word) :
    Calm pairs (row sep words) := by
  induction words with
  | nil => exact fun _ _ => rfl
  | cons word words ih =>
      obtain ⟨hword, hmore⟩ := List.forall_mem_cons.mp hwords
      rw [row_cons]
      exact hsep.append (hword.append (ih hmore))

/-- A text in which no step finds anything. -/
structure Inert (text : List Char) : Prop where
  holes : Calm argumentPairs text
  marks : Calm markPairs text
  unseparated : Unseparated text

theorem Inert.append {front back : List Char} (hfront : Inert front) (hback : Inert back) :
    Inert (front ++ back) where
  holes := hfront.holes.append hback.holes
  marks := hfront.marks.append hback.marks
  unseparated c hc := by
    rcases List.mem_append.mp hc with hc | hc
    · exact hfront.unseparated c hc
    · exact hback.unseparated c hc

/-- The characters that mean something to some step. -/
def signs : List Char :=
  ['{', '[', '<', ' ', ',']

theorem fst_mem_signs {pair : Char × Char} (h : pair ∈ argumentPairs ++ markPairs) :
    pair.1 ∈ signs := by
  have hall : (argumentPairs ++ markPairs).all (fun pair => signs.contains pair.1) = true := rfl
  simpa using List.all_eq_true.mp hall pair h

theorem inert_of_signless {text : List Char} (h : ∀ c ∈ text, c ∉ signs) : Inert text := by
  have hcalm {pair : Char × Char} (hpair : pair ∈ argumentPairs ++ markPairs) :
      calm pair.1 pair.2 text = true :=
    calm_of_not_mem fun hmem => h _ hmem (fst_mem_signs hpair)
  refine ⟨fun pair hpair => hcalm (List.mem_append_left _ hpair),
    fun pair hpair => hcalm (List.mem_append_right _ hpair), fun c hc => ⟨?_, ?_⟩⟩
  · rintro rfl
    exact h ' ' hc (by decide)
  · rintro rfl
    exact h ',' hc (by decide)

/-- A given text is seen to be inert by looking at it. -/
theorem inert_of_all {text : List Char}
    (h : ((argumentPairs ++ markPairs).all (fun pair => calm pair.1 pair.2 text)
      && text.all fun c => c != ' ' && c != ',') = true) : Inert text := by
  obtain ⟨hpairs, hchars⟩ := Bool.and_eq_true_iff.mp h
  refine ⟨fun pair hpair => ?_, fun pair hpair => ?_, fun c hc => ?_⟩
  · exact List.all_eq_true.mp hpairs pair (List.mem_append_left _ hpair)
  · exact List.all_eq_true.mp hpairs pair (List.mem_append_right _ hpair)
  · simpa using List.all_eq_true.mp hchars c hc

/-- The characters that must not stand right behind an opening bracket. -/
def closers : List Char :=
  [']', '}', '>', '|']

theorem snd_mem_closers {pair : Char × Char} (h : pair ∈ argumentPairs ++ markPairs) :
    pair.2 ∈ closers := by
  have hall : (argumentPairs ++ markPairs).all (fun pair => closers.contains pair.2) = true := rfl
  simpa using List.all_eq_true.mp hall pair h

/-- An inert text in brackets is inert, if it does not begin with what closes brackets. -/
theorem inert_bracketed {opening closing c : Char} {text : List Char}
    (hopening : opening ≠ ' ' ∧ opening ≠ ',') (hclosing : closing ∉ signs)
    (h : Inert (c :: text)) (hc : c ∉ closers) : Inert (opening :: (c :: text ++ [closing])) := by
  have hinner : Inert (c :: text ++ [closing]) :=
    h.append (inert_of_signless (by simpa using hclosing))
  have hcalm {pair : Char × Char} (hpair : pair ∈ argumentPairs ++ markPairs)
      (hinner : calm pair.1 pair.2 (c :: text ++ [closing]) = true) :
      calm pair.1 pair.2 (opening :: (c :: text ++ [closing])) = true := by
    refine calm_cons.mpr ⟨fun _ => ⟨c, rfl, ?_⟩, hinner⟩
    rintro rfl
    exact hc (snd_mem_closers hpair)
  exact ⟨fun pair hpair => hcalm (List.mem_append_left _ hpair) (hinner.holes pair hpair),
    fun pair hpair => hcalm (List.mem_append_right _ hpair) (hinner.marks pair hpair),
    List.forall_mem_cons.mpr ⟨hopening, hinner.unseparated⟩⟩

/-! ### Arguments -/

theorem not_mem_signs_of_isArgumentChar {c : Char} (h : isArgumentChar c = true) : c ∉ signs := by
  intro hmem
  have hall : signs.all (!isArgumentChar ·) = true := rfl
  have hnot := List.all_eq_true.mp hall c hmem
  rw [h] at hnot
  cases hnot

theorem not_mem_closers_of_isArgumentChar {c : Char} (h : isArgumentChar c = true) :
    c ∉ closers := by
  intro hmem
  have hall : closers.all (!isArgumentChar ·) = true := rfl
  have hnot := List.all_eq_true.mp hall c hmem
  rw [h] at hnot
  cases hnot

theorem inert_of_isArgument {text : List Char} (h : IsArgument text) : Inert text :=
  inert_of_signless fun c hc => not_mem_signs_of_isArgumentChar (h.2 c hc)

/-- An argument in brackets is inert. -/
theorem inert_bracketed_argument {opening closing : Char} {text : List Char}
    (hopening : opening ≠ ' ' ∧ opening ≠ ',') (hclosing : closing ∉ signs) (h : IsArgument text) :
    Inert (opening :: (text ++ [closing])) := by
  obtain ⟨c, rest, rfl⟩ := List.exists_cons_of_ne_nil h.1
  exact inert_bracketed hopening hclosing (inert_of_isArgument h)
    (not_mem_closers_of_isArgumentChar (h.2 c (by simp)))

/-- What documentation mentions as an optional argument: its name, which a default value may have in
brackets. -/
def IsMention (text : List Char) : Prop :=
  IsArgument text ∨ ∃ name, IsArgument name ∧ text = '[' :: (name ++ [']'])

theorem toList_enclosed (opening closing : Char) (text : String) :
    (enclosed opening closing text).toList = opening :: (text.toList ++ [closing]) := by
  simp [enclosed]

theorem toList_showRequired (argument : String) :
    (showRequired argument).toList = '{' :: (argument.toList ++ ['}']) :=
  toList_enclosed '{' '}' argument

theorem toList_showOptional (argument : String) :
    (showOptional argument).toList = '[' :: (argument.toList ++ [']']) :=
  toList_enclosed '[' ']' argument

/-- A word of a usage line that is neither empty nor a hole. -/
structure IsWord (word : List Char) : Prop where
  inert : Inert word
  nonempty : word ≠ []

theorem isWord_showRequired {argument : String} (h : IsArgument argument.toList) :
    IsWord (showRequired argument).toList := by
  rw [toList_showRequired]
  exact ⟨inert_bracketed_argument (by decide) (by decide) h, by simp⟩

theorem isWord_showOptional {argument : String} (h : IsMention argument.toList) :
    IsWord (showOptional argument).toList := by
  rw [toList_showOptional]
  refine ⟨?_, by simp⟩
  rcases h with h | ⟨name, hname, heq⟩
  · exact inert_bracketed_argument (by decide) (by decide) h
  · rw [heq]
    exact inert_bracketed (by decide) (by decide)
      (inert_bracketed_argument (by decide) (by decide) hname) (by decide)

/-! ### Slots -/

/-- The hole for all arguments. -/
def holeForAll : List Char :=
  ['{', ']']

theorem toList_allHole : allHole.toList = holeForAll :=
  toList_enclosed '{' ']' ""

/-- The hole for the required arguments. -/
def holeForRequired : List Char :=
  ['{', '}']

/-- The hole for the optional arguments. -/
def holeForOptional : List Char :=
  ['[', ']']

/-- A hole, or an argument in its brackets. -/
def IsSlot (slot : List Char) : Prop :=
  slot = holeForAll ∨ slot = holeForRequired ∨ slot = holeForOptional ∨ IsWord slot

/-- What may stand in a row of slots: a slot, or nothing. -/
def Fits (word : List Char) : Prop :=
  word = [] ∨ IsSlot word

/-- What is written in brackets is their hole, or an argument. -/
theorem isSlot_of_holds {opening closing : Char} {inner : List Char}
    (hopening : opening ≠ ' ' ∧ opening ≠ ',') (hclosing : closing ∉ signs)
    (hhole : IsSlot [opening, closing]) (hinner : holdsArgument inner = true) :
    IsSlot (opening :: (inner ++ [closing])) := by
  rcases holdsArgument_iff.mp hinner with rfl | hargument
  · exact hhole
  · exact Or.inr (Or.inr (Or.inr ⟨inert_bracketed_argument hopening hclosing
      (isArgument_of_isNamedArgument hargument), List.cons_ne_nil _ _⟩))

theorem normalSlot_of_bracket {slot : String}
    (h : slot.toList.head? = some '[' ∨ slot.toList.head? = some '{') :
    normalSlot slot = slot := by
  unfold normalSlot
  rcases h with h | h <;> rw [h] <;> rfl

theorem normalSlot_of_argument {slot : String} (h : IsArgument slot.toList) :
    normalSlot slot = showRequired slot := by
  obtain ⟨c, rest, hslot⟩ := List.exists_cons_of_ne_nil h.1
  have hc : isArgumentChar c = true := h.2 c (by rw [hslot]; simp)
  unfold normalSlot
  rw [hslot]
  split
  · rename_i heq
    obtain rfl := Option.some.inj heq
    cases hc
  · rename_i heq
    obtain rfl := Option.some.inj heq
    cases hc
  · rfl

/-- The slots of a usage line, with bare arguments in their braces. -/
def slots (usage : String) : List String :=
  (usageSlot.findTexts usage).map normalSlot

/-- Whatever a usage line says, its slots are holes and arguments. -/
theorem isSlot_slots (usage : String) : ∀ slot ∈ slots usage, IsSlot slot.toList := by
  refine List.forall_mem_map.mpr fun found hfound => ?_
  have hwritten := spells_usageSlot.of_mem_findTexts rfl hfound
  have hkept {c : Char} {back : List Char} (hc : c = '[' ∨ c = '{')
      (htext : found.toList = c :: back) : normalSlot found = found := by
    refine normalSlot_of_bracket ?_
    rw [htext]
    rcases hc with rfl | rfl
    · exact Or.inl rfl
    · exact Or.inr rfl
  generalize htext : found.toList = text at hwritten
  cases hwritten with
  | braced hinner =>
      rw [hkept (Or.inr rfl) htext, htext]
      exact isSlot_of_holds (by decide) (by decide) (Or.inr (Or.inl rfl)) hinner
  | bracketed hinner =>
      rw [hkept (Or.inl rfl) htext, htext]
      exact isSlot_of_holds (by decide) (by decide) (Or.inr (Or.inr (Or.inl rfl))) hinner
  | hole =>
      rw [hkept (Or.inr rfl) htext, htext]
      exact Or.inl rfl
  | bare hname hmark =>
      have hargument := isArgument_of_isNamedArgument
        (isNamedArgument_iff.mpr ⟨_, _, htext, hname, hmark⟩)
      rw [normalSlot_of_argument hargument]
      exact Or.inr (Or.inr (Or.inr (isWord_showRequired hargument)))

end PluginHelp.Header
