/-
Names and arguments where they stand in a text.

An identifier is taken up to the first character that it cannot go on with, and an argument with the
dots behind it.  In running text and in the headers of usages, an argument in brackets counts only
if it stands by itself: after a blank or at the start, and with no word going on right behind it.
What is found there are exactly the arguments that do, since no argument in brackets covers the
bracket that another one begins with.
-/
import PluginHelp.Proofs.Pattern.Finding
import PluginHelp.Proofs.Pattern.Holes

namespace PluginHelp.Pattern

open PluginHelp.Text

variable {p : Pattern} {read rest : List Char} {captured : List (Nat × String)}

/-! ### Characters of names -/

theorem isArgumentChar_range {c : Char} (h : isArgumentChar c = true) :
    46 ≤ c.toNat ∧ c.toNat ≤ 122 := by
  simp only [isArgumentChar, isNameRest, isAsciiLetter, isAsciiDigit, Bool.or_eq_true,
    Bool.and_eq_true, decide_eq_true_eq, beq_iff_eq] at h
  rcases h with (((⟨hlow, hhigh⟩ | ⟨hlow, hhigh⟩) | ⟨hlow, hhigh⟩) | rfl) | rfl
  · exact ⟨Nat.le_trans (by decide) hlow, hhigh⟩
  · exact ⟨Nat.le_trans (by decide) hlow, Nat.le_trans hhigh (by decide)⟩
  · exact ⟨Nat.le_trans (by decide) hlow, Nat.le_trans hhigh (by decide)⟩
  · decide
  · decide

/-- The graphic characters of ASCII are no blanks. -/
theorem isBlank_of_graphic {c : Char} (hlow : 33 ≤ c.toNat) (hhigh : c.toNat ≤ 126) :
    isBlank c = false := by
  rw [Bool.eq_false_iff]
  intro hblank
  simp only [isBlank, Bool.or_eq_true, Bool.and_eq_true, decide_eq_true_eq, beq_iff_eq] at hblank
  omega

theorem isBlank_of_isArgumentChar {c : Char} (h : isArgumentChar c = true) : isBlank c = false := by
  obtain ⟨hlow, hhigh⟩ := isArgumentChar_range h
  exact isBlank_of_graphic (by omega) (by omega)

theorem isNameRest_of_isBlank {c : Char} (h : isBlank c = true) : isNameRest c = false := by
  rw [Bool.eq_false_iff]
  intro hname
  rw [isBlank_of_isArgumentChar (isArgumentChar_of_isNameRest hname)] at h
  cases h

theorem isBlank_of_isNameStart {c : Char} (h : isNameStart c = true) : isBlank c = false :=
  isBlank_of_isArgumentChar (isArgumentChar_of_isNameRest (isNameRest_of_isNameStart h))

theorem isNameStart_of_isArgumentChar {c : Char} (h : isArgumentChar c = false) :
    isNameStart c = false := by
  rw [Bool.eq_false_iff]
  intro hstart
  rw [isArgumentChar_of_isNameRest (isNameRest_of_isNameStart hstart)] at h
  cases h

/-! ### Names and arguments from a place on -/

/-- Where a name cannot begin, there is none. -/
theorem refuses_name (h : ∀ c, rest.head? = some c → isNameStart c = false) :
    Refuses name ⟨read, rest, captured⟩ := by
  have hfirst : Refuses (one isNameStart) ⟨read, rest, captured⟩ := refuses_one_of_rest h
  exact hfirst.seq

theorem refuses_argument (h : ∀ c, rest.head? = some c → isNameStart c = false) :
    Refuses argument ⟨read, rest, captured⟩ :=
  (refuses_name h).seq

/-- A class with a first character and others after it, up to the first one that is none of them. -/
theorem takes_run {first others : Char → Bool} {c : Char} {text : List Char}
    (hc : first c = true) (htext : ∀ d ∈ text, others d = true)
    (hrest : ∀ d, rest.head? = some d → others d = false) (read : List Char) :
    Takes (one first ++ many (one others)) ⟨read, c :: text ++ rest, captured⟩
      ⟨(c :: text).reverse ++ read, rest, captured⟩ := by
  rw [List.reverse_cons, List.append_assoc]
  exact (takes_one hc).seq (takes_many_one htext hrest (c :: read))

/-- A name ends where no character of it follows. -/
theorem takes_name {text : List Char} (h : isName text = true)
    (hrest : ∀ c, rest.head? = some c → isNameRest c = false) (read : List Char) :
    Takes name ⟨read, text ++ rest, captured⟩ ⟨text.reverse ++ read, rest, captured⟩ := by
  cases text with
  | nil => cases h
  | cons c text =>
      obtain ⟨hc, htext⟩ := isName_cons.mp h
      exact takes_run hc htext hrest read

/-- Where an argument ends: after its dots, or where neither its name nor dots can go on. -/
def Bounded (mark rest : List Char) : Prop :=
  mark = dots ∨ mark = [] ∧ ∀ c, rest.head? = some c → isArgumentChar c = false

theorem takes_argument {name mark : List Char} (hname : isName name = true)
    (hmark : Bounded mark rest) (read : List Char) :
    Takes argument ⟨read, name ++ mark ++ rest, captured⟩
      ⟨(name ++ mark).reverse ++ read, rest, captured⟩ := by
  rw [List.append_assoc, List.reverse_append, List.append_assoc]
  rcases hmark with rfl | ⟨rfl, hrest⟩
  · have hdots : Takes ellipsis ⟨name.reverse ++ read, dots ++ rest, captured⟩
        ⟨dots.reverse ++ (name.reverse ++ read), rest, captured⟩ :=
      (steps_chars dots).takes _ rest captured
    refine (takes_name hname ?_ read).seq hdots.alt
    rintro c ⟨⟩
    rfl
  · have hbound {c : Char} (hc : rest.head? = some c) : isNameRest c = false ∧ c ≠ '.' := by
      simpa [isArgumentChar] using hrest c hc
    have hnone : Refuses ellipsis ⟨name.reverse ++ read, rest, captured⟩ := by
      refine refuses_chars ?_
      rintro ⟨back, rfl⟩
      exact (hbound rfl).2 rfl
    refine (takes_name hname (fun c hc => (hbound hc).1) read).seq ?_
    exact hnone.optional

/-- An argument ends at the bracket behind it. -/
theorem takes_closed_argument {closing : Char} {text : List Char}
    (htext : isNamedArgument text = true) (hclosing : isArgumentChar closing = false)
    (read rest : List Char) :
    Takes argument ⟨read, text ++ closing :: rest, captured⟩
      ⟨text.reverse ++ read, closing :: rest, captured⟩ := by
  obtain ⟨name, mark, rfl, hname, hmark⟩ := isNamedArgument_iff.mp htext
  refine takes_argument hname ?_ read
  rcases hmark with rfl | rfl
  · refine Or.inr ⟨rfl, ?_⟩
    rintro c ⟨⟩
    exact hclosing
  · exact Or.inl rfl

/-! ### Arguments that stand by themselves -/

/-- A word stands by itself somewhere in a text: a blank or the start of the text is before it, and
no word goes on right behind it. -/
def StandsIn (word text : List Char) : Prop :=
  ∃ front back, text = front ++ word ++ back
    ∧ front.getLast?.all isBlank = true ∧ back.head?.any isWord = false

variable {opening closing : Char}

/-- A way through an argument in brackets, with what it captures. -/
theorem reaches_standing_argument {s t : Scan}
    (h : Reaches (standing (char opening ++ capture 1 argument ++ char closing)) s t) :
    ∃ text, isNamedArgument text = true ∧ s.rest = opening :: (text ++ closing :: t.rest)
      ∧ t.captured.lookup 1 = some (String.ofList text)
      ∧ s.read.head?.all isBlank = true ∧ t.rest.head?.any isWord = false := by
  obtain ⟨v, hfront, hend⟩ := h.of_seq
  obtain ⟨u, hstart, hbody⟩ := hfront.of_seq
  obtain ⟨rfl, hread⟩ := hstart.of_test
  obtain ⟨rfl, hrest⟩ := hend.of_test
  obtain ⟨w, hinner, hclosing⟩ := hbody.of_seq
  obtain ⟨v, hopening, hcapture⟩ := hinner.of_seq
  obtain ⟨w, hargument, rfl⟩ := hcapture.of_capture
  obtain ⟨_, -, hfirst, rfl⟩ := spells_char opening _ _ hopening
  obtain ⟨_, -, hlast, rfl⟩ := spells_char closing _ _ hclosing
  obtain ⟨text, hsince, hinside, htext⟩ := spells_isNamedArgument _ _ hargument
  refine ⟨text, htext, ?_, ?_, hread, by simpa using hrest⟩
  · rw [hfirst, hinside]
    exact congrArg (opening :: text ++ ·) hlast
  · rw [hclosing.lookup rfl, lookup_capture, Scan.since_eq hsince]

theorem spells_standing_argument :
    Spells (standing (char opening ++ capture 1 argument ++ char closing)) fun text =>
      ∃ inner, isNamedArgument inner = true ∧ text = opening :: (inner ++ [closing]) := by
  refine (((spells_char opening).seq (spells_isNamedArgument.capture 1)).seq
    (spells_char closing)).standing.mono ?_
  rintro _ ⟨_, _, rfl, ⟨_, inner, rfl, rfl, hinner⟩, rfl⟩
  exact ⟨inner, hinner, by simp⟩

theorem moves_standing_argument :
    Moves (standing (char opening ++ capture 1 argument ++ char closing)) := by
  refine spells_standing_argument.moves ?_
  rintro _ ⟨inner, -, rfl⟩
  exact List.cons_ne_nil _ _

theorem takes_standing_argument {text : List Char} (htext : isNamedArgument text = true)
    (hclosing : isArgumentChar closing = false) (hread : read.head?.all isBlank = true)
    (hrest : rest.head?.any isWord = false) :
    Takes (standing (char opening ++ capture 1 argument ++ char closing))
      ⟨read, opening :: (text ++ closing :: rest), []⟩
      ⟨closing :: (text.reverse ++ opening :: read), rest, [(1, String.ofList text)]⟩ := by
  have hinner : Takes (capture 1 argument) ⟨opening :: read, text ++ closing :: rest, []⟩
      ⟨text.reverse ++ opening :: read, closing :: rest, [(1, String.ofList text)]⟩ :=
    (takes_closed_argument htext hclosing _ rest).capture 1
  refine Takes.seq (Takes.seq (takes_test hread) ?_) (takes_test (by simpa using hrest))
  exact ((takes_char opening _ _ _).seq hinner).seq (takes_char closing _ _ _)

/-- What is found in a text are the arguments in brackets that stand by themselves. -/
theorem mem_findTexts_standing (hopening : isArgumentChar opening = false)
    (hclosing : isArgumentChar closing = false) (hne : opening ≠ closing) {argument s : String} :
    argument ∈ (standing (char opening ++ capture 1 Pattern.argument ++ char closing)).findTexts s
      ↔ isNamedArgument argument.toList = true
        ∧ StandsIn (opening :: (argument.toList ++ [closing])) s.toList := by
  generalize hp : standing (char opening ++ capture 1 Pattern.argument ++ char closing) = p
  have hcount : p.groupCount = 1 := by
    rw [← hp]
    rfl
  have hspells : Spells p fun text => ∃ c more, text = c :: more ∧ opening ∉ more := by
    rw [← hp]
    refine spells_standing_argument.mono ?_
    rintro _ ⟨text, htext, rfl⟩
    refine ⟨opening, text ++ [closing], rfl, fun hmem => ?_⟩
    rcases List.mem_append.mp hmem with hmem | hmem
    · have hchar := (isArgument_of_isNamedArgument htext).2 opening hmem
      rw [hopening] at hchar
      cases hchar
    · exact hne (List.mem_singleton.mp hmem)
  have hmoves : Moves p := by
    rw [← hp]
    exact moves_standing_argument
  have hfinds := finds_findAll hmoves s
  unfold findTexts
  rw [hcount]
  simp only [List.mem_map]
  constructor
  · rintro ⟨m, hm, rfl⟩
    obtain ⟨front, back, t, hs, hend, rfl⟩ := hfinds.exists_place hm
    have hreaches := endFrom?_reaches hend
    rw [← hp] at hreaches
    obtain ⟨text, htext, hback, hlookup, hread, hrest⟩ := reaches_standing_argument hreaches
    have hgroup : (p.found ⟨front.reverse ++ [], back, []⟩ t).group 1 = String.ofList text := by
      rw [group_found (by omega), hlookup, Option.getD_some]
    rw [if_neg (by decide), hgroup, String.toList_ofList]
    refine ⟨htext, front, t.rest, ?_, ?_, hrest⟩
    · rw [hs, show back = _ from hback]
      simp
    · simpa using hread
  · rintro ⟨htext, front, back, hs, hfront, hback⟩
    have hplace : s.toList = front ++ opening :: (argument.toList ++ closing :: back) := by
      rw [hs]
      simp
    have htakes : Takes p ⟨front.reverse ++ [], opening :: (argument.toList ++ closing :: back), []⟩
        ⟨closing :: (argument.toList.reverse ++ opening :: (front.reverse ++ [])), back,
          [(1, String.ofList argument.toList)]⟩ := by
      rw [← hp]
      exact takes_standing_argument htext hclosing (by simpa using hfront) hback
    refine ⟨_, hfinds.mem_of_endFrom? hspells hplace htakes.endFrom?, ?_⟩
    rw [if_neg (by decide), group_found (by omega)]
    simp

end PluginHelp.Pattern
