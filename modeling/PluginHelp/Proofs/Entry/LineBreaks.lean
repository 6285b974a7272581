/-
Arguments and the ends of lines.

An argument in brackets counts where it stands by itself, after a blank or at the start of a text, and
no word goes on right behind it.  So it is the beginning of a word, and each word of a text has one at
most: what a search finds can be read off the words, one by one.  A blank between two texts keeps
their words apart, so it makes no difference whether they are searched together or one after the
other.

The names that are found are added to those known already, and what is known is never listed twice.
Leaving out repetitions on the way comes to the same as leaving them out in the end, as a name keeps
the place where it occurred first.
-/
import PluginHelp.Proofs.Entry.Words
import PluginHelp.Proofs.Pattern.Names

namespace PluginHelp

/-! ### Words -/

namespace Text

/-- The code points of the blanks. -/
def blankCodes : List Nat :=
  List.range' 9 5 ++ List.range' 28 5 ++ List.range' 0x2000 11
    ++ [0x85, 0xA0, 0x1680, 0x2028, 0x2029, 0x202F, 0x205F, 0x3000]

theorem mem_blankCodes {c : Char} (h : isBlank c = true) : c.toNat ∈ blankCodes := by
  simp only [isBlank, Bool.or_eq_true, Bool.and_eq_true, decide_eq_true_eq, beq_iff_eq] at h
  simp only [blankCodes, List.mem_append, List.mem_range'_1, List.mem_cons, List.not_mem_nil, or_false]
  omega

/-- No word has a blank in it. -/
theorem isWord_of_isBlank {c : Char} (h : isBlank c = true) : isWord c = false := by
  have hcodes : (blankCodes.all fun n => !isWord (Char.ofNat n)) = true := by
    decide +kernel
  have hc := List.all_eq_true.mp hcodes _ (mem_blankCodes h)
  rwa [Char.ofNat_toNat, Bool.not_eq_true'] at hc

theorem words_blank_cons {blank : Char} (h : isBlank blank = true) (rest : List Char) :
    words (blank :: rest) = words rest := by
  have hsplit := words_append_blank [] rest h
  rwa [words_nil, List.nil_append, List.nil_append] at hsplit

/-- Every text is a word, which may be empty, and what follows it. -/
theorem exists_word (text : List Char) :
    ∃ word rest, text = word ++ rest ∧ (∀ c ∈ word, isBlank c = false)
      ∧ rest.head?.all isBlank = true := by
  refine ⟨text.takeWhile (!isBlank ·), text.dropWhile (!isBlank ·),
    List.takeWhile_append_dropWhile.symm, ?_, ?_⟩
  · intro c hc
    simpa using List.all_eq_true.mp List.all_takeWhile c hc
  · cases hhead : (text.dropWhile (!isBlank ·)).head? with
    | none => rfl
    | some c => simpa using Pattern.head?_dropWhile _ text c hhead

/-- A text is a word and what follows it, if a blank or nothing does. -/
theorem words_solid_append {word rest : List Char} (hne : word ≠ [])
    (hword : ∀ c ∈ word, isBlank c = false) (hrest : rest.head?.all isBlank = true) :
    words (word ++ rest) = word :: words rest := by
  have hone : words word = [word] := by
    rw [words, List.splitOnP_eq_singleton hword]
    simp [hne]
  cases rest with
  | nil => rw [List.append_nil, hone, words_nil]
  | cons blank rest =>
      have hblank : isBlank blank = true := hrest
      rw [words_append_blank word rest hblank, hone, words_blank_cons hblank, List.singleton_append]

end Text

/-! ### The arguments of words -/

namespace Pattern

open Text

variable {opening closing : Char} {read rest word : List Char} {found : List Match}

/-- The argument in brackets that a word begins with.  No word may go on right behind it. -/
def wordArgument? (opening closing : Char) : (word : List Char) → Option String
  | [] => none
  | c :: word =>
    match word.dropWhile isArgumentChar with
    | [] => none
    | d :: tail =>
      if c == opening && d == closing && isNamedArgument (word.takeWhile isArgumentChar)
          && !tail.head?.any isWord then
        some (String.ofList (word.takeWhile isArgumentChar))
      else
        none

theorem wordArgument?_eq_some_iff (hclosing : isArgumentChar closing = false) {argument : String} :
    wordArgument? opening closing word = some argument
      ↔ ∃ text tail, word = opening :: (text ++ closing :: tail) ∧ isNamedArgument text = true
          ∧ tail.head?.any isWord = false ∧ argument = String.ofList text := by
  constructor
  · intro h
    cases word with
    | nil => cases h
    | cons c word =>
        have hword := List.takeWhile_append_dropWhile (p := isArgumentChar) (l := word)
        rw [wordArgument?] at h
        split at h
        · cases h
        · rename_i d tail hbehind
          rw [hbehind] at hword
          split at h
          · rename_i hboth
            simp only [Bool.and_eq_true, beq_iff_eq, Bool.not_eq_true'] at hboth
            obtain ⟨⟨⟨rfl, rfl⟩, htext⟩, htail⟩ := hboth
            exact ⟨_, tail, by rw [hword], htext, htail, (Option.some.inj h).symm⟩
          · cases h
  · rintro ⟨text, tail, rfl, htext, htail, rfl⟩
    have hall := (isArgument_of_isNamedArgument htext).2
    have hbehind : (text ++ closing :: tail).dropWhile isArgumentChar = closing :: tail := by
      rw [List.dropWhile_append_of_pos hall, List.dropWhile_cons_of_neg (by simp [hclosing])]
    have hinside : (text ++ closing :: tail).takeWhile isArgumentChar = text := by
      rw [List.takeWhile_append_of_pos hall, List.takeWhile_cons_of_neg (by simp [hclosing]),
        List.append_nil]
    rw [wordArgument?, hbehind, hinside]
    simp [htext, htail]

/-- The arguments in brackets that the words of a text begin with. -/
def wordArguments (opening closing : Char) (text : String) : List String :=
  (words text.toList).filterMap (wordArgument? opening closing)

/-- A space keeps the words of two texts apart, and so their arguments. -/
theorem wordArguments_append_space (front back : String) :
    wordArguments opening closing (front ++ " " ++ back)
      = wordArguments opening closing front ++ wordArguments opening closing back := by
  have htext : (front ++ " " ++ back).toList = front.toList ++ ' ' :: back.toList := by simp
  have hspace : isBlank ' ' = true := rfl
  rw [wordArguments, htext, words_append_blank _ _ hspace, List.filterMap_append]
  rfl

/-- Inside a word no match begins. -/
theorem Finds.solid {p : Pattern} {tail : List Char} (htail : ∀ c ∈ tail, isBlank c = false) :
    ∀ {c : Char} {read : List Char}, isBlank c = false →
      Finds (standing p) (tail.reverse ++ c :: read) rest found →
        Finds (standing p) (c :: read) (tail ++ rest) found := by
  induction tail with
  | nil =>
      intro c read _ h
      exact h
  | cons d tail ih =>
      intro c read hc h
      obtain ⟨hd, htail⟩ := List.forall_mem_cons.mp htail
      rw [List.reverse_cons, List.append_assoc] at h
      exact .skip (silent_standing p hc) (ih htail hd h)

/-- An argument in brackets that stands by itself. -/
abbrev standingArgument (opening closing : Char) : Pattern :=
  standing (char opening ++ capture 1 argument ++ char closing)

theorem groupCount_standingArgument (opening closing : Char) :
    (standingArgument opening closing).groupCount = 1 :=
  rfl

/-- Characters that can be the brackets of an argument. -/
structure AreBrackets (opening closing : Char) : Prop where
  opens : isBlank opening = false
  closes : isBlank closing = false
  ends : isArgumentChar closing = false

/-- An argument in brackets that begins with a word ends in it. -/
theorem exists_wordArgument {t : Scan} {captured : List (Nat × String)}
    (hbrackets : AreBrackets opening closing) (hne : word ≠ [])
    (hrest : rest.head?.all isBlank = true)
    (h : Reaches (standingArgument opening closing) ⟨read, word ++ rest, captured⟩ t) :
    ∃ argument, wordArgument? opening closing word = some argument := by
  obtain ⟨text, htext, hplace, -, -, htail⟩ := reaches_standing_argument h
  have hsolid : ∀ c ∈ opening :: (text ++ [closing]), isBlank c = false := by
    intro c hc
    simp only [List.mem_cons, List.mem_append, List.not_mem_nil, or_false] at hc
    rcases hc with rfl | hc | rfl
    · exact hbrackets.opens
    · exact isBlank_of_isArgumentChar ((isArgument_of_isNamedArgument htext).2 c hc)
    · exact hbrackets.closes
  have hboth : word ++ rest = opening :: (text ++ [closing]) ++ t.rest := by
    rw [show word ++ rest = _ from hplace]
    simp
  -- If the word ended before the bracket, a blank would stand inside of the argument.
  obtain ⟨tail, rfl, hbehind⟩ : ∃ tail, word = opening :: (text ++ [closing]) ++ tail
      ∧ t.rest = tail ++ rest := by
    rcases List.append_eq_append_iff.mp hboth with ⟨gap, hgap, hover⟩ | ⟨tail, hword, htail⟩
    · cases gap with
      | nil => exact ⟨[], by simpa using hgap.symm, by simpa using hover.symm⟩
      | cons c gap =>
          rw [hover] at hrest
          have hc := hsolid c (by rw [hgap]; simp)
          rw [show isBlank c = true from hrest] at hc
          cases hc
    · exact ⟨tail, hword, htail⟩
  refine ⟨_, (wordArgument?_eq_some_iff hbrackets.ends).mpr ⟨text, tail, by simp, htext, ?_, rfl⟩⟩
  cases tail with
  | nil => rfl
  | cons c tail => rwa [hbehind] at htail

/-- A word adds the argument that it begins with to those that follow. -/
theorem exists_finds_word (hbrackets : AreBrackets opening closing) (hne : word ≠ [])
    (hword : ∀ c ∈ word, isBlank c = false) (hread : read.head?.all isBlank = true)
    (hrest : rest.head?.all isBlank = true)
    (h : Finds (standingArgument opening closing) (word.reverse ++ read) rest found) :
    ∃ more, Finds (standingArgument opening closing) read (word ++ rest) more
      ∧ more.map (·.group 1)
        = (wordArgument? opening closing word).toList ++ found.map (·.group 1) := by
  cases hargument : wordArgument? opening closing word with
  | none =>
      cases word with
      | nil => exact absurd rfl hne
      | cons c tail =>
          obtain ⟨hc, htail⟩ := List.forall_mem_cons.mp hword
          rw [List.reverse_cons, List.append_assoc] at h
          refine ⟨found, .skip (silent_of_not_reaches fun t ht => ?_) (Finds.solid htail hc h), rfl⟩
          obtain ⟨argument, hsome⟩ := exists_wordArgument hbrackets hne hrest ht
          rw [hargument] at hsome
          cases hsome
  | some argument =>
      obtain ⟨text, tail, rfl, htext, htail, rfl⟩ :=
        (wordArgument?_eq_some_iff hbrackets.ends).mp hargument
      have hbehind : (tail ++ rest).head?.any isWord = false := by
        cases tail with
        | nil =>
            cases rest with
            | nil => rfl
            | cons blank rest => exact isWord_of_isBlank hrest
        | cons c tail => exact htail
      have hinside : ∀ c ∈ tail, isBlank c = false := by
        intro c hc
        exact hword c (by simp [hc])
      have hplace : (opening :: (text ++ closing :: tail)).reverse ++ read
          = tail.reverse ++ closing :: (text.reverse ++ opening :: read) := by
        simp
      have htakes : Takes (standingArgument opening closing)
          ⟨read, opening :: (text ++ closing :: (tail ++ rest)), []⟩ _ :=
        takes_standing_argument htext hbrackets.ends hread hbehind
      rw [hplace] at h
      rw [List.cons_append, List.append_assoc, List.cons_append]
      refine ⟨_, .hit htakes.endFrom? (Finds.solid hinside hbrackets.closes h), ?_⟩
      rw [List.map_cons, group_found (by rw [groupCount_standingArgument]; exact Nat.one_pos)]
      rfl

/-- At a blank no argument begins. -/
theorem Finds.blank (hbrackets : AreBrackets opening closing) {blank : Char}
    (hblank : isBlank blank = true)
    (h : Finds (standingArgument opening closing) (blank :: read) rest found) :
    Finds (standingArgument opening closing) read (blank :: rest) found := by
  refine .skip (silent_of_not_reaches fun t ht => ?_) h
  obtain ⟨text, -, hplace, -⟩ := reaches_standing_argument ht
  obtain ⟨rfl, -⟩ := List.cons.inj hplace
  rw [hbrackets.opens] at hblank
  cases hblank

/-- From the start of a word on, what is found are the arguments of the words. -/
theorem exists_finds_words (hbrackets : AreBrackets opening closing) (rest : List Char) :
    ∀ read : List Char, read.head?.all isBlank = true →
      ∃ found, Finds (standingArgument opening closing) read rest found
        ∧ found.map (·.group 1) = (words rest).filterMap (wordArgument? opening closing) := by
  induction hlength : rest.length using Nat.strongRecOn generalizing rest with
  | _ length ih =>
      -- After a blank, or at the end, the start of a word has been reached again.
      have hback : ∀ back read : List Char, back.length ≤ length → back.head?.all isBlank = true →
          ∃ found, Finds (standingArgument opening closing) read back found
            ∧ found.map (·.group 1) = (words back).filterMap (wordArgument? opening closing) := by
        intro back read hless hhead
        cases back with
        | nil => exact ⟨[], .done, rfl⟩
        | cons blank back =>
            obtain ⟨found, hfound, hnames⟩ := ih _ hless back rfl (blank :: read) hhead
            exact ⟨found, hfound.blank hbrackets hhead, by rw [words_blank_cons hhead, hnames]⟩
      intro read hread
      obtain ⟨word, back, rfl, hword, hhead⟩ := exists_word rest
      obtain ⟨found, hfound, hnames⟩ :=
        hback back (word.reverse ++ read) (by rw [← hlength]; simp) hhead
      by_cases hne : word = []
      · subst hne
        exact ⟨found, hfound, hnames⟩
      · obtain ⟨more, hmore, hall⟩ := exists_finds_word hbrackets hne hword hread hhead hfound
        refine ⟨more, hmore, ?_⟩
        rw [words_solid_append hne hword hhead, hall, hnames]
        cases hargument : wordArgument? opening closing word with
        | none => rw [List.filterMap_cons_none hargument]; rfl
        | some argument => rw [List.filterMap_cons_some hargument]; rfl

/-- What a search finds in a text are the arguments of its words. -/
theorem findTexts_standingArgument (hbrackets : AreBrackets opening closing) (text : String) :
    (standingArgument opening closing).findTexts text = wordArguments opening closing text := by
  obtain ⟨found, hfound, hnames⟩ := exists_finds_words hbrackets text.toList [] rfl
  have hall : (standingArgument opening closing).findAll text = found :=
    hfound.unique moves_standing_argument (finds_findAll moves_standing_argument text)
  rw [findTexts, hall, groupCount_standingArgument, wordArguments, ← hnames]
  rfl

theorem findTexts_requiredArgument (text : String) :
    requiredArgument.findTexts text = wordArguments '{' '}' text :=
  findTexts_standingArgument ⟨rfl, rfl, rfl⟩ text

theorem findTexts_optionalArgument (text : String) :
    optionalArgument.findTexts text = wordArguments '[' ']' text :=
  findTexts_standingArgument ⟨rfl, rfl, rfl⟩ text

end Pattern

/-! ### Each name once -/

namespace Entry

open Pattern

/-- A list holds what was known and what is found, each once and in order of its first occurrence. -/
structure Gathers (known found listed : List String) : Prop where
  nodup : listed.Nodup
  mem_iff : ∀ name, name ∈ listed ↔ name ∈ known ∨ name ∈ found
  ordered : listed.Pairwise fun x y => (known ++ found).idxOf x < (known ++ found).idxOf y
  keeps : known.Nodup → known <+: listed

theorem firstMentions_gathers (known found : List String) :
    Gathers known found (firstMentions (known ++ found)) where
  nodup := firstMentions_nodup _
  mem_iff name := by rw [mem_firstMentions, List.mem_append]
  ordered := firstMentions_ordered _
  keeps h := by
    rw [firstMentions_eq, List.eraseDups_append, ← firstMentions_eq known, firstMentions_of_nodup h]
    exact List.prefix_append _ _

/-! ### Noting -/

/-- Two texts are noted one after the other, or as one text with a space between them. -/
theorem noting_noting (e : Entry) (a b : String) :
    (e.noting a).noting b = e.noting (a ++ " " ++ b) := by
  simp only [noting, firstMentions_append, findTexts_requiredArgument, findTexts_optionalArgument,
    wordArguments_append_space, List.append_assoc]

/--
**Arguments are found across the ends of lines.**

To note what one text mentions and then what another one does comes to the same as to note what both
mention together, with a space between them.  This leaves an entry as it was, but for the two lists of
arguments.  They hold what they held and what the words of the texts name, each once and in order of
its first occurrence, and a list that had no repetitions stays as it is and grows at its end only.
-/
theorem noteArguments_across_lines (e : Entry) (a b : String) :
    (noteArguments a >>= fun _ => noteArguments b) e = noteArguments (a ++ " " ++ b) e
    ∧ ∃ required optional,
        noteArguments (a ++ " " ++ b) e = ⟨{ e with required, optional }, [], .ok ()⟩
        ∧ Gathers e.required (wordArguments '{' '}' a ++ wordArguments '{' '}' b) required
        ∧ Gathers e.optional (wordArguments '[' ']' a ++ wordArguments '[' ']' b) optional := by
  have hnoted (text : String) (t : Entry) : noteArguments text t = ⟨t.noting text, [], .ok ()⟩ := rfl
  refine ⟨?_, _, _, hnoted _ e, ?_, ?_⟩
  · show noteArguments b (e.noting a) = _
    rw [hnoted, hnoted, noting_noting]
  · rw [findTexts_requiredArgument, wordArguments_append_space]
    exact firstMentions_gathers _ _
  · rw [findTexts_optionalArgument, wordArguments_append_space]
    exact firstMentions_gathers _ _

theorem noteArguments_across_lines_copy :
    let e : Entry := { required := ["to"] }
    ∃ required optional,
      noteArguments ("Copies {from}" ++ " " ++ "{to} with [mode].") e
        = ⟨{ e with required, optional }, [], .ok ()⟩
      ∧ ["to"] <+: required ∧ "from" ∈ required ∧ optional.Nodup ∧ "mode" ∈ optional := by
  intro e
  obtain ⟨-, required, optional, hnoted, hrequired, hoptional⟩ :=
    noteArguments_across_lines e "Copies {from}" "{to} with [mode]."
  refine ⟨required, optional, hnoted, hrequired.keeps (by decide), ?_, hoptional.nodup, ?_⟩
  · exact (hrequired.mem_iff _).mpr (.inr (by decide))
  · exact (hoptional.mem_iff _).mpr (.inr (by decide))

end Entry

end PluginHelp
