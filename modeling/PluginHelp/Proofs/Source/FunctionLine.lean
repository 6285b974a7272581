/-
Lines that define functions.

A function is defined by a word, which may be abbreviated, a gap, its namespace and its name, and its
parameters in parentheses.  Such a line is read back as it was written, whatever comes after it.

That takes more than going from left to right.  Of the abbreviations the shortest one is tried first,
and a longer word is found only because no gap stands after a shorter one.  The namespace and the
name are made of the same characters, and only the `#` behind it tells a namespace.  And the
parameters are taken as one text up to the parenthesis, in which each is found again by a search.
-/
import Mathlib.Data.List.Infix
import PluginHelp.Proofs.Pattern.Anchored
import PluginHelp.Proofs.Pattern.Names
import PluginHelp.Source.Code

namespace PluginHelp

open PluginHelp.Text

namespace Pattern

variable {p q : Pattern} {s t : Scan} {read rest gap tail : List Char}
  {captured : List (Nat × String)}

/-! ### The defining word and the gap -/

/-- What stands between a defining word and the name: blanks, or an exclamation mark, with or
without blanks around it. -/
inductive IsGap : List Char → Prop
  | blanks {gap : List Char} (hne : gap ≠ []) (h : ∀ c ∈ gap, isBlank c = true) : IsGap gap
  | bang {front back : List Char} (hfront : ∀ c ∈ front, isBlank c = true)
    (hback : ∀ c ∈ back, isBlank c = true) : IsGap (front ++ '!' :: back)

/-- A gap begins with no letter. -/
theorem IsGap.head (h : IsGap gap) : ∃ c more, gap = c :: more ∧ isNameRest c = false := by
  cases h with
  | blanks hne hgap =>
      obtain ⟨c, more, rfl⟩ := List.exists_cons_of_ne_nil hne
      exact ⟨c, more, rfl, isNameRest_of_isBlank (hgap c List.mem_cons_self)⟩
  | @bang front back hfront _ =>
      cases front with
      | nil => exact ⟨'!', back, rfl, rfl⟩
      | cons c front =>
          exact ⟨c, front ++ '!' :: back, rfl, isNameRest_of_isBlank (hfront c List.mem_cons_self)⟩

theorem spells_definitionGap : Spells definitionGap IsGap := by
  refine ((((spells_many_one _).seq (spells_char '!')).seq (spells_many_one _)).alt
    ((spells_one _).seq (spells_many_one _))).mono ?_
  rintro _ (⟨_, back, rfl, ⟨front, _, rfl, hfront, rfl⟩, hback⟩ | ⟨_, gap, rfl, ⟨c, rfl, hc⟩, hgap⟩)
  · rw [List.append_assoc]
    exact .bang hfront hback
  · exact .blanks (by simp) (List.forall_mem_cons.mpr ⟨hc, hgap⟩)

/-- A gap ends where a name begins. -/
theorem takes_definitionGap (h : IsGap gap) (hrest : ∀ c, rest.head? = some c → isNameStart c = true)
    (read : List Char) :
    Takes definitionGap ⟨read, gap ++ rest, captured⟩ ⟨gap.reverse ++ read, rest, captured⟩ := by
  have hsolid : ∀ c, rest.head? = some c → isBlank c = false :=
    fun c hc => isBlank_of_isNameStart (hrest c hc)
  cases h with
  | bang hfront hback =>
      rename_i front back
      have hfirst : Takes blanks ⟨read, front ++ '!' :: (back ++ rest), captured⟩
          ⟨front.reverse ++ read, '!' :: (back ++ rest), captured⟩ := by
        refine takes_many_one hfront ?_ read
        rintro c ⟨⟩
        rfl
      rw [List.append_assoc, List.reverse_append, List.reverse_cons, List.append_assoc,
        List.append_assoc]
      exact ((hfirst.seq (takes_char '!' _ _ _)).seq (takes_many_one hback hsolid _)).alt
  | blanks hne hgap =>
      refine (takes_oneOrMore hne hgap hsolid read).altSecond ?_
      -- Past the blanks there would have to be an exclamation mark.
      have hspells := (spells_many_one isBlank).seq (spells_char '!')
      refine (hspells.refuses ?_).seq
      rintro _ back ⟨front, _, rfl, hfront, rfl⟩ hsame
      have hdrop := congrArg (List.dropWhile isBlank) hsame
      rw [dropWhile_indent hgap hsolid, List.append_assoc, List.singleton_append,
        dropWhile_sign hfront rfl] at hdrop
      have hmark := hrest '!' (by rw [hdrop]; rfl)
      cases hmark

/-- One of some texts, the first one that goes on. -/
def anyOf (first : String) : List String → Pattern
  | [] => text first
  | next :: words => text first <|> anyOf next words

/-- Of some texts all of which but one are no way on, that one is taken. -/
theorem takes_anyOf {word : String} (h : Takes (text word ++ q) s t) :
    ∀ {first : String} {words : List String}, word ∈ first :: words →
      (∀ other ∈ first :: words, other ≠ word → Refuses (text other ++ q) s) →
      Takes (anyOf first words ++ q) s t := by
  intro first words
  induction words generalizing first with
  | nil =>
      intro hmem _
      rw [← List.mem_singleton.mp hmem]
      exact h
  | cons next words ih =>
      intro hmem hothers
      by_cases hfirst : first = word
      · subst hfirst
        exact Takes.altFirst_seq h
      · obtain ⟨hrefuses, hothers⟩ := List.forall_mem_cons.mp hothers
        refine Takes.altSecond_seq (ih ?_ hothers) (hrefuses hfirst)
        exact (List.mem_cons.mp hmem).resolve_left fun heq => hfirst heq.symm

theorem refuses_anyOf : ∀ {first : String} {words : List String},
    (∀ other ∈ first :: words, Refuses (text other ++ q) s) → Refuses (anyOf first words ++ q) s := by
  intro first words
  induction words generalizing first with
  | nil => exact fun h => h first List.mem_cons_self
  | cons next words ih =>
      intro h
      obtain ⟨hfirst, hothers⟩ := List.forall_mem_cons.mp h
      exact Refuses.alt_seq hfirst (ih hothers)

/-- Where a word is followed by a gap, no other word is. -/
theorem refuses_word {word : List Char} (hword : ∀ c ∈ word, isNameRest c = true)
    (htail : ∀ c ∈ tail, isNameRest c = true) (hne : word ≠ tail) (hgap : IsGap gap) :
    Refuses (chars word ++ definitionGap) ⟨read, tail ++ (gap ++ rest), captured⟩ := by
  have hends {gap rest : List Char} (h : IsGap gap) :
      ∀ c, (gap ++ rest).head? = some c → isNameRest c = false := by
    obtain ⟨c, more, rfl, hc⟩ := h.head
    rintro d ⟨⟩
    exact hc
  refine ((spells_chars word).seq spells_definitionGap).refuses ?_
  rintro _ back ⟨_, other, rfl, rfl, hother⟩ hsame
  have htake := congrArg (List.takeWhile isNameRest) hsame
  rw [List.append_assoc, takeWhile_class htail (hends hgap),
    takeWhile_class hword (hends hother)] at htake
  exact hne htake.symm

/-- The ends of the abbreviations of the word that defines a function, the empty one apart. -/
def functionTails : List String :=
  ["n", "nc", "nct", "ncti", "nctio", "nction"]

theorem isNameRest_of_mem_functionTails {word : String} (h : word ∈ functionTails) :
    ∀ c ∈ word.toList, isNameRest c = true := by
  have hall : functionTails.all (·.toList.all isNameRest) = true := rfl
  exact List.all_eq_true.mp (List.all_eq_true.mp hall word h)

theorem mem_functionTails (h : tail <+: "nction".toList) (hne : tail ≠ []) :
    String.ofList tail ∈ functionTails := by
  have hmem := (List.mem_inits tail "nction".toList).mpr h
  rw [show "nction".toList.inits = [] :: functionTails.map String.toList from rfl] at hmem
  obtain ⟨word, hword, rfl⟩ := List.mem_map.mp ((List.mem_cons.mp hmem).resolve_left hne)
  rwa [String.ofList_toList]

/-- An abbreviation is taken with the gap after it. -/
theorem takes_functionTail (htail : tail <+: "nction".toList) (hgap : IsGap gap)
    (hrest : ∀ c, rest.head? = some c → isNameStart c = true) (read : List Char) :
    Takes (optional (anyOf "n" ["nc", "nct", "ncti", "nctio", "nction"]) ++ definitionGap)
      ⟨read, tail ++ (gap ++ rest), captured⟩
      ⟨gap.reverse ++ (tail.reverse ++ read), rest, captured⟩ := by
  have htakes : Takes definitionGap ⟨tail.reverse ++ read, gap ++ rest, captured⟩
      ⟨gap.reverse ++ (tail.reverse ++ read), rest, captured⟩ :=
    takes_definitionGap hgap hrest _
  have hrefuses (htail : ∀ c ∈ tail, isNameRest c = true) :
      ∀ other ∈ functionTails, other ≠ String.ofList tail →
        Refuses (text other ++ definitionGap) ⟨read, tail ++ (gap ++ rest), captured⟩ := by
    intro other hother hne
    refine refuses_word (isNameRest_of_mem_functionTails hother) htail (fun heq => hne ?_) hgap
    rw [← heq, String.ofList_toList]
  by_cases hnil : tail = []
  · subst hnil
    refine Takes.altSecond_seq htakes (refuses_anyOf fun other hother => ?_)
    refine hrefuses (by simp) other hother ?_
    rintro rfl
    revert hother
    decide
  · have hmem := mem_functionTails htail hnil
    have hletters := isNameRest_of_mem_functionTails hmem
    rw [String.toList_ofList] at hletters
    refine Takes.altFirst_seq (takes_anyOf ?_ hmem (hrefuses hletters))
    have hword := (steps_chars tail).takes read (gap ++ rest) captured
    rw [text, String.toList_ofList]
    exact hword.seq htakes

/-! ### The namespace -/

/-- The namespace that segments make up. -/
def spaceText (segments : List String) : String :=
  String.join (segments.map (· ++ "#"))

/-- The namespace of a function; without segments there is none. -/
def space? (segments : List String) : Option String :=
  if segments.isEmpty then none else some (spaceText segments)

theorem spaceText_toList (segments : List String) :
    (spaceText segments).toList = (segments.map fun segment => segment.toList ++ ['#']).flatten := by
  rw [spaceText, String.toList_join, List.flatMap_def, List.map_map]
  congr 2
  funext segment
  simp

/-- A segment is taken with the sign after it, whatever comes next. -/
theorem takes_segment {segment : List Char} (h : isName segment = true) (read back : List Char) :
    Takes (name ++ char '#') ⟨read, segment ++ ['#'] ++ back, captured⟩
      ⟨(segment ++ ['#']).reverse ++ read, back, captured⟩ := by
  have hname : Takes name ⟨read, segment ++ '#' :: back, captured⟩
      ⟨segment.reverse ++ read, '#' :: back, captured⟩ := by
    refine takes_name h ?_ read
    rintro c ⟨⟩
    rfl
  rw [List.append_assoc, List.reverse_append]
  exact hname.seq (takes_char '#' _ _ _)

/-- A name with another sign after it is no segment. -/
theorem refuses_segment {word : List Char} (hword : isName word = true)
    (hrest : ∀ c, rest.head? = some c → isNameRest c = false ∧ c ≠ '#') :
    Refuses (name ++ char '#') ⟨read, word ++ rest, captured⟩ := by
  refine (spells_isName.seq (spells_char '#')).refuses ?_
  rintro _ back ⟨segment, _, rfl, hsegment, rfl⟩ hsame
  have hdrop := congrArg (List.dropWhile isNameRest) hsame
  have hsign : ∀ c, ('#' :: back).head? = some c → isNameRest c = false := by
    rintro c ⟨⟩
    rfl
  rw [dropWhile_class (isNameRest_of_isName hword) fun c hc => (hrest c hc).1, List.append_assoc,
    List.singleton_append, dropWhile_class (isNameRest_of_isName hsegment) hsign] at hdrop
  exact (hrest '#' (by rw [hdrop]; rfl)).2 rfl

/-- The namespace is taken up to the name. -/
theorem takes_space {segments : List String} {word : List Char}
    (hsegments : ∀ segment ∈ segments, isName segment.toList = true) (hword : isName word = true)
    (hrest : ∀ c, rest.head? = some c → isNameRest c = false ∧ c ≠ '#') (read : List Char) :
    Takes (optional (capture 1 (oneOrMore (name ++ char '#'))))
      ⟨read, (spaceText segments).toList ++ (word ++ rest), []⟩
      ⟨(spaceText segments).toList.reverse ++ read, word ++ rest,
        (space? segments).toList.map (Prod.mk 1)⟩ := by
  have hend : ∀ read, Refuses (name ++ char '#') ⟨read, word ++ rest, []⟩ :=
    fun read => refuses_segment hword hrest
  cases segments with
  | nil => exact ((hend read).seq.capture 1).optional
  | cons segment segments =>
      obtain ⟨hsegment, hsegments⟩ := List.forall_mem_cons.mp hsegments
      have hunits : ∀ unit ∈ segments.map fun segment => segment.toList ++ ['#'],
          unit ≠ [] ∧ ∀ read back, Takes (name ++ char '#') ⟨read, unit ++ back, []⟩
            ⟨unit.reverse ++ read, back, []⟩ := by
        intro unit hunit
        obtain ⟨other, hother, rfl⟩ := List.mem_map.mp hunit
        exact ⟨by simp, fun read back => takes_segment (hsegments other hother) read back⟩
      have hall : Takes (oneOrMore (name ++ char '#'))
          ⟨read, (spaceText (segment :: segments)).toList ++ (word ++ rest), []⟩
          ⟨(spaceText (segment :: segments)).toList.reverse ++ read, word ++ rest, []⟩ := by
        rw [spaceText_toList, List.map_cons, List.flatten_cons, List.reverse_append,
          List.append_assoc (segment.toList ++ ['#']), List.append_assoc (List.reverse _)]
        exact (takes_segment hsegment read _).seq (takes_many hunits hend _)
      have hcaptured := hall.capture 1
      rw [String.ofList_toList] at hcaptured
      exact hcaptured.alt

/-! ### Parameters -/

/-- The parameters of a function as they are written: a comma stands between two of them, and blanks
may follow it. -/
inductive Listed : List String → String → Prop
  | none : Listed [] ""
  | last (parameter : String) : Listed [parameter] parameter
  | more {first next gap text : String} {others : List String} (hgap : isBlankText gap = true) :
    Listed (next :: others) text → Listed (first :: next :: others) (first ++ "," ++ gap ++ text)

/-- What a parameter may be: an identifier, or three dots. -/
def isParameter (parameter : String) : Bool :=
  isName parameter.toList || parameter == "..."

theorem spells_parameter :
    Spells parameter fun text => isName text = true ∨ text = dots :=
  (spells_isName.alt (spells_text "...")).capture 1

theorem parameter_moves : Moves parameter := by
  refine spells_parameter.moves ?_
  rintro text (htext | rfl)
  · exact ne_nil_of_isName htext
  · simp [dots]

/-- A parameter begins with a letter, an underscore or a dot. -/
theorem silent_parameter {c : Char} (hname : isNameStart c = false) (hdot : c ≠ '.') (read rest) :
    Silent parameter read (c :: rest) := by
  refine spells_parameter.silent ?_
  rintro text back (htext | rfl) hsame
  · cases text with
    | nil => cases htext
    | cons d text =>
        obtain ⟨rfl, -⟩ := List.cons.inj hsame
        rw [(isName_cons.mp htext).1] at hname
        cases hname
  · exact hdot (List.cons.inj hsame).1

/-- A parameter is found as a whole if a comma or nothing follows it. -/
theorem takes_parameter {word : String} (hword : isParameter word = true)
    (hrest : ∀ c, rest.head? = some c → isNameRest c = false) (read : List Char) :
    Takes parameter ⟨read, word.toList ++ rest, []⟩
      ⟨word.toList.reverse ++ read, rest, [(1, word)]⟩ := by
  have hinner : Takes (name <|> ellipsis) ⟨read, word.toList ++ rest, []⟩
      ⟨word.toList.reverse ++ read, rest, []⟩ := by
    rcases Bool.or_eq_true_iff.mp hword with hname | hdots
    · exact (takes_name hname hrest read).alt
    · rw [beq_iff_eq.mp hdots]
      refine ((steps_chars dots).takes read rest []).altSecond (refuses_name ?_)
      rintro c ⟨⟩
      rfl
  have hcaptured := hinner.capture 1
  rw [String.ofList_toList] at hcaptured
  exact hcaptured

/-- Each parameter is found in turn. -/
theorem Listed.finds {parameters : List String} {text : String} (h : Listed parameters text)
    (hparameters : ∀ parameter ∈ parameters, isParameter parameter = true) (read : List Char) :
    ∃ found, Finds parameter read text.toList found
      ∧ found.map (·.group 1) = parameters := by
  -- A match is found first, and then whatever is found in the rest.
  have hfirst {word : String} {rest : List Char} {found : List Match} {read : List Char}
      (hword : isParameter word = true) (hrest : ∀ c, rest.head? = some c → isNameRest c = false)
      (hfound : Finds parameter (word.toList.reverse ++ read) rest found) :
      ∃ m, m.group 1 = word ∧ Finds parameter read (word.toList ++ rest) (m :: found) := by
    refine ⟨_, ?_, .hit (takes_parameter hword hrest read).endFrom? hfound⟩
    rw [group_found (by decide)]
    rfl
  induction h generalizing read with
  | none => exact ⟨[], .done, rfl⟩
  | last word =>
      obtain ⟨hword, -⟩ := List.forall_mem_cons.mp hparameters
      have hend : ∀ c, ([] : List Char).head? = some c → isNameRest c = false := by simp
      obtain ⟨m, hm, hfound⟩ := hfirst hword hend .done
      rw [List.append_nil] at hfound
      exact ⟨[m], hfound, by rw [List.map_singleton, hm]⟩
  | @more word next gap text others hgap _ ih =>
      obtain ⟨hword, hothers⟩ := List.forall_mem_cons.mp hparameters
      have hsilent : ∀ c ∈ ',' :: gap.toList, ∀ read rest, Silent parameter read (c :: rest) := by
        refine List.forall_mem_cons.mpr ⟨silent_parameter rfl (by decide), fun c hc => ?_⟩
        have hblank : isBlank c = true := List.all_eq_true.mp hgap c hc
        refine silent_parameter ?_ ?_
        · rw [Bool.eq_false_iff]
          intro hstart
          rw [isBlank_of_isNameStart hstart] at hblank
          cases hblank
        · rintro rfl
          cases hblank
      obtain ⟨found, hfound, hgroups⟩ :=
        ih hothers ((',' :: gap.toList).reverse ++ (word.toList.reverse ++ read))
      have hcomma : ∀ c, (',' :: gap.toList ++ text.toList).head? = some c →
          isNameRest c = false := by
        rintro c ⟨⟩
        rfl
      obtain ⟨m, hm, hfound⟩ := hfirst hword hcomma (hfound.skips hsilent)
      refine ⟨m :: found, ?_, by rw [List.map_cons, hm, hgroups]⟩
      simpa using hfound

theorem findTexts_parameter {parameters : List String} {text : String} (h : Listed parameters text)
    (hparameters : ∀ parameter ∈ parameters, isParameter parameter = true) :
    parameter.findTexts text = parameters := by
  obtain ⟨found, hfound, hgroups⟩ := h.finds hparameters []
  unfold findTexts
  rw [hfound.unique parameter_moves (finds_findAll parameter_moves text), ← hgroups]
  rfl

/-- No parenthesis stands among parameters. -/
theorem Listed.open {parameters : List String} {text : String} (h : Listed parameters text)
    (hparameters : ∀ parameter ∈ parameters, isParameter parameter = true) :
    ∀ c ∈ text.toList, (c != ')') = true := by
  have hword {word : String} (hword : isParameter word = true) : ')' ∉ word.toList := by
    rcases Bool.or_eq_true_iff.mp hword with hname | hdots
    · intro hmem
      cases isNameRest_of_isName hname ')' hmem
    · rw [beq_iff_eq.mp hdots]
      decide
  have hnone : ')' ∉ text.toList := by
    induction h with
    | none => simp
    | last word => exact hword (hparameters word List.mem_cons_self)
    | @more word next gap text others hgap _ ih =>
        obtain ⟨hfirst, hothers⟩ := List.forall_mem_cons.mp hparameters
        have hblanks : ')' ∉ gap.toList := by
          intro hmem
          cases List.all_eq_true.mp hgap ')' hmem
        simp [hword hfirst, hblanks, ih hothers]
  intro c hc
  rw [bne_iff_ne]
  rintro rfl
  exact hnone hc

end Pattern

/-! ### The whole line -/

open Pattern

/-- A line that defines a function, in its parts. -/
structure FunctionLine where
  indent : String
  /-- The word that defines functions, which may be abbreviated. -/
  keyword : String
  gap : String
  /-- The segments of the namespace. -/
  segments : List String
  name : String
  /-- What stands before the parameters. -/
  pad : String
  parameters : List String
  /-- The parameters as they are written. -/
  text : String
  suffix : String
  indent_blank : isBlankText indent = true
  keyword_long : "fu".toList <+: keyword.toList
  keyword_short : keyword.toList <+: "function".toList
  gap_isGap : IsGap gap.toList
  segments_named : ∀ segment ∈ segments, isName segment.toList = true
  name_isName : isName name.toList = true
  pad_blank : isBlankText pad = true
  parameters_known : ∀ parameter ∈ parameters, isParameter parameter = true
  text_listed : Listed parameters text

namespace FunctionLine

/-- The line as it is written. -/
def line (f : FunctionLine) : String :=
  f.indent ++ f.keyword ++ f.gap ++ spaceText f.segments ++ f.name ++ f.pad ++ "(" ++ f.text ++ ")"
    ++ f.suffix

/-- What stands from the parameters on. -/
def inParentheses (f : FunctionLine) : List Char :=
  '(' :: (f.text.toList ++ ')' :: f.suffix.toList)

/-- The name, and what follows it. -/
def fromName (f : FunctionLine) : List Char :=
  f.name.toList ++ (f.pad.toList ++ f.inParentheses)

theorem line_toList (f : FunctionLine) {tail : List Char}
    (htail : f.keyword.toList = "fu".toList ++ tail) :
    f.line.toList = f.indent.toList ++ ("fu".toList
      ++ (tail ++ (f.gap.toList ++ ((spaceText f.segments).toList ++ f.fromName)))) := by
  simp [line, fromName, inParentheses, htail]

/-- No character of a name follows the name. -/
theorem head_after_name (f : FunctionLine) :
    ∀ c, (f.pad.toList ++ f.inParentheses).head? = some c → isNameRest c = false ∧ c ≠ '#' := by
  have hpad : ∀ c ∈ f.pad.toList, isBlank c = true := List.all_eq_true.mp f.pad_blank
  intro c hc
  cases hchars : f.pad.toList with
  | nil =>
      rw [hchars] at hc
      obtain rfl : '(' = c := by simpa [inParentheses] using hc
      decide
  | cons d pad =>
      rw [hchars] at hc hpad
      obtain rfl : d = c := by simpa using hc
      have hblank := hpad d List.mem_cons_self
      refine ⟨isNameRest_of_isBlank hblank, ?_⟩
      rintro rfl
      cases hblank

/-- The namespace and the name begin with a letter or an underscore. -/
theorem head_fromSpace (f : FunctionLine) :
    ∀ c, ((spaceText f.segments).toList ++ f.fromName).head? = some c → isNameStart c = true := by
  have hfirst {word rest : List Char} (hword : isName word = true) :
      ∀ c, (word ++ rest).head? = some c → isNameStart c = true := by
    cases word with
    | nil => cases hword
    | cons c word =>
        rintro d ⟨⟩
        exact (isName_cons.mp hword).1
  rw [spaceText_toList]
  cases hsegments : f.segments with
  | nil =>
      rw [List.map_nil, List.flatten_nil, List.nil_append]
      exact hfirst f.name_isName
  | cons segment segments =>
      rw [List.map_cons, List.flatten_cons, List.append_assoc, List.append_assoc]
      exact hfirst (f.segments_named segment (by simp [hsegments]))

/-- The pattern for functions takes the line apart as it was put together. -/
theorem takes (f : FunctionLine) :
    ∃ read, Takes functionLine (.start f.line.toList) ⟨read, f.suffix.toList,
      (3, f.text) :: (2, f.name) :: (space? f.segments).toList.map (Prod.mk 1)⟩ := by
  obtain ⟨tail, htail⟩ := f.keyword_long
  have hshort : tail <+: "nction".toList := by
    have hprefix := f.keyword_short
    rw [← htail] at hprefix
    exact (List.prefix_append_right_inj "fu".toList).mp hprefix
  have hsign : ∀ c, ("fu".toList ++ (tail ++ (f.gap.toList
      ++ ((spaceText f.segments).toList ++ f.fromName)))).head? = some c → isBlank c = false := by
    rintro c ⟨⟩
    rfl
  have hindent := takes_indent (List.all_eq_true.mp f.indent_blank) hsign
  rw [← f.line_toList htail.symm] at hindent
  have hword := hindent.seq ((steps_chars "fu".toList).takes _ _ [])
  have hgap := (hword.seq (takes_functionTail hshort f.gap_isGap f.head_fromSpace _)).assoc
  have hspace := hgap.seq (takes_space f.segments_named f.name_isName f.head_after_name _)
  have hname := hspace.seq ((takes_name f.name_isName (fun c hc => (f.head_after_name c hc).1)
    _).capture 2)
  have hopening : ∀ c, f.inParentheses.head? = some c → isBlank c = false := by
    rintro c ⟨⟩
    rfl
  have hpad := hname.seq (takes_many_one (List.all_eq_true.mp f.pad_blank) hopening _)
  have hclosing : ∀ c, (')' :: f.suffix.toList).head? = some c → (c != ')') = false := by
    rintro c ⟨⟩
    rfl
  have htext := (hpad.seq (takes_char '(' _ _ _)).seq
    ((takes_many_one (f.text_listed.open f.parameters_known) hclosing _).capture 3)
  have hall := htext.seq (takes_char ')' _ _ _)
  rw [String.ofList_toList, String.ofList_toList] at hall
  exact ⟨_, hall⟩

theorem not_blankLine (f : FunctionLine) : blankLine.fits f.line = false := by
  obtain ⟨tail, htail⟩ := f.keyword_long
  have hmem : 'f' ∈ f.line.toList := by
    rw [f.line_toList htail.symm]
    simp
  rw [Bool.eq_false_iff]
  intro hfits
  cases isBlank_of_blankLine hfits 'f' hmem

/-- The line that defines a function is read back in its parts. -/
theorem read_line (f : FunctionLine) :
    CodeLine.read f.line = .function f.name (space? f.segments) f.parameters := by
  obtain ⟨read, htakes⟩ := f.takes
  have hspace : ((space? f.segments).toList.map (Prod.mk 1)).lookup 1 = space? f.segments := by
    cases space? f.segments <;> rfl
  unfold CodeLine.read
  rw [f.not_blankLine, htakes.match?]
  simp only [Bool.false_eq_true, if_false]
  rw [group_found (by decide), group_found (by decide), group?_found (by decide)]
  have hlookup : List.lookup 1 ((3, f.text) :: (2, f.name)
      :: (space? f.segments).toList.map (Prod.mk 1)) = space? f.segments := hspace
  rw [hlookup]
  exact congrArg _ (findTexts_parameter f.text_listed f.parameters_known)

theorem read_line_namespaced :
    CodeLine.read "  func! foo#bar#Baz (key,  ...) abort"
      = .function "Baz" (some "foo#bar#") ["key", "..."] := by
  have hgap : IsGap ([] ++ '!' :: [' ']) :=
    .bang (List.forall_mem_nil _) (List.forall_mem_singleton.mpr rfl)
  have hlisted : Listed ["key", "..."] ("key" ++ "," ++ "  " ++ "...") := .more rfl (.last "...")
  exact read_line {
    indent := "  ", keyword := "func", gap := "! ", segments := ["foo", "bar"], name := "Baz"
    pad := " ", parameters := ["key", "..."], text := "key,  ...", suffix := " abort"
    indent_blank := rfl, keyword_long := by decide, keyword_short := by decide, gap_isGap := hgap
    segments_named := List.all_eq_true.mp rfl, name_isName := rfl, pad_blank := rfl
    parameters_known := List.all_eq_true.mp rfl, text_listed := hlisted }

end FunctionLine

end PluginHelp
