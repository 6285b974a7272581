/-
The texts that a pattern spells.

Whatever a pattern matches is spelled by it: the texts of a sequence are those of its parts one after
the other, those of a choice are those of either side.  What a pattern spells is read off its
parts, and it says at once where the pattern cannot match.
-/
import PluginHelp.Pattern.Character
import PluginHelp.Proofs.Pattern.Pieces

namespace PluginHelp.Pattern

open PluginHelp.Text

variable {p q body : Pattern} {P Q : List Char → Prop} {s t : Scan}

/-- Every text that a pattern matches has a property. -/
def Spells (p : Pattern) (P : List Char → Prop) : Prop :=
  ∀ s t, Reaches p s t → ∃ text, t.read = text.reverse ++ s.read ∧ s.rest = text ++ t.rest ∧ P text

theorem Spells.mono (h : Spells p P) (k : ∀ text, P text → Q text) : Spells p Q := by
  intro s t hst
  obtain ⟨text, hread, hrest, htext⟩ := h s t hst
  exact ⟨text, hread, hrest, k text htext⟩

theorem spells_any (p : Pattern) : Spells p fun _ => True := by
  intro s t hst
  obtain ⟨text, hread, hrest⟩ := hst.text
  exact ⟨text, hread, hrest, trivial⟩

theorem spells_empty : Spells empty (· = []) := by
  intro s t hst
  cases hst
  exact ⟨[], rfl, rfl, rfl⟩

theorem spells_test (holds : List Char → List Char → Bool) : Spells (test holds) (· = []) := by
  intro s t hst
  cases hst
  exact ⟨[], rfl, rfl, rfl⟩

theorem spells_one (accepts : Char → Bool) :
    Spells (one accepts) fun text => ∃ c, text = [c] ∧ accepts c = true := by
  intro s t hst
  cases hst with
  | one hc => exact ⟨[_], rfl, rfl, _, rfl, hc⟩

theorem spells_char (c : Char) : Spells (char c) (· = [c]) := by
  refine (spells_one _).mono ?_
  rintro _ ⟨d, rfl, hd⟩
  rw [beq_iff_eq.mp hd]

theorem Spells.seq (h : Spells p P) (k : Spells q Q) :
    Spells (p ++ q) fun text => ∃ front back, text = front ++ back ∧ P front ∧ Q back := by
  intro s u hsu
  cases hsu with
  | seq hst htu =>
      obtain ⟨front, hread, hrest, hfront⟩ := h _ _ hst
      obtain ⟨back, hread', hrest', hback⟩ := k _ _ htu
      refine ⟨front ++ back, ?_, ?_, front, back, rfl, hfront, hback⟩
      · rw [hread', hread, List.reverse_append, List.append_assoc]
      · rw [hrest, hrest', List.append_assoc]

theorem Spells.alt (h : Spells p P) (k : Spells q Q) :
    Spells (p <|> q) fun text => P text ∨ Q text := by
  intro s t hst
  cases hst with
  | altFirst hst => exact h.mono (fun _ => Or.inl) s t hst
  | altSecond hst => exact k.mono (fun _ => Or.inr) s t hst

theorem Spells.optional (h : Spells p P) :
    Spells (optional p) fun text => P text ∨ text = [] :=
  h.alt spells_empty

theorem Spells.capture (h : Spells body P) (number : Nat) : Spells (capture number body) P := by
  intro s t hst
  cases hst with
  | capture hst =>
      obtain ⟨text, hread, hrest, htext⟩ := h s _ hst
      exact ⟨text, hread, hrest, htext⟩

/-- A repetition spells texts of its body, one after the other. -/
theorem Spells.many (h : Spells body P) :
    Spells (many body) fun text =>
      ∃ parts : List (List Char), text = parts.flatten ∧ ∀ part ∈ parts, P part := by
  intro s t hst
  generalize hp : Pattern.many body = p at hst
  induction hst with
  | manyNone => exact ⟨[], rfl, rfl, [], rfl, by simp⟩
  | manyMore hst _ _ ih =>
      obtain rfl := Pattern.many.inj hp
      obtain ⟨part, hread, hrest, hpart⟩ := h _ _ hst
      obtain ⟨more, hread', hrest', parts, rfl, hparts⟩ := ih rfl
      refine ⟨part ++ parts.flatten, ?_, ?_, part :: parts, rfl,
        List.forall_mem_cons.mpr ⟨hpart, hparts⟩⟩
      · rw [hread', hread, List.reverse_append, List.append_assoc]
      · rw [hrest, hrest', List.append_assoc]
  | _ => cases hp

/-- A repeated class spells texts of its characters. -/
theorem spells_many_one (accepts : Char → Bool) :
    Spells (many (one accepts)) fun text => ∀ c ∈ text, accepts c = true := by
  refine (spells_one accepts).many.mono ?_
  rintro _ ⟨parts, rfl, hparts⟩ c hc
  obtain ⟨part, hpart, hc⟩ := List.mem_flatten.mp hc
  obtain ⟨d, rfl, hd⟩ := hparts part hpart
  rwa [List.mem_singleton.mp hc]

theorem spells_chars (text : List Char) : Spells (chars text) (· = text) := by
  induction text with
  | nil => exact spells_empty
  | cons c rest ih =>
      cases rest with
      | nil => exact spells_char c
      | cons d rest =>
          refine ((spells_char c).seq ih).mono ?_
          rintro _ ⟨front, back, rfl, rfl, rfl⟩
          rfl

theorem spells_text (s : String) : Spells (text s) (· = s.toList) :=
  spells_chars s.toList

/-! ### A class up to its first exception -/

section Class

variable {accepts : Char → Bool} {text rest : List Char} (htext : ∀ c ∈ text, accepts c = true)
  (hrest : ∀ c, rest.head? = some c → accepts c = false)
include htext hrest

theorem takeWhile_class : (text ++ rest).takeWhile accepts = text := by
  rw [List.takeWhile_append_of_pos htext]
  cases rest with
  | nil => exact List.append_nil text
  | cons c rest => rw [List.takeWhile_cons_of_neg (by simp [hrest c rfl]), List.append_nil]

theorem dropWhile_class : (text ++ rest).dropWhile accepts = rest := by
  rw [List.dropWhile_append_of_pos htext]
  cases rest with
  | nil => rfl
  | cons c rest => exact List.dropWhile_cons_of_neg (by simp [hrest c rfl])

end Class

/-- What is left after the characters of a class does not begin with one of them. -/
theorem head?_dropWhile (accepts : Char → Bool) (text : List Char) :
    ∀ c, (text.dropWhile accepts).head? = some c → accepts c = false := by
  intro c hc
  have hnot := List.head?_dropWhile_not accepts text
  rw [hc] at hnot
  simpa using hnot

/-! ### What follows from it -/

/-- A pattern that spells no empty text moves on with every match. -/
theorem Spells.moves (h : Spells p P) (hne : ∀ text, P text → text ≠ []) : Moves p := by
  intro s t hst
  obtain ⟨text, hread, -, htext⟩ := h s t hst
  have hlength := List.length_pos_iff.mpr (hne text htext)
  rw [hread, List.length_append, List.length_reverse]
  omega

/-- Where none of the texts of a pattern stands, there is no match. -/
theorem Spells.silent (h : Spells p P) {read rest : List Char}
    (hrest : ∀ text back, P text → rest ≠ text ++ back) : Silent p read rest := by
  refine silent_of_not_reaches fun t ht => ?_
  obtain ⟨text, -, htext, hP⟩ := h _ _ ht
  exact hrest text t.rest hP htext

theorem Spells.refuses (h : Spells p P) (hrest : ∀ text back, P text → s.rest ≠ text ++ back) :
    Refuses p s := by
  refine refuses_of_not_reaches fun t ht => ?_
  obtain ⟨text, -, htext, hP⟩ := h _ _ ht
  exact hrest text t.rest hP htext

/-- What a pattern without captures finds is spelled by it. -/
theorem Spells.of_mem_findTexts (h : Spells p P) (hcount : p.groupCount = 0) {text found : String}
    (hfound : found ∈ p.findTexts text) : P found.toList := by
  obtain ⟨a, b, hreaches, rfl⟩ := reaches_of_mem_findTexts hfound
  obtain ⟨spelled, hread, -, hP⟩ := h a b hreaches
  rw [hcount, if_pos (by rfl), Scan.since_eq hread, String.toList_ofList]
  exact hP

/-! ### Captures -/

/-- Whether a pattern captures something under a number. -/
def uses (number : Nat) : Pattern → Bool
  | empty | one _ | test _ => false
  | seq first second | alt first second => first.uses number || second.uses number
  | many body | reluctant body => body.uses number
  | capture other body => number == other || body.uses number

/-- What was captured under a number stays if the number is not used again. -/
theorem Reaches.lookup {number : Nat} (h : Reaches p s t) (hp : p.uses number = false) :
    t.captured.lookup number = s.captured.lookup number := by
  induction h with
  | empty | one | test | manyNone | reluctantNone => rfl
  | seq _ _ ih ih' =>
      obtain ⟨hfirst, hsecond⟩ := Bool.or_eq_false_iff.mp hp
      rw [ih' hsecond, ih hfirst]
  | altFirst _ ih => exact ih (Bool.or_eq_false_iff.mp hp).1
  | altSecond _ ih => exact ih (Bool.or_eq_false_iff.mp hp).2
  | manyMore _ _ ih ih' | reluctantMore _ _ ih ih' => rw [ih' hp, ih hp]
  | capture _ ih =>
      obtain ⟨hother, hbody⟩ := Bool.or_eq_false_iff.mp hp
      rw [Scan.capture, List.lookup_cons, hother, ih hbody]

/-- Every match of a pattern captures a text with a property. -/
def Captures (p : Pattern) (number : Nat) (P : List Char → Prop) : Prop :=
  ∀ s t, Reaches p s t → ∃ text, P text ∧ t.captured.lookup number = some (String.ofList text)

theorem Spells.captures (h : Spells body P) (number : Nat) :
    Captures (Pattern.capture number body) number P := by
  intro s t hst
  cases hst with
  | capture hst =>
      obtain ⟨text, hread, -, htext⟩ := h _ _ hst
      exact ⟨text, htext, by rw [lookup_capture, Scan.since_eq hread]⟩

namespace Captures

variable {number : Nat}

theorem preceded (h : Captures q number P) (p : Pattern) : Captures (p ++ q) number P := by
  intro s t hst
  cases hst with
  | seq _ hq => exact h _ _ hq

theorem followed (h : Captures p number P) (hq : q.uses number = false) :
    Captures (p ++ q) number P := by
  intro s t hst
  cases hst with
  | seq hp hlater =>
      obtain ⟨text, htext, hlookup⟩ := h _ _ hp
      exact ⟨text, htext, (hlater.lookup hq).trans hlookup⟩

theorem group (h : Captures p (number + 1) P) (hcount : number < p.groupCount)
    (hst : Reaches p s t) : P ((p.found s t).group (number + 1)).toList := by
  obtain ⟨text, htext, hlookup⟩ := h _ _ hst
  rw [group_found hcount, hlookup, Option.getD_some, String.toList_ofList]
  exact htext

/-- What a match captures has the property. -/
theorem of_match? (h : Captures p (number + 1) P) (hcount : number < p.groupCount) {text : String}
    {m : Match} (hm : p.match? text = some m) : P (m.group (number + 1)).toList := by
  obtain ⟨t, ht, rfl⟩ := match?_reaches hm
  exact h.group hcount ht

/-- What a pattern with a capture finds has the property. -/
theorem of_mem_findTexts (h : Captures p 1 P) (hcount : 0 < p.groupCount) {text found : String}
    (hfound : found ∈ p.findTexts text) : P found.toList := by
  obtain ⟨a, b, hreaches, rfl⟩ := reaches_of_mem_findTexts hfound
  rw [if_neg (by simpa using Nat.ne_of_gt hcount)]
  exact h.group hcount hreaches

end Captures

/-- Whatever a match captures under a number, if it captures anything, has a property. -/
def MayCapture (p : Pattern) (number : Nat) (P : List Char → Prop) : Prop :=
  ∀ s t, Reaches p s t → ∀ text, t.captured.lookup number = some text →
    s.captured.lookup number = some text ∨ P text.toList

theorem Captures.mayCapture {number : Nat} (h : Captures p number P) : MayCapture p number P := by
  intro s t hst text htext
  obtain ⟨captured, hcaptured, hlookup⟩ := h s t hst
  rw [htext, Option.some.injEq] at hlookup
  rw [hlookup, String.toList_ofList]
  exact Or.inr hcaptured

namespace MayCapture

variable {number : Nat}

theorem of_unused (h : p.uses number = false) : MayCapture p number P := by
  intro s t hst text htext
  rw [hst.lookup h] at htext
  exact Or.inl htext

theorem seq (h : MayCapture p number P) (k : MayCapture q number P) :
    MayCapture (p ++ q) number P := by
  intro s t hst text htext
  cases hst with
  | seq hp hq =>
      rcases k _ _ hq text htext with hbefore | hcaptured
      · exact h _ _ hp text hbefore
      · exact Or.inr hcaptured

theorem preceded (h : MayCapture q number P) (hp : p.uses number = false) :
    MayCapture (p ++ q) number P :=
  (of_unused hp).seq h

theorem followed (h : MayCapture p number P) (hq : q.uses number = false) :
    MayCapture (p ++ q) number P :=
  h.seq (of_unused hq)

theorem optional (h : MayCapture p number P) : MayCapture (Pattern.optional p) number P := by
  intro s t hst text htext
  cases hst with
  | altFirst hp => exact h _ _ hp text htext
  | altSecond hnone =>
      cases hnone
      exact Or.inl htext

/-- What a match captures has the property, if it captures anything. -/
theorem of_match? (h : MayCapture p (number + 1) P) (hcount : number < p.groupCount)
    {source text : String} {m : Match} (hm : p.match? source = some m)
    (htext : m.group? (number + 1) = some text) : P text.toList := by
  obtain ⟨t, ht, rfl⟩ := match?_reaches hm
  rw [group?_found hcount] at htext
  rcases h _ _ ht text htext with hstart | hcaptured
  · cases hstart
  · exact hcaptured

end MayCapture

/-- What a pattern for a whole text captures is all of the text, but for a line end behind it. -/
theorem Spells.of_whole (h : Spells body P) {text : String} {m : Match}
    (hm : (whole (Pattern.capture 1 body)).match? text = some m) :
    ∃ last, text.toList = (m.group 1).toList ++ last ∧ P (m.group 1).toList
      ∧ ∀ c ∈ last, c = '\n' := by
  obtain ⟨t, hreaches, rfl⟩ := match?_reaches hm
  obtain ⟨u, hfront, hend⟩ := hreaches.of_seq
  obtain ⟨v, hstart, hcapture⟩ := hfront.of_seq
  obtain ⟨rfl, -⟩ := hstart.of_test
  obtain ⟨rfl, hlast⟩ := hend.of_test
  obtain ⟨w, hbody, rfl⟩ := hcapture.of_capture
  obtain ⟨spelled, hread, hrest, hspelled⟩ := h _ _ hbody
  have hcount : 0 < (whole (Pattern.capture 1 body)).groupCount := by
    show 0 < max (max 0 (max 1 body.groupCount)) 0
    omega
  rw [group_found hcount, lookup_capture, Option.getD_some, Scan.since_eq hread,
    String.toList_ofList]
  refine ⟨w.rest, hrest, hspelled, ?_⟩
  rcases Bool.or_eq_true_iff.mp hlast with hnil | hnewline
  · rw [show w.rest = [] from List.isEmpty_iff.mp hnil]
    exact List.forall_mem_nil _
  · rw [show w.rest = ['\n'] from beq_iff_eq.mp hnewline]
    exact List.forall_mem_singleton.mpr rfl

/-! ### Names and arguments -/

/-- A character of the name of an argument: one of an identifier, or a dot. -/
def isArgumentChar (c : Char) : Bool :=
  isNameRest c || c == '.'

/-- What the name of an argument is made of. -/
def IsArgument (text : List Char) : Prop :=
  text ≠ [] ∧ ∀ c ∈ text, isArgumentChar c = true

instance (text : List Char) : Decidable (IsArgument text) :=
  decidable_of_iff (text ≠ [] ∧ text.all isArgumentChar = true) (by rw [List.all_eq_true, IsArgument])

theorem isNameRest_of_isNameStart {c : Char} (h : isNameStart c = true) : isNameRest c = true := by
  unfold isNameStart at h
  unfold isNameRest
  rcases Bool.or_eq_true_iff.mp h with hletter | hunderscore
  · simp [hletter]
  · simp [hunderscore]

theorem isArgumentChar_of_isNameRest {c : Char} (h : isNameRest c = true) :
    isArgumentChar c = true := by
  rw [isArgumentChar, h, Bool.true_or]

/-- An identifier. -/
def isName : List Char → Bool
  | [] => false
  | c :: rest => isNameStart c && rest.all isNameRest

theorem isName_cons {c : Char} {rest : List Char} :
    isName (c :: rest) = true ↔ isNameStart c = true ∧ ∀ d ∈ rest, isNameRest d = true := by
  rw [isName, Bool.and_eq_true, List.all_eq_true]

theorem isNameRest_of_isName {text : List Char} (h : isName text = true) :
    ∀ c ∈ text, isNameRest c = true := by
  cases text with
  | nil => cases h
  | cons c rest =>
      obtain ⟨hc, hrest⟩ := isName_cons.mp h
      exact List.forall_mem_cons.mpr ⟨isNameRest_of_isNameStart hc, hrest⟩

theorem ne_nil_of_isName {text : List Char} (h : isName text = true) : text ≠ [] := by
  rintro rfl
  cases h

theorem spells_isName : Spells name (isName · = true) := by
  refine ((spells_one _).seq (spells_many_one _)).mono ?_
  rintro _ ⟨_, back, rfl, ⟨c, rfl, hc⟩, hback⟩
  exact isName_cons.mpr ⟨hc, hback⟩

/-- The dots that mark a repeated argument. -/
def dots : List Char :=
  ['.', '.', '.']

/-- An identifier as the name of an argument, which may be marked as repeated. -/
def isNamedArgument (text : List Char) : Bool :=
  isName (text.takeWhile isNameRest) && [[], dots].contains (text.dropWhile isNameRest)

theorem isNamedArgument_iff {text : List Char} :
    isNamedArgument text = true ↔
      ∃ name mark, text = name ++ mark ∧ isName name = true ∧ (mark = [] ∨ mark = dots) := by
  rw [isNamedArgument, Bool.and_eq_true, List.contains_iff_mem]
  constructor
  · rintro ⟨hname, hmark⟩
    exact ⟨_, _, List.takeWhile_append_dropWhile.symm, hname, by simpa using hmark⟩
  · rintro ⟨name, mark, rfl, hname, hmark⟩
    have hall := isNameRest_of_isName hname
    rw [List.takeWhile_append_of_pos hall, List.dropWhile_append_of_pos hall]
    rcases hmark with rfl | rfl
    · simpa using hname
    · simpa [dots, show isNameRest '.' = false from rfl] using hname

theorem isArgument_of_isName {text : List Char} (h : isName text = true) : IsArgument text :=
  ⟨ne_nil_of_isName h, fun c hc => isArgumentChar_of_isNameRest (isNameRest_of_isName h c hc)⟩

theorem spells_isNamedArgument : Spells argument (isNamedArgument · = true) := by
  refine (spells_isName.seq (spells_text "...").optional).mono ?_
  rintro _ ⟨name, mark, rfl, hname, hmark⟩
  exact isNamedArgument_iff.mpr ⟨name, mark, rfl, hname, hmark.symm⟩

theorem isArgument_of_isNamedArgument {text : List Char} (h : isNamedArgument text = true) :
    IsArgument text := by
  obtain ⟨name, mark, rfl, hname, hmark⟩ := isNamedArgument_iff.mp h
  refine ⟨by simp [ne_nil_of_isName hname], fun c hc => ?_⟩
  rcases List.mem_append.mp hc with hc | hc
  · exact isArgumentChar_of_isNameRest (isNameRest_of_isName hname c hc)
  · rcases hmark with rfl | rfl
    · cases hc
    · obtain rfl : c = '.' := by simpa [dots] using hc
      rfl

theorem spells_argument : Spells argument IsArgument :=
  spells_isNamedArgument.mono fun _ => isArgument_of_isNamedArgument

end PluginHelp.Pattern
