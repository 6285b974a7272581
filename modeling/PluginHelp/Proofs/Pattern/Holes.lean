/-
Replacing the holes of a usage line.

All holes, and the marks that stand for a hole as text, begin with a bracket that has a certain
character right behind it.  So a replacement passes over every text in which no bracket stands like
that, and only the holes themselves have to be looked at.

The holes stand in a row of words with a separator before each of them.  What is put into a hole is a
list of words with the same separator, so the row stays a row of words; a hole that nothing is put
into leaves an empty word behind.  The separators around empty words are then taken away, all but
the last one.
-/
import PluginHelp.Pattern.Usage
import PluginHelp.Proofs.Pattern.Spelling

namespace PluginHelp.Pattern

open PluginHelp.Text

variable {p q : Pattern} {replacement : Match → String} {a b : Char} {read rest out : List Char}

/-! ### Texts without a hole -/

/-- A pattern matches only where one character stands right before another one. -/
def Opens (p : Pattern) (a b : Char) : Prop :=
  Spells p fun text => ∃ back, text = a :: b :: back

/-- Wherever the one character stands in a text, a character other than the second one follows. -/
def calm (a b : Char) : List Char → Bool
  | [] => true
  | c :: rest => (c != a || rest.head?.any (· != b)) && calm a b rest

theorem calm_cons {c : Char} {text : List Char} :
    calm a b (c :: text) = true ↔
      (c = a → ∃ d, text.head? = some d ∧ d ≠ b) ∧ calm a b text = true := by
  rw [calm, Bool.and_eq_true]
  refine and_congr_left fun _ => ?_
  by_cases hc : c = a
  · cases htext : text.head? with
    | none => simp [hc]
    | some d => simp [hc]
  · simp [hc]

theorem calm_of_not_mem {text : List Char} (h : a ∉ text) : calm a b text = true := by
  induction text with
  | nil => rfl
  | cons c text ih =>
      simp only [List.mem_cons, not_or] at h
      exact calm_cons.mpr ⟨fun hca => absurd hca.symm h.1, ih h.2⟩

theorem calm_append {front back : List Char} (hfront : calm a b front = true)
    (hback : calm a b back = true) : calm a b (front ++ back) = true := by
  induction front with
  | nil => exact hback
  | cons c front ih =>
      obtain ⟨hc, hfront⟩ := calm_cons.mp hfront
      refine calm_cons.mpr ⟨fun hca => ?_, ih hfront⟩
      obtain ⟨d, hd, hne⟩ := hc hca
      refine ⟨d, ?_, hne⟩
      cases front with
      | nil => cases hd
      | cons e front => exact hd

theorem Opens.moves (h : Opens p a b) : Moves p := by
  refine Spells.moves h fun text => ?_
  rintro ⟨back, rfl⟩
  simp

theorem Opens.silent (h : Opens p a b) (hrest : ∀ back, rest ≠ a :: b :: back) :
    Silent p read rest := by
  refine Spells.silent h fun text back => ?_
  rintro ⟨more, rfl⟩ heq
  exact hrest (more ++ back) heq

/-- A replacement passes over a calm text. -/
theorem Opens.skip (h : Opens p a b) {text : List Char} (hcalm : calm a b text = true)
    (hrest : Rewrites p replacement (text.reverse ++ read) rest out) :
    Rewrites p replacement read (text ++ rest) (text ++ out) := by
  induction text generalizing read with
  | nil => exact hrest
  | cons c text ih =>
      obtain ⟨hc, htext⟩ := calm_cons.mp hcalm
      refine Rewrites.skip (h.silent fun back heq => ?_) (ih htext (by simpa using hrest))
      obtain ⟨hca, htail⟩ := List.cons.inj heq
      obtain ⟨d, hd, hne⟩ := hc hca
      cases text with
      | nil => cases hd
      | cons e text =>
          obtain rfl := Option.some.inj hd
          exact hne (List.cons.inj htail).1

theorem Opens.skip_to_end (h : Opens p a b) {text : List Char} (hcalm : calm a b text = true) :
    Rewrites p replacement read text text := by
  simpa using h.skip hcalm (Rewrites.done : Rewrites p replacement (text.reverse ++ read) [] [])

/-- A text without a hole is left as it is. -/
theorem Opens.replaceWith_of_calm (h : Opens p a b) {s : String} (hcalm : calm a b s.toList = true) :
    p.replaceWith replacement s = s := by
  rw [replaceWith_of_rewrites h.moves (h.skip_to_end hcalm), String.ofList_toList]

/-! ### The holes -/

theorem Spells.opens (h : Spells p (· = [a, b])) : Opens p a b :=
  h.mono fun _ htext => ⟨[], htext⟩

theorem Spells.standing {P : List Char → Prop} (h : Spells p P) : Spells (standing p) P := by
  refine (((spells_test _).seq h).seq (spells_test _)).mono ?_
  rintro _ ⟨_, _, rfl, ⟨_, back, rfl, rfl, hback⟩, rfl⟩
  simpa using hback

theorem argumentsHole_opens : Opens argumentsHole '{' ']' :=
  (spells_chars _).opens

theorem requiredHole_opens : Opens requiredHole '{' '}' :=
  (spells_text _).standing.opens

theorem optionalHole_opens : Opens optionalHole '[' ']' :=
  (spells_text _).standing.opens

theorem nameHole_opens : Opens nameHole '<' '>' :=
  (spells_text _).opens

theorem escapedHole_opens (opening closing : Char) :
    Opens (escapedHole opening closing) opening '|' := by
  refine ((((spells_char opening).seq (spells_char '|')).seq
    ((spells_many_one _).capture 1)).seq (spells_char closing)).mono ?_
  rintro _ ⟨_, _, rfl, ⟨_, bars, rfl, ⟨_, _, rfl, rfl, rfl⟩, -⟩, rfl⟩
  exact ⟨bars ++ [closing], rfl⟩

/-- A hole that stands by itself is one only after a blank. -/
theorem silent_standing (p : Pattern) {c : Char} (hc : isBlank c = false) :
    Silent (standing p) (c :: read) rest := by
  refine silent_of_not_reaches fun t ht => ?_
  cases ht with
  | seq hfirst _ =>
      cases hfirst with
      | seq htest _ =>
          cases htest with
          | test hread =>
              simp [hc] at hread

theorem takes_test {holds : List Char → List Char → Bool} {s : Scan}
    (h : holds s.read s.rest = true) : Takes (test holds) s s := by
  intro β next b hb
  rw [run, if_pos h]
  exact hb

theorem takes_pair (a b : Char) (read rest : List Char) (captured : List (Nat × String)) :
    Takes (char a ++ char b) ⟨read, a :: b :: rest, captured⟩ ⟨b :: a :: read, rest, captured⟩ :=
  (takes_char a read (b :: rest) captured).seq (takes_char b (a :: read) rest captured)

/-- Between a blank and something other than a word, a hole is one. -/
theorem takes_standing_pair (a b : Char) (hread : read.head?.all isBlank = true)
    (hrest : rest.head?.any isWord = false) :
    Takes (standing (char a ++ char b)) ⟨read, a :: b :: rest, []⟩ ⟨b :: a :: read, rest, []⟩ := by
  refine Takes.seq (Takes.seq (takes_test hread) (takes_pair a b read rest [])) (takes_test ?_)
  simp [hrest]

/-! ### Rows of words -/

/-- Words in a row, with a separator before each of them. -/
def row (sep : List Char) (words : List (List Char)) : List Char :=
  words.flatMap (sep ++ ·)

@[simp] theorem row_nil (sep : List Char) : row sep [] = [] :=
  rfl

@[simp] theorem row_cons (sep word : List Char) (words : List (List Char)) :
    row sep (word :: words) = sep ++ (word ++ row sep words) := by
  rw [row, List.flatMap_cons, List.append_assoc]
  rfl

theorem row_append (sep : List Char) (front back : List (List Char)) :
    row sep (front ++ back) = row sep front ++ row sep back :=
  List.flatMap_append

/-- The separators of usage lines: that of a function's arguments, and that of a command's. -/
def IsSeparator (sep : List Char) : Prop :=
  sep = [',', ' '] ∨ sep = [' ']

/-- A text that a replacement turns into another one, whatever follows it. -/
def Turns (p : Pattern) (filler : String) (read text new : List Char) : Prop :=
  ∀ ⦃rest out : List Char⦄, Rewrites p (fun _ => filler) (text.reverse ++ read) rest out →
    Rewrites p (fun _ => filler) read (text ++ rest) (new ++ out)

theorem Opens.turns (h : Opens p a b) {text : List Char} (hcalm : calm a b text = true)
    (filler : String) (read : List Char) : Turns p filler read text text :=
  fun _ _ hrest => h.skip hcalm hrest

theorem Turns.append {filler : String} {front back new more : List Char}
    (hfront : Turns p filler read front new)
    (hback : Turns p filler (front.reverse ++ read) back more) :
    Turns p filler read (front ++ back) (new ++ more) := by
  intro rest out hrest
  rw [List.append_assoc, List.append_assoc]
  refine hfront (hback ?_)
  rwa [List.reverse_append, List.append_assoc] at hrest

/-- A hole that is attached to something is no hole. -/
theorem turns_attached {c : Char} (hc : isBlank c = false) (hab : a ≠ b)
    (h : Opens (standing p) a b) (filler : String) (read : List Char) :
    Turns (standing p) filler (c :: read) [a, b] [a, b] := by
  intro rest out hrest
  refine Rewrites.skip (silent_standing p hc) (Rewrites.skip (h.silent fun back heq => ?_) hrest)
  exact hab (List.cons.inj heq).1.symm

/-- The hole for all arguments is one wherever it stands. -/
theorem turns_argumentsHole (filler : String) (read : List Char) :
    Turns argumentsHole filler read ['{', ']'] filler.toList := by
  intro rest out hrest
  exact Rewrites.hit (takes_pair _ _ read rest []).endFrom? hrest

/-- A pattern matches a hole wherever it stands in a row. -/
def Hits (p : Pattern) (a b : Char) : Prop :=
  ∀ ⦃read rest : List Char⦄, read.head? = some ' ' → rest.head?.any isWord = false →
    Takes p ⟨read, a :: b :: rest, []⟩ ⟨b :: a :: read, rest, []⟩

theorem argumentsHole_hits : Hits argumentsHole '{' ']' :=
  fun read rest _ _ => takes_pair _ _ read rest []

theorem hits_standing (a b : Char) : Hits (standing (char a ++ char b)) a b := by
  intro read rest hread hrest
  refine takes_standing_pair a b ?_ hrest
  rw [hread]
  rfl

theorem requiredHole_hits : Hits requiredHole '{' '}' :=
  hits_standing _ _

theorem optionalHole_hits : Hits optionalHole '[' ']' :=
  hits_standing _ _

/-- What becomes of a word when holes are replaced. -/
def fillWord (hole filler word : List Char) : List Char :=
  if word = hole then filler else word

theorem fillWord_self (hole filler : List Char) : fillWord hole filler hole = filler :=
  if_pos rfl

theorem fillWord_of_ne {hole word : List Char} (h : word ≠ hole) (filler : List Char) :
    fillWord hole filler word = word :=
  if_neg h

theorem head?_row_append {sep tail : List Char} (hsep : IsSeparator sep)
    (htail : tail.head?.any isWord = false) (words : List (List Char)) :
    (row sep words ++ tail).head?.any isWord = false := by
  cases words with
  | nil => exact htail
  | cons word words => rcases hsep with rfl | rfl <;> rfl

/-- In a row of words, a replacement replaces the words that are holes. -/
theorem rewrites_row {sep tail : List Char} {filler : String} (hopens : Opens p a b)
    (hhits : Hits p a b) (hsep : IsSeparator sep) (hcalm : calm a b sep = true)
    (htail : tail.head?.any isWord = false) (words : List (List Char))
    (hwords : ∀ word ∈ words, word = [a, b] ∨ calm a b word = true) : ∀ {read : List Char},
    Rewrites p (fun _ => filler) ((row sep words).reverse ++ read) tail out →
      Rewrites p (fun _ => filler) read (row sep words ++ tail)
        (row sep (words.map (fillWord [a, b] filler.toList)) ++ out) := by
  induction words with
  | nil => exact fun hrest => hrest
  | cons word words ih =>
      intro read hrest
      obtain ⟨hword, hmore⟩ := List.forall_mem_cons.mp hwords
      have hspace : (sep.reverse ++ read).head? = some ' ' := by
        rcases hsep with rfl | rfl <;> rfl
      rw [List.map_cons, row_cons, row_cons, List.append_assoc, List.append_assoc, List.append_assoc,
        List.append_assoc]
      refine hopens.skip hcalm ?_
      unfold fillWord
      split
      · rename_i hhole
        subst hhole
        have hend := (hhits hspace (head?_row_append hsep htail words)).endFrom?
        refine Rewrites.hit hend (ih hmore ?_)
        simpa using hrest
      · rename_i hother
        refine hopens.skip (hword.resolve_left hother) (ih hmore ?_)
        simpa using hrest

/-- Replacing the holes in a row that stands between two other texts. -/
theorem replace_row {lead new sep tail : List Char} {filler : String} (hopens : Opens p a b)
    (hhits : Hits p a b) (hsep : IsSeparator sep) (hcalm : calm a b sep = true)
    (hlead : Turns p filler [] lead new) (htail : calm a b tail = true)
    (htailHead : tail.head?.any isWord = false) {words : List (List Char)}
    (hwords : ∀ word ∈ words, word = [a, b] ∨ calm a b word = true) :
    p.replace filler (String.ofList (lead ++ row sep words ++ tail))
      = String.ofList (new ++ row sep (words.map (fillWord [a, b] filler.toList)) ++ tail) := by
  refine replaceWith_of_rewrites hopens.moves ?_
  rw [String.toList_ofList, List.append_assoc, List.append_assoc]
  exact hlead (rewrites_row hopens hhits hsep hcalm htailHead words hwords
    (hopens.skip_to_end htail))

/-! ### Separators that are left over -/

theorem steps_chars (text : List Char) : Steps (chars text) text := by
  induction text with
  | nil => exact fun _ _ _ _ _ => rfl
  | cons c text ih =>
      have hc : Steps (char c) [c] := steps_one BEq.rfl
      cases text with
      | nil => exact hc
      | cons d text => exact hc.seq ih

theorem refuses_chars {text : List Char} {s : Scan} (h : ¬ text <+: s.rest) :
    Refuses (chars text) s := by
  refine (spells_chars text).refuses ?_
  rintro _ back rfl hrest
  exact h ⟨back, hrest.symm⟩

/-- Several times the same text. -/
def times (count : Nat) (text : List Char) : List Char :=
  (List.replicate count text).flatten

theorem times_succ (count : Nat) (text : List Char) :
    times (count + 1) text = text ++ times count text := by
  rw [times, List.replicate_succ, List.flatten_cons]
  rfl

theorem times_succ' (count : Nat) (text : List Char) :
    times (count + 1) text = times count text ++ text := by
  rw [times, List.replicate_succ', List.flatten_append, List.flatten_singleton]
  rfl

/-- Of repetitions after which one more has to follow, all but the last are taken. -/
theorem greedily_before {β : Type} {sep : String} {next : Scan → Option β} {b : β}
    {rest : List Char} {captured : List (Nat × String)} (hrest : ¬ sep.toList <+: rest) :
    ∀ (count bound : Nat) (read : List Char), count < bound →
      next ⟨(times count sep.toList).reverse ++ read, sep.toList ++ rest, captured⟩ = some b →
      greedily (chars sep.toList).run ((before sep).run next) bound
        ⟨read, times (count + 1) sep.toList ++ rest, captured⟩ = some b := by
  intro count bound read hbound hnext
  rw [times_succ', List.append_assoc]
  refine greedily_back (List.replicate count sep.toList) sep.toList (fun unit hunit => ?_)
    (steps_chars _) (fun _ => refuses_chars hrest) read bound (by simpa using hbound) ?_ ?_
  · rw [List.eq_of_mem_replicate hunit]
    exact steps_chars _
  · rw [before, run]
    exact if_neg (by simpa using hrest)
  · rw [before, run, if_pos (by simp)]
    exact hnext

/-- Separators in a row are a match up to the last of them. -/
theorem takes_separators (sep : String) {rest : List Char} (hrest : ¬ sep.toList <+: rest)
    (hne : sep.toList ≠ []) (count : Nat) (read : List Char) :
    Takes (oneOrMore (text sep) ++ before sep)
      ⟨read, times (count + 1) sep.toList ++ (sep.toList ++ rest), []⟩
      ⟨(times (count + 1) sep.toList).reverse ++ read, sep.toList ++ rest, []⟩ := by
  intro β next b hnext
  show (chars sep.toList).run ((many (chars sep.toList)).run ((before sep).run next)) _ = some b
  rw [times_succ, List.append_assoc, steps_chars, ← List.append_assoc, ← times_succ', run]
  refine greedily_before hrest count _ _ ?_ (by simpa [times_succ] using hnext)
  -- Each separator takes a character at least.
  have hlength := List.length_pos_iff.mpr hne
  have hmany : count + 1 ≤ (times (count + 1) sep.toList).length := by
    rw [times, List.length_flatten, List.map_replicate, List.sum_replicate_nat]
    exact Nat.le_mul_of_pos_right _ hlength
  rw [List.length_append]
  omega

/-- A separator is superfluous only where another one follows. -/
theorem emptySeparator_inv {s t : Scan} (h : Reaches emptySeparator s t) :
    (∃ back, s.rest = ',' :: ' ' :: ',' :: back) ∨ ∃ back, s.rest = ' ' :: ' ' :: back := by
  have hfollow (sep : String) {u v : Scan} (huv : Reaches (oneOrMore (text sep) ++ before sep) u v) :
      ∃ back, u.rest = sep.toList ++ (sep.toList ++ back) := by
    cases huv with
    | seq hmore hbefore =>
        cases hmore with
        | seq hfirst hmany =>
            obtain ⟨_, -, hrest, rfl⟩ := spells_text sep _ _ hfirst
            cases hbefore with
            | test hprefix =>
                cases hmany with
                | manyNone =>
                    obtain ⟨back, hback⟩ := List.isPrefixOf_iff_prefix.mp hprefix
                    exact ⟨back, by rw [hrest, ← hback]⟩
                | manyMore hsecond _ =>
                    obtain ⟨_, -, hback, rfl⟩ := spells_text sep _ _ hsecond
                    exact ⟨_, by rw [hrest, hback]⟩
  cases h with
  | altFirst h =>
      obtain ⟨back, hback⟩ := hfollow ", " h
      exact Or.inl ⟨_, hback⟩
  | altSecond h =>
      obtain ⟨back, hback⟩ := hfollow " " h
      exact Or.inr ⟨_, hback⟩

theorem emptySeparator_moves : Moves emptySeparator := by
  have hpart (sep : String) :
      Spells (oneOrMore (text sep) ++ before sep) fun text => ∃ back, text = sep.toList ++ back := by
    refine (((spells_text sep).seq (spells_any _)).seq (spells_test _)).mono ?_
    rintro _ ⟨_, _, rfl, ⟨_, back, rfl, rfl, -⟩, rfl⟩
    exact ⟨back, List.append_nil _⟩
  refine ((hpart ", ").alt (hpart " ")).moves ?_
  rintro _ (⟨back, rfl⟩ | ⟨back, rfl⟩) <;> simp

/-- A text that has no part of a separator. -/
def Unseparated (text : List Char) : Prop :=
  ∀ c ∈ text, c ≠ ' ' ∧ c ≠ ','

theorem silent_emptySeparator {c : Char} (h : c ≠ ' ' ∧ c ≠ ',') :
    Silent emptySeparator read (c :: rest) := by
  refine silent_of_not_reaches fun t ht => ?_
  rcases emptySeparator_inv ht with ⟨back, hback⟩ | ⟨back, hback⟩
  · exact h.2 (List.cons.inj hback).1
  · exact h.1 (List.cons.inj hback).1

theorem Unseparated.skip {text : List Char} (h : Unseparated text)
    (hrest : Rewrites emptySeparator replacement (text.reverse ++ read) rest out) :
    Rewrites emptySeparator replacement read (text ++ rest) (text ++ out) := by
  induction text generalizing read with
  | nil => exact hrest
  | cons c text ih =>
      obtain ⟨hc, htext⟩ := List.forall_mem_cons.mp h
      exact Rewrites.skip (silent_emptySeparator hc) (ih htext (by simpa using hrest))

/-- The next character, if there is one, begins no separator. -/
def Breaks (rest : List Char) : Prop :=
  ∀ c, rest.head? = some c → c ≠ ' ' ∧ c ≠ ','

/-- A separator by itself is kept. -/
theorem rewrites_separator {sep : List Char} (hsep : IsSeparator sep) (hbreaks : Breaks rest)
    (hrest : Rewrites emptySeparator replacement (sep.reverse ++ read) rest out) :
    Rewrites emptySeparator replacement read (sep ++ rest) (sep ++ out) := by
  have hspace {read : List Char} : Silent emptySeparator read (' ' :: rest) := by
    refine silent_of_not_reaches fun t ht => ?_
    rcases emptySeparator_inv ht with ⟨back, hback⟩ | ⟨back, hback⟩
    · cases hback
    · obtain ⟨-, rfl⟩ := List.cons.inj hback
      exact (hbreaks ' ' rfl).1 rfl
  rcases hsep with rfl | rfl
  · refine Rewrites.skip (silent_of_not_reaches fun t ht => ?_) (Rewrites.skip hspace hrest)
    rcases emptySeparator_inv ht with ⟨back, hback⟩ | ⟨back, hback⟩
    · obtain ⟨-, hback⟩ := List.cons.inj hback
      obtain ⟨-, rfl⟩ := List.cons.inj hback
      exact (hbreaks ',' rfl).2 rfl
    · cases hback
  · exact Rewrites.skip hspace hrest

theorem Breaks.not_prefix {sep : List Char} (hsep : IsSeparator sep) (h : Breaks rest) :
    ¬ sep <+: rest := by
  rintro ⟨back, rfl⟩
  rcases hsep with rfl | rfl
  · exact (h ',' rfl).2 rfl
  · exact (h ' ' rfl).1 rfl

/-- Several separators are a match up to the last of them. -/
theorem takes_emptySeparator {sep : List Char} (hsep : IsSeparator sep) (hbreaks : Breaks rest)
    (count : Nat) :
    Takes emptySeparator ⟨read, times (count + 1) sep ++ (sep ++ rest), []⟩
      ⟨(times (count + 1) sep).reverse ++ read, sep ++ rest, []⟩ := by
  have hprefix := hbreaks.not_prefix hsep
  rcases hsep with rfl | rfl
  · exact (takes_separators ", " hprefix (by simp) count read).alt
  · refine (takes_separators " " hprefix (by simp) count read).altSecond ?_
    refine (refuses_chars ?_).seq.seq
    rw [times_succ]
    rintro ⟨back, hback⟩
    cases hback

/-- Of several separators the last one is kept. -/
theorem rewrites_separators {sep : List Char} (hsep : IsSeparator sep) (hbreaks : Breaks rest)
    (hrest : ∀ read, Rewrites emptySeparator (fun _ => "") read rest out) (count : Nat)
    (read : List Char) :
    Rewrites emptySeparator (fun _ => "") read (times count sep ++ (sep ++ rest)) (sep ++ out) := by
  cases count with
  | zero =>
      show Rewrites emptySeparator (fun _ => "") read (sep ++ rest) (sep ++ out)
      exact rewrites_separator hsep hbreaks (hrest _)
  | succ count =>
      exact Rewrites.hit (takes_emptySeparator hsep hbreaks count).endFrom?
        (rewrites_separator hsep hbreaks (hrest _))

/-- Words without those that are empty, unless it is the last one. -/
def withoutGaps : List (List Char) → List (List Char)
  | [] => []
  | [word] => [word]
  | word :: next :: words =>
    if word = [] then withoutGaps (next :: words) else word :: withoutGaps (next :: words)

theorem mem_of_mem_withoutGaps {word : List Char} {words : List (List Char)}
    (h : word ∈ withoutGaps words) : word ∈ words := by
  fun_induction withoutGaps words with
  | case1 => exact h
  | case2 => exact h
  | case3 next words ih => exact List.mem_cons_of_mem _ (ih h)
  | case4 first next words _ ih =>
      rcases List.mem_cons.mp h with rfl | hmore
      · exact List.mem_cons_self
      · exact List.mem_cons_of_mem _ (ih hmore)

/-- Without the empty words a row has the others, and a separator for an empty one at the end. -/
theorem row_withoutGaps (sep : List Char) (words : List (List Char)) :
    row sep (withoutGaps words)
      = row sep (words.filter (!·.isEmpty)) ++ if words.getLast? = some [] then sep else [] := by
  fun_induction withoutGaps words with
  | case1 => simp
  | case2 word =>
      by_cases hempty : word = []
      · simp [hempty]
      · simp [hempty]
  | case3 next words ih =>
      rw [ih, List.getLast?_cons_cons]
      rfl
  | case4 word next words hword ih =>
      have hkept : (word :: next :: words).filter (!·.isEmpty)
          = word :: (next :: words).filter (!·.isEmpty) :=
        List.filter_cons_of_pos (by simp [hword])
      rw [row_cons, ih, hkept, row_cons, List.getLast?_cons_cons]
      simp only [List.append_assoc]

theorem breaks_word {word : List Char} (h : Unseparated word) (hne : word ≠ []) :
    Breaks (word ++ rest) := by
  intro c hc
  cases word with
  | nil => exact absurd rfl hne
  | cons d word =>
      obtain rfl := Option.some.inj hc
      exact h d (by simp)

/-- In a row of words, the separators around empty words are taken away. -/
theorem rewrites_gaps {sep tail : List Char} (hsep : IsSeparator sep) (htail : Breaks tail)
    (hend : ∀ read, Rewrites emptySeparator (fun _ => "") read tail tail)
    (words : List (List Char)) (hwords : ∀ word ∈ words, Unseparated word) :
    ∀ (count : Nat) (read : List Char), (words = [] → count = 0) →
      Rewrites emptySeparator (fun _ => "") read (times count sep ++ (row sep words ++ tail))
        (row sep (withoutGaps words) ++ tail) := by
  -- The separators before an empty word are not taken away at once, but when a word follows.
  induction words with
  | nil =>
      intro count read hcount
      obtain rfl := hcount rfl
      exact hend read
  | cons word words ih =>
      intro count read _
      obtain ⟨hword, hmore⟩ := List.forall_mem_cons.mp hwords
      cases words with
      | nil =>
          have hrest (read : List Char) :
              Rewrites emptySeparator (fun _ => "") read (word ++ tail) (word ++ tail) :=
            hword.skip (hend _)
          have hbreaks : Breaks (word ++ tail) := by
            by_cases hempty : word = []
            · rw [hempty]
              exact htail
            · exact breaks_word hword hempty
          simpa [withoutGaps] using rewrites_separators hsep hbreaks hrest count read
      | cons next words =>
          rw [withoutGaps]
          split
          · rename_i hempty
            subst hempty
            have hnext := ih hmore (count + 1) read (by simp)
            rw [times_succ', List.append_assoc] at hnext
            simpa using hnext
          · rename_i hempty
            have hrest (read : List Char) : Rewrites emptySeparator (fun _ => "") read
                (word ++ (row sep (next :: words) ++ tail))
                (word ++ (row sep (withoutGaps (next :: words)) ++ tail)) :=
              hword.skip (ih hmore 0 _ (by simp))
            simpa using rewrites_separators hsep (breaks_word hword hempty) hrest count read

/-- Taking away the separators that empty words have left in a row. -/
theorem replace_gaps {lead sep tail : List Char} (hsep : IsSeparator sep)
    (hlead : Unseparated lead) (htail : Unseparated tail) {words : List (List Char)}
    (hwords : ∀ word ∈ words, Unseparated word) :
    emptySeparator.replace "" (String.ofList (lead ++ row sep words ++ tail))
      = String.ofList (lead ++ row sep (withoutGaps words) ++ tail) := by
  have hend (read : List Char) : Rewrites emptySeparator (fun _ => "") read tail tail := by
    simpa using htail.skip
      (Rewrites.done : Rewrites emptySeparator (fun _ => "") (tail.reverse ++ read) [] [])
  have hbreaks : Breaks tail := by
    intro c hc
    exact htail c (List.mem_of_mem_head? hc)
  refine replaceWith_of_rewrites emptySeparator_moves ?_
  rw [String.toList_ofList, List.append_assoc, List.append_assoc]
  exact hlead.skip (rewrites_gaps hsep hbreaks hend words hwords 0 _ (by simp))

end PluginHelp.Pattern
