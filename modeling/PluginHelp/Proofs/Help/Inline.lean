/-
Inline directives in running text.

A text is read from left to right.  Where an `@` and a name stand, there is a directive, with the
element in parentheses that follows or without one, and any other character stands for itself.
`Cuts` says just this about the characters alone.  What a text comes to depends on nothing but the
stretches that it is cut into.

So two texts can be put together wherever no directive reaches from the one into the other: the second
does not go on with a name, it does not begin with a parenthesis, and the place between them is not
inside the parentheses of a directive.

What a text comes to takes two passes.  All directives are looked up first, and only then their texts
are put in, which fails if something else than a text was found.  The passes are kept apart as one
result inside of another, for a directive that cannot be looked up counts before any text that cannot
be put in.
-/
import PluginHelp.Proofs.Help.Links
import PluginHelp.Proofs.Pattern.Finding

namespace PluginHelp

namespace Pattern

open Text

variable {word element : String} {front rest back tail : List Char}

/-! ### Directives -/

/-- A place after a name where a directive ends that has no element. -/
structure Bare (back : List Char) : Prop where
  ends : ∀ c, back.head? = some c → isNameRest c = false
  alone : ∀ element tail, IsElement element → back ≠ '(' :: (element.toList ++ ')' :: tail)

/-- A place where a directive with an element, or without one, ends. -/
def Ends (back : List Char) : (element : Option String) → Prop
  | none => Bare back
  | some element => IsElement element

/-- A directive as it is written. -/
def directiveText (word : String) : (element : Option String) → String
  | none => "@" ++ word
  | some element => inlineText word element

/-- A text that begins with a directive. -/
def OpensDirective (text : List Char) : Prop :=
  ∃ c rest, text = '@' :: c :: rest ∧ isNameStart c = true

theorem spells_element :
    Spells (char '(' ++ capture 2 (oneOrMore (one fun c => !isBlank c && c != ')')) ++ char ')')
      fun text => ∃ element, IsElement element ∧ text = '(' :: (element.toList ++ [')']) := by
  refine (((spells_char '(').seq (((spells_one _).seq (spells_many_one _)).capture 2)).seq
    (spells_char ')')).mono ?_
  rintro _ ⟨_, _, rfl, ⟨_, _, rfl, rfl, ⟨_, more, rfl, ⟨c, rfl, hc⟩, hmore⟩⟩, rfl⟩
  refine ⟨String.ofList (c :: more), isElement_of_all ?_ ?_, by simp⟩
  · intro hempty
    rw [← String.toList_inj, String.toList_ofList] at hempty
    cases hempty
  · rw [String.toList_ofList, List.all_cons, hc, Bool.true_and, List.all_eq_true]
    exact hmore

/-- A directive without an element is one match, which captures the name. -/
theorem takes_bare (hword : IsWord word) (hback : Bare back) (read : List Char) :
    Takes inlineDirective ⟨read, ("@" ++ word).toList ++ back, []⟩
      ⟨("@" ++ word).toList.reverse ++ read, back, [(1, word)]⟩ := by
  have hnone : Refuses (char '(' ++ capture 2 (oneOrMore (one fun c => !isBlank c && c != ')'))
      ++ char ')') ⟨word.toList.reverse ++ '@' :: read, back, [(1, word)]⟩ := by
    refine spells_element.refuses ?_
    rintro _ tail ⟨element, helement, rfl⟩ hrest
    exact hback.alone element tail helement (by simpa using hrest)
  have hreverse : ("@" ++ word).toList.reverse ++ read = word.toList.reverse ++ '@' :: read := by
    simp
  rw [hreverse, String.toList_append, List.append_assoc]
  exact ((takes_char '@' _ _ _).seq (takes_word hword hback.ends _)).seq hnone.optional

/-- What a directive captures. -/
theorem takes_directiveText {element : Option String} (hword : IsWord word) (hends : Ends back element)
    (read : List Char) :
    Takes inlineDirective ⟨read, (directiveText word element).toList ++ back, []⟩
      ⟨(directiveText word element).toList.reverse ++ read, back,
        element.toList.map (Prod.mk 2) ++ [(1, word)]⟩ := by
  cases element with
  | none => exact takes_bare hword hends read
  | some element => exact takes_inlineDirective hword hends read back

theorem spells_inlineDirective : Spells inlineDirective OpensDirective := by
  refine (((spells_char '@').seq (spells_isName.capture 1)).seq (spells_any _)).mono ?_
  rintro _ ⟨_, more, rfl, ⟨_, name, rfl, rfl, hname⟩, -⟩
  cases name with
  | nil => cases hname
  | cons c name => exact ⟨c, name ++ more, rfl, (isName_cons.mp hname).1⟩

theorem inlineDirective_moves : Moves inlineDirective := by
  refine spells_inlineDirective.moves ?_
  rintro _ ⟨c, rest, rfl, -⟩
  exact List.cons_ne_nil _ _

theorem silent_inlineDirective {text : List Char} (h : ¬OpensDirective text) (read : List Char) :
    Silent inlineDirective read text := by
  refine spells_inlineDirective.silent ?_
  rintro _ back ⟨c, rest, rfl, hc⟩ htext
  exact h ⟨c, rest ++ back, htext, hc⟩

/-! ### Stretches -/

/-- What a text is made of. -/
inductive Stretch where
  | sign (c : Char)
  | directive (word : String) (element : Option String)

/-- A text is cut into directives and other characters. -/
inductive Cuts : List Char → List Stretch → Prop
  | done : Cuts [] []
  | sign {c : Char} {rest : List Char} {stretches : List Stretch} (h : ¬OpensDirective (c :: rest)) :
    Cuts rest stretches → Cuts (c :: rest) (.sign c :: stretches)
  | directive {word : String} {element : Option String} {back : List Char}
    {stretches : List Stretch} (hword : IsWord word) (hends : Ends back element) :
    Cuts back stretches →
      Cuts ((directiveText word element).toList ++ back) (.directive word element :: stretches)

/-- Where a directive begins, there is one, with an element or without. -/
theorem exists_directive {c : Char} (hc : isNameStart c = true) (rest : List Char) :
    ∃ word element back, IsWord word ∧ Ends back element
      ∧ '@' :: c :: rest = (directiveText word element).toList ++ back := by
  have hword : IsWord (String.ofList (c :: rest.takeWhile isNameRest)) :=
    ⟨c, _, String.toList_ofList, hc, List.all_eq_true.mp List.all_takeWhile⟩
  by_cases hbare : Bare (rest.dropWhile isNameRest)
  · refine ⟨_, none, _, hword, hbare, ?_⟩
    simp [directiveText]
  · have hends := head?_dropWhile isNameRest rest
    obtain ⟨element, tail, helement, htail⟩ : ∃ element tail, IsElement element
        ∧ rest.dropWhile isNameRest = '(' :: (element.toList ++ ')' :: tail) := by
      by_contra hnone
      push Not at hnone
      exact hbare ⟨hends, hnone⟩
    refine ⟨_, some element, tail, hword, helement, ?_⟩
    calc '@' :: c :: rest
        = '@' :: c :: (rest.takeWhile isNameRest ++ '(' :: (element.toList ++ ')' :: tail)) := by
          rw [← htail, List.takeWhile_append_dropWhile]
      _ = _ := by simp [directiveText, inlineText]

/-- Every text can be cut. -/
theorem exists_cuts (text : List Char) : ∃ stretches, Cuts text stretches := by
  induction hlength : text.length using Nat.strongRecOn generalizing text with
  | _ length ih =>
      cases text with
      | nil => exact ⟨[], .done⟩
      | cons c rest =>
          by_cases hopens : OpensDirective (c :: rest)
          · obtain ⟨d, more, htext, hd⟩ := hopens
            obtain ⟨word, element, back, hword, hends, hcut⟩ := exists_directive hd more
            rw [← htext] at hcut
            have hfilled : 0 < (directiveText word element).toList.length := by
              cases element <;> simp [directiveText, inlineText]
            have hless : back.length < length := by
              rw [← hlength, hcut, List.length_append]
              omega
            obtain ⟨stretches, hback⟩ := ih _ hless back rfl
            rw [hcut]
            exact ⟨_, .directive hword hends hback⟩
          · have hless : rest.length < length := by
              rw [← hlength]
              exact Nat.lt_succ_self _
            obtain ⟨stretches, hrest⟩ := ih _ hless rest rfl
            exact ⟨_, .sign hopens hrest⟩

/-! ### Texts put together -/

/-- The place between two texts is inside the parentheses of a directive. -/
def InElement (front rest : List Char) : Prop :=
  ∃ before word opened more tail, IsWord word
    ∧ front = before ++ '@' :: (word.toList ++ '(' :: opened) ∧ rest = more ++ ')' :: tail
    ∧ ∀ c ∈ opened ++ more, isBlank c = false ∧ c ≠ ')'

theorem InElement.after (h : InElement front rest) (before : List Char) :
    InElement (before ++ front) rest := by
  obtain ⟨earlier, word, opened, more, tail, hword, rfl, hrest, hsolid⟩ := h
  exact ⟨before ++ earlier, word, opened, more, tail, hword, by simp, hrest, hsolid⟩

/-- Two texts meet where no directive reaches from the first one into the second. -/
structure Meets (front rest : List Char) : Prop where
  ends : ∀ c, rest.head? = some c → isNameRest c = false ∧ c ≠ '('
  outside : ¬InElement front rest

theorem Meets.after {before : List Char} (h : Meets (before ++ front) rest) : Meets front rest :=
  ⟨h.ends, fun hin => h.outside (hin.after before)⟩

/-- A directive without an element does not find one in the second text. -/
theorem Bare.append (hword : IsWord word) (hback : Bare back)
    (h : Meets (("@" ++ word).toList ++ back) rest) : Bare (back ++ rest) where
  ends := by
    intro c hc
    cases back with
    | nil => exact (h.ends c hc).1
    | cons d back => exact hback.ends c hc
  alone := by
    intro element tail helement htext
    cases back with
    | nil =>
        have hhead : rest.head? = some '(' := congrArg List.head? htext
        exact (h.ends '(' hhead).2 rfl
    | cons d opened =>
        obtain ⟨rfl, hopened⟩ := List.cons.inj htext
        -- The element ends in the first text, or else the place is inside of it.
        rcases List.append_eq_append_iff.mp hopened with ⟨more, hmore, hrest⟩ | ⟨gap, hgap, hrest⟩
        · refine h.outside ⟨[], word, opened, more, tail, hword, by simp, hrest, ?_⟩
          rw [← hmore]
          exact helement.solid
        · cases gap with
          | nil =>
              refine h.outside ⟨[], word, opened, [], tail, hword, by simp, hrest.symm, ?_⟩
              rw [hgap, List.append_nil, List.append_nil]
              exact helement.solid
          | cons c gap =>
              obtain ⟨rfl, -⟩ := List.cons.inj hrest
              exact hback.alone element gap helement (by rw [hgap])

/-- Texts that meet are cut one after the other. -/
theorem Cuts.append {ours theirs : List Stretch} (hfront : Cuts front ours) (hrest : Cuts rest theirs)
    (h : Meets front rest) : Cuts (front ++ rest) (ours ++ theirs) := by
  induction hfront with
  | done => exact hrest
  | @sign c front ours hopens _ ih =>
      have hmeets : Meets ([c] ++ front) rest := h
      refine .sign ?_ (ih hmeets.after)
      rintro ⟨d, more, htext, hd⟩
      obtain ⟨rfl, hmore⟩ := List.cons.inj htext
      cases front with
      | nil =>
          have hhead : rest.head? = some d := congrArg List.head? hmore
          have hname := (h.ends d hhead).1
          rw [isNameRest_of_isNameStart hd] at hname
          cases hname
      | cons e front =>
          obtain ⟨rfl, -⟩ := List.cons.inj hmore
          exact hopens ⟨e, front, rfl, hd⟩
  | @directive word element back ours hword hends _ ih =>
      rw [List.append_assoc]
      refine .directive hword ?_ (ih h.after)
      cases element with
      | none => exact Bare.append hword hends h
      | some element => exact hends

end Pattern

/-! ### Two passes -/

namespace Help

open Pattern

/-- What comes of a text: the causes of the first pass, and inside of it what the second one gives. -/
abbrev Passes := Except Cause (Except Cause String)

namespace Passes

/-- One text after the other. -/
def append (first second : Passes) : Passes := do
  let front ← first
  let back ← second
  return do
    let s ← front
    let t ← back
    return s ++ t

/-- What is left when both passes are over. -/
def result (passes : Passes) : Except Cause String :=
  passes >>= id

/-- A stretch that was looked up. -/
def ofValue (value : Except Cause Value) : Passes :=
  value.map expandedText

variable {first second third : Passes}

theorem append_assoc : (first.append second).append third = first.append (second.append third) := by
  rcases first with cause | front
  · rfl
  rcases second with cause | middle
  · rfl
  rcases third with cause | back
  · rfl
  refine congrArg Except.ok ?_
  rcases front with cause | s
  · rfl
  rcases middle with cause | t
  · rfl
  rcases back with cause | u
  · rfl
  exact congrArg Except.ok String.append_assoc

theorem empty_append : append (.ok (.ok "")) first = first := by
  rcases first with cause | (cause | s)
  · rfl
  · rfl
  · exact congrArg (Except.ok ∘ Except.ok) String.empty_append

theorem result_append_eq_ok_iff {out : String} :
    (first.append second).result = .ok out
      ↔ ∃ s t, first.result = .ok s ∧ second.result = .ok t ∧ out = s ++ t := by
  rcases first with cause | (cause | s) <;> rcases second with cause | (cause | t)
  all_goals simp [append, result, bind, Except.bind, pure, Except.pure, eq_comm]

theorem result_append_of_ok {s : String} (h : first.result = .ok s) :
    (first.append second).result = second.result.map (s ++ ·) := by
  rcases first with cause | (cause | front)
  · cases h
  · cases h
  · obtain rfl : front = s := Except.ok.inj h
    rcases second with cause | (cause | back) <;> rfl

end Passes

variable {c : Context} {space : Value} {text : String}

/-- What comes of some items that can be looked up. -/
def passes {α : Type} (make : α → Except Cause Value) : List α → Passes
  | [] => .ok (.ok "")
  | item :: items => (Passes.ofValue (make item)).append (passes make items)

/-- The second pass: the texts of values, put together. -/
def spell (values : List Value) : Except Cause String :=
  (values.mapM expandedText).map String.join

theorem spell_cons (value : Value) (values : List Value) :
    spell (value :: values) = do
      let s ← expandedText value
      let t ← spell values
      return s ++ t := by
  unfold spell
  rw [List.mapM_cons]
  rcases expandedText value with cause | s
  · rfl
  rcases values.mapM expandedText with cause | texts
  · rfl
  exact congrArg Except.ok String.join_cons

theorem passes_eq {α : Type} (make : α → Except Cause Value) (items : List α) :
    passes make items = (items.mapM make).map spell := by
  induction items with
  | nil => rfl
  | cons item items ih =>
      rw [passes, ih, List.mapM_cons]
      rcases make item with cause | value
      · rfl
      rcases items.mapM make with cause | values
      · rfl
      exact congrArg Except.ok (spell_cons value values).symm

theorem passes_append {α : Type} (make : α → Except Cause Value) (front back : List α) :
    passes make (front ++ back) = (passes make front).append (passes make back) := by
  induction front with
  | nil => exact Passes.empty_append.symm
  | cons item front ih => rw [List.cons_append, passes, ih, passes, Passes.append_assoc]

/-- What comes of a text. -/
def looked (c : Context) (space : Value) (text : String) : Passes :=
  passes (expandPiece c space) (inlineDirective.pieces text)

theorem expand_eq (c : Context) (space : Value) (text : String) :
    expand c space text = (looked c space text).result := by
  unfold expand looked
  rw [passes_eq]
  rcases (inlineDirective.pieces text).mapM (expandPiece c space) with cause | values
  · rfl
  · show (values.mapM expandedText >>= fun texts => pure (String.join texts)) = spell values
    unfold spell
    rcases values.mapM expandedText with cause | texts <;> rfl

/-- What a stretch of a text stands for.  A directive that means nothing stands for itself. -/
def stretchValue (c : Context) (space : Value) : Stretch → Except Cause Value
  | .sign sign => .ok (.text (String.ofList [sign]))
  | .directive word element => do
    match ← expandInline c word (.ofText? element) space with
    | .nothing => return .text (directiveText word element)
    | value => return value

theorem expandPiece_directive (c : Context) (space : Value) (word : String)
    (element : Option String) (read back : List Char) :
    expandPiece c space (.hit (inlineDirective.found
        ⟨read, (directiveText word element).toList ++ back, []⟩
        ⟨(directiveText word element).toList.reverse ++ read, back,
          element.toList.map (Prod.mk 2) ++ [(1, word)]⟩))
      = stretchValue c space (.directive word element) := by
  generalize hm : inlineDirective.found _ _ = m
  have hword : m.group 1 = word := by
    rw [← hm, group_found (by decide)]
    cases element <;> rfl
  have helement : m.group? 2 = element := by
    rw [← hm, group?_found (by decide)]
    cases element <;> rfl
  have htext : m.text = directiveText word element := by
    rw [← hm]
    exact (Scan.since_eq rfl).trans String.ofList_toList
  rw [expandPiece, hword, helement, htext]
  rfl

/-- The pieces of a text come to what its stretches come to. -/
theorem passes_of_cuts {rest : List Char} {stretches : List Stretch} (h : Cuts rest stretches) :
    ∀ (read : List Char) (bound : Nat) (captured : List (Nat × String)), rest.length ≤ bound →
      passes (expandPiece c space) (inlineDirective.piecesFrom bound false ⟨read, rest, captured⟩)
        = passes (stretchValue c space) stretches := by
  induction h with
  | done =>
      intro read bound captured _
      rw [piecesFrom_end inlineDirective_moves]
      exact Passes.empty_append
  | @sign sign rest stretches hopens _ ih =>
      intro read bound captured hbound
      obtain ⟨front, pieces, hshort, hlong⟩ :=
        piecesFrom_skip (silent_inlineDirective hopens read) bound
      have hrest := ih (sign :: read) bound captured (Nat.le_of_succ_le hbound)
      rw [hshort, passes] at hrest
      rw [hlong, passes, passes, ← hrest, ← Passes.append_assoc]
      have hsigns : String.ofList (sign :: front) = String.ofList [sign] ++ String.ofList front := by
        rw [← String.ofList_append, List.singleton_append]
      rw [expandPiece, hsigns]
      rfl
  | @directive word element back stretches hword hends _ ih =>
      intro read bound captured hbound
      have hend := (takes_directiveText hword hends read).endFrom?
      have hless : back.length < _ := inlineDirective_moves.length_rest_lt hend
      obtain ⟨less, rfl⟩ : ∃ less, bound = less + 1 := ⟨bound - 1, by omega⟩
      rw [piecesFrom_hit inlineDirective_moves hend, passes, passes, passes,
        ih _ less _ (by omega), expandPiece_directive]
      exact Passes.empty_append

theorem looked_of_cuts {stretches : List Stretch} (h : Cuts text.toList stretches) :
    looked c space text = passes (stretchValue c space) stretches :=
  passes_of_cuts h [] _ [] (by omega)

/-- Texts that meet are looked up one after the other. -/
theorem looked_append {front rest : String} (h : Meets front.toList rest.toList) :
    looked c space (front ++ rest) = (looked c space front).append (looked c space rest) := by
  obtain ⟨ours, hours⟩ := exists_cuts front.toList
  obtain ⟨theirs, htheirs⟩ := exists_cuts rest.toList
  have hboth : Cuts (front ++ rest).toList (ours ++ theirs) := by
    rw [String.toList_append]
    exact hours.append htheirs h
  rw [looked_of_cuts hboth, looked_of_cuts hours, looked_of_cuts htheirs, passes_append]

/-- A directive at the start of a text is looked up first. -/
theorem looked_directive {word back : String} {element : Option String} (hword : IsWord word)
    (hends : Ends back.toList element) :
    looked c space (directiveText word element ++ back)
      = (Passes.ofValue (stretchValue c space (.directive word element))).append
        (looked c space back) := by
  obtain ⟨stretches, hback⟩ := exists_cuts back.toList
  have hall : Cuts (directiveText word element ++ back).toList
      (.directive word element :: stretches) := by
    rw [String.toList_append]
    exact .directive hword hends hback
  rw [looked_of_cuts hall, looked_of_cuts hback, passes]

end Help

end PluginHelp
