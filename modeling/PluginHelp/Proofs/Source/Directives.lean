/-
Directives that refer to sections.

The identifier of a section is a name in which dashes count as letters.  Directives that refer to a
section read it back each in their own way.  What belongs to its end is found by the identifier as
it is.  A parent is looked for by the identifier in small letters, which is another one if it has
capitals.  And an order does not accept an identifier that begins with a dash; the items of an order
are searched for in its text, and each is found up to where it ends.
-/
import PluginHelp.Proofs.Pattern.Anchored
import PluginHelp.Proofs.Pattern.Names
import PluginHelp.Source.Directive

namespace PluginHelp

open PluginHelp.Text

namespace Pattern

variable {p : Pattern} {s : Scan} {read rest text : List Char} {captured : List (Nat × String)}

/-! ### Lines with a directive -/

/-- The rest of a line is captured up to its end. -/
theorem takes_restOfLine (h : '\n' ∉ text) (read : List Char) (captured : List (Nat × String))
    (number : Nat) :
    Takes (capture number restOfLine) ⟨read, text, captured⟩
      ⟨text.reverse ++ read, [], (number, String.ofList text) :: captured⟩ := by
  have hall : Takes restOfLine ⟨read, text ++ [], captured⟩ ⟨text.reverse ++ read, [], captured⟩ := by
    refine takes_many_one (fun c hc => ?_) (by simp) read
    rw [bne_iff_ne]
    rintro rfl
    exact h hc
  have htakes := hall.capture number
  rwa [List.append_nil] at htakes

/-- A line with a directive: its name, and what is said about it after a space. -/
theorem takes_directive {word arguments : List Char} (hword : isName word = true)
    (hline : '\n' ∉ arguments) (hfirst : ∀ c, arguments.head? = some c → isBlank c = false) :
    Takes directive (.start ('"' :: ' ' :: '@' :: (word ++ ' ' :: arguments)))
      ⟨arguments.reverse ++ ' ' :: (word.reverse ++ ['@', ' ', '"']), [],
        [(2, String.ofList arguments), (1, String.ofList word)]⟩ := by
  have hsign : Takes (atStart ++ blanks ++ char '"')
      (.start ([] ++ '"' :: ' ' :: '@' :: (word ++ ' ' :: arguments)))
      ⟨['"'], ' ' :: '@' :: (word ++ ' ' :: arguments), []⟩ :=
    takes_sign (by simp) rfl _
  have hgap : Takes blanks ⟨['"'], [' '] ++ '@' :: (word ++ ' ' :: arguments), []⟩
      ⟨[' ', '"'], '@' :: (word ++ ' ' :: arguments), []⟩ := by
    refine takes_many_one (by simp; rfl) ?_ ['"']
    rintro c ⟨⟩
    rfl
  have hname : Takes name ⟨['@', ' ', '"'], word ++ ' ' :: arguments, []⟩
      ⟨word.reverse ++ ['@', ' ', '"'], ' ' :: arguments, []⟩ := by
    refine takes_name hword ?_ _
    rintro c ⟨⟩
    rfl
  have hspace : Takes someBlanks
      ⟨word.reverse ++ ['@', ' ', '"'], [' '] ++ arguments, [(1, String.ofList word)]⟩
      ⟨' ' :: (word.reverse ++ ['@', ' ', '"']), arguments, [(1, String.ofList word)]⟩ :=
    takes_oneOrMore (by simp) (by simp; rfl) hfirst _
  have hrest := takes_restOfLine hline (' ' :: (word.reverse ++ ['@', ' ', '"']))
    [(1, String.ofList word)] 2
  exact (((((hsign.seq hgap).seq (takes_char '@' _ _ _)).seq (hname.capture 1)).seq
    hspace.alt).seq hrest)

/-! ### Identifiers of sections -/

/-- A character that an identifier of a section may go on with. -/
def isDashedRest (c : Char) : Bool :=
  isNameRest c || c == '-'

/-- An identifier of a section. -/
def isDashedName : List Char → Bool
  | [] => false
  | c :: rest => (isNameStart c || c == '-') && rest.all isDashedRest

theorem isDashedName_cons {c : Char} :
    isDashedName (c :: rest) = true
      ↔ (isNameStart c || c == '-') = true ∧ ∀ d ∈ rest, isDashedRest d = true := by
  rw [isDashedName, Bool.and_eq_true, List.all_eq_true]

theorem isDashedRest_of_isDashedName (h : isDashedName text = true) :
    ∀ c ∈ text, isDashedRest c = true := by
  cases text with
  | nil => cases h
  | cons c text =>
      obtain ⟨hc, htext⟩ := isDashedName_cons.mp h
      refine List.forall_mem_cons.mpr ⟨?_, htext⟩
      rcases Bool.or_eq_true_iff.mp hc with hstart | hdash
      · rw [isDashedRest, isNameRest_of_isNameStart hstart, Bool.true_or]
      · rw [isDashedRest, hdash, Bool.or_true]

theorem isDashedRest_range {c : Char} (h : isDashedRest c = true) :
    45 ≤ c.toNat ∧ c.toNat ≤ 122 := by
  rcases Bool.or_eq_true_iff.mp h with hrest | hdash
  · have hrange := isArgumentChar_range (isArgumentChar_of_isNameRest hrest)
    omega
  · rw [beq_iff_eq.mp hdash]
    decide

theorem isBlank_of_isDashedRest {c : Char} (h : isDashedRest c = true) : isBlank c = false := by
  obtain ⟨hlow, hhigh⟩ := isDashedRest_range h
  exact isBlank_of_graphic (by omega) (by omega)

theorem spells_dashedName : Spells dashedName (isDashedName · = true) := by
  refine ((spells_one _).seq (spells_many_one _)).mono ?_
  rintro _ ⟨_, back, rfl, ⟨c, rfl, hc⟩, hback⟩
  exact isDashedName_cons.mpr ⟨hc, hback⟩

theorem takes_dashedName (h : isDashedName text = true)
    (hrest : ∀ c, rest.head? = some c → isDashedRest c = false) (read : List Char) :
    Takes dashedName ⟨read, text ++ rest, captured⟩ ⟨text.reverse ++ read, rest, captured⟩ := by
  cases text with
  | nil => cases h
  | cons c text =>
      obtain ⟨hc, htext⟩ := isDashedName_cons.mp h
      exact takes_run hc htext hrest read

/-! ### Items of an order

An identifier in an order begins with no dash.  It is found up to the first character that it cannot
go on with, so a text in which each item ends there gives back just these items.
-/

/-- An identifier of a section in an order. -/
def isOrderedName : List Char → Bool
  | [] => false
  | c :: rest => isNameStart c && rest.all isDashedRest

/-- A sign that may end an order. -/
def isOrderSign (c : Char) : Bool :=
  c == '+' || c == '-'

/-- Items of an order one after the other, with blanks between them or none.  An identifier goes as
far as it can, and a sign stands at the end only. -/
inductive OrderRow : (text : List Char) → (items : List (List Char)) → Prop
  | done : OrderRow [] []
  | blank {c : Char} {rest : List Char} {items : List (List Char)} (hc : isBlank c = true) :
    OrderRow rest items → OrderRow (c :: rest) items
  | name {word rest : List Char} {items : List (List Char)} (hword : isOrderedName word = true)
    (hend : ∀ c, rest.head? = some c → isDashedRest c = false) :
    OrderRow rest items → OrderRow (word ++ rest) (word :: items)
  | sign {c : Char} (hc : isOrderSign c = true) : OrderRow [c] [[c]]

variable {word : List Char} {items : List (List Char)} {c : Char}

theorem isOrderedName_cons :
    isOrderedName (c :: rest) = true
      ↔ isNameStart c = true ∧ ∀ d ∈ rest, isDashedRest d = true := by
  rw [isOrderedName, Bool.and_eq_true, List.all_eq_true]

theorem isDashedRest_of_isOrderedName (h : isOrderedName word = true) :
    ∀ c ∈ word, isDashedRest c = true := by
  cases word with
  | nil => cases h
  | cons c word =>
      obtain ⟨hc, hword⟩ := isOrderedName_cons.mp h
      refine List.forall_mem_cons.mpr ⟨?_, hword⟩
      rw [isDashedRest, isNameRest_of_isNameStart hc, Bool.true_or]

theorem isOrderSign_iff : isOrderSign c = true ↔ c = '+' ∨ c = '-' := by
  rw [isOrderSign, Bool.or_eq_true, beq_iff_eq, beq_iff_eq]

theorem isBlank_of_isOrderSign (h : isOrderSign c = true) : isBlank c = false := by
  rcases isOrderSign_iff.mp h with rfl | rfl
  · rfl
  · rfl

theorem spells_orderedName : Spells orderedName (isOrderedName · = true) := by
  refine ((spells_one _).seq (spells_many_one _)).mono ?_
  rintro _ ⟨_, back, rfl, ⟨c, rfl, hc⟩, hback⟩
  exact isOrderedName_cons.mpr ⟨hc, hback⟩

theorem takes_orderedName (hword : isOrderedName word = true)
    (hend : ∀ c, rest.head? = some c → isDashedRest c = false) (read : List Char) :
    Takes orderedName ⟨read, word ++ rest, captured⟩ ⟨word.reverse ++ read, rest, captured⟩ := by
  cases word with
  | nil => cases hword
  | cons c word =>
      obtain ⟨hc, hword⟩ := isOrderedName_cons.mp hword
      exact takes_run hc hword hend read

theorem spells_orderItem :
    Spells orderItem fun text =>
      isOrderedName text = true ∨ ∃ c, text = [c] ∧ isOrderSign c = true :=
  (spells_orderedName.alt (spells_one _)).capture 1

theorem orderItem_moves : Moves orderItem := by
  refine spells_orderItem.moves ?_
  rintro text (hname | ⟨c, rfl, -⟩)
  · rintro rfl
    cases hname
  · exact List.cons_ne_nil c []

/-- No item begins at a blank. -/
theorem silent_orderItem (hc : isBlank c = true) (read rest : List Char) :
    Silent orderItem read (c :: rest) := by
  have hsolid {d : Char} (hd : isBlank d = false) : d ≠ c := by
    rintro rfl
    rw [hc] at hd
    cases hd
  refine spells_orderItem.silent ?_
  rintro text back (hname | ⟨d, rfl, hd⟩) htext
  · cases text with
    | nil => cases hname
    | cons d text =>
        have hstart := (isOrderedName_cons.mp hname).1
        exact hsolid (isBlank_of_isNameStart hstart) (List.cons.inj htext).1.symm
  · exact hsolid (isBlank_of_isOrderSign hd) (List.cons.inj htext).1.symm

/-- An item that is taken is found, and then what is found behind it. -/
theorem Finds.item {found : List Match} (hrest : Finds orderItem (word.reverse ++ read) rest found)
    (h : Takes (orderedName <|> orderSign) ⟨read, word ++ rest, []⟩
      ⟨word.reverse ++ read, rest, []⟩) :
    ∃ m : Match, m.group 1 = String.ofList word
      ∧ Finds orderItem read (word ++ rest) (m :: found) := by
  refine ⟨_, ?_, .hit (h.capture 1).endFrom? hrest⟩
  rw [group_found (by decide)]
  rfl

/-- Of a row of items, just these items are found. -/
theorem OrderRow.finds (h : OrderRow text items) :
    ∀ read, ∃ found, Finds orderItem read text found
      ∧ found.map (·.group 1) = items.map String.ofList := by
  induction h with
  | done => exact fun read => ⟨[], .done, rfl⟩
  | blank hc _ ih =>
      intro read
      obtain ⟨found, hfinds, hitems⟩ := ih (_ :: read)
      exact ⟨found, .skip (silent_orderItem hc read _) hfinds, hitems⟩
  | @name word rest items hword hend _ ih =>
      intro read
      obtain ⟨found, hfinds, hitems⟩ := ih (word.reverse ++ read)
      obtain ⟨m, hm, hmore⟩ := hfinds.item (takes_orderedName hword hend read).alt
      exact ⟨m :: found, hmore, by rw [List.map_cons, List.map_cons, hm, hitems]⟩
  | @sign c hc =>
      intro read
      have hnone : Refuses orderedName ⟨read, [c] ++ [], []⟩ := by
        refine Refuses.seq (refuses_one_of_rest ?_)
        rintro d ⟨⟩
        rcases isOrderSign_iff.mp hc with rfl | rfl
        · rfl
        · rfl
      have hsign : Takes orderSign ⟨read, [c] ++ [], []⟩ ⟨[c].reverse ++ read, [], []⟩ :=
        takes_one hc
      obtain ⟨m, hm, hfinds⟩ := Finds.done.item (hsign.altSecond hnone)
      exact ⟨[m], hfinds, by rw [List.map_singleton, List.map_singleton, hm]⟩

theorem OrderRow.findTexts {s : String} (h : OrderRow s.toList items) :
    orderItem.findTexts s = items.map String.ofList := by
  obtain ⟨found, hfinds, hitems⟩ := h.finds []
  have hall := hfinds.unique orderItem_moves (finds_findAll orderItem_moves s)
  rw [← hitems, ← hall]
  rfl

/-- What a section is given as its identifier is one. -/
theorem isDashedName_of_sectionTitle {arguments id : String} {m : Match}
    (hm : sectionTitle.match? arguments = some m) (hid : m.group? 2 = some id) :
    isDashedName id.toList = true := by
  have hcaptured : MayCapture sectionTitle 2 (isDashedName · = true) :=
    ((((spells_dashedName.captures 2).preceded _).mayCapture.optional).preceded rfl).followed rfl
  exact hcaptured.of_match? (by decide) hm hid

/-! ### References -/

theorem takes_sectionReference {id : String} (h : isDashedName id.toList = true) :
    Takes sectionReference (.start id.toList) ⟨id.toList.reverse, [], [(1, id)]⟩ := by
  have hname : Takes dashedName ⟨[], id.toList ++ [], []⟩ ⟨id.toList.reverse ++ [], [], []⟩ :=
    takes_dashedName h (by simp) []
  have htakes := hname.capture 1
  rw [List.append_nil, List.append_nil, String.ofList_toList] at htakes
  exact htakes

/-- An identifier of a section in an order, after blanks. -/
def IsSpacedName (text : List Char) : Prop :=
  ∃ gap word, text = gap ++ word ∧ (∀ d ∈ gap, isBlank d = true) ∧ isOrderedName word = true

theorem spells_spacedName : Spells (blanks ++ orderedName) IsSpacedName :=
  (spells_many_one _).seq spells_orderedName

/-- An order begins with an item. -/
theorem spells_sectionOrder :
    Spells sectionOrder fun text => ∃ gap c more, text = gap ++ c :: more
      ∧ (∀ d ∈ gap, isBlank d = true) ∧ isNameStart c = true := by
  refine (((spells_test _).seq (((spells_spacedName.seq (spells_any _)).seq
    (spells_any _)).capture 1)).seq (spells_test _)).mono ?_
  rintro _ ⟨_, _, rfl, ⟨_, _, rfl, rfl, _, sign, rfl, ⟨_, items, rfl, hitem, -⟩, -⟩, rfl⟩
  obtain ⟨gap, word, rfl, hgap, hword⟩ := hitem
  cases word with
  | nil => cases hword
  | cons c word =>
      exact ⟨gap, c, word ++ items ++ sign, by simp, hgap, (isOrderedName_cons.mp hword).1⟩

/-- An order does not begin with a dash. -/
theorem refuses_sectionOrder : Refuses sectionOrder (.start ('-' :: rest)) := by
  refine spells_sectionOrder.refuses ?_
  rintro _ back ⟨gap, c, more, rfl, hgap, hc⟩ hrest
  cases gap with
  | nil =>
      obtain ⟨rfl, -⟩ := List.cons.inj hrest
      cases hc
  | cons d gap =>
      obtain ⟨rfl, -⟩ := List.cons.inj hrest
      cases hgap '-' List.mem_cons_self

/-- An identifier that begins with no dash is an order. -/
theorem takes_sectionOrder {id : String} (hid : isOrderedName id.toList = true) :
    Takes sectionOrder (.start id.toList) ⟨id.toList.reverse, [], [(1, id)]⟩ := by
  have hgap : Takes blanks ⟨[], [] ++ id.toList, []⟩ ⟨[].reverse ++ [], id.toList, []⟩ := by
    refine takes_many_one (by simp) (fun d hd => ?_) []
    exact isBlank_of_isDashedRest (isDashedRest_of_isOrderedName hid d (List.mem_of_head? hd))
  have hname : Takes orderedName ⟨[], id.toList ++ [], []⟩ ⟨id.toList.reverse ++ [], [], []⟩ :=
    takes_orderedName hid (by simp) []
  rw [List.append_nil, List.append_nil] at hname
  have hmore : Moves (blanks ++ orderedName) := by
    refine spells_spacedName.moves ?_
    rintro _ ⟨gap, word, rfl, -, hword⟩ hnil
    rw [(List.append_eq_nil_iff.mp hnil).2] at hword
    cases hword
  have hsign : Moves (blanks ++ orderSign) := by
    refine ((spells_any _).seq (spells_one _)).moves ?_
    rintro _ ⟨gap, _, rfl, -, c, rfl, -⟩
    simp
  have hitems : Takes (oneOrMore (blanks ++ orderedName) ++ optional (blanks ++ orderSign))
      ⟨[], id.toList ++ [], []⟩ ⟨id.toList.reverse ++ [], [], []⟩ := by
    rw [List.append_nil, List.append_nil]
    exact ((hgap.seq hname).seq (hmore.refuses_end _ _).many).seq (hsign.refuses_end _ _).optional
  have htakes := hitems.capture 1
  rw [List.append_nil, List.append_nil, String.ofList_toList] at htakes
  exact ((takes_atStart _).seq htakes).seq (takes_test rfl)

/-- An identifier that begins with no dash is one item of an order. -/
theorem findTexts_orderItem {id : String} (hid : isOrderedName id.toList = true) :
    orderItem.findTexts id = [id] := by
  have hrow : OrderRow (id.toList ++ []) [id.toList] := .name hid (by simp) .done
  rw [List.append_nil] at hrow
  rw [hrow.findTexts, List.map_singleton, String.ofList_toList]

end Pattern

/-! ### Small letters -/

namespace Text

/-- A capital letter of ASCII. -/
def isCapital (c : Char) : Bool :=
  'A' ≤ c && c ≤ 'Z'

theorem small_of_ascii {c : Char} (h : c.toNat < 128) (before after : List Char) :
    small before c after = [if isCapital c then Char.ofNat (c.toNat + 32) else c] := by
  rw [small, if_pos h]
  rfl

/-- Among the characters of ASCII, small letters change the capitals only. -/
theorem smallAfter_eq_self_iff {text : List Char} (h : ∀ c ∈ text, c.toNat < 128) :
    ∀ before, smallAfter before text = text ↔ ∀ c ∈ text, isCapital c = false := by
  induction text with
  | nil => simp [smallAfter]
  | cons c text ih =>
      intro before
      obtain ⟨hc, htext⟩ := List.forall_mem_cons.mp h
      have hfirst : (if isCapital c then Char.ofNat (c.toNat + 32) else c) = c
          ↔ isCapital c = false := by
        cases hcapital : isCapital c with
        | false => simp
        | true =>
            simp only [if_true, reduceCtorEq, iff_false]
            intro hsame
            have hnumber : (Char.ofNat (c.toNat + 32)).toNat = c.toNat + 32 := by
              rw [Char.ofNat, dif_pos (Or.inl (by omega))]
              rfl
            rw [hsame] at hnumber
            omega
      rw [smallAfter, small_of_ascii hc, List.singleton_append, List.cons.injEq, hfirst,
        ih htext, List.forall_mem_cons]

theorem lower_eq_self_iff {s : String} (h : ∀ c ∈ s.toList, c.toNat < 128) :
    lower s = s ↔ ∀ c ∈ s.toList, isCapital c = false := by
  rw [← smallAfter_eq_self_iff h [], ← String.toList_inj, lower, String.toList_ofList]

end Text

namespace DocLine

/-! ### Reading references -/

/-- Reading a line with a directive is reading the directive. -/
theorem read_directive {keyword : Keyword} {word lead arguments : String}
    (hkeyword : Keyword.ofName? word = some keyword) (hword : Pattern.isName word.toList = true)
    (hlead : lead = "\" @" ++ word ++ " ") (hline : '\n' ∉ arguments.toList)
    (hfirst : ∀ c, arguments.toList.head? = some c → isBlank c = false) :
    DocLine.read (lead ++ arguments) = ofDirective keyword arguments := by
  have htext : (lead ++ arguments).toList
      = '"' :: ' ' :: '@' :: (word.toList ++ ' ' :: arguments.toList) := by
    rw [hlead]
    simp
  have htakes := Pattern.takes_directive hword hline hfirst
  rw [← htext] at htakes
  generalize hend : (⟨arguments.toList.reverse ++ ' ' :: (word.toList.reverse ++ ['@', ' ', '"']),
    [], [(2, String.ofList arguments.toList), (1, String.ofList word.toList)]⟩ : Scan) = t at htakes
  have hfirst (s : Scan) : (Pattern.directive.found s t).group 1 = word := by
    rw [Pattern.group_found (by decide), ← hend]
    exact String.ofList_toList
  have hsecond (s : Scan) : (Pattern.directive.found s t).group 2 = arguments := by
    rw [Pattern.group_found (by decide), ← hend]
    exact String.ofList_toList
  unfold DocLine.read
  rw [htakes.match?]
  dsimp only
  rw [hfirst, hsecond, hkeyword]

theorem ofDirective_of_takes {keyword : Keyword} {arguments : String} {t : Scan}
    (h : Pattern.Takes keyword.arguments (.start arguments.toList) t) :
    ofDirective keyword arguments
      = .ok (ofMatch keyword (keyword.arguments.found (.start arguments.toList) t)) := by
  unfold ofDirective
  rw [h.match?]

theorem ofDirective_of_refuses {keyword : Keyword} {arguments : String}
    (h : Pattern.Refuses keyword.arguments (.start arguments.toList)) :
    ofDirective keyword arguments = .error (.badArguments keyword.label arguments) := by
  unfold ofDirective
  rw [h.match?]

theorem exists_match_of_ofDirective {keyword : Keyword} {arguments : String} {line : DocLine}
    (h : ofDirective keyword arguments = .ok line) :
    ∃ m, keyword.arguments.match? arguments = some m ∧ line = ofMatch keyword m := by
  unfold ofDirective at h
  split at h
  · rename_i m hm
    exact ⟨m, hm, (Except.ok.inj h).symm⟩
  · cases h

/-- A line of a doc comment is text, or a directive that accepts what follows its name. -/
theorem exists_match_of_read {source : String} {line : DocLine} (h : read source = .ok line) :
    (∃ told, line = .text told)
      ∨ ∃ keyword arguments m, (Keyword.arguments keyword).match? arguments = some m
        ∧ line = ofMatch keyword m := by
  unfold read at h
  split at h
  · split at h
    · obtain ⟨m, hm, hline⟩ := exists_match_of_ofDirective h
      exact Or.inr ⟨_, _, m, hm, hline⟩
    · cases h
  · exact Or.inl ⟨_, (Except.ok.inj h).symm⟩

/-- What is said about a reference to a section is its identifier. -/
theorem read_reference {keyword : Keyword} {lead id : String} (word : String)
    (hkeyword : Keyword.ofName? word = some keyword) (hword : Pattern.isName word.toList = true)
    (hlead : lead = "\" @" ++ word ++ " ") (hid : Pattern.isDashedName id.toList = true) :
    DocLine.read (lead ++ id) = ofDirective keyword id := by
  have hsolid : ∀ c ∈ id.toList, isBlank c = false := fun c hc =>
    Pattern.isBlank_of_isDashedRest (Pattern.isDashedRest_of_isDashedName hid c hc)
  refine read_directive hkeyword hword hlead (fun hmem => ?_) fun c hc => ?_
  · cases hsolid _ hmem
  · exact hsolid c (List.mem_of_head? hc)

/-- A reference is read as the identifier that it is. -/
theorem ofDirective_reference {id : String} (keyword : Keyword)
    (harguments : keyword.arguments = Pattern.sectionReference)
    (hid : Pattern.isDashedName id.toList = true) :
    ∃ m : Match, m.group 1 = id ∧ ofDirective keyword id = .ok (ofMatch keyword m) := by
  have htakes := Pattern.takes_sectionReference hid
  rw [← harguments] at htakes
  refine ⟨_, ?_, ofDirective_of_takes htakes⟩
  rw [harguments, Pattern.group_found (by decide)]
  rfl

theorem ofDirective_order {id : String} (hid : Pattern.isDashedName id.toList = true) :
    ofDirective .order id = if id.toList.head? = some '-' then
      .error (.badArguments "Order" id) else .ok (.order [id]) := by
  obtain ⟨c, text, htext⟩ : ∃ c text, id.toList = c :: text := by
    refine List.exists_cons_of_ne_nil fun hnil => ?_
    rw [hnil] at hid
    cases hid
  rw [htext, Pattern.isDashedName_cons, Bool.or_eq_true] at hid
  split
  · rename_i hdash
    rw [htext] at hdash
    refine ofDirective_of_refuses ?_
    rw [htext, Option.some.inj hdash]
    exact Pattern.refuses_sectionOrder
  · rename_i hdash
    have hname : Pattern.isOrderedName id.toList = true := by
      rw [htext, Pattern.isOrderedName_cons]
      refine ⟨hid.1.resolve_right fun hc => hdash ?_, hid.2⟩
      rw [htext, beq_iff_eq.mp hc]
      rfl
    have hgroup (s : Scan) :
        (Pattern.sectionOrder.found s ⟨id.toList.reverse, [], [(1, id)]⟩).group 1 = id := by
      rw [Pattern.group_found (by decide)]
      rfl
    have htakes : Pattern.Takes Keyword.order.arguments (.start id.toList) _ :=
      Pattern.takes_sectionOrder hname
    refine (ofDirective_of_takes htakes).trans ?_
    show Except.ok (DocLine.order (Pattern.orderItem.findTexts
      ((Pattern.sectionOrder.found _ _).group 1))) = _
    rw [hgroup, Pattern.findTexts_orderItem hname]

/-- An identifier that a section accepts is kept as it is by what belongs to the end of that
section.  As a parent it is kept exactly if it has no capitals, which turn into small letters.  As
an order it is kept exactly if it begins with no dash, and else it is refused. -/
theorem read_section_references {arguments id : String} {m : Match}
    (hsection : Pattern.sectionTitle.match? arguments = some m) (hid : m.group? 2 = some id) :
    DocLine.read ("\" @backmatter " ++ id) = .ok (.backmatter id)
      ∧ DocLine.read ("\" @parentsection " ++ id) = .ok (.parentSection (lower id))
      ∧ (lower id = id ↔ ∀ c ∈ id.toList, isCapital c = false)
      ∧ DocLine.read ("\" @order " ++ id) = if id.toList.head? = some '-' then
        .error (.badArguments "Order" id) else .ok (.order [id]) := by
  have hname := Pattern.isDashedName_of_sectionTitle hsection hid
  refine ⟨?_, ?_, ?_, ?_⟩
  · obtain ⟨found, hgroup, hread⟩ := ofDirective_reference .backmatter rfl hname
    refine ((read_reference "backmatter" rfl rfl rfl hname).trans hread).trans ?_
    exact congrArg (fun id => Except.ok (DocLine.backmatter id)) hgroup
  · obtain ⟨found, hgroup, hread⟩ := ofDirective_reference .parentSection rfl hname
    refine ((read_reference "parentsection" rfl rfl rfl hname).trans hread).trans ?_
    exact congrArg (fun id => Except.ok (DocLine.parentSection (lower id))) hgroup
  · refine lower_eq_self_iff fun c hc => ?_
    have hrange := Pattern.isDashedRest_range (Pattern.isDashedRest_of_isDashedName hname c hc)
    omega
  · exact (read_reference "order" rfl rfl rfl hname).trans (ofDirective_order hname)

/-- A section that is kept by its end only. -/
theorem read_section_references_dash :
    Pattern.sectionTitle.match? "Odds, -Odds"
        = some ⟨0, 11, "Odds, -Odds", [some "Odds", some "-Odds"]⟩
      ∧ DocLine.read ("\" @backmatter " ++ "-Odds") = .ok (.backmatter "-Odds")
      ∧ DocLine.read ("\" @parentsection " ++ "-Odds") = .ok (.parentSection "-odds")
      ∧ DocLine.read ("\" @order " ++ "-Odds") = .error (.badArguments "Order" "-Odds") := by
  have hsection : Pattern.sectionTitle.match? "Odds, -Odds"
      = some ⟨0, 11, "Odds, -Odds", [some "Odds", some "-Odds"]⟩ := by decide +kernel
  have hid : Match.group? ⟨0, 11, "Odds, -Odds", [some "Odds", some "-Odds"]⟩ 2
      = some "-Odds" := rfl
  have hlower : lower "-Odds" = "-odds" := by decide +kernel
  obtain ⟨hend, hparent, -, horder⟩ := read_section_references hsection hid
  exact ⟨hsection, hend, hlower ▸ hparent, horder.trans (if_pos (by decide))⟩

end DocLine

end PluginHelp
