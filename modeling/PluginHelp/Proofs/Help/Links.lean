/-
What a link stands for.

A link is an inline directive: a word for the kind of the element, and its name in parentheses.  A
text that is such a directive is one match of the pattern, and it stands for the tag of the one entry
of that name.  `target` says what that comes to for each kind.
-/
import PluginHelp.Help.Links
import PluginHelp.Proofs.Except
import PluginHelp.Proofs.Page.Lookup
import PluginHelp.Proofs.Pattern.Names

namespace PluginHelp

/-- The word of the inline directive that links to elements of a kind. -/
def Kind.inlineWord? : Kind → Option String
  | .function => some "function"
  | .command => some "command"
  | .setting => some "setting"
  | .flag => some "flag"
  | .dictionary => some "dict"
  | _ => none

/-! ### Inline directives -/

namespace Pattern

open Text

/-- A text that can stand between the parentheses of an inline directive. -/
structure IsElement (text : String) : Prop where
  filled : text ≠ ""
  solid : ∀ c ∈ text.toList, isBlank c = false ∧ c ≠ ')'

theorem isElement_of_all {text : String} (hfilled : text ≠ "")
    (hsolid : text.toList.all (fun c => !isBlank c && c != ')') = true) : IsElement text := by
  refine ⟨hfilled, fun c hc => ?_⟩
  have hchar := List.all_eq_true.mp hsolid c hc
  simpa using hchar

theorem IsElement.colon {text : String} (h : IsElement text) : IsElement (":" ++ text) where
  filled := by simp
  solid := by
    intro c hc
    rw [String.toList_append, List.mem_append] at hc
    rcases hc with hc | hc
    · rw [List.mem_singleton.mp hc]
      decide
    · exact h.solid c hc

/-- A text that can be the name of an inline directive. -/
def IsWord (text : String) : Prop :=
  ∃ first rest, text.toList = first :: rest ∧ isNameStart first = true
    ∧ ∀ c ∈ rest, isNameRest c = true

theorem IsWord.isName {word : String} (h : IsWord word) : isName word.toList = true := by
  obtain ⟨first, rest, hchars, hfirst, hrest⟩ := h
  rw [hchars]
  exact isName_cons.mpr ⟨hfirst, hrest⟩

/-- The name of a directive, up to where no name goes on. -/
theorem takes_word {word : String} (hword : IsWord word) {after : List Char}
    (hafter : ∀ c, after.head? = some c → isNameRest c = false) (read : List Char) :
    Takes (capture 1 name) ⟨read, word.toList ++ after, []⟩
      ⟨word.toList.reverse ++ read, after, [(1, word)]⟩ := by
  have htakes : Takes name ⟨read, word.toList ++ after, []⟩
      ⟨word.toList.reverse ++ read, after, []⟩ := takes_name hword.isName hafter read
  have hname := htakes.capture 1
  rw [String.ofList_toList] at hname
  exact hname

/-- The element of a directive, up to the closing parenthesis. -/
theorem takes_element {element : String} (helement : IsElement element) (read after : List Char)
    (captured : List (Nat × String)) :
    Takes (capture 2 (oneOrMore (one fun c => !isBlank c && c != ')')))
      ⟨read, element.toList ++ ')' :: after, captured⟩
      ⟨element.toList.reverse ++ read, ')' :: after, (2, element) :: captured⟩ := by
  have hne : element.toList ≠ [] := by
    intro hnil
    exact helement.filled (String.toList_inj.mp (hnil.trans rfl))
  have hchars : ∀ c ∈ element.toList, (!isBlank c && c != ')') = true := by
    intro c hc
    obtain ⟨hblank, hclosing⟩ := helement.solid c hc
    simp [hblank, hclosing]
  have hafter : ∀ c, (')' :: after).head? = some c → (!isBlank c && c != ')') = false := by
    rintro c ⟨⟩
    rfl
  have helements : Takes (oneOrMore (one fun c => !isBlank c && c != ')'))
      ⟨read, element.toList ++ ')' :: after, captured⟩
      ⟨element.toList.reverse ++ read, ')' :: after, captured⟩ :=
    takes_oneOrMore hne hchars hafter read
  have hcaptured := helements.capture 2
  rw [String.ofList_toList] at hcaptured
  exact hcaptured

/-- A directive with its element. -/
def inlineText (word element : String) : String :=
  "@" ++ word ++ "(" ++ element ++ ")"

/-- A directive with its element is one match, which captures both. -/
theorem takes_inlineDirective {word element : String} (hword : IsWord word)
    (helement : IsElement element) (read back : List Char) :
    Takes inlineDirective ⟨read, (inlineText word element).toList ++ back, []⟩
      ⟨(inlineText word element).toList.reverse ++ read, back, [(2, element), (1, word)]⟩ := by
  have htext : (inlineText word element).toList ++ back
      = '@' :: (word.toList ++ '(' :: (element.toList ++ ')' :: back)) := by
    simp [inlineText]
  have hreverse : (inlineText word element).toList.reverse ++ read
      = ')' :: (element.toList.reverse ++ '(' :: (word.toList.reverse ++ '@' :: read)) := by
    simp [inlineText]
  have hopening : ∀ c, ('(' :: (element.toList ++ ')' :: back)).head? = some c →
      isNameRest c = false := by
    rintro c ⟨⟩
    rfl
  rw [hreverse, htext]
  refine ((takes_char '@' _ _ _).seq (takes_word hword hopening _)).seq (Takes.alt ?_)
  exact ((takes_char '(' _ _ _).seq (takes_element helement _ _ _)).seq (takes_char ')' _ _ _)

theorem inlineDirective_refuses (read : List Char) (captured : List (Nat × String)) :
    Refuses inlineDirective ⟨read, [], captured⟩ :=
  Refuses.seq (Refuses.seq (refuses_one_of_rest fun c hc => by cases hc))

end Pattern

/-! ### Links -/

namespace Help

open Pattern

/-- What a directive stands for is what a text stands for that holds nothing else. -/
theorem expand_inlineText {c : Context} {space : Value} {word element out : String}
    (hword : IsWord word) (helement : IsElement element)
    (h : expandInline c word (.text element) space = .ok (.text out)) :
    expand c space (inlineText word element) = .ok out := by
  have htakes := takes_inlineDirective hword helement [] []
  rw [List.append_nil, List.append_nil] at htakes
  have hpieces := pieces_of_takes (by simp [inlineText]) htakes inlineDirective_refuses
  unfold expand
  rw [hpieces]
  generalize hfound : inlineDirective.found _ _ = m
  have hgroup : m.group 1 = word := by rw [← hfound]; rfl
  have hgroup? : m.group? 2 = some element := by rw [← hfound]; rfl
  have hhit : expandPiece c space (.hit m) = .ok (.text out) := by
    rw [expandPiece, hgroup, hgroup?]
    show (expandInline c word (.text element) space >>= _) = _
    rw [h]
    rfl
  have hvalues : [Piece.plain "", .hit m, .plain ""].mapM (expandPiece c space)
      = .ok [.text "", .text out, .text ""] :=
    Except.mapM_eq_ok_iff.mpr (.cons rfl (.cons hhit (.cons rfl .nil)))
  rw [hvalues]
  show Except.ok (String.join ["", out, ""]) = _
  simp

/-- The tag of an entry that is the first about its element. -/
def tagWord (kind : Kind) (name : String) : String :=
  match kind with
  | .function => name ++ "()"
  | .command => ":" ++ name
  | _ => name

/-- The word that both a link to an element and its tag come to: flags and dictionaries are told
apart from those of other pages. -/
def target (page : Page) (kind : Kind) (name : String) : String :=
  match kind with
  | .flag => slug page (.text name) ":"
  | .dictionary => slug page (.text name) "."
  | _ => tagWord kind name

/-- What the parser makes of names: no function begins with a number sign and no command with a
colon, and a setting has its scope. -/
structure IsLinkable (kind : Kind) (name : String) : Prop extends IsElement name where
  function : kind = .function → name.toList.head? ≠ some '#'
  command : kind = .command → name.toList.head? ≠ some ':'
  setting : kind = .setting → Pattern.settingScope.fits name = true

theorem linkedFunction_eq (space : Value) {name : String} (h : name.toList.head? ≠ some '#') :
    linkedFunction space (.text name) = .ok (.text name) := by
  unfold linkedFunction
  dsimp only
  split
  · rename_i rest hrest
    rw [hrest] at h
    exact absurd rfl h
  · rfl

theorem linkedName_command {name : String} (h : name.toList.head? ≠ some ':') (colons : List Char)
    (hcolons : ∀ c ∈ colons, (c == ':') = true) :
    Plugin.linkedName Kind.command.toValue (.text (String.ofList colons ++ name))
      = .ok (.text name) := by
  have hsame : (colons ++ name.toList).dropWhile (· == ':') = name.toList := by
    rw [List.dropWhile_append_of_pos hcolons]
    cases hname : name.toList with
    | nil => rfl
    | cons c rest =>
        rw [hname] at h
        have hc : (c == ':') = false := by simpa using h
        rw [List.dropWhile_cons, hc, if_neg (by decide)]
  unfold Plugin.linkedName
  rw [if_pos (by decide)]
  dsimp only
  rw [String.toList_append, String.toList_ofList, hsame, String.ofList_toList]

theorem linkedName_setting {name : String} (h : Pattern.settingScope.fits name = true) :
    Plugin.linkedName Kind.setting.toValue (.text name) = .ok (.text name) := by
  unfold Plugin.linkedName
  rw [if_neg (by decide), if_pos (by decide)]
  dsimp only
  rw [if_pos h]

/-- A name that can be linked to is what a link by that name means. -/
theorem linkedName_eq {kind : Kind} {word name : String} (hword : kind.inlineWord? = some word)
    (h : IsLinkable kind name) :
    Plugin.linkedName kind.toValue (.text name) = .ok (.text name) := by
  cases kind with
  | command => exact linkedName_command (h.command rfl) [] (by simp)
  | setting => exact linkedName_setting (h.setting rfl)
  | function => rfl
  | flag => rfl
  | dictionary => rfl
  | sect => cases hword
  | backmatter => cases hword
  | exception => cases hword
  | custom label => cases hword

/-- What a link stands for once its tag is known. -/
theorem expandInline_eq {c : Context} {space : Value} {kind : Kind} {word element name : String}
    (hword : kind.inlineWord? = some word)
    (helement : kind = .function → element.toList.head? ≠ some '#')
    (hfound : c.plugin.lookUpTag kind.toValue (.text element) = .ok (.text (tagWord kind name))) :
    expandInline c word (.text element) space
      = .ok (.text ("|" ++ target c.page kind name ++ "|")) := by
  cases kind with
  | function =>
      obtain rfl : "function" = word := Option.some.inj hword
      show (linkedFunction space (.text element) >>= _) = _
      rw [linkedFunction_eq space (helement rfl)]
      show (c.plugin.lookUpTag Kind.function.toValue (.text element) >>= _) = _
      rw [hfound]
      rfl
  | command =>
      obtain rfl : "command" = word := Option.some.inj hword
      show (c.plugin.lookUpTag Kind.command.toValue (.text element) >>= _) = _
      rw [hfound]
      rfl
  | setting =>
      obtain rfl : "setting" = word := Option.some.inj hword
      show (c.plugin.lookUpTag Kind.setting.toValue (.text element) >>= _) = _
      rw [hfound]
      rfl
  | flag =>
      obtain rfl : "flag" = word := Option.some.inj hword
      show (c.plugin.lookUpTag Kind.flag.toValue (.text element) >>= _) = _
      rw [hfound]
      rfl
  | dictionary =>
      obtain rfl : "dict" = word := Option.some.inj hword
      show (c.plugin.lookUpTag Kind.dictionary.toValue (.text element) >>= _) = _
      rw [hfound]
      rfl
  | sect => cases hword
  | backmatter => cases hword
  | exception => cases hword
  | custom label => cases hword

theorem isWord_inlineWord {kind : Kind} {word : String} (h : kind.inlineWord? = some word) :
    IsWord word := by
  have hwords : word ∈ ["function", "command", "setting", "flag", "dict"] := by
    cases kind <;> simp_all [Kind.inlineWord?]
  simp only [List.mem_cons, List.not_mem_nil, or_false] at hwords
  rcases hwords with rfl | rfl | rfl | rfl | rfl
  all_goals exact ⟨_, _, rfl, by decide, List.all_eq_true.mp rfl⟩

/-- A link to the only entry of a name stands for its tag. -/
theorem expand_of_one {c : Context} {space : Value} {kind : Kind} {word element name : String}
    {e : Entry} {front back : List Entry} (hword : kind.inlineWord? = some word)
    (helement : IsElement element)
    (hplain : kind = .function → element.toList.head? ≠ some '#')
    (hlinked : Plugin.linkedName kind.toValue (.text element) = .ok (.text name))
    (hcollected : c.plugin.collections.under kind = front ++ e :: back)
    (hname : e.fullName = .ok (.text name))
    (hothers : ∀ x ∈ front ++ back, Plugin.Unlike (.text name) x)
    (htag : e.tagName = .ok (.text (tagWord kind name))) :
    expand c space (inlineText word element) = .ok ("|" ++ target c.page kind name ++ "|") := by
  have hlookUp : c.plugin.lookUpTag kind.toValue (.text element) = .ok (.text (tagWord kind name)) :=
    (Plugin.lookUpTag_of_first hlinked hcollected
      (fun x hx => hothers x (List.mem_append_left back hx)) hname (Value.beq_text_iff.mpr rfl)
      fun x hx => hothers x (List.mem_append_right front hx)).trans htag
  exact expand_inlineText (isWord_inlineWord hword) helement
    (expandInline_eq hword hplain hlookUp)

end Help

end PluginHelp
