/-
Inline words without an element.

Words like `@section` or `@function` make sense with an element in parentheses only.  But the pattern
asks for none, and it matches anywhere in a text, so a mail address or a sentence about the
directives themselves may hold such a word.  It is not left alone then.  Each kind of directive goes
on with nothing as its element, and nothing is shown as `None`, or is no text, or lacks a name.

So the rule is: a text with such a word in it comes to a link in its place, or to nothing at all.
-/
import PluginHelp.Proofs.Help.Inline

namespace PluginHelp.Help

open Pattern

variable {c : Context} {space : Value} {word front back : String}

/-- The words of directives that need an element. -/
def elementWords : List String :=
  ["section", "function", "command", "flag", "setting", "dict"]

theorem isWord_of_mem_elementWords (h : word ∈ elementWords) : IsWord word := by
  simp only [elementWords, List.mem_cons, List.not_mem_nil, or_false] at h
  rcases h with rfl | rfl | rfl | rfl | rfl | rfl
  all_goals exact ⟨_, _, rfl, by decide, List.all_eq_true.mp rfl⟩

/-! ### What a bare word stands for -/

/-- What a bare word stands for on a page: a link to nothing, or a cause. -/
def bareOutcome (page : Page) : (word : String) → Except Cause String
  | "section" => .ok ("|" ++ (page.name.shown ++ "-None") ++ "|")
  | "flag" => .ok ("|" ++ (page.name.shown ++ ":None") ++ "|")
  | "dict" => .error (.missing "dict")
  | "setting" => .error .wrongValue
  | _ => .error .notText

/-- No flag and no dictionary that a bare word may mean has nothing for its full name. -/
def NoneUnnamed (p : Plugin) (word : String) : Prop :=
  ∀ kind, (kind = .flag ∨ kind = .dictionary) → kind.inlineWord? = some word →
    ∀ x ∈ p.collections.under kind, Plugin.Unlike .nothing x

/-- Nothing is not the full name of a command or a setting, but it may be that of anything else. -/
theorem lookUpTag_nothing {p : Plugin} {kind : Kind} (hkind : kind = .flag ∨ kind = .dictionary)
    (hnone : ∀ x ∈ p.collections.under kind, Plugin.Unlike .nothing x) :
    p.lookUpTag kind.toValue .nothing
      = Entry.tagName { own := [("type", kind.toValue), ("name", .nothing)] } := by
  refine Plugin.lookUpTag_of_none ?_ hnone
  rcases hkind with rfl | rfl <;> rfl

theorem stretchValue_bare (hword : word ∈ elementWords) (hnone : NoneUnnamed c.plugin word) :
    stretchValue c space (.directive word none) = (bareOutcome c.page word).map Value.text := by
  have hslug (separator : String) :
      slug c.page .nothing separator = c.page.name.shown ++ (separator ++ "None") :=
    String.append_assoc
  simp only [elementWords, List.mem_cons, List.not_mem_nil, or_false] at hword
  rcases hword with rfl | rfl | rfl | rfl | rfl | rfl
  · exact congrArg (fun s => Except.ok (Value.text ("|" ++ s ++ "|"))) (hslug "-")
  · rfl
  · rfl
  · have hfound := lookUpTag_nothing (.inl rfl) (hnone .flag (.inl rfl) rfl)
    show ((c.plugin.lookUpTag Kind.flag.toValue .nothing >>= _) >>= _) = _
    rw [hfound]
    exact congrArg (fun s => Except.ok (Value.text ("|" ++ s ++ "|"))) (hslug ":")
  · rfl
  · have hfound := lookUpTag_nothing (.inr rfl) (hnone .dictionary (.inr rfl) rfl)
    show ((c.plugin.lookUpTag Kind.dictionary.toValue .nothing >>= _) >>= _) = _
    rw [hfound]
    rfl

/-- Whatever is collected, a bare word that stands for something stands for a link. -/
theorem link_of_bare (hword : word ∈ elementWords) {value : Value}
    (h : stretchValue c space (.directive word none) = .ok value) :
    ∃ target, value = .text ("|" ++ target ++ "|") := by
  simp only [elementWords, List.mem_cons, List.not_mem_nil, or_false] at hword
  rcases hword with rfl | rfl | rfl | rfl | rfl | rfl
  · exact ⟨_, (Except.ok.inj h).symm⟩
  · cases h
  · cases h
  · obtain ⟨_, hvalue, h⟩ := Except.bind_eq_ok_iff.mp h
    obtain ⟨tag, -, htag⟩ := Except.bind_eq_ok_iff.mp hvalue
    obtain rfl := Except.ok.inj htag
    exact ⟨_, (Except.ok.inj h).symm⟩
  · cases h
  · obtain ⟨_, hvalue, h⟩ := Except.bind_eq_ok_iff.mp h
    obtain ⟨tag, -, htag⟩ := Except.bind_eq_ok_iff.mp hvalue
    obtain rfl := Except.ok.inj htag
    exact ⟨_, (Except.ok.inj h).symm⟩

/-! ### Texts with a bare word -/

/-- A bare word that is not inside an element is looked up by itself. -/
theorem looked_bare (hword : word ∈ elementWords)
    (hfront : ¬InElement front.toList ("@" ++ word ++ back).toList) (hback : Bare back.toList) :
    looked c space (front ++ ("@" ++ word ++ back))
      = (looked c space front).append
        ((Passes.ofValue (stretchValue c space (.directive word none))).append
          (looked c space back)) := by
  have hmeets : Meets front.toList ("@" ++ word ++ back).toList := by
    refine ⟨?_, hfront⟩
    intro d hd
    obtain rfl : '@' = d := by simpa using hd
    exact ⟨rfl, by decide⟩
  have hends : Ends back.toList none := hback
  have hdirective : looked c space (directiveText word none ++ back) = _ :=
    looked_directive (isWord_of_mem_elementWords hword) hends
  rw [looked_append hmeets, ← hdirective]
  rfl

/--
**A word like `@section` is never left as it is written.**

Wherever such a word stands without an element, and not inside the element of another directive, what
comes of the text has a link in its place, if anything comes of it.  If the text before it comes to
something, that is a link to `None` for sections and flags, while functions, commands, settings and
dictionaries have a cause each.
-/
theorem expand_bare_word (hword : word ∈ elementWords)
    (hfront : ¬InElement front.toList ("@" ++ word ++ back).toList) (hback : Bare back.toList) :
    (∀ out, expand c space (front ++ ("@" ++ word ++ back)) = .ok out →
      ∃ a target b, expand c space front = .ok a ∧ expand c space back = .ok b
        ∧ out = a ++ (("|" ++ target ++ "|") ++ b))
    ∧ ∀ a, expand c space front = .ok a → NoneUnnamed c.plugin word →
      expand c space (front ++ ("@" ++ word ++ back)) = do
        let s ← bareOutcome c.page word
        let b ← expand c space back
        return a ++ (s ++ b) := by
  simp only [expand_eq, looked_bare hword hfront hback]
  refine ⟨fun out hout => ?_, fun a ha hnone => ?_⟩
  · obtain ⟨a, rest, ha, hrest, rfl⟩ := Passes.result_append_eq_ok_iff.mp hout
    obtain ⟨s, b, hs, hb, rfl⟩ := Passes.result_append_eq_ok_iff.mp hrest
    cases hvalue : stretchValue c space (.directive word none) with
    | error cause =>
        rw [hvalue] at hs
        cases hs
    | ok value =>
        obtain ⟨target, rfl⟩ := link_of_bare hword hvalue
        rw [hvalue] at hs
        obtain rfl := Except.ok.inj hs
        exact ⟨a, target, b, ha, hb, rfl⟩
  · rw [Passes.result_append_of_ok ha, stretchValue_bare hword hnone]
    cases hbare : bareOutcome c.page word with
    | error cause => rfl
    | ok s =>
        have hs : (Passes.ofValue (.ok (.text s))).result = .ok s := rfl
        show Except.map _ ((Passes.ofValue (.ok (.text s))).append _).result = _
        rw [Passes.result_append_of_ok hs]
        rcases (looked c space back).result with cause | b <;> rfl

theorem expand_bare_word_prose :
    let c : Context := { plugin := { name := .text "demo" }, page := { name := .text "demo" } }
    expand c .nothing ("Mail me" ++ ("@" ++ "section" ++ ".org (or not)."))
      = .ok "Mail me|demo-None|.org (or not)."
    ∧ expand c .nothing ("Mail me" ++ ("@" ++ "function" ++ ".org (or not).")) = .error .notText := by
  intro c
  have hfront (rest : List Char) : ¬InElement "Mail me".toList rest := by
    rintro ⟨before, word, opened, more, tail, -, hsigns, -⟩
    have hsign : '@' ∈ "Mail me".toList := by simp [hsigns]
    revert hsign
    decide
  have hback : Bare ".org (or not).".toList :=
    ⟨fun d hd => by obtain rfl := Option.some.inj hd; rfl,
      fun element tail _ htext => by cases (List.cons.inj htext).1⟩
  have hplain : expand c .nothing "Mail me" = .ok "Mail me" := rfl
  have hrest : expand c .nothing ".org (or not)." = .ok ".org (or not)." := rfl
  have hnone (word : String) : NoneUnnamed c.plugin word := fun _ _ _ => List.forall_mem_nil _
  have hbare (word : String) (hword : word ∈ elementWords) :
      expand c .nothing ("Mail me" ++ ("@" ++ word ++ ".org (or not).")) = do
        let s ← bareOutcome c.page word
        return "Mail me" ++ (s ++ ".org (or not).") := by
    rw [(expand_bare_word hword (hfront _) hback).2 _ hplain (hnone word), hrest]
    rfl
  exact ⟨hbare "section" (by decide), hbare "function" (by decide)⟩

end PluginHelp.Help
