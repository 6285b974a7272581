/-
Links and tags agree.

A link to an element and the tag where the element is described are worked out in different places:
the link from the name that is written, through what the plugin has collected, and the tag when the
entry itself is written.  Both come to `target`.  So a link to the only entry of a name turns into
that word between bars, and writing the entry begins with a line that ends with the same word between
stars.

There are two exceptions to the latter.  A command that is marked as an exception is collected as a
command all the same, but it has no usage for the tag to stand behind, and so it cannot be written.
And a tag has to fit on the sheet.
-/
import PluginHelp.Help.Write
import PluginHelp.Proofs.Help.Links
import PluginHelp.Proofs.Help.Width
import PluginHelp.Proofs.Page.Shelves

namespace PluginHelp.Help

open Act Pattern

/-- The only entry of a name has the tag of its kind. -/
theorem tagName_eq {e : Entry} {kind : Kind} {word name : String}
    (hword : kind.inlineWord? = some word) (hkind : e.kindValue = kind.toValue)
    (hplain : e.isOf .function = true → e.hasOwn "exception" = false)
    (hfirst : e.isSecondary = false) (hname : e.fullName = .ok (.text name)) :
    e.tagName = .ok (.text (tagWord kind name)) := by
  have hof (other : Kind) : e.isOf other = (kind.label == other.label) := by
    rw [Bool.eq_iff_iff, Entry.isOf_iff, hkind, beq_iff_eq]
    exact ⟨fun h => Value.text.inj h, fun h => congrArg Value.text h⟩
  unfold Entry.tagName
  rw [hfirst, if_neg (by decide), hname]
  cases kind with
  | function =>
      rw [hplain (hof .function), hof .function]
      rfl
  | command =>
      rw [hof .function, hof .command]
      rfl
  | setting | flag | dictionary =>
      rw [hof .function, hof .command]
      rfl
  | sect | backmatter | exception | custom label => cases hword

/-- Functions and commands begin with their usage, which stands before the tag. -/
theorem writeLarge_eq {c : Context} {e : Entry} {usage word : String}
    (husage : e.own? "usage" = some (.text usage)) (htag : e.tagName = .ok (.text word)) :
    writeLarge c e = (writeText { text := usage, right := "*" ++ word ++ "*", leader := some "" }
      >>= fun _ => writePassages c 1 e) := by
  have hhas : e.hasOwn "usage" = true := by
    rw [Entry.hasOwn_eq, husage]
    rfl
  unfold writeLarge
  rw [assume_bind_of_true hhas, htag, ofExcept_ok_bind, Entry.ownD, husage]
  rfl

theorem writeLarge_of_none {c : Context} {e : Entry} (husage : e.own? "usage" = none) :
    writeLarge c e = Act.fail (.assumption "Functions and commands have a usage.") := by
  have hhas : e.hasOwn "usage" = false := by
    rw [Entry.hasOwn_eq, husage]
    rfl
  exact assume_bind_of_false hhas _ _

/-- Writing an entry begins with text that has the word in stars as its right part. -/
structure BeginsWith (c : Context) (e : Entry) (word : String) (line : TextLine) (indent : Int) :
    Prop where
  eq : writeChunk c e = (writeText line >>= fun _ => writePassages c indent e)
  right : line.right = "*" ++ word ++ "*"
  filler : line.filler = " "
  room : line.filling.LeavesRoom

/-- Writing an entry begins with a line that ends with the word in stars, and its passages follow. -/
def Announces (c : Context) (e : Entry) (word : String) : Prop :=
  ∃ line indent text, writeChunk c e = (writeText line >>= fun _ => writePassages c indent e)
    ∧ ∀ s : Sheet, s.isThere = true → writeText line s
      = ⟨{ s with written := s.written ++ text ++ "*" ++ word ++ "*\n" }, [], .ok ()⟩

theorem BeginsWith.announces {c : Context} {e : Entry} {word : String} {line : TextLine}
    {indent : Int} (h : BeginsWith c e word line indent) (hfits : word.length + 2 ≤ sheetWidth) :
    Announces c e word := by
  have hright : line.right.length ≤ sheetWidth := by
    rw [h.right, String.length_append, String.length_append]
    show 1 + word.length + 1 ≤ sheetWidth
    omega
  obtain ⟨text, htext⟩ := writeText_eq h.room (by rw [h.right]; simp) (by rw [h.filler]; rfl) hright
  refine ⟨line, indent, text, h.eq, fun s hthere => ?_⟩
  rw [htext s hthere, h.right]
  simp [String.append_assoc]

theorem BeginsWith.refused {c : Context} {e : Entry} {word : String} {line : TextLine}
    {indent : Int} (h : BeginsWith c e word line indent) (hwide : sheetWidth < word.length + 2) :
    writeChunk c e = Act.fail (.assumption "The right part fits on the sheet.") := by
  have hright : sheetWidth < line.right.length := by
    rw [h.right, String.length_append, String.length_append]
    show sheetWidth < 1 + word.length + 1
    omega
  rw [h.eq, writeText_of_wide hright]
  rfl

section Chunks

variable {c : Context} {e : Entry} {kind : Kind} {word name : String}

theorem hasOwn_type (hkind : e.kindValue = kind.toValue) : e.hasOwn "type" = true := by
  cases hown : e.own? "type" with
  | none =>
      rw [Entry.kindValue, Entry.ownD, hown] at hkind
      cases hkind
  | some value =>
      rw [Entry.hasOwn_eq, hown]
      rfl

theorem writeChunk_command (hkind : e.kindValue = Kind.command.toValue) :
    writeChunk c e = writeLarge c e := by
  have hkind? : e.kind? = some .command := by
    rw [Entry.kind?, hkind]
    rfl
  unfold writeChunk
  rw [assume_bind_of_true (hasOwn_type hkind), hkind?]

theorem writeChunk_function (hkind : e.kindValue = Kind.function.toValue)
    (hplain : e.hasOwn "exception" = false) : writeChunk c e = writeLarge c e := by
  have hkind? : e.kind? = some .function := by
    rw [Entry.kind?, hkind]
    rfl
  unfold writeChunk
  rw [assume_bind_of_true (hasOwn_type hkind), hkind?]
  dsimp only
  rw [hplain, if_neg (by decide)]

theorem begins_of_large (hchunk : writeChunk c e = writeLarge c e) {usage : String}
    (husage : e.own? "usage" = some (.text usage)) (htag : e.tagName = .ok (.text word)) :
    ∃ line indent, BeginsWith c e word line indent :=
  ⟨_, _, hchunk.trans (writeLarge_eq husage htag), rfl, rfl, TextLine.leavesRoom rfl rfl⟩

theorem begins_of_small (hchunk : writeChunk c e = writeSmall c (.text word) e) :
    ∃ line indent, BeginsWith c e word line indent :=
  ⟨_, _, hchunk, rfl, rfl, TextLine.leavesRoom rfl rfl⟩

/-- An entry of a kind that can be linked to begins with its tag, unless it is a command that is
marked as an exception. -/
theorem writeChunk_begins (hword : kind.inlineWord? = some word) (hsettled : e.Settled)
    (hkind : e.kindValue = kind.toValue) (htag : e.tagName = .ok (.text (tagWord kind name)))
    (hname : e.fullName = .ok (.text name))
    (hplain : kind = .function ∨ kind = .command → e.hasOwn "exception" = false) :
    ∃ line indent, BeginsWith c e (target c.page kind name) line indent := by
  have htype := hasOwn_type hkind
  have hof : e.isOf kind = true := Entry.isOf_iff.mpr hkind
  have hkind? : e.kind? = some kind := by
    rw [Entry.kind?, hkind]
    cases kind <;> first | rfl | cases hword
  cases kind with
  | function =>
      have hnone := hplain (Or.inl rfl)
      obtain ⟨usage, husage⟩ := hsettled.usage (by rw [Entry.needsUsage, hof, hnone]; rfl)
      exact begins_of_large (writeChunk_function hkind hnone) husage htag
  | command =>
      have hnone := hplain (Or.inr rfl)
      obtain ⟨usage, husage⟩ :=
        hsettled.usage (by rw [Entry.needsUsage, hof, hnone, Bool.or_true]; rfl)
      exact begins_of_large (writeChunk_command hkind) husage htag
  | setting | flag | dictionary =>
      refine begins_of_small ?_
      unfold writeChunk
      rw [assume_bind_of_true htype, hkind?]
      dsimp only
      rw [hname, ofExcept_ok_bind]
      rfl
  | sect | backmatter | exception | custom label => cases hword

/-- A command that is marked as an exception cannot be written. -/
theorem writeChunk_exception (hsettled : e.Settled) (hkind : e.kindValue = Kind.command.toValue)
    (hexception : e.hasOwn "exception" = true) :
    writeChunk c e = Act.fail (.assumption "Functions and commands have a usage.") := by
  have hneeds : e.needsUsage = false := by
    rw [Entry.needsUsage, hexception]
    exact Bool.and_false _
  rw [writeChunk_command hkind, writeLarge_of_none (hsettled.none hneeds)]

end Chunks

/-- What an entry needs to be written with its tag: that it is no command that is marked as an
exception, and that the tag fits on the sheet. -/
structure HasTag (e : Entry) (word : String) : Prop where
  plain : e.isOf .command = true → e.hasOwn "exception" = false
  fits : word.length + 2 ≤ sheetWidth

/--
**A link leads to the tag of the entry that it means.**

Whatever pages and entries a book was made from, a link to the only entry of a name turns into the
word that the entry is tagged with when it is written on the same page.  An entry that cannot have its
tag is refused before anything of it is written.
-/
theorem link_leads_to_tag {b : Book} (hb : b.Reachable) (page : Page) (space : Value) {kind : Kind}
    {word name : String} (hword : kind.inlineWord? = some word) {front back : List Entry} {e : Entry}
    (hcollected : b.plugin.collections.entries kind.toValue = .ok (front ++ e :: back))
    (hfirst : e.isSecondary = false) (hname : e.fullName = .ok (.text name))
    (hothers : ∀ x ∈ front ++ back, ∃ held, x.fullName = .ok held ∧ held ≠ .text name)
    (hlinkable : IsLinkable kind name) :
    let c : Context := ⟨b.plugin, page⟩
    let t := target page kind name
    expand c space (inlineText word name) = .ok ("|" ++ t ++ "|")
    ∧ (kind = .command → expand c space (inlineText word (":" ++ name)) = .ok ("|" ++ t ++ "|"))
    ∧ (HasTag e t → Announces c e t)
    ∧ (¬HasTag e t → ∃ what, writeChunk c e = Act.fail (.assumption what)) := by
  have hunder : b.plugin.collections.under kind = front ++ e :: back := Except.ok.inj hcollected
  obtain ⟨⟨library, hshelf⟩, hsettled⟩ := hb.orderly kind e (by rw [hunder]; simp)
  have hlabel : kind.label ≠ Kind.exception.label := by
    cases kind <;> first | decide | cases hword
  obtain ⟨hkind, hfunction⟩ := Plugin.kindValue_of_shelf hshelf hlabel
  have htag := tagName_eq hword hkind hfunction hfirst hname
  have hunlike : ∀ x ∈ front ++ back, Plugin.Unlike (.text name) x :=
    fun x hx => Plugin.unlike_text_iff.mpr (hothers x hx)
  have hbegins (hplain : e.isOf .command = true → e.hasOwn "exception" = false) :
      ∃ line indent, BeginsWith ⟨b.plugin, page⟩ e (target page kind name) line indent := by
    refine writeChunk_begins hword hsettled hkind htag hname ?_
    rintro (rfl | rfl)
    · exact hfunction (Entry.isOf_iff.mpr hkind)
    · exact hplain (Entry.isOf_iff.mpr hkind)
  refine ⟨?_, ?_, ?_, ?_⟩
  · exact expand_of_one hword hlinkable.toIsElement hlinkable.function
      (linkedName_eq hword hlinkable) hunder hname hunlike htag
  · rintro rfl
    have hcolon : IsElement (":" ++ name) := hlinkable.toIsElement.colon
    exact expand_of_one hword hcolon (fun h => by cases h)
      (linkedName_command (hlinkable.command rfl) [':'] (by simp)) hunder hname hunlike htag
  · intro htagged
    obtain ⟨line, indent, hline⟩ := hbegins htagged.plain
    exact hline.announces htagged.fits
  · intro huntagged
    by_cases hplain : e.isOf .command = true → e.hasOwn "exception" = false
    · obtain ⟨line, indent, hline⟩ := hbegins hplain
      have hwide : ¬ (target page kind name).length + 2 ≤ sheetWidth :=
        fun hfits => huntagged ⟨hplain, hfits⟩
      exact ⟨_, hline.refused (Nat.lt_of_not_le hwide)⟩
    · obtain ⟨hcommand, hexception⟩ := Classical.not_imp.mp hplain
      exact ⟨_, writeChunk_exception hsettled (Entry.isOf_iff.mp hcommand)
        (Bool.not_eq_false _ ▸ hexception)⟩

/-- A command and one that is marked as an exception: there are links to both, but only the first one
can be written. -/
theorem link_leads_to_command :
    let lines := ["\"\" Starts.\n", "command Start call demo#Start()\n",
      "\"\" @exception\n", "command Fail call demo#Fail()\n"]
    let empty : Book := (Book.addPage (.text "demo") { plugin := { name := .text "demo" } }).state
    let book := (Book.mergeAll 0 .nothing (Source.entries none lines).state empty).state
    let c : Context := ⟨book.plugin, { name := .text "demo" }⟩
    ∃ start fail, book.plugin.collections.entries Kind.command.toValue = .ok [start, fail]
      ∧ expand c .nothing "@command(Start)" = .ok "|:Start|"
      ∧ expand c .nothing "@command(:Start)" = .ok "|:Start|"
      ∧ Announces c start ":Start"
      ∧ expand c .nothing "@command(Fail)" = .ok "|:Fail|"
      ∧ ∃ what, writeChunk c fail = Act.fail (.assumption what) := by
  intro lines empty book c
  have hbook : book.Reachable :=
    ((Book.Reachable.start _ rfl).addPage _).mergeFile 0 .nothing none lines
  obtain ⟨hlength, hfirsts, hnames, hkinds, hexceptions⟩ :
      (book.plugin.collections.under .command).length = 2
      ∧ (book.plugin.collections.under .command).map (·.isSecondary) = [false, false]
      ∧ (book.plugin.collections.under .command).map (·.fullName)
        = [.ok (.text "Start"), .ok (.text "Fail")]
      ∧ (book.plugin.collections.under .command).map (·.isOf .command) = [true, true]
      ∧ (book.plugin.collections.under .command).map (·.hasOwn "exception") = [false, true] := by
    decide +kernel
  have hcollected := Collections.entries_eq book.plugin.collections .command
  generalize book.plugin.collections.under .command = commands at *
  obtain ⟨start, fail, rfl⟩ := List.length_eq_two.mp hlength
  simp only [List.map_cons, List.map_nil, List.cons.injEq, and_true]
    at hfirsts hnames hkinds hexceptions
  have hword : Kind.command.inlineWord? = some "command" := rfl
  have hfront : book.plugin.collections.entries Kind.command.toValue = .ok ([] ++ start :: [fail]) :=
    hcollected
  have hback : book.plugin.collections.entries Kind.command.toValue = .ok ([start] ++ fail :: []) :=
    hcollected
  have hstart := link_leads_to_tag hbook { name := .text "demo" } .nothing hword hfront hfirsts.1
    hnames.1 (by simp [hnames.2]) ⟨isElement_of_all (by decide) rfl, by simp, by decide, by simp⟩
  have hfail := link_leads_to_tag hbook { name := .text "demo" } .nothing hword hback hfirsts.2
    hnames.2 (by simp [hnames.1]) ⟨isElement_of_all (by decide) rfl, by simp, by decide, by simp⟩
  refine ⟨start, fail, hcollected, hstart.1, hstart.2.1 rfl, ?_, hfail.1, ?_⟩
  · exact hstart.2.2.1 ⟨fun _ => hexceptions.1, by decide⟩
  · refine hfail.2.2.2 fun htag => ?_
    rw [htag.plain hkinds.2] at hexceptions
    cases hexceptions.2

end PluginHelp.Help
