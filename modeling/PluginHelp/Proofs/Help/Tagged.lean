/-
Which entries are written with a tag.

A tag says where an element is described, and of several entries about one element only the first is
meant to have it.  There are two ways to write an entry.  A function or a command begins with its
usage, and the tag that stands behind it is missing if the entry is secondary.  All other entries
begin with nothing but their tag: settings, flags, dictionaries, and the functions that stand for an
exception.  That way takes the full name of the entry and does not ask whether it is secondary.  So a
secondary entry has no tag if it begins with its usage, and has one like the first if it does not.

How many tags a doc comment gives follows from that.  Its first entry is not secondary and all others
are, so there is one tag for the first, and one more for every later entry without a usage.
-/
import PluginHelp.Proofs.Help.Presence
import PluginHelp.Proofs.Source.Routing

namespace PluginHelp

open Act

namespace Entry

/-- Whether an entry begins with its usage when it is written. -/
def isLarge (e : Entry) : Bool :=
  e.isOf .command || e.isOf .function && !e.hasOwn "exception"

/-- Whether an entry is written with a tag. -/
def isTagged (e : Entry) : Bool :=
  !e.isSecondary || !e.isLarge

theorem isLarge_placed (space : Value) (e : Entry) : (e.placed space).isLarge = e.isLarge := by
  rw [isLarge, isLarge, isOf_placed space e (by decide), isOf_placed space e (by decide),
    Page.hasOwn_placed_of_ne space e (by decide) (by decide)]

end Entry

/-! ### The two ways to write an entry -/

namespace Help

open Entry

variable {c : Context} {e : Entry} {kind : Kind} {full : Value}

/-- The kinds of entries that are documented.  An exception is a function that is marked as one. -/
def writtenKinds : List Kind :=
  [.function, .command, .setting, .flag, .dictionary]

/-- The word that an entry with a full name is tagged with on a page. -/
def tagOn (page : Page) (e : Entry) (full : Value) : Value :=
  if e.isOf .flag then .text (slug page full ":")
  else if e.isOf .dictionary then .text (slug page full ".")
  else if e.isOf .command then .text (":" ++ full.shown)
  else if e.isLarge then .text (full.shown ++ "()")
  else full

/-- Writing an entry begins with its usage and nothing else, and its passages follow. -/
def BeginsWithUsage (c : Context) (e : Entry) : Prop :=
  ∃ usage, e.own? "usage" = some (.text usage)
    ∧ writeChunk c e = (writeText { text := usage, leader := some "" } >>= fun _ =>
      writePassages c 1 e)

theorem tag_of_ne {word : Value} (hword : word ≠ .nothing) : tag word = "*" ++ word.shown ++ "*" := by
  cases word with
  | nothing => exact absurd rfl hword
  | _ => rfl

/-- The name of an exception is given with it. -/
theorem fullName_exception (hfunction : e.isOf .function = true)
    (hexception : e.hasOwn "exception" = true) (hname : e.fullName = .ok full) :
    ∃ name, full = .text name := by
  obtain ⟨exception, hown⟩ : ∃ exception, e.own? "exception" = some exception :=
    Option.isSome_iff_exists.mp ((hasOwn_eq e "exception").symm.trans hexception)
  unfold fullName at hname
  rw [hfunction, if_pos rfl] at hname
  cases hdict : e.own? "dict" with
  | some dictionary =>
      rw [hdict] at hname
      obtain ⟨name, -, hfull⟩ := Except.bind_eq_ok_iff.mp hname
      exact ⟨_, (Except.ok.inj hfull).symm⟩
  | none =>
      rw [hdict, hown] at hname
      dsimp only at hname
      split at hname <;>
        · obtain ⟨name, -, hfull⟩ := Except.bind_eq_ok_iff.mp hname
          exact ⟨_, (Except.ok.inj hfull).symm⟩

theorem isOf_iff_of_kind (hkind : e.kindValue = kind.toValue) (other : Kind) :
    e.isOf other = (kind.label == other.label) := by
  rw [Bool.eq_iff_iff, isOf_iff, hkind, beq_iff_eq]
  exact ⟨fun h => Value.text.inj h, fun h => congrArg Value.text h⟩

theorem writeChunk_large (hlarge : e.isLarge = true) : writeChunk c e = writeLarge c e := by
  rw [isLarge, Bool.or_eq_true, Bool.and_eq_true, Bool.not_eq_true'] at hlarge
  rcases hlarge with hcommand | ⟨hfunction, hplain⟩
  · exact writeChunk_command (isOf_iff.mp hcommand)
  · exact writeChunk_function (isOf_iff.mp hfunction) hplain

/-- All other documented entries begin with a tag that is made of their full name. -/
theorem writeChunk_small (hkind : e.kindValue = kind.toValue) (hwritten : kind ∈ writtenKinds)
    (hsmall : e.isLarge = false) :
    writeChunk c e = (Act.ofExcept e.fullName >>= fun full =>
      writeSmall c (tagOn c.page e full) e) := by
  have hof := isOf_iff_of_kind hkind
  have hkind? : e.kind? = some kind := by
    rw [kind?, hkind]
    cases kind <;> first | rfl | simp [writtenKinds] at hwritten
  unfold writeChunk
  rw [assume_bind_of_true (hasOwn_type hkind), hkind?]
  rw [isLarge, hof, hof] at hsmall
  unfold tagOn
  rw [isLarge, hof, hof, hof, hof, hsmall]
  cases kind with
  | function =>
      have hexception : e.hasOwn "exception" = true := by simpa [Kind.label] using hsmall
      dsimp only
      rw [hexception]
      rfl
  | command => simp at hsmall
  | setting | flag | dictionary => rfl
  | sect | backmatter | exception | custom label => simp [writtenKinds] at hwritten

/-- Only the name of a setting could leave a documented entry without a word to tag it with. -/
theorem tagOn_ne_nothing (page : Page) (hkind : e.kindValue = kind.toValue)
    (hwritten : kind ∈ writtenKinds) (hname : e.fullName = .ok full)
    (hgiven : kind = .setting → full ≠ .nothing) : tagOn page e full ≠ .nothing := by
  have hof := isOf_iff_of_kind hkind
  unfold tagOn
  rw [isLarge, hof, hof, hof, hof]
  cases kind with
  | function =>
      cases hexception : e.hasOwn "exception" with
      | false => exact Value.noConfusion
      | true =>
          obtain ⟨name, rfl⟩ := fullName_exception (hof .function) hexception hname
          exact Value.noConfusion
  | command | flag | dictionary => exact Value.noConfusion
  | setting => exact hgiven rfl
  | sect | backmatter | exception | custom label => simp [writtenKinds] at hwritten

/-- What stands behind the usage is the tag. -/
theorem writeLarge_of_usage {usage : String} (husage : e.own? "usage" = some (.text usage)) :
    writeLarge c e = (Act.ofExcept e.tagName >>= fun word =>
      writeText { text := usage, right := tag word, leader := some "" } >>= fun _ =>
        writePassages c 1 e) := by
  have hhas : e.hasOwn "usage" = true := by
    rw [hasOwn_eq, husage]
    rfl
  unfold writeLarge
  rw [assume_bind_of_true hhas, ownD, husage]
  rfl

/-- The tag of a large entry that is not secondary is made of its full name. -/
theorem tagName_of_large (hlarge : e.isLarge = true) (hfirst : e.isSecondary = false)
    (page : Page) : e.tagName = e.fullName.map (tagOn page e) := by
  have hof {kind : Kind} (hkind : e.isOf kind = true) := isOf_iff_of_kind (isOf_iff.mp hkind)
  have htag : e.isOf .flag = false ∧ e.isOf .dictionary = false := by
    rw [isLarge, Bool.or_eq_true, Bool.and_eq_true] at hlarge
    rcases hlarge with hcommand | ⟨hfunction, -⟩
    · rw [hof hcommand, hof hcommand]
      decide
    · rw [hof hfunction, hof hfunction]
      decide
  unfold tagName tagOn
  rw [hfirst, htag.1, htag.2]
  cases hcommand : e.isOf .command with
  | true =>
      rw [hof hcommand]
      cases e.fullName <;> rfl
  | false =>
      rw [isLarge, hcommand, Bool.false_or] at hlarge
      rw [isLarge, hcommand, Bool.false_or, hlarge]
      cases e.fullName <;> rfl

/-- Every large entry has its usage, but for commands that are marked as exceptions. -/
theorem usage_of_large (hsettled : e.Settled) (husable : ¬IsUnusable e)
    (hlarge : e.isLarge = true) : ∃ usage, e.own? "usage" = some (.text usage) := by
  refine hsettled.usage ?_
  rw [isLarge, Bool.or_eq_true, Bool.and_eq_true] at hlarge
  rcases hlarge with hcommand | ⟨hfunction, hplain⟩
  · have hplain : e.hasOwn "exception" = false := by
      simpa using fun hexception => husable ⟨hcommand, hexception⟩
    rw [needsUsage, hcommand, hplain, Bool.or_true]
    rfl
  · rw [needsUsage, hfunction, hplain]
    rfl

/-- A secondary entry that begins with its usage has no tag behind it. -/
theorem writeChunk_of_untagged (hsettled : e.Settled) (husable : ¬IsUnusable e)
    (huntagged : e.isTagged = false) : BeginsWithUsage c e := by
  obtain ⟨hsecondary, hlarge⟩ : e.isSecondary = true ∧ e.isLarge = true := by
    simpa [isTagged] using huntagged
  obtain ⟨usage, husage⟩ := usage_of_large hsettled husable hlarge
  have htag : e.tagName = .ok .nothing := by
    rw [tagName, hsecondary]
    rfl
  refine ⟨usage, husage, ?_⟩
  rw [writeChunk_large hlarge, writeLarge_of_usage husage, htag, ofExcept_ok_bind]
  rfl

/-- All other entries begin with a tag that is made of their full name. -/
theorem writeChunk_of_tagged (hsettled : e.Settled) (hkind : e.kindValue = kind.toValue)
    (hwritten : kind ∈ writtenKinds) (husable : ¬IsUnusable e) (htagged : e.isTagged = true)
    (hname : e.fullName = .ok full) (hgiven : kind = .setting → full ≠ .nothing) :
    ∃ line indent, BeginsWith c e (tagOn c.page e full).shown line indent := by
  have hword := tag_of_ne (tagOn_ne_nothing c.page hkind hwritten hname hgiven)
  cases hlarge : e.isLarge with
  | true =>
      have hfirst : e.isSecondary = false := by simpa [isTagged, hlarge] using htagged
      obtain ⟨usage, husage⟩ := usage_of_large hsettled husable hlarge
      refine ⟨{ text := usage, right := tag (tagOn c.page e full), leader := some "" }, 1, ?_, hword,
        rfl, TextLine.leavesRoom rfl rfl⟩
      rw [writeChunk_large hlarge, writeLarge_of_usage husage,
        tagName_of_large hlarge hfirst c.page, hname]
      rfl
  | false =>
      refine ⟨{ right := tag (tagOn c.page e full) }, 0, ?_, hword, rfl, TextLine.leavesRoom rfl rfl⟩
      rw [writeChunk_small hkind hwritten hlarge, hname]
      rfl

/-- They need that name. -/
theorem writeChunk_unnamed (hsettled : e.Settled) (hkind : e.kindValue = kind.toValue)
    (hwritten : kind ∈ writtenKinds) (husable : ¬IsUnusable e) (htagged : e.isTagged = true)
    {cause : Cause} (hname : e.fullName = .error cause) : writeChunk c e = Act.fail cause := by
  cases hlarge : e.isLarge with
  | true =>
      have hfirst : e.isSecondary = false := by simpa [isTagged, hlarge] using htagged
      obtain ⟨usage, husage⟩ := usage_of_large hsettled husable hlarge
      rw [writeChunk_large hlarge, writeLarge_of_usage husage,
        tagName_of_large hlarge hfirst c.page, hname]
      rfl
  | false =>
      rw [writeChunk_small hkind hwritten hlarge, hname]
      rfl

end Help

/-! ### The entries of a comment -/

/-- A step that leaves it alone whether an entry is secondary. -/
abbrev KeepsRank {α : Type} (act : Act Entry α) : Prop :=
  Confined Entry.isSecondary (fun _ => True) act

namespace Entry

theorem Framed.rank {α : Type} {act : Act Entry α} (h : Framed act) : KeepsRank act :=
  fun _ e he => ⟨(isSecondary_eq_of_frame (h.view_eq e)).trans he, fun _ _ => trivial⟩

theorem usageOf_rank (header : Header) : KeepsRank (usageOf header) := by
  intro shown e he
  have hview := congrArg isSecondary ((usageOf_touchesHeader header).view_eq e)
  exact ⟨hview.trans he, fun _ _ => trivial⟩

theorem close_rank : KeepsRank close := by
  have husage (header : Header) : KeepsRank (do
      let usage ← usageOf header
      Act.modify (·.putOwn "usage" (.text usage))) :=
    (usageOf_rank header).bind fun _ => Confined.modify fun _ => rfl
  have hsettle : KeepsRank settleUsage := by
    unfold settleUsage
    refine Confined.get.bind fun e => Confined.ite (fun _ => ?_) fun _ => Confined.pure ()
    dsimp only
    refine Confined.ite (fun _ => ?_) fun _ => husage _
    exact Confined.bind (Confined.modify fun _ => rfl) fun _ => husage _
  have hcheck : KeepsRank checkPrivate := by
    unfold checkPrivate
    refine Confined.get.bind fun e => Confined.ite (fun _ => ?_) fun _ => Confined.pure _
    exact Confined.bind (Confined.fail trivial) fun _ => Confined.pure _
  unfold close
  refine Confined.get.bind fun e => Confined.ite (fun _ => Confined.pure _) fun _ => ?_
  refine Confined.bind (Confined.modify fun _ => rfl) fun _ => Confined.get.bind fun e => ?_
  dsimp only
  refine Confined.ite (fun _ => ?_) fun _ => hsettle.bind fun _ => hcheck
  exact (Framed.rank (setKind_framed _)).bind fun _ => hsettle.bind fun _ => hcheck

end Entry

namespace DocComment

open Entry

theorem tell_rank (line : DocLine) : KeepsRank line.tell := by
  have hupdate : KeepsRank line.update := Framed.rank (DocLine.update_framed line)
  cases line with
  | all => exact Framed.rank (setKind_framed _)
  | header given =>
      have hset : KeepsRank (setHeader given) := by
        unfold setHeader
        refine Confined.get.bind fun e => Confined.ite (fun _ => Confined.fail trivial) fun _ => ?_
        refine Confined.bind (Confined.modify fun _ => rfl) fun _ => ?_
        exact Framed.rank closePassage_tells.framed
      exact hset.bind fun _ => hupdate
  | _ => exact hupdate

/-- The entry at a place is secondary unless it is the first. -/
theorem isSecondary_of_entry {comment : DocComment} {i : Nat} {e : Entry}
    (h : comment.entry i = .ok e) : e.isSecondary = decide (0 < i) := by
  have htold : KeepsRank (Act.each (comment.linesFor i) DocLine.tell) :=
    fun shown => Keeps.each fun line _ => tell_rank line shown
  obtain ⟨_, -, hcompleted⟩ := Except.bind_eq_ok_iff.mp h
  obtain ⟨u, before, wasOpen, after, hupdate, hclose⟩ := CodeLine.completed_eq_ok hcompleted
  have hclosed := close_rank.view_eq u
  have hlearnt := (Framed.rank (CodeLine.update_framed comment.code)).view_eq
    (Act.each (comment.linesFor i) DocLine.tell (fresh i)).state
  rw [hclose] at hclosed
  rw [hupdate, htold.view_eq] at hlearnt
  exact hclosed.trans hlearnt

theorem length_of_entries {comment : DocComment} {group : List Entry}
    (h : comment.entries = .ok group) : group.length = comment.count := by
  rw [← (Except.mapM_eq_ok_iff.mp h).length_eq, List.length_range]

theorem entry_of_getElem {comment : DocComment} {group : List Entry}
    (h : comment.entries = .ok group) {i : Nat} {e : Entry} (he : group[i]? = some e) :
    comment.entry i = .ok e := by
  obtain ⟨-, hentry⟩ := List.forall₂_iff_get.mp (Except.mapM_eq_ok_iff.mp h)
  obtain ⟨hi, rfl⟩ := List.getElem?_eq_some_iff.mp he
  have hrange : i < (List.range comment.count).length := by
    rwa [List.length_range, ← length_of_entries h]
  simpa using hentry i hrange hi

/-- Of the entries of a comment, the first one is tagged and all others that are not large. -/
theorem isTagged_of_entries {comment : DocComment} {group : List Entry}
    (h : comment.entries = .ok group) {i : Nat} {e : Entry} (he : group[i]? = some e) :
    e.isTagged = (decide (i = 0) || !e.isLarge) := by
  rw [isTagged, isSecondary_of_entry (entry_of_getElem h he)]
  cases i <;> rfl

/-- One tag is for the first entry. -/
theorem countP_isTagged {comment : DocComment} {group : List Entry}
    (h : comment.entries = .ok group) :
    group.countP isTagged = min 1 group.length + group.tail.countP (!·.isLarge) := by
  cases group with
  | nil => rfl
  | cons first rest =>
      have hfirst : first.isTagged = true := isTagged_of_entries h (i := 0) rfl
      have hrest : rest.countP isTagged = rest.countP (!·.isLarge) := by
        refine List.countP_congr fun e he => ?_
        obtain ⟨i, hi⟩ := List.getElem?_of_mem he
        have htagged : e.isTagged = (decide (i + 1 = 0) || !e.isLarge) :=
          isTagged_of_entries h (by rwa [List.getElem?_cons_succ])
        rw [htagged]
        rfl
      rw [List.countP_cons_of_pos hfirst, hrest, List.tail_cons, List.length_cons]
      omega

end DocComment

namespace Help

open Entry

/-- Writing an entry begins with a line that ends with a tag, or is refused if there is no room for
the tag on the sheet. -/
def BeginsWithTag (c : Context) (e : Entry) (word : String) : Prop :=
  if word.length + 2 ≤ sheetWidth then Announces c e word
  else ∃ what, writeChunk c e = Act.fail (.assumption what)

theorem BeginsWith.withTag {c : Context} {e : Entry} {word : String} {line : TextLine} {indent : Int}
    (h : BeginsWith c e word line indent) : BeginsWithTag c e word := by
  unfold BeginsWithTag
  split
  next hfits => exact h.announces hfits
  next hwide => exact ⟨_, h.refused (Nat.lt_of_not_le hwide)⟩

/--
**An entry is written with a tag unless it is secondary and begins with a usage.**

So a comment gives one tag for its first entry, and another one for every later entry that is no
function or command with a usage.  Where the entries of a comment are merged changes nothing about
that.  Whatever is tagged needs a full name, and a command that is marked as an exception cannot be
written at all.
-/
theorem tagged_unless_secondary_with_usage (c : Context) (file : Option String)
    (lines : List String) :
    (∀ e : Entry, ∀ kind ∈ writtenKinds, e.Settled → e.kindValue = kind.toValue →
      (IsUnusable e → ∃ what, writeChunk c e = Act.fail (.assumption what))
      ∧ (¬IsUnusable e →
        (e.isSecondary = true ∧ e.isLarge = true → BeginsWithUsage c e)
        ∧ (¬(e.isSecondary = true ∧ e.isLarge = true) →
          (∀ full, e.fullName = .ok full → (kind = .setting → full ≠ .nothing) →
            BeginsWithTag c e (tagOn c.page e full).shown)
          ∧ ∀ cause, e.fullName = .error cause → writeChunk c e = Act.fail cause)))
    ∧ ((Source.entries file lines).result = .ok () →
      ∃ groups, (DocComment.ofFile lines).mapM DocComment.entries = .ok groups
        ∧ (Source.entries file lines).state = groups.flatten
        ∧ ∀ group ∈ groups,
          (∀ i e space, group[i]? = some e → (e.placed space).Settled
            ∧ (e.placed space).isLarge = e.isLarge
            ∧ ((e.placed space).isSecondary = true ↔ i ≠ 0))
          ∧ group.countP isTagged = min 1 group.length + group.tail.countP (!·.isLarge)) := by
  have hiff (e : Entry) : e.isTagged = false ↔ e.isSecondary = true ∧ e.isLarge = true := by
    simp [isTagged]
  refine ⟨fun e kind hwritten hsettled hkind => ⟨?_, fun husable => ⟨?_, ?_⟩⟩, ?_⟩
  · rintro ⟨hcommand, hexception⟩
    exact ⟨_, writeChunk_exception hsettled (isOf_iff.mp hcommand) hexception⟩
  · intro hsecondary
    exact writeChunk_of_untagged hsettled husable ((hiff e).mpr hsecondary)
  · intro hfirst
    have htagged : e.isTagged = true := by
      rwa [← hiff, Bool.not_eq_false] at hfirst
    refine ⟨fun full hname hgiven => ?_, fun cause hname => ?_⟩
    · obtain ⟨line, indent, hline⟩ :=
        writeChunk_of_tagged (c := c) hsettled hkind hwritten husable htagged hname hgiven
      exact hline.withTag
    · exact writeChunk_unnamed hsettled hkind hwritten husable htagged hname
  · intro hread
    obtain ⟨groups, hgroups, hstate⟩ := Source.entries_grouped hread
    refine ⟨groups, hgroups, hstate, fun group hgroup => ?_⟩
    obtain ⟨comment, -, hcomment⟩ := Except.exists_of_mem_mapM hgroups hgroup
    refine ⟨fun i e space he => ⟨?_, isLarge_placed space e, ?_⟩, comment.countP_isTagged hcomment⟩
    · refine placed_settled (Source.entries_settled file lines e ?_) space
      rw [hstate]
      exact List.mem_flatten_of_mem hgroup (List.mem_of_getElem? he)
    · rw [isSecondary_eq_of_frame (frame_placed space e),
        DocComment.isSecondary_of_entry (DocComment.entry_of_getElem hcomment he)]
      simp [Nat.pos_iff_ne_zero]

/-- Two usages of a command and two of a setting: the command has one tag, and the setting has its
tag twice. -/
theorem tagged_unless_secondary_with_usage_twice :
    let lines := ["\"\"\n", "\" @usage {list}\n", "\" Sorts {list}.\n", "\" @usage {dict}\n",
      "\" Sorts {dict}.\n", "command -nargs=1 Sort call demo#Sort(<f-args>)\n", "\"\"\n",
      "\" @usage off\n", "\" Off.\n", "\" @usage on\n", "\" On.\n", "let g:demo_sorted = 1\n"]
    let c : Context := ⟨{ name := .text "demo" }, { name := .text "demo" }⟩
    ∃ list dict off on, (Source.entries none lines).state = [list, dict, off, on]
      ∧ (DocComment.ofFile lines).mapM DocComment.entries = .ok [[list, dict], [off, on], []]
      ∧ BeginsWithTag c list ":Sort" ∧ BeginsWithUsage c dict
      ∧ BeginsWithTag c off "g:demo_sorted" ∧ BeginsWithTag c on "g:demo_sorted"
      ∧ [list, dict].countP isTagged = 1 ∧ [off, on].countP isTagged = 2 := by
  intro lines c
  have hread : (Source.entries none lines).result = .ok () := by decide +kernel
  have hcomments : (DocComment.ofFile lines).map (·.count) = [2, 2, 0] := by decide +kernel
  obtain ⟨hsecond, hkinds, hlarge, hexceptions, hnames⟩ :
      (Source.entries none lines).state.map (·.isSecondary) = [false, true, false, true]
      ∧ (Source.entries none lines).state.map (·.kindValue)
        = [Kind.command.toValue, Kind.command.toValue, Kind.setting.toValue, Kind.setting.toValue]
      ∧ (Source.entries none lines).state.map (·.isLarge) = [true, true, false, false]
      ∧ (Source.entries none lines).state.map (·.hasOwn "exception") = [false, false, false, false]
      ∧ (Source.entries none lines).state.map (·.fullName)
        = [.ok (.text "Sort"), .ok (.text "Sort"), .ok (.text "g:demo_sorted"),
          .ok (.text "g:demo_sorted")] := by
    decide +kernel
  have hsettled := Source.entries_settled none lines
  obtain ⟨hwritten, hfile⟩ := tagged_unless_secondary_with_usage c none lines
  obtain ⟨groups, hgroups, hstate, hcounts⟩ := hfile hread
  rw [hstate] at hsecond hkinds hlarge hexceptions hnames hsettled ⊢
  clear_value lines
  generalize DocComment.ofFile lines = comments at hcomments hgroups ⊢
  obtain ⟨sort, _, rfl, hsort, hcomments⟩ := List.map_eq_cons_iff.mp hcomments
  obtain ⟨sorted, _, rfl, hsorted, hcomments⟩ := List.map_eq_cons_iff.mp hcomments
  obtain ⟨last, _, rfl, hlast, hcomments⟩ := List.map_eq_cons_iff.mp hcomments
  obtain rfl := List.map_eq_nil_iff.mp hcomments
  have hall := Except.mapM_eq_ok_iff.mp hgroups
  obtain _ | ⟨hcommands, _ | ⟨hsettings, _ | ⟨hend, _ | _⟩⟩⟩ := hall
  obtain ⟨list, dict, rfl⟩ := List.length_eq_two.mp
    ((DocComment.length_of_entries hcommands).trans hsort)
  obtain ⟨off, on, rfl⟩ := List.length_eq_two.mp
    ((DocComment.length_of_entries hsettings).trans hsorted)
  obtain rfl := List.length_eq_zero_iff.mp ((DocComment.length_of_entries hend).trans hlast)
  simp only [List.flatten_cons, List.flatten_nil, List.append_nil, List.cons_append, List.nil_append,
    List.map_cons, List.map_nil, List.cons.injEq, and_true, List.forall_mem_cons]
    at hsecond hkinds hlarge hexceptions hnames hsettled
  have hplain {e : Entry} (h : e.hasOwn "exception" = false) : ¬IsUnusable e := by
    rintro ⟨-, hexception⟩
    exact Bool.false_ne_true (h.symm.trans hexception)
  have hlist := (hwritten list .command (by decide) hsettled.1 hkinds.1).2 (hplain hexceptions.1)
  have hdict := (hwritten dict .command (by decide) hsettled.2.1 hkinds.2.1).2
    (hplain hexceptions.2.1)
  have hoff := (hwritten off .setting (by decide) hsettled.2.2.1 hkinds.2.2.1).2
    (hplain hexceptions.2.2.1)
  have hon := (hwritten on .setting (by decide) hsettled.2.2.2.1 hkinds.2.2.2).2
    (hplain hexceptions.2.2.2)
  have hwords (full : Value) : (tagOn c.page list full).shown = ":" ++ full.shown
      ∧ tagOn c.page off full = full ∧ tagOn c.page on full = full := by
    simp [tagOn, isOf_iff_of_kind hkinds.1, isOf_iff_of_kind hkinds.2.2.1,
      isOf_iff_of_kind hkinds.2.2.2, hlarge, Kind.label, Value.shown]
  refine ⟨list, dict, off, on, rfl, hgroups, ?_, hdict.1 ⟨hsecond.2.1, hlarge.2.1⟩, ?_, ?_, ?_, ?_⟩
  · rw [← show (tagOn c.page list (.text "Sort")).shown = ":Sort" from (hwords _).1]
    exact (hlist.2 (by simp [hsecond])).1 _ hnames.1 (by simp)
  · rw [← show (tagOn c.page off (.text "g:demo_sorted")).shown = "g:demo_sorted" by
      rw [(hwords _).2.1]; rfl]
    exact (hoff.2 (by simp [hsecond])).1 _ hnames.2.2.1 (by simp)
  · rw [← show (tagOn c.page on (.text "g:demo_sorted")).shown = "g:demo_sorted" by
      rw [(hwords _).2.2]; rfl]
    exact (hon.2 (by simp [hlarge])).1 _ hnames.2.2.2 (by simp)
  · rw [(hcounts _ (by simp)).2]
    simp [hlarge]
  · rw [(hcounts _ (by simp)).2]
    simp [hlarge]

end Help

end PluginHelp
