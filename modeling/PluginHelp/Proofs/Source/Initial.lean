/-
The initial values of flags.

The line of code that defines a flag adds the initial value to the documentation above it, as a line
of text that begins a list item.  Such a line ends whatever is open, running text and other items
alike, and so the value is an item of its own.  Code is the exception: it does not end with a line
that is indented, and this one is.  If the documentation ends in code, the value is one more line of
that code.

Which of the two happens is told by the lines that the last entry hears.  They are followed with a
mode, and a header counts as a line here, for it ends code as well.
-/
import PluginHelp.Proofs.Entry.Words
import PluginHelp.Proofs.Source.Routing

namespace PluginHelp

open Act

/-! ### Lines that begin an item -/

theorem Passages.begin_item_of_close (ps : Passages) (leader : String) (level : Int)
    (text : String) :
    ps.close.begin (.item leader level text) = ps.close ++ [⟨true, .item leader level text⟩] := by
  have hgrowing : ps.close.growing (Body.item leader level text).shape = false := by
    show ps.close.growing .item = false
    rw [growing_item, mode_close]
    rfl
  rw [begin, hgrowing]
  rfl

theorem Passages.eq_of_mode_code {ps : Passages} (h : ps.mode = .code) :
    ∃ front lines, ps = front ++ [⟨true, .code lines⟩] := by
  rcases List.eq_nil_or_concat' ps with rfl | ⟨front, ⟨isOpen, body⟩, rfl⟩
  · cases h
  · rw [mode_concat] at h
    cases isOpen with
    | false => cases h
    | true =>
        cases body with
        | code lines => exact ⟨front, lines, rfl⟩
        | _ => cases h

namespace Entry

variable {e : Entry} {line : String} {gap leader sep rest : List Char}

/-- Outside of code, a line that begins an item makes a new one, and the item says nothing else. -/
theorem addUncoded_item (h : Pattern.Itemizes line.toList gap leader sep rest) (e : Entry) :
    Ensures (addUncoded line) e
      (fun _ t => t.passages
        = e.passages.close ++ [⟨true, .item (String.ofList leader) 0 (String.ofList rest)⟩])
      (fun _ => False) := by
  obtain ⟨t, ht, -, hcaptured⟩ := h.takes
  unfold addUncoded
  refine Ensures.modify_bind (Ensures.ite (fun hblank => ?_) fun _ => ?_)
  · obtain ⟨c, more, hleader, -⟩ := h.leads.head
    have hmem : c ∈ line.toList := by
      rw [h.line_eq, hleader]
      simp
    have hhead : (leader ++ []).head? = some c := by
      rw [hleader]
      rfl
    have hsolid := h.leads.not_blank hhead
    rw [List.all_eq_true.mp hblank c hmem] at hsolid
    cases hsolid
  · rw [ht.match?]
    dsimp only
    rw [Pattern.group_found (by decide), hcaptured, h.replace]
    refine Ensures.modify_bind (Ensures.modify_bind ?_)
    dsimp only
    rw [Passages.begin_item_of_close]
    unfold extendPassage
    refine Ensures.get_bind ?_
    dsimp only
    rw [Passages.addLine, List.getLast?_concat, List.dropLast_concat]
    exact Ensures.modify rfl

theorem addLine_item (h : Pattern.Itemizes line.toList gap leader sep rest)
    (hmode : e.passages.mode ≠ .code) :
    Ensures (addLine line) e
      (fun _ t => t.passages
        = e.passages.close ++ [⟨true, .item (String.ofList leader) 0 (String.ofList rest)⟩])
      (fun _ => False) := by
  unfold addLine
  refine Ensures.get_bind ?_
  rw [Passages.growing_code, if_neg (by simpa using hmode)]
  exact addUncoded_item h e

end Entry

/-! ### The mode that lines leave -/

/-- The mode after a line that an entry is told.  A header ends what is open. -/
def Mode.told (mode : Mode) : DocLine → Mode
  | .header _ => .plain
  | line => mode.after line

theorem DocLine.update_mode (line : DocLine) (e : Entry) :
    (line.update e).state.passages.mode = e.passages.mode.after line := by
  cases hspeaks : line.speaks with
  | false =>
      have hquiet : e.passages.mode.after line = e.passages.mode := by
        cases line with
        | text | default | throws | subSection => cases hspeaks
        | _ => rfl
      have hsaid := (DocLine.update_silent hspeaks).view_eq e
      rw [hquiet]
      exact congrArg (fun said => Passages.mode said.1) hsaid
  | true =>
      cases line with
      | text line => exact (Entry.addLine_notes e line).state.mode
      | default argument value => exact Passages.mode_begin_closed _ rfl
      | throws error description => exact Passages.mode_begin_closed _ rfl
      | subSection title => exact Passages.mode_begin_closed _ rfl
      | _ => cases hspeaks

theorem Draft.takeHeader_mode (given : Header) (e : Entry) :
    Ensures (takeHeader given) e (fun _ t => t.passages.mode = .plain) (fun _ => True) := by
  have hset : Ensures (Entry.setHeader given) e (fun _ t => t.passages.mode = .plain)
      (fun _ => True) := by
    unfold Entry.setHeader
    refine Ensures.get_bind (Ensures.ite (fun _ => trivial) fun _ => ?_)
    exact Ensures.modify_bind (Ensures.modify (Passages.mode_close _))
  refine Ensures.bind hset fun _ t ht => ?_
  refine (Ensures.self (DocLine.update (.header given)) t).mono ?_
  rintro _ u ⟨warnings, hu⟩
  have hmode := (DocLine.header given).update_mode t
  rw [hu] at hmode
  exact hmode.trans ht

/-- The step: a line that an entry is told. -/
theorem DocLine.tell_mode (line : DocLine) (e : Entry) :
    Ensures line.tell e (fun _ t => t.passages.mode = e.passages.mode.told line)
      (fun _ => True) := by
  have hupdate : Ensures line.update e (fun _ t => t.passages.mode = e.passages.mode.after line)
      (fun _ => True) := by
    refine (Ensures.self line.update e).mono ?_
    rintro _ t ⟨warnings, ht⟩
    rw [← line.update_mode e, ht]
  cases line with
  | header given => exact Draft.takeHeader_mode given e
  | all =>
      refine (Ensures.of_confined (Entry.setKind_silent _) e).mono fun _ t ht => ?_
      exact congrArg (fun said => Passages.mode said.1) ht
  | _ => exact hupdate

/-- The run: all that an entry is told. -/
theorem Draft.Becomes.mode {lines : List DocLine} {i : Nat} {e : Entry} (h : Becomes lines i e) :
    e.passages.mode = lines.foldl Mode.told .plain := by
  obtain ⟨warnings, hlines⟩ := h
  have hrun : Ensures (Act.each lines DocLine.tell) (DocComment.fresh i)
      (fun _ t => t.passages.mode = lines.foldl Mode.told .plain) (fun _ => True) := by
    refine Ensures.each (fun done (t : Entry) => t.passages.mode = done.foldl Mode.told .plain)
      rfl ?_
    intro done line rest t _ ht
    refine (line.tell_mode t).mono fun _ u hu => ?_
    rw [hu, ht, List.foldl_concat]
  exact hrun.of_ok hlines

/-! ### Completing an entry -/

theorem Entry.settleUsage_passages : Confined Entry.passages Cause.OfEntry Entry.settleUsage := by
  unfold settleUsage
  refine Confined.get.bind fun e => Confined.ite (fun _ => ?_) (fun _ => Confined.pure ())
  dsimp only
  refine Confined.ite (fun _ => Confined.bind (Confined.modify fun _ => rfl) fun _ => ?_)
    (fun _ => ?_)
  all_goals
    refine Confined.bind ((usageOf_touchesHeader _).comp Entry.passages) fun usage => ?_
    exact Confined.modify fun _ => rfl

theorem Entry.close_passages (e : Entry) :
    Ensures close e (fun _ t => t.passages = e.passages) Cause.OfEntry := by
  cases hclosed : e.isClosed with
  | true =>
      unfold close
      refine Ensures.get_bind ?_
      rw [hclosed]
      exact Ensures.pure rfl
  | false =>
      have hinferred : e.shut.inferred.passages = e.passages := by
        unfold inferred
        split <;> rfl
      have hrest : Ensures (settleUsage >>= fun _ => checkPrivate) e.shut.inferred
          (fun _ t => t.passages = e.passages) Cause.OfEntry := by
        refine Ensures.bind (Ensures.of_confined settleUsage_passages _) fun _ t ht => ?_
        unfold checkPrivate
        refine Ensures.get_bind (Ensures.ite (fun _ => Ensures.fail_bind trivial) fun _ => ?_)
        exact Ensures.pure (ht.trans hinferred)
      unfold Ensures at hrest ⊢
      rw [close_apply hclosed]
      exact hrest

/-- A line of code leaves the text of an entry as it is. -/
theorem CodeLine.completed_passages {line : CodeLine} {e t : Entry}
    (h : line.completed e = .ok t) : t.passages = e.passages := by
  obtain ⟨u, before, wasOpen, after, hupdate, hclose⟩ := completed_eq_ok h
  have hlearnt : u.passages = e.passages := by
    have hsaid := line.update_silent.view_eq e
    rw [hupdate] at hsaid
    exact congrArg Prod.fst hsaid
  exact ((Entry.close_passages u).of_ok hclose).trans hlearnt

/-! ### What the last entry hears -/

namespace DocComment

open Draft

variable {c : DocComment} {e : Entry} {i : Nat} {docs : List DocLine}

theorem entry_eq_ok (h : c.entry i = .ok e) :
    ∃ u, Becomes (c.linesFor i) i u ∧ c.code.completed u = .ok e := by
  unfold entry at h
  rcases htold : Act.each (c.linesFor i) DocLine.tell (fresh i) with ⟨u, warnings, fault | ⟨⟩⟩
  · rw [htold] at h
    cases h
  · rw [htold] at h
    exact ⟨u, ⟨warnings, htold⟩, h⟩

/-- The entries of a flag with an initial value have a last one among them. -/
theorem entries_of_flag {name : Option String} {initial : String} {group : List Entry}
    (h : entries ⟨docs, .flag name (some initial)⟩ = .ok group) :
    ∃ front last, group = front ++ [last] ∧ front.length + 1 = max 1 (begun docs)
      ∧ entry ⟨docs, .flag name (some initial)⟩ front.length = .ok last := by
  obtain ⟨count, hcount⟩ : ∃ count, max 1 (begun docs) = count + 1 :=
    Nat.exists_eq_add_one.mpr (by omega)
  change (List.range (max 1 (begun docs))).mapM _ = _ at h
  rw [hcount, List.range_succ, List.mapM_append] at h
  obtain ⟨front, hfront, h⟩ := Except.bind_eq_ok_iff.mp h
  obtain ⟨rest, hrest, h⟩ := Except.bind_eq_ok_iff.mp h
  obtain rfl := Except.ok.inj h
  have hlength : front.length = count := by
    rw [← (Except.mapM_eq_ok_iff.mp hfront).length_eq, List.length_range]
  cases Except.mapM_eq_ok_iff.mp hrest with
  | cons hlast hnil =>
      cases hnil
      rw [← hlength] at hlast hcount
      exact ⟨front, _, rfl, hcount.symm, hlast⟩

end DocComment

namespace Draft

open DocComment

variable {docs : List DocLine} {line : DocLine} {start d t : Draft} {e : Entry} {i : Nat}

theorem Becomes.of_concat {lines : List DocLine} (h : Becomes (lines ++ [line]) i e) :
    ∃ u warnings, Becomes lines i u ∧ line.tell u = ⟨e, warnings, .ok ()⟩ := by
  obtain ⟨warnings, hlines⟩ := h
  rw [each_append, each_singleton] at hlines
  obtain ⟨u, before, ⟨⟩, after, hbefore, hlast, -⟩ := bind_eq_ok_iff.mp hlines
  exact ⟨u, after, ⟨before, hbefore⟩, hlast⟩

/-- A doc comment is read from a draft without entries on. -/
theorem routed_of_docs {warnings : List Warning} (hentries : start.entries = [])
    (hselection : start.selection = [])
    (hdocs : Act.each docs addDoc start = ⟨d, warnings, .ok ()⟩) :
    Routed docs d ∧ d.finished = start.finished := by
  have hrun : Ensures (Act.each docs addDoc) start
      (fun _ t => Routed docs t ∧ t.finished = start.finished) (fun _ => True) := by
    refine Ensures.each (fun done (t : Draft) => Routed done t ∧ t.finished = start.finished)
      ⟨routed_of_empty hentries hselection, rfl⟩ ?_
    rintro done line rest t - ⟨hrouted, hfinished⟩
    have hstep := (addDoc_routed line hrouted).both
      (Ensures.of_confined (addDoc_finishesNone line) t)
    refine (hstep.allow fun _ _ => trivial).mono ?_
    rintro _ u ⟨hu, hsame⟩
    exact ⟨hu, hsame.trans hfinished⟩
  exact hrun.of_ok hdocs

/-- The line that shows an initial value begins an item. -/
theorem initialLine_itemizes (initial : String) :
    Pattern.Itemizes (initialLine initial).toList [' '] ['-'] [' ']
      ("Default: " ++ initial ++ " `").toList where
  line_eq := by simp [initialLine]
  gap_blank := List.forall_mem_singleton.mpr rfl
  leads := .bullet rfl
  sep_ne := List.cons_ne_nil _ _
  sep_blank := List.forall_mem_singleton.mpr rfl
  rest_not_blank := by
    intro c hc
    obtain rfl : 'D' = c := by simpa using hc
    rfl

/-- What is told of an initial value is an item of its own, or one more line of code. -/
theorem tell_initial {u : Entry} {initial : String} {warnings : List Warning}
    (h : DocLine.tell (.text (initialLine initial)) u = ⟨e, warnings, .ok ()⟩) :
    (u.passages.mode ≠ .code → ∃ shown,
      e.passages = shown ++ [⟨true, .item "-" 0 ("Default: " ++ initial ++ " `")⟩])
    ∧ (u.passages.mode = .code → ∃ shown lines,
      e.passages = shown ++ [⟨true, .code (lines ++ [initialLine initial])⟩]) := by
  refine ⟨fun hmode => ?_, fun hmode => ?_⟩
  · have hitem := (Entry.addLine_item (initialLine_itemizes initial) hmode).of_ok h
    rw [String.ofList_toList] at hitem
    exact ⟨_, hitem⟩
  · obtain ⟨shown, lines, hcode⟩ := Passages.eq_of_mode_code hmode
    have hindented : indented (initialLine initial).toList = true := by
      simp [initialLine, indented]
    exact ⟨shown, lines, (Entry.addLine_verbatim hcode (.inr hindented)).of_ok h⟩

/--
**The initial value of a flag is an item of its own exactly if the documentation does not end in
code.**

Whatever a doc comment says before, the last of its entries ends with an item that says the initial
value and nothing else, as long as no code is open after the lines that this entry hears.  If code is
open, the last passage is that code, with the line for the item as its last one.
-/
theorem addCode_initial {source : String} {name : Option String} {initial : String}
    {before after : List Warning} (hentries : start.entries = [])
    (hselection : start.selection = [])
    (hdocs : Act.each docs addDoc start = ⟨d, before, .ok ()⟩)
    (hsource : CodeLine.read source = .flag name (some initial))
    (hcode : addCode (.read source) d = ⟨t, after, .ok ()⟩) :
    ∃ front last, t.finished = start.finished ++ front ++ [last]
      ∧ front.length + 1 = max 1 (begun docs)
      ∧ let mode := (heard front.length docs).foldl Mode.told .plain
        (last.passages.getLast?.map Passage.body
            = some (.item "-" 0 ("Default: " ++ initial ++ " `")) ↔ mode ≠ .code)
        ∧ (mode = .code → ∃ shown lines, last.passages
            = shown ++ [⟨true, .code (lines ++ [" - Default: " ++ initial ++ " `"])⟩]) := by
  obtain ⟨hrouted, hfinished⟩ := routed_of_docs hentries hselection hdocs
  obtain ⟨-, -, group, hgroup, hdone⟩ := (addCode_routed _ hrouted.toFollows).of_ok hcode
  rw [hsource] at hgroup
  obtain ⟨front, last, rfl, hcount, hentry⟩ := entries_of_flag hgroup
  obtain ⟨told, htold, hcompleted⟩ := entry_eq_ok hentry
  rw [linesFor, if_pos hcount] at htold
  obtain ⟨u, warnings, hu, htell⟩ := htold.of_concat
  obtain ⟨hitem, hcode⟩ := tell_initial htell
  rw [hu.mode, ← CodeLine.completed_passages hcompleted] at hitem hcode
  refine ⟨front, last, ?_, hcount, ⟨fun hlast hmode => ?_, fun hmode => ?_⟩, hcode⟩
  · rw [hdone, hfinished, List.append_assoc]
  · obtain ⟨shown, lines, hpassages⟩ := hcode hmode
    rw [hpassages, List.getLast?_concat] at hlast
    cases hlast
  · obtain ⟨shown, hpassages⟩ := hitem hmode
    rw [hpassages, List.getLast?_concat]
    rfl

/-- The documentation of a flag that ends with an example. -/
theorem addCode_initial_after_example :
    let docs := [DocLine.text "How fast to go, like so: >", .text "  :let g:speed = 7"]
    let d := (Act.each docs addDoc {}).state
    let t := (addCode (.read "call s:plugin.Flag('speed', 5)") d).state
    ∃ last shown lines, t.finished = [last]
      ∧ last.passages = shown ++ [⟨true, .code (lines ++ [" - Default: 5 `"])⟩]
      ∧ last.passages.getLast?.map Passage.body ≠ some (.item "-" 0 "Default: 5 `") := by
  intro docs d t
  have hsource :
      CodeLine.read "call s:plugin.Flag('speed', 5)" = .flag (some "speed") (some "5") := by
    decide +kernel
  have hdocs : Act.each docs addDoc {} = ⟨d, [], .ok ()⟩ := rfl
  have hresult : (addCode (.read "call s:plugin.Flag('speed', 5)") d).result = .ok () := by
    rw [hsource]
    rfl
  have hcode : addCode (.read "call s:plugin.Flag('speed', 5)") d
      = ⟨t, (addCode (.read "call s:plugin.Flag('speed', 5)") d).warnings, .ok ()⟩ := by
    rw [← hresult]
  obtain ⟨front, last, hfinished, hcount, hitem, hlast⟩ :=
    addCode_initial rfl rfl hdocs hsource hcode
  have hbegun : DocComment.begun docs = 1 := rfl
  rw [hbegun] at hcount
  obtain rfl : front = [] := List.length_eq_zero_iff.mp (by omega)
  have hmode : (heard 0 docs).foldl Mode.told .plain = .code := by decide +kernel
  obtain ⟨shown, lines, hpassages⟩ := hlast hmode
  exact ⟨last, shown, lines, hfinished, hpassages, fun h => hitem.mp h hmode⟩

end Draft

end PluginHelp
