/-
Where a file is said to be wrong if a directive in it cannot be read.

A line of documentation is read when it is asked for, and the fault of a line that cannot be read
comes up while the line before it that mattered is still the current one.  So the fault is put into
that line, or into the first one if nothing has mattered so far.  `bringIn_of_misread` follows the
lines with the number of the current one.  For the way back, `misread_of_bringIn`, a fault of the
draft must never be of this kind; that is what the invariant of drafts says.

Numbers of logical lines grow, so the two lines are the same only where the file begins with the line
that cannot be read.
-/
import PluginHelp.Proofs.Source.Joining
import PluginHelp.Proofs.Source.Reading

namespace PluginHelp

/-- Whether a directive could not be read, as it is unknown or not given what it asks for. -/
def Cause.isMisread : Cause → Bool
  | badArguments .. | unknownDirective _ => true
  | _ => false

theorem Cause.OfEntry.not_isMisread {cause : Cause} (h : cause.OfEntry) :
    cause.isMisread = false := by
  cases cause <;> first | exact h.elim | rfl

theorem Cause.isLocal_of_isMisread {cause : Cause} (h : cause.isMisread = true) :
    cause.isLocal = true := by
  cases cause <;> first | rfl | cases h

theorem Fault.locatedAt_of_isMisread {f : Fault} (h : f.cause.isMisread = true)
    (file : Option String) (line : Int) :
    f.locatedAt file line = { f with origin := ⟨file, some line⟩ } := by
  rw [locatedAt, if_pos (Cause.isLocal_of_isMisread h)]

/-! ### Numbers of lines -/

namespace Source

theorem starts_sublist_append (front back : List String) :
    (starts front).Sublist (starts (front ++ back)) := by
  rw [← filter_starts_append front back, starts, List.length_append, List.range_add,
    List.filter_append]
  exact List.sublist_append_left _ _

/-- The logical lines of a file start with lines that do not go on, in their order. -/
theorem logicalLines_starts (lines : List String) :
    ∃ numbers : List Nat, numbers.Sublist (starts lines)
      ∧ (logicalLines lines).items = numbers.map (entryAt lines) := by
  have hjoined := logicalLines_joinedAs lines
  generalize logicalLines lines = joined at hjoined
  cases hjoined with
  | whole => exact ⟨starts lines, List.Sublist.refl _, rfl⟩
  | @stuck front line back hlines _ _ =>
      refine ⟨followedStarts front, ?_, rfl⟩
      rw [hlines]
      exact List.filter_sublist.trans (starts_sublist_append front _)

/-- A logical line starts with a line that does not go on, after those that the earlier ones start
with. -/
theorem number_of_logicalLines {lines : List String} {front back : List (Nat × String)} {n : Nat}
    {text : String} (h : (logicalLines lines).items = front ++ (n, text) :: back) :
    n ∈ starts lines ∧ text = textAt lines n ∧ ∀ line ∈ front, line.1 < n := by
  obtain ⟨numbers, hsublist, hitems⟩ := logicalLines_starts lines
  obtain ⟨before, rest, rfl, rfl, hrest⟩ := List.map_eq_append_iff.mp (hitems.symm.trans h)
  obtain ⟨number, after, rfl, hnumber, -⟩ := List.map_eq_cons_iff.mp hrest
  obtain ⟨rfl, rfl⟩ := Prod.mk.inj hnumber
  refine ⟨hsublist.subset (by simp), rfl, ?_⟩
  have hgrowing : (before ++ number :: after).Pairwise (· < ·) :=
    List.pairwise_lt_range.sublist (hsublist.trans List.filter_sublist)
  intro line hline
  obtain ⟨earlier, hearlier, rfl⟩ := List.mem_map.mp hline
  exact (List.pairwise_append.mp hgrowing).2.2 earlier hearlier number List.mem_cons_self

theorem logicalLines_not_isMisread {lines : List String} {fault : Fault}
    (h : (logicalLines lines).fault = some fault) : fault.cause.isMisread = false := by
  have hjoined := logicalLines_joinedAs lines
  generalize logicalLines lines = joined at hjoined h
  cases hjoined with
  | whole => cases h
  | stuck =>
      cases h
      rfl

end Source

/-! ### The line that is current -/

namespace Reading

open Act

/-- The number of the last of some lines, or the one given if there is none. -/
def lastNumber (last : Nat) (lines : List (Nat × SourceLine)) : Nat :=
  (lines.getLast?.map (·.1)).getD last

theorem lastNumber_cons (last n : Nat) (line : SourceLine) (lines : List (Nat × SourceLine)) :
    lastNumber last ((n, line) :: lines) = lastNumber n lines := by
  cases lines with
  | nil => rfl
  | cons next lines => simp [lastNumber, List.getLast?_cons]

theorem lastNumber_eq_or_mem (last : Nat) (lines : List (Nat × SourceLine)) :
    lastNumber last lines = last ∨ lastNumber last lines ∈ lines.map (·.1) := by
  unfold lastNumber
  cases hlast : lines.getLast? with
  | none => exact Or.inl rfl
  | some line => exact Or.inr (List.mem_map_of_mem (List.mem_of_getLast? hlast))

theorem among_numbers (logical : List (Nat × String)) :
    ∀ inDoc, ((SourceLine.among inDoc logical).items.map (·.1)).Sublist (logical.map (·.1)) := by
  induction logical with
  | nil => exact fun _ => List.Sublist.refl _
  | cons line logical ih =>
      obtain ⟨number, text⟩ := line
      intro inDoc
      rw [among_cons]
      rcases lineOf inDoc text with cause | _ | line
      · exact List.nil_sublist _
      · exact (ih _).trans (List.sublist_cons_self _ _)
      · exact (ih _).cons_cons number

/-- Reads logical lines one after the other. -/
abbrev takeAll (logical : List (Nat × String)) : Act Reading Unit :=
  Act.each logical fun line => take line.2

/-- A logical line that cannot be read after others that can. -/
structure MisreadAfter (r : Reading) (logical front : List (Nat × String)) (n : Nat)
    (text : String) (cause : Cause) : Prop where
  stands : ∃ back, logical = front ++ (n, text) :: back
  before : (takeAll front r).result = .ok ()
  unread : lineOf (takeAll front r).state.inDoc text = .error cause

namespace MisreadAfter

variable {r t : Reading} {logical front : List (Nat × String)} {n m : Nat} {text other : String}
  {cause : Cause} {warnings : List Warning}

/-- A line may be read before. -/
theorem cons (htake : take other r = ⟨t, warnings, .ok ()⟩)
    (h : MisreadAfter t logical front n text cause) :
    MisreadAfter r ((m, other) :: logical) ((m, other) :: front) n text cause := by
  obtain ⟨⟨back, rfl⟩, hbefore, hunread⟩ := h
  have heach : takeAll ((m, other) :: front) r
      = ⟨(takeAll front t).state, warnings ++ (takeAll front t).warnings,
        (takeAll front t).result⟩ := by
    rw [takeAll, each_cons, bind_apply_ok _ htake]
  refine ⟨⟨back, rfl⟩, ?_, ?_⟩
  · rw [heach]
    exact hbefore
  · rw [heach]
    exact hunread

/-- What was read before may be cut off. -/
theorem of_cons (h : MisreadAfter r ((m, other) :: logical) ((m, other) :: front) n text cause) :
    ∃ t warnings, take other r = ⟨t, warnings, .ok ()⟩
      ∧ MisreadAfter t logical front n text cause := by
  obtain ⟨⟨back, hstands⟩, hbefore, hunread⟩ := h
  rw [takeAll, each_cons] at hbefore hunread
  rcases htake : take other r with ⟨t, warnings, fault | a⟩
  · rw [bind_apply_error _ htake] at hbefore
    cases hbefore
  · rw [bind_apply_ok _ htake] at hbefore hunread
    exact ⟨t, warnings, rfl, ⟨back, (List.cons.inj hstands).2⟩, hbefore, hunread⟩

end MisreadAfter

/-- Brings logical lines into a draft, and then what is left of the file.  The current line is
`last`. -/
def bringIn (file : Option String) (fault : Option Fault) (inDoc : Bool) (last : Nat)
    (logical : List (Nat × String)) : Act Draft Unit :=
  let picked := SourceLine.among inDoc logical
  Draft.addAll file (picked.fault <|> fault) last picked.items

section

variable {file : Option String} {fault : Option Fault} {inDoc : Bool} {last n : Nat}
  {text : String} {logical front : List (Nat × String)} {d : Draft} {cause : Cause}

theorem bringIn_of_error (h : lineOf inDoc text = .error cause) (hcause : cause.isMisread = true) :
    (bringIn file fault inDoc last ((n, text) :: logical) d).result
      = .error ⟨cause, ⟨file, some (last + 1)⟩⟩ := by
  rw [bringIn, among_cons, h]
  exact congrArg Except.error (Fault.locatedAt_of_isMisread (f := { cause }) hcause file (last + 1))

theorem bringIn_of_none (h : lineOf inDoc text = .ok none) :
    bringIn file fault inDoc last ((n, text) :: logical)
      = bringIn file fault (staysInDoc inDoc text) last logical := by
  rw [bringIn, among_cons, h]
  rfl

theorem bringIn_of_some {line : SourceLine} (h : lineOf inDoc text = .ok (some line)) :
    bringIn file fault inDoc last ((n, text) :: logical)
      = located file (n + 1) (Draft.add line)
          >>= fun _ => bringIn file fault (staysInDoc inDoc text) n logical := by
  rw [bringIn, among_cons, h]
  rfl

theorem located_of_ok {σ α : Type} {act : Act σ α} {s t : σ} {warnings : List Warning} {a : α}
    (h : act s = ⟨t, warnings, .ok a⟩) (file : Option String) (line : Int) :
    located file line act s = ⟨t, warnings, .ok a⟩ := by
  rw [located, h]
  rfl

theorem located_of_error {σ α : Type} {act : Act σ α} {s t : σ} {warnings : List Warning}
    {fault : Fault} (h : act s = ⟨t, warnings, .error fault⟩) (file : Option String) (line : Int) :
    located file line act s = ⟨t, warnings, .error (fault.locatedAt file line)⟩ := by
  rw [located, h]
  rfl

/-- The current line after some lines: the last one that mattered. -/
def current (inDoc : Bool) (last : Nat) (front : List (Nat × String)) : Nat :=
  lastNumber last (SourceLine.among inDoc front).items

theorem current_of_none (h : lineOf inDoc text = .ok none) :
    current inDoc last ((n, text) :: front) = current (staysInDoc inDoc text) last front := by
  rw [current, among_cons, h]
  rfl

theorem current_of_some {line : SourceLine} (h : lineOf inDoc text = .ok (some line)) :
    current inDoc last ((n, text) :: front) = current (staysInDoc inDoc text) n front := by
  rw [current, among_cons, h]
  exact lastNumber_cons last n line _

/-- The fault of a line that cannot be read is put into the current line. -/
theorem bringIn_of_misread {m : Nat} {unread : String}
    (h : MisreadAfter ⟨inDoc, d⟩ logical front m unread cause) (hcause : cause.isMisread = true) :
    (bringIn file fault inDoc last logical d).result
      = .error ⟨cause, ⟨file, some (current inDoc last front + 1)⟩⟩ := by
  -- The induction is on the lines that can be read, each of which moves the current line or not.
  induction front generalizing inDoc d last logical with
  | nil =>
      obtain ⟨⟨back, rfl⟩, -, hunread⟩ := h
      exact bringIn_of_error hunread hcause
  | cons line front ih =>
      obtain ⟨n, text⟩ := line
      obtain ⟨back, rfl⟩ := h.stands
      obtain ⟨t, warnings, htake, hrest⟩ := MisreadAfter.of_cons h
      rcases hline : lineOf inDoc text with other | _ | line
      · rw [take_error hline] at htake
        cases htake
      · rw [take_none hline] at htake
        cases htake
        rw [List.cons_append, bringIn_of_none hline, current_of_none hline]
        exact ih hrest
      · rw [take_some hline] at htake
        rcases hadd : Draft.add line d with ⟨u, more, f | a⟩
        · rw [hadd] at htake
          cases htake
        · rw [hadd] at htake
          cases htake
          rw [List.cons_append, bringIn_of_some hline, current_of_some hline,
            bind_apply_ok _ (located_of_ok hadd file _)]
          exact ih hrest

/-- If a directive cannot be read, then there is a line that cannot be read after others that can. -/
theorem misread_of_bringIn {fault : Option Fault} {other : Fault}
    (hfault : ∀ f, fault = some f → f.cause.isMisread = false) (hsound : Sound ⟨inDoc, d⟩)
    (hcause : other.cause.isMisread = true)
    (h : (bringIn file fault inDoc last logical d).result = .error other) :
    ∃ front m unread, MisreadAfter ⟨inDoc, d⟩ logical front m unread other.cause := by
  induction logical generalizing inDoc d last with
  | nil =>
      have hend : Ensures (finish fault) d (fun _ _ => True) (fun cause => cause.isMisread = false) := by
        cases fault with
        | some f => exact hfault f rfl
        | none =>
            exact ((Draft.addCode_empties .endOfFile hsound.draft).mono fun _ _ _ => trivial).allow
              fun _ hentry => hentry.not_isMisread
      rcases hfinish : finish fault d with ⟨t, warnings, f | a⟩
      · have hlocated : bringIn file fault inDoc last [] d
            = ⟨t, warnings, .error (f.locatedAt file (last + 1))⟩ :=
          located_of_error hfinish file _
        rw [hlocated] at h
        obtain rfl := Except.error.inj h
        rw [locatedAt_cause, hend.of_error (by rw [hfinish])] at hcause
        cases hcause
      · have hlocated : bringIn file fault inDoc last [] d = ⟨t, warnings, .ok a⟩ :=
          located_of_ok hfinish file _
        rw [hlocated] at h
        cases h
  | cons line logical ih =>
      obtain ⟨n, text⟩ := line
      have hnext := take_sound text hsound
      rcases hline : lineOf inDoc text with cause | _ | line
      · have hmisread : cause = other.cause := by
          rw [bringIn, among_cons, hline] at h
          obtain rfl := Except.error.inj h
          exact (locatedAt_cause { cause } file _).symm
        exact ⟨[], n, text, ⟨logical, rfl⟩, rfl, hmisread ▸ hline⟩
      · have htake := take_none hline d
        rw [bringIn_of_none hline] at h
        obtain ⟨front, m, unread, hmisread⟩ := ih (hnext.of_ok htake) h
        exact ⟨_, m, unread, hmisread.cons htake⟩
      · have htake := take_some hline d
        rw [bringIn_of_some hline] at h
        rcases hadd : Draft.add line d with ⟨t, warnings, f | a⟩
        · rw [bind_apply_error _ (located_of_error hadd file _)] at h
          obtain rfl := Except.error.inj h
          rw [locatedAt_cause, ((Draft.add_sound line hsound.draft).of_error
            (by rw [hadd])).not_isMisread] at hcause
          cases hcause
        · rw [hadd] at htake
          rw [bind_apply_ok _ (located_of_ok hadd file _)] at h
          obtain ⟨front, m, unread, hmisread⟩ := ih (hnext.of_ok htake) h
          exact ⟨_, m, unread, hmisread.cons htake⟩

end

/-! ### Files -/

/-- A line of a file that starts a logical line which cannot be read, after logical lines that can. -/
def MisreadLine (lines : List String) (front : List (Nat × String)) (n : Nat) (cause : Cause) :
    Prop :=
  n ∈ Source.starts lines
    ∧ MisreadAfter {} (Source.logicalLines lines).items front n (Source.textAt lines n) cause

theorem entries_result (file : Option String) (lines : List String) :
    (Source.entries file lines).result
      = (bringIn file (Source.logicalLines lines).fault false 0 (Source.logicalLines lines).items
          {}).result :=
  rfl

/-- The current line comes before the one that cannot be read, unless that is the first one. -/
theorem MisreadLine.current_lt {lines : List String} {front : List (Nat × String)} {n : Nat}
    {cause : Cause} (h : MisreadLine lines front n cause) (hn : n ≠ 0) : current false 0 front < n := by
  obtain ⟨-, ⟨back, hitems⟩, -, -⟩ := h
  rcases lastNumber_eq_or_mem 0 (SourceLine.among false front).items with hnone | hmem
  · rw [current, hnone]
    exact Nat.pos_of_ne_zero hn
  · obtain ⟨line, hline, hnumber⟩ := List.mem_map.mp ((among_numbers front false).subset hmem)
    rw [current, ← hnumber]
    exact (Source.number_of_logicalLines hitems).2.2 line hline

theorem MisreadLine.current_zero {lines : List String} {front : List (Nat × String)} {cause : Cause}
    (h : MisreadLine lines front 0 cause) : current false 0 front = 0 := by
  obtain ⟨-, ⟨back, hitems⟩, -, -⟩ := h
  have hfront : front = [] := by
    refine List.eq_nil_iff_forall_not_mem.mpr fun line hline => ?_
    exact Nat.not_lt_zero _ ((Source.number_of_logicalLines hitems).2.2 line hline)
  rw [hfront]
  rfl

/--
**A directive that cannot be read is reported in the last line before it that mattered.**

Reading a file fails because of such a directive exactly if a logical line cannot be read while all
before it can.  The line that is reported is the last one of those that gave documentation, or code
below it, and the first line of the file if none did.  That is the line which the logical line starts
with only if it is the first one of the file.
-/
theorem entries_misread_iff (file : Option String) (lines : List String) (fault : Fault)
    (hcause : fault.cause.isMisread = true) :
    ((Source.entries file lines).result = .error fault
      ↔ ∃ front n, MisreadLine lines front n fault.cause
          ∧ fault.origin = ⟨file, some (current false 0 front + 1)⟩)
    ∧ ∀ front n, MisreadLine lines front n fault.cause →
        current false 0 front ≤ n ∧ (current false 0 front = n ↔ n = 0) := by
  refine ⟨⟨fun h => ?_, ?_⟩, fun front n h => ?_⟩
  · rw [entries_result] at h
    obtain ⟨front, n, text, hmisread⟩ := misread_of_bringIn
      (fun _ hfault => Source.logicalLines_not_isMisread hfault) sound_start hcause h
    rw [bringIn_of_misread hmisread hcause] at h
    obtain ⟨back, hitems⟩ := hmisread.stands
    obtain ⟨hn, rfl, -⟩ := Source.number_of_logicalLines hitems
    exact ⟨front, n, ⟨hn, hmisread⟩, (congrArg Fault.origin (Except.error.inj h)).symm⟩
  · rintro ⟨front, n, ⟨-, hmisread⟩, horigin⟩
    rw [entries_result, bringIn_of_misread hmisread hcause, ← horigin]
  · rcases Nat.eq_zero_or_pos n with rfl | hpos
    · simp [h.current_zero]
    · have hlt := h.current_lt (Nat.ne_of_gt hpos)
      omega

/-- An unknown directive in the third line of a file is reported in the second one. -/
theorem entries_misread_third_line :
    let lines := ["\"\" @section Introduction, intro\n", "\" Hello.\n", "\" @oops\n"]
    let front := [(0, "\"\" @section Introduction, intro"), (1, "\" Hello.")]
    MisreadLine lines front 2 (.unknownDirective "oops")
    ∧ current false 0 front = 1
    ∧ (Source.entries (some "demo.vim") lines).result
        = .error ⟨.unknownDirective "oops", ⟨some "demo.vim", some 2⟩⟩ := by
  intro lines front
  obtain ⟨hstart, hitems, hbefore, hunread, hcurrent⟩ : 2 ∈ Source.starts lines
      ∧ (Source.logicalLines lines).items = front ++ [(2, Source.textAt lines 2)]
      ∧ (takeAll front {}).result = .ok ()
      ∧ lineOf (takeAll front {}).state.inDoc (Source.textAt lines 2)
          = .error (.unknownDirective "oops")
      ∧ current false 0 front = 1 := by decide +kernel
  have hline : MisreadLine lines front 2 (.unknownDirective "oops") :=
    ⟨hstart, ⟨[], hitems⟩, hbefore, hunread⟩
  refine ⟨hline, hcurrent, ?_⟩
  refine (entries_misread_iff (some "demo.vim") lines _ rfl).1.mpr ⟨front, 2, hline, ?_⟩
  rw [hcurrent]
  rfl

end Reading

end PluginHelp
