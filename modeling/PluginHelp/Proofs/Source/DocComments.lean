/-
Each doc comment of a file is read as if it stood alone.

A file falls into logical lines, each a line with the continuations after it.  A doc comment is a
logical line with the doubled comment sign, the comments that follow it, and the line of code after
them if there is one.  `docComments` cuts these out of a file, as the lines that were written.

Three things carry from line to line while a file is read: the logical line that is begun, whether a
doc comment is open, and the draft.  The first is done with at the end of every logical line, since
the next one does not go on with it.  The other two are as they were at first whenever a doc comment
is over, except for the entries that are finished, and those have no influence on anything.  So the
entries and the warnings of a file are those of its doc comments, one after the other.
-/
import Mathlib.Data.List.Basic
import Mathlib.Data.List.TakeWhile
import PluginHelp.Proofs.Source.Reading

namespace PluginHelp

/-! ### Logical lines as they are written -/

namespace Source

/-- Whether a line goes on with the one before it. -/
def continues (line : String) : Bool :=
  isContinuation (withoutLineEnds line)

/-- The lines of a file, each with the continuations after it. -/
def groups : List String → List (List String)
  | [] => []
  | line :: lines => (line :: lines.takeWhile continues) :: groups (lines.dropWhile continues)
termination_by lines => lines.length
decreasing_by
  have := (List.dropWhile_sublist continues (l := lines)).length_le
  simp only [List.length_cons]
  omega

/-- A text with the texts of continuations after it. -/
def extend (begun : String) (more : List String) : String :=
  more.foldl (fun begun line => begun ++ continuedText (withoutLineEnds line)) begun

/-- The text of a logical line. -/
def joined : List String → String
  | [] => ""
  | line :: more => extend (withoutLineEnds line) more

theorem flatten_groups (lines : List String) : (groups lines).flatten = lines := by
  induction lines using groups.induct with
  | case1 => rw [groups]; rfl
  | case2 line lines ih =>
      rw [groups, List.flatten_cons, ih, List.cons_append, List.takeWhile_append_dropWhile]

/-- Lines that do not go on with what stands before them. -/
def Begins (lines : List String) : Prop :=
  ∀ line, lines.head? = some line → continues line = false

/-- Lines that go on with a logical line join it, whatever follows them, if they do so once. -/
theorem joinFrom_continuations (more : List String) (hmore : ∀ next ∈ more, continues next = true) :
    ∀ (begun : String) (first number : Nat) (rest : List String),
      (joinFrom (some (first, begun)) number (more ++ rest)).fault = none →
      ∀ (first' number' : Nat) (rest' : List String),
        joinFrom (some (first', begun)) number' (more ++ rest')
          = joinFrom (some (first', extend begun more)) (number' + more.length) rest' := by
  induction more with
  | nil => intro begun first number rest _ first' number' rest'; rfl
  | cons line more ih =>
      intro begun first number rest h first' number' rest'
      have hline : isContinuation (withoutLineEnds line) = true := hmore line List.mem_cons_self
      rw [List.cons_append, joinFrom, if_pos hline] at h ⊢
      by_cases hcomment : (isComment begun && !isComment (withoutLineEnds line)) = true
      · rw [if_pos hcomment] at h
        simp [Stream.failed] at h
      · rw [if_neg hcomment] at h ⊢
        rw [ih (fun next hnext => hmore next (List.mem_cons_of_mem _ hnext)) _ _ _ _ h,
          List.length_cons, Nat.add_assoc, Nat.add_comm 1]
        rfl

/-- A logical line is done with when the next line does not go on with it. -/
theorem joinFrom_pending (pending : Nat × String) (number : Nat) {rest : List String}
    (hrest : Begins rest) :
    joinFrom (some pending) number rest = (joinFrom none number rest).after [pending] := by
  cases rest with
  | nil => rfl
  | cons line rest =>
      have hline : isContinuation (withoutLineEnds line) = false := hrest line rfl
      rw [joinFrom, joinFrom, hline]
      rfl

/-- A group of lines makes one logical line, whatever lines follow it. -/
def Joins (group : List String) : Prop :=
  ∀ (number : Nat) (rest : List String), Begins rest →
    joinFrom none number (group ++ rest)
      = (joinFrom none (number + group.length) rest).after [(number, joined group)]

/-- A line with its continuations makes one logical line as soon as nothing goes wrong where it
stands. -/
theorem joins_of_fault_none {line : String} {more rest : List String} {number : Nat}
    (hline : continues line = false) (hmore : ∀ next ∈ more, continues next = true)
    (h : (joinFrom none number (line :: more ++ rest)).fault = none) : Joins (line :: more) := by
  have hbegin (number : Nat) (rest : List String) :
      joinFrom none number (line :: rest)
        = joinFrom (some (number, withoutLineEnds line)) (number + 1) rest := by
    rw [joinFrom, show isContinuation (withoutLineEnds line) = false from hline]
    rfl
  intro number' rest' hrest
  rw [List.cons_append, hbegin] at h ⊢
  rw [joinFrom_continuations more hmore _ _ _ _ h, joinFrom_pending _ _ hrest, List.length_cons,
    Nat.add_assoc, Nat.add_comm 1]
  rfl

theorem begins_dropWhile (lines : List String) : Begins (lines.dropWhile continues) := by
  intro line hline
  have := List.head?_dropWhile_not continues lines
  rw [hline] at this
  simpa using this

/-- The groups of a file that can be read are logical lines of their own. -/
theorem groups_joins (lines : List String) :
    ∀ number, (joinFrom none number lines).fault = none →
      ∀ group ∈ groups lines, Begins group ∧ Joins group := by
  induction lines using groups.induct with
  | case1 =>
      intro number _ group hgroup
      rw [groups] at hgroup
      simp at hgroup
  | case2 line lines ih =>
      intro number h group hgroup
      have hline : continues line = false := by
        cases hcontinues : continues line with
        | false => rfl
        | true =>
            rw [joinFrom, show isContinuation (withoutLineEnds line) = true from hcontinues] at h
            simp [Stream.failed] at h
      have hmore : ∀ next ∈ lines.takeWhile continues, continues next = true := by
        intro next hnext
        exact List.mem_takeWhile_imp hnext
      have hsplit : line :: lines
          = line :: lines.takeWhile continues ++ lines.dropWhile continues := by
        rw [List.cons_append, List.takeWhile_append_dropWhile]
      rw [hsplit] at h
      have hjoins := joins_of_fault_none hline hmore h
      rw [groups] at hgroup
      rcases List.mem_cons.mp hgroup with rfl | hrest
      · refine ⟨?_, hjoins⟩
        intro first hfirst
        obtain rfl : line = first := by simpa using hfirst
        exact hline
      · rw [hjoins number _ (begins_dropWhile lines)] at h
        exact ih _ h group hrest

theorem begins_flatten (gs : List (List String)) (h : ∀ group ∈ gs, Begins group) :
    Begins gs.flatten := by
  induction gs with
  | nil =>
      intro line hline
      simp at hline
  | cons group gs ih =>
      cases group with
      | nil => exact ih fun other hother => h other (List.mem_cons_of_mem _ hother)
      | cons first more => exact h (first :: more) List.mem_cons_self

/-- Groups that are logical lines of their own can be put together. -/
theorem joinFrom_flatten (gs : List (List String)) (h : ∀ group ∈ gs, Begins group ∧ Joins group) :
    ∀ number, (joinFrom none number gs.flatten).fault = none ∧
      (joinFrom none number gs.flatten).items.map (·.2) = gs.map joined := by
  induction gs with
  | nil => intro number; exact ⟨rfl, rfl⟩
  | cons group gs ih =>
      intro number
      have hrest := fun other hother => h other (List.mem_cons_of_mem group hother)
      have hbegins := begins_flatten gs fun other hother => (hrest other hother).1
      rw [List.flatten_cons, (h group List.mem_cons_self).2 number _ hbegins]
      obtain ⟨hfault, hitems⟩ := ih hrest (number + group.length)
      refine ⟨hfault, ?_⟩
      simp only [Stream.after, List.singleton_append, List.map_cons, hitems]

/-! ### Doc comments -/

/-- The doc comments among groups of lines: a group with the doubled comment sign, the comments
after it, and the first group after those. -/
def docGroups : List (List String) → List (List (List String))
  | [] => []
  | group :: rest =>
    if Pattern.docLeader.fits (joined group) then
      let comments := rest.takeWhile fun next => isComment (joined next)
      let after := rest.dropWhile fun next => isComment (joined next)
      (group :: comments ++ after.head?.toList) :: docGroups after.tail
    else
      docGroups rest
termination_by gs => gs.length
decreasing_by
  · have := (List.dropWhile_sublist (fun next => isComment (joined next)) (l := rest)).length_le
    simp only [List.length_cons, List.length_tail]
    omega
  · simp

/-- The doc comments of a file, each as the lines that it is written in. -/
def docComments (lines : List String) : List (List String) :=
  (docGroups (groups lines)).map List.flatten

end Source

/-! ### What is finished has no influence -/

namespace Draft

open Act

/-- A draft before which other entries were finished. -/
def precededBy (front : List Entry) (d : Draft) : Draft :=
  { d with finished := front ++ d.finished }

variable {front : List Entry}

theorem onEntry_commutes {α : Type} (i : Nat) (act : Act Entry α) :
    Commutes (precededBy front) (onEntry i act) := by
  intro d
  have hentries : (precededBy front d).entries = d.entries := rfl
  unfold onEntry
  rw [hentries]
  cases d.entries[i]? with
  | none => rfl
  | some e => rfl

theorem onSelected_commutes (act : Act Entry Unit) :
    Commutes (precededBy front) (onSelected act) := by
  unfold onSelected
  refine Commutes.get_bind (fun _ => rfl) fun d => Commutes.each fun number => ?_
  refine Commutes.get_bind (fun _ => rfl) fun t => ?_
  dsimp only
  split
  · exact Commutes.fail _
  · split
    · exact onEntry_commutes _ act
    · exact Commutes.fail _

theorem begin_commutes : Commutes (precededBy front) begin := by
  refine Commutes.modify fun d => ?_
  show (if d.entries.isEmpty then _ else _) = precededBy front (if d.entries.isEmpty then _ else _)
  split
  · rfl
  · rfl

theorem selectAll_commutes : Commutes (precededBy front) selectAll := by
  unfold selectAll
  refine Commutes.bind (Commutes.modify fun _ => rfl) fun _ => ?_
  refine Commutes.get_bind (fun _ => rfl) fun d => ?_
  exact Commutes.each fun i => onEntry_commutes i _

theorem addHeader_commutes (header : Header) :
    Commutes (precededBy front) (addHeader header) := by
  unfold addHeader
  refine Commutes.get_bind (fun _ => rfl) fun d => ?_
  dsimp only
  split
  · exact Commutes.bind (Commutes.modify fun _ => rfl) fun _ => onSelected_commutes _
  · exact Commutes.bind (Commutes.assume _ _) fun _ => onSelected_commutes _

theorem addDoc_commutes (line : DocLine) : Commutes (precededBy front) (addDoc line) := by
  cases line with
  | all => exact selectAll_commutes
  | header header => exact addHeader_commutes header
  | _ => exact begin_commutes.bind fun _ => onSelected_commutes _

theorem finish_commutes (line : CodeLine) (i : Nat) :
    Commutes (precededBy front) (finish line i) := by
  unfold finish
  refine (onEntry_commutes i _).bind fun _ => (onEntry_commutes i _).bind fun _ => ?_
  refine Commutes.modify fun d => ?_
  simp only [precededBy, List.append_assoc]

theorem finishAll_commutes (line : CodeLine) : Commutes (precededBy front) (finishAll line) := by
  unfold finishAll
  refine Commutes.get_bind (fun _ => rfl) fun d => ?_
  refine Commutes.bind (Commutes.each fun i => finish_commutes line i) fun _ => ?_
  exact Commutes.modify fun _ => rfl

theorem addInitial_commutes (initial : String) :
    Commutes (precededBy front) (addInitial initial) := by
  unfold addInitial
  refine Commutes.bind (Commutes.modify fun d => ?_) fun _ => ?_
  · show (if d.entries.isEmpty then _ else _)
      = precededBy front (if d.entries.isEmpty then _ else _)
    split
    · rfl
    · rfl
  · exact Commutes.get_bind (fun _ => rfl) fun d => onEntry_commutes _ _

theorem addCode_commutes (line : CodeLine) : Commutes (precededBy front) (addCode line) := by
  unfold addCode
  split
  · exact Commutes.modify fun _ => rfl
  · exact (addInitial_commutes _).bind fun _ => finishAll_commutes _
  · exact finishAll_commutes _

/-- Entries that were finished before make no difference to a line. -/
theorem add_commutes (line : SourceLine) : Commutes (precededBy front) (add line) := by
  cases line with
  | code line => exact addCode_commutes line
  | doc line => exact addDoc_commutes line

end Draft

/-! ### One doc comment after the other -/

namespace Reading

open Act Source

/-- A reading before which other entries were finished. -/
def precededBy (front : List Entry) (r : Reading) : Reading :=
  { r with draft := r.draft.precededBy front }

theorem onDraft_commutes {α : Type} {front : List Entry} {act : Act Draft α}
    (h : Commutes (Draft.precededBy front) act) :
    Commutes (precededBy front) (onDraft act) := by
  intro r
  unfold onDraft Act.on
  dsimp only
  rw [show (r.precededBy front).draft = r.draft.precededBy front from rfl, h r.draft]
  rfl

theorem take_commutes {front : List Entry} (text : String) :
    Commutes (precededBy front) (take text) := by
  unfold take
  refine Commutes.get_bind (fun _ => rfl) fun r => ?_
  refine Commutes.bind (Commutes.modify fun _ => rfl) fun _ => ?_
  refine Commutes.bind (Commutes.ofExcept _) fun line => ?_
  cases line with
  | none => exact Commutes.pure ()
  | some line => exact onDraft_commutes (Draft.add_commutes line)

/-- Reads groups of lines. -/
def takeGroups (gs : List (List String)) : Act Reading Unit :=
  Act.each gs fun group => take (joined group)

/-- Comes to the end of a file. -/
def close : Act Reading Unit :=
  onDraft (Draft.addCode .endOfFile)

/-- Reads groups of lines as a file of their own. -/
def takeAlone (gs : List (List String)) : Act Reading Unit := do
  takeGroups gs
  close

theorem takeGroups_commutes {front : List Entry} (gs : List (List String)) :
    Commutes (precededBy front) (takeGroups gs) :=
  Commutes.each fun _ => take_commutes _

theorem takeAlone_commutes {front : List Entry} (gs : List (List String)) :
    Commutes (precededBy front) (takeAlone gs) :=
  (takeGroups_commutes gs).bind fun _ => onDraft_commutes (Draft.addCode_commutes _)

/-- A file between doc comments, with the entries that are finished. -/
def idle (finished : List Entry) : Reading :=
  { draft := { finished } }

theorem idle_eq_precededBy (finished : List Entry) : idle finished = precededBy finished {} := by
  simp [idle, precededBy, Draft.precededBy]

theorem precededBy_idle (front finished : List Entry) :
    precededBy front (idle finished) = idle (front ++ finished) :=
  rfl

theorem close_idle (finished : List Entry) :
    close (idle finished) = ⟨idle finished, [], .ok ()⟩ :=
  rfl

theorem take_inDoc (text : String) (r : Reading) :
    (take text r).state.inDoc = staysInDoc r.inDoc text := by
  obtain ⟨inDoc, d⟩ := r
  match hline : lineOf inDoc text with
  | .error cause => rw [take_error hline d]
  | .ok none => rw [take_none hline d]
  | .ok (some line) => rw [take_some hline d]

/-- A sound reading outside a doc comment is as at the beginning, except for what is finished. -/
theorem Sound.eq_idle {r : Reading} (h : r.Sound) (hout : r.inDoc = false) :
    r = idle r.draft.finished := by
  obtain ⟨inDoc, entries, selection, finished⟩ := r
  obtain rfl : entries = [] := h.outside hout
  obtain rfl : selection = [] := h.draft.empty_iff.mp rfl
  obtain rfl : inDoc = false := hout
  rfl

/-- A line outside doc comments that begins none makes no difference. -/
theorem take_idle {text : String} (h : Pattern.docLeader.fits text = false)
    (finished : List Entry) :
    take text (idle finished) = ⟨idle finished, [], .ok ()⟩ := by
  have hline : lineOf false text = .ok none := by simp [lineOf, h]
  rw [idle, take_none hline]
  simp [staysInDoc, h]

/-- Comments leave a doc comment open. -/
theorem takeGroups_comments (gs : List (List String))
    (h : ∀ group ∈ gs, isComment (joined group) = true) :
    ∀ (r t : Reading) (warnings : List Warning), r.inDoc = true →
      takeGroups gs r = ⟨t, warnings, .ok ()⟩ → t.inDoc = true := by
  induction gs with
  | nil =>
      intro r t warnings hr ht
      obtain rfl : r = t := congrArg Outcome.state ht
      exact hr
  | cons group gs ih =>
      intro r t warnings hr ht
      rw [takeGroups, each_cons, bind_eq_ok_iff] at ht
      obtain ⟨s, before, a, after, hs, ht, -⟩ := ht
      refine ih (fun other hother => h other (List.mem_cons_of_mem _ hother)) s t after ?_ ht
      have hinDoc := take_inDoc (joined group) r
      rw [hs, hr] at hinDoc
      rw [hinDoc]
      exact h group List.mem_cons_self

theorem takeGroups_append (front back : List (List String)) :
    takeGroups (front ++ back) = takeGroups front >>= fun _ => takeGroups back :=
  each_append front back _

theorem takeGroups_sound (gs : List (List String)) {r : Reading} (h : r.Sound) :
    Ensures (takeGroups gs) r (fun _ t => t.Sound) Allowed := by
  refine Ensures.each (fun _ (t : Reading) => t.Sound) h ?_
  intro _ group _ t _ ht
  exact take_sound (joined group) ht

/-- A doc comment that ends with a line of code leaves the file between doc comments. -/
theorem takeGroups_docComment {group term : List String} {comments : List (List String)}
    (hleader : Pattern.docLeader.fits (joined group) = true)
    (hcomments : ∀ next ∈ comments, isComment (joined next) = true)
    (hterm : isComment (joined term) = false) {t : Reading} {warnings : List Warning}
    (h : takeGroups (group :: comments ++ [term]) {} = ⟨t, warnings, .ok ()⟩) :
    t = idle t.draft.finished := by
  refine ((takeGroups_sound _ sound_start).of_ok h).eq_idle ?_
  rw [takeGroups_append, bind_eq_ok_iff] at h
  obtain ⟨middle, before, _, after, hmiddle, hterm', -⟩ := h
  rw [takeGroups, each_cons, bind_eq_ok_iff] at hmiddle
  obtain ⟨first, _, _, _, hfirst, hrest, -⟩ := hmiddle
  have hopen : first.inDoc = true := by
    have hinDoc := take_inDoc (joined group) {}
    rw [hfirst] at hinDoc
    exact hinDoc.trans hleader
  have hstill := takeGroups_comments comments hcomments first middle _ hopen hrest
  rw [takeGroups, each_singleton] at hterm'
  have hinDoc := take_inDoc (joined term) middle
  rw [hterm', hstill] at hinDoc
  exact hinDoc.trans hterm

/-- A doc comment that a line of code ends gives what it gives alone, and then nothing of it is left
but its entries. -/
theorem takeAlone_docComment {group term : List String} {comments later : List (List String)}
    (hleader : Pattern.docLeader.fits (joined group) = true)
    (hcomments : ∀ next ∈ comments, isComment (joined next) = true)
    (hterm : isComment (joined term) = false) {finished : List Entry} {t : Reading}
    {warnings : List Warning}
    (h : takeAlone ((group :: comments ++ [term]) ++ later) (idle finished)
      = ⟨t, warnings, .ok ()⟩) :
    ∃ u before further,
      takeAlone (group :: comments ++ [term]) {} = ⟨u, before, .ok ()⟩
      ∧ takeAlone later (idle (finished ++ u.draft.finished)) = ⟨t, further, .ok ()⟩
      ∧ warnings = before ++ further := by
  rw [takeAlone, takeGroups_append, bind_assoc, bind_eq_ok_iff] at h
  obtain ⟨s, before, _, further, hs, ht, rfl⟩ := h
  rw [idle_eq_precededBy] at hs
  obtain ⟨u, hu, rfl⟩ := (takeGroups_commutes _).of_ok hs
  have hidle := takeGroups_docComment hleader hcomments hterm hu
  refine ⟨u, before, further, ?_, ?_, rfl⟩
  · rw [takeAlone, bind_apply_ok _ hu, hidle, close_idle]
    simp
  · rw [hidle, precededBy_idle] at ht
    exact ht

/-- Groups of lines give what their doc comments give, each read as a file of its own. -/
theorem takeAlone_docGroups (gs : List (List String)) :
    ∀ (finished : List Entry) (t : Reading) (warnings : List Warning),
      takeAlone gs (idle finished) = ⟨t, warnings, .ok ()⟩ →
        (∀ comment ∈ docGroups gs, (takeAlone comment {}).result = .ok ())
        ∧ t.draft.finished = finished
            ++ (docGroups gs).flatMap (fun comment => (takeAlone comment {}).state.draft.finished)
        ∧ warnings = (docGroups gs).flatMap (fun comment => (takeAlone comment {}).warnings) := by
  induction gs using docGroups.induct with
  | case1 =>
      intro finished t warnings h
      have hend : takeAlone [] (idle finished) = ⟨idle finished, [], .ok ()⟩ := rfl
      rw [hend] at h
      obtain ⟨rfl, rfl, -⟩ := Outcome.mk.inj h
      simp [docGroups, idle]
  | case2 group rest hleader after ih =>
      intro finished t warnings h
      have hcomments : ∀ next ∈ rest.takeWhile (fun next => isComment (joined next)),
          isComment (joined next) = true := by
        intro next hnext
        exact List.mem_takeWhile_imp (p := fun next => isComment (joined next)) hnext
      generalize hc : rest.takeWhile (fun next => isComment (joined next)) = comments at hcomments
      have hsplit : rest = comments ++ after := by
        rw [← hc]
        exact List.takeWhile_append_dropWhile.symm
      have hdoc : docGroups (group :: rest)
          = (group :: comments ++ after.head?.toList) :: docGroups after.tail := by
        rw [docGroups, if_pos hleader, hc]
      rw [hdoc]
      cases hafter : after with
      | nil =>
          rw [hafter, List.append_nil] at hsplit
          rw [hsplit, idle_eq_precededBy] at h
          obtain ⟨alone, halone, rfl⟩ := (takeAlone_commutes _).of_ok h
          simp only [List.head?_nil, Option.toList_none, List.append_nil, List.tail_nil, docGroups,
            List.mem_singleton, forall_eq, List.flatMap_singleton, halone]
          exact ⟨trivial, rfl, trivial⟩
      | cons term later =>
          have hterm : isComment (joined term) = false := by
            have hhead := List.head?_dropWhile_not (fun next => isComment (joined next)) rest
            rw [show rest.dropWhile _ = term :: later from hafter] at hhead
            simpa using hhead
          have hwhole : group :: rest = (group :: comments ++ [term]) ++ later := by
            rw [hsplit, hafter]
            simp
          rw [hwhole] at h
          obtain ⟨u, before, further, halone, ht, rfl⟩ :=
            takeAlone_docComment hleader hcomments hterm h
          rw [hafter, List.tail_cons] at ih
          obtain ⟨hresults, hfinished, hwarnings⟩ := ih _ t further ht
          simp only [List.head?_cons, Option.toList_some, List.tail_cons, List.forall_mem_cons,
            List.flatMap_cons, halone]
          refine ⟨⟨trivial, hresults⟩, ?_, ?_⟩
          · rw [hfinished, List.append_assoc]
          · rw [hwarnings]
  | case3 group rest hleader ih =>
      intro finished t warnings h
      have hother : Pattern.docLeader.fits (joined group) = false := by simpa using hleader
      rw [takeAlone, takeGroups, each_cons, bind_assoc,
        bind_apply_ok _ (take_idle hother finished)] at h
      rw [docGroups, if_neg hleader]
      exact ih finished t warnings h

/-- A file that is made of logical lines is read line by line. -/
theorem takeFile_flatten {gs : List (List String)} (h : ∀ group ∈ gs, Begins group ∧ Joins group) :
    takeFile gs.flatten = takeAlone gs := by
  obtain ⟨hfault, hitems⟩ := joinFrom_flatten gs h 0
  unfold takeFile takeAlone takeGroups logicalLines
  rw [hfault, ← each_map (fun line : Nat × String => line.2) _ take, hitems, each_map]
  rfl

theorem fault_none_of_takeFile {lines : List String} (h : (takeFile lines {}).result = .ok ()) :
    (logicalLines lines).fault = none := by
  have hrun : takeFile lines {}
      = ⟨(takeFile lines {}).state, (takeFile lines {}).warnings, .ok ()⟩ := by rw [← h]
  rw [takeFile, bind_eq_ok_iff] at hrun
  obtain ⟨t, before, _, after, -, hend, -⟩ := hrun
  cases hfault : (logicalLines lines).fault with
  | none => rfl
  | some fault =>
      rw [hfault] at hend
      simp [onDraft, Act.on, finish, Act.stop] at hend

end Reading

/-! ### The entries of a file -/

namespace Source

theorem subset_of_mem_docGroups (gs : List (List String)) :
    ∀ comment ∈ docGroups gs, comment ⊆ gs := by
  induction gs using docGroups.induct with
  | case1 => simp [docGroups]
  | case2 group rest hleader after ih =>
      intro comment hcomment
      rw [docGroups, if_pos hleader] at hcomment
      have hafter : after ⊆ rest := List.dropWhile_subset _
      have hcomments := List.takeWhile_subset (fun next => isComment (joined next)) (l := rest)
      intro next hnext
      rcases List.mem_cons.mp hcomment with rfl | hlater
      · simp only [List.cons_append, List.mem_cons, List.mem_append, Option.mem_toList] at hnext
        rcases hnext with rfl | hnext | hnext
        · exact List.mem_cons_self
        · exact List.mem_cons_of_mem _ (hcomments hnext)
        · exact List.mem_cons_of_mem _ (hafter (List.mem_of_head? hnext))
      · exact List.mem_cons_of_mem _ (hafter (List.mem_of_mem_tail (ih comment hlater hnext)))
  | case3 group rest hleader ih =>
      intro comment hcomment
      rw [docGroups, if_neg hleader] at hcomment
      exact List.subset_cons_of_subset _ (ih comment hcomment)

theorem entries_ok_iff (file : Option String) (lines : List String) :
    (entries file lines).result = .ok () ↔ (Reading.takeFile lines {}).result = .ok () := by
  have halike := (Reading.entries_eq_takeFile file lines).result
  constructor
  · intro h
    rw [h] at halike
    cases hresult : (Reading.takeFile lines {}).result with
    | ok value => rfl
    | error fault => rw [hresult] at halike; simp [Except.mapError] at halike
  · intro h
    rw [h] at halike
    cases hresult : (entries file lines).result with
    | ok value => rfl
    | error fault => rw [hresult] at halike; simp [Except.mapError] at halike

/--
**The entries of a file are those of its doc comments, each read as a file of its own.**

So are the warnings, and none of the doc comments has a fault if the file has none.  Neither a line
outside doc comments nor another doc comment has any influence on an entry.
-/
theorem entries_docComments (file : Option String) (lines : List String)
    (h : (entries file lines).result = .ok ()) :
    (∀ comment ∈ docComments lines, (entries file comment).result = .ok ())
    ∧ (entries file lines).state
        = (docComments lines).flatMap (fun comment => (entries file comment).state)
    ∧ (entries file lines).warnings
        = (docComments lines).flatMap (fun comment => (entries file comment).warnings) := by
  have hread := (entries_ok_iff file lines).mp h
  have hfault := Reading.fault_none_of_takeFile hread
  have hjoins := groups_joins lines 0 hfault
  have hlines : Reading.takeFile lines = Reading.takeAlone (groups lines) := by
    rw [← Reading.takeFile_flatten hjoins, flatten_groups]
  have halone : ∀ comment ∈ docGroups (groups lines),
      Reading.takeFile comment.flatten = Reading.takeAlone comment := by
    intro comment hcomment
    refine Reading.takeFile_flatten fun group hgroup => hjoins group ?_
    exact subset_of_mem_docGroups _ comment hcomment hgroup
  obtain ⟨hresults, hfinished, hwarnings⟩ := Reading.takeAlone_docGroups (groups lines) []
    (Reading.takeFile lines {}).state (Reading.takeFile lines {}).warnings (by
      rw [← hlines, ← hread]
      rfl)
  have hsame := Reading.entries_eq_takeFile file
  refine ⟨?_, ?_, ?_⟩
  · intro comment hcomment
    obtain ⟨groups', hgroups', rfl⟩ := List.mem_map.mp hcomment
    rw [entries_ok_iff, halone groups' hgroups']
    exact hresults groups' hgroups'
  · rw [(hsame lines).state, hfinished, docComments, List.flatMap_map, List.nil_append]
    refine List.flatMap_congr fun comment hcomment => ?_
    rw [(hsame comment.flatten).state, halone comment hcomment]
  · rw [(hsame lines).warnings, hwarnings, docComments, List.flatMap_map]
    refine List.flatMap_congr fun comment hcomment => ?_
    rw [(hsame comment.flatten).warnings, halone comment hcomment]

/-- Two doc comments, one over two lines of a function and one at the end of the file, with other
lines around them. -/
theorem entries_docComments_two :
    let first := ["\"\" Adds {item}.\n", "\" @public\n", "function my#Add(item,\n", "\\ ...)\n"]
    let second := ["\"\" @section Notes, notes\n", "\" Nothing more.\n"]
    let lines := ["let s:x = 1\n"] ++ first ++ ["\" A remark.\n", "endfunction\n"] ++ second
    docComments lines = [first, second]
    ∧ (entries none lines).state = (entries none first).state ++ (entries none second).state
    ∧ (entries none lines).state.length = 2 := by
  intro first second lines
  have hcut : docComments lines = [first, second] := by decide +kernel
  have hread : (entries none lines).result = .ok () := by decide +kernel
  refine ⟨hcut, ?_, by decide +kernel⟩
  have hstate := (entries_docComments none lines hread).2.1
  rw [hcut] at hstate
  simpa using hstate

end Source

end PluginHelp
