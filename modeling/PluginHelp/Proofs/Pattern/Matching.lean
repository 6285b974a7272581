/-
What it means that a pattern matches.

`Pattern.run` looks for a way through a pattern that lets the rest match too.  Three things are said
about it without opening it up again.

  * `Reaches p s t`: there is a way through `p` that leads from the place `s` to the place `t`.
    Whatever `run` finds it finds along such a way, so this is what a match tells about its text.
  * `Takes p s t`: the way to `t` is the first one that is tried, so it is the one that counts as
    soon as the rest matches from `t`.  This is how a text is seen to match.
  * `Steps p text`: the one way through `p` reads `text`.  Then it is known too what happens if the
    rest does not match: a repetition of such texts gives them back one by one.
-/
import PluginHelp.Pattern.Basic

namespace PluginHelp

/-! ### Places -/

namespace Scan

/-- The text between two places is what was read on the way. -/
theorem since_eq {s t : Scan} {text : List Char} (h : t.read = text.reverse ++ s.read) :
    t.since s = String.ofList text := by
  unfold since
  rw [h, List.length_append, Nat.add_sub_cancel, List.take_left, List.reverse_reverse]

end Scan

namespace Pattern

/-! ### Ways through a pattern -/

/-- There is a way through a pattern from one place to another. -/
inductive Reaches : Pattern → Scan → Scan → Prop
  | empty {s} : Reaches empty s s
  | one {accepts read c rest captured} (h : accepts c = true) :
    Reaches (one accepts) ⟨read, c :: rest, captured⟩ ⟨c :: read, rest, captured⟩
  | test {holds s} (h : holds s.read s.rest = true) : Reaches (test holds) s s
  | seq {first second s t u} :
    Reaches first s t → Reaches second t u → Reaches (seq first second) s u
  | altFirst {first second s t} : Reaches first s t → Reaches (alt first second) s t
  | altSecond {first second s t} : Reaches second s t → Reaches (alt first second) s t
  | manyNone {body s} : Reaches (many body) s s
  | manyMore {body s t u} : Reaches body s t → Reaches (many body) t u → Reaches (many body) s u
  | reluctantNone {body s} : Reaches (reluctant body) s s
  | reluctantMore {body s t u} :
    Reaches body s t → Reaches (reluctant body) t u → Reaches (reluctant body) s u
  | capture {number body s t} :
    Reaches body s t → Reaches (capture number body) s (t.capture number s)

variable {p q body : Pattern} {s t u : Scan} {β : Type}

/-- A step that finds only what lies along the ways of a pattern. -/
def Follows (p : Pattern) (step : (Scan → Option β) → Scan → Option β) : Prop :=
  ∀ next s b, step next s = some b → ∃ t, Reaches p s t ∧ next t = some b

theorem Follows.greedily {step : (Scan → Option β) → Scan → Option β} (h : Follows body step)
    {next : Scan → Option β} {b : β} (bound : Nat) :
    ∀ s, greedily step next bound s = some b → ∃ t, Reaches (many body) s t ∧ next t = some b := by
  induction bound with
  | zero => exact fun s hs => ⟨s, .manyNone, hs⟩
  | succ bound ih =>
      intro s hs
      rw [Pattern.greedily] at hs
      split at hs
      · rename_i found hfound
        obtain ⟨t, hst, ht⟩ := h _ _ _ hfound
        obtain ⟨u, htu, hu⟩ := ih t (ht.trans hs)
        exact ⟨u, .manyMore hst htu, hu⟩
      · exact ⟨s, .manyNone, hs⟩

theorem Follows.reluctantly {step : (Scan → Option β) → Scan → Option β} (h : Follows body step)
    {next : Scan → Option β} {b : β} (bound : Nat) :
    ∀ s, reluctantly step next bound s = some b →
      ∃ t, Reaches (reluctant body) s t ∧ next t = some b := by
  induction bound with
  | zero => exact fun s hs => ⟨s, .reluctantNone, hs⟩
  | succ bound ih =>
      intro s hs
      rw [Pattern.reluctantly] at hs
      split at hs
      · rename_i found hfound
        exact ⟨s, .reluctantNone, hfound.trans hs⟩
      · obtain ⟨t, hst, ht⟩ := h _ _ _ hs
        obtain ⟨u, htu, hu⟩ := ih t ht
        exact ⟨u, .reluctantMore hst htu, hu⟩

/-- Whatever matching finds, it finds along a way through the pattern. -/
theorem run_follows (p : Pattern) : Follows p (p.run (β := β)) := by
  induction p with
  | empty => exact fun next s b h => ⟨s, .empty, h⟩
  | one accepts =>
      rintro next ⟨read, rest, captured⟩ b h
      cases rest with
      | nil => cases h
      | cons c rest =>
          rw [run] at h
          dsimp only at h
          split at h
          · rename_i hc
            exact ⟨_, .one hc, h⟩
          · cases h
  | test holds =>
      intro next s b h
      rw [run] at h
      split at h
      · rename_i hs
        exact ⟨s, .test hs, h⟩
      · cases h
  | seq first second ihfirst ihsecond =>
      intro next s b h
      obtain ⟨t, hst, ht⟩ := ihfirst _ _ _ h
      obtain ⟨u, htu, hu⟩ := ihsecond _ _ _ ht
      exact ⟨u, .seq hst htu, hu⟩
  | alt first second ihfirst ihsecond =>
      intro next s b h
      rw [run] at h
      split at h
      · rename_i found hfound
        obtain ⟨t, hst, ht⟩ := ihfirst _ _ _ hfound
        exact ⟨t, .altFirst hst, ht.trans h⟩
      · obtain ⟨t, hst, ht⟩ := ihsecond _ _ _ h
        exact ⟨t, .altSecond hst, ht⟩
  | many body ih => exact fun next s b h => ih.greedily _ s h
  | reluctant body ih => exact fun next s b h => ih.reluctantly _ s h
  | capture number body ih =>
      intro next s b h
      obtain ⟨t, hst, ht⟩ := ih _ _ _ h
      exact ⟨_, .capture hst, ht⟩

/-- A way through a pattern only reads on. -/
theorem Reaches.text (h : Reaches p s t) :
    ∃ text, t.read = text.reverse ++ s.read ∧ s.rest = text ++ t.rest := by
  induction h with
  | empty | test | manyNone | reluctantNone => exact ⟨[], rfl, rfl⟩
  | @one accepts read c rest captured _ => exact ⟨[c], rfl, rfl⟩
  | altFirst _ ih | altSecond _ ih | capture _ ih => exact ih
  | seq _ _ ih ih' | manyMore _ _ ih ih' | reluctantMore _ _ ih ih' =>
      obtain ⟨text, hread, hrest⟩ := ih
      obtain ⟨more, hread', hrest'⟩ := ih'
      refine ⟨text ++ more, ?_, ?_⟩
      · rw [hread', hread, List.reverse_append, List.append_assoc]
      · rw [hrest, hrest', List.append_assoc]

theorem Reaches.of_seq (h : Reaches (p ++ q) s u) : ∃ t, Reaches p s t ∧ Reaches q t u := by
  cases h with
  | seq hp hq => exact ⟨_, hp, hq⟩

theorem Reaches.of_test {holds : List Char → List Char → Bool}
    (h : Reaches (Pattern.test holds) s t) : t = s ∧ holds s.read s.rest = true := by
  cases h with
  | test hs => exact ⟨rfl, hs⟩

theorem Reaches.of_capture {number : Nat} (h : Reaches (Pattern.capture number body) s u) :
    ∃ t, Reaches body s t ∧ u = t.capture number s := by
  cases h with
  | capture hbody => exact ⟨_, hbody, rfl⟩

/-- A match at the start of a text is a way through the pattern. -/
theorem match?_reaches {text : String} {m : Match} (h : p.match? text = some m) :
    ∃ t, Reaches p (.start text.toList) t ∧ m = p.found (.start text.toList) t := by
  unfold match? at h
  obtain ⟨t, hend, rfl⟩ := Option.map_eq_some_iff.mp h
  obtain ⟨u, hu, htu⟩ := run_follows p _ _ _ hend
  simp only [Bool.false_and, Bool.false_eq_true, if_false, Option.some.injEq] at htu
  exact ⟨t, htu ▸ hu, rfl⟩

theorem lookup_capture (number : Nat) (s t : Scan) :
    (t.capture number s).captured.lookup number = some (t.since s) :=
  List.lookup_cons_self

/-- The text of a capture is what was captured last under its number. -/
theorem group?_found {number : Nat} (hcount : number < p.groupCount) (s t : Scan) :
    (p.found s t).group? (number + 1) = t.captured.lookup (number + 1) := by
  unfold Match.group? found
  simp [hcount]

theorem group_found {number : Nat} (hcount : number < p.groupCount) (s t : Scan) :
    (p.found s t).group (number + 1) = (t.captured.lookup (number + 1)).getD "" :=
  congrArg (·.getD "") (group?_found hcount s t)

/-- What the last part of a pattern captures is the text of a way through it. -/
theorem group_of_last {text : String} {m : Match} {number : Nat}
    (h : (p ++ capture (number + 1) body).match? text = some m) :
    ∃ s t, Reaches body s t ∧ m.group (number + 1) = t.since s := by
  obtain ⟨u, hu, rfl⟩ := match?_reaches h
  cases hu with
  | seq hfirst hlast =>
      cases hlast with
      | capture hbody =>
          refine ⟨_, _, hbody, ?_⟩
          have hcount : number < (p ++ capture (number + 1) body).groupCount := by
            show number < max p.groupCount (max (number + 1) body.groupCount)
            omega
          rw [group_found hcount, lookup_capture, Option.getD_some]

/-! ### The first way -/

/-- The first way that is tried leads from one place to another. -/
def Takes (p : Pattern) (s t : Scan) : Prop :=
  ∀ ⦃β : Type⦄ (next : Scan → Option β) (b : β), next t = some b → p.run next s = some b

/-- There is no way from a place. -/
def Refuses (p : Pattern) (s : Scan) : Prop :=
  ∀ ⦃β : Type⦄ (next : Scan → Option β), p.run next s = none

theorem takes_one {accepts : Char → Bool} {read rest : List Char} {captured : List (Nat × String)}
    {c : Char} (h : accepts c = true) :
    Takes (one accepts) ⟨read, c :: rest, captured⟩ ⟨c :: read, rest, captured⟩ := by
  intro β next b hnext
  rw [run]
  dsimp only
  rw [if_pos h]
  exact hnext

theorem takes_char (c : Char) (read rest : List Char) (captured : List (Nat × String)) :
    Takes (char c) ⟨read, c :: rest, captured⟩ ⟨c :: read, rest, captured⟩ :=
  takes_one (BEq.rfl)

theorem Takes.seq (h : Takes p s t) (k : Takes q t u) : Takes (p ++ q) s u :=
  fun _ next b hb => h (q.run next) b (k next b hb)

theorem Takes.assoc {r : Pattern} (h : Takes (p ++ (q ++ r)) s t) : Takes (p ++ q ++ r) s t :=
  h

theorem Takes.alt (h : Takes p s t) : Takes (p <|> q) s t := by
  intro β next b hb
  show (Pattern.alt p q).run next s = some b
  rw [run, h next b hb]

/-- Where the first side of a choice does not match, the second one counts. -/
theorem Takes.altSecond (h : Takes q s t) (hp : Refuses p s) : Takes (p <|> q) s t := by
  intro β next b hb
  show (Pattern.alt p q).run next s = some b
  rw [run, hp next]
  exact h next b hb

/-- A choice may be made with a view to what comes after it. -/
theorem Takes.altFirst_seq {r : Pattern} (h : Takes (p ++ r) s t) : Takes ((p <|> q) ++ r) s t := by
  intro β next b hb
  show (Pattern.alt p q).run (r.run next) s = some b
  rw [run, show p.run (r.run next) s = some b from h next b hb]

theorem Takes.altSecond_seq {r : Pattern} (h : Takes (q ++ r) s t) (hp : Refuses (p ++ r) s) :
    Takes ((p <|> q) ++ r) s t := by
  intro β next b hb
  show (Pattern.alt p q).run (r.run next) s = some b
  rw [run, show p.run (r.run next) s = none from hp next]
  exact h next b hb

/-- What is read on the way through a captured pattern is captured. -/
theorem Takes.capture {read text rest : List Char} {captured : List (Nat × String)}
    (h : Takes p ⟨read, text ++ rest, captured⟩ ⟨text.reverse ++ read, rest, captured⟩)
    (number : Nat) :
    Takes (.capture number p) ⟨read, text ++ rest, captured⟩
      ⟨text.reverse ++ read, rest, (number, String.ofList text) :: captured⟩ := by
  intro β next b hb
  refine h (fun t => next (t.capture number ⟨read, text ++ rest, captured⟩)) b ?_
  dsimp only [Scan.capture]
  rw [Scan.since_eq rfl]
  exact hb

theorem refuses_one_of_rest {accepts : Char → Bool}
    (h : ∀ c, s.rest.head? = some c → accepts c = false) : Refuses (one accepts) s := by
  intro β next
  rw [run]
  split
  · rfl
  · rename_i c rest hrest
    rw [h c (by rw [hrest]; rfl), if_neg (by decide)]

theorem refuses_of_not_reaches (h : ∀ t, ¬ Reaches p s t) : Refuses p s := by
  intro β next
  cases hrun : p.run next s with
  | none => rfl
  | some b =>
      obtain ⟨t, hreaches, -⟩ := run_follows p _ _ _ hrun
      exact (h t hreaches).elim

theorem Refuses.seq (h : Refuses p s) : Refuses (p ++ q) s :=
  fun _ _ => h _

theorem Refuses.alt (h : Refuses p s) (k : Refuses q s) : Refuses (p <|> q) s := by
  intro β next
  show (Pattern.alt p q).run next s = none
  rw [run, h next]
  exact k next

theorem Refuses.alt_seq {r : Pattern} (h : Refuses (p ++ r) s) (k : Refuses (q ++ r) s) :
    Refuses ((p <|> q) ++ r) s := by
  intro β next
  show (Pattern.alt p q).run (r.run next) s = none
  rw [run, show p.run (r.run next) s = none from h next]
  exact k next

theorem Refuses.capture (h : Refuses p s) (number : Nat) : Refuses (capture number p) s :=
  fun _ _ => h _

/-- What may be missing is missing where it does not match. -/
theorem Refuses.optional (h : Refuses p s) : Takes (optional p) s s :=
  Takes.altSecond (fun _ _ _ hb => hb) h

/-- What may be repeated is not there at all where it does not match. -/
theorem Refuses.many (h : Refuses p s) : Takes (many p) s s := by
  intro β next b hb
  show greedily p.run next s.rest.length s = some b
  cases s.rest.length with
  | zero => exact hb
  | succ bound =>
      rw [greedily, h]
      exact hb

/-- A repetition takes texts of its body one after the other, up to where there is none. -/
theorem takes_many {units : List (List Char)} {rest : List Char} {captured : List (Nat × String)}
    (hunits : ∀ unit ∈ units, unit ≠ [] ∧ ∀ read back,
      Takes body ⟨read, unit ++ back, captured⟩ ⟨unit.reverse ++ read, back, captured⟩)
    (hrest : ∀ read, Refuses body ⟨read, rest, captured⟩) (read : List Char) :
    Takes (many body) ⟨read, units.flatten ++ rest, captured⟩
      ⟨units.flatten.reverse ++ read, rest, captured⟩ := by
  intro β next b hb
  show greedily body.run next (units.flatten ++ rest).length
    ⟨read, units.flatten ++ rest, captured⟩ = some b
  -- The bound is larger than needed, and has to be so for the induction.
  have key : ∀ (units : List (List Char)) (read : List Char) (bound : Nat),
      (∀ unit ∈ units, unit ≠ [] ∧ ∀ read back,
        Takes body ⟨read, unit ++ back, captured⟩ ⟨unit.reverse ++ read, back, captured⟩) →
      units.flatten.length ≤ bound →
      next ⟨units.flatten.reverse ++ read, rest, captured⟩ = some b →
      greedily body.run next bound ⟨read, units.flatten ++ rest, captured⟩ = some b := by
    intro units
    induction units with
    | nil =>
        intro read bound _ _ hb
        cases bound with
        | zero => exact hb
        | succ bound =>
            rw [greedily, List.flatten_nil, List.nil_append, hrest]
            exact hb
    | cons unit units ih =>
        intro read bound hunits hbound hb
        obtain ⟨⟨hne, hunit⟩, hunits⟩ := List.forall_mem_cons.mp hunits
        have hpos := List.length_pos_iff.mpr hne
        rw [List.flatten_cons, List.length_append] at hbound
        obtain ⟨less, rfl⟩ : ∃ less, bound = less + 1 := ⟨bound - 1, by omega⟩
        rw [List.flatten_cons, List.reverse_append, List.append_assoc] at hb
        have hrun := ih (unit.reverse ++ read) less hunits (by omega) hb
        rw [greedily, List.flatten_cons, List.append_assoc, hunit read _ _ b hrun]
  exact key units read _ hunits (by simp) hb

/-- A repeated class takes all characters of it, up to the first one that is not. -/
theorem takes_many_one {accepts : Char → Bool} {text rest : List Char}
    {captured : List (Nat × String)} (htext : ∀ c ∈ text, accepts c = true)
    (hrest : ∀ c, rest.head? = some c → accepts c = false) (read : List Char) :
    Takes (many (one accepts)) ⟨read, text ++ rest, captured⟩
      ⟨text.reverse ++ read, rest, captured⟩ := by
  have hunits : ∀ unit ∈ text.map fun c => [c], unit ≠ [] ∧ ∀ read back,
      Takes (one accepts) ⟨read, unit ++ back, captured⟩
        ⟨unit.reverse ++ read, back, captured⟩ := by
    intro unit hunit
    obtain ⟨c, hc, rfl⟩ := List.mem_map.mp hunit
    exact ⟨List.cons_ne_nil c [], fun read back => takes_one (htext c hc)⟩
  have htakes := takes_many hunits (fun read => refuses_one_of_rest hrest) read
  rwa [← List.flatMap_def, List.flatMap_singleton'] at htakes

/-- The characters of a class in a row, at least one. -/
theorem takes_oneOrMore {accepts : Char → Bool} {text rest : List Char}
    {captured : List (Nat × String)} (hne : text ≠ []) (htext : ∀ c ∈ text, accepts c = true)
    (hrest : ∀ c, rest.head? = some c → accepts c = false) (read : List Char) :
    Takes (oneOrMore (one accepts)) ⟨read, text ++ rest, captured⟩
      ⟨text.reverse ++ read, rest, captured⟩ := by
  obtain ⟨c, text, rfl⟩ := List.exists_cons_of_ne_nil hne
  obtain ⟨hc, htext⟩ := List.forall_mem_cons.mp htext
  rw [List.reverse_cons, List.append_assoc]
  exact (takes_one hc).seq (takes_many_one htext hrest (c :: read))

/-! ### The only way -/

/-- There is one way through a pattern for a text, whatever comes behind it. -/
def Steps (body : Pattern) (text : List Char) : Prop :=
  ∀ ⦃β : Type⦄ (next : Scan → Option β) (read rest : List Char) (captured : List (Nat × String)),
    body.run next ⟨read, text ++ rest, captured⟩ = next ⟨text.reverse ++ read, rest, captured⟩

theorem steps_one {accepts : Char → Bool} {c : Char} (h : accepts c = true) :
    Steps (one accepts) [c] :=
  fun _ _ _ _ _ => if_pos h

theorem Steps.seq {front back : List Char} (hp : Steps p front) (hq : Steps q back) :
    Steps (p ++ q) (front ++ back) := by
  intro β next read rest captured
  show p.run (q.run next) _ = _
  rw [List.append_assoc, hp, hq, List.reverse_append, List.append_assoc]

theorem Steps.altFirst {text : List Char} (hp : Steps p text)
    (hq : ∀ read rest captured, Refuses q ⟨read, text ++ rest, captured⟩) :
    Steps (p <|> q) text := by
  intro β next read rest captured
  show (Pattern.alt p q).run next _ = _
  rw [run, hp, hq]
  split
  · rename_i hnext
    exact hnext.symm
  · rename_i hnext
    exact hnext.symm

theorem Steps.altSecond {text : List Char} (hq : Steps q text)
    (hp : ∀ read rest captured, Refuses p ⟨read, text ++ rest, captured⟩) :
    Steps (p <|> q) text := by
  intro β next read rest captured
  show (Pattern.alt p q).run next _ = _
  rw [run, hp]
  exact hq next read rest captured

theorem Steps.takes {text : List Char} (h : Steps p text) (read rest : List Char)
    (captured : List (Nat × String)) :
    Takes p ⟨read, text ++ rest, captured⟩ ⟨text.reverse ++ read, rest, captured⟩ :=
  fun _ next _ hb => (h next read rest captured).trans hb

/-- A repetition gives back the last of its texts if nothing goes on behind it. -/
theorem greedily_back {next : Scan → Option β} {b : β} {rest : List Char}
    {captured : List (Nat × String)} (units : List (List Char)) (last : List Char)
    (hunits : ∀ unit ∈ units, Steps body unit) (hlast : Steps body last)
    (hrest : ∀ read, Refuses body ⟨read, rest, captured⟩) :
    ∀ (read : List Char) (bound : Nat), units.length < bound →
      next ⟨last.reverse ++ (units.flatten.reverse ++ read), rest, captured⟩ = none →
      next ⟨units.flatten.reverse ++ read, last ++ rest, captured⟩ = some b →
      greedily body.run next bound ⟨read, units.flatten ++ (last ++ rest), captured⟩ = some b := by
  induction units with
  | nil =>
      intro read bound hbound hall hb
      obtain ⟨less, rfl⟩ : ∃ less, bound = less + 1 := ⟨bound - 1, by omega⟩
      -- With the last text taken too nothing goes on.
      have hnone : greedily body.run next less ⟨last.reverse ++ read, rest, captured⟩ = none := by
        cases less with
        | zero => exact hall
        | succ less =>
            rw [greedily, hrest]
            exact hall
      rw [greedily, List.flatten_nil, List.nil_append, hlast, hnone]
      exact hb
  | cons unit units ih =>
      intro read bound hbound hall hb
      obtain ⟨hunit, hmore⟩ := List.forall_mem_cons.mp hunits
      obtain ⟨less, rfl⟩ : ∃ less, bound = less + 1 := ⟨bound - 1, by omega⟩
      rw [List.flatten_cons, List.reverse_append, List.append_assoc] at hall hb
      rw [greedily, List.flatten_cons, List.append_assoc, hunit,
        ih hmore _ _ (Nat.lt_of_succ_lt_succ hbound) hall hb]

/-! ### Cutting a text into pieces -/

theorem Takes.endFrom? {read rest : List Char} (h : Takes p ⟨read, rest, []⟩ t) :
    p.endFrom? false ⟨read, rest, []⟩ = some t :=
  h _ t rfl

/-- A text that is one match as a whole, of a pattern that does not match the empty text. -/
theorem pieces_of_takes {text : String} {captured : List (Nat × String)} (hnew : text ≠ "")
    (h : Takes p (.start text.toList) ⟨text.toList.reverse, [], captured⟩)
    (hend : ∀ read captured, Refuses p ⟨read, [], captured⟩) :
    p.pieces text =
      [.plain "", .hit (p.found (.start text.toList) ⟨text.toList.reverse, [], captured⟩),
        .plain ""] := by
  generalize hstop : (⟨text.toList.reverse, [], captured⟩ : Scan) = stop at h ⊢
  obtain ⟨c, rest, htext⟩ : ∃ c rest, text.toList = c :: rest := by
    refine List.exists_cons_of_ne_nil fun hnil => hnew ?_
    exact String.toList_inj.mp (hnil.trans rfl)
  have hfirst : p.next? false [] text.toList = some (.start text.toList, stop) := by
    rw [htext, next?]
    rw [htext] at h
    rw [h.endFrom?]
    rfl
  have hlast : p.next? false stop.read stop.rest = none := by
    rw [← hstop, next?, endFrom?, hend _ _ _]
    rfl
  have hmoved : (stop.read.length == (Scan.start text.toList).read.length) = false := by
    rw [← hstop, htext]
    simp [Scan.start]
  unfold pieces
  rw [piecesFrom, show (Scan.start text.toList).read = [] from rfl,
    show (Scan.start text.toList).rest = text.toList from rfl, hfirst]
  dsimp only
  rw [hmoved, piecesFrom, hlast, ← hstop]
  rfl

end Pattern

end PluginHelp
