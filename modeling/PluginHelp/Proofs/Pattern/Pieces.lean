/-
Cutting a text into pieces, and replacing some of them.

The pieces of a text are the matches of a pattern and what lies between them.  Put together they are
the text again, whatever the pattern is, and each match is a way through the pattern.

A replacement goes through the text from left to right: where there is a match it is replaced and
stepped over, and any other character is kept.  `Rewrites` says just this, so that a replacement can
be followed from place to place without a word about pieces.
-/
import PluginHelp.Proofs.Pattern.Matching

namespace PluginHelp

namespace Piece

/-- The stretch of text that a piece covers. -/
def covered : Piece → String
  | plain text => text
  | hit found => found.text

@[simp] theorem covered_plain (text : String) : (plain text).covered = text :=
  rfl

@[simp] theorem covered_hit (found : Match) : (hit found).covered = found.text :=
  rfl

end Piece

namespace Pattern

variable {p : Pattern} {s t a b : Scan} {mustMove : Bool}

/-! ### Matches are ways through the pattern -/

/-- Where a match ends there is a way to. -/
theorem endFrom?_reaches (h : p.endFrom? mustMove s = some t) :
    Reaches p ⟨s.read, s.rest, []⟩ t := by
  obtain ⟨u, hreaches, hu⟩ := run_follows p _ _ _ h
  split at hu
  · cases hu
  · obtain rfl := Option.some.inj hu
    exact hreaches

/-- The next match begins at some later place and is a way through the pattern. -/
theorem next?_reaches {rest : List Char} : ∀ {mustMove : Bool} {read : List Char},
    p.next? mustMove read rest = some (a, b) →
      Reaches p a b ∧ ∃ skipped, a.read = skipped.reverse ++ read ∧ rest = skipped ++ a.rest := by
  induction rest with
  | nil =>
      intro mustMove read h
      obtain ⟨t, ht, heq⟩ := Option.map_eq_some_iff.mp h
      obtain ⟨rfl, rfl⟩ := Prod.mk.inj heq
      exact ⟨endFrom?_reaches ht, [], rfl, rfl⟩
  | cons c rest ih =>
      intro mustMove read h
      rw [next?] at h
      split at h
      · rename_i t ht
        obtain ⟨rfl, rfl⟩ := Prod.mk.inj (Option.some.inj h)
        exact ⟨endFrom?_reaches ht, [], rfl, rfl⟩
      · obtain ⟨hreaches, skipped, hread, hrest⟩ := ih h
        refine ⟨hreaches, c :: skipped, ?_, ?_⟩
        · simp [hread]
        · rw [hrest, List.cons_append]

/-- Every match of a text is a way through the pattern. -/
theorem reaches_of_hit {m : Match} (bound : Nat) : ∀ {mustMove : Bool} {s : Scan},
    .hit m ∈ p.piecesFrom bound mustMove s → ∃ a b, Reaches p a b ∧ m = p.found a b := by
  induction bound with
  | zero =>
      intro mustMove s h
      simp [piecesFrom] at h
  | succ bound ih =>
      intro mustMove s h
      rw [piecesFrom] at h
      split at h
      · simp at h
      · rename_i a b hnext
        simp only [List.mem_cons, reduceCtorEq, Piece.hit.injEq, false_or] at h
        rcases h with rfl | h
        · exact ⟨a, b, (next?_reaches hnext).1, rfl⟩
        · exact ih h

/-- What a pattern finds in a text are texts of ways through it, or what these capture. -/
theorem reaches_of_mem_findTexts {text found : String} (h : found ∈ p.findTexts text) :
    ∃ a b, Reaches p a b ∧
      found = if p.groupCount == 0 then b.since a else (p.found a b).group 1 := by
  obtain ⟨m, hm, rfl⟩ := List.mem_map.mp h
  obtain ⟨piece, hpiece, hm⟩ := List.mem_filterMap.mp hm
  cases piece with
  | plain text => cases hm
  | hit other =>
      obtain rfl := Option.some.inj hm
      obtain ⟨a, b, hreaches, rfl⟩ := reaches_of_hit _ hpiece
      exact ⟨a, b, hreaches, rfl⟩

/-! ### Nothing is lost -/

/-- The pieces of what is left of a text make it up. -/
theorem covered_piecesFrom (p : Pattern) (bound : Nat) : ∀ (mustMove : Bool) (s : Scan),
    ((p.piecesFrom bound mustMove s).map (·.covered.toList)).flatten = s.rest := by
  induction bound with
  | zero => simp [piecesFrom]
  | succ bound ih =>
      intro mustMove s
      rw [piecesFrom]
      split
      · simp
      · rename_i a b hnext
        obtain ⟨hreaches, skipped, hread, hrest⟩ := next?_reaches hnext
        obtain ⟨text, htext, hleft⟩ := hreaches.text
        simp [ih, found, Scan.since_eq hread, Scan.since_eq htext, hrest, hleft]

/-- The pieces of a text make it up. -/
theorem covered_pieces (p : Pattern) (s : String) :
    ((p.pieces s).map (·.covered.toList)).flatten = s.toList :=
  covered_piecesFrom p _ _ _

/-! ### Replacing -/

/-- Every match of a pattern is of at least one character. -/
def Moves (p : Pattern) : Prop :=
  ∀ s t, Reaches p s t → s.read.length < t.read.length

/-- At the end of a text there is nothing left to match. -/
theorem Moves.refuses_end (hmoves : Moves p) (read : List Char) (captured : List (Nat × String)) :
    Refuses p ⟨read, [], captured⟩ := by
  refine refuses_of_not_reaches fun t ht => ?_
  obtain ⟨text, hread, hrest⟩ := ht.text
  have hlt := hmoves _ _ ht
  obtain ⟨rfl, -⟩ := List.append_eq_nil_iff.mp hrest.symm
  rw [hread] at hlt
  simp at hlt

/-- There is no match at a place. -/
def Silent (p : Pattern) (read rest : List Char) : Prop :=
  p.endFrom? false ⟨read, rest, []⟩ = none

/-- From the place between `read` and `rest` on, a replacement turns the text into `out`. -/
inductive Rewrites (p : Pattern) (replacement : Match → String) :
    (read rest out : List Char) → Prop
  | done {read} : Rewrites p replacement read [] []
  | hit {read rest out t} (h : p.endFrom? false ⟨read, rest, []⟩ = some t) :
    Rewrites p replacement t.read t.rest out →
      Rewrites p replacement read rest
        ((replacement (p.found ⟨read, rest, []⟩ t)).toList ++ out)
  | skip {read c rest out} (h : Silent p read (c :: rest)) :
    Rewrites p replacement (c :: read) rest out →
      Rewrites p replacement read (c :: rest) (c :: out)

theorem silent_of_not_reaches {read rest : List Char}
    (h : ∀ t, ¬ Reaches p ⟨read, rest, []⟩ t) : Silent p read rest := by
  unfold Silent
  cases hend : p.endFrom? false ⟨read, rest, []⟩ with
  | none => rfl
  | some t => exact (h t (endFrom?_reaches hend)).elim

/-- The characters that a replacement makes of pieces. -/
def rendered (replacement : Match → String) (pieces : List Piece) : List Char :=
  (pieces.map fun piece =>
    match piece with
    | .plain text => text.toList
    | .hit found => (replacement found).toList).flatten

theorem replaceWith_eq (p : Pattern) (replacement : Match → String) (s : String) :
    p.replaceWith replacement s = String.ofList (rendered replacement (p.pieces s)) := by
  rw [← String.toList_inj, String.toList_ofList, replaceWith, rendered]
  induction p.pieces s with
  | nil => rfl
  | cons piece pieces ih => cases piece <;> simp [ih]

/-- A character without a match goes to the stretch before the next match. -/
theorem piecesFrom_skip {read rest : List Char} {c : Char} {captured : List (Nat × String)}
    (h : Silent p read (c :: rest)) (bound : Nat) :
    ∃ front pieces,
      p.piecesFrom bound false ⟨c :: read, rest, captured⟩
          = .plain (String.ofList front) :: pieces
        ∧ p.piecesFrom bound false ⟨read, c :: rest, captured⟩
          = .plain (String.ofList (c :: front)) :: pieces := by
  cases bound with
  | zero => exact ⟨rest, [], rfl, rfl⟩
  | succ bound =>
      have hnext : p.next? false read (c :: rest) = p.next? false (c :: read) rest := by
        rw [next?, show p.endFrom? false ⟨read, c :: rest, []⟩ = none from h]
      rw [piecesFrom, piecesFrom]
      dsimp only
      rw [hnext]
      rcases hfound : p.next? false (c :: read) rest with - | ⟨a, b⟩
      · exact ⟨rest, [], rfl, rfl⟩
      · obtain ⟨-, skipped, hread, -⟩ := next?_reaches hfound
        have hlong : a.since ⟨read, c :: rest, captured⟩ = String.ofList (c :: skipped) :=
          Scan.since_eq (by simp [hread])
        have hshort : a.since ⟨c :: read, rest, captured⟩ = String.ofList skipped :=
          Scan.since_eq hread
        dsimp only
        rw [hlong, hshort]
        exact ⟨skipped, _, rfl, rfl⟩

/-- Where there is a match, it is the next piece. -/
theorem piecesFrom_hit {read rest : List Char} {captured : List (Nat × String)} (hmoves : Moves p)
    (h : p.endFrom? false ⟨read, rest, []⟩ = some t) (bound : Nat) :
    p.piecesFrom (bound + 1) false ⟨read, rest, captured⟩
      = .plain "" :: .hit (p.found ⟨read, rest, []⟩ t) :: p.piecesFrom bound false t := by
  have hnext : p.next? false read rest = some (⟨read, rest, []⟩, t) := by
    cases rest with
    | nil => rw [next?, h]; rfl
    | cons c rest => rw [next?, h]
  have hmoved : (t.read.length == read.length) = false := by
    have hlt := hmoves _ _ (endFrom?_reaches h)
    simp only [beq_eq_false_iff_ne]
    exact Nat.ne_of_gt hlt
  have hnone : (⟨read, rest, []⟩ : Scan).since ⟨read, rest, captured⟩ = "" := by
    simp [Scan.since]
  rw [piecesFrom]
  dsimp only
  rw [hnext]
  dsimp only
  rw [hmoved, hnone]

theorem piecesFrom_end {read : List Char} {captured : List (Nat × String)} (hmoves : Moves p)
    (bound : Nat) : p.piecesFrom bound false ⟨read, [], captured⟩ = [.plain ""] := by
  have hnone : p.next? false read [] = none := by
    rw [next?, endFrom?, hmoves.refuses_end read []]
    rfl
  cases bound with
  | zero => rfl
  | succ bound =>
      rw [piecesFrom]
      dsimp only
      rw [hnone]

theorem rendered_of_rewrites {replacement : Match → String} (hmoves : Moves p)
    {read rest out : List Char} (h : Rewrites p replacement read rest out) :
    ∀ (bound : Nat) (captured : List (Nat × String)), rest.length ≤ bound →
      rendered replacement (p.piecesFrom bound false ⟨read, rest, captured⟩) = out := by
  induction h with
  | done =>
      intro bound captured _
      rw [piecesFrom_end hmoves]
      rfl
  | @hit read rest out t hend _ ih =>
      intro bound captured hbound
      -- The match takes a character at least, so one less is enough for what is left.
      obtain ⟨text, hread, hrest⟩ := (endFrom?_reaches hend).text
      have hlt : read.length < t.read.length := hmoves _ _ (endFrom?_reaches hend)
      simp only at hread hrest
      rw [hread, List.length_append, List.length_reverse] at hlt
      rw [hrest, List.length_append] at hbound
      obtain ⟨less, rfl⟩ : ∃ less, bound = less + 1 := ⟨bound - 1, by omega⟩
      rw [piecesFrom_hit hmoves hend, ← ih less t.captured (by omega)]
      simp [rendered]
  | skip hsilent _ ih =>
      intro bound captured hbound
      obtain ⟨front, pieces, hshort, hlong⟩ := piecesFrom_skip hsilent bound
      rw [hlong, ← ih bound captured (Nat.le_of_succ_le hbound), hshort]
      simp [rendered]

/-- A replacement does what can be followed from place to place. -/
theorem replaceWith_of_rewrites {replacement : Match → String} (hmoves : Moves p) {s : String}
    {out : List Char} (h : Rewrites p replacement [] s.toList out) :
    p.replaceWith replacement s = String.ofList out := by
  rw [replaceWith_eq]
  exact congrArg String.ofList (rendered_of_rewrites hmoves h _ [] (by omega))

end Pattern

end PluginHelp
