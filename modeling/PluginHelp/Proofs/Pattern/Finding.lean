/-
What a search finds in a text.

A search goes through a text from left to right: where there is a match it is noted and stepped
over, and any other character is passed by.  `Finds` says just this.  So whatever is found stands
somewhere in the text.  The other way round, a match that could begin somewhere is found unless
another one covers that place; with a pattern whose matches hold a certain sign at their start only,
no match covers such a sign.
-/
import PluginHelp.Proofs.Pattern.Spelling

namespace PluginHelp

/-- The match that a piece is, if it is one. -/
def Piece.found? : Piece → Option Match
  | plain _ => none
  | hit found => some found

namespace Pattern

/-- From the place between `read` and `rest` on, these are the matches. -/
inductive Finds (p : Pattern) : (read rest : List Char) → (found : List Match) → Prop
  | done {read} : Finds p read [] []
  | hit {read rest found t} (h : p.endFrom? false ⟨read, rest, []⟩ = some t) :
    Finds p t.read t.rest found → Finds p read rest (p.found ⟨read, rest, []⟩ t :: found)
  | skip {read c rest found} (h : Silent p read (c :: rest)) :
    Finds p (c :: read) rest found → Finds p read (c :: rest) found

variable {p : Pattern} {read rest : List Char} {found : List Match} {t : Scan}

/-- What is left of a text after a match is shorter. -/
theorem Moves.length_rest_lt (hmoves : Moves p) (h : p.endFrom? false ⟨read, rest, []⟩ = some t) :
    t.rest.length < rest.length := by
  have hreaches := endFrom?_reaches h
  obtain ⟨text, hread, hrest⟩ := hreaches.text
  have hlt : read.length < t.read.length := hmoves _ _ hreaches
  simp only at hread hrest
  rw [hread, List.length_append, List.length_reverse] at hlt
  rw [hrest, List.length_append]
  omega

/-- There is one walk through a text. -/
theorem Finds.unique (hmoves : Moves p) (h : Finds p read rest found) :
    ∀ {other : List Match}, Finds p read rest other → other = found := by
  induction h with
  | done =>
      intro other hother
      cases hother with
      | done => rfl
      | hit hend _ => exact absurd (hmoves.length_rest_lt hend) (Nat.not_lt_zero _)
  | hit hend _ ih =>
      intro other hother
      cases hother with
      | done => exact absurd (hmoves.length_rest_lt hend) (Nat.not_lt_zero _)
      | hit hend' hmore =>
          obtain rfl := Option.some.inj (hend.symm.trans hend')
          rw [ih hmore]
      | skip hsilent _ => cases hend.symm.trans hsilent
  | skip hsilent _ ih =>
      intro other hother
      cases hother with
      | hit hend _ => cases hend.symm.trans hsilent
      | skip _ hmore => exact ih hmore

/-- Characters at which nothing begins are passed by. -/
theorem Finds.skips {gap : List Char}
    (hgap : ∀ c ∈ gap, ∀ read rest, Silent p read (c :: rest)) :
    ∀ {read : List Char}, Finds p (gap.reverse ++ read) rest found →
      Finds p read (gap ++ rest) found := by
  induction gap with
  | nil => exact fun h => h
  | cons c gap ih =>
      intro read h
      obtain ⟨hc, hgap⟩ := List.forall_mem_cons.mp hgap
      rw [List.reverse_cons, List.append_assoc] at h
      exact .skip (hc read _) (ih hgap h)

theorem finds_piecesFrom (hmoves : Moves p) :
    ∀ (length : Nat) (read rest : List Char) (bound : Nat) (captured : List (Nat × String)),
      rest.length ≤ length → rest.length ≤ bound →
      Finds p read rest
        ((p.piecesFrom bound false ⟨read, rest, captured⟩).filterMap Piece.found?) := by
  intro length
  induction length with
  | zero =>
      intro read rest bound captured hlength _
      obtain rfl := List.length_eq_zero_iff.mp (Nat.le_zero.mp hlength)
      rw [piecesFrom_end hmoves]
      exact .done
  | succ length ih =>
      intro read rest bound captured hlength hbound
      cases rest with
      | nil =>
          rw [piecesFrom_end hmoves]
          exact .done
      | cons c rest =>
          cases hend : p.endFrom? false ⟨read, c :: rest, []⟩ with
          | none =>
              obtain ⟨front, pieces, hshort, hlong⟩ := piecesFrom_skip hend bound
              have hrest := ih (c :: read) rest bound captured (Nat.le_of_succ_le_succ hlength)
                (Nat.le_of_succ_le hbound)
              rw [hshort] at hrest
              rw [hlong]
              exact .skip hend hrest
          | some t =>
              have hless := hmoves.length_rest_lt hend
              obtain ⟨less, rfl⟩ : ∃ less, bound = less + 1 := ⟨bound - 1, by omega⟩
              rw [piecesFrom_hit hmoves hend]
              exact .hit hend (ih t.read t.rest less t.captured (by omega) (by omega))

theorem findAll_eq (p : Pattern) (s : String) :
    p.findAll s = (p.pieces s).filterMap Piece.found? := by
  unfold findAll
  congr 1

/-- All matches in a text are what a walk through it finds. -/
theorem finds_findAll (hmoves : Moves p) (s : String) : Finds p [] s.toList (p.findAll s) := by
  rw [findAll_eq]
  exact finds_piecesFrom hmoves _ [] s.toList _ [] (Nat.le_refl _) (by omega)

/-- What is found stands somewhere in the text. -/
theorem Finds.exists_place (h : Finds p read rest found) {m : Match} (hm : m ∈ found) :
    ∃ front back t, rest = front ++ back
      ∧ p.endFrom? false ⟨front.reverse ++ read, back, []⟩ = some t
      ∧ m = p.found ⟨front.reverse ++ read, back, []⟩ t := by
  induction h with
  | done => cases hm
  | @hit read rest found t hend _ ih =>
      rcases List.mem_cons.mp hm with rfl | hm
      · exact ⟨[], rest, t, rfl, hend, rfl⟩
      · obtain ⟨front, back, u, hrest, hu, hfound⟩ := ih hm
        obtain ⟨text, hread, htext⟩ := (endFrom?_reaches hend).text
        simp only at hread htext
        rw [hread, ← List.append_assoc, ← List.reverse_append] at hu hfound
        exact ⟨text ++ front, back, u, by rw [htext, hrest, List.append_assoc], hu, hfound⟩
  | @skip read c rest found _ _ ih =>
      obtain ⟨front, back, u, rfl, hu, hfound⟩ := ih hm
      refine ⟨c :: front, back, u, rfl, ?_, ?_⟩
      · rwa [List.reverse_cons, List.append_assoc]
      · rwa [List.reverse_cons, List.append_assoc]

/-- A match that could begin with a sign is found, if matches have that sign at their start only. -/
theorem Finds.mem_of_endFrom? {sign : Char} (h : Finds p read rest found)
    (hspells : Spells p fun text => ∃ c more, text = c :: more ∧ sign ∉ more) :
    ∀ {front back : List Char}, rest = front ++ sign :: back →
      p.endFrom? false ⟨front.reverse ++ read, sign :: back, []⟩ = some t →
      p.found ⟨front.reverse ++ read, sign :: back, []⟩ t ∈ found := by
  induction h with
  | done =>
      intro front back hrest
      simp at hrest
  | @hit read rest found u hend _ ih =>
      intro front back hrest ht
      cases front with
      | nil =>
          simp only [List.nil_append] at hrest
          subst hrest
          obtain rfl := Option.some.inj (hend.symm.trans ht)
          exact List.mem_cons_self
      | cons a front =>
          obtain ⟨_, hread, hcovered, c, more, rfl, hmore⟩ :=
            hspells _ _ (endFrom?_reaches hend)
          simp only at hread hcovered
          rw [hrest, List.cons_append, List.cons_append] at hcovered
          obtain ⟨rfl, hbehind⟩ := List.cons.inj hcovered
          -- The sign does not lie in the match, so it lies behind it.
          rcases List.append_eq_append_iff.mp hbehind with ⟨gap, hgap, hback⟩ | ⟨gap, hgap, hback⟩
          · cases gap with
            | nil =>
                have hplace : (a :: front).reverse ++ read = [].reverse ++ u.read := by
                  rw [hread, hgap]
                  simp
                rw [hplace] at ht ⊢
                exact List.mem_cons_of_mem _ (ih hback.symm ht)
            | cons d gap =>
                obtain ⟨rfl, -⟩ := List.cons.inj hback
                exact absurd (hgap ▸ by simp) hmore
          · refine List.mem_cons_of_mem _ ?_
            have hplace : (a :: front).reverse ++ read = gap.reverse ++ u.read := by
              rw [hread, hgap]
              simp
            rw [hplace] at ht ⊢
            exact ih hback ht
  | @skip read c rest found hsilent _ ih =>
      intro front back hrest ht
      cases front with
      | nil =>
          obtain ⟨rfl, rfl⟩ := List.cons.inj hrest
          rw [show p.endFrom? false ⟨[].reverse ++ read, c :: rest, []⟩ = none from hsilent] at ht
          cases ht
      | cons a front =>
          obtain ⟨rfl, hmore⟩ := List.cons.inj hrest
          rw [List.reverse_cons, List.append_assoc] at ht ⊢
          exact ih hmore ht

end Pattern

end PluginHelp
