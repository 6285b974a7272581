/-
What holds of every entry of a doc comment while it is read.

A property that documentation keeps holds of all entries that are open.  It makes no difference which
entries a line is meant for: it goes to those that are selected, or to the one of a header, and each
of them keeps the property by itself.
-/
import PluginHelp.Proofs.Entry.Kept
import PluginHelp.Proofs.Source.Draft

namespace PluginHelp.Draft

open Act Entry

/-- Every open entry has a property. -/
def Every (P : Entry → Prop) (d : Draft) : Prop :=
  ∀ e ∈ d.entries, P e

variable {P : Entry → Prop} {allowed : Cause → Prop} {d : Draft} {i : Nat} {e : Entry}
  {act : Act Entry Unit}

theorem every_of_empty (h : d.entries = []) : d.Every P := by
  intro e he
  rw [h] at he
  cases he

theorem Every.set (h : d.Every P) (he : P e) (i : Nat) :
    Every P { d with entries := d.entries.set i e } := by
  intro other hother
  rcases List.mem_or_eq_of_mem_set hother with hmem | rfl
  · exact h other hmem
  · exact he

/-- So many entries, each of which has a property. -/
def EveryOf (P : Entry → Prop) (count : Nat) (d : Draft) : Prop :=
  d.Every P ∧ d.entries.length = count

theorem onEntry_every (hact : Respects P allowed act) {count : Nat} (h : EveryOf P count d)
    (hi : i < count) :
    Ensures (onEntry i act) d (fun _ t => EveryOf P count t) allowed := by
  have he := List.getElem?_eq_getElem (show i < d.entries.length by rw [h.2]; exact hi)
  refine (onEntry_ensures he (hact _ (h.1 _ (List.mem_of_getElem? he)))).mono ?_
  rintro _ _ ⟨t, ht, rfl⟩
  exact ⟨h.1.set ht i, List.length_set.trans h.2⟩

theorem onSelected_every (hact : Respects P allowed act) (h : d.Every P)
    (hd : ∀ n ∈ d.selection, 0 ≤ n ∧ n < d.entries.length) :
    Ensures (onSelected act) d (fun _ t => t.Every P) allowed := by
  have hloop : Ensures (onSelected act) d (fun _ t => EveryOf P d.entries.length t) allowed := by
    unfold onSelected
    refine Ensures.get_bind ?_
    refine Ensures.each (fun _ t => EveryOf P d.entries.length t) ⟨h, rfl⟩ ?_
    intro done n rest t hselection ht
    have hn := hd n (by rw [hselection]; simp)
    obtain ⟨i, rfl⟩ := Int.eq_ofNat_of_zero_le hn.1
    have hi : i < d.entries.length := by omega
    have hcount := ht.2
    refine Ensures.get_bind (Ensures.ite (fun hge => ?_) (fun _ => ?_))
    · omega
    · rw [hcount, place?_natCast hi]
      exact onEntry_every hact ht hi
  exact hloop.mono fun _ _ ht => ht.1

/-! ### Lines of documentation -/

theorem begin_every (hP : Kept P allowed) (h : d.Every P) :
    Ensures begin d (fun _ t => t.Every P) (fun _ => False) := by
  refine Ensures.modify ?_
  split
  · intro e he
    rw [List.mem_singleton.mp he]
    exact hP.new false
  · exact h

theorem selectAll_every (hP : Kept P allowed) (h : d.Every P) :
    Ensures selectAll d (fun _ t => t.Every P) allowed := by
  unfold selectAll
  refine Ensures.modify_bind (Ensures.get_bind ?_)
  refine Ensures.mono (Ensures.each (fun _ t => EveryOf P d.entries.length t) ⟨h, rfl⟩ ?_)
    fun _ _ ht => ht.1
  intro done i rest t hitems ht
  refine onEntry_every hP.marked ht ?_
  rw [← List.mem_range]
  exact hitems ▸ List.mem_append_right done List.mem_cons_self

/-- An entry without a header takes one. -/
theorem takeHeader_respects (hP : Kept P allowed) (header : Header) (hheader : e.header = none)
    (he : P e) : Ensures (takeHeader header) e (fun _ t => P t) allowed := by
  have hset : Ensures (Entry.setHeader header) e (fun _ t => P t) allowed := by
    unfold Entry.setHeader
    refine Ensures.get_bind ?_
    rw [hheader]
    exact Ensures.modify_bind (hP.tells closePassage_tells _ (hP.own he rfl))
  exact Ensures.bind hset fun _ t ht => hP.update _ t ht

theorem addHeader_every (hP : Kept P allowed) (header : Header) (hd : d.Sound) (h : d.Every P) :
    Ensures (addHeader header) d (fun _ t => t.Every P) allowed := by
  obtain ⟨before, e, hheader, hcases, htakes⟩ := hd.addHeader_takes header
  have hentries : P e ∧ ∀ other ∈ before, P other := by
    rcases hcases with ⟨rfl, rfl, -⟩ | ⟨honly, rfl⟩
    · exact ⟨hP.new _, h⟩
    · exact ⟨h e (by rw [honly]; exact List.mem_cons_self), by simp⟩
  refine (htakes (takeHeader_respects hP header hheader hentries.1)).mono ?_
  rintro _ _ ⟨e', he', rfl⟩ other hother
  rcases List.mem_append.mp hother with hother | hother
  · exact hentries.2 other hother
  · rw [List.mem_singleton.mp hother]
    exact he'

/-- A line of documentation keeps the property of all entries. -/
theorem addDoc_every (hP : Kept P allowed) (line : DocLine) (hd : d.Sound) (h : d.Every P) :
    Ensures (addDoc line) d (fun _ t => t.Every P) allowed := by
  have hplain (line : DocLine) : Ensures (do
      begin
      onSelected line.update) d (fun _ t => t.Every P) allowed := by
    have hsound : Ensures begin d (fun _ t => t.Sound) (fun _ => False) := begin_sound hd
    have hbegin := (begin_every hP h).both hsound
    refine Ensures.bind (hbegin.allow fun _ hcause => hcause.1.elim) fun _ t ht => ?_
    exact onSelected_every (hP.update line) ht.1 ht.2.inRange
  cases line with
  | all => exact selectAll_every hP h
  | header header => exact addHeader_every hP header hd h
  | _ => exact hplain _

/-! ### Lines of code -/

/-- The initial value of a flag is told before any entry is finished. -/
theorem prepare_every (hP : Kept P allowed) (line : CodeLine) (h : d.Every P) :
    Ensures (prepare line) d (fun _ t => t.Every P) allowed := by
  unfold prepare
  split
  · unfold addInitial
    refine Ensures.modify_bind (Ensures.get_bind ?_)
    generalize hbegun : (if d.entries.isEmpty then { d with entries := [{}] } else d) = begun
    have hevery : begun.Every P ∧ begun.entries ≠ [] := by
      subst hbegun
      split
      · refine ⟨fun e he => ?_, by simp⟩
        rw [List.mem_singleton.mp he]
        exact hP.new false
      · rename_i hsome
        exact ⟨h, by simpa using hsome⟩
    have hpos := List.length_pos_iff.mpr hevery.2
    refine (onEntry_every (hP.tells (addLine_tells _)) ⟨hevery.1, rfl⟩ ?_).mono
      fun _ _ ht => ht.1
    omega
  · exact Ensures.pure h

/-- Reading on, every entry that is open has the property. -/
theorem add_every (hP : Kept P allowed) (line : SourceLine) (hd : d.Sound) (h : d.Every P) :
    Ensures (add line) d (fun _ t => t.Every P) (fun _ => True) := by
  cases line with
  | doc line => exact (addDoc_every hP line hd h).allow fun _ _ => trivial
  | code line =>
      refine ((addCode_empties line hd).mono fun _ t ht => ?_).allow fun _ _ => trivial
      exact every_of_empty ht.1

end PluginHelp.Draft
