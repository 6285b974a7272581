/-
Which section an identifier stands for.

A fallback gives way to whatever comes after it, and anything else stays and refuses a second one of
its kind.  So out of all that was merged under an identifier, the one that is no fallback is kept if
there is one, and the last fallback otherwise, in whatever order they came: `standsFor` says so about
the arrivals, and `held_mergeEach` is that the page agrees with it.  Sections and backmatters are
settled in the same way, in tables of their own.
-/
import PluginHelp.Proofs.Page.Building
import PluginHelp.Proofs.Page.Plain

namespace PluginHelp

/-- What is like a possible key is one. -/
theorem Value.isKey_congr {a b : Value} (h : (a == b) = true) : a.isKey = b.isKey := by
  rw [beq_iff] at h
  cases a <;> cases b <;> simp_all [counted, isKey]

theorem Entry.isFallback_placed (space : Value) (e : Entry) :
    (e.placed space).isFallback = e.isFallback := by
  rw [placed, setOwn_apply]
  split <;> rfl

namespace Page

open Act

/-! ### One arrival -/

/-- The entry that is kept when another one arrives under its identifier, or the first one that
arrives. -/
def winner : Option Entry → Entry → Entry
  | none, e => e
  | some held, e => if held.isFallback then e else held

section

variable {α : Type} {entry : α → Entry} {table result : Table Value α} {a : α}
  {duplicate : Value → Cause} {cause : Cause}

/-- Settling changes what one identifier stands for, and there the winner is kept. -/
theorem settle_get? (h : settle entry table a duplicate = .ok result) (key : Value) :
    (result.get? key).map entry
      = if (entry a).ownD "id" == key then some (winner ((table.get? key).map entry) (entry a))
        else (table.get? key).map entry := by
  have hset : (((table.set ((entry a).ownD "id") a).get? key).map entry)
      = if (entry a).ownD "id" == key then some (entry a) else (table.get? key).map entry := by
    split
    · rename_i hlike
      rw [← Table.get?_congr _ hlike, Table.get?_set_self]
      rfl
    · rename_i hunlike
      rw [Table.get?_set_of_unlike _ _ (by simpa using hunlike)]
  -- Only what an identifier like that of the new entry stands for is in question.
  have hwinner {held : Option α} (hheld : table.get? ((entry a).ownD "id") = held)
      (hlike : ((entry a).ownD "id" == key) = true) : table.get? key = held := by
    rw [← Table.get?_congr _ hlike, hheld]
  unfold settle at h
  dsimp only at h
  split at h
  · split at h
    · rename_i hnone
      obtain rfl := Except.ok.inj h
      rw [hset]
      split
      · rename_i hlike
        rw [hwinner hnone hlike]
        rfl
      · rfl
    · rename_i held hheld
      split at h
      · rename_i hfallback
        obtain rfl := Except.ok.inj h
        rw [hset]
        split
        · rename_i hlike
          rw [hwinner hheld hlike, Option.map_some, winner, if_pos hfallback]
        · rfl
      · rename_i hfirm
        split at h
        · obtain rfl := Except.ok.inj h
          split
          · rename_i hlike
            rw [hwinner hheld hlike, Option.map_some, winner, if_neg hfirm]
          · rfl
        · cases h
  · cases h

/-- Settling fails if the identifier can be none, or if there is already something that does not give
way. -/
theorem settle_eq_error_iff :
    settle entry table a duplicate = .error cause
      ↔ (((entry a).ownD "id").isKey = false ∧ cause = .wrongValue)
        ∨ (((entry a).ownD "id").isKey = true ∧ (entry a).isFallback = false
          ∧ (∃ earlier, (table.get? ((entry a).ownD "id")).map entry = some earlier
            ∧ earlier.isFallback = false)
          ∧ cause = duplicate ((entry a).ownD "id")) := by
  unfold settle
  dsimp only
  cases hkey : ((entry a).ownD "id").isKey with
  | false => simpa using eq_comm
  | true =>
      cases hheld : table.get? ((entry a).ownD "id") with
      | none => simp
      | some held =>
          cases hfallback : (entry held).isFallback with
          | true => simp [hfallback]
          | false =>
              cases hnew : (entry a).isFallback with
              | true => simp [hfallback]
              | false => simpa [hfallback] using eq_comm

/-- The table after an entry was settled, or refused. -/
def settled (entry : α → Entry) (table : Table Value α) (a : α) (duplicate : Value → Cause) :
    Table Value α :=
  (settle entry table a duplicate).toOption.getD table

/-- What is refused would not have won. -/
theorem settled_get? {key : Value} (hkey : key.isKey = true) :
    ((settled entry table a duplicate).get? key).map entry
      = if (entry a).ownD "id" == key then some (winner ((table.get? key).map entry) (entry a))
        else (table.get? key).map entry := by
  unfold settled
  cases hsettle : settle entry table a duplicate with
  | ok result => exact settle_get? hsettle key
  | error cause =>
      split
      · rename_i hlike
        rcases settle_eq_error_iff.mp hsettle with ⟨hnone, -⟩ | ⟨-, -, ⟨earlier, hheld, hfirm⟩, -⟩
        · rw [Value.isKey_congr hlike, hkey] at hnone
          cases hnone
        · rw [Table.get?_congr _ hlike] at hheld
          show (table.get? key).map entry = _
          rw [hheld, winner, hfirm]
          rfl
      · rfl

end

/-- What a page holds under an identifier, among its sections or among its backmatters. -/
def held (p : Page) (kind : Kind) (key : Value) : Option Entry :=
  match kind with
  | .sect => (p.sections.get? key).map (·.entry)
  | .backmatter => p.backmatters.get? key
  | _ => none

/-- The cause for which a second section or backmatter is refused. -/
def duplicateOf : Kind → Value → Cause
  | .sect => .duplicateSection
  | _ => .duplicateBackmatter

/-- The kinds that are settled under an identifier. -/
def settledKinds : List Kind :=
  [.sect, .backmatter]

/-- An entry of a kind was settled on a page: under its identifier the winner is kept, and it was
refused if there was already something that does not give way. -/
structure SettledAs (kind : Kind) (e : Entry) (p : Page) (o : Outcome Page Unit) : Prop where
  holds : ∀ other ∈ settledKinds, ∀ key : Value, key.isKey = true →
    o.state.held other key
      = if e.isOf other && e.ownD "id" == key then some (winner (p.held other key) e)
        else p.held other key
  fails : ∀ fault, o.result = .error fault
    ↔ ∃ cause, (((e.ownD "id").isKey = false ∧ cause = .wrongValue)
      ∨ ((e.ownD "id").isKey = true ∧ e.isFallback = false
        ∧ (∃ earlier, p.held kind (e.ownD "id") = some earlier ∧ earlier.isFallback = false)
        ∧ cause = duplicateOf kind (e.ownD "id"))) ∧ fault = { cause }

theorem ofExcept_fails_iff {α β : Type} {value : Except Cause α} {next : α → Act Page β} {p : Page}
    {fault : Fault} (hnext : ∀ a fault, (next a p).result ≠ .error fault) :
    ((ofExcept value >>= next) p).result = .error fault
      ↔ ∃ cause, value = .error cause ∧ fault = { cause } := by
  cases value with
  | error cause =>
      constructor
      · intro h
        exact ⟨cause, rfl, (Except.error.inj h).symm⟩
      · rintro ⟨other, hother, rfl⟩
        cases hother
        rfl
  | ok a =>
      rw [ofExcept_ok_bind]
      refine ⟨fun h => absurd h (hnext a fault), ?_⟩
      rintro ⟨cause, hcause, -⟩
      cases hcause

theorem addSection_settledAs {e : Entry} (h : e.isOf .sect = true) (p : Page) :
    SettledAs .sect e p (addSection e p) := by
  have hsections : (addSection e p).state.sections
      = settled Section.entry p.sections ⟨p.arrivals, e⟩ .duplicateSection := by
    rw [addSection, get_bind_apply, settled]
    cases settle Section.entry p.sections ⟨p.arrivals, e⟩ .duplicateSection <;> rfl
  have hbackmatters : (addSection e p).state.backmatters = p.backmatters := by
    rw [addSection, get_bind_apply]
    cases settle Section.entry p.sections ⟨p.arrivals, e⟩ .duplicateSection <;> rfl
  constructor
  case holds =>
    intro other hother key hkey
    rcases List.mem_pair.mp hother with rfl | rfl
    · rw [held, hsections, settled_get? hkey, h, Bool.true_and]
      rfl
    · rw [held, hbackmatters, Entry.isOf_eq_false (Entry.isOf_iff.mp h) (by decide)]
      rfl
  case fails =>
    intro fault
    rw [addSection, get_bind_apply, ofExcept_fails_iff (fun _ _ hfault => by cases hfault)]
    exact exists_congr fun cause => and_congr_left' settle_eq_error_iff

theorem addBackmatter_settledAs {e : Entry} (h : e.isOf .backmatter = true) (p : Page) :
    SettledAs .backmatter e p (addBackmatter e p) := by
  have hbackmatters : (addBackmatter e p).state.backmatters
      = settled id p.backmatters e .duplicateBackmatter := by
    rw [addBackmatter, get_bind_apply, settled]
    cases settle id p.backmatters e .duplicateBackmatter <;> rfl
  have hsections : (addBackmatter e p).state.sections = p.sections := by
    rw [addBackmatter, get_bind_apply]
    cases settle id p.backmatters e .duplicateBackmatter <;> rfl
  constructor
  case holds =>
    intro other hother key hkey
    rcases List.mem_pair.mp hother with rfl | rfl
    · rw [held, hsections, Entry.isOf_eq_false (Entry.isOf_iff.mp h) (by decide)]
      rfl
    · have hheld := @settled_get? Entry id p.backmatters e .duplicateBackmatter key hkey
      rw [Option.map_id] at hheld
      rw [held, hbackmatters, h, Bool.true_and]
      exact hheld
  case fails =>
    intro fault
    rw [addBackmatter, get_bind_apply, ofExcept_fails_iff (fun _ _ hfault => by cases hfault)]
    refine exists_congr fun cause => and_congr_left' ?_
    rw [settle_eq_error_iff, Option.map_id]
    rfl

/-! ### All arrivals -/

namespace Arrival

/-- An entry that is settled on its page and passes nothing on. -/
structure Settles (a : Arrival) : Prop where
  speaks : a.1.speaks = true
  plain : a.1.shared = []

/-- Whether an entry is merged under an identifier. -/
def isNamed (kind : Kind) (key : Value) (a : Arrival) : Bool :=
  a.agrees && (a.1.isOf kind && a.1.ownD "id" == key)

/-- Whether an entry is merged under an identifier and is no fallback. -/
def isFirm (kind : Kind) (key : Value) (a : Arrival) : Bool :=
  a.isNamed kind key && !a.1.isFallback

theorem isFirm_congr {key other : Value} (h : (key == other) = true) (kind : Kind) (a : Arrival) :
    a.isFirm kind key = a.isFirm kind other := by
  rw [isFirm, isFirm, isNamed, isNamed, BEq.congr_right h]

end Arrival

/-- The arrival that an identifier stands for: the one that is no fallback, or else the last one. -/
def standsFor (kind : Kind) (key : Value) (arrivals : List Arrival) : Option Arrival :=
  arrivals.find? (·.isFirm kind key) <|> (arrivals.filter (·.isNamed kind key)).getLast?

section

variable {kind : Kind} {key : Value} {arrivals : List Arrival} {a : Arrival} {c : Context}

theorem placed_id (a : Arrival) : a.placed.ownD "id" = a.1.ownD "id" := by
  rw [Arrival.placed, Entry.ownD, Entry.ownD, Entry.own?_placed _ _ (by decide) (by decide)]

theorem Arrival.Settles.exists_kind (h : a.Settles) : ∃ kind ∈ settledKinds, a.1.isOf kind = true := by
  have hspeaks := h.speaks
  rw [Entry.speaks, Bool.or_eq_true] at hspeaks
  rcases hspeaks with hsect | hback
  · exact ⟨.sect, by decide, hsect⟩
  · exact ⟨.backmatter, by decide, hback⟩

theorem Arrival.Settles.ready (h : a.Settles) : a.Ready := by
  obtain ⟨kind, hkind, hof⟩ := h.exists_kind
  refine Arrival.ready_of_isOf hof ?_
  rcases List.mem_pair.mp hkind with rfl | rfl <;> decide

theorem eq_of_isOf {e : Entry} {other : Kind} (hother : other ∈ settledKinds)
    (hkind : kind ∈ settledKinds) (h : e.isOf other = true) (k : e.isOf kind = true) :
    other = kind := by
  have hlabel : other.label = kind.label :=
    Value.text.inj ((Entry.isOf_iff.mp h).symm.trans (Entry.isOf_iff.mp k))
  rcases List.mem_pair.mp hother with rfl | rfl <;> rcases List.mem_pair.mp hkind with rfl | rfl
  · rfl
  · exact absurd hlabel (by decide)
  · exact absurd hlabel (by decide)
  · rfl

/-- An entry with the namespace of its file is settled on the page. -/
theorem merge_settledAs (h : a.Settles) (hkind : kind ∈ settledKinds) (hof : a.1.isOf kind = true)
    (hagrees : a.agrees = true) (c : Context) :
    ∃ o, SettledAs kind a.placed c.page o ∧ (merge a.1 a.2 c).state.page = o.state
      ∧ (merge a.1 a.2 c).result = o.result := by
  have hshared : a.placed.shared = [] := (Entry.shared_placed a.2 a.1).trans h.plain
  have hspeaks : a.placed.speaks = true := (Entry.speaks_placed a.2 a.1).trans h.speaks
  rw [merge_of_agrees h.ready hagrees, takeIn_of_speaks hshared hspeaks]
  rcases List.mem_pair.mp hkind with rfl | rfl
  · have hsect : a.placed.isOf .sect = true :=
      (Entry.isOf_placed a.2 a.1 (by decide)).trans hof
    exact ⟨_, addSection_settledAs hsect c.page, by rw [if_pos hsect]; rfl, by rw [if_pos hsect]; rfl⟩
  · have hback : a.placed.isOf .backmatter = true :=
      (Entry.isOf_placed a.2 a.1 (by decide)).trans hof
    have hsect : a.placed.isOf .sect = false :=
      Entry.isOf_eq_false (Entry.isOf_iff.mp hback) (by decide)
    exact ⟨_, addBackmatter_settledAs hback c.page, by rw [hsect]; rfl, by rw [hsect]; rfl⟩

/-- Merging an entry changes what one identifier stands for, and there the winner is kept. -/
theorem held_merge (h : a.Settles) (hkind : kind ∈ settledKinds) (hkey : key.isKey = true)
    (c : Context) :
    (merge a.1 a.2 c).state.page.held kind key
      = if a.isNamed kind key then some (winner (c.page.held kind key) a.placed)
        else c.page.held kind key := by
  cases hagrees : a.agrees with
  | false =>
      rw [merge_of_disagrees h.ready hagrees, Arrival.isNamed, hagrees]
      rfl
  | true =>
      obtain ⟨own, hown, hof⟩ := h.exists_kind
      obtain ⟨o, hsettled, hstate, -⟩ := merge_settledAs h hown hof hagrees c
      have hlabel : kind.label ≠ "" := by
        rcases List.mem_pair.mp hkind with rfl | rfl <;> decide
      rw [hstate, hsettled.holds kind hkind key hkey, Arrival.isNamed, hagrees, Bool.true_and,
        placed_id, show a.placed.isOf kind = a.1.isOf kind from Entry.isOf_placed a.2 a.1 hlabel]

/-- One more arrival takes the place of a fallback, or of nothing. -/
theorem standsFor_concat (kind : Kind) (key : Value) (arrivals : List Arrival) (a : Arrival) :
    (standsFor kind key (arrivals ++ [a])).map Arrival.placed
      = if a.isNamed kind key then
          some (winner ((standsFor kind key arrivals).map Arrival.placed) a.placed)
        else (standsFor kind key arrivals).map Arrival.placed := by
  have hfallback (b : Arrival) : b.placed.isFallback = b.1.isFallback :=
    Entry.isFallback_placed b.2 b.1
  unfold standsFor
  rw [List.find?_append, List.filter_append]
  cases hfirm : arrivals.find? (·.isFirm kind key) with
  | some b =>
      have hb : b.1.isFallback = false := by
        have := List.find?_some hfirm
        simpa [Arrival.isFirm] using (Bool.and_eq_true_iff.mp this).2
      split
      · simp [winner, hfallback, hb]
      · simp
  | none =>
      cases hnamed : a.isNamed kind key with
      | false =>
          have hnone : a.isFirm kind key = false := by rw [Arrival.isFirm, hnamed, Bool.false_and]
          simp [hnamed, hnone]
      | true =>
          have hlast : winner (((arrivals.filter (·.isNamed kind key)).getLast?).map Arrival.placed)
              a.placed = a.placed := by
            cases hlast : (arrivals.filter (·.isNamed kind key)).getLast? with
            | none => rfl
            | some b =>
                obtain ⟨hb, hname⟩ := List.mem_filter.mp (List.mem_of_getLast? hlast)
                have hnot := List.find?_eq_none.mp hfirm b hb
                have : b.1.isFallback = true := by simpa [Arrival.isFirm, hname] using hnot
                rw [Option.map_some, winner, hfallback, this, if_pos rfl]
          rw [if_pos rfl, Option.none_or, Option.orElse_eq_orElse, Option.orElse_none, hlast]
          cases hfirm : a.isFirm kind key <;> simp [hfirm, hnamed]

/-- After any arrivals, each identifier stands for the one that it is to stand for. -/
theorem held_mergeEach (plugin : Plugin) (name : Value)
    (hsettles : ∀ a ∈ arrivals, a.Settles) (hkind : kind ∈ settledKinds)
    (hkey : key.isKey = true) :
    (mergeEach arrivals ⟨plugin, { name }⟩).page.held kind key
      = (standsFor kind key arrivals).map Arrival.placed := by
  induction arrivals using List.reverseRecOn with
  | nil => rcases List.mem_pair.mp hkind with rfl | rfl <;> rfl
  | append_singleton arrivals a ih =>
      have hfront := ih fun b hb => hsettles b (List.mem_append_left _ hb)
      rw [mergeEach_concat, held_merge (hsettles a (by simp)) hkind hkey, hfront,
        ← standsFor_concat]

/-- Something that does not give way is held exactly if such an entry was merged. -/
theorem held_firm_iff (plugin : Plugin) (name : Value)
    (hsettles : ∀ a ∈ arrivals, a.Settles) (hkind : kind ∈ settledKinds)
    (hkey : key.isKey = true) :
    (∃ earlier, (mergeEach arrivals ⟨plugin, { name }⟩).page.held kind key = some earlier
        ∧ earlier.isFallback = false)
      ↔ ∃ b ∈ arrivals, b.isFirm kind key = true := by
  rw [held_mergeEach plugin name hsettles hkind hkey, standsFor]
  constructor
  · rintro ⟨earlier, hheld, hfirm⟩
    obtain ⟨b, hb, rfl⟩ := Option.map_eq_some_iff.mp hheld
    have hplaced : b.placed.isFallback = b.1.isFallback := Entry.isFallback_placed b.2 b.1
    rw [hplaced] at hfirm
    cases hfind : arrivals.find? (·.isFirm kind key) with
    | some first => exact ⟨first, List.mem_of_find?_eq_some hfind, List.find?_some hfind⟩
    | none =>
        rw [hfind] at hb
        obtain ⟨hmem, hnamed⟩ := List.mem_filter.mp (List.mem_of_getLast? hb)
        exact ⟨b, hmem, by rw [Arrival.isFirm, hnamed, hfirm]; rfl⟩
  · rintro ⟨b, hb, hfirm⟩
    cases hfind : arrivals.find? (·.isFirm kind key) with
    | none => exact absurd hfirm (List.find?_eq_none.mp hfind b hb)
    | some first =>
        refine ⟨first.placed, rfl, (Entry.isFallback_placed first.2 first.1).trans ?_⟩
        have hfirst := List.find?_some hfind
        simpa [Arrival.isFirm] using (Bool.and_eq_true_iff.mp hfirst).2

/-- Where a merge fails, and why. -/
theorem merge_fails_iff (plugin : Plugin) (name : Value) {before : List Arrival}
    (hbefore : ∀ b ∈ before, b.Settles) (ha : a.Settles) {fault : Fault} :
    (merge a.1 a.2 (mergeEach before ⟨plugin, { name }⟩)).result = .error fault
      ↔ (a.agrees = false ∧ fault = a.refusal)
        ∨ (a.agrees = true ∧ (a.1.ownD "id").isKey = false ∧ fault = { cause := .wrongValue })
        ∨ ((a.1.ownD "id").isKey = true ∧ ∃ kind ∈ settledKinds,
            a.isFirm kind (a.1.ownD "id") = true
            ∧ (∃ b ∈ before, b.isFirm kind (a.1.ownD "id") = true)
            ∧ fault = { cause := duplicateOf kind (a.1.ownD "id") }) := by
  cases hagrees : a.agrees with
  | false =>
      have hnot (kind : Kind) : a.isFirm kind (a.1.ownD "id") = false := by
        rw [Arrival.isFirm, Arrival.isNamed, hagrees]
        rfl
      rw [merge_of_disagrees ha.ready hagrees]
      simpa [hnot] using eq_comm
  | true =>
      obtain ⟨kind, hkind, hof⟩ := ha.exists_kind
      obtain ⟨o, hsettled, -, hresult⟩ :=
        merge_settledAs ha hkind hof hagrees (mergeEach before ⟨plugin, { name }⟩)
      have hfirm : a.isFirm kind (a.1.ownD "id") = !a.1.isFallback := by
        rw [Arrival.isFirm, Arrival.isNamed, hagrees, hof, BEq.rfl]
        rfl
      have hplaced : a.placed.isFallback = a.1.isFallback := Entry.isFallback_placed a.2 a.1
      rw [hresult, hsettled.fails, placed_id, hplaced]
      constructor
      · rintro ⟨cause, ⟨hkey, rfl⟩ | ⟨hkey, hnew, hearlier, rfl⟩, rfl⟩
        · exact Or.inr (Or.inl ⟨rfl, hkey, rfl⟩)
        · refine Or.inr (Or.inr ⟨hkey, kind, hkind, ?_, ?_, rfl⟩)
          · rw [hfirm, hnew]
            rfl
          · exact (held_firm_iff plugin name hbefore hkind hkey).mp hearlier
      · rintro (⟨hnot, -⟩ | ⟨-, hkey, rfl⟩ | ⟨hkey, other, hother, hnew, hearlier, rfl⟩)
        · cases hnot
        · exact ⟨_, Or.inl ⟨hkey, rfl⟩, rfl⟩
        · have hnamed := (Bool.and_eq_true_iff.mp hnew).1
          obtain rfl : other = kind := by
            refine eq_of_isOf hother hkind ?_ hof
            simp only [Arrival.isNamed, Bool.and_eq_true] at hnamed
            exact hnamed.2.1
          rw [hfirm, Bool.not_eq_true'] at hnew
          exact ⟨_, Or.inr ⟨hkey, hnew, (held_firm_iff plugin name hbefore hkind hkey).mpr hearlier,
            rfl⟩, rfl⟩

/-- Of two that are no fallbacks, the later one is refused. -/
theorem not_merged_of_isFirm (plugin : Plugin) (name : Value) {before : List Arrival}
    (hbefore : ∀ b ∈ before, b.Settles) (ha : a.Settles) (hkind : kind ∈ settledKinds)
    (hfirm : a.isFirm kind key = true) {b : Arrival} (hb : b ∈ before)
    (hearlier : b.isFirm kind key = true) :
    ∃ fault, (merge a.1 a.2 (mergeEach before ⟨plugin, { name }⟩)).result = .error fault := by
  have hnamed : a.agrees = true ∧ a.1.isOf kind = true ∧ (a.1.ownD "id" == key) = true := by
    simpa [Arrival.isNamed] using (Bool.and_eq_true_iff.mp hfirm).1
  obtain ⟨hagrees, -, hlike⟩ := hnamed
  rw [Arrival.isFirm_congr (BEq.symm hlike)] at hfirm hearlier
  cases hkey : (a.1.ownD "id").isKey with
  | false =>
      exact ⟨_, (merge_fails_iff plugin name hbefore ha).mpr (Or.inr (Or.inl ⟨hagrees, hkey, rfl⟩))⟩
  | true =>
      exact ⟨_, (merge_fails_iff plugin name hbefore ha).mpr
        (Or.inr (Or.inr ⟨hkey, kind, hkind, hfirm, ⟨b, hb, hearlier⟩, rfl⟩))⟩

/-- Of many that are merged without any refusal, at most one under an identifier is no fallback. -/
theorem countP_isFirm_le_one (plugin : Plugin) (name : Value)
    (hsettles : ∀ a ∈ arrivals, a.Settles)
    (h : (mergeAll arrivals ⟨plugin, { name }⟩).result = .ok ()) (hkind : kind ∈ settledKinds) :
    arrivals.countP (·.isFirm kind key) ≤ 1 := by
  induction arrivals using List.reverseRecOn with
  | nil => exact Nat.zero_le _
  | append_singleton arrivals a ih =>
      have hfront : ∀ b ∈ arrivals, b.Settles := fun b hb => hsettles b (List.mem_append_left _ hb)
      obtain ⟨hok, hlast⟩ := mergeAll_eq_ok_iff.mp h
      rw [mergeAll_state hok] at hlast
      rw [List.countP_append, List.countP_singleton]
      split
      · rename_i hfirm
        have hnone : arrivals.countP (·.isFirm kind key) = 0 := by
          rw [List.countP_eq_zero]
          intro b hb hearlier
          obtain ⟨fault, hfault⟩ := not_merged_of_isFirm plugin name hfront (hsettles a (by simp))
            hkind hfirm hb hearlier
          rw [hlast] at hfault
          cases hfault
        omega
      · exact ih hfront hok

theorem duplicateOf_inj {other : Kind} {found : Value} (hkind : kind ∈ settledKinds)
    (hother : other ∈ settledKinds) (h : duplicateOf kind key = duplicateOf other found) :
    kind = other ∧ key = found := by
  rcases List.mem_pair.mp hkind with rfl | rfl <;> rcases List.mem_pair.mp hother with rfl | rfl
  · exact ⟨rfl, Cause.duplicateSection.inj h⟩
  · cases h
  · cases h
  · exact ⟨rfl, Cause.duplicateBackmatter.inj h⟩

end

/--
**The section or backmatter that is no fallback is kept, in whatever order they are merged.**

The entries before may have been merged or refused.  A section is refused as a duplicate exactly if it
is no fallback and one that is none has been merged under its identifier; the same holds of
backmatters.  Apart from that it is refused only for a namespace other than that of its file, or for
an identifier that can be none.  Each identifier stands for the entry that was merged under it and is
no fallback, of which there is one at most if nothing was refused, or else for the last one.
-/
theorem merge_overrides (plugin : Plugin) (name : Value) (before : List Arrival) (a : Arrival)
    (hbefore : ∀ b ∈ before, b.Settles) (ha : a.Settles) :
    let start : Context := ⟨plugin, { name }⟩
    let c := mergeEach before start
    (∀ kind ∈ settledKinds, ∀ key,
      (merge a.1 a.2 c).result = .error { cause := duplicateOf kind key }
        ↔ key = a.1.ownD "id" ∧ key.isKey = true ∧ a.isFirm kind key = true
          ∧ ∃ b ∈ before, b.isFirm kind key = true)
    ∧ (∀ fault, (merge a.1 a.2 c).result = .error fault →
        (∀ kind ∈ settledKinds, ∀ key, fault ≠ { cause := duplicateOf kind key }) →
        a.agrees = false ∨ (a.1.ownD "id").isKey = false)
    ∧ (∀ kind ∈ settledKinds, ∀ key : Value, key.isKey = true →
        c.page.held kind key = (standsFor kind key before).map Arrival.placed)
    ∧ ((mergeAll before start).result = .ok () →
        (mergeAll before start).state = c
        ∧ ∀ kind ∈ settledKinds, ∀ key, before.countP (·.isFirm kind key) ≤ 1) := by
  intro start c
  refine ⟨fun kind hkind key => ?_, fun fault hfault hother => ?_, fun kind hkind key hkey => ?_,
    fun hok => ⟨mergeAll_state hok, fun kind hkind key => ?_⟩⟩
  · rw [merge_fails_iff plugin name hbefore ha]
    constructor
    · rintro (⟨-, hfault⟩ | ⟨-, -, hfault⟩ | ⟨hkey, other, hother, hfirm, hearlier, hfault⟩)
      · rcases List.mem_pair.mp hkind with rfl | rfl <;> cases hfault
      · rcases List.mem_pair.mp hkind with rfl | rfl <;> cases hfault
      · obtain ⟨rfl, rfl⟩ := duplicateOf_inj hkind hother (congrArg Fault.cause hfault)
        exact ⟨rfl, hkey, hfirm, hearlier⟩
    · rintro ⟨rfl, hkey, hfirm, hearlier⟩
      exact Or.inr (Or.inr ⟨hkey, kind, hkind, hfirm, hearlier, rfl⟩)
  · rcases (merge_fails_iff plugin name hbefore ha).mp hfault with
      ⟨hagrees, -⟩ | ⟨-, hkey, -⟩ | ⟨-, kind, hkind, -, -, rfl⟩
    · exact Or.inl hagrees
    · exact Or.inr hkey
    · exact absurd rfl (hother kind hkind _)
  · exact held_mergeEach plugin name hbefore hkind hkey
  · exact countP_isFirm_le_one plugin name hbefore hok hkind

/-- A section of one's own takes the place of a fallback, lets no later fallback take its place, and
refuses a second one. -/
theorem merge_overrides_config :
    let fallback : Arrival :=
      ({ newSection "config" "Configuration" with isFallback := true }, .nothing)
    let own : Arrival := (newSection "config" "Settings", .text "demo#")
    let c := mergeEach [fallback, own, fallback]
      ⟨{ name := .text "demo" }, { name := .text "demo" }⟩
    c.page.held .sect (.text "config") = some own.placed
    ∧ (merge own.1 own.2 c).result = .error { cause := .duplicateSection (.text "config") } := by
  intro fallback own c
  have hfallback : fallback.Settles := ⟨by decide, rfl⟩
  have hown : own.Settles := ⟨by decide, rfl⟩
  have hbefore : ∀ b ∈ [fallback, own, fallback], b.Settles := by
    simp [hfallback, hown]
  obtain ⟨hduplicate, -, hheld, -⟩ := merge_overrides { name := .text "demo" } (.text "demo")
    [fallback, own, fallback] own hbefore hown
  have hfirm : own.isFirm .sect (.text "config") = true := by decide
  refine ⟨(hheld .sect (by decide) _ rfl).trans ?_, ?_⟩
  · have hstands : standsFor .sect (.text "config") [fallback, own, fallback] = some own := by
      rw [standsFor, List.find?_cons_of_neg (by decide), List.find?_cons_of_pos hfirm]
      rfl
    rw [hstands]
    rfl
  · exact (hduplicate .sect (by decide) (.text "config")).mpr ⟨rfl, rfl, hfirm, own, by simp, hfirm⟩

/-- A second section with a namespace of its own is refused for that, before its identifier is looked
at. -/
theorem merge_duplicate_of_other_space :
    let first : Arrival := (newSection "intro" "Introduction", .nothing)
    let second : Arrival :=
      ((newSection "intro" "Intro").putOwn "namespace" (.text "a#"), .text "b#")
    let start : Context := ⟨{ name := .text "demo" }, { name := .text "demo" }⟩
    (mergeAll [first] start).result = .ok ()
    ∧ (∀ a ∈ [first, second], a.1.isOf .sect = true ∧ a.1.shared.isEmpty = true
        ∧ a.1.isFallback = false ∧ a.1.ownD "id" = .text "intro")
    ∧ (merge second.1 second.2 (mergeAll [first] start).state).result
        = .error { cause := .inconsistentControl "namespace" (.text "a#") (.text "b#") } := by
  decide +kernel

end Page

end PluginHelp
