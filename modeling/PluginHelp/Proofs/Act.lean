/-
Reasoning about steps.

Three things are said of a step over and over, and each of them is put together from what is said of
its parts.

  * A step *keeps* an invariant if that holds afterwards even when the step fails, which it does
    only for some causes.  A step is *confined* if it leaves some view of the state as it was in
    this way; that asks nothing of the state, so it suits the small steps on one entry.
  * A step *ensures* something from a state if it succeeds with that, or else fails for an allowed
    cause.  That is what an invariant needs: a later step may rely on what an earlier one left.
  * A step *commutes* with a change of the state if it makes no difference which comes first.  That
    is how a part of the state is seen to have no influence.
-/
import PluginHelp.Act
import PluginHelp.Proofs.Except

namespace PluginHelp.Act

variable {σ τ α β γ δ : Type}

/-! ### Running one step after another -/

/-- A step and the next one succeed together exactly if each of them does. -/
theorem bind_eq_ok_iff {act : Act σ α} {next : α → Act σ β} {s u : σ} {warnings : List Warning}
    {b : β} :
    (act >>= next) s = ⟨u, warnings, .ok b⟩ ↔
      ∃ t before a after, act s = ⟨t, before, .ok a⟩ ∧ next a t = ⟨u, after, .ok b⟩ ∧
        warnings = before ++ after := by
  constructor
  · intro h
    rcases k : act s with ⟨t, before, fault | a⟩
    · rw [bind_apply_error next k] at h
      simp at h
    · rw [bind_apply_ok next k] at h
      rcases l : next a t with ⟨v, after, result⟩
      rw [l] at h
      simp only [Outcome.mk.injEq] at h
      obtain ⟨rfl, rfl, rfl⟩ := h
      exact ⟨t, before, a, after, rfl, l, rfl⟩
  · rintro ⟨t, before, a, after, h, k, rfl⟩
    rw [bind_apply_ok next h, k]

/-- A step that gives a value succeeds with it. -/
theorem eq_ok_of_toOption {act : Act σ α} {s : σ} {a : α} (h : (act s).result.toOption = some a) :
    act s = ⟨(act s).state, (act s).warnings, .ok a⟩ := by
  rcases k : act s with ⟨t, warnings, fault | b⟩
  · rw [k] at h
    cases h
  · rw [k] at h
    obtain rfl : b = a := Option.some.inj h
    rfl

/-- A step that looks at the state acts on the state that it sees. -/
theorem get_bind_apply (next : σ → Act σ α) (s : σ) : (get >>= next) s = next s s := by
  rw [bind_apply_ok next (rfl : get s = ⟨s, [], .ok s⟩), List.nil_append]

/-- After a change of the state, the next step acts on the changed state. -/
theorem modify_bind_apply (change : σ → σ) (next : Unit → Act σ α) (s : σ) :
    (modify change >>= next) s = next () (change s) := by
  rw [bind_apply_ok next (rfl : modify change s = ⟨change s, [], .ok ()⟩), List.nil_append]

theorem ofExcept_ok_bind (a : α) (next : α → Act σ β) : (ofExcept (.ok a) >>= next) = next a :=
  pure_bind a next

theorem assume_bind_of_true {holds : Bool} (h : holds = true) (what : String)
    (next : Unit → Act σ α) : (assume holds what >>= next) = next () := by
  rw [h]
  rfl

theorem assume_bind_of_false {holds : Bool} (h : holds = false) (what : String)
    (next : Unit → Act σ α) : (assume holds what >>= next) = fail (.assumption what) := by
  rw [h]
  rfl

theorem each_nil (act : α → Act σ Unit) : each [] act = pure () :=
  rfl

theorem each_cons (a : α) (rest : List α) (act : α → Act σ Unit) :
    each (a :: rest) act = act a >>= fun _ => each rest act :=
  rfl

theorem each_singleton (a : α) (act : α → Act σ Unit) : each [a] act = act a := by
  rw [each_cons, each_nil, bind_pure_unit]

/-- Going through two lists is going through the first and then through the second. -/
theorem each_append (front back : List α) (act : α → Act σ Unit) :
    each (front ++ back) act = each front act >>= fun _ => each back act := by
  induction front with
  | nil => rw [List.nil_append, each_nil, pure_bind]
  | cons a rest ih => rw [List.cons_append, each_cons, each_cons, ih, bind_assoc]

theorem each_map (f : α → β) (items : List α) (act : β → Act σ Unit) :
    each (items.map f) act = each items fun a => act (f a) := by
  induction items with
  | nil => rfl
  | cons a rest ih => rw [List.map_cons, each_cons, each_cons, ih]

theorem each_congr {items : List α} {act other : α → Act σ Unit}
    (h : ∀ a ∈ items, act a = other a) : each items act = each items other := by
  induction items with
  | nil => rfl
  | cons a rest ih =>
      obtain ⟨ha, hrest⟩ := List.forall_mem_cons.mp h
      rw [each_cons, each_cons, ha, ih hrest]

/-! ### What a step keeps -/

/-- A step keeps an invariant, be it that it succeeds or that it fails for an allowed cause. -/
def Keeps (inv : σ → Prop) (allowed : Cause → Prop) (act : Act σ α) : Prop :=
  ∀ s, inv s → inv (act s).state ∧ ∀ fault, (act s).result = .error fault → allowed fault.cause

namespace Keeps

variable {inv : σ → Prop} {allowed : Cause → Prop}

theorem pure (a : α) : Keeps inv allowed (Pure.pure a : Act σ α) :=
  fun _ hs => ⟨hs, fun _ h => by simp at h⟩

theorem get : Keeps inv allowed (Act.get : Act σ σ) :=
  fun _ hs => ⟨hs, fun _ h => by simp [Act.get] at h⟩

theorem modify {change : σ → σ} (h : ∀ s, inv s → inv (change s)) :
    Keeps inv allowed (Act.modify change) :=
  fun s hs => ⟨h s hs, fun _ k => by simp [Act.modify] at k⟩

theorem warn (warning : Warning) : Keeps inv allowed (Act.warn warning : Act σ Unit) :=
  fun _ hs => ⟨hs, fun _ h => by simp [Act.warn] at h⟩

theorem fail {cause : Cause} (h : allowed cause) :
    Keeps inv allowed (Act.fail cause : Act σ α) := by
  intro s hs
  refine ⟨hs, ?_⟩
  intro fault k
  simp only [Act.fail, Act.stop, Except.error.injEq] at k
  rw [← k]
  exact h

theorem ofExcept {value : Except Cause α} (h : Covers allowed value) :
    Keeps inv allowed (Act.ofExcept value : Act σ α) := by
  cases value with
  | ok a => exact pure a
  | error cause => exact fail (h cause rfl)

theorem assume {holds : Bool} {what : String} (h : holds = false → allowed (.assumption what)) :
    Keeps inv allowed (Act.assume holds what : Act σ Unit) := by
  cases holds with
  | true => exact pure ()
  | false => exact fail (h rfl)

theorem bind {act : Act σ α} {next : α → Act σ β} (h : Keeps inv allowed act)
    (k : ∀ a, Keeps inv allowed (next a)) : Keeps inv allowed (act >>= next) := by
  intro s hs
  have hact := h s hs
  rcases e : act s with ⟨t, warnings, fault | a⟩
  · rw [bind_apply_error next e]
    rw [e] at hact
    refine ⟨hact.1, ?_⟩
    intro other hother
    exact hact.2 other (by simpa using hother)
  · rw [bind_apply_ok next e]
    rw [e] at hact
    exact k a t hact.1

theorem ite {c : Prop} [Decidable c] {act other : Act σ α} (h : c → Keeps inv allowed act)
    (k : ¬c → Keeps inv allowed other) : Keeps inv allowed (if c then act else other) := by
  split
  · exact h ‹c›
  · exact k ‹¬c›

theorem each {items : List α} {act : α → Act σ Unit}
    (h : ∀ a ∈ items, Keeps inv allowed (act a)) : Keeps inv allowed (Act.each items act) := by
  induction items with
  | nil => exact pure ()
  | cons a rest ih =>
      obtain ⟨ha, hrest⟩ := List.forall_mem_cons.mp h
      exact bind ha fun _ => ih hrest

/-- A step on a value of its own leaves the state alone, and the next step gets what became of it.
-/
theorem within_bind {act : Act τ Unit} {t : τ} {next : τ → Act σ α}
    (hcause : ∀ fault, (act t).result = .error fault → allowed fault.cause)
    (h : Keeps inv allowed (next (act t).state)) :
    Keeps inv allowed (Act.within act t >>= next) := by
  refine fun s hs => ?_
  cases hresult : (act t).result with
  | error fault =>
      have hwithin : Act.within act t s = ⟨s, (act t).warnings, .error fault⟩ := by
        simp [Act.within, hresult, Except.map]
      rw [bind_apply_error next hwithin]
      refine ⟨hs, ?_⟩
      intro other hother
      obtain rfl : fault = other := by simpa using hother
      exact hcause fault hresult
  | ok a =>
      have hwithin : Act.within act t s = ⟨s, (act t).warnings, .ok (act t).state⟩ := by
        simp [Act.within, hresult, Except.map]
      rw [bind_apply_ok next hwithin]
      exact h s hs

/-- A step on a part of the state keeps what it keeps of that part. -/
theorem on {part : τ → σ} {put : σ → τ → τ} {act : Act σ α} {whole : τ → Prop}
    (hpart : ∀ t, whole t → inv (part t)) (hput : ∀ s t, whole t → inv s → whole (put s t))
    (h : Keeps inv allowed act) : Keeps whole allowed (Act.on part put act) := by
  intro t ht
  have hact := h (part t) (hpart t ht)
  exact ⟨hput _ t ht hact.1, hact.2⟩

end Keeps

/-! ### Confined steps -/

/-- A step leaves a view of the state as it was, and fails only for allowed causes. -/
def Confined (view : σ → γ) (allowed : Cause → Prop) (act : Act σ α) : Prop :=
  ∀ shown, Keeps (fun s => view s = shown) allowed act

namespace Confined

variable {view : σ → γ} {allowed : Cause → Prop}

theorem pure (a : α) : Confined view allowed (Pure.pure a : Act σ α) :=
  fun _ => Keeps.pure a

theorem get : Confined view allowed (Act.get : Act σ σ) :=
  fun _ => Keeps.get

theorem modify {change : σ → σ} (h : ∀ s, view (change s) = view s) :
    Confined view allowed (Act.modify change) :=
  fun _ => Keeps.modify fun s hs => (h s).trans hs

theorem warn (warning : Warning) : Confined view allowed (Act.warn warning : Act σ Unit) :=
  fun _ => Keeps.warn warning

theorem fail {cause : Cause} (h : allowed cause) :
    Confined view allowed (Act.fail cause : Act σ α) :=
  fun _ => Keeps.fail h

theorem ofExcept {value : Except Cause α} (h : Covers allowed value) :
    Confined view allowed (Act.ofExcept value : Act σ α) :=
  fun _ => Keeps.ofExcept h

theorem assume {holds : Bool} {what : String} (h : holds = false → allowed (.assumption what)) :
    Confined view allowed (Act.assume holds what : Act σ Unit) :=
  fun _ => Keeps.assume h

theorem bind {act : Act σ α} {next : α → Act σ β} (h : Confined view allowed act)
    (k : ∀ a, Confined view allowed (next a)) : Confined view allowed (act >>= next) :=
  fun shown => (h shown).bind fun a => k a shown

theorem ite {c : Prop} [Decidable c] {act other : Act σ α} (h : c → Confined view allowed act)
    (k : ¬c → Confined view allowed other) :
    Confined view allowed (if c then act else other) :=
  fun shown => Keeps.ite (fun hc => h hc shown) fun hc => k hc shown

theorem view_eq {act : Act σ α} (h : Confined view allowed act) (s : σ) :
    view (act s).state = view s :=
  (h (view s) s rfl).1

theorem cause {act : Act σ α} (h : Confined view allowed act) {s : σ} {fault : Fault}
    (hfault : (act s).result = .error fault) : allowed fault.cause :=
  (h (view s) s rfl).2 fault hfault

/-- What a view shows less of is left as it was, too. -/
theorem comp {act : Act σ α} (h : Confined view allowed act) (less : γ → δ) :
    Confined (fun s => less (view s)) allowed act := by
  rintro _ s rfl
  exact ⟨congrArg less (h.view_eq s), fun _ hfault => h.cause hfault⟩

end Confined

/-! ### What a step ensures -/

/-- From a state, a step succeeds with what is asked for, or fails for an allowed cause. -/
def Ensures (act : Act σ α) (s : σ) (post : α → σ → Prop) (allowed : Cause → Prop) : Prop :=
  match (act s).result with
  | .ok a => post a (act s).state
  | .error fault => allowed fault.cause

namespace Ensures

variable {act : Act σ α} {s : σ} {post : α → σ → Prop} {allowed : Cause → Prop}

theorem of_ok {t : σ} {warnings : List Warning} {a : α} (h : Ensures act s post allowed)
    (k : act s = ⟨t, warnings, .ok a⟩) : post a t := by
  unfold Ensures at h
  rw [k] at h
  exact h

theorem of_error {fault : Fault} (h : Ensures act s post allowed)
    (k : (act s).result = .error fault) : allowed fault.cause := by
  unfold Ensures at h
  rw [k] at h
  exact h

/-- A step that may fail for no cause succeeds. -/
theorem exists_ok (h : Ensures act s post fun _ => False) : ∃ a, (act s).result = .ok a := by
  cases hresult : (act s).result with
  | ok a => exact ⟨a, rfl⟩
  | error fault => exact (h.of_error hresult).elim

theorem pure {a : α} (h : post a s) : Ensures (Pure.pure a : Act σ α) s post allowed :=
  h

theorem modify {change : σ → σ} {post : Unit → σ → Prop} (h : post () (change s)) :
    Ensures (Act.modify change) s post allowed :=
  h

theorem mono {weaker : α → σ → Prop} (h : Ensures act s post allowed)
    (k : ∀ a t, post a t → weaker a t) : Ensures act s weaker allowed := by
  unfold Ensures at h ⊢
  match e : (act s).result with
  | .ok a =>
    rw [e] at h
    exact k a _ h
  | .error fault =>
    rw [e] at h
    exact h

theorem allow {wider : Cause → Prop} (h : Ensures act s post allowed)
    (k : ∀ cause, allowed cause → wider cause) : Ensures act s post wider := by
  unfold Ensures at h ⊢
  match e : (act s).result with
  | .ok a =>
    rw [e] at h
    exact h
  | .error fault =>
    rw [e] at h
    exact k _ h

/-- What is ensured in two ways is ensured together, for causes that both of them allow. -/
theorem both {other : α → σ → Prop} {also : Cause → Prop} (h : Ensures act s post allowed)
    (k : Ensures act s other also) :
    Ensures act s (fun a t => post a t ∧ other a t) (fun cause => allowed cause ∧ also cause) := by
  unfold Ensures at h k ⊢
  cases e : (act s).result with
  | ok a =>
      rw [e] at h k
      exact ⟨h, k⟩
  | error fault =>
      rw [e] at h k
      exact ⟨h, k⟩

/-- What a step gives, if it gives anything, is what it is known to give. -/
theorem self (act : Act σ α) (s : σ) :
    Ensures act s (fun a t => ∃ warnings, act s = ⟨t, warnings, .ok a⟩) (fun _ => True) := by
  unfold Ensures
  rcases e : act s with ⟨t, warnings, fault | a⟩
  · trivial
  · exact ⟨warnings, rfl⟩

theorem bind {next : α → Act σ β} {middle : α → σ → Prop} {post : β → σ → Prop}
    (h : Ensures act s middle allowed)
    (k : ∀ a t, middle a t → Ensures (next a) t post allowed) :
    Ensures (act >>= next) s post allowed := by
  rcases e : act s with ⟨t, warnings, fault | a⟩
  · have hfault : (act s).result = .error fault := by rw [e]
    unfold Ensures
    rw [bind_apply_error next e]
    exact h.of_error hfault
  · have hnext := k a t (h.of_ok e)
    unfold Ensures at hnext ⊢
    rw [bind_apply_ok next e]
    exact hnext

/-- A step that looks at the state may rely on what it sees. -/
theorem get_bind {next : σ → Act σ α} (h : Ensures (next s) s post allowed) :
    Ensures (Act.get >>= next) s post allowed := by
  unfold Ensures at h ⊢
  rw [get_bind_apply]
  exact h

theorem ite {c : Prop} [Decidable c] {other : Act σ α} (h : c → Ensures act s post allowed)
    (k : ¬c → Ensures other s post allowed) :
    Ensures (if c then act else other) s post allowed := by
  split
  · exact h ‹c›
  · exact k ‹¬c›

theorem modify_bind {change : σ → σ} {next : Unit → Act σ α}
    (h : Ensures (next ()) (change s) post allowed) :
    Ensures (Act.modify change >>= next) s post allowed := by
  unfold Ensures at h ⊢
  rw [bind_apply_ok next (rfl : Act.modify change s = ⟨change s, [], .ok ()⟩)]
  exact h

theorem warn_bind {warning : Warning} {next : Unit → Act σ α}
    (h : Ensures (next ()) s post allowed) : Ensures (Act.warn warning >>= next) s post allowed := by
  unfold Ensures at h ⊢
  rw [bind_apply_ok next (rfl : Act.warn warning s = ⟨s, [warning], .ok ()⟩)]
  exact h

theorem ofExcept_bind {value : Except Cause β} {next : β → Act σ α} (h : Covers allowed value)
    (k : ∀ b, value = .ok b → Ensures (next b) s post allowed) :
    Ensures (Act.ofExcept value >>= next) s post allowed := by
  cases value with
  | ok b =>
      show Ensures (Pure.pure b >>= next) s post allowed
      rw [pure_bind]
      exact k b rfl
  | error cause => exact h cause rfl

/-- What is taken for granted may be relied on afterwards. -/
theorem assume_bind {holds : Bool} {what : String} {next : Unit → Act σ α}
    (h : holds = false → allowed (.assumption what))
    (k : holds = true → Ensures (next ()) s post allowed) :
    Ensures (Act.assume holds what >>= next) s post allowed := by
  cases holds with
  | true =>
      show Ensures (Pure.pure () >>= next) s post allowed
      rw [pure_bind]
      exact k rfl
  | false => exact h rfl

theorem fail_bind {cause : Cause} {next : β → Act σ α} (h : allowed cause) :
    Ensures (Act.fail cause >>= next) s post allowed :=
  h

theorem of_confined {view : σ → γ} (h : Confined view allowed act) (s : σ) :
    Ensures act s (fun _ t => view t = view s) allowed := by
  unfold Ensures
  match e : (act s).result with
  | .ok a => exact h.view_eq s
  | .error fault => exact h.cause e

theorem of_keeps {inv : σ → Prop} (h : Keeps inv allowed act) (hs : inv s) :
    Ensures act s (fun _ t => (act s).state = t ∧ inv t) allowed := by
  unfold Ensures
  match e : (act s).result with
  | .ok a => exact ⟨rfl, (h s hs).1⟩
  | .error fault => exact (h s hs).2 fault e

/-- After a step that is known to succeed, all depends on the next one. -/
theorem bind_of_ok {next : α → Act σ β} {post : β → σ → Prop} {a : α}
    (hact : (act s).result = .ok a) (h : Ensures (next a) (act s).state post allowed) :
    Ensures (act >>= next) s post allowed := by
  rcases hrun : act s with ⟨t, warnings, fault | b⟩
  · rw [hrun] at hact
    cases hact
  · rw [hrun] at hact h
    obtain rfl := Except.ok.inj hact
    unfold Ensures
    rw [bind_apply_ok _ hrun]
    exact h

/-- A step on a value of its own leaves the state alone, and if it succeeds, the next step gets what
became of it. -/
theorem within_bind_of_ok {act : Act τ Unit} {t : τ} {next : τ → Act σ α}
    (hcause : ∀ fault, (act t).result = .error fault → allowed fault.cause)
    (h : (act t).result = .ok () → Ensures (next (act t).state) s post allowed) :
    Ensures (Act.within act t >>= next) s post allowed := by
  have hwithin : Act.within act t s
      = ⟨s, (act t).warnings, (act t).result.map fun _ => (act t).state⟩ := rfl
  cases hresult : (act t).result with
  | error fault =>
      rw [hresult] at hwithin
      unfold Ensures
      rw [bind_apply_error _ hwithin]
      exact hcause fault hresult
  | ok a =>
      rw [hresult] at hwithin
      have hnext := h hresult
      unfold Ensures
      rw [bind_apply_ok _ hwithin]
      exact hnext

theorem within_bind {act : Act τ Unit} {t : τ} {next : τ → Act σ α}
    (hcause : ∀ fault, (act t).result = .error fault → allowed fault.cause)
    (h : Ensures (next (act t).state) s post allowed) :
    Ensures (Act.within act t >>= next) s post allowed :=
  within_bind_of_ok hcause fun _ => h

/-- A step on a part of the state ensures what it ensures of that part. -/
theorem on {part : τ → σ} {put : σ → τ → τ} {t : τ} {post : α → τ → Prop}
    (h : Ensures act (part t) (fun a s => post a (put s t)) allowed) :
    Ensures (Act.on part put act) t post allowed :=
  h

/-- Going through a list keeps an invariant that speaks of the items done so far. -/
theorem each {items : List α} {act : α → Act σ Unit} (inv : List α → σ → Prop) (h : inv [] s)
    (step : ∀ done a rest t, items = done ++ a :: rest → inv done t →
      Ensures (act a) t (fun _ u => inv (done ++ [a]) u) allowed) :
    Ensures (Act.each items act) s (fun _ t => inv items t) allowed := by
  -- The induction is on what is left, with what is done so far as a parameter.
  have key : ∀ (rest done : List α) (t : σ), items = done ++ rest → inv done t →
      Ensures (Act.each rest act) t (fun _ u => inv items u) allowed := by
    intro rest
    induction rest with
    | nil =>
        intro done t hitems hinv
        rw [List.append_nil] at hitems
        rw [hitems]
        exact hinv
    | cons a rest ih =>
        intro done t hitems hinv
        rw [each_cons]
        refine bind (step done a rest t hitems hinv) ?_
        intro _ u hu
        exact ih (done ++ [a]) u (by rw [hitems, List.append_assoc]; rfl) hu
  exact key items [] s rfl h

end Ensures

/-! ### Steps that commute with a change -/

/-- It makes no difference whether the state is changed before a step or after it. -/
def Commutes (change : σ → σ) (act : Act σ α) : Prop :=
  ∀ s, act (change s) = ⟨change (act s).state, (act s).warnings, (act s).result⟩

namespace Commutes

variable {change : σ → σ}

/-- A run of the changed state is a run of the state itself, with the change made at its end. -/
theorem of_ok {act : Act σ α} (h : Commutes change act) {s t : σ} {warnings : List Warning} {a : α}
    (e : act (change s) = ⟨t, warnings, .ok a⟩) :
    ∃ u, act s = ⟨u, warnings, .ok a⟩ ∧ t = change u := by
  rw [h s] at e
  obtain ⟨hstate, hwarnings, hresult⟩ := Outcome.mk.inj e
  refine ⟨(act s).state, ?_, hstate.symm⟩
  rw [← hwarnings, ← hresult]

theorem pure (a : α) : Commutes change (Pure.pure a : Act σ α) :=
  fun _ => rfl

theorem modify {other : σ → σ} (h : ∀ s, other (change s) = change (other s)) :
    Commutes change (Act.modify other) := by
  intro s
  simp only [Act.modify, h]

theorem fail (cause : Cause) : Commutes change (Act.fail cause : Act σ α) :=
  fun _ => rfl

theorem ofExcept (value : Except Cause α) :
    Commutes change (Act.ofExcept value : Act σ α) := by
  cases value with
  | ok a => exact pure a
  | error cause => exact fail cause

theorem assume (holds : Bool) (what : String) :
    Commutes change (Act.assume holds what : Act σ Unit) := by
  cases holds with
  | true => exact pure ()
  | false => exact fail _

theorem bind {act : Act σ α} {next : α → Act σ β} (h : Commutes change act)
    (k : ∀ a, Commutes change (next a)) : Commutes change (act >>= next) := by
  intro s
  have hs := h s
  rcases e : act s with ⟨t, warnings, fault | a⟩
  · rw [e] at hs
    rw [bind_apply_error next e, bind_apply_error next hs]
  · rw [e] at hs
    rw [bind_apply_ok next e, bind_apply_ok next hs, k a t]

/-- A step that looks at the state commutes with a change that it does not see. -/
theorem get_bind {next : σ → Act σ α} (unseen : ∀ s, next (change s) = next s)
    (h : ∀ s, Commutes change (next s)) : Commutes change (Act.get >>= next) := by
  intro s
  rw [get_bind_apply, get_bind_apply, unseen s, h s s]

theorem each {items : List α} {act : α → Act σ Unit} (h : ∀ a, Commutes change (act a)) :
    Commutes change (Act.each items act) := by
  induction items with
  | nil => exact pure ()
  | cons a rest ih => exact bind (h a) fun _ => ih

end Commutes

end PluginHelp.Act
