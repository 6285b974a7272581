/-
What closing an entry leaves behind.

An entry about a dictionary and of no other kind becomes one of that kind.  Then a function or a
command that is no exception gets its usage, and nothing else about the entry changes.  So an entry
that was closed is settled: it has a usage if it is one that needs one, and only then.
-/
import PluginHelp.Proofs.Entry.Controls

namespace PluginHelp.Entry

open Act

/-- Whether an entry begins with a usage when it is written. -/
def needsUsage (e : Entry) : Bool :=
  (e.isOf .function || e.isOf .command) && !e.hasOwn "exception"

/-- An entry that needs a usage has one, and no other entry does. -/
structure Settled (e : Entry) : Prop where
  usage : e.needsUsage = true → ∃ usage, e.own? "usage" = some (.text usage)
  none : e.needsUsage = false → e.own? "usage" = none

/-- Two entries differ in their usage and their header at most. -/
structure SameButUsage (e t : Entry) : Prop where
  own : ∀ control, control ≠ "usage" → t.own? control = e.own? control
  shared : t.shared = e.shared
  isSecondary : t.isSecondary = e.isSecondary
  isClosed : t.isClosed = e.isClosed

theorem sameButUsage_of_unheaded {e t : Entry} (h : t.unheaded = e.unheaded) :
    SameButUsage e t := by
  have hview {γ : Type} (view : Entry → γ) : view t.unheaded = view e.unheaded := congrArg view h
  exact ⟨fun control _ => hview (·.own? control), hview shared, hview isSecondary, hview isClosed⟩

namespace SameButUsage

variable {e t u : Entry}

theorem putUsage (h : SameButUsage e t) (usage : Value) :
    SameButUsage e (t.putOwn "usage" usage) where
  own := fun control hcontrol =>
    (own?_putOwn_of_ne t usage hcontrol.symm).trans (h.own control hcontrol)
  shared := h.shared
  isSecondary := h.isSecondary
  isClosed := h.isClosed

theorem kindValue (h : SameButUsage e t) : t.kindValue = e.kindValue :=
  congrArg (·.getD .nothing) (h.own "type" (by decide))

theorem isOf (h : SameButUsage e t) (kind : Kind) : t.isOf kind = e.isOf kind :=
  congrArg (· == kind.toValue) h.kindValue

theorem hasOwn (h : SameButUsage e t) {control : String} (hcontrol : control ≠ "usage") :
    t.hasOwn control = e.hasOwn control :=
  congrArg Option.isSome (h.own control hcontrol)

theorem needsUsage (h : SameButUsage e t) : t.needsUsage = e.needsUsage := by
  rw [Entry.needsUsage, Entry.needsUsage, h.isOf, h.isOf, h.hasOwn (by decide)]

end SameButUsage

theorem settleUsage_ensures {e : Entry} (hnone : e.own? "usage" = none) :
    Ensures settleUsage e (fun _ t => SameButUsage e t ∧ t.Settled) Cause.OfEntry := by
  -- Whether the entry had a header or not, its usage is worked out and put down.
  have hput (s : Entry) (header : Header) (hs : s.unheaded = e.unheaded)
      (hneeds : e.needsUsage = true) :
      Ensures (do
          let usage ← usageOf header
          Act.modify (·.putOwn "usage" (.text usage))) s
        (fun _ t => SameButUsage e t ∧ t.Settled) Cause.OfEntry := by
    refine Ensures.bind (Ensures.of_confined (usageOf_touchesHeader header) s) fun usage t ht => ?_
    have hsame := (sameButUsage_of_unheaded (ht.trans hs)).putUsage (.text usage)
    refine Ensures.modify ⟨hsame, fun _ => ⟨usage, own?_putOwn_self t "usage" _⟩, fun hno => ?_⟩
    rw [hsame.needsUsage, hneeds] at hno
    cases hno
  unfold settleUsage
  refine Ensures.get_bind (Ensures.ite (fun hneeds => ?_) fun hneeds => ?_)
  · dsimp only
    exact Ensures.ite (fun _ => Ensures.modify_bind (hput _ _ rfl hneeds))
      fun _ => hput _ _ rfl hneeds
  · exact Ensures.pure ⟨sameButUsage_of_unheaded rfl, fun h => absurd h hneeds, fun _ => hnone⟩

/-! ### Closing -/

/-- The entry with the mark that it is closed. -/
def shut (e : Entry) : Entry :=
  { e with isClosed := true }

/-- The entry with the kind that closing gives it. -/
def inferred (e : Entry) : Entry :=
  if e.kindValue.isYes && e.hasOwn "dict" then e.putOwn "type" Kind.dictionary.toValue else e

/-- Checks that only a function is marked as private or public. -/
def checkPrivate : Act Entry Bool := do
  let e ← Act.get
  if e.hasOwn "private" && !e.isOf .function then
    Act.fail (.invalidEntry "Only functions may be marked as private.")
  return true

theorem kindValue_of_isYes {e : Entry} (h : e.kindValue.isYes = true) :
    e.kindValue = .flag true := by
  cases hkind : e.kindValue <;> simp_all [Value.isYes]

/-- A kind yet to come gives way to that of a dictionary. -/
theorem setKind_dictionary {e : Entry} (h : e.kindValue.isYes = true) :
    setKind Kind.dictionary.toValue e
      = ⟨e.putOwn "type" Kind.dictionary.toValue, [], .ok ()⟩ := by
  unfold setKind
  rw [get_bind_apply, kindValue_of_isYes h]
  rfl

/-- Closing an open entry infers its kind, settles its usage and checks whether it may be private. -/
theorem close_apply {e : Entry} (h : e.isClosed = false) :
    close e = (settleUsage >>= fun _ => checkPrivate) e.shut.inferred := by
  unfold close
  rw [get_bind_apply, h, if_neg (by decide), modify_bind_apply, get_bind_apply]
  dsimp only
  rw [show { e with isClosed := true } = e.shut from rfl]
  unfold inferred
  split
  · rename_i hcond
    rw [bind_apply_ok _ (setKind_dictionary (Bool.and_eq_true_iff.mp hcond).1), List.nil_append]
    rfl
  · rfl

theorem own?_inferred (e : Entry) {control : String} (h : control ≠ "type") :
    e.shut.inferred.own? control = e.own? control := by
  unfold inferred
  split
  · exact own?_putOwn_of_ne e.shut _ h.symm
  · rfl

theorem close_settles {e : Entry} (h : e.isClosed = false) (hnone : e.own? "usage" = none) :
    Ensures close e (fun _ t => SameButUsage e.shut.inferred t ∧ t.Settled) Cause.OfEntry := by
  have hclose : Ensures (settleUsage >>= fun _ => checkPrivate) e.shut.inferred
      (fun _ t => SameButUsage e.shut.inferred t ∧ t.Settled) Cause.OfEntry := by
    refine Ensures.bind (settleUsage_ensures ?_) fun _ t ht => ?_
    · exact (own?_inferred e (by decide)).trans hnone
    unfold checkPrivate
    refine Ensures.get_bind (Ensures.ite (fun _ => Ensures.fail_bind trivial) fun _ => ?_)
    exact Ensures.pure ht
  unfold Ensures at hclose ⊢
  rw [close_apply h]
  exact hclose

end PluginHelp.Entry
