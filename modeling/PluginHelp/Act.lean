/-
Steps that may warn and may fail.

A step acts on a state.  If it fails, the state is the one it had reached, and the warnings given so
far are kept: nothing is undone.
-/
import PluginHelp.Fault

namespace PluginHelp

/-- What a step leaves behind. -/
structure Outcome (σ α : Type) where
  state : σ
  warnings : List Warning
  result : Except Fault α

/-- A step that acts on a state, may warn and may fail. -/
def Act (σ α : Type) : Type :=
  σ → Outcome σ α

namespace Act

variable {σ τ α β : Type}

/-- Runs a step. -/
def run (act : Act σ α) (s : σ) : Outcome σ α :=
  act s

/-- The step that only gives a value. -/
protected def pure (a : α) : Act σ α :=
  fun s => ⟨s, [], .ok a⟩

/-- One step after another; the second one is left out if the first one fails. -/
protected def bind (act : Act σ α) (next : α → Act σ β) : Act σ β :=
  fun s =>
    match act s with
    | ⟨t, warnings, .error fault⟩ => ⟨t, warnings, .error fault⟩
    | ⟨t, warnings, .ok a⟩ =>
      match next a t with
      | ⟨u, more, result⟩ => ⟨u, warnings ++ more, result⟩

instance : Monad (Act σ) where
  pure := Act.pure
  bind := Act.bind

/-- The state. -/
def get : Act σ σ :=
  fun s => ⟨s, [], .ok s⟩

/-- Changes the state. -/
def modify (change : σ → σ) : Act σ Unit :=
  fun s => ⟨change s, [], .ok ()⟩

/-- Fails with a fault. -/
def stop (fault : Fault) : Act σ α :=
  fun s => ⟨s, [], .error fault⟩

/-- Fails for a cause whose origin is not known. -/
def fail (cause : Cause) : Act σ α :=
  stop { cause }

/-- The same step, whose faults are those of a line of a file. -/
def located (file : Option String) (line : Int) (act : Act σ α) : Act σ α :=
  fun s =>
    let after := act s
    { after with result := after.result.mapError (·.locatedAt file line) }

/-- Warns. -/
def warn (warning : Warning) : Act σ Unit :=
  fun s => ⟨s, [warning], .ok ()⟩

/-- A value that may not be there for a cause. -/
def ofExcept : Except Cause α → Act σ α
  | .ok a => Act.pure a
  | .error cause => fail cause

/-- Fails with an assumption that does not hold. -/
def assume (holds : Bool) (what : String) : Act σ Unit :=
  if holds then Act.pure () else fail (.assumption what)

/-- A step on a part of a state. -/
def on (part : τ → σ) (put : σ → τ → τ) (act : Act σ α) : Act τ α :=
  fun t =>
    let after := act (part t)
    ⟨put after.state t, after.warnings, after.result⟩

/-- Runs a step on a value of its own, and gives what becomes of it. -/
def within (act : Act τ Unit) (t : τ) : Act σ τ :=
  fun s =>
    let after := act t
    ⟨s, after.warnings, after.result.map fun _ => after.state⟩

/-- Does a step for every item in order. -/
def each (items : List α) (act : α → Act σ Unit) : Act σ Unit :=
  match items with
  | [] => Act.pure ()
  | a :: rest => Act.bind (act a) fun _ => each rest act

/-! ### One step after another -/

@[simp] theorem pure_apply (a : α) (s : σ) : (pure a : Act σ α) s = ⟨s, [], .ok a⟩ :=
  rfl

/-- After a step that succeeds, the next one acts on what it left, and warns after it. -/
theorem bind_apply_ok {act : Act σ α} {s t : σ} {warnings : List Warning} {a : α}
    (next : α → Act σ β) (h : act s = ⟨t, warnings, .ok a⟩) :
    (act >>= next) s
      = ⟨(next a t).state, warnings ++ (next a t).warnings, (next a t).result⟩ := by
  change Act.bind act next s = _
  rw [Act.bind, h]

/-- After a step that fails, nothing more is done. -/
theorem bind_apply_error {act : Act σ α} {s t : σ} {warnings : List Warning} {fault : Fault}
    (next : α → Act σ β) (h : act s = ⟨t, warnings, .error fault⟩) :
    (act >>= next) s = ⟨t, warnings, .error fault⟩ := by
  change Act.bind act next s = _
  rw [Act.bind, h]

instance : LawfulMonad (Act σ) := .mk' _
  (fun act => funext fun s => by
    match h : act s with
    | ⟨t, warnings, .error fault⟩ => exact bind_apply_error _ h
    | ⟨t, warnings, .ok a⟩ => exact (bind_apply_ok _ h).trans (by simp [Act.pure]))
  (fun a next => funext fun s => bind_apply_ok next (pure_apply a s))
  (fun act next last => funext fun s => by
    match h : act s with
    | ⟨t, warnings, .error fault⟩ =>
      rw [bind_apply_error _ h, bind_apply_error _ (bind_apply_error _ h)]
    | ⟨t, warnings, .ok a⟩ =>
      rw [bind_apply_ok _ h]
      match k : next a t with
      | ⟨u, more, .error fault⟩ =>
        rw [bind_apply_error _ ((bind_apply_ok _ h).trans (by rw [k])), bind_apply_error _ k]
      | ⟨u, more, .ok b⟩ =>
        rw [bind_apply_ok _ ((bind_apply_ok _ h).trans (by rw [k])), bind_apply_ok _ k,
          List.append_assoc])

end Act

end PluginHelp
