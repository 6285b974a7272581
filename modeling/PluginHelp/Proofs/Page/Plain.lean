/-
Merging entries that pass nothing on.

An entry without shared controls says nothing about the plugin or about the order of the page, so
merging it comes down to what becomes of the entry itself.  It is refused if it has a namespace other
than the one of its file, and what is refused leaves no trace.  So entries of this kind can be
followed one by one, also where some of them fail.
-/
import Mathlib.Data.List.Induction
import PluginHelp.Proofs.Page.Merging

namespace PluginHelp.Page

open Act

/-- Merges entries one after the other, and goes on where one of them is refused. -/
def mergeEach (arrivals : List Arrival) (c : Context) : Context :=
  arrivals.foldl (fun c a => (merge a.1 a.2 c).state) c

theorem mergeEach_concat (arrivals : List Arrival) (a : Arrival) (c : Context) :
    mergeEach (arrivals ++ [a]) c = (merge a.1 a.2 (mergeEach arrivals c)).state :=
  List.foldl_concat _ _ _ _

/-- Where nothing is refused, it makes no difference whether one would go on. -/
theorem mergeAll_eq_ok_iff {arrivals : List Arrival} {a : Arrival} {c : Context} :
    (mergeAll (arrivals ++ [a]) c).result = .ok ()
      ↔ (mergeAll arrivals c).result = .ok ()
        ∧ (merge a.1 a.2 (mergeAll arrivals c).state).result = .ok () := by
  rw [mergeAll, each_append, each_singleton, ← mergeAll]
  rcases hfront : mergeAll arrivals c with ⟨d, warnings, fault | u⟩
  · rw [bind_apply_error _ hfront]
    simp
  · rw [bind_apply_ok _ hfront]
    simp

theorem mergeAll_state {arrivals : List Arrival} {c : Context}
    (h : (mergeAll arrivals c).result = .ok ()) :
    (mergeAll arrivals c).state = mergeEach arrivals c := by
  induction arrivals using List.reverseRecOn with
  | nil => rfl
  | append_singleton arrivals a ih =>
      obtain ⟨hfront, -⟩ := mergeAll_eq_ok_iff.mp h
      rw [mergeEach_concat, ← ih hfront, mergeAll, each_append, each_singleton, ← mergeAll]
      have hrun : mergeAll arrivals c
          = ⟨(mergeAll arrivals c).state, (mergeAll arrivals c).warnings, .ok ()⟩ := by
        rw [← hfront]
      rw [bind_apply_ok _ hrun]

namespace Arrival

/-- Whether an entry has the namespace of its file, or none. -/
def agrees (a : Arrival) : Bool :=
  (a.1.own? "namespace").getD a.2 == a.2

/-- Why an entry is refused that has another namespace than its file. -/
def refusal (a : Arrival) : Fault where
  cause := .inconsistentControl "namespace" ((a.1.own? "namespace").getD a.2) a.2

/-- Whether an entry is documentation of a kind that is known. -/
def Ready (a : Arrival) : Prop :=
  a.1.kindValue.isGiven = true ∧ a.1.kindValue.isYes = false

theorem ready_of_isOf {a : Arrival} {kind : Kind} (h : a.1.isOf kind = true)
    (hlabel : kind.label ≠ "") : a.Ready := by
  rw [Ready, Entry.isOf_iff.mp h]
  exact ⟨by simp [Kind.toValue, Value.isGiven, hlabel], rfl⟩

end Arrival

section

variable {a : Arrival} {c : Context} {e : Entry}

theorem merge_of_disagrees (hready : a.Ready) (h : a.agrees = false) :
    merge a.1 a.2 c = ⟨c, [], .error a.refusal⟩ := by
  have hset : Entry.setOwn "namespace" a.2 a.1 = ⟨a.1.marked, [], .error a.refusal⟩ := by
    unfold Arrival.agrees at h
    rw [Entry.setOwn_apply, Entry.own?_marked _ (by decide), h]
    rfl
  have hwithin : Act.within (Entry.setOwn "namespace" a.2) a.1 c = ⟨c, [], .error a.refusal⟩ := by
    rw [within, hset]
    rfl
  rw [merge_eq, if_pos hready.1, if_neg (by rw [hready.2]; decide), bind_apply_error _ hwithin]

theorem merge_of_agrees (hready : a.Ready) (h : a.agrees = true) :
    merge a.1 a.2 c = takeIn a.placed c := by
  have hset : Entry.setOwn "namespace" a.2 a.1 = ⟨a.placed, [], .ok ()⟩ := by
    unfold Arrival.agrees at h
    rw [Arrival.placed, Entry.placed, Entry.setOwn_apply, Entry.own?_marked _ (by decide), h]
    rfl
  have hwithin : Act.within (Entry.setOwn "namespace" a.2) a.1 c = ⟨c, [], .ok a.placed⟩ := by
    rw [within, hset]
    rfl
  rw [merge_eq, if_pos hready.1, if_neg (by rw [hready.2]; decide), bind_apply_ok _ hwithin,
    List.nil_append]

theorem takeOrder_of_plain (h : e.shared = []) : takeOrder e = pure () := by
  unfold takeOrder
  rw [h]
  rfl

/-- A section or a backmatter that passes nothing on is settled on its page, and that is all. -/
theorem takeIn_of_speaks (h : e.shared = []) (hspeaks : e.speaks = true) :
    takeIn e = Context.onPage (if e.isOf .sect then addSection e else addBackmatter e) := by
  have hadd : Plugin.add e = pure () := by
    have htake (control : String) (held : Plugin → Value) (put : Value → Plugin → Plugin) :
        Plugin.takeOver control held put e = pure () := by
      unfold Plugin.takeOver
      rw [h]
      rfl
    have hnone (control : String) : e.shared.has control = false := by
      rw [h]
      rfl
    unfold Entry.speaks at hspeaks
    rw [Plugin.add, if_pos hspeaks, Plugin.consume, assume_bind_of_true hspeaks, hnone, hnone, htake,
      htake]
    rfl
  unfold takeIn
  rw [takeOrder_of_plain h, hadd]
  by_cases hsect : e.isOf .sect = true
  · simp only [hsect, if_true]
    rfl
  · have hback : e.isOf .backmatter = true := by
      simpa [Entry.speaks, hsect] using hspeaks
    simp only [hsect, hback, if_true]
    rfl

end

end PluginHelp.Page
