import Mathlib.Data.Option.Basic

/-!
# Runs of a system

A system whose steps have no calls in them is a function of a label and a
state, undefined where the step is not possible.  A run is a list of labels.

* `System.Each` says that every step of a run meets a condition, which may
  look at the states before and after it.
* `System.Throughout` says that every state of a run has a property.
* `System.throughout_iff_each` is the way a property of all states is traced to
  the steps that keep it.
-/

namespace Async

/-- What a label does to a state, where it is possible. -/
structure System (L S : Type) where
  step : L → S → Option S

namespace System

variable {L S : Type} (M : System L S)

/-- A run: the steps of a list of labels, one after the other. -/
def run : List L → S → Option S
  | [], s => some s
  | l :: ls, s => (M.step l s).bind (run ls)

/-- Every step of a run meets `C`, which sees the label and the states before
and after the step. -/
def Each (C : L → S → S → Prop) : List L → S → Prop
  | [], _ => True
  | l :: ls, s => ∀ s' ∈ M.step l s, C l s s' ∧ Each C ls s'

/-- Every state of a run meets `J`. -/
def Throughout (J : S → Prop) : List L → S → Prop
  | [], s => J s
  | l :: ls, s => J s ∧ ∀ s' ∈ M.step l s, Throughout J ls s'

variable {M} {C C' : L → S → S → Prop} {J K : S → Prop} {s : S} {ls : List L}

theorem Throughout.head (h : M.Throughout J ls s) : J s := by
  cases ls with
  | nil => exact h
  | cons l ls => exact h.1

theorem each_true (ls : List L) (s : S) : M.Each (fun _ _ _ => True) ls s := by
  induction ls generalizing s with
  | nil => trivial
  | cons l ls ih => exact fun s' _ => ⟨trivial, ih s'⟩

/-- The state a run ends in is one of its states. -/
theorem Throughout.run {s' : S} (h : M.Throughout J ls s) (hrun : M.run ls s = some s') :
    J s' := by
  induction ls generalizing s with
  | nil => exact Option.some.inj hrun ▸ h
  | cons l ls ih =>
      obtain ⟨s₁, hs₁, hrun⟩ := Option.bind_eq_some_iff.mp hrun
      exact ih (h.2 s₁ hs₁) hrun

/-- Two conditions that agree on the steps from the states of an invariant
agree on the runs from them. -/
theorem each_congr (keep : ∀ l ∈ ls, ∀ s s', J s → M.step l s = some s' → J s')
    (agree : ∀ l ∈ ls, ∀ s s', J s → M.step l s = some s' → (C l s s' ↔ C' l s s')) (hJ : J s) :
    M.Each C ls s ↔ M.Each C' ls s := by
  induction ls generalizing s with
  | nil => rfl
  | cons l ls ih =>
      rw [List.forall_mem_cons] at keep agree
      refine forall₂_congr fun s' hs' => ?_
      rw [agree.1 s s' hJ hs', ih keep.2 agree.2 (keep.1 s s' hJ hs')]

/-- What every step of a run keeps holds throughout it. -/
theorem Each.throughout (keep : ∀ l s s', C l s s' → J s → M.step l s = some s' → J s')
    (h : M.Each C ls s) (hJ : J s) : M.Throughout J ls s := by
  induction ls generalizing s with
  | nil => exact hJ
  | cons l ls ih =>
      refine ⟨hJ, fun s' hs' => ?_⟩
      obtain ⟨hC, h⟩ := h s' hs'
      exact ih h (keep l s s' hC hJ hs')

theorem Throughout.mono (hJK : ∀ s, J s → K s) (h : M.Throughout J ls s) :
    M.Throughout K ls s := by
  induction ls generalizing s with
  | nil => exact hJK s h
  | cons l ls ih => exact ⟨hJK s h.1, fun s' hs' => ih (h.2 s' hs')⟩

/-- What every step from a state of `J` meets, every step of a run through `J`
meets. -/
theorem Throughout.each (meet : ∀ l s s', J s → M.step l s = some s' → C l s s')
    (h : M.Throughout J ls s) : M.Each C ls s := by
  induction ls generalizing s with
  | nil => trivial
  | cons l ls ih => exact fun s' hs' => ⟨meet l s s' h.1 hs', ih (h.2 s' hs')⟩

/-- Where `C` is what a step needs in order to keep the invariant `J`, and what
it has met if it leads to a state of `K`, the states of a run are all in `K`
exactly if its steps all meet `C`. -/
theorem throughout_iff_each (hJ : J s) (hJK : ∀ s, J s → K s)
    (keep : ∀ l s s', C l s s' → J s → M.step l s = some s' → J s')
    (need : ∀ l s s', J s → M.step l s = some s' → K s' → C l s s') :
    M.Throughout K ls s ↔ M.Each C ls s := by
  constructor
  · intro h
    induction ls generalizing s with
    | nil => trivial
    | cons l ls ih =>
        intro s' hs'
        have hC := need l s s' hJ hs' (h.2 s' hs').head
        exact ⟨hC, ih (keep l s s' hC hJ hs') (h.2 s' hs')⟩
  · intro h
    exact (h.throughout keep hJ).mono hJK

end System

end Async
