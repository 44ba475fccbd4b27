import Mathlib

/-!
# Labelled transition systems

The buffer pool and the heap-file handles are modelled as state machines
whose labels are the calls a client makes (together with what the DB layer
answers to them). A run is a list of labels; a reachable state is the end of
a run from an initial state. An invariant is proved once per machine with
`Inductive.reachable`: it holds initially and every step keeps it.
-/
namespace Minirel

structure LTS (S L : Type) where
  init : S → Prop
  step : S → L → S → Prop

namespace LTS

variable {S L : Type} (M : LTS S L)

/-- `Run s ls s'`: from `s` the labels `ls`, in order, lead to `s'`. -/
inductive Run : S → List L → S → Prop
  | nil (s : S) : Run s [] s
  | cons {s t u : S} {l : L} {ls : List L} : M.step s l t → Run t ls u → Run s (l :: ls) u

def Reachable (s : S) : Prop := ∃ s₀ ls, M.init s₀ ∧ M.Run s₀ ls s

/-- `I` holds initially and every step keeps it. -/
structure Inductive (I : S → Prop) : Prop where
  init : ∀ s, M.init s → I s
  step : ∀ s l s', I s → M.step s l s' → I s'

variable {M}

theorem Run.preserves {I : S → Prop} (hstep : ∀ s l s', I s → M.step s l s' → I s') :
    ∀ {s ls s'}, M.Run s ls s' → I s → I s'
  | _, _, _, .nil _, h => h
  | _, _, _, .cons hs hr, h => hr.preserves hstep (hstep _ _ _ h hs)

theorem Run.snoc : ∀ {s ls t}, M.Run s ls t → ∀ {l u}, M.step t l u → M.Run s (ls ++ [l]) u
  | _, _, _, .nil _, _, _, h => .cons h (.nil _)
  | _, _, _, .cons h1 hr, _, _, h => .cons h1 (hr.snoc h)

theorem Inductive.reachable {I : S → Prop} (h : M.Inductive I) {s : S} (hr : M.Reachable s) :
    I s := by
  obtain ⟨s₀, ls, hi, hrun⟩ := hr
  exact hrun.preserves h.step (h.init _ hi)

theorem Reachable.step {s s' : S} {l : L} (hr : M.Reachable s) (h : M.step s l s') :
    M.Reachable s' := by
  obtain ⟨s₀, ls, hi, hrun⟩ := hr
  exact ⟨s₀, ls ++ [l], hi, hrun.snoc h⟩

end LTS

end Minirel
