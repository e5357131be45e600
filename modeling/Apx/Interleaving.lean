import Mathlib.Data.Option.Basic

/-! Runs of a system of threads: the steps of all of them, one after the other, in any order. -/

namespace Interleaving

variable {State Step : Type*}

/-- A run whose steps all meet a condition on the state in front of them. A step that gives `none` is
not there to be taken. -/
def Run (apply : State → Step → Option State) (meets : State → Step → Prop) :
    State → List Step → State → Prop
  | s, [], s' => s = s'
  | s, step :: steps, s' => meets s step ∧ ∃ mid, apply s step = some mid ∧ Run apply meets mid steps s'

/-- What every step keeps holds at the end of every run. -/
theorem Run.invariant {apply : State → Step → Option State} {meets : State → Step → Prop}
    {Holds : State → Prop}
    (keeps : ∀ s step s', Holds s → meets s step → apply s step = some s' → Holds s')
    {s s' : State} {steps : List Step} (run : Run apply meets s steps s') (start : Holds s) :
    Holds s' := by
  induction steps generalizing s with
  | nil => exact run ▸ start
  | cons step steps ih =>
    obtain ⟨met, mid, taken, rest⟩ := run
    exact ih rest (keeps s step mid start met taken)

end Interleaving
