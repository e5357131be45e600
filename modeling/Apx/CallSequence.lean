import Mathlib.Tactic.TypeStar

/-! Sequences of calls on one object. A call leaves a state behind whether or not it failed, and
the next call starts from that state. -/

namespace CallSequence

variable {State Call : Type*} {step : State → Call → State}

/-- A condition on the state in front of a call holds of every call of a sequence. -/
def Always (step : State → Call → State) (holds : State → Call → Prop) : State → List Call → Prop
  | _, [] => True
  | s, call :: calls => holds s call ∧ Always step holds (step s call) calls

/-- Where calls that meet a condition keep an invariant, a sequence of them has whatever follows from
the invariant and the condition. -/
theorem Always.of_invariant (Holds : State → Prop) {calm holds : State → Call → Prop}
    (keeps : ∀ s call, Holds s → calm s call → Holds (step s call))
    (follows : ∀ s call, Holds s → calm s call → holds s call) {s : State} {calls : List Call}
    (start : Holds s) (always : Always step calm s calls) : Always step holds s calls := by
  induction calls generalizing s with
  | nil => exact trivial
  | cons call calls ih =>
    obtain ⟨met, rest⟩ := always
    exact ⟨follows s call start met, ih (keeps s call start met) rest⟩

/-- Where exactly the calls that meet a condition keep an invariant, it lasts through a sequence
exactly if all its calls meet the condition. -/
theorem always_iff (Holds : State → Prop) {calm : State → Call → Prop}
    (exactly : ∀ s call, Holds s → (Holds (step s call) ↔ calm s call)) {s : State}
    {calls : List Call} (start : Holds s) :
    Always step (fun s call => Holds (step s call)) s calls ↔ Always step calm s calls := by
  constructor
  · exact Always.of_invariant Holds (fun _ _ _ kept => kept)
      (fun s call start kept => (exactly s call start).mp kept) start
  · have keeps (s : State) (call : Call) (start : Holds s) (met : calm s call) : Holds (step s call) :=
      (exactly s call start).mpr met
    exact Always.of_invariant Holds keeps keeps start

end CallSequence
