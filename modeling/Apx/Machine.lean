import Mathlib.Logic.Relation
import Mathlib.Order.WellFounded

/-! Machines that take one turn after another until a turn halts with a result.
Nothing here knows which machine it is: a turn is any function on any state. -/

namespace Apx.Machine

/-- What one turn of a loop does: it goes on from a new state, or it returns. -/
inductive Turn (σ ρ : Type) where
  | next (state : σ)
  | halt (result : ρ)

variable {σ ρ : Type}

/-- At most `fuel` turns; `none` says that the loop has not returned yet. -/
def run (turn : σ → Turn σ ρ) : Nat → σ → Option ρ
  | 0, _ => none
  | fuel + 1, s =>
      match turn s with
      | .next t => run turn fuel t
      | .halt r => some r

/-- The loop returns `r` when it is given turns enough. -/
def Yields (turn : σ → Turn σ ρ) (s : σ) (r : ρ) : Prop := ∃ fuel, run turn fuel s = some r

def Goes (turn : σ → Turn σ ρ) (s t : σ) : Prop := turn s = .next t

/-- Any number of turns that go on. -/
def Reaches (turn : σ → Turn σ ρ) : σ → σ → Prop := Relation.ReflTransGen (Goes turn)

theorem Reaches.refl (turn : σ → Turn σ ρ) (s : σ) : Reaches turn s s := Relation.ReflTransGen.refl

theorem Reaches.trans {turn : σ → Turn σ ρ} {s t u : σ} (first : Reaches turn s t)
    (second : Reaches turn t u) : Reaches turn s u := Relation.ReflTransGen.trans first second

theorem Reaches.one {turn : σ → Turn σ ρ} {s t : σ} (goes : turn s = .next t) :
    Reaches turn s t := Relation.ReflTransGen.single goes

theorem Yields.halt {turn : σ → Turn σ ρ} {s : σ} {r : ρ} (halts : turn s = .halt r) :
    Yields turn s r := ⟨1, by simp only [run, halts]⟩

theorem Yields.next {turn : σ → Turn σ ρ} {s t : σ} {r : ρ} (goes : turn s = .next t)
    (rest : Yields turn t r) : Yields turn s r := by
  obtain ⟨fuel, done⟩ := rest
  exact ⟨fuel + 1, by simpa only [run, goes] using done⟩

theorem Reaches.yields {turn : σ → Turn σ ρ} {s t : σ} {r : ρ} (path : Reaches turn s t)
    (rest : Yields turn t r) : Yields turn s r := by
  induction path using Relation.ReflTransGen.head_induction_on with
  | refl => exact rest
  | head goes _ ih => exact Yields.next goes ih

/-- More turns change nothing once the loop has returned. -/
theorem run_mono (turn : σ → Turn σ ρ) {fuel more : Nat} (le : fuel ≤ more) {s : σ} {r : ρ}
    (done : run turn fuel s = some r) : run turn more s = some r := by
  induction fuel generalizing s more with
  | zero => simp [run] at done
  | succ fuel ih =>
    obtain ⟨extra, rfl⟩ : ∃ extra, more = extra + 1 := ⟨more - 1, by omega⟩
    cases h : turn s with
    | next t =>
      simp only [run, h] at done ⊢
      exact ih (by omega) done
    | halt r' => simpa only [run, h] using done

/-- An invariant of single turns holds in every state reached. -/
theorem Reaches.invariant {turn : σ → Turn σ ρ} {P : σ → Prop}
    (step : ∀ s t, P s → turn s = .next t → P t) {s t : σ} (path : Reaches turn s t)
    (initial : P s) : P t := by
  induction path with
  | refl => exact initial
  | tail _ goes ih => exact step _ _ ih goes

/-- A loop whose turns keep an invariant and lower a well-founded measure returns. -/
theorem yields_of_measure {turn : σ → Turn σ ρ} {α : Type} (lt : α → α → Prop)
    (wf : WellFounded lt) (measure : σ → α) (P : σ → Prop)
    (step : ∀ s t, P s → turn s = .next t → P t ∧ lt (measure t) (measure s)) (s : σ)
    (initial : P s) : ∃ r, Yields turn s r := by
  have descend : ∀ a s, measure s = a → P s → ∃ r, Yields turn s r := by
    intro a
    induction a using wf.induction with
    | _ a ih =>
      intro s same holds
      cases h : turn s with
      | halt r => exact ⟨r, Yields.halt h⟩
      | next t =>
        obtain ⟨holds', lower⟩ := step s t holds h
        obtain ⟨r, rest⟩ := ih (measure t) (same ▸ lower) t rfl holds'
        exact ⟨r, Yields.next h rest⟩
  exact descend _ s rfl initial

/-- Every turn of the second machine is a turn of the first one, from related states on. -/
structure Simulates {σ' ρ' : Type} (turn : σ → Turn σ ρ) (turn' : σ' → Turn σ' ρ')
    (R : σ → σ' → Prop) (Q : ρ → ρ' → Prop) : Prop where
  next : ∀ {s s' t'}, R s s' → turn' s' = .next t' → ∃ t, turn s = .next t ∧ R t t'
  halt : ∀ {s s' r'}, R s s' → turn' s' = .halt r' → ∃ r, turn s = .halt r ∧ Q r r'

/-- The first machine returns what the second one returns. -/
theorem Simulates.yields {σ' ρ' : Type} {turn : σ → Turn σ ρ} {turn' : σ' → Turn σ' ρ'}
    {R : σ → σ' → Prop} {Q : ρ → ρ' → Prop} (simulates : Simulates turn turn' R Q) {s : σ} {s' : σ'}
    {r' : ρ'} (related : R s s') (returns : Yields turn' s' r') : ∃ r, Yields turn s r ∧ Q r r' := by
  obtain ⟨fuel, done⟩ := returns
  induction fuel generalizing s s' with
  | zero => simp [run] at done
  | succ fuel ih =>
    rw [run] at done
    cases h : turn' s' with
    | next t' =>
      rw [h] at done
      obtain ⟨t, goes, related'⟩ := simulates.next related h
      obtain ⟨r, rest, same⟩ := ih related' done
      exact ⟨r, .next goes rest, same⟩
    | halt r'' =>
      rw [h] at done
      cases done
      obtain ⟨r, halts, same⟩ := simulates.halt related h
      exact ⟨r, .halt halts, same⟩

end Apx.Machine
