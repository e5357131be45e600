import Mathlib.Data.Fintype.Basic
import Mathlib.Logic.Relation
import Mathlib.Order.RelClasses
import Mathlib.Data.Fintype.Order
import Mathlib.Order.WellFounded

/-! Walks through a graph whose edges are taken in order. A walk goes down each edge before it takes
the next one, remembers nothing and stops at the first edge that leads nowhere. -/

namespace Apx.DepthFirst

variable {V : Type}

/-- The edges of a list one after the other: `none` says that a visit has not returned, `some false`
that an edge led nowhere. -/
def follow (visit : V → Option Bool) : List (Option V) → Option Bool
  | [] => some true
  | none :: _ => some false
  | some v :: rest =>
    match visit v with
    | none => none
    | some false => some false
    | some true => follow visit rest

variable (next : V → List (Option V))

/-- The visit of a vertex, with a bound on how deep the visits may nest -/
def visit : Nat → V → Option Bool
  | 0, _ => none
  | depth + 1, v => follow (visit depth) (next v)

/-- Every edge below the vertex leads somewhere, and no path below it is infinite. -/
inductive Sound : V → Prop where
  | intro {v : V} (leads : none ∉ next v) (below : ∀ w, some w ∈ next v → Sound w) : Sound v

/-- The walk goes down to the vertex: all edges before are sound. -/
def Entered (edges : List (Option V)) (v : V) : Prop :=
  ∃ before after, edges = before ++ some v :: after ∧ ∀ edge ∈ before, ∃ w, edge = some w ∧ Sound next w

/-- The visit of `u` goes down to `v`. -/
def Visits (u v : V) : Prop := Entered next (next u) v

def Edge (u v : V) : Prop := some v ∈ next u

variable {next}

theorem follow_mono {first second : V → Option Bool} {edges : List (Option V)} {result : Bool}
    (more : ∀ v b, first v = some b → second v = some b) (returns : follow first edges = some result) :
    follow second edges = some result := by
  induction edges with
  | nil => exact returns
  | cons edge rest ih =>
    cases edge with
    | none => exact returns
    | some v =>
      rw [follow] at returns ⊢
      cases visited : first v with
      | none =>
        rw [visited] at returns
        contradiction
      | some b =>
        rw [visited] at returns
        rw [more v b visited]
        cases b with
        | false => exact returns
        | true => exact ih returns

/-- More depth changes nothing once a visit has returned. -/
theorem visit_mono {depth more : Nat} (le : depth ≤ more) {v : V} {result : Bool}
    (returns : visit next depth v = some result) : visit next more v = some result := by
  induction depth generalizing more v result with
  | zero => contradiction
  | succ depth ih =>
    obtain ⟨more, rfl⟩ : ∃ n, more = n + 1 := ⟨more - 1, by omega⟩
    exact follow_mono (fun w b known => ih (by omega) known) returns

theorem follow_append (visit : V → Option Bool) (first second : List (Option V)) :
    follow visit (first ++ second) =
      match follow visit first with
      | none => none
      | some false => some false
      | some true => follow visit second := by
  induction first with
  | nil => rfl
  | cons edge rest ih =>
    cases edge with
    | none => rfl
    | some v =>
      rw [List.cons_append, follow, follow]
      cases visit v with
      | none => rfl
      | some b =>
        cases b with
        | false => rfl
        | true => exact ih

/-- A list of edges is gone through when each of them is. -/
theorem follow_true_iff (visit : V → Option Bool) (edges : List (Option V)) :
    follow visit edges = some true ↔ ∀ edge ∈ edges, ∃ w, edge = some w ∧ visit w = some true := by
  induction edges with
  | nil => simp [follow]
  | cons edge rest ih =>
    cases edge with
    | none => simp [follow]
    | some v =>
      rw [follow, List.forall_mem_cons, ← ih]
      cases visited : visit v with
      | none => simp [visited]
      | some b => cases b <;> simp [visited]

theorem sound_of_visit {depth : Nat} {v : V} (returns : visit next depth v = some true) :
    Sound next v := by
  induction depth generalizing v with
  | zero => contradiction
  | succ depth ih =>
    have each := (follow_true_iff _ _).mp returns
    apply Sound.intro
    · intro nowhere
      obtain ⟨w, same, -⟩ := each _ nowhere
      contradiction
    · intro w mem
      obtain ⟨w', same, visited⟩ := each _ mem
      obtain rfl : w = w' := Option.some.inj same
      exact ih visited

/-- For finitely many edges one depth serves all. -/
theorem exists_depth {edges : List (Option V)} {P : V → Bool → Prop}
    (each : ∀ v, some v ∈ edges → ∃ depth b, visit next depth v = some b ∧ P v b) :
    ∃ depth, ∀ v, some v ∈ edges → ∃ b, visit next depth v = some b ∧ P v b := by
  induction edges with
  | nil => exact ⟨0, fun v mem => absurd mem List.not_mem_nil⟩
  | cons edge rest ih =>
    obtain ⟨depth, known⟩ := ih fun v mem => each v (List.mem_cons_of_mem _ mem)
    cases edge with
    | none =>
      refine ⟨depth, fun v mem => known v ?_⟩
      simpa using mem
    | some w =>
      obtain ⟨first, b, visited, holds⟩ := each w List.mem_cons_self
      refine ⟨max first depth, fun v mem => ?_⟩
      rcases List.mem_cons.mp mem with same | mem
      · obtain rfl : v = w := Option.some.inj same
        exact ⟨b, visit_mono (by omega) visited, holds⟩
      · obtain ⟨b, visited, holds⟩ := known v mem
        exact ⟨b, visit_mono (by omega) visited, holds⟩

theorem visit_of_sound {v : V} (sound : Sound next v) : ∃ depth, visit next depth v = some true := by
  induction sound with
  | @intro v leads below ih =>
    obtain ⟨depth, known⟩ := exists_depth (P := fun _ b => b = true) fun w mem => by
      obtain ⟨depth, visited⟩ := ih w mem
      exact ⟨depth, true, visited, rfl⟩
    refine ⟨depth + 1, (follow_true_iff _ _).mpr fun edge mem => ?_⟩
    cases edge with
    | none => exact absurd mem leads
    | some w =>
      obtain ⟨b, visited, rfl⟩ := known w mem
      exact ⟨w, rfl, visited⟩

/-- Where a walk has returned, so have the visits it went down to. -/
theorem visit_of_entered {depth : Nat} {edges : List (Option V)} {result : Bool} {v : V}
    (returns : follow (visit next depth) edges = some result) (entered : Entered next edges v) :
    ∃ b, visit next depth v = some b := by
  obtain ⟨before, after, rfl, sounds⟩ := entered
  rw [follow_append] at returns
  cases first : follow (visit next depth) before with
  | none =>
    rw [first] at returns
    contradiction
  | some b =>
    cases b with
    | true =>
      rw [first, follow] at returns
      cases visited : visit next depth v with
      | none =>
        rw [visited] at returns
        contradiction
      | some b => exact ⟨b, rfl⟩
    | false =>
      -- the edges before are sound, so they cannot have ended the walk
      obtain ⟨deep, known⟩ := @exists_depth _ next before (fun _ b => b = true) fun w mem => by
        obtain ⟨w', same, sound⟩ := sounds _ mem
        obtain rfl : w = w' := Option.some.inj same
        obtain ⟨depth, visited⟩ := visit_of_sound sound
        exact ⟨depth, true, visited, rfl⟩
      have all : follow (visit next (max depth deep)) before = some true := by
        refine (follow_true_iff _ _).mpr fun edge mem => ?_
        obtain ⟨w, rfl, -⟩ := sounds edge mem
        obtain ⟨b, visited, rfl⟩ := known w mem
        exact ⟨w, rfl, visit_mono (by omega) visited⟩
      have ended : follow (visit next (max depth deep)) before = some false :=
        follow_mono (fun w b visited => visit_mono (by omega) visited) first
      rw [all] at ended
      contradiction

/-- The walk over a list of edges returns exactly when the visits it goes down to do. -/
theorem follow_returns_iff (edges : List (Option V)) :
    (∃ depth result, follow (visit next depth) edges = some result) ↔
      ∀ v, Entered next edges v → ∃ depth result, visit next depth v = some result := by
  constructor
  · rintro ⟨depth, result, returns⟩ v entered
    obtain ⟨b, visited⟩ := visit_of_entered returns entered
    exact ⟨depth, b, visited⟩
  · intro each
    induction edges with
    | nil => exact ⟨0, true, rfl⟩
    | cons edge rest ih =>
      cases edge with
      | none => exact ⟨0, false, rfl⟩
      | some v =>
        obtain ⟨depth, b, visited⟩ := each v ⟨[], rest, rfl, fun _ mem => absurd mem List.not_mem_nil⟩
        cases b with
        | false => exact ⟨depth, false, by rw [follow, visited]⟩
        | true =>
          have sound := sound_of_visit visited
          obtain ⟨deep, result, returns⟩ := ih fun w ⟨before, after, same, sounds⟩ => by
            refine each w ⟨some v :: before, after, by rw [same, List.cons_append], fun edge mem => ?_⟩
            rcases List.mem_cons.mp mem with rfl | mem
            · exact ⟨v, rfl, sound⟩
            · exact sounds edge mem
          refine ⟨max depth deep, result, ?_⟩
          rw [follow, visit_mono (by omega) visited]
          exact follow_mono (fun w b known => visit_mono (by omega) known) returns

/-- A visit returns exactly when no path of visits below it is infinite. -/
theorem visit_returns_iff (v : V) :
    (∃ depth result, visit next depth v = some result) ↔ Acc (fun w u => Visits next u w) v := by
  constructor
  · rintro ⟨depth, result, returns⟩
    induction depth generalizing v result with
    | zero => contradiction
    | succ depth ih =>
      apply Acc.intro
      intro w entered
      obtain ⟨b, visited⟩ := visit_of_entered returns entered
      exact ih w b visited
  · intro acc
    induction acc with
    | intro v below ih =>
      obtain ⟨depth, result, returns⟩ := (follow_returns_iff (next v)).mpr fun w entered => ih w entered
      exact ⟨depth + 1, result, returns⟩

variable (next) in
/-- The walk over a list of edges returns with the result. -/
def Follows (edges : List (Option V)) (result : Bool) : Prop :=
  ∃ depth, follow (visit next depth) edges = some result

theorem Follows.nil : Follows next [] true := ⟨0, rfl⟩

theorem Follows.nowhere (rest : List (Option V)) : Follows next (none :: rest) false := ⟨0, rfl⟩

theorem Follows.visit {v : V} {result : Bool} (below : Follows next (next v) result) :
    ∃ depth, visit next depth v = some result := by
  obtain ⟨depth, returns⟩ := below
  exact ⟨depth + 1, returns⟩

theorem Follows.single {v : V} {result : Bool} (below : Follows next (next v) result) :
    Follows next [some v] result := by
  obtain ⟨depth, visited⟩ := below.visit
  refine ⟨depth, ?_⟩
  rw [follow, visited]
  cases result <;> rfl

theorem Follows.append {first second : List (Option V)} {result : Bool}
    (before : Follows next first true) (behind : Follows next second result) :
    Follows next (first ++ second) result := by
  obtain ⟨depth, returns⟩ := before
  obtain ⟨deep, returns'⟩ := behind
  refine ⟨max depth deep, ?_⟩
  rw [follow_append, follow_mono (fun v b known => visit_mono (by omega) known) returns]
  exact follow_mono (fun v b known => visit_mono (by omega) known) returns'

theorem Follows.append_false {first : List (Option V)} (before : Follows next first false)
    (second : List (Option V)) : Follows next (first ++ second) false := by
  obtain ⟨depth, returns⟩ := before
  refine ⟨depth, ?_⟩
  rw [follow_append, returns]

theorem Follows.unique {edges : List (Option V)} {first second : Bool} (one : Follows next edges first)
    (other : Follows next edges second) : first = second := by
  obtain ⟨depth, returns⟩ := one
  obtain ⟨deep, returns'⟩ := other
  have one : follow (DepthFirst.visit next (max depth deep)) edges = some first :=
    follow_mono (fun v b known => visit_mono (by omega) known) returns
  have other : follow (DepthFirst.visit next (max depth deep)) edges = some second :=
    follow_mono (fun v b known => visit_mono (by omega) known) returns'
  exact Option.some.inj (one.symm.trans other)

/-- Sound vertices are those whose edges a walk goes through. -/
theorem follows_true_iff (v : V) : Follows next (next v) true ↔ Sound next v := by
  constructor
  · intro follows
    obtain ⟨depth, visited⟩ := follows.visit
    exact sound_of_visit visited
  · intro sound
    obtain ⟨depth, visited⟩ := visit_of_sound sound
    cases depth with
    | zero => contradiction
    | succ depth => exact ⟨depth, visited⟩

/-! On finitely many vertices the infinite paths are the cycles. -/

/-- No vertex that the relation leads to from `v` leads back to itself. -/
def Acyclic (r : V → V → Prop) (v : V) : Prop :=
  ∀ w, Relation.ReflTransGen r v w → ¬Relation.TransGen r w w

theorem acc_iff_acyclic [Finite V] (r : V → V → Prop) (v : V) :
    Acc (fun w u => r u w) v ↔ Acyclic r v := by
  constructor
  · intro acc
    induction acc with
    | intro v _ ih =>
      intro w path cycle
      rcases Relation.ReflTransGen.cases_head path with rfl | ⟨u, first, rest⟩
      · -- a cycle through `v` is one through a vertex below it
        obtain ⟨u, first, rest⟩ := Relation.TransGen.head'_iff.mp cycle
        exact ih u first u Relation.ReflTransGen.refl (Relation.TransGen.tail' rest first)
      · exact ih u first w rest cycle
  · intro acyclic
    let below : V → V → Prop := fun w u => Relation.ReflTransGen r v u ∧ Relation.TransGen r u w
    have trans : IsTrans V below := ⟨fun a b c first second => ⟨second.1, second.2.trans first.2⟩⟩
    have irrefl : Std.Irrefl below := ⟨fun a cycle => acyclic a cycle.1 cycle.2⟩
    have wf : WellFounded below := Finite.wellFounded_of_trans_of_irrefl below
    have each (u : V) : Relation.ReflTransGen r v u → Acc (fun w u => r u w) u := by
      induction u using wf.induction with
      | h u ih =>
        intro path
        apply Acc.intro
        intro w step
        exact ih w ⟨path, Relation.TransGen.single step⟩ (path.tail step)
    exact each v Relation.ReflTransGen.refl

/-- A vertex is sound when every edge below it leads somewhere and no cycle is below it. -/
theorem sound_iff [Finite V] (v : V) :
    Sound next v ↔ (∀ w, Relation.ReflTransGen (Edge next) v w → none ∉ next w) ∧
      Acyclic (Edge next) v := by
  rw [← acc_iff_acyclic]
  constructor
  · intro sound
    induction sound with
    | @intro v leads _ ih =>
      constructor
      · intro w path
        rcases Relation.ReflTransGen.cases_head path with rfl | ⟨u, first, rest⟩
        · exact leads
        · exact (ih u first).1 w rest
      · exact Acc.intro _ fun w edge => (ih w edge).2
  · rintro ⟨leads, acc⟩
    induction acc with
    | intro v _ ih =>
      apply Sound.intro (leads v Relation.ReflTransGen.refl)
      intro w edge
      exact ih w edge fun u path => leads u (Relation.ReflTransGen.head edge path)

end Apx.DepthFirst
