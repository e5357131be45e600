import Mathlib.Data.List.Basic
import Mathlib.Data.List.TakeWhile

/-! Lists of half-open intervals that follow one another. -/

namespace IntervalList

variable {α : Type*} {start stop : α → Nat}

/-- Each interval ends before the next one, and so before each later one, starts. -/
def Ordered (start stop : α → Nat) (xs : List α) : Prop := xs.Pairwise fun a b => stop a ≤ start b

theorem Ordered.nil : Ordered start stop [] := List.Pairwise.nil

theorem Ordered.eraseIdx {xs : List α} (ordered : Ordered start stop xs) (i : Nat) :
    Ordered start stop (xs.eraseIdx i) := ordered.sublist (List.eraseIdx_sublist xs i)

/-- All intervals end before the last one of them starts, or are the last one. -/
theorem Ordered.stop_le_getLast (proper : ∀ a, start a ≤ stop a) {xs : List α} (ordered : Ordered start stop xs)
    {last : α} (is : xs.getLast? = some last) : ∀ a ∈ xs, stop a ≤ stop last := by
  obtain ⟨front, rfl⟩ := List.getLast?_eq_some_iff.mp is
  intro a mem
  rcases List.mem_append.mp mem with mem | mem
  · have before := (List.pairwise_append.mp ordered).2.2 a mem last (List.mem_singleton_self last)
    exact before.trans (proper last)
  · rw [List.mem_singleton.mp mem]

theorem Ordered.start_head_le (proper : ∀ a, start a ≤ stop a) {xs : List α} (ordered : Ordered start stop xs)
    {head : α} (is : xs.head? = some head) : ∀ a ∈ xs, start head ≤ start a := by
  obtain ⟨rest, rfl⟩ := List.head?_eq_some_iff.mp is
  intro a mem
  rcases List.mem_cons.mp mem with rfl | mem
  · exact Nat.le_refl _
  · exact (proper head).trans ((List.pairwise_cons.mp ordered).1 a mem)

/-- An interval that does not reach its two neighbours can be put between them. -/
theorem Ordered.insert (proper : ∀ a, start a ≤ stop a) {left right : List α} {x : α}
    (ordered : Ordered start stop (left ++ right)) (before : ∀ last ∈ left.getLast?, stop last ≤ start x)
    (behind : ∀ next ∈ right.head?, stop x ≤ start next) : Ordered start stop (left ++ x :: right) := by
  obtain ⟨lefts, rights, across⟩ := List.pairwise_append.mp ordered
  have beforeAll : ∀ a ∈ left, stop a ≤ start x := by
    intro a mem
    obtain ⟨last, is⟩ := Option.ne_none_iff_exists'.mp
      (fun none_ => List.ne_nil_of_mem mem (List.getLast?_eq_none_iff.mp none_))
    exact (Ordered.stop_le_getLast proper lefts is a mem).trans (before last is)
  have behindAll : ∀ b ∈ right, stop x ≤ start b := by
    intro b mem
    obtain ⟨next, is⟩ := Option.ne_none_iff_exists'.mp
      (fun none_ => List.ne_nil_of_mem mem (List.head?_eq_none_iff.mp none_))
    exact (behind next is).trans (Ordered.start_head_le proper rights is b mem)
  apply List.pairwise_append.mpr
  refine ⟨lefts, List.pairwise_cons.mpr ⟨behindAll, rights⟩, ?_⟩
  intro a mem b memBehind
  rcases List.mem_cons.mp memBehind with rfl | memBehind
  · exact beforeAll a mem
  · exact across a mem b memBehind

end IntervalList
