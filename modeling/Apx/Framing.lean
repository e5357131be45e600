import Mathlib.Data.List.Basic

/-! A stream that is a sequence of frames, and receivers that get it in pieces: they keep the bytes of a
frame that has not arrived whole and take them up with the next piece. -/

namespace Apx.Framing

/-- A function that finds the first frame of a text, with the number of elements that it takes. A frame
that was found is still the first one when more follows. -/
structure Reader (α μ : Type) where
  next : List α → Option (μ × Nat)
  positive : ∀ {t m k}, next t = some (m, k) → 0 < k
  inside : ∀ {t m k}, next t = some (m, k) → k ≤ t.length
  stable : ∀ {t m k}, next t = some (m, k) → ∀ u, next (t ++ u) = some (m, k)

variable {α μ σ ε : Type}

theorem Reader.shorter (reader : Reader α μ) {t : List α} {m : μ} {k : Nat}
    (found : reader.next t = some (m, k)) : (t.drop k).length < t.length := by
  have positive := reader.positive found
  have inside := reader.inside found
  rw [List.length_drop]
  omega

/-- The frames of a text, and what is behind the last of them -/
def Reader.split (reader : Reader α μ) (t : List α) : List μ × List α :=
  match _found : reader.next t with
  | none => ([], t)
  | some (m, k) => (m :: (reader.split (t.drop k)).1, (reader.split (t.drop k)).2)
termination_by t.length
decreasing_by all_goals exact reader.shorter ‹_›

theorem Reader.split_none (reader : Reader α μ) {t : List α} (nothing : reader.next t = none) :
    reader.split t = ([], t) := by
  rw [split]
  split
  · rfl
  · next found =>
    rw [nothing] at found
    contradiction

theorem Reader.split_some (reader : Reader α μ) {t : List α} {m : μ} {k : Nat}
    (found : reader.next t = some (m, k)) :
    reader.split t = (m :: (reader.split (t.drop k)).1, (reader.split (t.drop k)).2) := by
  rw [split]
  split
  · next nothing =>
    rw [found] at nothing
    contradiction
  · next found' =>
    rw [found] at found'
    cases found'
    rfl

/-- Induction over the frames of a text -/
theorem Reader.induction (reader : Reader α μ) {motive : List α → Prop}
    (last : ∀ t, reader.next t = none → motive t)
    (frame : ∀ t m k, reader.next t = some (m, k) → motive (t.drop k) → motive t) (t : List α) :
    motive t := by
  induction size : t.length using Nat.strongRecOn generalizing t with
  | ind size ih =>
    cases found : reader.next t with
    | none => exact last t found
    | some first =>
      obtain ⟨m, k⟩ := first
      exact frame t m k found (ih _ (size ▸ reader.shorter found) (t.drop k) rfl)

/-- No frame begins behind the last one. -/
theorem Reader.next_rest (reader : Reader α μ) (t : List α) : reader.next (reader.split t).2 = none := by
  induction t using reader.induction with
  | last t nothing =>
    rw [reader.split_none nothing]
    exact nothing
  | frame t m k found ih =>
    rw [reader.split_some found]
    exact ih

/-- The rest is what the frames leave. -/
theorem Reader.rest_suffix (reader : Reader α μ) (t : List α) : (reader.split t).2 <:+ t := by
  induction t using reader.induction with
  | last t nothing => exact ⟨[], congrArg Prod.snd (reader.split_none nothing)⟩
  | frame t m k found ih =>
    rw [reader.split_some found]
    exact ih.trans (List.drop_suffix k t)

/-- Where a text is cut makes no difference to its frames. -/
theorem Reader.split_append (reader : Reader α μ) (t u : List α) :
    reader.split (t ++ u) = ((reader.split t).1 ++ (reader.split ((reader.split t).2 ++ u)).1,
      (reader.split ((reader.split t).2 ++ u)).2) := by
  induction t using reader.induction with
  | last t nothing =>
    rw [reader.split_none nothing]
    rfl
  | frame t m k found ih =>
    rw [reader.split_some found, reader.split_some (reader.stable found u),
      List.drop_append_of_le_length (reader.inside found), ih]
    rfl

/-- Handing frames on, one after the other, up to the first error -/
def hand (handle : σ → μ → Except ε σ) (s : σ) : List μ → Except ε σ
  | [] => .ok s
  | m :: rest =>
    match handle s m with
    | .error e => .error e
    | .ok s => hand handle s rest

theorem hand_append (handle : σ → μ → Except ε σ) (s : σ) (front back : List μ) :
    hand handle s (front ++ back) = (hand handle s front).bind fun s => hand handle s back := by
  induction front generalizing s with
  | nil => rfl
  | cons m rest ih =>
    rw [List.cons_append, hand, hand]
    cases handle s m with
    | error e => rfl
    | ok s' => exact ih s'

/-- A receiver that hands on the frames that are whole and keeps the rest for the next piece -/
def receive (reader : Reader α μ) (handle : σ → μ → Except ε σ) (s : σ) (kept : List α) :
    List (List α) → Except ε (σ × List α)
  | [] => .ok (s, kept)
  | piece :: pieces =>
    match hand handle s (reader.split (kept ++ piece)).1 with
    | .error e => .error e
    | .ok s => receive reader handle s (reader.split (kept ++ piece)).2 pieces

/-- What a receiver does depends on the stream alone, not on its pieces. -/
theorem receive_eq (reader : Reader α μ) (handle : σ → μ → Except ε σ) (s : σ) {kept : List α}
    (nothing : reader.next kept = none) (pieces : List (List α)) :
    receive reader handle s kept pieces =
      (hand handle s (reader.split (kept ++ pieces.flatten)).1).map fun s =>
        (s, (reader.split (kept ++ pieces.flatten)).2) := by
  induction pieces generalizing s kept with
  | nil =>
    rw [List.flatten_nil, List.append_nil, reader.split_none nothing]
    rfl
  | cons piece pieces ih =>
    rw [receive, List.flatten_cons, ← List.append_assoc, reader.split_append (kept ++ piece), hand_append]
    cases hand handle s (reader.split (kept ++ piece)).1 with
    | error e => rfl
    | ok s' => exact ih s' (reader.next_rest _)

end Apx.Framing
