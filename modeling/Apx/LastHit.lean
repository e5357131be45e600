import Mathlib.Data.List.Basic
import Mathlib.Tactic.Cases

/-! Lookups of the first match in a list that try the last hit before they scan the list. The list is edited in
between: the position of the last hit moves with its item when another one is put in, and is forgotten when one is
taken out. Lookups that do not depend on the lookups before them are those that a scan alone would give. -/

namespace Apx

structure LastHit (α : Type*) where
  items : List α
  last : Option Nat

/-- What a request makes of the list: nothing, a new item behind so many others, one item less, or the end of
everything -/
inductive ListEdit (α : Type*) where
  | keep
  | insert (position : Nat) (item : α)
  | erase (position : Nat)
  | stop

namespace LastHit

variable {α Q R : Type*} (hit : Q → α → Bool) (edit : List α → R → ListEdit α)

def scan (items : List α) (q : Q) : Option Nat := items.findIdx? (hit q)

/-- The last hit if it matches, otherwise the first match, which becomes the last hit -/
def lookup (c : LastHit α) (q : Q) : Option Nat × LastHit α :=
  match c.last.filter fun k => c.items[k]?.any (hit q) with
  | some k => (some k, c)
  | none =>
    match scan hit c.items q with
    | some k => (some k, { c with last := some k })
    | none => (none, c)

def edited (items : List α) : ListEdit α → Option (List α)
  | .keep => some items
  | .insert position item => some (items.take position ++ item :: items.drop position)
  | .erase position => some (items.eraseIdx position)
  | .stop => none

def apply (c : LastHit α) (e : ListEdit α) : Option (LastHit α) :=
  (edited c.items e).map fun items => {
    items := items
    last := match e with
      | .insert position _ => c.last.map fun k => if position ≤ k then k + 1 else k
      | .erase _ => none
      | _ => c.last }

/-- Every lookup of these calls gives the first match. -/
def Plain (c : LastHit α) : List (Q ⊕ R) → Prop
  | [] => True
  | .inl q :: rest => (lookup hit c q).1 = scan hit c.items q ∧ Plain (lookup hit c q).2 rest
  | .inr request :: rest => ∀ c' ∈ c.apply (edit c.items request), Plain c' rest

/-- No query finds both items. -/
def Apart (x y : α) : Prop := ∀ q, hit q x → ¬hit q y

/-- No query that finds the item finds another one in front of it. -/
def Clean (front : List α) (x : α) : Prop := ∀ y ∈ front, Apart hit x y

/-- Every query that finds the item finds another one in front of it. -/
def Hidden (front : List α) (x : α) : Prop := ∀ q, hit q x → ∃ y ∈ front, hit q y

/-- Each item is the first match of all its queries or of none. -/
def Clear (items : List α) : Prop :=
  ∀ front x behind, items = front ++ x :: behind → Clean hit front x ∨ Hidden hit front x

/-- An edit after which each item is still the first match of all its queries or of none, where a new item takes
no query from an item that was the first match. -/
def Safe (items : List α) : ListEdit α → Prop
  | .insert position x =>
      (Clean hit (items.take position) x ∨ Hidden hit (items.take position) x) ∧
        ∀ front y behind, items = front ++ y :: behind → position ≤ front.length →
          Apart hit y x ∨ Hidden hit front y
  | .erase position => Clear hit (items.eraseIdx position)
  | _ => True

/-- Each request makes a safe edit when it comes. -/
def AllSafe (items : List α) : List R → Prop
  | [] => True
  | request :: rest =>
      Safe hit items (edit items request) ∧ ∀ items' ∈ edited items (edit items request), AllSafe items' rest

/-! What a scan and a lookup find -/

variable {hit}

theorem scan_split {front behind : List α} {x : α} {q : Q} (hits : hit q x) (first : ∀ y ∈ front, ¬hit q y) :
    scan hit (front ++ x :: behind) q = some front.length := by
  have none : front.findIdx? (hit q) = none := List.findIdx?_eq_none_iff.mpr fun y mem => by
    simpa using first y mem
  rw [scan, List.findIdx?_append, none, List.findIdx?_cons, if_pos hits]
  simp

theorem split_of_scan {items : List α} {q : Q} {k : Nat} (found : scan hit items q = some k) :
    ∃ front x behind, items = front ++ x :: behind ∧ front.length = k ∧ hit q x ∧ ∀ y ∈ front, ¬hit q y := by
  obtain ⟨inside, hits, first⟩ := List.findIdx?_eq_some_iff_getElem.mp found
  refine ⟨items.take k, items[k], items.drop (k + 1), ?_, ?_, hits, ?_⟩
  · rw [← List.drop_eq_getElem_cons inside, List.take_append_drop]
  · exact List.length_take_of_le (Nat.le_of_lt inside)
  · intro y mem
    obtain ⟨j, less, rfl⟩ := List.mem_take_iff_getElem.mp mem
    exact first j (by omega)

/-- A query that finds an item behind `front` and one in it is answered with a position in `front`. -/
theorem scan_earlier {front behind : List α} {y : α} {q : Q} (mem : y ∈ front) (hits : hit q y) {k : Nat}
    (found : scan hit (front ++ behind) q = some k) : k < front.length := by
  cases here : front.findIdx? (hit q) with
  | none => exact absurd hits (by simpa using List.findIdx?_eq_none_iff.mp here y mem)
  | some j =>
    rw [scan, List.findIdx?_append, here] at found
    cases found
    exact (List.findIdx?_eq_some_iff_getElem.mp here).1

theorem lookup_items (c : LastHit α) (q : Q) : (lookup hit c q).2.items = c.items := by
  rw [lookup]
  split
  · rfl
  · split <;> rfl

/-- What was found is the last hit. -/
theorem lookup_last {c : LastHit α} {q : Q} {k : Nat} (found : (lookup hit c q).1 = some k) :
    (lookup hit c q).2.last = some k := by
  rw [lookup] at found ⊢
  split at found
  · next j kept =>
    cases found
    exact (Option.filter_eq_some_iff.mp kept).1
  · split at found
    · cases found
      rfl
    · contradiction

/-- The last hit is found again by each of its queries. -/
theorem lookup_of_last {front behind : List α} {x : α} {c : LastHit α} (items : c.items = front ++ x :: behind)
    (last : c.last = some front.length) {q : Q} (hits : hit q x) : (lookup hit c q).1 = some front.length := by
  have kept : c.last.filter (fun k => c.items[k]?.any (hit q)) = some front.length := by
    rw [Option.filter_eq_some_iff]
    refine ⟨last, ?_⟩
    rw [items, List.getElem?_append_right (Nat.le_refl _), Nat.sub_self]
    exact hits
  rw [lookup, kept]

/-- No query that finds the last hit finds an item in front of it. -/
def LastClean (hit : Q → α → Bool) (c : LastHit α) : Prop :=
  ∀ k, c.last = some k → ∃ front x behind, c.items = front ++ x :: behind ∧ front.length = k ∧ Clean hit front x

theorem lookup_plain {c : LastHit α} (clean : LastClean hit c) (q : Q) :
    (lookup hit c q).1 = scan hit c.items q := by
  rw [lookup]
  split
  · next k kept =>
    obtain ⟨last, hits⟩ := Option.filter_eq_some_iff.mp kept
    obtain ⟨front, x, behind, items, rfl, apart⟩ := clean k last
    rw [items, List.getElem?_append_right (Nat.le_refl _), Nat.sub_self] at hits
    have first : hit q x := hits
    rw [items]
    exact (scan_split first fun y mem => apart y mem q first).symm
  · split
    · next k found => exact found.symm
    · next none => exact none.symm

theorem LastClean.lookup {c : LastHit α} (clean : LastClean hit c) (clear : Clear hit c.items) (q : Q) :
    LastClean hit (lookup hit c q).2 := by
  intro k last
  rw [lookup_items]
  rw [LastHit.lookup] at last
  split at last
  · exact clean k last
  · split at last
    · next j found =>
      cases last
      obtain ⟨front, x, behind, items, rfl, hits, first⟩ := split_of_scan found
      refine ⟨front, x, behind, items, rfl, ?_⟩
      rcases clear front x behind items with apart | hidden
      · exact apart
      · obtain ⟨y, mem, earlier⟩ := hidden q hits
        exact absurd earlier (first y mem)
    · exact clean k last

/-! What a safe edit keeps -/

theorem Hidden.mono {front front' : List α} {x : α} (hidden : Hidden hit front x)
    (inside : ∀ y ∈ front, y ∈ front') : Hidden hit front' x := by
  intro q hits
  obtain ⟨y, mem, earlier⟩ := hidden q hits
  exact ⟨y, inside y mem, earlier⟩

/-- The items around an item of a list that a new one was put in -/
theorem insert_cases {left right front behind : List α} {new x : α}
    (same : left ++ new :: right = front ++ x :: behind) :
    (∃ rest, left = front ++ x :: rest) ∨ (front = left ∧ x = new) ∨
      ∃ rest, front = left ++ new :: rest ∧ right = rest ++ x :: behind := by
  rcases List.append_eq_append_iff.mp same with ⟨middle, rfl, split⟩ | ⟨middle, rfl, split⟩
  · cases middle with
    | nil =>
      obtain ⟨rfl, -⟩ := List.cons.inj split
      exact .inr (.inl ⟨List.append_nil _, rfl⟩)
    | cons z rest =>
      obtain ⟨rfl, rfl⟩ := List.cons.inj split
      exact .inr (.inr ⟨rest, rfl, rfl⟩)
  · cases middle with
    | nil =>
      obtain ⟨rfl, -⟩ := List.cons.inj split
      exact .inr (.inl ⟨(List.append_nil _).symm, rfl⟩)
    | cons z rest =>
      obtain ⟨rfl, rfl⟩ := List.cons.inj split
      exact .inl ⟨rest, rfl⟩

theorem split_behind {left right front behind : List α} {x : α} (same : left ++ right = front ++ x :: behind)
    (beyond : left.length ≤ front.length) : ∃ rest, front = left ++ rest ∧ right = rest ++ x :: behind := by
  obtain ⟨rest, rfl⟩ : ∃ rest, left ++ rest = front :=
    List.prefix_of_prefix_length_le (List.prefix_append left right) (same ▸ List.prefix_append front _) beyond
  rw [List.append_assoc] at same
  exact ⟨rest, rfl, List.append_cancel_left same⟩

theorem clear_insert {left right : List α} {new : α} (clear : Clear hit (left ++ right))
    (own : Clean hit left new ∨ Hidden hit left new)
    (others : ∀ front y behind, left ++ right = front ++ y :: behind → left.length ≤ front.length →
      Apart hit y new ∨ Hidden hit front y) :
    Clear hit (left ++ new :: right) := by
  intro front x behind same
  rcases insert_cases same with ⟨rest, rfl⟩ | ⟨rfl, rfl⟩ | ⟨rest, rfl, rfl⟩
  · exact clear front x (rest ++ right) (by rw [List.append_assoc, List.cons_append])
  · exact own
  · have whole : left ++ (rest ++ x :: behind) = (left ++ rest) ++ x :: behind := by rw [List.append_assoc]
    have wider : ∀ y ∈ left ++ rest, y ∈ left ++ new :: rest := by
      intro y mem
      rcases List.mem_append.mp mem with mem | mem
      · exact List.mem_append_left _ mem
      · exact List.mem_append_right _ (List.mem_cons_of_mem _ mem)
    rcases clear (left ++ rest) x behind whole with clean | hidden
    · rcases others (left ++ rest) x behind whole (by simp) with apart | hidden
      · refine .inl fun y mem => ?_
        rcases List.mem_append.mp mem with mem | mem
        · exact clean y (List.mem_append_left _ mem)
        · rcases List.mem_cons.mp mem with rfl | mem
          · exact apart
          · exact clean y (List.mem_append_right _ mem)
      · exact .inr (hidden.mono wider)
    · exact .inr (hidden.mono wider)

/-- An item that is clean and hidden is found by no query. -/
theorem Clean.apart_of_hidden {front : List α} {x : α} (clean : Clean hit front x) (hidden : Hidden hit front x)
    (y : α) : Apart hit x y := by
  intro q hits
  obtain ⟨z, mem, earlier⟩ := hidden q hits
  exact absurd earlier (clean z mem q hits)

theorem lastClean_insert {left right : List α} {new : α} {c : LastHit α} (items : c.items = left ++ right)
    (clean : LastClean hit c)
    (others : ∀ front y behind, left ++ right = front ++ y :: behind → left.length ≤ front.length →
      Apart hit y new ∨ Hidden hit front y) :
    LastClean hit {
      items := left ++ new :: right
      last := c.last.map fun k => if left.length ≤ k then k + 1 else k } := by
  intro k last
  obtain ⟨j, was, rfl⟩ := Option.map_eq_some_iff.mp last
  obtain ⟨front, x, behind, same, rfl, apart⟩ := clean j was
  have whole : left ++ right = front ++ x :: behind := items.symm.trans same
  by_cases beyond : left.length ≤ front.length
  · obtain ⟨rest, rfl, rfl⟩ := split_behind whole beyond
    have new_apart : Apart hit x new := (others _ x behind whole beyond).elim id fun hidden =>
      apart.apart_of_hidden hidden new
    refine ⟨left ++ new :: rest, x, behind, ?_, ?_, ?_⟩
    · simp
    · rw [if_pos beyond, List.length_append, List.length_append, List.length_cons]
      omega
    · intro y mem
      rcases List.mem_append.mp mem with mem | mem
      · exact apart y (List.mem_append_left _ mem)
      · rcases List.mem_cons.mp mem with rfl | mem
        · exact new_apart
        · exact apart y (List.mem_append_right _ mem)
  · have inside : front ++ [x] <+: left := by
      have both : front ++ [x] <+: left ++ right := by
        rw [whole, List.append_cons front x behind]
        exact List.prefix_append (front ++ [x]) behind
      apply List.prefix_of_prefix_length_le both (List.prefix_append left right)
      rw [List.length_append, List.length_singleton]
      omega
    obtain ⟨rest, rfl⟩ := inside
    refine ⟨front, x, rest ++ new :: right, ?_, (if_neg beyond).symm, apart⟩
    simp

/-- A safe edit leaves a list in which each item is the first match of all its queries or of none, and a last hit
that is one. -/
theorem apply_safe {c c' : LastHit α} {e : ListEdit α} (clear : Clear hit c.items) (clean : LastClean hit c)
    (safe : Safe hit c.items e) (applied : c' ∈ c.apply e) : Clear hit c'.items ∧ LastClean hit c' := by
  cases e with
  | keep =>
    cases applied
    exact ⟨clear, clean⟩
  | insert position new =>
    cases applied
    obtain ⟨own, others⟩ := safe
    have whole : c.items.take position ++ c.items.drop position = c.items := List.take_append_drop position c.items
    have length : (c.items.take position).length = min position c.items.length := List.length_take
    have others' : ∀ front y behind, c.items.take position ++ c.items.drop position = front ++ y :: behind →
        (c.items.take position).length ≤ front.length → Apart hit y new ∨ Hidden hit front y := by
      intro front y behind same beyond
      rw [whole] at same
      have inside : front.length < c.items.length := by
        rw [same, List.length_append, List.length_cons]
        omega
      exact others front y behind same (by omega)
    refine ⟨clear_insert (whole.symm ▸ clear) own others', ?_⟩
    have moved : (c.last.map fun k => if position ≤ k then k + 1 else k) =
        c.last.map fun k => if (c.items.take position).length ≤ k then k + 1 else k := by
      cases last : c.last with
      | none => rfl
      | some k =>
        obtain ⟨front, x, behind, same, rfl, -⟩ := clean k last
        have inside : front.length < c.items.length := by
          rw [same, List.length_append, List.length_cons]
          omega
        rw [Option.map_some, Option.map_some, length]
        congr 1
        exact if_congr (by omega) rfl rfl
    dsimp only
    rw [moved]
    exact lastClean_insert whole.symm clean others'
  | erase position =>
    cases applied
    exact ⟨safe, nofun⟩
  | stop => contradiction

/-! Runs -/

def requests : List (Q ⊕ R) → List R := List.filterMap Sum.getRight?

variable {edit}

/-- Two lookups in a row that find the item behind `front` with a query that finds no item in `front` and with one
that does -/
theorem not_plain {c : LastHit α} {front behind : List α} {x y : α} {first second : Q} {rest : List (Q ⊕ R)}
    (items : c.items = front ++ x :: behind) (hits : hit first x) (none_ : ∀ z ∈ front, ¬hit first z)
    (again : hit second x) (mem : y ∈ front) (earlier : hit second y) :
    ¬Plain hit edit c (.inl first :: .inl second :: rest) := by
  rintro ⟨plain, plain', -⟩
  rw [items, scan_split hits none_] at plain
  have found := lookup_of_last ((lookup_items c first).trans items) (lookup_last plain) again
  rw [found, lookup_items, items] at plain'
  exact absurd (scan_earlier mem earlier plain'.symm) (Nat.lt_irrefl _)

/-- An item that is neither clean nor hidden -/
theorem queries_of_not_clear {front : List α} {x : α} (bad : ¬(Clean hit front x ∨ Hidden hit front x)) :
    (∃ first, hit first x ∧ ∀ z ∈ front, ¬hit first z) ∧ ∃ second, ∃ y ∈ front, hit second x ∧ hit second y := by
  obtain ⟨shared, own⟩ := not_or.mp bad
  constructor
  · by_contra none_
    apply own
    intro q hits
    by_contra first
    exact none_ ⟨q, hits, fun z mem earlier => first ⟨z, mem, earlier⟩⟩
  · by_contra none_
    apply shared
    intro y mem q hits earlier
    exact none_ ⟨q, y, mem, hits, earlier⟩

/-- Where lookups are plain whatever they ask for, each item is the first match of all its queries or of none. -/
theorem clear_of_plain {c : LastHit α} {front behind : List α} {x : α} {rest : List (Q ⊕ R)}
    (items : c.items = front ++ x :: behind)
    (plain : ∀ first second, Plain hit edit c (.inl first :: .inl second :: rest)) :
    Clean hit front x ∨ Hidden hit front x := by
  by_contra bad
  obtain ⟨⟨first, hits, none_⟩, second, y, mem, again, earlier⟩ := queries_of_not_clear bad
  exact not_plain items hits none_ again mem earlier (plain first second)

/-- An item behind the place of a new one that shares a query with it is hidden, where lookups are plain before and
after. -/
theorem hidden_of_plain {c : LastHit α} {front behind : List α} {y new : α} {position : Nat} {request : R}
    {rest : List (Q ⊕ R)} (items : c.items = front ++ y :: behind) (beyond : position ≤ front.length)
    (edits : edit c.items request = .insert position new)
    (plain : ∀ first second, Plain hit edit c (.inl first :: .inr request :: .inl second :: rest)) :
    Apart hit y new ∨ Hidden hit front y := by
  by_contra bad
  obtain ⟨shared, own⟩ := not_or.mp bad
  obtain ⟨first, hits, none_⟩ : ∃ first, hit first y ∧ ∀ z ∈ front, ¬hit first z := by
    by_contra none_
    apply own
    intro q hits
    by_contra first
    exact none_ ⟨q, hits, fun z mem earlier => first ⟨z, mem, earlier⟩⟩
  obtain ⟨second, again, earlier⟩ : ∃ second, hit second y ∧ hit second new := by
    by_contra none_
    exact shared fun q hits earlier => none_ ⟨q, hits, earlier⟩
  obtain ⟨found, plain⟩ := plain first second
  rw [items, scan_split hits none_] at found
  have last := lookup_last found
  have same := @lookup_items _ _ hit c first
  have place : c.items.take position ++ new :: c.items.drop position =
      (front.take position ++ new :: front.drop position) ++ y :: behind := by
    rw [items, List.take_append_of_le_length beyond, List.drop_append_of_le_length beyond, List.append_assoc,
      List.cons_append]
  have length : (front.take position ++ new :: front.drop position).length = front.length + 1 := by
    rw [List.length_append, List.length_cons, List.length_take, List.length_drop]
    omega
  have applied : (lookup hit c first).2.apply (edit (lookup hit c first).2.items request) = some {
      items := c.items.take position ++ new :: c.items.drop position
      last := some (front.length + 1) } := by
    rw [same, edits, apply, edited, same, Option.map_some]
    simp only [last, Option.map_some, if_pos beyond]
  obtain ⟨found', -⟩ := plain _ applied
  rw [lookup_of_last place (by rw [length]) again, place] at found'
  exact absurd (scan_earlier (by simp) earlier found'.symm) (Nat.lt_irrefl _)

theorem requests_inr (request : R) (queries : List Q) (rest : List R) :
    requests (.inr request :: (queries.map .inl ++ rest.map .inr)) = request :: rest := by
  induction queries with
  | nil =>
    have all : (rest.map (.inr : R → Q ⊕ R)).filterMap Sum.getRight? = rest :=
      (List.filterMap_map ..).trans (List.filterMap_some ..)
    exact congrArg (request :: ·) all
  | cons q queries ih => exact ih

/-- An edit that is not safe shows in lookups around it. -/
theorem safe_of_plain {c : LastHit α} {request : R} {rest : List R}
    (plain : ∀ calls : List (Q ⊕ R), requests calls = request :: rest → Plain hit edit c calls) :
    Safe hit c.items (edit c.items request) := by
  have after (first second : Q) := plain _ (requests_inr request [first, second] rest)
  have around (first second : Q) :=
    plain (.inl first :: .inr request :: .inl second :: rest.map .inr) (requests_inr request [second] rest)
  cases edits : edit c.items request with
  | keep => trivial
  | insert position new =>
    refine ⟨?_, ?_⟩
    · have behind : ∀ first second, Plain hit edit _ (.inl first :: .inl second :: rest.map .inr) :=
        fun first second => after first second _ (by rw [edits]; rfl)
      exact clear_of_plain rfl behind
    · intro front y behind items beyond
      exact hidden_of_plain items beyond edits around
  | erase position =>
    intro front x behind items
    have behind : ∀ first second, Plain hit edit { items := c.items.eraseIdx position, last := none }
        (.inl first :: .inl second :: rest.map .inr) := fun first second => after first second _ (by rw [edits]; rfl)
    exact clear_of_plain items behind
  | stop => trivial

/-- Lookups give the first match whatever lookups have been made before if and only if each request makes a safe
edit when it comes. -/
theorem plain_iff {c : LastHit α} (clear : Clear hit c.items) (clean : LastClean hit c) (rs : List R) :
    (∀ calls : List (Q ⊕ R), requests calls = rs → Plain hit edit c calls) ↔ AllSafe hit edit c.items rs := by
  constructor
  · intro plain
    induction rs generalizing c with
    | nil => trivial
    | cons request rest ih =>
      have safe := safe_of_plain plain
      refine ⟨safe, ?_⟩
      intro items' made
      obtain ⟨c', applied, rfl⟩ : ∃ c' ∈ c.apply (edit c.items request), c'.items = items' :=
        ⟨_, Option.map_eq_some_iff.mpr ⟨items', made, rfl⟩, rfl⟩
      obtain ⟨clear', clean'⟩ := apply_safe clear clean safe applied
      exact ih clear' clean' fun calls same =>
        plain (.inr request :: calls) (congrArg (request :: ·) same) c' applied
  · intro safe calls same
    induction calls generalizing c rs with
    | nil => trivial
    | cons call calls ih =>
      cases call with
      | inl q =>
        have items := @lookup_items _ _ hit c q
        refine ⟨lookup_plain clean q, ih ?_ (clean.lookup clear q) rs ?_ same⟩
        · rw [items]
          exact clear
        · rw [items]
          exact safe
      | inr request =>
        cases same
        obtain ⟨here, later⟩ := safe
        intro c' applied
        obtain ⟨clear', clean'⟩ := apply_safe clear clean here applied
        refine ih clear' clean' _ (later c'.items ?_) rfl
        obtain ⟨items, made, rfl⟩ := Option.map_eq_some_iff.mp applied
        exact made

end LastHit

end Apx
