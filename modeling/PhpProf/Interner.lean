import PhpProf.OrderedTable

/-! Numbering keys by first request, and turning the numbering back into an
array. The counter and the table agree by construction: the numbers handed out
are exactly the ones between the first number and the counter. -/
namespace PhpProf

universe u v

/-- Keys numbered `first`, `first + 1`, and so on, in the order of their first
request. -/
structure Interner (κ : Type u) (first : Nat) where
  map : OrderedTable κ Nat
  next : Nat
  dense : map.entries.map Prod.snd = List.range' first map.entries.length
  counted : next = first + map.entries.length

namespace Interner

variable {κ : Type u} {first : Nat}

def empty : Interner κ first where
  map := .empty
  next := first
  dense := rfl
  counted := rfl

variable [DecidableEq κ]

/-- The number of a key, handing out the next one to a new key. -/
def intern (interner : Interner κ first) (key : κ) : Interner κ first × Nat :=
  match found : interner.map.find? key with
  | some index => (interner, index)
  | none =>
    have entries : (interner.map.add key interner.next).entries =
        interner.map.entries ++ [(key, interner.next)] :=
      interner.map.entries_add (interner.map.find?_eq_none_iff.mp found)
    ({ map := interner.map.add key interner.next
       next := interner.next + 1
       dense := by
         rw [entries]
         simp [interner.dense, interner.counted, List.range'_concat]
       counted := by
         rw [entries, interner.counted, List.length_append, List.length_singleton]
         omega }, interner.next)

/-- Every number given out before stands. -/
def Extends (later earlier : Interner κ first) : Prop :=
  ∀ key index, earlier.map.find? key = some index → later.map.find? key = some index

theorem extends_refl (interner : Interner κ first) : Extends interner interner :=
  fun _ _ found => found

theorem extends_trans {last middle start : Interner κ first} (late : Extends last middle)
    (early : Extends middle start) : Extends last start :=
  fun key index found => late key index (early key index found)

theorem intern_extends (interner : Interner κ first) (key : κ) :
    Extends (interner.intern key).1 interner := by
  intro probe index found
  unfold intern
  split
  · exact found
  · next missing =>
    have other : probe ≠ key := by
      rintro rfl
      rw [found] at missing
      cases missing
    simpa [OrderedTable.find?_add, other] using found

theorem intern_found (interner : Interner κ first) (key : κ) :
    (interner.intern key).1.map.find? key = some (interner.intern key).2 := by
  unfold intern
  split
  · next index found => exact found
  · next missing => simp [OrderedTable.find?_add, missing]

theorem index_bounds (interner : Interner κ first) {key : κ} {index : Nat}
    (found : interner.map.find? key = some index) : first ≤ index ∧ index < interner.next := by
  have member := List.mem_map_of_mem (f := Prod.snd) (interner.map.find?_eq_some_iff.mp found)
  rw [interner.dense, List.mem_range'_1, ← interner.counted] at member
  exact member

omit [DecidableEq κ] in
/-- Each number below the counter is handed out to one key only. -/
theorem index_count (interner : Interner κ first) {index : Nat} (low : first ≤ index)
    (high : index < interner.next) : (interner.map.entries.map Prod.snd).count index = 1 := by
  rw [interner.dense]
  refine List.count_eq_one_of_mem (List.nodup_range' 1) ?_
  rw [List.mem_range'_1, ← interner.counted]
  exact ⟨low, high⟩

omit [DecidableEq κ] in
theorem indices_nodup (interner : Interner κ first) :
    (interner.map.entries.map Prod.snd).Nodup :=
  interner.dense ▸ List.nodup_range' 1

/-- The number a key was given, zero without one. -/
def number (interner : Interner κ first) (key : κ) : Nat := (interner.map.find? key).getD 0

theorem number_eq {interner : Interner κ first} {key : κ} {index : Nat}
    (found : interner.map.find? key = some index) : interner.number key = index := by
  rw [number, found, Option.getD_some]

/-- A key that has a number. -/
def Has (interner : Interner κ first) (key : κ) : Prop :=
  interner.map.find? key = some (interner.number key)

theorem has_of_found {interner : Interner κ first} {key : κ} {index : Nat}
    (found : interner.map.find? key = some index) : interner.Has key := by
  rw [Has, number_eq found, found]

theorem Extends.has {later earlier : Interner κ first} (extended : Extends later earlier)
    {key : κ} (had : earlier.Has key) : later.Has key :=
  has_of_found (extended key _ had)

theorem Extends.number_eq {later earlier : Interner κ first} (extended : Extends later earlier)
    {key : κ} (had : earlier.Has key) : later.number key = earlier.number key :=
  Interner.number_eq (extended key _ had)

/-- Two keys never share a number. -/
theorem number_injective {interner : Interner κ first} {left right : κ}
    (hadLeft : interner.Has left) (hadRight : interner.Has right)
    (same : interner.number left = interner.number right) : left = right := by
  have memberLeft := interner.map.find?_eq_some_iff.mp hadLeft
  have memberRight := interner.map.find?_eq_some_iff.mp hadRight
  have pair := List.inj_on_of_nodup_map interner.indices_nodup memberLeft memberRight same
  exact congrArg Prod.fst pair

/-- Ask for keys one after another. -/
def internAll (interner : Interner κ first) (keys : List κ) : Interner κ first :=
  keys.foldl (fun interner key => (interner.intern key).1) interner

theorem internAll_append (interner : Interner κ first) (earlier later : List κ) :
    interner.internAll (earlier ++ later) = (interner.internAll earlier).internAll later :=
  List.foldl_append

theorem has_intern {interner : Interner κ first} {asked key : κ} :
    (interner.intern asked).1.Has key ↔ interner.Has key ∨ key = asked := by
  constructor
  · intro had
    unfold Has at had ⊢
    unfold intern at had
    split at had
    · exact Or.inl had
    · next missing =>
      by_cases same : key = asked
      · exact Or.inr same
      · rw [OrderedTable.find?_add, if_neg same] at had
        exact Or.inl (has_of_found had)
  · rintro (had | rfl)
    · exact (interner.intern_extends asked).has had
    · exact has_of_found (interner.intern_found key)

/-- Each key that is asked for takes one number at most. -/
theorem next_internAll_le (interner : Interner κ first) (keys : List κ) :
    (interner.internAll keys).next ≤ interner.next + keys.length := by
  induction keys generalizing interner with
  | nil => exact le_rfl
  | cons asked rest ih =>
    have step : interner.internAll (asked :: rest) = (interner.intern asked).1.internAll rest := rfl
    have later := ih (interner.intern asked).1
    have here : (interner.intern asked).1.next ≤ interner.next + 1 := by
      unfold intern
      split
      · exact Nat.le_succ _
      · exact le_rfl
    rw [step, List.length_cons]
    omega

/-- The keys that have a number are the ones that were asked for. -/
theorem has_internAll {interner : Interner κ first} {keys : List κ} {key : κ} :
    (interner.internAll keys).Has key ↔ interner.Has key ∨ key ∈ keys := by
  induction keys generalizing interner with
  | nil => simp [internAll]
  | cons asked rest ih =>
    have step : interner.internAll (asked :: rest) = (interner.intern asked).1.internAll rest := rfl
    rw [step, ih, has_intern, List.mem_cons, or_assoc]

end Interner

/-! ## Arrays whose elements carry their own position -/

/-- The elements carry the ids `1`, `2`, and so on. -/
def Numbered {β : Type v} (id : β → Nat) (items : List β) : Prop :=
  items.map id = List.range' 1 items.length

section Numbered

variable {α : Type u} {β : Type v} {id : β → Nat} {items : List β}

theorem numbered_mapIdx {build : Nat → α → β} (counts : ∀ i x, id (build i x) = i + 1)
    (xs : List α) : Numbered id (xs.mapIdx build) := by
  refine List.ext_getElem (by simp) fun i _ _ => ?_
  simp [counts, Nat.add_comm]

theorem numbered_nodup (numbered : Numbered id items) : (items.map id).Nodup :=
  numbered ▸ List.nodup_range' 1

theorem numbered_ne_zero (numbered : Numbered id items) : 0 ∉ items.map id := by
  rw [numbered, List.mem_range'_1]
  omega

private theorem filter_of_nodup (distinct : (items.map id).Nodup) {item : β}
    (member : item ∈ items) : items.filter (fun other => id other = id item) = [item] := by
  induction items with
  | nil => cases member
  | cons head rest ih =>
    simp only [List.map_cons, List.nodup_cons, List.mem_map, not_exists, not_and] at distinct
    rcases List.mem_cons.mp member with rfl | later
    · have others : rest.filter (fun other => id other = id item) = [] :=
        List.filter_eq_nil_iff.mpr (by simpa using distinct.1)
      simp [others]
    · have other : id head ≠ id item := fun same => distinct.1 item later same.symm
      simp [other, ih distinct.2 later]

/-- An id leads to one element only. -/
theorem numbered_filter (numbered : Numbered id items) {item : β} (member : item ∈ items) :
    items.filter (fun other => id other = id item) = [item] :=
  filter_of_nodup (numbered_nodup numbered) member

theorem numbered_find? (numbered : Numbered id items) {item : β} (member : item ∈ items) :
    items.find? (fun other => id other = id item) = some item := by
  rw [← List.head?_filter, numbered_filter numbered member, List.head?_cons]

end Numbered

/-! ## Filling an array slot by slot -/

namespace Slots

variable {β : Type v}

/-- An array of `size` unassigned slots after the given assignments. -/
def fill (size : Nat) (writes : List (Nat × β)) : List (Option β) :=
  writes.foldl (fun slots write => slots.set write.1 (some write.2))
    (List.replicate size none)

private theorem fold_length (writes : List (Nat × β)) (slots : List (Option β)) :
    (writes.foldl (fun slots write => slots.set write.1 (some write.2)) slots).length =
      slots.length := by
  induction writes generalizing slots with
  | nil => rfl
  | cons write rest ih => rw [List.foldl_cons, ih, List.length_set]

theorem fill_length (size : Nat) (writes : List (Nat × β)) : (fill size writes).length = size := by
  rw [fill, fold_length, List.length_replicate]

private theorem fold_other {index : Nat} (writes : List (Nat × β))
    (absent : index ∉ writes.map Prod.fst) (slots : List (Option β)) :
    (writes.foldl (fun slots write => slots.set write.1 (some write.2)) slots)[index]? =
      slots[index]? := by
  induction writes generalizing slots with
  | nil => rfl
  | cons write rest ih =>
    simp only [List.map_cons, List.mem_cons, not_or] at absent
    rw [List.foldl_cons, ih absent.2, List.getElem?_set_ne (Ne.symm absent.1)]

private theorem fold_written {index : Nat} {value : β} (writes : List (Nat × β))
    (distinct : (writes.map Prod.fst).Nodup) (member : (index, value) ∈ writes)
    (slots : List (Option β)) (within : index < slots.length) :
    (writes.foldl (fun slots write => slots.set write.1 (some write.2)) slots)[index]? =
      some (some value) := by
  induction writes generalizing slots with
  | nil => cases member
  | cons write rest ih =>
    simp only [List.map_cons, List.nodup_cons] at distinct
    rw [List.foldl_cons]
    rcases List.mem_cons.mp member with rfl | later
    · rw [fold_other rest distinct.1, List.getElem?_set_self within]
    · exact ih distinct.2 later _ (by simpa using within)

/-- A slot assigned once holds what it was assigned. -/
theorem fill_written {size index : Nat} {value : β} {writes : List (Nat × β)}
    (distinct : (writes.map Prod.fst).Nodup) (member : (index, value) ∈ writes)
    (within : index < size) : (fill size writes)[index]? = some (some value) :=
  fold_written writes distinct member _ (by simpa using within)

/-- Slots that are assigned in order hold what they were assigned, in order. -/
theorem fill_dense {size : Nat} {writes : List (Nat × β)}
    (dense : writes.map Prod.fst = List.range size) :
    fill size writes = writes.map fun write => some write.2 := by
  have count : writes.length = size := by simpa using congrArg List.length dense
  have distinct : (writes.map Prod.fst).Nodup := dense ▸ List.nodup_range
  refine List.ext_getElem? fun i => ?_
  by_cases within : i < size
  · have listed : i < writes.length := count ▸ within
    have own : writes[i].1 = i := by
      have same := congrArg (·[i]?) dense
      simpa [listed, within] using same
    have held : (i, writes[i].2) ∈ writes := by
      conv => enter [2, 1]; rw [← own]
      exact List.getElem_mem listed
    rw [fill_written distinct held within]
    simp [listed]
  · have past : (fill size writes).length ≤ i := by rw [fill_length]; omega
    rw [List.getElem?_eq_none past, List.getElem?_eq_none (by simpa [count] using within)]

/-- The same assignments with no result when one of them is past the end. -/
def fillWithin (size : Nat) (writes : List (Nat × β)) : Option (List (Option β)) :=
  writes.foldlM (fun slots write =>
    if write.1 < slots.length then some (slots.set write.1 (some write.2)) else none)
    (List.replicate size none)

private theorem foldlM_within (writes : List (Nat × β)) (slots : List (Option β))
    (within : ∀ write ∈ writes, write.1 < slots.length) :
    writes.foldlM (fun slots write =>
      if write.1 < slots.length then some (slots.set write.1 (some write.2)) else none) slots =
      some (writes.foldl (fun slots write => slots.set write.1 (some write.2)) slots) := by
  induction writes generalizing slots with
  | nil => rfl
  | cons write rest ih =>
    rw [List.foldlM_cons, if_pos (within write List.mem_cons_self), List.foldl_cons]
    apply ih
    intro other member
    rw [List.length_set]
    exact within other (List.mem_cons_of_mem _ member)

/-- Nothing is lost where every assignment is within the array. -/
theorem fillWithin_eq {size : Nat} {writes : List (Nat × β)}
    (within : ∀ write ∈ writes, write.1 < size) :
    fillWithin size writes = some (fill size writes) :=
  foldlM_within writes _ (by simpa using within)

private theorem fold_assigned {index : Nat} {value : β} (writes : List (Nat × β))
    (slots : List (Option β))
    (held : (writes.foldl (fun slots write => slots.set write.1 (some write.2)) slots)[index]? =
      some (some value)) :
    (index, value) ∈ writes ∨ slots[index]? = some (some value) := by
  induction writes generalizing slots with
  | nil => exact Or.inr held
  | cons write rest ih =>
    rw [List.foldl_cons] at held
    rcases ih _ held with later | set
    · exact Or.inl (List.mem_cons_of_mem _ later)
    · rw [List.getElem?_set] at set
      split at set
      · next same =>
        split at set
        · cases set
          subst same
          exact Or.inl List.mem_cons_self
        · cases set
      · exact Or.inr set

/-- A slot holds nothing but what was assigned to it. -/
theorem mem_of_fill {size index : Nat} {value : β} {writes : List (Nat × β)}
    (held : (fill size writes)[index]? = some (some value)) : (index, value) ∈ writes := by
  refine (fold_assigned writes _ held).resolve_right fun empty => ?_
  obtain ⟨within, none⟩ := List.getElem?_eq_some_iff.mp empty
  rw [List.getElem_replicate] at none
  cases none

end Slots

end PhpProf
