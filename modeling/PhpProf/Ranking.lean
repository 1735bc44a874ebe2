import Mathlib.Data.List.Perm.Basic
import Mathlib.Order.Lattice

/-! Items ranked by a score. A report that sorts, cuts to a limit and only then
drops the low scores shows the same items as one that drops first, since in
descending order the low scores stand last. -/
namespace PhpProf

universe u v

namespace Ranking

variable {α : Type u}

/-! ## Comparison functions -/

/-- A three-way comparison that orders any two items one way or the other, and
consistently so. -/
structure Consistent (compare : α → α → Int) : Prop where
  swap : ∀ first second, compare second first = -compare first second
  trans : ∀ first second third, compare first second ≤ 0 → compare second third ≤ 0 →
    compare first third ≤ 0

theorem Consistent.total {compare : α → α → Int} (consistent : Consistent compare)
    (first second : α) : compare first second ≤ 0 ∨ compare second first ≤ 0 := by
  have swapped := consistent.swap first second
  omega

variable {β : Type v} [LinearOrder β]

/-- Swapping swaps the sign, and the items with the higher scores come first. -/
theorem consistent_of_score {compare : α → α → Int} (score : α → β)
    (swap : ∀ first second, compare second first = -compare first second)
    (byScore : ∀ first second, compare first second ≤ 0 ↔ score second ≤ score first) :
    Consistent compare where
  swap := swap
  trans := by
    intro first second third early late
    rw [byScore] at early late ⊢
    exact le_trans late early

/-! ## The first rows of a ranking -/

/-- The highest scores stand first. -/
def Descending (score : α → β) (items : List α) : Prop :=
  items.Pairwise fun earlier later => score later ≤ score earlier

/-- A report of at most `limit` items above a threshold. -/
structure ShowsTop (score : α → β) (threshold : β) (limit : Nat) (items shown : List α) :
    Prop where
  ranking : ∃ ranked, ranked.Perm (items.filter fun item => threshold < score item) ∧
    Descending score ranked ∧ shown = ranked.take limit
  distinct : shown.Nodup
  descending : Descending score shown
  above : ∀ item ∈ shown, item ∈ items ∧ threshold < score item
  best : ∀ item ∈ items, threshold < score item → item ∉ shown →
    ∀ row ∈ shown, score item ≤ score row
  full : ∀ item ∈ items, threshold < score item → item ∉ shown → shown.length = limit

/-- Cutting and filtering exchange when an item is kept only if all items before
it are kept. -/
theorem filter_take {keep : α → Bool} {items : List α}
    (downward : items.Pairwise fun earlier later => keep later = true → keep earlier = true)
    (limit : Nat) : (items.take limit).filter keep = (items.filter keep).take limit := by
  induction items generalizing limit with
  | nil => simp
  | cons first rest ih =>
    obtain ⟨before, below⟩ := List.pairwise_cons.mp downward
    cases limit with
    | zero => simp
    | succ limit =>
      by_cases kept : keep first = true
      · simp [kept, ih below]
      · -- nothing after a dropped item is kept either
        have none : ∀ item ∈ rest, ¬ keep item = true := fun item member held =>
          kept (before item member held)
        have dropped : rest.filter keep = [] := List.filter_eq_nil_iff.mpr none
        have cut : (rest.take limit).filter keep = [] :=
          List.filter_eq_nil_iff.mpr fun item member => none item (List.mem_of_mem_take member)
        simp [kept, dropped, cut]

theorem descending_filter_take {score : α → β} {sorted : List α}
    (descending : Descending score sorted) (threshold : β) (limit : Nat) :
    (sorted.take limit).filter (fun item => threshold < score item) =
      (sorted.filter fun item => threshold < score item).take limit := by
  apply filter_take
  refine descending.imp fun {earlier later} higher => ?_
  simp only [decide_eq_true_eq]
  exact fun above => lt_of_lt_of_le above higher

/-- Cutting a ranking of all items above the threshold leaves the top of them. -/
theorem showsTop_take {score : α → β} {threshold : β} {items ranked : List α}
    (nodup : items.Nodup) (perm : ranked.Perm (items.filter fun item => threshold < score item))
    (descending : Descending score ranked) (limit : Nat) :
    ShowsTop score threshold limit items (ranked.take limit) := by
  have listed : ∀ item, item ∈ ranked ↔ item ∈ items ∧ threshold < score item := by
    intro item
    rw [perm.mem_iff, List.mem_filter, decide_eq_true_eq]
  have left : ∀ item ∈ items, threshold < score item → item ∉ ranked.take limit →
      item ∈ ranked.drop limit := by
    intro item member above absent
    have held := (listed item).mpr ⟨member, above⟩
    rw [← List.take_append_drop limit ranked, List.mem_append] at held
    exact held.resolve_left absent
  constructor
  · exact ⟨ranked, perm, descending, rfl⟩
  · exact (perm.nodup_iff.mpr (nodup.filter _)).sublist (List.take_sublist ..)
  · exact descending.sublist (List.take_sublist ..)
  · exact fun item member => (listed item).mp (List.mem_of_mem_take member)
  · intro item member above absent row shown
    rw [Descending, ← List.take_append_drop limit ranked, List.pairwise_append] at descending
    exact descending.2.2 row shown item (left item member above absent)
  · intro item member above absent
    have longer := List.length_pos_of_mem (left item member above absent)
    rw [List.length_drop] at longer
    rw [List.length_take]
    omega

/-- The top of the images is the image of a top. -/
theorem ShowsTop.of_map {γ : Type v} {image : γ → α} {score : α → β} {weight : γ → β}
    {threshold : β} {limit : Nat} {items : List γ} {shown : List α} (nodup : items.Nodup)
    (scores : ∀ item ∈ items, score (image item) = weight item)
    (top : ShowsTop score threshold limit (items.map image) shown) :
    ∃ origins, ShowsTop weight threshold limit items origins ∧ shown = origins.map image := by
  obtain ⟨ranked, perm, descending, rfl⟩ := top.ranking
  have kept : (items.map image).filter (fun item => threshold < score item) =
      (items.filter fun item => threshold < weight item).map image := by
    rw [List.filter_map]
    refine congrArg (List.map image) (List.filter_congr fun item member => ?_)
    rw [Function.comp_apply, scores item member]
  have images : List.Forall₂ (fun item origin => item = image origin)
      ((items.filter fun item => threshold < weight item).map image)
      (items.filter fun item => threshold < weight item) := by
    rw [List.forall₂_map_left_iff, List.forall₂_same]
    exact fun _ _ => rfl
  obtain ⟨origins, paired, permuted⟩ := List.perm_comp_forall₂ (kept ▸ perm) images
  have mapped : ranked = origins.map image := by
    rw [← List.forall₂_eq_eq_eq, List.forall₂_map_right_iff]
    exact paired
  have ordered : Descending weight origins := by
    rw [mapped, Descending, List.pairwise_map] at descending
    refine descending.imp_of_mem fun {earlier later} before after lower => ?_
    have listed : ∀ origin ∈ origins, origin ∈ items := fun origin member =>
      List.mem_of_mem_filter (permuted.mem_iff.mp member)
    rwa [scores _ (listed _ before), scores _ (listed _ after)] at lower
  exact ⟨origins.take limit, showsTop_take nodup permuted ordered limit,
    by rw [mapped, List.map_take]⟩

/-- Every item above the threshold is shown when there is room for all. -/
theorem ShowsTop.with_room {score : α → β} {threshold : β} {limit : Nat} {items shown : List α}
    (top : ShowsTop score threshold limit items shown) (room : items.length ≤ limit) {item : α}
    (present : item ∈ items) (above : threshold < score item) : item ∈ shown := by
  apply Classical.byContradiction
  intro hidden
  have full := top.full item present above hidden
  have within : item :: shown ⊆ items := by
    intro other member
    rcases List.mem_cons.mp member with rfl | row
    · exact present
    · exact (top.above other row).1
  have once := List.nodup_cons.mpr ⟨hidden, top.distinct⟩
  have fewer := (List.subperm_of_subset once within).length_le
  rw [List.length_cons] at fewer
  omega

/-- Sorting, cutting and then filtering shows the top of the items. -/
theorem showsTop_of_sorted {score : α → β} {items sorted : List α} (nodup : items.Nodup)
    (perm : sorted.Perm items) (descending : Descending score sorted) (threshold : β)
    (limit : Nat) :
    ShowsTop score threshold limit items
      ((sorted.take limit).filter fun item => threshold < score item) := by
  rw [descending_filter_take descending]
  apply showsTop_take nodup
  · exact perm.filter _
  · exact descending.filter _

end Ranking

end PhpProf
