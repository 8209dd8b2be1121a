import Mathlib.Data.List.Sort
import ShaderPipeline.Defines

/-! Entries in the order of their names' symbols: what a lookup finds after an insertion, a removal
and a merge, and why the same entries are the same list. -/

namespace ShaderPipeline.Defines

variable {σ : Type} [Ord σ] {entries : List (σ × σ)}

/-- In strict order of names, so that no name occurs twice. -/
def Sorted (entries : List (σ × σ)) : Prop :=
  entries.Pairwise fun first second => compare first.1 second.1 = .lt

theorem eraseEntry_sublist (key : σ) (entries : List (σ × σ)) :
    (eraseEntry key entries).Sublist entries := by
  induction entries with
  | nil => exact .slnil
  | cons head rest ih =>
    obtain ⟨first, value⟩ := head
    cases order : compare key first with
    | lt | eq => simp [eraseEntry, order]
    | gt => simpa [eraseEntry, order] using ih

theorem eraseEntry_of_lookup?_eq_none {key : σ} (absent : lookup? key entries = none) :
    eraseEntry key entries = entries := by
  induction entries with
  | nil => rfl
  | cons head rest ih =>
    obtain ⟨first, value⟩ := head
    cases order : compare key first with
    | lt => simp [eraseEntry, order]
    | eq => simp [lookup?, order] at absent
    | gt =>
      simp only [lookup?, order] at absent
      simp [eraseEntry, order, ih absent]

theorem Sorted.eraseEntry (sorted : Sorted entries) (key : σ) :
    Sorted (Defines.eraseEntry key entries) :=
  List.Pairwise.sublist (eraseEntry_sublist key entries) sorted

private theorem lookup?_eq_none_of_before {key : σ}
    (before : ∀ entry ∈ entries, compare key entry.1 = .lt) :
    lookup? key entries = none := by
  cases entries with
  | nil => rfl
  | cons head rest => rw [lookup?, before head List.mem_cons_self]

variable [Std.LawfulEqOrd σ]

theorem mem_insertEntry {key value : σ} {entry : σ × σ}
    (member : entry ∈ insertEntry key value entries) :
    entry = (key, value) ∨ entry ∈ entries := by
  induction entries with
  | nil => simpa [insertEntry] using member
  | cons head rest ih =>
    obtain ⟨first, old⟩ := head
    cases order : compare key first with
    | lt => simpa [insertEntry, order] using member
    | eq =>
      simp only [insertEntry, order, List.mem_cons] at member
      rcases member with rfl | member
      · exact .inl (by rw [Std.compare_eq_iff_eq.mp order])
      · exact .inr (List.mem_cons_of_mem _ member)
    | gt =>
      simp only [insertEntry, order, List.mem_cons] at member
      rcases member with rfl | member
      · exact .inr List.mem_cons_self
      · exact (ih member).imp_right (List.mem_cons_of_mem _)

theorem lookup?_insertEntry_self (key value : σ) (entries : List (σ × σ)) :
    lookup? key (insertEntry key value entries) = some value := by
  induction entries with
  | nil => simp [insertEntry, lookup?]
  | cons head rest ih =>
    obtain ⟨first, old⟩ := head
    cases order : compare key first with
    | lt | eq => simp [insertEntry, order, lookup?]
    | gt => simpa [insertEntry, order, lookup?] using ih

theorem lookup?_eraseEntry_self (key : σ) (sorted : Sorted entries) :
    lookup? key (eraseEntry key entries) = none := by
  induction entries with
  | nil => rfl
  | cons head rest ih =>
    obtain ⟨first, value⟩ := head
    obtain ⟨before, sortedRest⟩ := List.pairwise_cons.mp sorted
    cases order : compare key first with
    | lt => simp [eraseEntry, order, lookup?]
    | eq =>
      obtain rfl := Std.compare_eq_iff_eq.mp order
      simpa [eraseEntry] using lookup?_eq_none_of_before before
    | gt => simpa [eraseEntry, order, lookup?] using ih sortedRest

variable [Std.TransOrd σ]

theorem Sorted.insertEntry (sorted : Sorted entries) (key value : σ) :
    Sorted (Defines.insertEntry key value entries) := by
  induction entries with
  | nil => exact List.pairwise_singleton _ _
  | cons head rest ih =>
    obtain ⟨first, old⟩ := head
    obtain ⟨before, sortedRest⟩ := List.pairwise_cons.mp sorted
    cases order : compare key first with
    | lt =>
      rw [Defines.insertEntry, order]
      refine List.pairwise_cons.mpr ⟨fun entry member => ?_, sorted⟩
      rcases List.mem_cons.mp member with rfl | later
      · exact order
      · exact Std.TransCmp.lt_trans order (before entry later)
    | eq =>
      rw [Defines.insertEntry, order]
      exact List.pairwise_cons.mpr ⟨before, sortedRest⟩
    | gt =>
      rw [Defines.insertEntry, order]
      refine List.pairwise_cons.mpr ⟨fun entry member => ?_, ih sortedRest⟩
      rcases mem_insertEntry member with rfl | old
      · exact Std.OrientedCmp.gt_iff_lt.mp order
      · exact before entry old

theorem lookup?_insertEntry_of_ne {key other : σ} (differ : other ≠ key) (value : σ)
    (entries : List (σ × σ)) :
    lookup? other (insertEntry key value entries) = lookup? other entries := by
  have apart : compare other key ≠ .eq := fun same => differ (Std.compare_eq_iff_eq.mp same)
  induction entries with
  | nil => cases place : compare other key <;> simp_all [insertEntry, lookup?]
  | cons head rest ih =>
    obtain ⟨first, old⟩ := head
    cases order : compare key first with
    | lt =>
      -- A name before the new one is before the first entry, too.
      cases place : compare other key with
      | lt => simp [insertEntry, order, lookup?, place, Std.TransCmp.lt_trans place order]
      | eq => exact absurd place apart
      | gt => simp [insertEntry, order, lookup?, place]
    | eq =>
      obtain rfl := Std.compare_eq_iff_eq.mp order
      cases place : compare other key with
      | lt | gt => simp [insertEntry, lookup?, place]
      | eq => exact absurd place apart
    | gt => simp only [insertEntry, order, lookup?, ih]

theorem lookup?_eraseEntry_of_ne {key other : σ} (differ : other ≠ key) (sorted : Sorted entries) :
    lookup? other (eraseEntry key entries) = lookup? other entries := by
  induction entries with
  | nil => rfl
  | cons head rest ih =>
    obtain ⟨first, value⟩ := head
    obtain ⟨before, sortedRest⟩ := List.pairwise_cons.mp sorted
    cases order : compare key first with
    | lt => simp [eraseEntry, order]
    | eq =>
      obtain rfl := Std.compare_eq_iff_eq.mp order
      cases place : compare other key with
      | lt =>
        have absent : lookup? other rest = none := lookup?_eq_none_of_before fun entry member =>
          Std.TransCmp.lt_trans place (before entry member)
        simp [eraseEntry, lookup?, place, absent]
      | eq => exact absurd (Std.compare_eq_iff_eq.mp place) differ
      | gt => simp [eraseEntry, lookup?, place]
    | gt => simp only [eraseEntry, order, lookup?, ih sortedRest]

/-- In order, exactly the entries are found. -/
theorem Sorted.lookup?_eq_some_iff (sorted : Sorted entries) {key value : σ} :
    lookup? key entries = some value ↔ (key, value) ∈ entries := by
  induction entries with
  | nil => simp [lookup?]
  | cons head rest ih =>
    obtain ⟨first, old⟩ := head
    obtain ⟨before, sortedRest⟩ := List.pairwise_cons.mp sorted
    have late (member : (key, value) ∈ rest) : compare key first = .gt :=
      Std.OrientedCmp.gt_iff_lt.mpr (before _ member)
    cases order : compare key first with
    | lt =>
      have absent : (key, value) ∉ rest := fun member => by simp [late member] at order
      have differ : key ≠ first := by rintro rfl; simp at order
      simp [lookup?, order, absent, differ]
    | eq =>
      have absent : (key, value) ∉ rest := fun member => by simp [late member] at order
      obtain rfl := Std.compare_eq_iff_eq.mp order
      simp [lookup?, absent, eq_comm]
    | gt =>
      have differ : key ≠ first := by rintro rfl; simp at order
      simp [lookup?, order, differ, ih sortedRest]

/-- Entries that are copied over others win. -/
theorem lookup?_merge (key : σ) (entries : List (σ × σ)) {others : List (σ × σ)}
    (sorted : Sorted others) :
    lookup? key (others.foldl (fun entries entry => insertEntry entry.1 entry.2 entries) entries) =
      (lookup? key others).or (lookup? key entries) := by
  induction others generalizing entries with
  | nil => rfl
  | cons head rest ih =>
    obtain ⟨first, value⟩ := head
    obtain ⟨before, sortedRest⟩ := List.pairwise_cons.mp sorted
    rw [List.foldl_cons, ih _ sortedRest]
    cases order : compare key first with
    | lt =>
      have absent : lookup? key rest = none := lookup?_eq_none_of_before fun entry member =>
        Std.TransCmp.lt_trans order (before entry member)
      have differ : key ≠ first := by rintro rfl; simp at order
      simp [lookup?, order, absent, lookup?_insertEntry_of_ne differ]
    | eq =>
      obtain rfl := Std.compare_eq_iff_eq.mp order
      simp [lookup?, lookup?_eq_none_of_before before, lookup?_insertEntry_self]
    | gt =>
      have differ : key ≠ first := by rintro rfl; simp at order
      simp [lookup?, order, lookup?_insertEntry_of_ne differ]

theorem Sorted.merge (sorted : Sorted entries) (others : List (σ × σ)) :
    Sorted (others.foldl (fun entries entry => Defines.insertEntry entry.1 entry.2 entries)
      entries) := by
  induction others generalizing entries with
  | nil => exact sorted
  | cons entry rest ih => exact ih (sorted.insertEntry entry.1 entry.2)

/-- There is one order for the same entries. -/
theorem Sorted.eq_of_mem_iff {others : List (σ × σ)} (sorted : Sorted entries)
    (other : Sorted others) (same : ∀ entry, entry ∈ entries ↔ entry ∈ others) :
    entries = others := by
  have irreflexive : Std.Irrefl fun first second : σ × σ => compare first.1 second.1 = .lt :=
    ⟨fun entry before => by simp at before⟩
  have antisymmetric : Std.Antisymm fun first second : σ × σ => compare first.1 second.1 = .lt :=
    ⟨fun _ _ before after => absurd after (Std.OrientedCmp.not_lt_of_lt before)⟩
  exact List.Pairwise.eq_of_mem_iff sorted other same

end ShaderPipeline.Defines
