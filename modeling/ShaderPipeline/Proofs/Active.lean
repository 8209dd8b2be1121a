import Mathlib.Data.List.Nodup
import Mathlib.Data.List.Perm.Subperm
import Mathlib.Order.WellFounded
import Std.Data.TreeMap

/-! Names under expansion are names of a table, so there are never more of them than the table has
entries. Ways along references that all end do not run through a cycle. -/

namespace ShaderPipeline

theorem mem_of_found {table : Std.TreeMap String α} {name : String} {value : α}
    (found : table[name]? = some value) : name ∈ table :=
  Std.TreeMap.mem_iff_isSome_getElem?.mpr (by simp [found])

/-- Different names of a table are no more than there are entries. -/
theorem length_le_size_of_nodup {table : Std.TreeMap String α} {active : List String}
    (nodup : active.Nodup) (defined : ∀ name ∈ active, name ∈ table) :
    active.length ≤ table.size := by
  have inside : active ⊆ table.keys := fun name member =>
    Std.TreeMap.mem_keys.mpr (defined name member)
  calc active.length ≤ table.keys.length := (nodup.subperm inside).length_le
    _ = table.size := Std.TreeMap.length_keys

private theorem irrefl_of_acc {relation : α → α → Prop} {first : α} (acc : Acc relation first) :
    ¬ relation first first := by
  induction acc with
  | intro first _ ih => exact fun loop => ih first loop loop

private theorem acc_of_leads {relation : α → α → Prop} {first last : α}
    (acc : Acc (Function.swap relation) first) (leads : Relation.ReflTransGen relation first last) :
    Acc (Function.swap relation) last := by
  induction leads with
  | refl => exact acc
  | tail _ step ih => exact ih.inv step

/-- Where every way ends, none leads into a cycle. -/
theorem not_cycle_of_acc {relation : α → α → Prop} {first name : α}
    (acc : Acc (Function.swap relation) first) (leads : Relation.ReflTransGen relation first name) :
    ¬ Relation.TransGen relation name name := fun cycle =>
  irrefl_of_acc (acc_transGen_iff.mpr (acc_of_leads acc leads)) (Relation.transGen_swap.mpr cycle)

end ShaderPipeline
