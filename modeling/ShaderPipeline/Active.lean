/-! Names under expansion. A name that is being expanded is not expanded again inside itself, so
nesting is bounded by the number of names there are. -/

namespace ShaderPipeline

/-- How many of `names` are not under expansion. -/
def idleCount (names active : List String) : Nat :=
  (names.filter fun name => !active.contains name).length

theorem idleCount_cons_lt {names active : List String} {name : String}
    (member : name ∈ names) (idle : name ∉ active) :
    idleCount names (name :: active) < idleCount names active := by
  unfold idleCount
  have split : (names.filter fun other => !(name :: active).contains other) =
      (names.filter fun other => !active.contains other).filter fun other => other != name := by
    rw [List.filter_filter]
    congr 1
    funext other
    by_cases same : other = name <;> simp [same]
  rw [split]
  exact List.length_filter_lt_length_iff_exists.mpr ⟨name, by simp [member, idle], by simp⟩

theorem idleCount_append_lt {names active : List String} {name : String}
    (member : name ∈ names) (idle : name ∉ active) :
    idleCount names (active ++ [name]) < idleCount names active := by
  have same : idleCount names (active ++ [name]) = idleCount names (name :: active) := by
    unfold idleCount
    congr 2
    funext other
    simp [Bool.or_comm]
  rw [same]
  exact idleCount_cons_lt member idle

end ShaderPipeline
