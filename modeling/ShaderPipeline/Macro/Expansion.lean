import ShaderPipeline.Active
import ShaderPipeline.Text.Word
import Std.Data.TreeMap

/-! Macro expansion: defined words give way to their values, which are expanded in turn. A macro
is not expanded inside its own value, so expansion ends for every table. -/

namespace ShaderPipeline

/-- Macro values by name. -/
abbrev MacroTable := Std.TreeMap String Text

namespace Macro

/-- Which macros take part in an expansion. -/
inductive Mode where
  | all
  /-- Macros with an empty value keep their name, so a condition can ask for them. -/
  | nonEmpty
  deriving DecidableEq, Repr

def Mode.expands : Mode → Text → Bool
  | .all, _ => true
  | .nonEmpty, value => !value.isEmpty

set_option linter.unusedVariables false in
/-- Expands the words of a text inside the values of the `active` macros, innermost first. -/
def expandInside (table : MacroTable) (mode : Mode) (active : List String) (text : Text) : Text :=
  Text.replaceWords (fun word =>
    let name := String.ofList word
    if inside : name ∈ active then none
    else match found : table[name]? with
      | none => none
      | some value =>
        if mode.expands value then some (expandInside table mode (name :: active) value)
        else none) text
termination_by idleCount table.keys active
decreasing_by
  apply idleCount_cons_lt _ inside
  rw [Std.TreeMap.mem_keys]
  exact Std.TreeMap.mem_iff_isSome_getElem?.mpr (by simp [found])

/-- Expands the words of a text. -/
def expand (table : MacroTable) (mode : Mode) (text : Text) : Text :=
  expandInside table mode [] text

end Macro

end ShaderPipeline
