import ShaderPipeline.Log
import ShaderPipeline.Text.Blank
import ShaderPipeline.Text.Quotation
import Std.Data.TreeMap

/-! Registered include texts by name. A provider may answer differently each time it is asked,
so the registry counts how often each one was. -/

namespace ShaderPipeline

/-- An include's text by the number of times it has been asked for before. -/
abbrev Provider := Nat → Text

/-- A provider of the same text at every call. -/
def Provider.fixed (text : Text) : Provider := fun _ => text

abbrev Providers := Std.TreeMap String Provider

/-- How often each provider has been asked. A name without an entry has not been. -/
abbrev CallCounts := Std.TreeMap String Nat

structure Registry where
  providers : Providers
  calls : CallCounts

/-- The line that stands where an include is not registered. -/
def missingMarker (name : String) : Text :=
  (s!"#error Unable to locate include: {name}").toList

def missingMessage (name : String) : String := s!"Include '{name}' is not registered"

/-- How often `name` has been asked for before, and the counts with one more call. -/
def CallCounts.ask (calls : CallCounts) (name : String) : Nat × CallCounts :=
  let earlier := calls.getD name 0
  (earlier, calls.insert name (earlier + 1))

namespace Registry

def empty : Registry := ⟨{}, {}⟩

instance : EmptyCollection Registry := ⟨empty⟩

/-- Registers a provider that has not been asked yet, over an earlier one of the name. -/
def register (name : String) (provider : Provider) (registry : Registry) : Registry :=
  ⟨registry.providers.insert name provider, registry.calls.erase name⟩

/-- The registry of the given fixed texts, of which later ones win. -/
def ofTexts (texts : List (String × Text)) : Registry :=
  texts.foldl (fun registry entry => registry.register entry.1 (.fixed entry.2)) empty

/-- Removes `name`, and tells whether it was registered. -/
def unregister (name : String) (registry : Registry) : Bool × Registry :=
  (registry.providers.contains name,
    ⟨registry.providers.erase name, registry.calls.erase name⟩)

def contains (name : String) (registry : Registry) : Bool := registry.providers.contains name

/-- Asks for the text of `name`. -/
def get? (name : String) (registry : Registry) : Option Text × Registry :=
  match registry.providers[name]? with
  | none => (none, registry)
  | some provider =>
    let (earlier, calls) := CallCounts.ask registry.calls name
    (some (provider earlier), { registry with calls })

/-- The text of `name`, or an inline `#error` line with a warning. -/
def resolve (name : String) (registry : Registry) : Logged (Text × Registry) :=
  match registry.get? name with
  | (some text, asked) => pure (text, asked)
  | (none, asked) => do
    Logged.warn (missingMessage name)
    return (missingMarker name, asked)

/-- Registered names in sorted order. -/
def names (registry : Registry) : List String := registry.providers.keys

def size (registry : Registry) : Nat := registry.providers.size

def isEmpty (registry : Registry) : Bool := registry.providers.isEmpty

/-- The registered names in one line of text. -/
def description (registry : Registry) : String :=
  "IncludeRegistry \x7b names: " ++ quotedList registry.names ++ " \x7d"

end Registry

end ShaderPipeline
