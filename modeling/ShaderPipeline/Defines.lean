import Std.Data.TreeMap

/-! Sets of macro definitions that a caller hands to a compilation. Names and values are
interned; entries stay in the order of their names' symbols, so two sets with the same
definitions are the same set. -/

namespace ShaderPipeline

/-- A naming of strings by symbols that can be read back. -/
class Interner (σ : Type) where
  intern : String → σ
  resolve : σ → String
  resolve_intern : ∀ name, resolve (intern name) = name

export Interner (intern resolve resolve_intern)

/-- Every string is its own symbol. -/
instance : Interner String := ⟨id, id, fun _ => rfl⟩

theorem intern_injective [Interner σ] {first second : String}
    (same : intern first = (intern second : σ)) : first = second := by
  rw [← resolve_intern (σ := σ) first, same, resolve_intern]

/-- Definitions as pairs of a name's and a value's symbol, in the order of names. -/
structure Defines (σ : Type) where
  entries : List (σ × σ)
  deriving DecidableEq, Repr

/-- The set of definitions a compilation is given. -/
abbrev FeatureSet := Defines String

namespace Defines

variable {σ : Type} [Interner σ] [Ord σ]

def empty : Defines σ := ⟨[]⟩

instance : EmptyCollection (Defines σ) := ⟨empty⟩
instance : Inhabited (Defines σ) := ⟨empty⟩

/-- Puts an entry at its place, over an entry of the same name. -/
def insertEntry (key value : σ) : List (σ × σ) → List (σ × σ)
  | [] => [(key, value)]
  | (first, old) :: rest =>
    match compare key first with
    | .lt => (key, value) :: (first, old) :: rest
    | .eq => (first, value) :: rest
    | .gt => (first, old) :: insertEntry key value rest

def eraseEntry (key : σ) : List (σ × σ) → List (σ × σ)
  | [] => []
  | (first, value) :: rest =>
    match compare key first with
    | .lt => (first, value) :: rest
    | .eq => rest
    | .gt => (first, value) :: eraseEntry key rest

def lookup? (key : σ) : List (σ × σ) → Option σ
  | [] => none
  | (first, value) :: rest =>
    match compare key first with
    | .lt => none
    | .eq => some value
    | .gt => lookup? key rest

/-- Defines `name` as `value`, replacing an earlier value. -/
def set (name value : String) (defines : Defines σ) : Defines σ :=
  ⟨insertEntry (intern name) (intern value) defines.entries⟩

/-- Defines `name` with an empty value. -/
def define (name : String) (defines : Defines σ) : Defines σ := defines.set name ""

def get? (name : String) (defines : Defines σ) : Option String :=
  (lookup? (intern name) defines.entries).map resolve

def contains (name : String) (defines : Defines σ) : Bool := (defines.get? name).isSome

/-- Removes `name`, and tells whether it was defined. -/
def remove (name : String) (defines : Defines σ) : Bool × Defines σ :=
  (defines.contains name, ⟨eraseEntry (intern name) defines.entries⟩)

/-- Copies every entry of `other`, which wins over an entry of the same name. -/
def merge (defines other : Defines σ) : Defines σ :=
  ⟨other.entries.foldl (fun entries entry => insertEntry entry.1 entry.2 entries) defines.entries⟩

/-- The set of the given definitions, of which later ones win. -/
def ofList (definitions : List (String × String)) : Defines σ :=
  definitions.foldl (fun defines definition => defines.set definition.1 definition.2) empty

def size (defines : Defines σ) : Nat := defines.entries.length

def isEmpty (defines : Defines σ) : Bool := defines.entries.isEmpty

/-- The definitions by name and value. -/
def toList (defines : Defines σ) : List (String × String) :=
  defines.entries.map fun entry => (resolve entry.1, resolve entry.2)

/-- What takes in numbers and symbols, one after the other. -/
structure Hasher (σ η : Type) where
  number : η → Nat → η
  symbol : η → σ → η

/-- A set is hashed as its size and then its symbols, entry by entry. -/
def hashInto (hasher : Hasher σ η) (state : η) (defines : Defines σ) : η :=
  defines.entries.foldl (fun state entry => hasher.symbol (hasher.symbol state entry.1) entry.2)
    (hasher.number state defines.size)

end Defines

end ShaderPipeline
