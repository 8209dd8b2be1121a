import ShaderPipeline.Vertex.Layout

/-! Building a layout from declarations in order. Attributes take the next free bytes; a packed
group takes them when it is closed. Declarations that do not fit in warn and change nothing. -/

namespace ShaderPipeline.Vertex

structure Builder where
  components : List Component
  attributes : List Attribute
  /-- The next free byte. -/
  offset : Nat
  /-- The packed group that is being filled. -/
  group? : Option PackedGroup
  /-- How many groups have been opened, closed or not. -/
  groupsStarted : Nat
  deriving DecidableEq, Repr

namespace Builder

def empty : Builder := ⟨[], [], 0, none, 0⟩

instance : EmptyCollection Builder := ⟨empty⟩

/-- Declarations that are out of place. -/
inductive Problem where
  | attributeInGroup (name : String)
  | duplicate (name : String)
  | unclosed (group : String)
  | zeroWidth (name : String)
  | fieldOutsideGroup (name : String)
  | noGroup
  | emptyGroup (group : String)

def Problem.message : Problem → String
  | .attributeInGroup name =>
    s!"Attribute '{name}' declared inside an open packed group, ignored"
  | .duplicate name => s!"Duplicate vertex component '{name}', ignored"
  | .unclosed group => s!"Packed group '{group}' was never closed, discarded"
  | .zeroWidth name => s!"Packed field '{name}' has zero width, ignored"
  | .fieldOutsideGroup name => s!"Packed field '{name}' declared outside a packed group, ignored"
  | .noGroup => "No packed group to close"
  | .emptyGroup group => s!"Packed group '{group}' is empty, no attribute allocated"

def warn (problem : Problem) : Logged Unit := Logged.warn problem.message

def isDeclared (builder : Builder) (name : String) : Bool :=
  builder.components.any (·.name == name)

def isPacking (builder : Builder) : Bool := builder.group?.isSome

/-- Bits still free in the open group. -/
def availableBits? (builder : Builder) : Option Nat := builder.group?.map PackedGroup.availableBits

/-- Gives an attribute the next free bytes. -/
def place (builder : Builder) (name : String) (format : Format) (packed : Option PackedGroup)
    (components : List (String × Storage)) : Builder :=
  { builder with
    components := builder.components ++
      components.mapIdx fun position (name, storage) =>
        ⟨name, builder.components.length + position, builder.attributes.length, storage⟩
    attributes := builder.attributes ++ [⟨name, format, builder.offset, packed⟩]
    offset := builder.offset + format.size }

/-- Adds a plain attribute. -/
def add (builder : Builder) (name : String) (format : Format) : Logged Builder :=
  if builder.isPacking then do
    warn (.attributeInGroup name)
    return builder
  else if builder.isDeclared name then do
    warn (.duplicate name)
    return builder
  else return builder.place name format none [(name, .plain)]

/-- Drops the open group, as what was never closed. -/
def dropUnclosed (builder : Builder) : Logged Builder :=
  match builder.group? with
  | none => return builder
  | some group => do
    warn (.unclosed group.name)
    return { builder with group? := none }

/-- Opens a packed group. Groups without a name are called `packed0`, `packed1` and so on, by
the number of groups opened before. -/
def beginPacked (builder : Builder) (name? : Option String) : Logged Builder := do
  let builder ← builder.dropUnclosed
  let name := name?.getD s!"packed{builder.groupsStarted}"
  return { builder with
    group? := some (.empty name)
    groupsStarted := builder.groupsStarted + 1 }

/-- Adds a field to the open group. A field that does not fit is a fault. -/
def addPackedField (builder : Builder) (name : String) (scalar : Scalar) (count bits : Nat) :
    Attempt Builder :=
  if bits = 0 then do
    warn (.zeroWidth name)
    return builder
  else match builder.group? with
    | none => do
      warn (.fieldOutsideGroup name)
      return builder
    | some group =>
      if builder.isDeclared name || (group.field? name).isSome then do
        warn (.duplicate name)
        return builder
      else do
        let group ← group.push name scalar count bits
        return { builder with group? := some group }

/-- Closes the open group and gives it its word. The answer tells whether there was a group with
fields to close. -/
def endPacked (builder : Builder) : Logged (Bool × Builder) :=
  match builder.group? with
  | none => do
    warn .noGroup
    return (false, builder)
  | some group =>
    let closed := { builder with group? := none }
    if group.fields.isEmpty then do
      warn (.emptyGroup group.name)
      return (false, closed)
    else return (true, closed.place group.name .word (some group)
      (group.fields.map fun field => (field.name, .packed field)))

/-- Drops the open group and its fields. -/
def discardPacked (builder : Builder) : Builder := { builder with group? := none }

/-- The layout of what has been declared. An open group does not count. -/
def build (builder : Builder) : Logged Layout := do
  let builder ← builder.dropUnclosed
  return ⟨builder.components, builder.attributes, builder.offset⟩

end Builder

end ShaderPipeline.Vertex
