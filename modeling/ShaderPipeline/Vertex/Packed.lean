import ShaderPipeline.Log
import ShaderPipeline.Text.Numeral
import ShaderPipeline.Vertex.Scalar

/-! Packed groups: integer fields laid side by side in the bits of one 32-bit word, the first
field lowest. Values are packed into the word, unpacked from it, and unpacked by shader code. -/

namespace ShaderPipeline.Vertex

/-- The bits of a packed group. -/
def groupBits : Nat := 32

/-- A field of `count` components of `bits` bits each, the first at bit `offset`. -/
structure PackedField where
  name : String
  scalar : Scalar
  count : Nat
  bits : Nat
  offset : Nat
  deriving DecidableEq, Repr

namespace PackedField

/-- Selects one component that has been shifted down. -/
def mask (field : PackedField) : Word := BitVec.ofNat 32 (1 <<< min field.bits 32 - 1)

def totalBits (field : PackedField) : Nat := field.bits * field.count

/-- The lowest bit of a component. -/
def componentOffset (field : PackedField) (component : Nat) : Nat :=
  field.offset + field.bits * component

end PackedField

/-- The sum of a measure over items. -/
def total (measure : α → Nat) (items : List α) : Nat :=
  items.foldr (fun item sum => measure item + sum) 0

/-- One component of a field and its lowest bit. -/
structure Slot where
  field : PackedField
  offset : Nat
  deriving DecidableEq, Repr

def PackedField.slots (field : PackedField) : List Slot :=
  (List.range field.count).map fun component => ⟨field, field.componentOffset component⟩

structure PackedGroup where
  name : String
  fields : List PackedField
  deriving DecidableEq, Repr

namespace PackedGroup

def empty (name : String) : PackedGroup := ⟨name, []⟩

def usedBits (group : PackedGroup) : Nat := total PackedField.totalBits group.fields

def availableBits (group : PackedGroup) : Nat := groupBits - group.usedBits

def field? (group : PackedGroup) (name : String) : Option PackedField :=
  group.fields.find? (·.name == name)

/-- The components of all fields, in order. -/
def slots (group : PackedGroup) : List Slot := group.fields.flatMap PackedField.slots

def componentCount (group : PackedGroup) : Nat := total PackedField.count group.fields

/-- The bits that a field asks for, no more than a word can count. -/
def requestedBits (count bits : Nat) : Nat := min (bits * count) wordMax

/-- Appends a field at the next free bit. A field that does not fit is a fault. -/
def push (group : PackedGroup) (name : String) (scalar : Scalar) (count bits : Nat) :
    Attempt PackedGroup :=
  let requested := requestedBits count bits
  if requested > group.availableBits then
    Attempt.fail (.packedOverflow group.name name requested group.availableBits)
  else
    pure { group with
      fields := group.fields ++ [⟨name, scalar, count, bits, group.usedBits⟩] }

/-- Puts values into a word, one for each slot. Missing values are zero, and a value wider than
its field is cut with a warning. -/
def packSlots (word : Word) : List Slot → List Word → Measured Word
  | [], _ => pure word
  | slot :: slots, values => do
    let value := values.headD 0
    let mask := slot.field.mask
    if value &&& ~~~mask ≠ 0 then
      Measured.warn (s!"Packed field '{slot.field.name}': value {value.toNat} truncated to " ++
        s!"{slot.field.bits} bits")
    if slot.offset ≥ 32 then throw .shiftLeft
    packSlots (word ||| ((value &&& mask) <<< slot.offset)) slots values.tail

/-- Packs one value for each component into a word. -/
def pack (group : PackedGroup) (values : List Word) : Measured Word := do
  if values.length ≠ group.componentCount then
    Measured.warn (s!"Packed group '{group.name}': expected {group.componentCount} values, " ++
      s!"got {values.length}")
  packSlots 0 group.slots values

/-- Reads every component back from a word. -/
def unpack (group : PackedGroup) (word : Word) : Except Overflow (List Word) :=
  group.slots.mapM fun slot =>
    if slot.offset ≥ 32 then .error .shiftRight
    else .ok ((word >>> slot.offset) &&& slot.field.mask)

end PackedGroup

/-- A shader term that shifts a group's word down and masks it. -/
structure Extraction where
  group : String
  shift : Nat
  mask : Word
  deriving DecidableEq, Repr

def Extraction.text (term : Extraction) : String :=
  s!"({term.group} >> {term.shift}) & 0x{Text.upperHex term.mask.toNat}"

namespace PackedField

/-- The shader terms for the components of a field. -/
def extractions (field : PackedField) (group : String) : List Extraction :=
  field.slots.map fun slot => ⟨group, slot.offset, field.mask⟩

/-- The shader statement that declares a field's value. -/
def unpackStatement (field : PackedField) (group : String) : String :=
  let terms := String.intercalate ", " ((field.extractions group).map Extraction.text)
  let type := shaderType true field.count
  if field.count = 1 then s!"{type} {field.name} = {terms};"
  else s!"{type} {field.name} = {type}({terms});"

end PackedField

/-- The shader statements that declare every field's value. -/
def PackedGroup.unpackStatements (group : PackedGroup) : List String :=
  group.fields.map (·.unpackStatement group.name)

end ShaderPipeline.Vertex
