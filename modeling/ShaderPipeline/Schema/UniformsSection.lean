import ShaderPipeline.Schema.Uniform
import ShaderPipeline.Text.ArraySuffix
import ShaderPipeline.Text.Statement
import ShaderPipeline.Text.Word

/-! The uniforms section: declarations of uniforms and of buffer blocks, whose struct types are
those of the types section. What cannot be read is warned about and skipped. -/

namespace ShaderPipeline.Schema

/-- A buffer block whose header has been read. -/
structure OpenBlock where
  block : BufferBlock
  /-- The line of the header. -/
  line : Nat
  /-- A block with a bad name takes its body, and is not kept. -/
  valid : Bool
  deriving DecidableEq, Repr

structure UniformsReader where
  uniforms : Uniforms
  /-- The block whose body is being read. -/
  current? : Option OpenBlock
  /-- A block that waits for its opening brace. -/
  pending? : Option OpenBlock
  /-- A nested block is skipped up to a closing brace. -/
  skipping : Bool
  deriving DecidableEq, Repr

namespace UniformsReader

def start : UniformsReader := ⟨.empty, none, none, false⟩

/-- Recoverable problems of a uniforms section. -/
inductive Problem where
  | expectedBrace (name : String) (header : Nat)
  | strayOpening
  | strayClosing
  | nested (outer : String)
  | invalidBlock (name : Text)
  | repeatedBlock (name : Text)
  | trailing (text : Text)
  | initializer (statement : Text)
  | malformedProperty (statement : Text)
  | malformedDeclarator (declarator : Text)
  | invalidProperty (name : Text)
  | unknownPropertyType (type : Text) (block : String) (name : Text)
  | repeatedProperty (block : String) (name : Text)
  | noName (type : Text)
  | invalidName (name : Text)
  | ignored (words : List Text) (name : Text)
  | unknownFormat (format name : Text)
  | unknownType (type name : Text)
  | repeated (name : Text)
  | noProperties (name : String)
  | repeatedAtClose
  | noBody (name : String)
  | unterminated (name : String)

def Problem.message : Problem → String
  | .expectedBrace name header =>
    s!"expected '\x7b' after 'buffer {name}' (line {header}), declaration dropped"
  | .strayOpening => "'\x7b' without a buffer declaration"
  | .strayClosing => "'\x7d' without an open buffer"
  | .nested outer => s!"nested buffer inside '{outer}' is not supported, skipping its body"
  | .invalidBlock name => s!"invalid buffer name '{name.string}'"
  | .repeatedBlock name => s!"'{name.string}' is already declared"
  | .trailing text => s!"ignoring '{text.string}' after buffer"
  | .initializer statement => s!"initializers are not supported in '{statement.string}'"
  | .malformedProperty statement => s!"malformed buffer property '{statement.string}'"
  | .malformedDeclarator declarator => s!"malformed declarator '{declarator.string}'"
  | .invalidProperty name => s!"invalid property name '{name.string}'"
  | .unknownPropertyType type block name =>
    s!"unknown type '{type.string}' for '{block}.{name.string}'"
  | .repeatedProperty block name => s!"duplicate property '{block}.{name.string}'"
  | .noName type => s!"'{type.string}' declaration without a name"
  | .invalidName name => s!"invalid uniform name '{name.string}'"
  | .ignored words name =>
    s!"ignoring '{(Text.joinWords words).string}' after '{name.string}'"
  | .unknownFormat format name =>
    s!"unknown pixel format '{format.string}' for '{name.string}', ignored"
  | .unknownType type name => s!"unknown type '{type.string}' for uniform '{name.string}'"
  | .repeated name => s!"uniform '{name.string}' is already declared"
  | .noProperties name => s!"buffer '{name}' has no properties, ignored"
  | .repeatedAtClose => "buffer name is already declared"
  | .noBody name => s!"buffer '{name}' has no body"
  | .unterminated name => s!"buffer '{name}' is not terminated, discarded"

def warn (line : Nat) (problem : Problem) : Logged Unit :=
  Logged.warn s!"uniforms:{line}: {problem.message}"

/-- Why `name` cannot name a new block. -/
def nameProblem? (uniforms : Uniforms) (name : Text) : Option Problem :=
  if !Text.isIdentifier name then some (.invalidBlock name)
  else if (uniforms.find? name.string).isSome then some (.repeatedBlock name)
  else none

/-- Adds the member that a statement declares. -/
def addProperty (types : Types) (block : BufferBlock) (statement : Text) :
    Except Problem BufferBlock := do
  if statement.contains '=' then throw (.initializer statement)
  let some (type, declarator) := Text.splitBlank? statement
    | throw (.malformedProperty statement)
  let some (name, length) := Text.splitArraySuffix? declarator
    | throw (.malformedDeclarator (Text.trim declarator))
  if !Text.isIdentifier name then throw (.invalidProperty name)
  let some (propertyType, _) := types.resolve? type.string
    | throw (.unknownPropertyType type block.name name)
  if (block.property? name.string).isSome then throw (.repeatedProperty block.name name)
  return { block with
    properties := block.properties ++ [⟨name.string, propertyType, length⟩] }

/-- Reads a statement of the current block. -/
def property (reader : UniformsReader) (types : Types) (line : Nat) (statement : Text) :
    Logged UniformsReader :=
  match reader.current? with
  | none => return reader
  | some current =>
    match addProperty types current.block statement with
    | .ok block => return { reader with current? := some { current with block } }
    | .error problem => do
      warn line problem
      return reader

def properties (reader : UniformsReader) (types : Types) (line : Nat) :
    List Text → Logged UniformsReader
  | [] => return reader
  | first :: rest => do (← reader.property types line first).properties types line rest

/-- Closes the current block and keeps it if it is valid and has members. -/
def close (reader : UniformsReader) (line : Nat) : Logged UniformsReader :=
  match reader.current? with
  | none => do
    warn line .strayClosing
    return reader
  | some current => do
    let closed := { reader with current? := none }
    if !current.valid then return closed
    if current.block.properties.isEmpty then
      warn current.line (.noProperties current.block.name)
      return closed
    match reader.uniforms.add? (.ofBuffer current.block) with
    | some uniforms => return { closed with uniforms }
    | none =>
      warn current.line .repeatedAtClose
      return closed

/-- Reads statements of the current block, and its closing brace if the line has it. -/
def body (reader : UniformsReader) (types : Types) (line : Nat) (text : Text) :
    Logged UniformsReader := do
  let block := Text.BlockLine.ofText text
  if let some trailing := block.trailing? then warn line (.trailing trailing)
  let reader ← reader.properties types line (Text.statements block.inner)
  if block.closes then reader.close line else return reader

/-- Reads what follows the word `buffer` outside other blocks. -/
def header (reader : UniformsReader) (types : Types) (line : Nat) (after : Text) :
    Logged UniformsReader := do
  let (name, body?) := Text.splitHeader after
  let problem? := nameProblem? reader.uniforms name
  if let some problem := problem? then warn line problem
  let block : OpenBlock := ⟨⟨name.string, []⟩, line, problem?.isNone⟩
  match body? with
  | some text => body { reader with current? := some block } types line text
  | none => return { reader with pending? := some block }

/-- The declarator of a uniform and the words after it. The brackets of an array may be a word of
their own. -/
def declarator? : List Text → Option (Text × List Text)
  | [] => none
  | name :: array :: extra =>
    if array.head? = some '[' then some (name ++ array, extra) else some (name, array :: extra)
  | [name] => some (name, [])

/-- The format of an image from the words after its name. -/
def imageFormat (line : Nat) (name : Text) : List Text → Logged (Option PixelFormat)
  | [] => return none
  | format :: ignored => do
    if !ignored.isEmpty then warn line (.ignored ignored name)
    let parsed := PixelFormat.ofQualifier? format.string
    if parsed.isNone then warn line (.unknownFormat format name)
    return parsed

/-- What a uniform of type `type` binds, if the type is known. -/
def kind? (types : Types) (line : Nat) (type name : Text) (extra : List Text) :
    Logged (Option UniformKind) :=
  match TextureShape.ofImageName? type.string with
  | some shape => return some (.image shape (← imageFormat line name extra))
  | none => do
    if !extra.isEmpty then warn line (.ignored extra name)
    if let some shape := TextureShape.ofSamplerName? type.string then
      return some (.sampler shape)
    if let some value := ValueType.ofName? type.string then return some (.value value)
    if types.contains type.string then return some (.struct type.string)
    warn line (.unknownType type name)
    return none

/-- Reads the declaration of a uniform outside blocks. -/
def uniform (reader : UniformsReader) (types : Types) (line : Nat) (statement : Text) :
    Logged UniformsReader := do
  if statement.contains '=' then
    warn line (.initializer statement)
    return reader
  match Text.words statement with
  | [] => return reader
  | type :: rest =>
    match declarator? rest with
    | none =>
      warn line (.noName type)
      return reader
    | some (declarator, extra) =>
      match Text.splitArraySuffix? declarator with
      | none =>
        warn line (.malformedDeclarator declarator)
        return reader
      | some (name, length) =>
        if !Text.isIdentifier name then
          warn line (.invalidName name)
          return reader
        match ← kind? types line type name extra with
        | none => return reader
        | some kind =>
          match reader.uniforms.add? ⟨name.string, kind, length⟩ with
          | some uniforms => return { reader with uniforms }
          | none =>
            warn line (.repeated name)
            return reader

def statements (reader : UniformsReader) (types : Types) (line : Nat) :
    List Text → Logged UniformsReader
  | [] => return reader
  | first :: rest => do (← reader.uniform types line first).statements types line rest

/-- The word that starts a buffer block. -/
def keyword : Text := "buffer".toList

/-- Reads a line that is not skipped and that no header waits for. -/
def declaration (reader : UniformsReader) (types : Types) (line : Nat) (text : Text) :
    Logged UniformsReader :=
  match (Text.words text).head? with
  | none => return reader
  | some first =>
    if first = keyword then
      match reader.current? with
      | some current => do
        warn line (.nested current.block.name)
        return { reader with skipping := !text.contains '\x7d' }
      | none => reader.header types line (text.drop keyword.length)
    else if first.head? = some '\x7b' then do
      warn line .strayOpening
      return reader
    else if reader.current?.isSome then reader.body types line text
    else if first.head? = some '\x7d' then do
      warn line .strayClosing
      return reader
    else reader.statements types line (Text.statements text)

/-- Reads one line. -/
def line (reader : UniformsReader) (types : Types) (number : Nat) (line : Text) :
    Logged UniformsReader :=
  let text := Text.trim line
  if reader.skipping then return { reader with skipping := !text.contains '\x7d' }
  else match reader.pending? with
    | none => reader.declaration types number text
    | some pending => do
      let reader := { reader with pending? := none }
      match Text.dropStart? ['\x7b'] text with
      | some rest => body { reader with current? := some pending } types number rest
      | none =>
        warn number (.expectedBrace pending.block.name pending.line)
        reader.declaration types number text

/-- Reads lines, the first of which has the given number. -/
def lines (reader : UniformsReader) (types : Types) :
    (number : Nat) → List Text → Logged UniformsReader
  | _, [] => return reader
  | number, text :: rest => do (← reader.line types number text).lines types (number + 1) rest

/-- The uniforms read. A block that the section's end cuts off is not kept. -/
def finish (reader : UniformsReader) : Logged Uniforms := do
  if let some pending := reader.pending? then warn pending.line (.noBody pending.block.name)
  if let some current := reader.current? then
    warn current.line (.unterminated current.block.name)
  return reader.uniforms

end UniformsReader

/-- Reads a uniforms section whose struct types are `types`. -/
def Uniforms.ofSection (text : Text) (types : Types) : Logged Uniforms := do
  (← UniformsReader.start.lines types 1 (Text.lines text)).finish

end ShaderPipeline.Schema
