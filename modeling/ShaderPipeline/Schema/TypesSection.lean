import ShaderPipeline.Log
import ShaderPipeline.Schema.Types
import ShaderPipeline.Text.ArraySuffix
import ShaderPipeline.Text.Statement
import ShaderPipeline.Text.Word

/-! The types section: struct declarations, whose members may be of built-in types and of
structs declared before. A member that cannot be read is warned about and skipped; a struct with
a bad name is read and not kept. -/

namespace ShaderPipeline.Schema

/-- A struct whose header has been read. -/
structure OpenStruct where
  struct : Struct
  /-- The line of the header. -/
  line : Nat
  /-- A struct with a bad name takes its body, and is not kept. -/
  valid : Bool
  deriving DecidableEq, Repr

structure TypesReader where
  types : Types
  /-- The struct whose body is being read. -/
  current? : Option OpenStruct
  /-- A struct that waits for its opening brace. -/
  pending? : Option OpenStruct
  /-- A nested struct is skipped up to a closing brace. -/
  skipping : Bool
  deriving DecidableEq, Repr

namespace TypesReader

def start : TypesReader := ⟨.empty, none, none, false⟩

/-- Recoverable problems of a types section. -/
inductive Problem where
  | expectedBrace (name : String) (header : Nat)
  | strayOpening
  | nested (outer : String)
  | invalidName (name : Text)
  | builtInName (name : Text)
  | repeated (name : Text)
  | trailing (text : Text)
  | outside (statement : Text)
  | malformed (statement : Text)
  | malformedDeclarator (declarator : Text)
  | invalidProperty (name : Text)
  | unknownType (type : Text) (struct : String) (name : Text)
  | repeatedProperty (struct : String) (name : Text)
  | tooLarge (name : Text) (length : Nat)
  | strayClosing
  | noProperties (name : String)
  | noBody (name : String)
  | unterminated (name : String)

def Problem.message : Problem → String
  | .expectedBrace name header =>
    s!"expected '\x7b' after 'struct {name}' (line {header}), declaration dropped"
  | .strayOpening => "'\x7b' without a struct declaration"
  | .nested outer => s!"nested struct inside '{outer}' is not supported, skipping its body"
  | .invalidName name => s!"invalid struct name '{name.string}'"
  | .builtInName name => s!"struct name '{name.string}' shadows a built-in type"
  | .repeated name => s!"struct '{name.string}' is already declared"
  | .trailing text => s!"ignoring '{text.string}' after struct"
  | .outside statement => s!"'{statement.string}' outside a struct, ignored"
  | .malformed statement => s!"malformed property '{statement.string}'"
  | .malformedDeclarator declarator =>
    s!"malformed property declarator '{declarator.string}'"
  | .invalidProperty name => s!"invalid property name '{name.string}'"
  | .unknownType type struct name => s!"unknown type '{type.string}' for '{struct}.{name.string}'"
  | .repeatedProperty struct name => s!"duplicate property '{struct}.{name.string}'"
  | .tooLarge name length => s!"array '{name.string}[{length}]' is too large"
  | .strayClosing => "'\x7d' without an open struct"
  | .noProperties name => s!"struct '{name}' has no properties, ignored"
  | .noBody name => s!"struct '{name}' has no body"
  | .unterminated name => s!"struct '{name}' is not terminated, discarded"

def warn (line : Nat) (problem : Problem) : Logged Unit :=
  Logged.warn s!"types:{line}: {problem.message}"

/-- Why `name` cannot name a new struct. -/
def nameProblem? (types : Types) (name : Text) : Option Problem :=
  if !Text.isIdentifier name then some (.invalidName name)
  else if (ValueType.ofName? name.string).isSome then some (.builtInName name)
  else if types.contains name.string then some (.repeated name)
  else none

/-- Adds the member that a statement declares. -/
def addProperty (types : Types) (struct : Struct) (statement : Text) : Except Problem Struct := do
  let some (type, declarator) := Text.splitBlank? statement
    | throw (.malformed statement)
  let some (name, length) := Text.splitArraySuffix? declarator
    | throw (.malformedDeclarator (Text.trim declarator))
  if !Text.isIdentifier name then throw (.invalidProperty name)
  let some (propertyType, size) := types.resolve? type.string
    | throw (.unknownType type struct.name name)
  if (struct.property? name.string).isSome then throw (.repeatedProperty struct.name name)
  let some struct := struct.push? ⟨name.string, propertyType, length⟩ size
    | throw (.tooLarge name length)
  return struct

/-- Reads a statement of the current struct. -/
def statement (reader : TypesReader) (line : Nat) (statement : Text) : Logged TypesReader :=
  match reader.current? with
  | none => do
    warn line (.outside statement)
    return reader
  | some current =>
    match addProperty reader.types current.struct statement with
    | .ok struct => return { reader with current? := some { current with struct } }
    | .error problem => do
      warn line problem
      return reader

def statements (reader : TypesReader) (line : Nat) : List Text → Logged TypesReader
  | [] => return reader
  | first :: rest => do (← reader.statement line first).statements line rest

/-- Closes the current struct and keeps it if it is valid and has members. -/
def close (reader : TypesReader) (line : Nat) : Logged TypesReader :=
  match reader.current? with
  | none => do
    warn line .strayClosing
    return reader
  | some current => do
    let closed := { reader with current? := none }
    if !current.valid then return closed
    if current.struct.properties.isEmpty then
      warn current.line (.noProperties current.struct.name)
      return closed
    return { closed with types := (reader.types.add? current.struct).getD reader.types }

/-- Reads statements of the current struct, and its closing brace if the line has it. -/
def body (reader : TypesReader) (line : Nat) (text : Text) : Logged TypesReader := do
  let block := Text.BlockLine.ofText text
  if let some trailing := block.trailing? then warn line (.trailing trailing)
  let reader ← reader.statements line (Text.statements block.inner)
  if block.closes then reader.close line else return reader

/-- Reads what follows the word `struct` outside other structs. -/
def header (reader : TypesReader) (line : Nat) (after : Text) : Logged TypesReader := do
  let (name, body?) := Text.splitHeader after
  let problem? := nameProblem? reader.types name
  if let some problem := problem? then warn line problem
  let struct : OpenStruct := ⟨.empty name.string, line, problem?.isNone⟩
  match body? with
  | some text => body { reader with current? := some struct } line text
  | none => return { reader with pending? := some struct }

/-- The word that starts a struct declaration. -/
def keyword : Text := "struct".toList

/-- Reads a line that is not skipped and that no header waits for. -/
def declaration (reader : TypesReader) (line : Nat) (text : Text) : Logged TypesReader :=
  match (Text.words text).head? with
  | none => return reader
  | some first =>
    if first = keyword then
      match reader.current? with
      | some current => do
        warn line (.nested current.struct.name)
        return { reader with skipping := !text.contains '\x7d' }
      | none => reader.header line (text.drop keyword.length)
    else if first.head? = some '\x7b' then do
      warn line .strayOpening
      return reader
    else reader.body line text

/-- Reads one line. -/
def line (reader : TypesReader) (number : Nat) (line : Text) : Logged TypesReader :=
  let text := Text.trim line
  if reader.skipping then return { reader with skipping := !text.contains '\x7d' }
  else match reader.pending? with
    | none => reader.declaration number text
    | some pending => do
      let reader := { reader with pending? := none }
      match Text.dropStart? ['\x7b'] text with
      | some rest => body { reader with current? := some pending } number rest
      | none =>
        warn number (.expectedBrace pending.struct.name pending.line)
        reader.declaration number text

/-- Reads lines, the first of which has the given number. -/
def lines (reader : TypesReader) : (number : Nat) → List Text → Logged TypesReader
  | _, [] => return reader
  | number, text :: rest => do (← reader.line number text).lines (number + 1) rest

/-- The structs read. One that the section's end cuts off is not kept. -/
def finish (reader : TypesReader) : Logged Types := do
  if let some pending := reader.pending? then warn pending.line (.noBody pending.struct.name)
  if let some current := reader.current? then
    warn current.line (.unterminated current.struct.name)
  return reader.types

end TypesReader

/-- Reads a types section. -/
def Types.ofSection (text : Text) : Logged Types := do
  (← TypesReader.start.lines 1 (Text.lines text)).finish

end ShaderPipeline.Schema
