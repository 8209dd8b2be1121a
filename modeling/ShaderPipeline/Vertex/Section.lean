import ShaderPipeline.Text.Lines
import ShaderPipeline.Text.Word
import ShaderPipeline.Vertex.Builder

/-! The layout section: attribute declarations, one a line, and packed groups in braces. A line
that cannot be read is warned about and skipped; a group that is interrupted is skipped to its
closing brace. Only a field that does not fit into its group ends the reading. -/

namespace ShaderPipeline.Vertex

/-- A packed header that waits for its opening brace. -/
structure Pending where
  name? : Option String
  line : Nat
  deriving DecidableEq, Repr

structure Reader where
  builder : Builder
  pending? : Option Pending
  /-- The line that opened the current group. -/
  groupLine : Nat
  /-- Everything up to the next closing brace is ignored. -/
  skipping : Bool
  deriving DecidableEq, Repr

namespace Reader

def start : Reader := ⟨.empty, none, 0, false⟩

/-- Recoverable problems of a layout section. -/
inductive Problem where
  | expectedBrace (header : Nat)
  | strayBrace
  | malformed (tokens : List Text)
  | unknownType (type : Text)
  | invalidName (name : Text)
  | unknownBacking (backing name : Text)
  | mismatchedBacking (backing type name : Text)
  | malformedNormalized (tokens : List Text)
  | normalizedBacking (name backing : Text)
  | normalizedInteger (name type : Text)
  | invalidGroupName (name : Text)
  | trailing (text : Text)
  | interrupted (header : Nat)
  | incompleteField (tokens : List Text)
  | unpackable (type : Text)
  | invalidFieldName (name : Text)
  | invalidWidth (width name : Text)
  | zeroWidth (name : Text)
  | tooWide (name : Text) (width capacity : Nat) (type : Text)
  | headerWithoutBody
  | unterminated

def Problem.message : Problem → String
  | .expectedBrace header =>
    s!"expected '\x7b' to open the packed group declared on line {header}, group dropped"
  | .strayBrace => "'\x7d' without an open packed group"
  | .malformed tokens => s!"malformed declaration '{(Text.joinWords tokens).string}'"
  | .unknownType type => s!"unknown attribute type '{type.string}'"
  | .invalidName name => s!"invalid attribute name '{name.string}'"
  | .unknownBacking backing name =>
    s!"unknown backing type '{backing.string}' for '{name.string}', ignored"
  | .mismatchedBacking backing type name =>
    s!"backing type '{backing.string}' does not match '{type.string}' for '{name.string}', ignored"
  | .malformedNormalized tokens =>
    "expected 'normalized <type> <name> <backing-type>', got " ++
      s!"'normalized {(Text.joinWords tokens).string}'"
  | .normalizedBacking name backing =>
    s!"normalized attribute '{name.string}' needs a byte, short or int backing type, " ++
      s!"got '{backing.string}'"
  | .normalizedInteger name type =>
    s!"normalized attribute '{name.string}' is read as float, not '{type.string}'"
  | .invalidGroupName name =>
    s!"invalid packed group name '{name.string}', using the default name"
  | .trailing text => s!"ignoring '{text.string}' after packed group"
  | .interrupted header =>
    s!"packed group opened on line {header} is not terminated, skipping to the next '\x7d'"
  | .incompleteField tokens => s!"incomplete packed field '{(Text.joinWords tokens).string}'"
  | .unpackable type => s!"'{type.string}' cannot be packed, expected byte, short, int or ivecN"
  | .invalidFieldName name => s!"invalid packed field name '{name.string}'"
  | .invalidWidth width name =>
    s!"invalid bit width '{width.string}' for packed field '{name.string}'"
  | .zeroWidth name => s!"packed field '{name.string}' has zero width"
  | .tooWide name width capacity type =>
    s!"packed field '{name.string}' width {width} outside 1..={capacity} for '{type.string}'"
  | .headerWithoutBody => "packed group declared at the end of the section without a body"
  | .unterminated => "packed group is not terminated, discarded"

def warn (line : Nat) (problem : Problem) : Logged Unit :=
  Logged.warn s!"layout:{line}: {problem.message}"

def openGroup (reader : Reader) (name? : Option String) (line : Nat) : Logged Reader := do
  return { reader with builder := ← reader.builder.beginPacked name?, groupLine := line }

/-- The storage of a plain attribute. A backing type counts if it is a scalar type, and an
integer type just if the declared type is one. -/
def storage (line : Nat) (type name : Text) (scalar : Scalar) :
    (backing? : Option Text) → Logged Scalar
  | none => return scalar
  | some backing =>
    match Scalar.ofName? backing.string with
    | none => do
      warn line (.unknownBacking backing name)
      return scalar
    | some stored =>
      if stored.isInteger = scalar.isInteger then return stored
      else do
        warn line (.mismatchedBacking backing type name)
        return scalar

/-- Declares a plain attribute. -/
def declare (reader : Reader) (line : Nat) (type name : Text) (backing? : Option Text) :
    Logged Reader :=
  match BasicType.ofName? type.string with
  | none => do
    warn line (.unknownType type)
    return reader
  | some basic =>
    if Text.isIdentifier name then do
      let stored ← storage line type name basic.scalar backing?
      return { reader with
        builder := ← reader.builder.add name.string ⟨stored, basic.count, false⟩ }
    else do
      warn line (.invalidName name)
      return reader

/-- Reads the words of a plain declaration. -/
def plain (reader : Reader) (line : Nat) : List Text → Logged Reader
  | [type, name] => reader.declare line type name none
  | [type, name, backing] => reader.declare line type name (some backing)
  | tokens => do
    warn line (.malformed tokens)
    return reader

/-- Reads the words after `normalized`. -/
def normalized (reader : Reader) (line : Nat) : List Text → Logged Reader
  | [type, name, backing] =>
    match BasicType.ofName? type.string with
    | none => do
      warn line (.unknownType type)
      return reader
    | some basic =>
      if Text.isIdentifier name then
        match (Scalar.ofName? backing.string).filter Scalar.isInteger with
        | none => do
          warn line (.normalizedBacking name backing)
          return reader
        | some stored => do
          if basic.scalar.isInteger then warn line (.normalizedInteger name type)
          return { reader with
            builder := ← reader.builder.add name.string ⟨stored, basic.count, true⟩ }
      else do
        warn line (.invalidName name)
        return reader
  | tokens => do
    warn line (.malformedNormalized tokens)
    return reader

/-- Reads a field of the open group. That it does not fit into the group counts before that it is
too wide for its type. -/
def field (reader : Reader) (line : Nat) (type name width : Text) : Attempt Reader :=
  match (BasicType.ofName? type.string).filter BasicType.isPackable with
  | none => do
    warn line (.unpackable type)
    return reader
  | some basic =>
    if !Text.isIdentifier name then do
      warn line (.invalidFieldName name)
      return reader
    else match Text.decimal? width with
      | none => do
        warn line (.invalidWidth width name)
        return reader
      | some bits =>
        if bits = 0 then do
          warn line (.zeroWidth name)
          return reader
        else
          let fits := reader.builder.availableBits?.any
            (PackedGroup.requestedBits basic.count bits ≤ ·)
          if fits && bits > basic.scalar.bits then do
            warn line (.tooWide name bits basic.scalar.bits type)
            return reader
          else do
            let builder ←
              reader.builder.addPackedField name.string basic.scalar basic.count bits
            return { reader with builder }

/-- Reads fields, three words each. -/
def fields (reader : Reader) (line : Nat) : List Text → Attempt Reader
  | type :: name :: width :: rest => do (← reader.field line type name width).fields line rest
  | [] => return reader
  | tokens => do
    warn line (.incompleteField tokens)
    return reader

/-- Words that cannot stand in a group: another declaration has begun. -/
def interrupts (token : Text) : Bool :=
  token == "packed".toList || token == "normalized".toList || token.contains '\x7b'

/-- Reads the open group's fields, up to its closing brace if there is one. -/
def groupBody (reader : Reader) (line : Nat) (body : Text) : Attempt Reader := do
  let closing? := Text.splitAt? '\x7d' body
  if let some (_, after) := closing? then
    let trailing := Text.trim after
    if !trailing.isEmpty then warn line (.trailing trailing)
  let tokens := Text.words ((closing?.map Prod.fst).getD body)
  if tokens.any interrupts then
    warn line (.interrupted reader.groupLine)
    return { reader with
      builder := reader.builder.discardPacked
      skipping := closing?.isNone }
  let reader ← reader.fields line tokens
  if closing?.isSome then
    let (_, builder) ← reader.builder.endPacked
    return { reader with builder }
  return reader

/-- Reads what follows the word `packed`: an optional name, and the body if its brace is on the
line. -/
def header (reader : Reader) (line : Nat) (after : Text) : Attempt Reader := do
  let body? := Text.splitAt? '\x7b' after
  let head := (body?.map Prod.fst).getD after
  let name? ← match Text.words head with
    | [] => pure none
    | [name] =>
      if Text.isIdentifier name then pure (some name.string)
      else do
        warn line (.invalidGroupName (Text.trim head))
        pure none
    | _ => do
      warn line (.invalidGroupName (Text.trim head))
      pure none
  match body? with
  | some (_, body) => (← reader.openGroup name? line).groupBody line body
  | none => return { reader with pending? := some ⟨name?, line⟩ }

/-- What follows `packed` if a line starts with that word. -/
def afterPacked? (text : Text) : Option Text :=
  (Text.dropStart? "packed".toList text).filter fun after =>
    match after with
    | [] => true
    | c :: _ => Text.isBlank c || c == '\x7b'

/-- Reads a line outside all groups. -/
def declaration (reader : Reader) (line : Nat) (text : Text) : Attempt Reader :=
  match afterPacked? text with
  | some after => reader.header line after
  | none =>
    match Text.words text with
    | [] => return reader
    | first :: rest =>
      if first.head? = some '\x7d' then do
        warn line .strayBrace
        return reader
      else if first = "normalized".toList then reader.normalized line rest
      else reader.plain line (first :: rest)

/-- Reads a line that is not skipped and that no header waits for. -/
def statement (reader : Reader) (line : Nat) (text : Text) : Attempt Reader :=
  if reader.builder.isPacking then reader.groupBody line text
  else reader.declaration line text

/-- Reads a line that is not skipped. -/
def content (reader : Reader) (line : Nat) (text : Text) : Attempt Reader :=
  match reader.pending? with
  | none => reader.statement line text
  | some pending => do
    let reader := { reader with pending? := none }
    match Text.dropStart? ['\x7b'] text with
    | some body => (← reader.openGroup pending.name? pending.line).groupBody line body
    | none =>
      warn line (.expectedBrace pending.line)
      reader.statement line text

/-- Reads one line. -/
def line (reader : Reader) (number : Nat) (line : Text) : Attempt Reader :=
  let text := Text.trim line
  if reader.skipping then
    match Text.splitAt? '\x7d' text with
    | none => return reader
    | some (_, after) =>
      let reader := { reader with skipping := false }
      let text := Text.trim after
      if text.isEmpty then return reader else reader.content number text
  else reader.content number text

/-- Reads lines, the first of which has the given number. -/
def lines (reader : Reader) : (number : Nat) → List Text → Attempt Reader
  | _, [] => return reader
  | number, text :: rest => do (← reader.line number text).lines (number + 1) rest

/-- The layout read, if it has attributes. -/
def finish (reader : Reader) : Logged (Option Layout) := do
  if let some pending := reader.pending? then warn pending.line .headerWithoutBody
  let mut builder := reader.builder
  if builder.isPacking then
    warn reader.groupLine .unterminated
    builder := builder.discardPacked
  if reader.skipping then
    Logged.warn "layout: reached the end of the section while looking for '\x7d'"
  let layout ← builder.build
  return if layout.isEmpty then none else some layout

end Reader

/-- Reads a layout section. There is no layout if no attribute was read. -/
def Layout.ofSection (text : Text) : Attempt (Option Layout) := do
  (← Reader.start.lines 1 (Text.lines text)).finish

end ShaderPipeline.Vertex
