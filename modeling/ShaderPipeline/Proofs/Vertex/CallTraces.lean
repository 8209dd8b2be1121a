import ShaderPipeline.Proofs.Vertex.CallPlaces

/-! Reading a layout section with an account of its calls on the builder. The account changes
nothing: apart from it, the section is read as without it. -/

namespace ShaderPipeline.Vertex

/-- An attempt together with the calls on a builder that it makes, in order. -/
@[ext] structure Traced (α : Type) where
  attempt : Attempt α
  operations : List Operation

namespace Traced

/-- The calls that follow an answer. Behind a fault there are none. -/
def callsAfter (next : α → Traced β) : Except Fault α → List Operation
  | .ok answer => (next answer).operations
  | .error _ => []

instance : Monad Traced where
  pure answer := ⟨pure answer, []⟩
  bind first next :=
    ⟨first.attempt >>= fun answer => (next answer).attempt,
      first.operations ++ callsAfter next first.attempt.run.value⟩

theorem attempt_bind (first : Traced α) (next : α → Traced β) :
    (first >>= next).attempt = first.attempt >>= fun answer => (next answer).attempt := rfl

theorem operations_bind (first : Traced α) (next : α → Traced β) :
    (first >>= next).operations =
      first.operations ++ callsAfter next first.attempt.run.value := rfl

instance : LawfulMonad Traced :=
  LawfulMonad.mk' Traced
    (fun first => Traced.ext (bind_pure first.attempt) (by
      change first.operations ++ callsAfter _ _ = _
      cases first.attempt.run.value <;> exact List.append_nil _))
    (fun answer next => Traced.ext (pure_bind answer fun answer => (next answer).attempt) rfl)
    (fun first next last => Traced.ext (bind_assoc _ _ _) (by
      rw [operations_bind, operations_bind, operations_bind, attempt_bind,
        Logged.value_run_bind, List.append_assoc]
      cases first.attempt.run.value with
      | ok answer => rfl
      | error fault => rfl))

instance : MonadLift Logged Traced where
  monadLift logged := ⟨liftM logged, []⟩

/-- Makes a call on the reader's builder. -/
def call (reader : Reader) (operation : Operation) : Traced Reader :=
  ⟨(fun builder => { reader with builder }) <$> reader.builder.invoke operation, [operation]⟩

/-! ### A section with its calls -/

open Reader (warn storage interrupts afterPacked?)

def openGroup (reader : Reader) (name? : Option String) (line : Nat) : Traced Reader := do
  return { ← call reader (.beginPacked name?) with groupLine := line }

def declare (reader : Reader) (line : Nat) (type name : Text) (backing? : Option Text) :
    Traced Reader :=
  match BasicType.ofName? type.string with
  | none => do
    warn line (.unknownType type)
    return reader
  | some basic =>
    if Text.isIdentifier name then do
      let stored ← storage line type name basic.scalar backing?
      call reader (.add name.string ⟨stored, basic.count, false⟩)
    else do
      warn line (.invalidName name)
      return reader

def plain (reader : Reader) (line : Nat) : List Text → Traced Reader
  | [type, name] => declare reader line type name none
  | [type, name, backing] => declare reader line type name (some backing)
  | tokens => do
    warn line (.malformed tokens)
    return reader

def normalized (reader : Reader) (line : Nat) : List Text → Traced Reader
  | [type, name, backing] =>
    match BasicType.ofName? type.string with
    | none => do
      warn line (.unknownType type)
      return reader
    | some basic =>
      if Text.isIdentifier name then
        match (Scalar.ofName? backing.string).filter Scalar.isInteger with
        | none => do
          warn line (.normalizedBacking name backing)
          return reader
        | some stored => do
          if basic.scalar.isInteger then warn line (.normalizedInteger name type)
          call reader (.add name.string ⟨stored, basic.count, true⟩)
      else do
        warn line (.invalidName name)
        return reader
  | tokens => do
    warn line (.malformedNormalized tokens)
    return reader

def field (reader : Reader) (line : Nat) (type name width : Text) : Traced Reader :=
  match (BasicType.ofName? type.string).filter BasicType.isPackable with
  | none => do
    warn line (.unpackable type)
    return reader
  | some basic =>
    if !Text.isIdentifier name then do
      warn line (.invalidFieldName name)
      return reader
    else match Text.decimal? width with
      | none => do
        warn line (.invalidWidth width name)
        return reader
      | some bits =>
        if bits = 0 then do
          warn line (.zeroWidth name)
          return reader
        else
          let fits := reader.builder.availableBits?.any
            (PackedGroup.requestedBits basic.count bits ≤ ·)
          if fits && bits > basic.scalar.bits then do
            warn line (.tooWide name bits basic.scalar.bits type)
            return reader
          else call reader (.addPackedField name.string basic.scalar basic.count bits)

def fields (reader : Reader) (line : Nat) : List Text → Traced Reader
  | type :: name :: width :: rest => do
    fields (← field reader line type name width) line rest
  | [] => return reader
  | tokens => do
    warn line (.incompleteField tokens)
    return reader

def groupBody (reader : Reader) (line : Nat) (body : Text) : Traced Reader := do
  let closing? := Text.splitAt? '\x7d' body
  if let some (_, after) := closing? then
    let trailing := Text.trim after
    if !trailing.isEmpty then warn line (.trailing trailing)
  let tokens := Text.words ((closing?.map Prod.fst).getD body)
  if tokens.any interrupts then
    warn line (.interrupted reader.groupLine)
    return { ← call reader .discardPacked with skipping := closing?.isNone }
  let reader ← fields reader line tokens
  if closing?.isSome then call reader .endPacked else return reader

/-- The name in the head of a group, if it holds one. -/
def groupName (line : Nat) (head : Text) : Logged (Option String) :=
  match Text.words head with
  | [] => return none
  | [name] =>
    if Text.isIdentifier name then return some name.string
    else do
      warn line (.invalidGroupName (Text.trim head))
      return none
  | _ => do
    warn line (.invalidGroupName (Text.trim head))
    return none

def header (reader : Reader) (line : Nat) (after : Text) : Traced Reader := do
  let body? := Text.splitAt? '\x7b' after
  let name? ← groupName line ((body?.map Prod.fst).getD after)
  match body? with
  | some (_, body) => groupBody (← openGroup reader name? line) line body
  | none => return { reader with pending? := some ⟨name?, line⟩ }

def declaration (reader : Reader) (line : Nat) (text : Text) : Traced Reader :=
  match afterPacked? text with
  | some after => header reader line after
  | none =>
    match Text.words text with
    | [] => return reader
    | first :: rest =>
      if first.head? = some '\x7d' then do
        warn line .strayBrace
        return reader
      else if first = "normalized".toList then normalized reader line rest
      else plain reader line (first :: rest)

def statement (reader : Reader) (line : Nat) (text : Text) : Traced Reader :=
  if reader.builder.isPacking then groupBody reader line text
  else declaration reader line text

def content (reader : Reader) (line : Nat) (text : Text) : Traced Reader :=
  match reader.pending? with
  | none => statement reader line text
  | some pending => do
    let reader := { reader with pending? := none }
    match Text.dropStart? ['\x7b'] text with
    | some body => groupBody (← openGroup reader pending.name? pending.line) line body
    | none =>
      warn line (.expectedBrace pending.line)
      statement reader line text

def line (reader : Reader) (number : Nat) (line : Text) : Traced Reader :=
  let text := Text.trim line
  if reader.skipping then
    match Text.splitAt? '\x7d' text with
    | none => return reader
    | some (_, after) =>
      let reader := { reader with skipping := false }
      let text := Text.trim after
      if text.isEmpty then return reader else content reader number text
  else content reader number text

def lines (reader : Reader) : (number : Nat) → List Text → Traced Reader
  | _, [] => return reader
  | number, text :: rest => do lines (← line reader number text) (number + 1) rest

def finish (reader : Reader) : Traced (Option Layout) := do
  if let some pending := reader.pending? then warn pending.line .headerWithoutBody
  let mut reader := reader
  if reader.builder.isPacking then
    warn reader.groupLine .unterminated
    reader ← call reader .discardPacked
  if reader.skipping then
    Logged.warn "layout: reached the end of the section while looking for '\x7d'"
  let layout ← reader.builder.build
  return if layout.isEmpty then none else some layout

/-- Reads a layout section with its calls on record. -/
def ofSection (text : Text) : Traced (Option Layout) := do
  finish (← lines Reader.start 1 (Text.lines text))

/-! ### Without the account -/

private theorem attempt_ite (condition : Prop) [Decidable condition] (first second : Traced α) :
    (if condition then first else second).attempt =
      if condition then first.attempt else second.attempt := by
  split <;> rfl

private theorem attempt_declare (reader : Reader) (line : Nat) (type name : Text)
    (backing? : Option Text) :
    (declare reader line type name backing?).attempt =
      liftM (reader.declare line type name backing?) := by
  rw [declare, Reader.declare]
  cases BasicType.ofName? type.string with
  | none => rfl
  | some basic => cases Text.isIdentifier name <;> rfl

private theorem attempt_plain (reader : Reader) (line : Nat) :
    ∀ tokens, (plain reader line tokens).attempt = liftM (reader.plain line tokens)
  | [type, name] => attempt_declare reader line type name none
  | [type, name, backing] => attempt_declare reader line type name (some backing)
  | [] | [_] | _ :: _ :: _ :: _ :: _ => rfl

private theorem attempt_normalized (reader : Reader) (line : Nat) :
    ∀ tokens, (normalized reader line tokens).attempt = liftM (reader.normalized line tokens)
  | [type, name, backing] => by
    rw [normalized, Reader.normalized]
    cases BasicType.ofName? type.string with
    | none => rfl
    | some basic =>
      cases Text.isIdentifier name with
      | false => rfl
      | true =>
        cases (Scalar.ofName? backing.string).filter Scalar.isInteger with
        | none => rfl
        | some stored =>
          dsimp only [↓reduceIte]
          cases basic.scalar.isInteger <;> rfl
  | [] | [_] | [_, _] | _ :: _ :: _ :: _ :: _ => rfl

private theorem attempt_field (reader : Reader) (line : Nat) (type name width : Text) :
    (field reader line type name width).attempt = reader.field line type name width := by
  rw [field, Reader.field]
  cases (BasicType.ofName? type.string).filter BasicType.isPackable with
  | none => rfl
  | some basic =>
    cases Text.isIdentifier name with
    | false => rfl
    | true =>
      cases Text.decimal? width with
      | none => rfl
      | some bits =>
        dsimp only
        rw [attempt_ite, attempt_ite, attempt_ite]
        rfl

private theorem attempt_fields (line : Nat) : ∀ (reader : Reader) (tokens : List Text),
    (fields reader line tokens).attempt = reader.fields line tokens
  | reader, type :: name :: width :: rest => by
    rw [fields, Reader.fields, attempt_bind, attempt_field]
    exact bind_congr fun next => attempt_fields line next rest
  | _, [] | _, [_] | _, [_, _] => rfl

private theorem attempt_groupBody (reader : Reader) (line : Nat) (body : Text) :
    (groupBody reader line body).attempt = reader.groupBody line body := by
  rw [groupBody, Reader.groupBody]
  cases Text.splitAt? '\x7d' body with
  | none =>
    dsimp only
    rw [attempt_ite, attempt_bind (fields _ _ _), attempt_fields]
    rfl
  | some parts =>
    dsimp only
    rw [attempt_ite]
    simp only [attempt_ite, attempt_bind, attempt_fields]
    rfl

private theorem header_eq (reader : Reader) (line : Nat) (after : Text) :
    reader.header line after = do
      let body? := Text.splitAt? '\x7b' after
      let name? ← groupName line ((body?.map Prod.fst).getD after)
      match body? with
      | some (_, body) => (← reader.openGroup name? line).groupBody line body
      | none => return { reader with pending? := some ⟨name?, line⟩ } := by
  dsimp only [Reader.header]
  generalize (Option.map Prod.fst _).getD after = head
  rw [groupName]
  rcases Text.words head with _ | ⟨name, _ | ⟨second, rest⟩⟩
  · rfl
  · dsimp only
    cases Text.isIdentifier name with
    | true => rfl
    | false => cases Text.splitAt? '\x7b' after <;> simp
  · cases Text.splitAt? '\x7b' after <;> simp

private theorem attempt_header (reader : Reader) (line : Nat) (after : Text) :
    (header reader line after).attempt = reader.header line after := by
  rw [header_eq]
  refine bind_congr fun name? => ?_
  cases Text.splitAt? '\x7b' after with
  | none => rfl
  | some parts => exact bind_congr fun next => attempt_groupBody next line parts.2

private theorem attempt_declaration (reader : Reader) (line : Nat) (text : Text) :
    (declaration reader line text).attempt = reader.declaration line text := by
  rw [declaration, Reader.declaration]
  cases afterPacked? text with
  | some after => exact attempt_header reader line after
  | none =>
    cases Text.words text with
    | nil => rfl
    | cons first rest =>
      dsimp only
      rw [attempt_ite, attempt_ite, attempt_normalized, attempt_plain]
      rfl

private theorem attempt_statement (reader : Reader) (line : Nat) (text : Text) :
    (statement reader line text).attempt = reader.statement line text := by
  rw [statement, Reader.statement, attempt_ite, attempt_groupBody, attempt_declaration]

private theorem attempt_content (reader : Reader) (line : Nat) (text : Text) :
    (content reader line text).attempt = reader.content line text := by
  rw [content, Reader.content]
  cases reader.pending? with
  | none => exact attempt_statement reader line text
  | some pending =>
    dsimp only
    cases Text.dropStart? ['\x7b'] text with
    | some body => exact bind_congr fun next => attempt_groupBody next line body
    | none => exact bind_congr fun _ => attempt_statement _ line text

private theorem attempt_line (reader : Reader) (number : Nat) (text : Text) :
    (line reader number text).attempt = reader.line number text := by
  rw [line, Reader.line]
  dsimp only
  rw [attempt_ite, attempt_content]
  cases Text.splitAt? '\x7d' (Text.trim text) with
  | none => rfl
  | some parts =>
    dsimp only
    rw [attempt_ite, attempt_content]
    rfl

theorem attempt_lines (reader : Reader) (number : Nat) (texts : List Text) :
    (lines reader number texts).attempt = reader.lines number texts := by
  induction texts generalizing reader number with
  | nil => rfl
  | cons text rest ih =>
    rw [lines, Reader.lines, attempt_bind, attempt_line]
    exact bind_congr fun next => ih next (number + 1)

private theorem attempt_finish : ∀ reader, (finish reader).attempt = liftM reader.finish
  | ⟨builder, none, groupLine, skipping⟩ => by
    dsimp only [finish, Reader.finish]
    cases builder.isPacking <;> cases skipping <;> rfl
  | ⟨builder, some pending, groupLine, skipping⟩ => by
    dsimp only [finish, Reader.finish]
    cases builder.isPacking <;> cases skipping <;> rfl

/-- A section is read as without the account. -/
theorem attempt_ofSection (text : Text) : (ofSection text).attempt = Layout.ofSection text := by
  rw [ofSection, Layout.ofSection, attempt_bind, attempt_lines]
  exact bind_congr fun reader => attempt_finish reader

end Traced
end ShaderPipeline.Vertex
