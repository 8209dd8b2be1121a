import ShaderPipeline.Proofs.Conditional.Results
import ShaderPipeline.Proofs.Text.Lines

/-! Well-nested texts as programs: statements, and conditionals whose branches are programs again.
A program is written one line for each statement and each directive of a conditional, and read
branch by branch, without a stack of gates. -/

namespace ShaderPipeline.Conditional

/-- A line that is no directive. -/
structure TextLine where
  text : Text
  reads : Directive.ofLine? text = none
  single : '\n' ∉ text

/-- A line that asks for `command`, in any spelling. -/
structure DirectiveLine (command : Command) where
  text : Text
  directive : Directive
  reads : Directive.ofLine? text = some directive
  asks : Command.ofName directive.name = command
  single : '\n' ∉ text

def DirectiveLine.argument (line : DirectiveLine command) : Text := line.directive.argument

/-- What stands on a line of its own, outside the frame of conditionals. -/
inductive Statement where
  | text (line : TextLine)
  /-- A directive that the pass does not know. -/
  | foreign (line : DirectiveLine .foreign)
  | define (line : DirectiveLine .define)
  | undefine (line : DirectiveLine .undefine)
  | error (line : DirectiveLine .error)

/-- The line that opens a conditional. -/
inductive Opening where
  | ifTrue (line : DirectiveLine .ifTrue)
  | ifDefined (line : DirectiveLine .ifDefined)
  | ifNotDefined (line : DirectiveLine .ifNotDefined)

mutual

inductive Program where
  | nil
  | statement (first : Statement) (rest : Program)
  /-- A first branch with its condition, the branches after it, and what follows them all. -/
  | conditional (opening : Opening) (body : Program) (branches : Branches) (rest : Program)

/-- What follows the first branch of a conditional, up to its end. -/
inductive Branches where
  | endIf (closing : DirectiveLine .endIf)
  | otherwise (line : DirectiveLine .otherwise) (body : Program)
      (closing : DirectiveLine .endIf)
  | elseIf (line : DirectiveLine .elseIf) (body : Program) (rest : Branches)

end

/-! ### Writing -/

def Statement.line : Statement → Text
  | .text line => line.text
  | .foreign line => line.text
  | .define line => line.text
  | .undefine line => line.text
  | .error line => line.text

def Opening.line : Opening → Text
  | .ifTrue line => line.text
  | .ifDefined line => line.text
  | .ifNotDefined line => line.text

mutual

def Program.lines : Program → List Text
  | .nil => []
  | .statement first rest => first.line :: rest.lines
  | .conditional opening body branches rest =>
    opening.line :: (body.lines ++ (branches.lines ++ rest.lines))

def Branches.lines : Branches → List Text
  | .endIf closing => [closing.text]
  | .otherwise line body closing => line.text :: (body.lines ++ [closing.text])
  | .elseIf line body rest => line.text :: (body.lines ++ rest.lines)

end

/-- The text of a program, every line of which ends in a newline. -/
def Program.render (program : Program) : Text := Text.endLines program.lines

/-! ### Reading -/

/-- A reading changes the macro table, and ends at an `#error` statement. -/
abbrev Reading := ExceptT Fault (StateM MacroTable)

/-- The lines of a branch, or none if it is not live. -/
def branch (live : Bool) (body : Reading (List Text)) : Reading (List Text) :=
  if live then body else return []

/-- Whether the first branch of a conditional is live. A test without a name fails. -/
def Opening.holds (macros : MacroTable) : Opening → Bool
  | .ifTrue line => holdsIn macros line.argument
  | .ifDefined line => definedIn macros line.argument == some true
  | .ifNotDefined line => definedIn macros line.argument == some false

/-- Reads a statement that stands on the line `number`. -/
def Statement.read (origin : String) (number : Nat) : Statement → Reading (List Text)
  | .text line => return [Macro.expand (← get) .all line.text]
  | .foreign line => return [line.text]
  | .define line => do
    set (defineIn (← get) line.argument)
    return []
  | .undefine line => do
    set (undefineIn (← get) line.argument)
    return []
  | .error line => throw (.errorDirective origin number line.argument.string)

mutual

/-- Reads a program whose first line has the given number. -/
def Program.read (origin : String) (number : Nat) : Program → Reading (List Text)
  | .nil => return []
  | .statement first rest => do
    let here ← first.read origin number
    return here ++ (← rest.read origin (number + 1))
  | .conditional opening body branches rest => do
    let live := opening.holds (← get)
    let first ← branch live (body.read origin (number + 1))
    let number := number + 1 + body.lines.length
    let others ← branches.read origin number live
    return first ++ (others ++ (← rest.read origin (number + branches.lines.length)))

/-- Reads the branches after one that was live or not. Only that one counts. -/
def Branches.read (origin : String) (number : Nat) (previous : Bool) :
    Branches → Reading (List Text)
  | .endIf _ => return []
  | .otherwise _ body _ => branch (!previous) (body.read origin (number + 1))
  | .elseIf line body rest => do
    let live := !previous && holdsIn (← get) line.argument
    let here ← branch live (body.read origin (number + 1))
    return here ++ (← rest.read origin (number + 1 + body.lines.length) live)

end

theorem Statement.single (statement : Statement) : '\n' ∉ statement.line := by
  cases statement with
  | text line => exact line.single
  | foreign line => exact line.single
  | define line => exact line.single
  | undefine line => exact line.single
  | error line => exact line.single

theorem Opening.single (opening : Opening) : '\n' ∉ opening.line := by
  cases opening with
  | ifTrue line => exact line.single
  | ifDefined line => exact line.single
  | ifNotDefined line => exact line.single

mutual

theorem Program.single (program : Program) : ∀ line ∈ program.lines, '\n' ∉ line := by
  cases program with
  | nil => simp [Program.lines]
  | statement first rest => simpa [Program.lines, first.single] using rest.single
  | conditional opening body branches rest =>
    simp only [Program.lines, List.mem_cons, List.mem_append]
    rintro line (rfl | member | member | member)
    · exact opening.single
    · exact body.single line member
    · exact branches.single line member
    · exact rest.single line member

theorem Branches.single (branches : Branches) : ∀ line ∈ branches.lines, '\n' ∉ line := by
  cases branches with
  | endIf closing => simp [Branches.lines, closing.single]
  | otherwise line body closing =>
    simp only [Branches.lines, List.mem_cons, List.mem_append, List.not_mem_nil, or_false]
    rintro other (rfl | member | rfl)
    · exact line.single
    · exact body.single other member
    · exact closing.single
  | elseIf line body rest =>
    simp only [Branches.lines, List.mem_cons, List.mem_append]
    rintro other (rfl | member | member)
    · exact line.single
    · exact body.single other member
    · exact rest.single other member

end

end ShaderPipeline.Conditional
