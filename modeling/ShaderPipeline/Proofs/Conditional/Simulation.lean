import ShaderPipeline.Proofs.Conditional.Program

/-! The conditional pass, which walks over lines with a stack of gates, carries out every
well-nested program as the program is read branch by branch. -/

namespace ShaderPipeline.Conditional

/-- The lines that a text without comments hands to the pass. -/
def bare (lines : List Text) : List (Text × Text) := lines.map fun line => (line, line)

@[simp] theorem bare_nil : bare [] = [] := rfl

@[simp] theorem bare_cons (line : Text) (rest : List Text) :
    bare (line :: rest) = (line, line) :: bare rest := rfl

@[simp] theorem bare_append (first second : List Text) :
    bare (first ++ second) = bare first ++ bare second := by
  simp [bare]

@[simp] theorem length_bare (lines : List Text) : (bare lines).length = lines.length := by
  simp [bare]

namespace Pass

variable {origin : String} {number : Nat} {gates : Gates} {macros : MacroTable}

private theorem line_text (place : Place) (line : TextLine) :
    Pass.line place line.text line.text =
      keep fun macros => Macro.expand macros .all line.text := by
  rw [Pass.line, line.reads]

private theorem line_directive (place : Place) (line : DirectiveLine command) :
    Pass.line place line.text line.text =
      directive place line.text line.directive.name line.argument := by
  rw [Pass.line, line.reads]
  rfl

private theorem result_opening (opening : Opening) :
    (Pass.line ⟨origin, number⟩ opening.line opening.line).result ⟨gates, macros⟩ =
      (.ok [], ⟨(gates.live && opening.holds macros) :: gates, macros⟩) := by
  cases opening with
  | ifTrue line =>
    rw [Opening.line, line_directive, result_directive, line.asks]
    rfl
  | ifDefined line =>
    rw [Opening.line, line_directive, result_directive, line.asks]
    rfl
  | ifNotDefined line =>
    rw [Opening.line, line_directive, result_directive, line.asks]
    rfl

private theorem result_elseIf (line : DirectiveLine .elseIf) (gate : Bool) :
    (Pass.line ⟨origin, number⟩ line.text line.text).result ⟨gate :: gates, macros⟩ =
      (.ok [], ⟨(!gate && holdsIn macros line.argument) :: gates, macros⟩) := by
  rw [line_directive, result_directive, line.asks]
  rfl

private theorem result_otherwise (line : DirectiveLine .otherwise) (gate : Bool) :
    (Pass.line ⟨origin, number⟩ line.text line.text).result ⟨gate :: gates, macros⟩ =
      (.ok [], ⟨(!gate) :: gates, macros⟩) := by
  rw [line_directive, result_directive, line.asks]
  simp [Gates.alternative?]

private theorem result_endIf (line : DirectiveLine .endIf) (gate : Bool) :
    (Pass.line ⟨origin, number⟩ line.text line.text).result ⟨gate :: gates, macros⟩ =
      (.ok [], ⟨gates, macros⟩) := by
  rw [line_directive, result_directive, line.asks]
  rfl

/-- In text that is not live a statement is passed over. -/
theorem skip_statement (statement : Statement) (dead : gates.live = false) :
    (Pass.line ⟨origin, number⟩ statement.line statement.line).result ⟨gates, macros⟩ =
      (.ok [], ⟨gates, macros⟩) := by
  cases statement with
  | text line =>
    rw [Statement.line, line_text, result_keep]
    simp [dead]
  | foreign line =>
    rw [Statement.line, line_directive, result_directive, line.asks]
    simp [dead]
  | define line =>
    rw [Statement.line, line_directive, result_directive, line.asks]
    simp [dead]
  | undefine line =>
    rw [Statement.line, line_directive, result_directive, line.asks]
    simp [dead]
  | error line =>
    rw [Statement.line, line_directive, result_directive, line.asks]
    simp [dead]

end Pass

mutual

/-- In text that is not live a program leaves neither lines nor definitions, and every gate that
it opens it closes. -/
theorem Program.skip (origin : String) (number : Nat) {gates : Gates} (dead : gates.live = false)
    (macros : MacroTable) (program : Program) :
    (Pass.lines origin number (bare program.lines)).result ⟨gates, macros⟩ =
      (.ok [], ⟨gates, macros⟩) := by
  cases program with
  | nil => rfl
  | statement first rest =>
    simp only [Program.lines, bare_cons, Pass.lines]
    rw [Pass.result_bind_ok (Pass.skip_statement first dead),
      Pass.result_bind_ok (rest.skip origin (number + 1) dead macros)]
    rfl
  | conditional opening body branches rest =>
    have shut : Gates.live (false :: gates) = false := rfl
    simp only [Program.lines, bare_cons, bare_append, Pass.lines, Pass.lines_append]
    rw [Pass.result_bind_ok (Pass.result_opening opening), dead, Bool.false_and]
    simp only [bind_assoc]
    rw [Pass.result_bind_ok (body.skip origin _ shut macros),
      Pass.result_bind_ok (branches.skip origin _ dead false macros)]
    simp only [pure_bind]
    rw [Pass.result_bind_ok (rest.skip origin _ dead macros)]
    rfl

theorem Branches.skip (origin : String) (number : Nat) {gates : Gates} (dead : gates.live = false)
    (gate : Bool) (macros : MacroTable) (branches : Branches) :
    (Pass.lines origin number (bare branches.lines)).result ⟨gate :: gates, macros⟩ =
      (.ok [], ⟨gates, macros⟩) := by
  have shut (gate : Bool) : Gates.live (gate :: gates) = false := by
    simpa [Gates.live] using fun _ => dead
  cases branches with
  | endIf closing =>
    simp only [Branches.lines, bare_cons, bare_nil, Pass.lines]
    rw [Pass.result_bind_ok (Pass.result_endIf closing gate)]
    rfl
  | otherwise line body closing =>
    simp only [Branches.lines, bare_cons, bare_append, bare_nil, Pass.lines, Pass.lines_append]
    rw [Pass.result_bind_ok (Pass.result_otherwise line gate)]
    simp only [bind_assoc]
    rw [Pass.result_bind_ok (body.skip origin _ (shut _) macros)]
    simp only [pure_bind]
    rw [Pass.result_bind_ok (Pass.result_endIf closing _)]
    rfl
  | elseIf line body rest =>
    simp only [Branches.lines, bare_cons, bare_append, Pass.lines, Pass.lines_append]
    rw [Pass.result_bind_ok (Pass.result_elseIf line gate)]
    simp only [bind_assoc]
    rw [Pass.result_bind_ok (body.skip origin _ (shut _) macros),
      Pass.result_bind_ok (rest.skip origin _ dead _ macros)]
    rfl

end

/-- The answer of a reading and the macro table it leaves. -/
def Reading.result (reading : Reading α) (macros : MacroTable) : Except Fault α × MacroTable :=
  reading.run.run macros

theorem Reading.result_bind (first : Reading α) (next : α → Reading β) (macros : MacroTable) :
    (first >>= next).result macros =
      match first.result macros with
      | (.ok value, after) => (next value).result after
      | (.error fault, after) => (.error fault, after) := by
  simp only [result, ExceptT.run_bind, StateT.run_bind]
  cases first.run.run macros with
  | mk answer after => cases answer <;> rfl

/-- A run of the pass answers as a reading does and leaves its macro table, and unless it fails
it leaves the given gates. -/
structure Agrees (run : Except Fault α × State) (reading : Except Fault α × MacroTable)
    (gates : Gates) : Prop where
  answer : run.1 = reading.1
  macros : run.2.macros = reading.2
  gates : ∀ value, run.1 = .ok value → run.2.gates = gates

theorem Agrees.of_ok {value : α} {state : State} :
    Agrees (.ok value, state) (.ok value, state.macros) state.gates :=
  ⟨rfl, rfl, fun _ _ => rfl⟩

/-- Agreement is kept when agreeing steps follow. -/
theorem Agrees.bind {first : Pass α} {reading : Reading α} {next : α → Pass β}
    {continuation : α → Reading β} {state : State} {macros : MacroTable} {gates after : Gates}
    (start : Agrees (first.result state) (reading.result macros) gates)
    (follow : ∀ value macros,
      Agrees ((next value).result ⟨gates, macros⟩) ((continuation value).result macros) after) :
    Agrees ((first >>= next).result state) ((reading >>= continuation).result macros) after := by
  rw [Pass.result_bind, Reading.result_bind]
  obtain ⟨answer, table, shape⟩ := start
  cases ran : first.result state with
  | mk outcome final =>
    cases read : reading.result macros with
    | mk expected left =>
      rw [ran, read] at answer table
      rw [ran] at shape
      simp only at answer table
      subst answer table
      cases outcome with
      | ok value =>
        obtain rfl : final.gates = gates := shape value rfl
        exact follow value final.macros
      | error fault => exact ⟨rfl, rfl, by simp⟩

/-- In live text a statement is carried out as it reads. -/
theorem Statement.agrees (origin : String) (number : Nat) {gates : Gates}
    (live : gates.live = true) (macros : MacroTable) (statement : Statement) :
    Agrees ((Pass.line ⟨origin, number⟩ statement.line statement.line).result ⟨gates, macros⟩)
      ((statement.read origin number).result macros) gates := by
  cases statement with
  | text line =>
    rw [Statement.line, Pass.line_text, Pass.result_keep, live]
    exact .of_ok
  | foreign line =>
    rw [Statement.line, Pass.line_directive, Pass.result_directive, line.asks]
    simp only [live, ↓reduceIte]
    exact .of_ok
  | define line =>
    rw [Statement.line, Pass.line_directive, Pass.result_directive, line.asks]
    simp only [live, ↓reduceIte]
    exact .of_ok
  | undefine line =>
    rw [Statement.line, Pass.line_directive, Pass.result_directive, line.asks]
    simp only [live, ↓reduceIte]
    exact .of_ok
  | error line =>
    rw [Statement.line, Pass.line_directive, Pass.result_directive, line.asks]
    simp only [live, ↓reduceIte]
    exact ⟨rfl, rfl, by simp⟩

/-- A branch agrees with its reading if it does so when it is live. -/
theorem branch_agrees {origin : String} {number : Nat} {gates : Gates} {macros : MacroTable}
    {body : Program} (gate : Bool)
    (carried : gate = true →
      Agrees ((Pass.lines origin number (bare body.lines)).result ⟨gate :: gates, macros⟩)
        ((body.read origin number).result macros) (gate :: gates)) :
    Agrees ((Pass.lines origin number (bare body.lines)).result ⟨gate :: gates, macros⟩)
      ((branch gate (body.read origin number)).result macros) (gate :: gates) := by
  cases gate with
  | true => exact carried rfl
  | false =>
    rw [body.skip origin number rfl macros]
    exact .of_ok

theorem Reading.result_get_bind (next : MacroTable → Reading α) (macros : MacroTable) :
    ((get : Reading MacroTable) >>= next).result macros = (next macros).result macros := rfl

mutual

/-- In live text a program is carried out as it reads, and every gate that it opens it closes. -/
theorem Program.agrees (origin : String) (number : Nat) {gates : Gates}
    (live : gates.live = true) (macros : MacroTable) (program : Program) :
    Agrees ((Pass.lines origin number (bare program.lines)).result ⟨gates, macros⟩)
      ((program.read origin number).result macros) gates := by
  cases program with
  | nil => exact .of_ok
  | statement first rest =>
    simp only [Program.lines, bare_cons, Pass.lines, Program.read]
    apply (first.agrees origin number live macros).bind
    intro here macros
    apply (rest.agrees origin (number + 1) live macros).bind
    intro others macros
    exact .of_ok
  | conditional opening body branches rest =>
    simp only [Program.lines, bare_cons, bare_append, Pass.lines, Pass.lines_append, Program.read]
    rw [Pass.result_bind_ok (Pass.result_opening opening), live, Bool.true_and,
      Reading.result_get_bind]
    simp only [bind_assoc, pure_bind, List.nil_append, length_bare]
    apply (branch_agrees (opening.holds macros) fun held =>
      body.agrees origin _ (by simpa [Gates.live, held] using live) macros).bind
    intro first macros
    apply (branches.agrees origin _ live _ macros).bind
    intro others macros
    apply (rest.agrees origin _ live macros).bind
    intro after macros
    exact .of_ok

/-- In live text the branches after one that was live or not are carried out as they read, and
the gate of that one is closed in the end. -/
theorem Branches.agrees (origin : String) (number : Nat) {gates : Gates}
    (live : gates.live = true) (gate : Bool) (macros : MacroTable) (branches : Branches) :
    Agrees ((Pass.lines origin number (bare branches.lines)).result ⟨gate :: gates, macros⟩)
      ((branches.read origin number gate).result macros) gates := by
  cases branches with
  | endIf closing =>
    simp only [Branches.lines, bare_cons, bare_nil, Pass.lines]
    rw [Pass.result_bind_ok (Pass.result_endIf closing gate)]
    exact .of_ok
  | otherwise line body closing =>
    simp only [Branches.lines, bare_cons, bare_append, bare_nil, Pass.lines, Pass.lines_append,
      Branches.read]
    rw [Pass.result_bind_ok (Pass.result_otherwise line gate)]
    simp only [bind_assoc, pure_bind, List.nil_append]
    have shape : branch (!gate) (body.read origin (number + 1)) =
        branch (!gate) (body.read origin (number + 1)) >>= pure := by simp
    rw [shape]
    apply (branch_agrees (!gate) fun held =>
      body.agrees origin _ (by simpa [Gates.live, held] using live) macros).bind
    intro here macros
    rw [Pass.result_bind_ok (Pass.result_endIf closing _)]
    simp only [List.append_nil]
    exact .of_ok
  | elseIf line body rest =>
    simp only [Branches.lines, bare_cons, bare_append, Pass.lines, Pass.lines_append,
      Branches.read]
    rw [Pass.result_bind_ok (Pass.result_elseIf line gate), Reading.result_get_bind]
    simp only [bind_assoc, pure_bind, List.nil_append, length_bare]
    apply (branch_agrees (!gate && holdsIn macros line.argument) fun held =>
      body.agrees origin _ (by simpa [Gates.live, held] using live) macros).bind
    intro here macros
    apply (rest.agrees origin _ live _ macros).bind
    intro others macros
    exact .of_ok

end

/-- A program without comments and carriage returns hands its lines to the pass as they are. -/
theorem Program.linesWithCode_render (program : Program)
    (plain : Text.stripComments program.render = program.render)
    (clean : '\r' ∉ program.render) :
    Include.linesWithCode program.render = bare program.lines := by
  rw [Include.linesWithCode, plain, render, Text.lines_endLines program.single clean, List.zip,
    List.zipWith_self]
  rfl

end ShaderPipeline.Conditional

namespace ShaderPipeline.Preprocessor

open Conditional

/-- The pass over a well-nested program without comments leaves the lines, the macro table or the
fault that reading it branch by branch leaves. -/
theorem conditionals_render (preprocessor : Preprocessor) (program : Conditional.Program)
    (plain : Text.stripComments program.render = program.render)
    (clean : '\r' ∉ program.render) :
    (preprocessor.conditionals program.render).value =
      let reading := (program.read preprocessor.origin 1).result preprocessor.macros
      (reading.1.map Text.joinLines, { preprocessor with macros := reading.2 }) := by
  have live : Gates.live [] = true := rfl
  have agreed := program.agrees preprocessor.origin 1 live preprocessor.macros
  simp only [value_conditionals, Pass.result_text, program.linesWithCode_render plain clean,
    agreed.answer, agreed.macros]

/-- A dead branch with a conditional inside, and a branch that a definition makes live. -/
def nested : Conditional.Program :=
  .statement
    (.define
      ⟨"#define DEEP 1".toList, ⟨"define", "DEEP 1".toList⟩, rfl, rfl, by decide⟩) <|
  .conditional
    (.ifDefined ⟨"#ifdef FAST".toList, ⟨"ifdef", "FAST".toList⟩, rfl, rfl, by decide⟩)
    (.statement
      (.error ⟨"#error never".toList, ⟨"error", "never".toList⟩, rfl, rfl, by decide⟩) <|
      .conditional
        (.ifDefined
          ⟨"  # ifdef DEEP".toList, ⟨"ifdef", "DEEP".toList⟩, rfl, rfl, by decide⟩)
        .nil
        (.otherwise ⟨"#else".toList, ⟨"else", []⟩, rfl, rfl, by decide⟩
          (.statement (.text ⟨"x".toList, rfl, by decide⟩) .nil)
          ⟨"#endif".toList, ⟨"endif", []⟩, rfl, rfl, by decide⟩)
        .nil)
    (.elseIf ⟨"#elif DEEP".toList, ⟨"elif", "DEEP".toList⟩, rfl, rfl, by decide⟩
      (.statement (.text ⟨"y DEEP".toList, rfl, by decide⟩) .nil)
      (.otherwise ⟨"#else".toList, ⟨"else", []⟩, rfl, rfl, by decide⟩
        (.statement (.text ⟨"z".toList, rfl, by decide⟩) .nil)
        ⟨"#endif".toList, ⟨"endif", []⟩, rfl, rfl, by decide⟩))
    .nil

theorem conditionals_render_nested :
    Text.stripComments nested.render = nested.render ∧ '\r' ∉ nested.render ∧
      (conditionals ⟨"vertex", {}⟩ nested.render).value.1.toOption = some "y 1".toList := by
  have plain : Text.stripComments nested.render = nested.render := by decide +kernel
  have clean : '\r' ∉ nested.render := by decide +kernel
  refine ⟨plain, clean, ?_⟩
  rw [conditionals_render _ _ plain clean]
  decide +kernel

end ShaderPipeline.Preprocessor
