import ShaderPipeline.Proofs.Reports
import ShaderPipeline.Vertex.Section

/-! The log of a layout section. All problems of its lines are warned about but one: a field that
its packed group has no room for is reported as an error, and ends the reading. -/

namespace ShaderPipeline.Vertex

open Attempt Logged

theorem PackedGroup.reported_push (group : PackedGroup) (name : String) (scalar : Scalar)
    (count bits : Nat) : (group.push name scalar count bits).Reported := by
  rw [push]
  split
  · exact reported_fail _
  · exact reported_pure _

namespace Builder

variable (builder : Builder)

@[simp] theorem quiet_warn (problem : Problem) : (warn problem).Quiet := Logged.quiet_warn _

@[simp] theorem quiet_add (name : String) (format : Format) : (builder.add name format).Quiet := by
  simp [add]

@[simp] theorem quiet_dropUnclosed : builder.dropUnclosed.Quiet := by
  rw [dropUnclosed]
  cases builder.group? <;> simp

@[simp] theorem quiet_beginPacked (name? : Option String) :
    (builder.beginPacked name?).Quiet := by
  simp [beginPacked]

@[simp] theorem quiet_endPacked : builder.endPacked.Quiet := by
  rw [endPacked]
  cases builder.group? <;> simp

@[simp] theorem quiet_build : builder.build.Quiet := by simp [build]

private theorem reported_addPackedField (name : String) (scalar : Scalar) (count bits : Nat) :
    (builder.addPackedField name scalar count bits).Reported := by
  rw [addPackedField]
  split
  · exact reported_liftM_bind (quiet_warn _) (reported_pure _)
  · cases builder.group? with
    | none => exact reported_liftM_bind (quiet_warn _) (reported_pure _)
    | some group =>
      dsimp only
      split
      · exact reported_liftM_bind (quiet_warn _) (reported_pure _)
      · exact reported_bind (group.reported_push name scalar count bits) fun _ _ => reported_pure _

end Builder

namespace Reader

variable (reader : Reader) (line : Nat)

@[simp] theorem quiet_warn (problem : Problem) : (warn line problem).Quiet := Logged.quiet_warn _

@[simp] theorem quiet_openGroup (name? : Option String) : (reader.openGroup name? line).Quiet := by
  simp [openGroup]

@[simp] theorem quiet_storage (type name : Text) (scalar : Scalar) (backing? : Option Text) :
    (storage line type name scalar backing?).Quiet := by
  cases backing? with
  | none => simp [storage]
  | some backing =>
    rw [storage]
    cases Scalar.ofName? backing.string <;> simp

@[simp] theorem quiet_declare (type name : Text) (backing? : Option Text) :
    (reader.declare line type name backing?).Quiet := by
  rw [declare]
  cases BasicType.ofName? type.string <;> simp

@[simp] theorem quiet_plain (tokens : List Text) : (reader.plain line tokens).Quiet := by
  rw [plain.eq_def]
  split <;> simp

@[simp] theorem quiet_normalized (tokens : List Text) :
    (reader.normalized line tokens).Quiet := by
  rw [normalized.eq_def]
  split
  next type name backing =>
    cases BasicType.ofName? type.string with
    | none => simp
    | some basic => cases (Scalar.ofName? backing.string).filter Scalar.isInteger <;> simp
  next => simp

private theorem quiet_finish : reader.finish.Quiet := by
  rw [finish]
  cases reader.pending? <;> simp

/-- A line that is warned about, and passed over. -/
theorem reported_passed (problem : Problem) :
    Reported (do warn line problem; return reader) :=
  reported_liftM_bind (quiet_warn line problem) (reported_pure reader)

private theorem reported_field (type name width : Text) :
    (reader.field line type name width).Reported := by
  rw [field]
  split
  · exact reader.reported_passed line _
  · split
    · exact reader.reported_passed line _
    · split
      · exact reader.reported_passed line _
      · split
        · exact reader.reported_passed line _
        · dsimp only
          split
          · exact reader.reported_passed line _
          · exact reported_bind (reader.builder.reported_addPackedField _ _ _ _)
              fun _ _ => reported_pure _

private theorem reported_fields (tokens : List Text) : (reader.fields line tokens).Reported := by
  fun_induction fields reader line tokens with
  | case1 reader type name width rest ih =>
    exact reported_bind (reader.reported_field line type name width) fun next _ => ih next
  | case2 reader => exact reported_pure reader
  | case3 reader tokens => exact reader.reported_passed line _

private theorem reported_groupBody (body : Text) : (reader.groupBody line body).Reported := by
  rw [groupBody]
  cases Text.splitAt? '\x7d' body with
  | none =>
    dsimp only
    split
    · exact reported_liftM_bind (quiet_warn line _) (reported_pure _)
    · exact reported_bind (reader.reported_fields line _) fun _ _ => reported_pure _
  | some parts =>
    refine reported_when (quiet_warn line _) ?_
    dsimp only
    split
    · exact reported_liftM_bind (quiet_warn line _) (reported_pure _)
    · exact reported_bind (reader.reported_fields line _) fun next _ =>
        reported_liftM_bind next.builder.quiet_endPacked (reported_pure _)

private theorem reported_header (after : Text) : (reader.header line after).Reported := by
  rw [header]
  cases Text.splitAt? '\x7b' after with
  | none =>
    have waits (name? : Option String) :
        Reported (return { reader with pending? := some ⟨name?, line⟩ }) := reported_pure _
    simp only [pure_bind]
    split
    · exact waits none
    · split
      · exact waits _
      · exact reported_liftM_bind (quiet_warn _ _) (waits none)
    · exact reported_liftM_bind (quiet_warn _ _) (waits none)
  | some parts =>
    have opens (name? : Option String) :
        Reported (do (← reader.openGroup name? line).groupBody line parts.2) :=
      reported_liftM_bind (reader.quiet_openGroup line name?) (reported_groupBody _ _ _)
    simp only [pure_bind]
    split
    · exact opens none
    · split
      · exact opens _
      · exact reported_liftM_bind (quiet_warn _ _) (opens none)
    · exact reported_liftM_bind (quiet_warn _ _) (opens none)

private theorem reported_declaration (text : Text) : (reader.declaration line text).Reported := by
  rw [declaration]
  split
  · exact reader.reported_header line _
  · split
    · exact reported_pure reader
    · split
      · exact reader.reported_passed line _
      · split
        · exact reported_liftM.mpr (reader.quiet_normalized line _)
        · exact reported_liftM.mpr (reader.quiet_plain line _)

private theorem reported_statement (text : Text) : (reader.statement line text).Reported := by
  rw [statement]
  split
  · exact reader.reported_groupBody line text
  · exact reader.reported_declaration line text

private theorem reported_content (text : Text) : (reader.content line text).Reported := by
  rw [content]
  split
  · exact reader.reported_statement line text
  · dsimp only
    split
    · exact reported_liftM_bind (quiet_openGroup _ _ _) (reported_groupBody _ _ _)
    · exact reported_liftM_bind (quiet_warn _ _) (reported_statement _ _ _)

private theorem reported_line (text : Text) : (reader.line line text).Reported := by
  rw [Reader.line]
  dsimp only
  split
  · split
    · exact reported_pure reader
    · split
      · exact reported_pure _
      · exact reported_content _ _ _
  · exact reader.reported_content line _

private theorem reported_lines (texts : List Text) : (reader.lines line texts).Reported := by
  induction texts generalizing reader line with
  | nil => exact reported_pure reader
  | cons text rest ih =>
    exact reported_bind (reader.reported_line line text) fun next _ => ih next (line + 1)

end Reader

theorem Layout.reported_ofSection (text : Text) : (ofSection text).Reported :=
  reported_bind (Reader.reported_lines _ _ _) fun reader _ => reported_liftM.mpr reader.quiet_finish

end ShaderPipeline.Vertex
