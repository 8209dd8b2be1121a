import ShaderPipeline.Proofs.Vertex.CallTraces
import ShaderPipeline.Proofs.Vertex.SectionWriting

/-! The modes of a section reader: a header waits for its brace, a group is open, or lines are
skipped, and never two of these together. So each call that a section makes on its builder is made
in its place, and the builder never warns of one that is not. -/

namespace ShaderPipeline.Vertex

/-! ### Warnings of readers -/

namespace Reader

open Builder (Blameless)

@[simp] theorem leaves_warn (line : Nat) (problem : Problem) :
    (warn line problem).Leaves Blameless :=
  Logged.leaves_warn.mpr <| Builder.blameless_of_head? <| Builder.head?_toList_append
    (Builder.head?_toList_append (Builder.head?_toList_append (by decide) _) _) _

@[simp] theorem leaves_storage (line : Nat) (type name : Text) (scalar : Scalar)
    (backing? : Option Text) : (storage line type name scalar backing?).Leaves Blameless := by
  cases backing? with
  | none => simp [storage]
  | some backing =>
    rw [storage]
    cases Scalar.ofName? backing.string <;> simp

private theorem leaves_finish (reader : Reader) : reader.finish.Leaves Blameless := by
  have ends : Blameless
      (.warning "layout: reached the end of the section while looking for '\x7d'") :=
    Builder.blameless_of_head? (by decide)
  rw [finish]
  cases packing : reader.builder.isPacking with
  | true =>
    have shut : reader.builder.discardPacked.build.Leaves Blameless := Builder.leaves_build rfl
    cases reader.pending? <;> simp [packing, ends, shut]
  | false =>
    have shut := Builder.leaves_build packing
    cases reader.pending? <;> simp [packing, ends, shut]

end Reader

/-! ### Modes -/

namespace Reader

/-- A header waits for its brace, a group is open, or lines are skipped, but never two of these. -/
structure Exclusive (reader : Reader) : Prop where
  waitingOutside : ¬ (reader.pending?.isSome = true ∧ reader.builder.isPacking = true)
  waitingReading : ¬ (reader.pending?.isSome = true ∧ reader.skipping = true)
  insideReading : ¬ (reader.builder.isPacking = true ∧ reader.skipping = true)

theorem Reads.exclusive {reader : Reader} (reads : reader.Reads) : reader.Exclusive := by
  constructor <;> simp [reads.headed, reads.reading]

private theorem exclusive_of_headed {reader : Reader} (headed : reader.pending? = none)
    (shut : reader.builder.isPacking = false) : reader.Exclusive := by
  constructor <;> simp [headed, shut]

private theorem exclusive_of_reading {reader : Reader} (reading : reader.skipping = false)
    (shut : reader.builder.isPacking = false) : reader.Exclusive := by
  constructor <;> simp [reading, shut]

end Reader

namespace Traced

open Reader

/-- From the builder, calls in their place lead to the builder of the reader that is answered, or to
the fault, and none is reported as misplaced. The reader has the property. -/
structure Orderly (builder : Builder) (Holds : Reader → Prop) (traced : Traced Reader) :
    Prop where
  inOrder : builder.InOrder traced.operations
  follows : Follows Holds traced.attempt.run.value (builder.calls traced.operations)
  blameless : traced.attempt.run.Leaves Builder.Blameless

variable {builder : Builder} {Holds Later : Reader → Prop} {reader : Reader}

private theorem orderly_pure (same : reader.builder = builder) (holds : Holds reader) :
    Orderly builder Holds (pure reader) :=
  ⟨trivial, same ▸ .ok holds, Logged.leaves_pure _⟩

theorem Orderly.imp {traced : Traced Reader} (orderly : Orderly builder Holds traced)
    (implies : ∀ reader, Holds reader → Later reader) : Orderly builder Later traced where
  inOrder := orderly.inOrder
  follows :=
    ⟨orderly.follows.same, fun reader read => implies reader (orderly.follows.holds reader read)⟩
  blameless := orderly.blameless

theorem Orderly.bind {first : Traced Reader} {next : Reader → Traced Reader}
    (orderly : Orderly builder Holds first)
    (follows : ∀ reader, Holds reader → Orderly reader.builder Later (next reader)) :
    Orderly builder Later (first >>= next) := by
  obtain ⟨inOrder, ⟨same, holds⟩, blameless⟩ := orderly
  cases read : first.attempt.run.value with
  | error fault =>
    rw [read] at same
    have ends : (first >>= next).operations = first.operations := by
      rw [operations_bind, read, callsAfter, List.append_nil]
    refine ⟨ends ▸ inOrder, ?_, ?_⟩
    · rw [ends, attempt_bind, Logged.value_run_bind, read, ← same]
      exact .error
    · rw [attempt_bind, ExceptT.run_bind, Logged.leaves_bind, read]
      exact ⟨blameless, Logged.leaves_pure _⟩
  | ok reader =>
    rw [read] at same
    have later := follows reader (holds reader read)
    have continues :
        (first >>= next).operations = first.operations ++ (next reader).operations := by
      rw [operations_bind, read, callsAfter]
    refine ⟨?_, ?_, ?_⟩
    · rw [continues]
      refine inOrder.append ?_
      rw [← same]
      exact later.inOrder
    · rw [continues, attempt_bind, Logged.value_run_bind, read, Builder.calls_append, ← same]
      exact later.follows
    · rw [attempt_bind, ExceptT.run_bind, Logged.leaves_bind, read]
      exact ⟨blameless, later.blameless⟩

private theorem orderly_call {operation : Operation} (inPlace : operation.InPlace reader.builder)
    (holds : ∀ builder : Builder, builder.isPacking = operation.leavesOpen →
      Holds { reader with builder }) :
    Orderly reader.builder Holds (call reader operation) := by
  have made : (call reader operation).attempt.run.value =
      (reader.builder.call operation).map fun builder => { reader with builder } := by
    rw [call, ExceptT.run_map, Logged.value_map, Builder.value_invoke]
  refine ⟨Builder.inOrder_singleton inPlace, ?_, ?_⟩
  · rw [made, call, Builder.calls]
    cases called : reader.builder.call operation with
    | error fault => exact .error
    | ok builder => exact .ok (holds builder (Builder.isPacking_of_call inPlace called))
  · rw [call, ExceptT.run_map, Logged.leaves_map]
    exact Builder.leaves_invoke inPlace

/-- What makes no calls and reports none as misplaced changes nothing. -/
theorem orderly_liftM_bind {logged : Logged α} {next : α → Traced Reader}
    (blameless : logged.Leaves Builder.Blameless)
    (rest : Orderly builder Holds (next logged.value)) :
    Orderly builder Holds (liftM logged >>= next) where
  inOrder := rest.inOrder
  follows := rest.follows
  blameless := by
    rw [attempt_bind, ExceptT.run_bind, Logged.leaves_bind]
    exact ⟨Logged.leaves_map.mpr blameless, rest.blameless⟩

private theorem orderly_warn_bind {line : Nat} {problem : Problem} {next : Unit → Traced Reader}
    (rest : Orderly builder Holds (next ())) :
    Orderly builder Holds (liftM (warn line problem) >>= next) :=
  orderly_liftM_bind (Reader.leaves_warn line problem) rest

/-- What is passed over with a warning. -/
theorem orderly_passed (holds : Holds reader) (line : Nat) (problem : Problem) :
    Orderly reader.builder Holds (do warn line problem; return reader) :=
  orderly_warn_bind (orderly_pure rfl holds)

/-! ### Readers -/

private theorem orderly_openGroup (rest : reader.AtRest) (name? : Option String) (line : Nat) :
    Orderly reader.builder Inside (openGroup reader name? line) := by
  have called : Orderly reader.builder Inside (call reader (.beginPacked name?)) :=
    orderly_call rest.shut fun _ opened => ⟨⟨rest.reading, rest.headed⟩, opened⟩
  exact called.bind fun next inside =>
    orderly_pure rfl ⟨⟨inside.reading, inside.headed⟩, inside.packing⟩

private theorem orderly_add (rest : reader.AtRest) (name : String) (format : Format) :
    Orderly reader.builder AtRest (call reader (.add name format)) :=
  orderly_call rest.shut fun _ shut => ⟨⟨rest.reading, rest.headed⟩, shut⟩

private theorem orderly_declare (rest : reader.AtRest) (line : Nat) (type name : Text)
    (backing? : Option Text) :
    Orderly reader.builder AtRest (declare reader line type name backing?) := by
  rw [declare]
  cases BasicType.ofName? type.string with
  | none => exact orderly_passed rest line _
  | some basic =>
    dsimp only
    split
    · exact orderly_liftM_bind (leaves_storage line type name _ backing?)
        (orderly_add rest _ _)
    · exact orderly_passed rest line _

private theorem orderly_plain (rest : reader.AtRest) (line : Nat) :
    ∀ tokens, Orderly reader.builder AtRest (plain reader line tokens)
  | [type, name] => orderly_declare rest line type name none
  | [type, name, backing] => orderly_declare rest line type name (some backing)
  | [] | [_] | _ :: _ :: _ :: _ :: _ => orderly_passed rest line _

private theorem orderly_normalized (rest : reader.AtRest) (line : Nat) :
    ∀ tokens, Orderly reader.builder AtRest (normalized reader line tokens)
  | [type, name, backing] => by
    rw [normalized]
    cases BasicType.ofName? type.string with
    | none => exact orderly_passed rest line _
    | some basic =>
      dsimp only
      split
      · cases (Scalar.ofName? backing.string).filter Scalar.isInteger with
        | none => exact orderly_passed rest line _
        | some stored =>
          dsimp only
          split
          · exact orderly_warn_bind (orderly_add rest _ _)
          · exact orderly_add rest _ _
      · exact orderly_passed rest line _
  | [] | [_] | [_, _] | _ :: _ :: _ :: _ :: _ => orderly_passed rest line _

private theorem orderly_field (inside : reader.Inside) (line : Nat) (type name width : Text) :
    Orderly reader.builder Inside (field reader line type name width) := by
  rw [field]
  cases (BasicType.ofName? type.string).filter BasicType.isPackable with
  | none => exact orderly_passed inside line _
  | some basic =>
    dsimp only
    split
    · exact orderly_passed inside line _
    · cases Text.decimal? width with
      | none => exact orderly_passed inside line _
      | some bits =>
        dsimp only
        split
        · exact orderly_passed inside line _
        · split
          · exact orderly_passed inside line _
          · exact orderly_call inside.packing fun _ packing =>
              ⟨⟨inside.reading, inside.headed⟩, packing⟩

private theorem orderly_fields (line : Nat) :
    ∀ {reader : Reader} (tokens : List Text), reader.Inside →
    Orderly reader.builder Inside (fields reader line tokens)
  | _, type :: name :: width :: rest, inside =>
    (orderly_field inside line type name width).bind fun _ => orderly_fields line rest
  | _, [], inside => orderly_pure rfl inside
  | _, [_], inside | _, [_, _], inside => orderly_passed inside line _

/-- An interrupted group is given up. -/
theorem orderly_discard (inside : reader.Inside) (skipping : Bool) :
    Orderly reader.builder Exclusive
      (do return { ← call reader .discardPacked with skipping }) := by
  have called : Orderly reader.builder AtRest (call reader .discardPacked) :=
    orderly_call inside.packing fun _ shut => ⟨⟨inside.reading, inside.headed⟩, shut⟩
  exact called.bind fun next rest => orderly_pure rfl (exclusive_of_headed rest.headed rest.shut)

private theorem orderly_close (inside : reader.Inside) :
    Orderly reader.builder Exclusive (call reader .endPacked) :=
  orderly_call inside.packing fun _ shut => exclusive_of_headed inside.headed shut

private theorem orderly_groupBody (inside : reader.Inside) (line : Nat) (body : Text) :
    Orderly reader.builder Exclusive (groupBody reader line body) := by
  rw [groupBody]
  cases Text.splitAt? '\x7d' body with
  | none =>
    dsimp only
    split
    · exact orderly_warn_bind (orderly_discard inside _)
    · exact (orderly_fields line _ inside).bind fun next inside =>
        orderly_pure rfl inside.toReads.exclusive
  | some parts =>
    have body (tokens : List Text) : Orderly reader.builder Exclusive
        (if tokens.any interrupts = true then do
          warn line (.interrupted reader.groupLine)
          return { ← call reader .discardPacked with skipping := false }
        else do call (← fields reader line tokens) .endPacked) := by
      split
      · exact orderly_warn_bind (orderly_discard inside _)
      · exact (orderly_fields line _ inside).bind fun _ => orderly_close
    dsimp only
    split
    · exact orderly_warn_bind (body _)
    · exact body _

private theorem leaves_groupName (line : Nat) (head : Text) :
    (groupName line head).Leaves Builder.Blameless := by
  rw [groupName]
  rcases Text.words head with _ | ⟨name, _ | ⟨second, rest⟩⟩ <;> simp

private theorem orderly_header (rest : reader.AtRest) (line : Nat) (after : Text) :
    Orderly reader.builder Exclusive (header reader line after) := by
  refine orderly_liftM_bind (leaves_groupName line _) ?_
  cases Text.splitAt? '\x7b' after with
  | none => exact orderly_pure rfl (exclusive_of_reading rest.reading rest.shut)
  | some parts =>
    exact (orderly_openGroup rest _ line).bind fun _ inside => orderly_groupBody inside line _

private theorem orderly_declaration (rest : reader.AtRest) (line : Nat) (text : Text) :
    Orderly reader.builder Exclusive (declaration reader line text) := by
  rw [declaration]
  split
  · exact orderly_header rest line _
  · split
    · exact orderly_pure rfl rest.toReads.exclusive
    · split
      · exact orderly_passed rest.toReads.exclusive line _
      · split
        · exact (orderly_normalized rest line _).imp fun _ rest => rest.toReads.exclusive
        · exact (orderly_plain rest line _).imp fun _ rest => rest.toReads.exclusive

private theorem orderly_statement (reads : reader.Reads) (line : Nat) (text : Text) :
    Orderly reader.builder Exclusive (statement reader line text) := by
  rw [statement]
  split
  next packing => exact orderly_groupBody ⟨reads, packing⟩ line text
  next shut => exact orderly_declaration ⟨reads, by simpa using shut⟩ line text

private theorem orderly_content (reading : reader.skipping = false) (exclusive : reader.Exclusive)
    (line : Nat) (text : Text) : Orderly reader.builder Exclusive (content reader line text) := by
  rw [content]
  cases waiting : reader.pending? with
  | none => exact orderly_statement ⟨reading, waiting⟩ line text
  | some pending =>
    have shut : reader.builder.isPacking = false := by
      simpa [waiting] using exclusive.waitingOutside
    have rest : AtRest { reader with pending? := none } := ⟨⟨reading, rfl⟩, shut⟩
    dsimp only
    split
    · exact (orderly_openGroup rest _ _).bind fun _ inside => orderly_groupBody inside line _
    · exact orderly_warn_bind (orderly_statement rest.toReads line text)

/-- A line is read from one mode to one mode. -/
theorem orderly_line (exclusive : reader.Exclusive) (number : Nat) (text : Text) :
    Orderly reader.builder Exclusive (line reader number text) := by
  rw [line]
  dsimp only
  split
  next skipping =>
    -- Behind the brace the rest of the line is read by a reader that does not skip, so no header
    -- may be left over from before.
    have headed : reader.pending? = none := by simpa [skipping] using exclusive.waitingReading
    have awake : Reads { reader with skipping := false } := ⟨rfl, headed⟩
    split
    · exact orderly_pure rfl exclusive
    · split
      · exact orderly_pure rfl awake.exclusive
      · exact orderly_content rfl awake.exclusive number _
  next reading => exact orderly_content (by simpa using reading) exclusive number _

private theorem orderly_lines :
    ∀ {reader : Reader} (number : Nat) (texts : List Text), reader.Exclusive →
    Orderly reader.builder Exclusive (lines reader number texts)
  | _, _, [], exclusive => orderly_pure rfl exclusive
  | _, number, text :: rest, exclusive =>
    (orderly_line exclusive number text).bind fun _ => orderly_lines (number + 1) rest

/-! ### The end of a section -/

private theorem operations_finish (reader : Reader) :
    (finish reader).operations =
      if reader.builder.isPacking then [.discardPacked] else [] := by
  obtain ⟨builder, pending?, groupLine, skipping⟩ := reader
  dsimp only [finish]
  cases pending? <;> cases builder.isPacking <;> cases skipping <;> rfl

private theorem inOrder_finish (reader : Reader) :
    reader.builder.InOrder (finish reader).operations := by
  rw [operations_finish]
  split
  next packing => exact Builder.inOrder_singleton packing
  next => trivial

/-! ### Sections -/

private theorem orderly_section (texts : List Text) :
    Orderly .empty Exclusive (lines Reader.start 1 texts) :=
  orderly_lines 1 texts atRest_start.toReads.exclusive

private theorem inOrder_ofSection (text : Text) :
    Builder.empty.InOrder (Traced.ofSection text).operations := by
  have read := orderly_section (Text.lines text)
  rw [Traced.ofSection, operations_bind]
  refine read.inOrder.append ?_
  rw [← read.follows.same]
  cases (lines Reader.start 1 (Text.lines text)).attempt.run.value with
  | error fault => rfl
  | ok reader => exact inOrder_finish reader

/-- The calls of a section declare its layout, or end in its fault. -/
theorem calls_ofSection (text : Text) :
    ((Builder.empty.calls (Traced.ofSection text).operations).map fun builder =>
      if builder.layout.isEmpty then none else some builder.layout) =
        (Layout.ofSection text).run.value := by
  have same := (orderly_section (Text.lines text)).follows.same
  rw [Traced.ofSection, operations_bind, Builder.calls_append, ← same, Layout.value_ofSection,
    attempt_lines]
  cases (Reader.start.lines 1 (Text.lines text)).run.value with
  | error fault => rfl
  | ok reader =>
    dsimp only [Except.map, callsAfter]
    rw [value_finish, operations_finish]
    cases reader.builder.isPacking <;> rfl

private theorem leaves_ofSection (text : Text) :
    (Layout.ofSection text).run.Leaves Builder.Blameless := by
  have read := (orderly_section (Text.lines text)).blameless
  rw [attempt_lines] at read
  rw [Layout.ofSection, ExceptT.run_bind, Logged.leaves_bind]
  refine ⟨read, ?_⟩
  cases (Reader.start.lines 1 (Text.lines text)).run.value with
  | error fault => exact Logged.leaves_pure _
  | ok reader => exact Logged.leaves_map.mpr reader.leaves_finish

end Traced

namespace Layout

/-- While a section is read, a header waits for its brace, a group is open or lines are skipped, but
never two of these. So every call on the builder is made in its place: the calls of the section are
those on record, they declare its layout or end in its fault, and none is reported as misplaced. -/
theorem ofSection_modes_exclusive (text : Text) :
    (∀ earlier later reader, Text.lines text = earlier ++ later →
      (Reader.start.lines 1 earlier).run.value = .ok reader → reader.Exclusive) ∧
    (Traced.ofSection text).attempt = ofSection text ∧
    ((Builder.empty.calls (Traced.ofSection text).operations).map fun builder =>
      if builder.layout.isEmpty then none else some builder.layout) = (ofSection text).run.value ∧
    Builder.empty.InOrder (Traced.ofSection text).operations ∧
    ∀ problem : Builder.Problem, problem.isMisplacement = true →
      .warning problem.message ∉ (ofSection text).run.log := by
  refine ⟨fun earlier later reader _ reached => ?_, Traced.attempt_ofSection text,
    Traced.calls_ofSection text, Traced.inOrder_ofSection text, fun problem misplaced warned => ?_⟩
  · rw [← Traced.attempt_lines] at reached
    exact (Traced.orderly_section earlier).follows.holds reader reached
  · exact Traced.leaves_ofSection text _ warned problem misplaced rfl

/-- The header waits for the brace of the second line, the attribute of the third interrupts the
group, and behind the brace that ends the skipping another attribute follows. -/
theorem ofSection_modes_exclusive_interrupted :
    let text := "packed g\n\x7b byte a 4\nnormalized vec4 tint byte\n\x7d vec2 uv\n".toList
    let operations : List Operation :=
      [.beginPacked (some "g"), .addPackedField "a" .byte 1 4, .discardPacked,
        .add "uv" ⟨.float, 2, false⟩]
    (∃ reader, (Reader.start.lines 1 ((Text.lines text).take 1)).run.value = .ok reader ∧
      reader.pending?.isSome = true ∧ reader.Exclusive) ∧
    (∃ reader, (Reader.start.lines 1 ((Text.lines text).take 2)).run.value = .ok reader ∧
      reader.builder.isPacking = true ∧ reader.Exclusive) ∧
    (∃ reader, (Reader.start.lines 1 ((Text.lines text).take 3)).run.value = .ok reader ∧
      reader.skipping = true ∧ reader.Exclusive) ∧
    (Traced.ofSection text).operations = operations ∧ Builder.empty.InOrder operations ∧
    .warning (Builder.Problem.unclosed "g").message ∉ (ofSection text).run.log := by
  intro text operations
  have called : (Traced.ofSection text).operations = operations := rfl
  obtain ⟨modes, -, -, inOrder, placed⟩ := ofSection_modes_exclusive text
  have exclusive (count : Nat) {reader : Reader}
      (read : (Reader.start.lines 1 ((Text.lines text).take count)).run.value = .ok reader) :
      reader.Exclusive :=
    modes _ _ reader (List.take_append_drop count (Text.lines text)).symm read
  refine ⟨⟨_, rfl, rfl, exclusive 1 rfl⟩, ⟨_, rfl, rfl, exclusive 2 rfl⟩,
    ⟨_, rfl, rfl, exclusive 3 rfl⟩, called, ?_, placed (.unclosed "g") rfl⟩
  rw [← called]
  exact inOrder

end Layout
end ShaderPipeline.Vertex
