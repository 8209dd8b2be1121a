import ShaderPipeline.Proofs.Vertex.SectionLayouts

/-! How many groups have been opened before shows in default names only. Where every header carries
a name, a section is read alike after any number of groups, and under any line numbers. -/

namespace ShaderPipeline.Vertex

namespace Builder

/-- The builder after another number of groups. -/
def restarted (builder : Builder) (count : Nat) : Builder := { builder with groupsStarted := count }

variable (builder : Builder) (count : Nat)

private theorem add_restarted (name : String) (format : Format) :
    ((builder.restarted count).add name format).value =
      (builder.add name format).value.restarted count := by
  have packing : (builder.restarted count).isPacking = builder.isPacking := rfl
  have declared : (builder.restarted count).isDeclared name = builder.isDeclared name := rfl
  rw [add, add, packing, declared]
  split
  · rfl
  · split <;> rfl

private theorem addPackedField_restarted (name : String) (scalar : Scalar) (width bits : Nat) :
    ((builder.restarted count).addPackedField name scalar width bits).run.value =
      (builder.addPackedField name scalar width bits).run.value.map (·.restarted count) := by
  have group : (builder.restarted count).group? = builder.group? := rfl
  have declared : (builder.restarted count).isDeclared name = builder.isDeclared name := rfl
  rw [value_addPackedField, value_addPackedField, group, declared]
  split
  · rfl
  · cases builder.group? with
    | none => rfl
    | some group =>
      dsimp only
      split
      · rfl
      · cases (group.push name scalar width bits).run.value <;> rfl

private theorem endPacked_restarted :
    (builder.restarted count).step .endPacked = (builder.step .endPacked).restarted count := by
  have group : (builder.restarted count).group? = builder.group? := rfl
  rw [step, step, endPacked, endPacked, group]
  cases builder.group? with
  | none => rfl
  | some group =>
    dsimp only
    split <;> rfl

/-- A group with a name is opened alike. -/
theorem beginPacked_restarted (name : String) :
    ((builder.restarted count).beginPacked (some name)).value =
      (builder.beginPacked (some name)).value.restarted (count + 1) := by
  rw [value_beginPacked, value_beginPacked]
  rfl

private theorem group?_add (name : String) (format : Format) :
    (builder.add name format).value.group? = builder.group? := by
  rw [add]
  split
  · rfl
  · split <;> rfl

/-- A field leaves the open group open, and changes nothing else. -/
theorem of_addPackedField {name : String} {scalar : Scalar} {width bits : Nat} {next : Builder}
    (done : (builder.addPackedField name scalar width bits).run.value = .ok next) :
    next.isPacking = builder.isPacking ∧ next = { builder with group? := next.group? } := by
  rw [value_addPackedField] at done
  split at done
  · cases done
    exact ⟨rfl, rfl⟩
  · cases opened : builder.group? with
    | none =>
      rw [opened] at done
      cases done
      exact ⟨rfl, rfl⟩
    | some group =>
      rw [opened] at done
      dsimp only at done
      split at done
      · cases done
        exact ⟨rfl, rfl⟩
      · cases pushed : (group.push name scalar width bits).run.value with
        | error fault =>
          rw [pushed] at done
          cases done
        | ok filled =>
          rw [pushed] at done
          cases done
          exact ⟨by rw [isPacking, isPacking, opened]; rfl, rfl⟩

/-- A call that does the same after any number of groups, and opens and closes none. -/
structure Uncounted (call : Builder → Except Fault Builder) : Prop where
  restarted : ∀ builder count,
    call (builder.restarted count) = (call builder).map (·.restarted count)
  packing : ∀ builder next, call builder = .ok next → next.isPacking = builder.isPacking

/-- The call for a field of some bits. It is not made if the field is too wide for its type, but
not for the group. -/
def checkedField (name : String) (basic : BasicType) (bits : Nat) (builder : Builder) :
    Except Fault Builder :=
  if builder.availableBits?.any (PackedGroup.requestedBits basic.count bits ≤ ·) &&
      decide (bits > basic.scalar.bits) then .ok builder
  else (builder.addPackedField name basic.scalar basic.count bits).run.value

private theorem uncounted_checkedField (name : String) (basic : BasicType) (bits : Nat) :
    Uncounted (checkedField name basic bits) where
  restarted builder count := by
    have room : (builder.restarted count).availableBits? = builder.availableBits? := rfl
    rw [checkedField, checkedField, room]
    split
    · rfl
    · exact builder.addPackedField_restarted count name basic.scalar basic.count bits
  packing builder next done := by
    rw [checkedField] at done
    split at done
    · cases done
      rfl
    · exact (builder.of_addPackedField done).1

theorem Uncounted.bind {first next : Builder → Except Fault Builder} (here : Uncounted first)
    (after : Uncounted next) : Uncounted fun builder => first builder >>= next where
  restarted builder count := by
    rw [here.restarted]
    cases first builder with
    | ok middle => exact after.restarted middle count
    | error fault => rfl
  packing builder last done := by
    cases middle : first builder with
    | ok next =>
      rw [middle] at done
      exact (after.packing next last done).trans (here.packing builder next middle)
    | error fault =>
      rw [middle] at done
      cases done

end Builder

namespace Reader

/-- Reading words only makes a call on the builder, which does the same after any number of
groups. -/
def Calls (read : Reader → Nat → Except Fault Reader) : Prop :=
  ∃ call, Builder.Uncounted call ∧ ∀ reader line,
    read reader line = (call reader.builder).map fun builder => { reader with builder }

theorem Calls.bind {first next : Reader → Nat → Except Fault Reader} (here : Calls first)
    (after : Calls next) : Calls fun reader line => first reader line >>= (next · line) := by
  obtain ⟨call, uncounted, made⟩ := here
  obtain ⟨later, further, follows⟩ := after
  refine ⟨_, uncounted.bind further, fun reader line => ?_⟩
  dsimp only
  rw [made]
  cases call reader.builder with
  | ok builder => exact follows { reader with builder } line
  | error fault => rfl

/-- Reading words keeps the reader's mode. -/
theorem Calls.same_mode {read : Reader → Nat → Except Fault Reader} (calls : Calls read)
    {reader next : Reader} {line : Nat} (done : read reader line = .ok next) :
    next = { reader with builder := next.builder } ∧
      next.builder.isPacking = reader.builder.isPacking := by
  obtain ⟨call, uncounted, made⟩ := calls
  rw [made] at done
  cases called : call reader.builder with
  | error fault =>
    rw [called] at done
    cases done
  | ok builder =>
    rw [called] at done
    cases done
    exact ⟨rfl, uncounted.packing _ _ called⟩

private theorem calls_nothing : Calls fun reader _ => .ok reader := by
  refine ⟨.ok, ⟨fun _ _ => rfl, fun builder next same => ?_⟩, fun _ _ => rfl⟩
  cases same
  rfl

private theorem calls_add (name : String) (format : Format) :
    Calls fun reader _ =>
      .ok { reader with builder := (reader.builder.add name format).value } := by
  refine ⟨fun builder => .ok (builder.add name format).value,
    ⟨fun builder count => congrArg Except.ok (builder.add_restarted count name format),
      fun builder next same => ?_⟩, fun _ _ => rfl⟩
  cases same
  exact congrArg Option.isSome (builder.group?_add name format)

/-- The line stands in warnings only. -/
theorem storage_line (line other : Nat) (type name : Text) (scalar : Scalar)
    (backing? : Option Text) :
    (storage line type name scalar backing?).value =
      (storage other type name scalar backing?).value := by
  cases backing? with
  | none => rfl
  | some backing =>
    rw [storage, storage]
    cases Scalar.ofName? backing.string with
    | none => rfl
    | some stored =>
      dsimp only
      split <;> rfl

private theorem calls_declare (type name : Text) (backing? : Option Text) :
    Calls fun reader line => .ok (reader.declare line type name backing?).value := by
  unfold declare
  cases BasicType.ofName? type.string with
  | none => exact calls_nothing
  | some basic =>
    cases Text.isIdentifier name with
    | false => exact calls_nothing
    | true =>
      obtain ⟨call, uncounted, calls⟩ := calls_add name.string
        ⟨(storage 0 type name basic.scalar backing?).value, basic.count, false⟩
      refine ⟨call, uncounted, fun reader line => ?_⟩
      rw [← calls reader line, storage_line 0 line]
      rfl

private theorem calls_plain (tokens : List Text) :
    Calls fun reader line => .ok (reader.plain line tokens).value := by
  unfold plain
  split
  next type name => exact calls_declare type name none
  next type name backing => exact calls_declare type name (some backing)
  next => exact calls_nothing

private theorem calls_normalized (tokens : List Text) :
    Calls fun reader line => .ok (reader.normalized line tokens).value := by
  unfold normalized
  split
  next type name backing =>
    cases BasicType.ofName? type.string with
    | none => exact calls_nothing
    | some basic =>
      cases Text.isIdentifier name with
      | false => exact calls_nothing
      | true =>
        cases (Scalar.ofName? backing.string).filter Scalar.isInteger with
        | none => exact calls_nothing
        | some scalar =>
          dsimp only [↓reduceIte]
          cases basic.scalar.isInteger <;> exact calls_add name.string ⟨scalar, basic.count, true⟩
  next => exact calls_nothing

theorem calls_unpacked (tokens : List Text) :
    Calls fun reader line => .ok (reader.unpacked line tokens) := by
  cases tokens with
  | nil => exact calls_nothing
  | cons first rest =>
    unfold unpacked
    by_cases stray : first.head? = some '\x7d'
    · simp only [stray, ↓reduceIte]
      exact calls_nothing
    · by_cases normal : first = "normalized".toList
      · simp only [normal, ↓reduceIte]
        exact calls_normalized rest
      · simp only [stray, normal, ↓reduceIte]
        exact calls_plain (first :: rest)

private theorem calls_field (type name width : Text) :
    Calls fun reader line => (reader.field line type name width).run.value := by
  unfold field
  cases (BasicType.ofName? type.string).filter BasicType.isPackable with
  | none => exact calls_nothing
  | some basic =>
    cases Text.isIdentifier name with
    | false => exact calls_nothing
    | true =>
      cases Text.decimal? width with
      | none => exact calls_nothing
      | some bits =>
        by_cases zero : bits = 0
        · subst zero
          exact calls_nothing
        · simp only [Bool.not_true, Bool.false_eq_true, ↓reduceIte, zero]
          refine ⟨Builder.checkedField name.string basic bits,
            Builder.uncounted_checkedField name.string basic bits, fun reader line => ?_⟩
          dsimp only
          rw [Logged.value_run_ite, Builder.checkedField]
          split
          · rfl
          · rw [Logged.value_run_bind]
            cases (reader.builder.addPackedField _ _ _ _).run.value <;> rfl

theorem calls_fields : ∀ tokens : List Text,
    Calls fun reader line => (reader.fields line tokens).run.value
  | type :: name :: width :: rest => by
    have read (reader : Reader) (line : Nat) :
        (reader.fields line (type :: name :: width :: rest)).run.value =
          (reader.field line type name width).run.value >>= fun next =>
            (next.fields line rest).run.value := by
      rw [fields, Logged.value_run_bind]
      cases (reader.field line type name width).run.value <;> rfl
    simpa only [read] using (calls_field type name width).bind (calls_fields rest)
  | [] | [_] | [_, _] => calls_nothing

/-! ### Readers that are alike -/

/-- Readers that differ in the number of groups and in the numbers of lines at most. A header that
waits for its brace has a name. -/
structure Alike (first second : Reader) : Prop where
  builder : ∃ count, second.builder = first.builder.restarted count
  pending : Option.Rel (fun one other : Pending => one.name?.isSome ∧ other.name? = one.name?)
    first.pending? second.pending?
  skipping : second.skipping = first.skipping

/-- The same fault, or readers that are alike. -/
inductive AlikeOutcomes : Except Fault Reader → Except Fault Reader → Prop
  | ok {first second : Reader} (alike : Alike first second) : AlikeOutcomes (.ok first) (.ok second)
  | error (fault : Fault) : AlikeOutcomes (.error fault) (.error fault)

theorem AlikeOutcomes.map {first second : Except Fault Reader}
    (outcomes : AlikeOutcomes first second) {change : Reader → Reader}
    (keeps : ∀ {first second}, Alike first second → Alike (change first) (change second)) :
    AlikeOutcomes (first.map change) (second.map change) := by
  cases outcomes with
  | ok alike => exact .ok (keeps alike)
  | error fault => exact .error fault

theorem AlikeOutcomes.bind {first second : Attempt Reader} {next after : Reader → Attempt Reader}
    (outcomes : AlikeOutcomes first.run.value second.run.value)
    (follows : ∀ {one other}, Alike one other → first.run.value = .ok one →
      AlikeOutcomes (next one).run.value (after other).run.value) :
    AlikeOutcomes (first >>= next).run.value (second >>= after).run.value := by
  rw [Logged.value_run_bind, Logged.value_run_bind]
  generalize first.run.value = read, second.run.value = other at outcomes follows ⊢
  cases outcomes with
  | ok alike => exact follows alike rfl
  | error fault => exact .error fault

/-- What follows the word `packed` on a line that is read as the header of a group. -/
def header? (reader : Reader) (line : Text) : Option Text :=
  if reader.builder.isPacking then none
  else if reader.skipping then
    (Text.splitAt? '\x7d' (Text.trim line)).bind fun parts => afterPacked? (Text.trim parts.2)
  else afterPacked? (Text.trim line)

/-- The name in a header, given what follows its first word. -/
def headerName? (after : Text) : Option String :=
  groupName? (((Text.splitAt? '\x7b' after).map Prod.fst).getD after)

/-- Every header that the reader comes to has a valid name. -/
def NamesGroups (reader : Reader) : (number : Nat) → List Text → Prop
  | _, [] => True
  | number, line :: rest =>
    (∀ after ∈ reader.header? line, (headerName? after).isSome) ∧
      ∀ next, (reader.line number line).run.value = .ok next → next.NamesGroups (number + 1) rest

/-- What follows the word `packed` where a line begins with it, or what stands behind the line's
first closing brace does. -/
def headers (line : Text) : List Text :=
  (afterPacked? (Text.trim line)).toList ++
    ((Text.splitAt? '\x7d' (Text.trim line)).bind fun parts =>
      afterPacked? (Text.trim parts.2)).toList

private theorem mem_headers {reader : Reader} {line after : Text}
    (read : after ∈ reader.header? line) :
    after ∈ headers line := by
  rw [header?] at read
  split at read
  · cases read
  · split at read
    · exact List.mem_append_right _ (Option.mem_toList.mpr read)
    · exact List.mem_append_left _ (Option.mem_toList.mpr read)

/-- A text names its groups from every reader on if all headers that can be read in it do. -/
theorem namesGroups_of_headers {reader : Reader} {number : Nat} {texts : List Text}
    (named : ∀ line ∈ texts, ∀ after ∈ headers line, (headerName? after).isSome) :
    reader.NamesGroups number texts := by
  induction texts generalizing reader number with
  | nil => trivial
  | cons line rest ih =>
    obtain ⟨own, more⟩ := List.forall_mem_cons.mp named
    exact ⟨fun after member => own after (mem_headers member), fun next _ => ih more⟩

theorem Calls.alike {read : Reader → Nat → Except Fault Reader} (calls : Calls read)
    {first second : Reader} (alike : Alike first second) (number other : Nat) :
    AlikeOutcomes (read first number) (read second other) := by
  obtain ⟨call, uncounted, made⟩ := calls
  obtain ⟨count, same⟩ := alike.builder
  rw [made, made, same, uncounted.restarted]
  cases call first.builder with
  | ok builder => exact .ok ⟨⟨count, rfl⟩, alike.pending, alike.skipping⟩
  | error fault => exact .error fault

namespace Alike

variable {first second : Reader} (alike : Alike first second)
include alike

theorem isPacking : second.builder.isPacking = first.builder.isPacking := by
  obtain ⟨count, same⟩ := alike.builder
  rw [same]
  rfl

theorem discard (skips : Bool) :
    Alike { first with builder := first.builder.discardPacked, skipping := skips }
      { second with builder := second.builder.discardPacked, skipping := skips } := by
  obtain ⟨count, same⟩ := alike.builder
  exact ⟨⟨count, by rw [same]; rfl⟩, alike.pending, rfl⟩

theorem close :
    Alike { first with builder := first.builder.step .endPacked }
      { second with builder := second.builder.step .endPacked } := by
  obtain ⟨count, same⟩ := alike.builder
  exact ⟨⟨count, by rw [same, Builder.endPacked_restarted]⟩, alike.pending, alike.skipping⟩

theorem openGroup (name : String) (line other : Nat) :
    Alike (first.openGroup (some name) line).value (second.openGroup (some name) other).value := by
  obtain ⟨count, same⟩ := alike.builder
  refine ⟨⟨count + 1, ?_⟩, alike.pending, alike.skipping⟩
  change (second.builder.beginPacked (some name)).value = _
  rw [same, Builder.beginPacked_restarted]
  rfl

theorem groupBody (line other : Nat) (body : Text) :
    AlikeOutcomes (first.groupBody line body).run.value
      (second.groupBody other body).run.value := by
  rw [value_groupBody, value_groupBody]
  dsimp only
  split
  · exact .ok (alike.discard _)
  · refine ((calls_fields _).alike alike line other).map fun read => ?_
    split
    · exact read.close
    · exact read

theorem header (line other : Nat) {after : Text} (named : (headerName? after).isSome) :
    AlikeOutcomes (first.header line after).run.value (second.header other after).run.value := by
  obtain ⟨name, same⟩ := Option.isSome_iff_exists.mp named
  rw [headerName?] at same
  rw [value_header, value_header]
  dsimp only
  rw [same]
  split
  · exact (alike.openGroup name line other).groupBody line other _
  · exact .ok ⟨alike.builder, .some ⟨rfl, rfl⟩, alike.skipping⟩

theorem declaration (line other : Nat) {text : Text}
    (named : ∀ after ∈ afterPacked? text, (headerName? after).isSome) :
    AlikeOutcomes (first.declaration line text).run.value
      (second.declaration other text).run.value := by
  rw [value_declaration, value_declaration]
  cases header : afterPacked? text with
  | some after => exact alike.header line other (named after header)
  | none => exact (calls_unpacked _).alike alike line other

theorem statement (line other : Nat) {text : Text}
    (named : first.builder.isPacking = false →
      ∀ after ∈ afterPacked? text, (headerName? after).isSome) :
    AlikeOutcomes (first.statement line text).run.value
      (second.statement other text).run.value := by
  rw [Reader.statement, Reader.statement, alike.isPacking]
  cases packing : first.builder.isPacking with
  | true => exact alike.groupBody line other text
  | false => exact alike.declaration line other (named packing)

theorem content (line other : Nat) {text : Text} (named : first.builder.isPacking = false →
      ∀ after ∈ afterPacked? text, (headerName? after).isSome) :
    AlikeOutcomes (first.content line text).run.value (second.content other text).run.value := by
  have waiting := alike.pending
  rw [value_content, value_content]
  cases here : first.pending? <;> cases there : second.pending? <;> rw [here, there] at waiting
  case none.none => exact alike.statement line other named
  case some.some pending waits =>
    have taken : Alike { first with pending? := none } { second with pending? := none } :=
      ⟨alike.builder, .none, alike.skipping⟩
    cases waiting with
    | some same =>
      obtain ⟨name, given⟩ := Option.isSome_iff_exists.mp same.1
      dsimp only
      rw [same.2, given]
      split
      · exact (taken.openGroup name _ _).groupBody line other _
      · exact taken.statement line other named
  all_goals cases waiting

/-- A line is read alike, if it is no header without a name. -/
theorem line (number other : Nat) {text : Text}
    (named : ∀ after ∈ first.header? text, (headerName? after).isSome) :
    AlikeOutcomes (first.line number text).run.value (second.line other text).run.value := by
  rw [line_eq, line_eq, alike.skipping]
  rw [header?] at named
  by_cases skips : first.skipping = true
  · rw [if_pos skips, if_pos skips, resume, resume]
    have awake : Alike { first with skipping := false } { second with skipping := false } :=
      ⟨alike.builder, alike.pending, rfl⟩
    cases cut : Text.splitAt? '\x7d' (Text.trim text) with
    | none => exact .ok alike
    | some parts =>
      dsimp only
      split
      · exact .ok awake
      · refine awake.content number other fun shut after member => named after ?_
        have closed : first.builder.isPacking = false := shut
        simpa [closed, skips, cut] using member
  · rw [if_neg skips, if_neg skips]
    refine alike.content number other fun shut after member => named after ?_
    simpa [shut, skips] using member

/-- Lines are read alike, if every header among them has a name. -/
theorem lines (number other : Nat) {texts : List Text} (named : first.NamesGroups number texts) :
    AlikeOutcomes (first.lines number texts).run.value (second.lines other texts).run.value := by
  induction texts generalizing first second number other with
  | nil => exact .ok alike
  | cons text rest ih =>
    exact .bind (alike.line number other named.1) fun alike read =>
      ih alike (number + 1) (other + 1) (named.2 _ read)

/-- The layout does not show how many groups there were. -/
theorem finish : second.finish.value = first.finish.value := by
  obtain ⟨count, same⟩ := alike.builder
  rw [value_finish, value_finish, same]
  rfl

end Alike

theorem AlikeOutcomes.finish {first second : Except Fault Reader}
    (outcomes : AlikeOutcomes first second) :
    (second.map fun reader => reader.finish.value) =
      first.map fun reader => reader.finish.value := by
  cases outcomes with
  | ok alike => exact congrArg Except.ok alike.finish
  | error fault => rfl

end Reader
end ShaderPipeline.Vertex
