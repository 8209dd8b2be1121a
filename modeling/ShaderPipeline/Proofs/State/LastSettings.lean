import Mathlib.Data.Option.Basic
import ShaderPipeline.Proofs.Logged
import ShaderPipeline.Proofs.State.Grammar

/-! What a state section sets. Each field has the value of the last line that sets it, and no other
line has a say in it. -/

namespace ShaderPipeline

/-- The line sets a field: it is the field's keyword and the arguments of a setting. -/
def Setting.WrittenOn (setting : Setting) (line : Text) : Prop :=
  ∃ keyword arguments, Text.words line = keyword :: arguments ∧
    keyword.SpellsName setting.field.keyword ∧ setting.Written arguments

/-- The line sets the field to some value. -/
def StateField.SetOn (field : StateField) (line : Text) : Prop :=
  ∃ setting : Setting, setting.field = field ∧ setting.WrittenOn line

/-- The last line of the text that sets the field. -/
def StateField.LastSetOn (field : StateField) (text line : Text) : Prop :=
  ∃ earlier later, Text.lines text = earlier ++ line :: later ∧ field.SetOn line ∧
    ∀ other ∈ later, ¬ field.SetOn other

namespace State

/-- What a field is set to. -/
def setting? (state : State) : StateField → Option Setting
  | .cull => state.cull.map .cull
  | .blend => state.blend.map .blend
  | .colorMask => state.colorMask.map .colorMask
  | .depthWrite => state.depthWrite.map .depthWrite
  | .depth => state.depth.map .depth
  | .stencilMask => state.stencilMask.map .stencilMask
  | .stencil => state.stencil.map .stencil

private theorem setting?_default (field : StateField) : default.setting? field = none := by
  cases field <;> rfl

/-- States are told apart by what their fields are set to. -/
theorem ext_setting? {first second : State}
    (same : ∀ field, first.setting? field = second.setting? field) : first = second := by
  obtain ⟨cull, blend, colorMask, depthWrite, depth, stencilMask, stencil⟩ := first
  obtain ⟨cull', blend', colorMask', depthWrite', depth', stencilMask', stencil'⟩ := second
  have inject {α : Type} {wrap : α → Setting} (apart : Function.Injective wrap)
      {one other : Option α} (equal : one.map wrap = other.map wrap) : one = other :=
    Option.map_injective apart equal
  obtain rfl : cull = cull' := inject (fun _ _ => Setting.cull.inj) (same .cull)
  obtain rfl : blend = blend' := inject (fun _ _ => Setting.blend.inj) (same .blend)
  obtain rfl : colorMask = colorMask' := inject (fun _ _ => Setting.colorMask.inj) (same .colorMask)
  obtain rfl : depthWrite = depthWrite' :=
    inject (fun _ _ => Setting.depthWrite.inj) (same .depthWrite)
  obtain rfl : depth = depth' := inject (fun _ _ => Setting.depth.inj) (same .depth)
  obtain rfl : stencilMask = stencilMask' :=
    inject (fun _ _ => Setting.stencilMask.inj) (same .stencilMask)
  obtain rfl : stencil = stencil' := inject (fun _ _ => Setting.stencil.inj) (same .stencil)
  rfl

private theorem setting?_apply (state : State) (setting : Setting) (field : StateField) :
    (state.apply setting).setting? field =
      if setting.field = field then some setting else state.setting? field := by
  cases setting <;> cases field <;> rfl

/-- The setting of a line, if it sets the field. -/
def settingOn? (field : StateField) (line : Text) : Option Setting :=
  match Line.ofText line with
  | .setting value => if value.field = field then some value else none
  | _ => none

private theorem ofText_of_words {line keyword : Text} {arguments : List Text} {setting : Setting}
    (spread : Text.words line = keyword :: arguments) :
    Line.ofText line = .setting setting ↔ ∃ field,
      StateField.ofKeyword? keyword.string = some field ∧
        Setting.ofArguments? arguments field = some setting := by
  rw [Line.ofText, spread]
  dsimp only
  cases StateField.ofKeyword? keyword.string with
  | none => simp
  | some field => cases read : Setting.ofArguments? arguments field <;> simp [read]

private theorem ofText_eq_setting_iff {line : Text} {setting : Setting} :
    Line.ofText line = .setting setting ↔ setting.WrittenOn line := by
  rw [Setting.WrittenOn]
  cases spread : Text.words line with
  | nil => simp [Line.ofText, spread]
  | cons keyword arguments =>
    rw [ofText_of_words spread]
    simp only [StateField.ofKeyword?_iff, Setting.ofArguments?_iff]
    constructor
    · rintro ⟨field, names, rfl, written⟩
      exact ⟨keyword, arguments, rfl, names, written⟩
    · rintro ⟨_, _, same, names, written⟩
      obtain ⟨rfl, rfl⟩ := List.cons.inj same
      exact ⟨setting.field, names, rfl, written⟩

private theorem settingOn?_eq_some_iff {field : StateField} {line : Text} {setting : Setting} :
    settingOn? field line = some setting ↔ setting.field = field ∧ setting.WrittenOn line := by
  rw [← ofText_eq_setting_iff, settingOn?]
  cases Line.ofText line with
  | setting value => grind
  | _ => simp

private theorem setOn_iff {field : StateField} {line : Text} :
    field.SetOn line ↔ (settingOn? field line).isSome = true := by
  rw [Option.isSome_iff_exists, StateField.SetOn]
  simp only [settingOn?_eq_some_iff]

private theorem settingOn?_eq_none_iff {field : StateField} {line : Text} :
    settingOn? field line = none ↔ ¬ field.SetOn line := by
  rw [setOn_iff, Option.not_isSome_iff_eq_none]

/-- Looking from the end of the text, the first line that sets a field is the last one. -/
theorem lastSetOn_iff {field : StateField} {text line : Text} :
    field.LastSetOn text line ↔
      (Text.lines text).reverse.find? (fun line => (settingOn? field line).isSome) = some line := by
  have silent (other : Text) : ¬ field.SetOn other ↔ (!(settingOn? field other).isSome) = true := by
    rw [setOn_iff, Bool.not_eq_true, Bool.not_eq_true']
  rw [List.find?_eq_some_iff_append, StateField.LastSetOn]
  constructor
  · rintro ⟨earlier, later, split, sets, others⟩
    refine ⟨setOn_iff.mp sets, later.reverse, earlier.reverse, by simp [split], ?_⟩
    intro other member
    exact (silent other).mp (others other (List.mem_reverse.mp member))
  · rintro ⟨sets, later, earlier, split, others⟩
    refine ⟨earlier.reverse, later.reverse, ?_, setOn_iff.mpr sets, ?_⟩
    · rw [← List.reverse_reverse (Text.lines text), split]
      simp
    · intro other member
      exact (silent other).mpr (others other (List.mem_reverse.mp member))

/-- A line changes the field that it sets, and no other. -/
theorem setting?_applyLine (state : State) (number : Nat) (line : Text) (field : StateField) :
    (state.applyLine number line).value.setting? field =
      (settingOn? field line).or (state.setting? field) := by
  rw [applyLine, settingOn?]
  cases Line.ofText line with
  | setting value =>
    rw [Logged.value_pure, setting?_apply]
    dsimp only
    split <;> rfl
  | _ => rfl

/-- After all lines a field has what the last line that sets it says. -/
theorem setting?_applyLines (state : State) (number : Nat) (lines : List Text)
    (field : StateField) :
    (state.applyLines number lines).value.setting? field =
      (lines.reverse.findSome? (settingOn? field)).or (state.setting? field) := by
  induction lines generalizing state number with
  | nil => rfl
  | cons line rest ih =>
    rw [applyLines, Logged.value_bind, ih, setting?_applyLine, List.reverse_cons,
      List.findSome?_append, List.findSome?_singleton, Option.or_assoc]

private theorem setting?_ofSection (text : Text) (field : StateField) :
    (ofSection text).value.setting? field =
      (Text.lines text).reverse.findSome? (settingOn? field) := by
  rw [ofSection, setting?_applyLines, setting?_default, Option.or_none]

private theorem setting?_eq_some_iff {text : Text} {field : StateField} {setting : Setting} :
    (ofSection text).value.setting? field = some setting ↔
      ∃ line, field.LastSetOn text line ∧ setting.field = field ∧ setting.WrittenOn line := by
  rw [setting?_ofSection, List.findSome?_eq_some_iff]
  constructor
  · rintro ⟨later, line, earlier, split, sets, silent⟩
    have written := settingOn?_eq_some_iff.mp sets
    refine ⟨line, ⟨earlier.reverse, later.reverse, ?_, ⟨setting, written⟩, ?_⟩, written⟩
    · rw [← List.reverse_reverse (Text.lines text), split]
      simp
    · intro other member
      exact settingOn?_eq_none_iff.mp (silent other (List.mem_reverse.mp member))
  · rintro ⟨line, ⟨earlier, later, split, -, silent⟩, written⟩
    refine ⟨later.reverse, line, earlier.reverse, ?_, settingOn?_eq_some_iff.mpr written, ?_⟩
    · simp [split]
    · intro other member
      exact settingOn?_eq_none_iff.mpr (silent other (List.mem_reverse.mp member))

private theorem setting?_eq_none_iff {text : Text} {field : StateField} :
    (ofSection text).value.setting? field = none ↔
      ∀ line ∈ Text.lines text, ¬ field.SetOn line := by
  rw [setting?_ofSection, List.findSome?_eq_none_iff]
  simp only [List.mem_reverse, settingOn?_eq_none_iff]

/-- The last line that sets a field decides on it. -/
theorem setting?_congr {text other : Text} {field : StateField}
    (same : ∀ line, field.LastSetOn text line ↔ field.LastSetOn other line) :
    (ofSection text).value.setting? field = (ofSection other).value.setting? field := by
  apply Option.ext
  intro setting
  simp only [setting?_eq_some_iff, same]

/-- A line that does not set a field makes no difference to it. -/
theorem setting?_without {text other : Text} {field : StateField} {earlier later : List Text}
    {line : Text} (split : Text.lines text = earlier ++ line :: later)
    (without : Text.lines other = earlier ++ later) (silent : ¬ field.SetOn line) :
    (ofSection text).value.setting? field = (ofSection other).value.setting? field := by
  rw [setting?_ofSection, setting?_ofSection, split, without, List.reverse_append,
    List.reverse_append, List.reverse_cons, List.append_assoc, List.findSome?_append,
    List.findSome?_append, List.findSome?_append, List.findSome?_singleton,
    settingOn?_eq_none_iff.mpr silent, Option.none_or]

/-- Each field of the state has the value of the last line that sets it, and is not set where no
line sets it. Other lines make no difference to it, so sections with the same last lines set the same. -/
theorem ofSection_last (text : Text) :
    (∀ (field : StateField) setting, (ofSection text).value.setting? field = some setting ↔
      ∃ line, field.LastSetOn text line ∧ setting.field = field ∧ setting.WrittenOn line) ∧
    (∀ field : StateField, (ofSection text).value.setting? field = none ↔
      ∀ line ∈ Text.lines text, ¬ field.SetOn line) ∧
    (∀ (field : StateField) other earlier line later, Text.lines text = earlier ++ line :: later →
      Text.lines other = earlier ++ later → ¬ field.SetOn line →
      (ofSection text).value.setting? field = (ofSection other).value.setting? field) ∧
    ∀ other, (∀ (field : StateField) line, field.LastSetOn text line ↔ field.LastSetOn other line) →
      (ofSection text).value = (ofSection other).value := by
  refine ⟨fun _ _ => setting?_eq_some_iff, fun _ => setting?_eq_none_iff, ?_, ?_⟩
  · intro field other earlier line later split without silent
    exact setting?_without split without silent
  · intro other same
    exact ext_setting? fun field => setting?_congr (same field)

/-- Settings of two fields, the first of which is set again and then not well formed. -/
def repeatedText : Text := "cull back\nCULL front\ncull sideways\ndepth lequal".toList

/-- The same last settings in another order, beside an unknown one. -/
def reorderedText : Text := "depth lequal\nwireframe on\nCULL front".toList

theorem ofSection_last_repeated :
    let without := "cull back\nCULL front\ndepth lequal".toList
    (∀ (field : StateField) line,
      field.LastSetOn repeatedText line ↔ field.LastSetOn reorderedText line) ∧
    (ofSection repeatedText).value = (ofSection reorderedText).value ∧
    ¬ StateField.cull.SetOn "cull sideways".toList ∧
    (ofSection repeatedText).value.setting? .cull = (ofSection without).value.setting? .cull := by
  have back : Line.ofText "cull back".toList = .setting (.cull .back) := by decide +kernel
  have front : Line.ofText "CULL front".toList = .setting (.cull .front) := by decide +kernel
  have sideways : Line.ofText "cull sideways".toList = .malformed "cull".toList := by
    decide +kernel
  have depth : Line.ofText "depth lequal".toList = .setting (.depth (.enabled .lessEqual)) := by
    decide +kernel
  have unknown : Line.ofText "wireframe on".toList = .unknown "wireframe".toList := by
    decide +kernel
  have same (field : StateField) (line : Text) :
      field.LastSetOn repeatedText line ↔ field.LastSetOn reorderedText line := by
    have repeated : Text.lines repeatedText = ["cull back".toList, "CULL front".toList,
      "cull sideways".toList, "depth lequal".toList] := rfl
    have reordered : Text.lines reorderedText =
      ["depth lequal".toList, "wireframe on".toList, "CULL front".toList] := rfl
    rw [lastSetOn_iff, lastSetOn_iff, repeated, reordered]
    cases field <;> simp only [List.reverse_cons, List.reverse_nil, List.nil_append,
      List.cons_append, List.find?_cons, settingOn?, back, front, sideways, depth, unknown,
      Setting.field, reduceCtorEq, ↓reduceIte, Option.isSome_none, Option.isSome_some,
      List.find?_nil]
  have silent : ¬ StateField.cull.SetOn "cull sideways".toList :=
    settingOn?_eq_none_iff.mp (by rw [settingOn?, sideways])
  obtain ⟨-, -, drops, agrees⟩ := ofSection_last repeatedText
  exact ⟨same, agrees reorderedText same, silent,
    drops .cull _ ["cull back".toList, "CULL front".toList] "cull sideways".toList
      ["depth lequal".toList] rfl rfl silent⟩

end State
end ShaderPipeline
