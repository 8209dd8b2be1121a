import ShaderPipeline.Proofs.Text.WrittenNumbers
import ShaderPipeline.State.Section

/-! The grammar of state settings: the words of each setting, and how its arguments are written.
A line sets a field exactly where its words are a keyword and the arguments of a setting. -/

namespace ShaderPipeline

/-! ### Words -/

/-- The word spells a name, in letters of any case. -/
def Text.SpellsName (word : Text) (name : String) : Prop := word.string.toLower = name

def CullMode.word : CullMode → String
  | .none => "none"
  | .front => "front"
  | .back => "back"
  | .frontAndBack => "front_and_back"

def BlendFactor.word : BlendFactor → String
  | .zero => "zero"
  | .one => "one"
  | .srcColor => "src_color"
  | .oneMinusSrcColor => "one_minus_src_color"
  | .dstColor => "dst_color"
  | .oneMinusDstColor => "one_minus_dst_color"
  | .srcAlpha => "src_alpha"
  | .oneMinusSrcAlpha => "one_minus_src_alpha"
  | .dstAlpha => "dst_alpha"
  | .oneMinusDstAlpha => "one_minus_dst_alpha"
  | .constantColor => "constant_color"
  | .oneMinusConstantColor => "one_minus_constant_color"
  | .srcAlphaSaturate => "src_alpha_saturate"

def BlendOp.word : BlendOp → String
  | .add => "add"
  | .subtract => "subtract"
  | .reverseSubtract => "reverse_subtract"
  | .min => "min"
  | .max => "max"

def CompareFunc.word : CompareFunc → String
  | .never => "never"
  | .less => "less"
  | .equal => "equal"
  | .lessEqual => "lequal"
  | .greater => "greater"
  | .notEqual => "notequal"
  | .greaterEqual => "gequal"
  | .always => "always"

def StencilOp.word : StencilOp → String
  | .keep => "keep"
  | .zero => "zero"
  | .replace => "replace"
  | .increment => "incr"
  | .incrementWrap => "incr_wrap"
  | .decrement => "decr"
  | .decrementWrap => "decr_wrap"
  | .invert => "invert"

def StateField.keyword : StateField → String
  | .cull => "cull"
  | .blend => "blend"
  | .colorMask => "colormask"
  | .depthWrite => "depthmask"
  | .depth => "depth"
  | .stencilMask => "stencilmask"
  | .stencil => "stencil"

/-- The words of a switch that is on or off. -/
def switchWords : Bool → List String
  | true => ["on", "true", "1"]
  | false => ["off", "false", "0"]

variable {word : Text}

theorem CullMode.ofWord?_iff {mode : CullMode} :
    ofWord? word.string = some mode ↔ word.SpellsName mode.word := by
  unfold ofWord? Text.SpellsName
  cases mode <;> split <;> simp_all [CullMode.word]

theorem BlendFactor.ofWord?_iff {factor : BlendFactor} :
    ofWord? word.string = some factor ↔ word.SpellsName factor.word := by
  unfold ofWord? Text.SpellsName
  cases factor <;> split <;> simp_all [BlendFactor.word]

theorem BlendOp.ofWord?_iff {op : BlendOp} :
    ofWord? word.string = some op ↔ word.SpellsName op.word := by
  unfold ofWord? Text.SpellsName
  cases op <;> split <;> simp_all [BlendOp.word]

theorem CompareFunc.ofWord?_iff {func : CompareFunc} :
    ofWord? word.string = some func ↔ word.SpellsName func.word := by
  unfold ofWord? Text.SpellsName
  cases func <;> split <;> simp_all [CompareFunc.word]

theorem StencilOp.ofWord?_iff {op : StencilOp} :
    ofWord? word.string = some op ↔ word.SpellsName op.word := by
  unfold ofWord? Text.SpellsName
  cases op <;> split <;> simp_all [StencilOp.word]

theorem StateField.ofKeyword?_iff {field : StateField} :
    ofKeyword? word.string = some field ↔ word.SpellsName field.keyword := by
  unfold ofKeyword? Text.SpellsName
  cases field <;> split <;> simp_all [StateField.keyword]

theorem ColorMask.ofBits?_iff {bits : Nat} {mask : ColorMask} :
    ofBits? bits = some mask ↔ mask.bits = bits := by
  constructor
  · intro read
    have small : bits < 16 := by
      unfold ofBits? at read
      split at read
      · assumption
      · cases read
    have all : ∀ bits < 16, (ofBits? bits).map ColorMask.bits = some bits := by decide
    simpa [read] using all bits small
  · rintro rfl
    exact ofBits?_bits mask

namespace Setting

private theorem isOff_iff : isOff word = true ↔ word.SpellsName "off" := by
  rw [isOff, beq_iff_eq, Text.SpellsName]

private theorem switch?_iff {write : Bool} :
    switch? word = some write ↔ ∃ name ∈ switchWords write, word.SpellsName name := by
  unfold switch? Text.SpellsName
  cases write <;> split <;> simp_all [switchWords]

/-! ### Arguments -/

/-- How the arguments of a setting are written. -/
inductive Written : Setting → List Text → Prop
  | cull {mode : CullMode} {word : Text} (names : word.SpellsName mode.word) :
      Written (.cull mode) [word]
  | blendOff {word : Text} (off : word.SpellsName "off") : Written (.blend .disabled) [word]
  | blend {src dst : BlendFactor} {first second : Text} (source : first.SpellsName src.word)
      (target : second.SpellsName dst.word) :
      Written (.blend (.enabled src dst .add)) [first, second]
  | blendBy {src dst : BlendFactor} {op : BlendOp} {first second third : Text}
      (source : first.SpellsName src.word) (target : second.SpellsName dst.word)
      (names : third.SpellsName op.word) :
      Written (.blend (.enabled src dst op)) [first, second, third]
  | colorMask {mask : ColorMask} {digits : Text} (writes : digits.Hexadecimal mask.bits) :
      Written (.colorMask mask) [digits]
  | depthWrite {write : Bool} {word : Text} {name : String} (switch : name ∈ switchWords write)
      (names : word.SpellsName name) : Written (.depthWrite write) [word]
  | depthOff {word : Text} (off : word.SpellsName "off") : Written (.depth .disabled) [word]
  | depth {func : CompareFunc} {word : Text} (names : word.SpellsName func.word) :
      Written (.depth (.enabled func)) [word]
  | stencilMask {mask : Nat} {digits : Text} (writes : digits.Hexadecimal mask) :
      Written (.stencilMask mask) [digits]
  | stencilOff {word : Text} (off : word.SpellsName "off") : Written (.stencil .disabled) [word]
  | stencil {func : CompareFunc} {reference mask : Nat} {fail depthFail pass : StencilOp}
      {compare number digits first second third : Text} (names : compare.SpellsName func.word)
      (compared : number.Natural 10 reference) (masked : digits.Hexadecimal mask)
      (failed : first.SpellsName fail.word) (depthFailed : second.SpellsName depthFail.word)
      (passed : third.SpellsName pass.word) :
      Written (.stencil (.enabled func reference mask fail depthFail pass))
        [compare, number, digits, first, second, third]

variable {arguments : List Text}

/-- What takes just one argument has been given one. -/
theorem exists_argument {read : Text → Option α} {value : α}
    (done : (single? arguments).bind read = some value) :
    ∃ argument, arguments = [argument] ∧ read argument = some value := by
  match arguments, done with
  | [argument], done => exact ⟨argument, rfl, done⟩

/-- The word that turns a test off is not the word of a comparison. -/
theorem compare_ne_off {func : CompareFunc} (names : word.SpellsName func.word) :
    ¬ word.SpellsName "off" := by
  have other : ∀ func : CompareFunc, func.word ≠ "off" := by
    intro func
    cases func <;> decide
  exact fun off => other func (names.symm.trans off)

private theorem blend?_iff {blend : Blend} :
    blend? arguments = some blend ↔ Written (.blend blend) arguments := by
  constructor
  · intro read
    unfold blend? at read
    split at read
    next word =>
      split at read
      next off =>
        cases read
        exact .blendOff (isOff_iff.mp off)
      next => cases read
    next src dst =>
      simp only [Option.bind_eq_bind, Option.bind_eq_some_iff, Option.some.injEq] at read
      obtain ⟨source, first, target, second, rfl⟩ := read
      exact .blend (BlendFactor.ofWord?_iff.mp first) (BlendFactor.ofWord?_iff.mp second)
    next src dst op =>
      simp only [Option.bind_eq_bind, Option.bind_eq_some_iff, Option.some.injEq] at read
      obtain ⟨source, first, target, second, by', third, rfl⟩ := read
      exact .blendBy (BlendFactor.ofWord?_iff.mp first) (BlendFactor.ofWord?_iff.mp second)
        (BlendOp.ofWord?_iff.mp third)
    next => cases read
  · intro written
    cases written with
    | blendOff off => simp [blend?, isOff_iff.mpr off]
    | blend source target =>
      simp [blend?, BlendFactor.ofWord?_iff.mpr source, BlendFactor.ofWord?_iff.mpr target]
    | blendBy source target names =>
      simp [blend?, BlendFactor.ofWord?_iff.mpr source, BlendFactor.ofWord?_iff.mpr target,
        BlendOp.ofWord?_iff.mpr names]

private theorem depth?_iff {test : DepthTest} :
    depth? word = some test ↔ Written (.depth test) [word] := by
  rw [depth?]
  constructor
  · intro read
    split at read
    next off =>
      cases read
      exact .depthOff (isOff_iff.mp off)
    next =>
      obtain ⟨func, named, rfl⟩ := Option.map_eq_some_iff.mp read
      exact .depth (CompareFunc.ofWord?_iff.mp named)
  · intro written
    cases written with
    | depthOff off => rw [if_pos (isOff_iff.mpr off)]
    | depth names =>
      rw [if_neg fun off => compare_ne_off names (isOff_iff.mp off),
        CompareFunc.ofWord?_iff.mpr names]
      rfl

private theorem stencil?_iff {test : StencilTest} :
    stencil? arguments = some test ↔ Written (.stencil test) arguments := by
  constructor
  · intro read
    unfold stencil? at read
    split at read
    next word =>
      split at read
      next off =>
        cases read
        exact .stencilOff (isOff_iff.mp off)
      next => cases read
    next func reference mask fail depthFail pass =>
      simp only [Option.bind_eq_bind, Option.bind_eq_some_iff, Option.some.injEq] at read
      obtain ⟨compare, named, number, decimal, digits, hexadecimal, read⟩ := read
      obtain ⟨first, failed, second, depthFailed, third, passed, rfl⟩ := read
      exact .stencil (CompareFunc.ofWord?_iff.mp named) (Text.decimal?_eq_some_iff.mp decimal)
        (Text.hexadecimal?_eq_some_iff.mp hexadecimal) (StencilOp.ofWord?_iff.mp failed)
        (StencilOp.ofWord?_iff.mp depthFailed) (StencilOp.ofWord?_iff.mp passed)
    next => cases read
  · intro written
    cases written with
    | stencilOff off => simp [stencil?, isOff_iff.mpr off]
    | stencil names compared masked failed depthFailed passed =>
      simp [stencil?, CompareFunc.ofWord?_iff.mpr names, Text.decimal?_eq_some_iff.mpr compared,
        Text.hexadecimal?_eq_some_iff.mpr masked, StencilOp.ofWord?_iff.mpr failed,
        StencilOp.ofWord?_iff.mpr depthFailed, StencilOp.ofWord?_iff.mpr passed]

/-- Exactly the arguments that a field's grammar writes are read, as the setting they write. -/
theorem ofArguments?_iff {field : StateField} {setting : Setting} :
    ofArguments? arguments field = some setting ↔
      setting.field = field ∧ setting.Written arguments := by
  constructor
  · intro read
    cases field with
    | blend =>
      obtain ⟨blend, here, rfl⟩ := Option.map_eq_some_iff.mp read
      exact ⟨rfl, blend?_iff.mp here⟩
    | stencil =>
      obtain ⟨test, here, rfl⟩ := Option.map_eq_some_iff.mp read
      exact ⟨rfl, stencil?_iff.mp here⟩
    | cull =>
      obtain ⟨word, rfl, read⟩ := exists_argument read
      obtain ⟨mode, named, same⟩ := Option.bind_eq_some_iff.mp read
      cases same
      exact ⟨rfl, .cull (CullMode.ofWord?_iff.mp named)⟩
    | colorMask =>
      obtain ⟨digits, rfl, read⟩ := exists_argument read
      obtain ⟨bits, number, read⟩ := Option.bind_eq_some_iff.mp read
      obtain ⟨mask, inside, same⟩ := Option.bind_eq_some_iff.mp read
      cases same
      obtain rfl := ColorMask.ofBits?_iff.mp inside
      exact ⟨rfl, .colorMask (Text.hexadecimal?_eq_some_iff.mp number)⟩
    | depthWrite =>
      obtain ⟨word, rfl, read⟩ := exists_argument read
      obtain ⟨write, switched, same⟩ := Option.bind_eq_some_iff.mp read
      cases same
      obtain ⟨name, switch, names⟩ := switch?_iff.mp switched
      exact ⟨rfl, .depthWrite switch names⟩
    | depth =>
      obtain ⟨word, rfl, read⟩ := exists_argument read
      obtain ⟨test, tested, same⟩ := Option.bind_eq_some_iff.mp read
      cases same
      exact ⟨rfl, depth?_iff.mp tested⟩
    | stencilMask =>
      obtain ⟨digits, rfl, read⟩ := exists_argument read
      obtain ⟨mask, number, same⟩ := Option.bind_eq_some_iff.mp read
      cases same
      exact ⟨rfl, .stencilMask (Text.hexadecimal?_eq_some_iff.mp number)⟩
  · rintro ⟨rfl, written⟩
    cases setting with
    | blend blend => simp [ofArguments?, field, blend?_iff.mpr written]
    | stencil test => simp [ofArguments?, field, stencil?_iff.mpr written]
    | cull mode =>
      cases written with
      | cull names => simp [ofArguments?, field, single?, CullMode.ofWord?_iff.mpr names]
    | colorMask mask =>
      cases written with
      | colorMask writes =>
        simp [ofArguments?, field, single?, Text.hexadecimal?_eq_some_iff.mpr writes,
          ColorMask.ofBits?_bits]
    | depthWrite write =>
      cases written with
      | depthWrite switch names =>
        simp [ofArguments?, field, single?, switch?_iff.mpr ⟨_, switch, names⟩]
    | depth test =>
      cases written with
      | depthOff off => simp [ofArguments?, field, single?, depth?_iff.mpr (.depthOff off)]
      | depth names => simp [ofArguments?, field, single?, depth?_iff.mpr (.depth names)]
    | stencilMask mask =>
      cases written with
      | stencilMask writes =>
        simp [ofArguments?, field, single?, Text.hexadecimal?_eq_some_iff.mpr writes]

end Setting
end ShaderPipeline
