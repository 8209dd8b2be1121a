import ShaderPipeline.Conditional.Pass
import ShaderPipeline.Defines

/-! The preprocessor for shader sources: include expansion, then the conditional pass. Its macro
table lasts from one run to the next. -/

namespace ShaderPipeline

structure Preprocessor where
  /-- The label of the text in messages. -/
  origin : String
  macros : MacroTable

namespace Preprocessor

/-- A preprocessor with the given definitions. -/
def ofDefines (defines : FeatureSet) (origin : String) : Preprocessor :=
  ⟨origin, defines.toList.foldl (fun macros entry => macros.insert entry.1 entry.2.toList) {}⟩

def define (name : String) (value : Text) (preprocessor : Preprocessor) : Preprocessor :=
  { preprocessor with macros := preprocessor.macros.insert name value }

/-- Removes a macro, and tells whether it was defined. -/
def undefine (name : String) (preprocessor : Preprocessor) : Bool × Preprocessor :=
  (preprocessor.macros.contains name,
    { preprocessor with macros := preprocessor.macros.erase name })

def isDefined (name : String) (preprocessor : Preprocessor) : Bool :=
  preprocessor.macros.contains name

def value? (name : String) (preprocessor : Preprocessor) : Option Text :=
  preprocessor.macros[name]?

/-- Carries out the conditional pass. The macro table keeps its changes even after a fault. -/
def conditionals (preprocessor : Preprocessor) (text : Text) :
    Logged (Except Fault Text × Preprocessor) := do
  let (outcome, state) ←
    (Conditional.Pass.text preprocessor.origin text).run ⟨[], preprocessor.macros⟩
  return (outcome, { preprocessor with macros := state.macros })

/-- Expands includes, then carries out the conditional pass. -/
def run (preprocessor : Preprocessor) (registry : Registry) (text : Text) :
    Logged ((Except Fault Text × Preprocessor) × Registry) := do
  let (resolved, registry) ← Include.expand text registry
  return (← preprocessor.conditionals resolved, registry)

end Preprocessor

/-- The default label of a text. -/
def defaultOrigin : String := "source"

/-- Preprocesses a text with the given definitions. -/
def preprocess (text : Text) (registry : Registry) (defines : FeatureSet) :
    Logged (Except Fault Text) := do
  let ((outcome, _), _) ← (Preprocessor.ofDefines defines defaultOrigin).run registry text
  return outcome

end ShaderPipeline
