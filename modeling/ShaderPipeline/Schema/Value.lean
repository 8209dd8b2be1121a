/-! Built-in value types of shaders: scalars, vectors and square matrices. -/

namespace ShaderPipeline.Schema

inductive Scalar where
  | float
  | int
  | uint
  | bool
  deriving DecidableEq, Repr

namespace Scalar

def name : Scalar → String
  | .float => "float"
  | .int => "int"
  | .uint => "uint"
  | .bool => "bool"

/-- What stands before `vec` in the names of vector types. -/
def vectorMark : Scalar → String
  | .float => ""
  | .int => "i"
  | .uint => "u"
  | .bool => "b"

end Scalar

/-- A type with `rows` components in each of its `columns`. Scalars and vectors have a single
column, matrices have as many columns as rows. -/
structure ValueType where
  scalar : Scalar
  rows : Nat
  columns : Nat
  deriving DecidableEq, Repr

namespace ValueType

def vector (scalar : Scalar) (rows : Nat) : ValueType := ⟨scalar, rows, 1⟩

def matrix (size : Nat) : ValueType := ⟨.float, size, size⟩

def float : ValueType := vector .float 1

def isMatrix (type : ValueType) : Bool := type.columns > 1

def name (type : ValueType) : String :=
  if type.isMatrix then "mat" ++ toString type.columns
  else if type.rows = 1 then type.scalar.name
  else type.scalar.vectorMark ++ "vec" ++ toString type.rows

/-- Every type that has a name. -/
def all : List ValueType :=
  [.float, .int, .uint, .bool].flatMap (fun scalar => [1, 2, 3, 4].map (vector scalar)) ++
    [2, 3, 4].map matrix

def ofName? (name : String) : Option ValueType := all.find? (·.name == name)

/-- Size in bytes without padding. Every scalar takes four. -/
def size (type : ValueType) : Nat := 4 * type.rows * type.columns

end ValueType

end ShaderPipeline.Schema
