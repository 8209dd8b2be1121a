import ShaderPipeline.Fault
import ShaderPipeline.Word

/-! Results with the records they leave in the log. A warning is one record and changes nothing
else; a fault is one record and ends the computation. -/

namespace ShaderPipeline

inductive Record where
  | warning (message : String)
  | failure (fault : Fault)
  deriving DecidableEq, Repr

/-- A value and the records of its computation, oldest first. -/
structure Logged (α : Type) where
  value : α
  log : List Record
  deriving Repr

namespace Logged

/-- Two logs in order. With nothing after it the first is kept as it is, so that a recursion that
only rebuilds its result on the way back takes linear time. -/
def joinLogs (first second : List Record) : List Record :=
  if second.isEmpty then first else first ++ second

@[simp] theorem joinLogs_eq_append (first second : List Record) :
    joinLogs first second = first ++ second := by
  cases second <;> simp [joinLogs]

instance : Monad Logged where
  pure value := ⟨value, []⟩
  bind first next :=
    let rest := next first.value
    ⟨rest.value, joinLogs first.log rest.log⟩

@[simp] theorem value_pure (value : α) : (pure value : Logged α).value = value := rfl

@[simp] theorem log_pure (value : α) : (pure value : Logged α).log = [] := rfl

@[simp] theorem value_bind (first : Logged α) (next : α → Logged β) :
    (first >>= next).value = (next first.value).value := rfl

@[simp] theorem log_bind (first : Logged α) (next : α → Logged β) :
    (first >>= next).log = first.log ++ (next first.value).log :=
  joinLogs_eq_append first.log (next first.value).log

@[ext] theorem ext {first second : Logged α} (value : first.value = second.value)
    (log : first.log = second.log) : first = second := by
  cases first; cases second; simp_all

instance : LawfulMonad Logged :=
  LawfulMonad.mk' Logged
    (fun x => by apply ext <;> simp [Functor.map])
    (fun x f => by apply ext <;> simp)
    (fun x f g => by apply ext <;> simp)

/-- Leaves one warning. -/
def warn (message : String) : Logged Unit := ⟨(), [.warning message]⟩

end Logged

/-- A computation that warns and may end in a fault. -/
abbrev Attempt := ExceptT Fault Logged

/-- Ends in `fault` and leaves its record. -/
def Attempt.fail (fault : Fault) : Attempt α := ExceptT.mk ⟨.error fault, [.failure fault]⟩

/-- A computation that warns and may leave 32 bits. -/
abbrev Measured := ExceptT Overflow Logged

def Measured.warn (message : String) : Measured Unit := ExceptT.lift (Logged.warn message)

end ShaderPipeline
