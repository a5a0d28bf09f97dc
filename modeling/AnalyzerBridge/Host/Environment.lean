/-
Environment variables.
-/
import AnalyzerBridge.Bytes

namespace AnalyzerBridge.Host

/-- The variables that are set, with their values. -/
structure Environment where
  /-- Names and values; the first of a name counts. -/
  bindings : List (Bytes × Bytes) := []
  deriving DecidableEq, Repr

namespace Environment

/-- The value of a variable, if it is set. -/
def get? (env : Environment) (name : Bytes) : Option Bytes := env.bindings.lookup name

/-- The value of a variable that is set and not empty. -/
def nonempty? (env : Environment) (name : Bytes) : Option Bytes :=
  (env.get? name).filter (!·.isEmpty)

/-- Sets a variable. -/
def set (env : Environment) (name value : Bytes) : Environment :=
  ⟨(name, value) :: env.bindings.filter (·.1 != name)⟩

/-- Unsets a variable. -/
def erase (env : Environment) (name : Bytes) : Environment :=
  ⟨env.bindings.filter (·.1 != name)⟩

end Environment

end AnalyzerBridge.Host
