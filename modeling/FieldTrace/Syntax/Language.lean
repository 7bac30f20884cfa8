/-! # Source languages -/

namespace FieldTrace.Syntax

/-- A language whose parse trees can be read. -/
inductive Language where
  | java
  deriving DecidableEq, Repr

/-- A language that is not known. -/
structure UnsupportedLanguage where
  name : String
  deriving DecidableEq, Repr

/-- What is not supported. -/
def UnsupportedLanguage.message (e : UnsupportedLanguage) : String :=
  "Unsupported language: " ++ e.name

namespace Language

/-- The name of a language. -/
def name : Language → String
  | java => "java"

/-- The language of a name. -/
def ofName (name : String) : Except UnsupportedLanguage Language :=
  if name = java.name then .ok java else .error ⟨name⟩

end Language

end FieldTrace.Syntax
