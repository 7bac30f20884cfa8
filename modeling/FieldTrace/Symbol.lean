import FieldTrace.Sorting
import FieldTrace.Text.Split

/-! # Names of methods and fields, and places in the sources -/

namespace FieldTrace

/-- A field, named by its declaring type. -/
structure FieldRef where
  declaringType : String
  name : String
  deriving DecidableEq, Repr, Inhabited

/-- The field as `Type.name`. -/
def FieldRef.text (f : FieldRef) : String := f.declaringType ++ "." ++ f.name

/-- A method, named by its owner, its name and its parameter types, so that overloads differ. -/
structure MethodId where
  owner : String
  name : String
  params : List String
  deriving DecidableEq, Repr, Inhabited

/-- The name under which constructors are listed. -/
def constructorName : String := "<init>"

/-- The last part of a dotted name. -/
def simpleName (name : String) : String := Text.afterLast '.' name

namespace MethodId

variable (m : MethodId)

/-- The method as `Owner.name(Type, Type)`. -/
def signature : String := m.owner ++ "." ++ m.name ++ "(" ++ Text.join ", " m.params ++ ")"

/-- The owner without its package. -/
def simpleOwner : String := simpleName m.owner

/-- The method with the simple names of its owner and parameter types. -/
def label : String :=
  m.simpleOwner ++ "." ++ m.name ++ "(" ++ Text.join ", " (m.params.map simpleName) ++ ")"

/-- Order by owner, then name, then parameter types. -/
def lt (a b : MethodId) : Bool :=
  if a.owner = b.owner then
    if a.name = b.name then lexLt textLt a.params b.params else textLt a.name b.name
  else textLt a.owner b.owner

end MethodId

/-- A line, counted from one, of a source file. -/
structure Location where
  file : String
  line : Int
  deriving DecidableEq, Repr, Inhabited

namespace Location

variable (l : Location)

/-- The file without its directories; both slashes separate them. -/
def fileName : String :=
  Text.afterLast '/' (String.ofList (l.file.toList.map (fun c => if c = '\\' then '/' else c)))

/-- The place as `File.java:12`. -/
def text : String := l.fileName ++ ":" ++ toString l.line

end Location

/-- A use of a declaration inside a method. -/
structure Reference where
  enclosing : Option MethodId
  location : Location
  deriving DecidableEq, Repr, Inhabited

end FieldTrace
