import FieldTrace.Index.Declaration
import FieldTrace.Text.Case

/-! # Categories of methods

Methods are categorised by a table of rules, of which the first that matches wins. Further entry
points can be given by parts of owner names; they rank with the entry-point rules at the head of the
table. -/

namespace FieldTrace

/-- What a node of a call hierarchy is. -/
inductive Category where
  | root | entryPoint | service | dataAccess | accessorGet | accessorSet | constructor | plain
  | mapping
  deriving DecidableEq, Repr, Inhabited

namespace Category

/-- The word for a category. -/
def text : Category → String
  | root => "root"
  | entryPoint => "entry_point"
  | service => "service"
  | dataAccess => "data_access"
  | accessorGet => "accessor_get"
  | accessorSet => "accessor_set"
  | constructor => "constructor"
  | plain => "plain"
  | mapping => "mapping"

/-- All categories. -/
def all : List Category :=
  [root, entryPoint, service, dataAccess, accessorGet, accessorSet, constructor, plain, mapping]

/-- The category of a word. -/
def ofText? (s : String) : Option Category := all.find? (fun c => c.text = s)

/-- Traces end at entry points. -/
def isTerminal (c : Category) : Bool := c = entryPoint

end Category

/-- What a rule looks at. -/
inductive RuleTest where
  | ownerContains | ownerAnnotationEnds | annotationContains | nameShape | constructor | never
  deriving DecidableEq, Repr, Inhabited

/-- A rule that gives a category to the methods that match its pattern. -/
structure CategoryRule where
  pattern : String
  test : RuleTest
  category : Category
  reason : String
  deriving DecidableEq, Repr, Inhabited

/-- What the rules see of a method. -/
structure MethodTraits where
  id : MethodId
  annotations : List String := []
  ownerAnnotations : List String := []
  isConstructor : Bool := false
  deriving Repr

namespace MethodTraits

/-- The traits of a declared method. -/
def ofDecl (m : MethodDecl) : MethodTraits where
  id := m.id
  annotations := m.annotations
  ownerAnnotations := m.ownerAnnotations
  isConstructor := m.isConstructor

/-- The traits of a method of which only the name is known. -/
def ofId (m : MethodId) : MethodTraits where
  id := m
  isConstructor := m.name = constructorName

end MethodTraits

/-! ### Shapes of accessor names -/

/-- A capital letter, a digit or an underscore. -/
def startsNamePart (c : Char) : Bool := c.isUpper || c.isDigit || c = '_'

/-- The alternatives of a group such as `(get|is)`, or the single word. -/
def shapeWords (s : String) : List String :=
  if Text.startsWith s "(" then
    ((s.toList.drop 1).dropLast.splitOn '|').map String.ofList
  else [s]

/-- The opening words of the pattern `^word[A-Z0-9_]` or `^(word|word)[A-Z0-9_]`. -/
def shapeOpenings (pattern : String) : List String :=
  match Text.splitFirst '[' (String.ofList (pattern.toList.drop 1)) with
  | some (words, _) => shapeWords words
  | none => []

/-- Does the name begin with an opening word of the pattern, followed by a new part? -/
def hasShape (pattern name : String) : Bool :=
  (shapeOpenings pattern).any (fun w =>
    w.toList.isPrefixOf name.toList
      && ((name.toList.drop w.toList.length).head?).any startsNamePart)

/-! ### Rules -/

namespace CategoryRule

/-- The standard table. -/
def standard : List CategoryRule := [
  ⟨"controller", .ownerContains, .entryPoint, "Controller class"⟩,
  ⟨"Controller", .ownerAnnotationEnds, .entryPoint, "@Controller / @RestController"⟩,
  ⟨"Mapping", .annotationContains, .entryPoint, "Request mapping handler"⟩,
  ⟨"Get", .annotationContains, .entryPoint, "HTTP GET handler"⟩,
  ⟨"Post", .annotationContains, .entryPoint, "HTTP POST handler"⟩,
  ⟨"Put", .annotationContains, .entryPoint, "HTTP PUT handler"⟩,
  ⟨"Delete", .annotationContains, .entryPoint, "HTTP DELETE handler"⟩,
  ⟨"repository", .ownerContains, .dataAccess, "Repository class"⟩,
  ⟨"dao", .ownerContains, .dataAccess, "DAO class"⟩,
  ⟨"service", .ownerContains, .service, "Service class"⟩,
  ⟨"^(get|is)[A-Z0-9_]", .nameShape, .accessorGet, "Getter naming"⟩,
  ⟨"^set[A-Z0-9_]", .nameShape, .accessorSet, "Setter naming"⟩,
  ⟨"<init>", .constructor, .constructor, "Constructor"⟩]

/-- The rule for an additional entry pattern. -/
def ofEntryPattern (pattern : String) : CategoryRule :=
  ⟨Text.lower pattern, .ownerContains, .entryPoint, "Configured entry point"⟩

/-- A table with additional entry patterns after its leading entry-point rules. -/
def withEntryPatterns (rules : List CategoryRule) (patterns : List String) : List CategoryRule :=
  rules.takeWhile (fun r => r.category = .entryPoint)
    ++ (patterns.filter (fun p => p ≠ "")).map ofEntryPattern
    ++ rules.dropWhile (fun r => r.category = .entryPoint)

/-- Does the rule match the method? How a pattern for names is read may be given. -/
def matchesMethod (r : CategoryRule) (m : MethodTraits)
    (fits : String → String → Bool := hasShape) : Bool :=
  match r.test with
  | .ownerContains => Text.occursIn r.pattern (Text.lower m.id.simpleOwner)
  | .ownerAnnotationEnds => m.ownerAnnotations.any (fun s => Text.endsWith s r.pattern)
  | .annotationContains => m.annotations.any (Text.occursIn r.pattern)
  | .nameShape => fits r.pattern m.id.name
  | .constructor => m.isConstructor || m.id.name = r.pattern
  | .never => false

/-- The first rule that matches. -/
def first? (rules : List CategoryRule) (m : MethodTraits)
    (fits : String → String → Bool := hasShape) : Option CategoryRule :=
  rules.find? (fun r => r.matchesMethod m fits)

/-- The category of a method: that of the first rule that matches, else plain. -/
def classify (rules : List CategoryRule) (m : MethodTraits)
    (fits : String → String → Bool := hasShape) : Category :=
  match first? rules m fits with
  | some r => r.category
  | none => .plain

end CategoryRule

end FieldTrace
