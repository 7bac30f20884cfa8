import FieldTrace.Symbol

/-! # Mapping sites and relations

A mapping site is a call that transforms a value of a source type into one of a target type. It
relates the fields of the two types that have the same name. -/

namespace FieldTrace

/-- A detected mapping call. -/
structure MappingSite where
  declaring : MethodId
  source : String
  target : String
  location : Location
  deriving DecidableEq, Repr, Inhabited

namespace MappingSite

variable (s : MappingSite)

/-- Is the type one of the two sides? -/
def involves (type : String) : Bool := type = s.source || type = s.target

/-- The side opposite to a type. -/
def counterpart (type : String) : Option String :=
  if type = s.source then some s.target
  else if type = s.target then some s.source
  else none

/-- Order by file, line, declaring method, source and target. -/
def lt (a b : MappingSite) : Bool :=
  if a.location.file ≠ b.location.file then textLt a.location.file b.location.file
  else if a.location.line ≠ b.location.line then decide (a.location.line < b.location.line)
  else lexLt textLt [a.declaring.signature, a.source, a.target]
    [b.declaring.signature, b.source, b.target]

end MappingSite

/-- How two fields are paired: by their own types, or by the types that hold them. -/
inductive RelationKind where
  | direct | nested
  deriving DecidableEq, Repr, Inhabited

/-- The word for a kind of relation. -/
def RelationKind.text : RelationKind → String
  | direct => "DIRECT"
  | nested => "NESTED"

/-- The kind of relation that a word names. -/
def RelationKind.ofText? (s : String) : Option RelationKind :=
  [direct, nested].find? (fun k => k.text = s)

/-- Two fields that a mapping site pairs. -/
structure MappingRelation where
  kind : RelationKind
  source : FieldRef
  target : FieldRef
  deriving DecidableEq, Repr, Inhabited

namespace MappingRelation

variable (r : MappingRelation)

/-- The parts by which relations are ordered. -/
def sortKey : List String :=
  [r.kind.text, r.source.declaringType, r.source.name, r.target.declaringType, r.target.name]

/-- Order by kind, then source, then target. -/
def lt (a b : MappingRelation) : Bool := lexLt textLt a.sortKey b.sortKey

/-- The relation as `[KIND] Source.field -> Target.field`. -/
def text : String := "[" ++ r.kind.text ++ "] " ++ r.source.text ++ " -> " ++ r.target.text

end MappingRelation

/-- A mapping site that carries a traced field to another type. The trace goes on at the accessors
of `continueAt`, and `nextType` is the type that now holds the field's name. -/
structure Crossing where
  site : MappingSite
  relation : MappingRelation
  continueAt : FieldRef
  nextType : String
  deriving DecidableEq, Repr, Inhabited

end FieldTrace
