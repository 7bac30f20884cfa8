import FieldTrace.Index.Declaration

/-! # Call sites -/

namespace FieldTrace

/-- What a method is called on. -/
inductive ReceiverKind where
  | none | this | super | type | call | expression
  deriving DecidableEq, Repr, Inhabited

/-- The word for a kind of receiver. -/
def ReceiverKind.text : ReceiverKind → String
  | none => "none"
  | this => "this"
  | super => "super"
  | type => "type"
  | call => "call"
  | expression => "expression"

/-- The kind of receiver that a word names. -/
def ReceiverKind.ofText? (s : String) : Option ReceiverKind :=
  [none, this, super, type, call, expression].find? (fun k => k.text = s)

/-- The receiver of a call. If the receiver is itself a call, its name and its own receiver are
kept. -/
structure Receiver where
  kind : ReceiverKind
  text : String := ""
  staticType : Option String := none
  callName : Option String := none
  callReceiverText : Option String := none
  callReceiverType : Option String := none
  deriving DecidableEq, Repr, Inhabited

/-- The syntactic shape of an argument. -/
inductive ArgumentShape where
  | classLiteral | value | call | other
  deriving DecidableEq, Repr, Inhabited

/-- The word for a shape. -/
def ArgumentShape.text : ArgumentShape → String
  | classLiteral => "class_literal"
  | value => "variable"
  | call => "call"
  | other => "other"

/-- The shape that a word names. -/
def ArgumentShape.ofText? (s : String) : Option ArgumentShape :=
  [classLiteral, value, call, other].find? (fun k => k.text = s)

/-- An argument of a call with its type, if known. -/
structure Argument where
  shape : ArgumentShape
  text : String
  typeName : Option String := none
  elementType : Option String := none
  deriving DecidableEq, Repr, Inhabited

/-- A call inside a method body. -/
structure CallSite where
  enclosing : MethodId
  name : String
  location : Location
  receiver : Receiver
  arguments : List Argument := []
  resolved : Option MethodId := none
  deriving DecidableEq, Repr, Inhabited

end FieldTrace
