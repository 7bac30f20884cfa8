/-! # Node kinds of a Java parse tree

The kinds of syntax node that the analysis looks at, and the roles that a node can play in its
parent. Every other kind or role is kept by its name. -/

namespace FieldTrace.Syntax

/-- The kind of a syntax node. Keywords are the unnamed nodes. -/
inductive Kind where
  | packageDeclaration | importDeclaration | asterisk
  | classDeclaration | interfaceDeclaration | enumDeclaration | recordDeclaration
  | annotationTypeDeclaration | enumBodyDeclarations | enumConstant
  | superclass | superInterfaces | extendsInterfaces
  | modifiers | annotationUse | markerAnnotationUse | elementValuePair
  | fieldDeclaration | constantDeclaration | methodDeclaration | constructorDeclaration
  | formalParameter | spreadParameter | inferredParameters
  | variableDeclarator | localVariableDeclaration | enhancedForStatement | resource
  | catchFormalParameter | catchType | labeledStatement | breakStatement | continueStatement
  | genericType | typeArguments | wildcard | arrayType | typeIdentifier | scopedTypeIdentifier
  | annotatedType | typePattern
  | identifier | scopedIdentifier | this | super | stringLiteral | trueLiteral | falseLiteral
  | classLiteral | fieldAccess | arrayAccess | methodInvocation | methodReference
  | objectCreation | castExpression | parenthesized | ternary | assignment | lambda
  | instanceofExpression | lineComment | blockComment
  | keyword (text : String)
  | other (name : String)
  deriving DecidableEq, Repr, Inhabited

namespace Kind

/-- The named kinds with their names in the Java grammar. -/
def names : List (String × Kind) := [
  ("package_declaration", packageDeclaration), ("import_declaration", importDeclaration),
  ("asterisk", asterisk), ("class_declaration", classDeclaration),
  ("interface_declaration", interfaceDeclaration), ("enum_declaration", enumDeclaration),
  ("record_declaration", recordDeclaration),
  ("annotation_type_declaration", annotationTypeDeclaration),
  ("enum_body_declarations", enumBodyDeclarations), ("enum_constant", enumConstant),
  ("superclass", superclass), ("super_interfaces", superInterfaces),
  ("extends_interfaces", extendsInterfaces), ("modifiers", modifiers),
  ("annotation", annotationUse), ("marker_annotation", markerAnnotationUse),
  ("element_value_pair", elementValuePair), ("field_declaration", fieldDeclaration),
  ("constant_declaration", constantDeclaration), ("method_declaration", methodDeclaration),
  ("constructor_declaration", constructorDeclaration), ("formal_parameter", formalParameter),
  ("spread_parameter", spreadParameter), ("inferred_parameters", inferredParameters),
  ("variable_declarator", variableDeclarator),
  ("local_variable_declaration", localVariableDeclaration),
  ("enhanced_for_statement", enhancedForStatement), ("resource", resource),
  ("catch_formal_parameter", catchFormalParameter), ("catch_type", catchType),
  ("labeled_statement", labeledStatement), ("break_statement", breakStatement),
  ("continue_statement", continueStatement), ("generic_type", genericType),
  ("type_arguments", typeArguments), ("wildcard", wildcard), ("array_type", arrayType),
  ("type_identifier", typeIdentifier), ("scoped_type_identifier", scopedTypeIdentifier),
  ("annotated_type", annotatedType), ("type_pattern", typePattern), ("identifier", identifier),
  ("scoped_identifier", scopedIdentifier), ("this", this), ("super", super),
  ("string_literal", stringLiteral), ("true", trueLiteral), ("false", falseLiteral),
  ("class_literal", classLiteral), ("field_access", fieldAccess), ("array_access", arrayAccess),
  ("method_invocation", methodInvocation), ("method_reference", methodReference),
  ("object_creation_expression", objectCreation), ("cast_expression", castExpression),
  ("parenthesized_expression", parenthesized), ("ternary_expression", ternary),
  ("assignment_expression", assignment), ("lambda_expression", lambda),
  ("instanceof_expression", instanceofExpression), ("line_comment", lineComment),
  ("block_comment", blockComment)]

/-- The kind with a given name. -/
def ofName (name : String) : Kind :=
  match names.find? (fun e => e.1 == name) with
  | some e => e.2
  | none => other name

/-- Keywords are not named; all other nodes are. -/
def isNamed : Kind → Bool
  | keyword _ => false
  | _ => true

/-- A comment. -/
def isComment (k : Kind) : Bool := k = lineComment || k = blockComment

end Kind

/-- What a node is to its parent. -/
inductive Role where
  | none | name | body | type | declarator | element | parameters | value | object | field
  | arguments | array | consequence | left
  | other (label : String)
  deriving DecidableEq, Repr, Inhabited

namespace Role

/-- The role with a given label. -/
def ofLabel : String → Role
  | "" => none
  | "name" => name
  | "body" => body
  | "type" => type
  | "declarator" => declarator
  | "element" => element
  | "parameters" => parameters
  | "value" => value
  | "object" => object
  | "field" => field
  | "arguments" => arguments
  | "array" => array
  | "consequence" => consequence
  | "left" => left
  | label => other label

end Role

end FieldTrace.Syntax
