import FieldTrace.Symbol
import FieldTrace.Syntax.Tree
import FieldTrace.Table
import FieldTrace.Text.Utf8

/-! # Source files and their naming context

A source file holds its bytes and its parse tree. The package and import declarations at the top of
the tree give the context in which the names of the file are read. -/

namespace FieldTrace.Syntax

/-- A source file with its parse tree. -/
structure SourceFile where
  path : String
  bytes : Array UInt8
  tree : Tree

namespace SourceFile

variable (f : SourceFile)

/-- The text of a node. -/
def text (t : Tree) : String :=
  String.ofList (Text.decodeBytes (f.bytes.extract t.start t.stop).toList)

/-- The line of a node, counted from one: only line feeds end a line. -/
def line (t : Tree) : Nat := (f.bytes.extract 0 t.start).toList.count 10 + 1

/-- The place of a node. -/
def locate (t : Tree) : Location := ⟨f.path, f.line t⟩

end SourceFile

/-- How the names of a file are read: its package, its imported types by simple name, and the
packages it imports whole. -/
structure NameContext where
  package : String := ""
  imports : Table String String := .empty
  wildcards : List String := []

namespace NameContext

/-- The text of the last name among some nodes. -/
def lastName? (f : SourceFile) (nodes : List Tree) : Option String :=
  ((nodes.filter (fun t => t.kind = .scopedIdentifier || t.kind = .identifier)).getLast?).map f.text

/-- Take up an import declaration; static imports name no types. -/
def addImport (f : SourceFile) (ctx : NameContext) (t : Tree) : NameContext :=
  if t.children.any (fun c => c.kind = .keyword "static") then ctx
  else match lastName? f t.children with
    | none => ctx
    | some target =>
      if t.children.any (fun c => c.kind = .asterisk) then
        { ctx with wildcards := ctx.wildcards ++ [target] }
      else { ctx with imports := ctx.imports.insert (simpleName target) target }

/-- Take up a top-level declaration. -/
def addDeclaration (f : SourceFile) (ctx : NameContext) (t : Tree) : NameContext :=
  if t.kind = .packageDeclaration then
    match lastName? f t.namedChildren with
    | some package => { ctx with package := package }
    | none => ctx
  else if t.kind = .importDeclaration then addImport f ctx t
  else ctx

/-- The naming context of a file. -/
def ofFile (f : SourceFile) : NameContext := f.tree.namedChildren.foldl (addDeclaration f) {}

end NameContext

end FieldTrace.Syntax
