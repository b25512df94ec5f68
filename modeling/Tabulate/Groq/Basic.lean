import Tabulate.Pipeline.Sort
import Tabulate.Token.Lexer

/-! GROQ queries: a star and segments that are applied from left to right. -/
namespace Tabulate.Groq
open Pipeline (Direction)

inductive CompareOp
  | eq | ne | gt | ge | lt | le
deriving DecidableEq

inductive Expr
  | literal (value : Value)
  /-- The empty path is the element itself. -/
  | path (path : Path)
  | array (items : List Expr)
  | compare (op : CompareOp) (left right : Expr)
  | isIn (needle haystack : Expr)
  | and (left right : Expr)
  | or (left right : Expr)
  | not (inner : Expr)
  | defined (inner : Expr)

inductive Entry
  /-- Copies every field. -/
  | spread
  | field (name : String) (value : Expr)

inductive Segment
  | filter (condition : Expr)
  | index (position : Int)
  | slice (first last : Int) (inclusive : Bool)
  | projection (entries : List Entry)
  | order (keys : List (Path × Direction))

structure Query where
  segments : List Segment

inductive Fault
  | lexical (fault : Token.LexFault)
  | noStar (found : String)
  | expected (symbol found : String)
  | noOrder (found : String)
  | unexpected (found : String)
  | unexpectedEnd
  | noRangeEnd
  | noEntryName
  | noAttribute
  | noAttributeAfterPoint
deriving DecidableEq

def Fault.message : Fault → String
  | lexical fault => fault.message
  | noStar found => s!"query must start with '*' but found {found}"
  | expected symbol found => s!"expected '{symbol}' but found {found}"
  | noOrder found => s!"expected 'order' after '|' but found {found}"
  | unexpected found => s!"unexpected {found}"
  | unexpectedEnd => "unexpected end of query"
  | noRangeEnd => "expected an integer after range operator"
  | noEntryName => "projection field needs a name"
  | noAttribute => "expected an attribute name"
  | noAttributeAfterPoint => "expected an attribute name after '.'"

structure SyntaxError where
  position : Nat
  fault : Fault
deriving DecidableEq

def SyntaxError.message (e : SyntaxError) : String :=
  s!"GROQ syntax error at position {e.position}: {e.fault.message}"

end Tabulate.Groq
