import Folio.Json.Number
import Folio.Text.Quoted

/-!
# What is wrong with JSON input

A mismatch is about data that is well-formed JSON but not of the wanted shape.
The other faults are about the text: it breaks the grammar, or it ends too soon.
A failure is a fault with the place in the text where reading stopped.
-/

namespace Folio.Json

inductive Found where
  | null
  | bool (b : Bool)
  | int (n : Int)
  | float (x : Float)
  | string (s : String)
  | sequence
  | map

def Found.ofNumber : Number → Found
  | .int n => .int n
  | .float x => .float x

def Found.message : Found → String
  | .null => "null"
  | .bool b => "boolean `" ++ (if b then "true" else "false") ++ "`"
  | .int n => "integer `" ++ String.ofList (Number.intText n) ++ "`"
  | .float x => "floating point `" ++ String.ofList (Number.floatText x) ++ "`"
  | .string s => "string " ++ Text.quoted s
  | .sequence => "sequence"
  | .map => "map"

inductive Expected where
  | string
  | integer
  | sequence
  | record (name : String)
  deriving DecidableEq, Repr

def Expected.message : Expected → String
  | .string => "a string"
  | .integer => "i64"
  | .sequence => "a sequence"
  | .record name => "struct " ++ name

inductive Mismatch where
  | kind (found : Found) (expected : Expected)
  /-- An integer above the largest one of 64 bits with a sign. -/
  | range (n : Int)
  | missing (field : String)
  | repeated (field : String)
  /-- A record of `size` fields was written as a list of only `length` items. -/
  | tooShort (length : Nat) (record : String) (size : Nat)
  | tooLong (length : Nat)

def countOf (n : Nat) (noun : String) : String :=
  toString n ++ " " ++ noun ++ if n = 1 then "" else "s"

def Mismatch.message : Mismatch → String
  | .kind found expected =>
    "invalid type: " ++ found.message ++ ", expected " ++ expected.message
  | .range n => "invalid value: " ++ (Found.int n).message ++ ", expected i64"
  | .missing field => "missing field `" ++ field ++ "`"
  | .repeated field => "duplicate field `" ++ field ++ "`"
  | .tooShort length record size =>
    "invalid length " ++ toString length ++ ", expected struct " ++ record ++ " with " ++
      countOf size "element"
  | .tooLong length =>
    "invalid length " ++ toString length ++ ", expected fewer elements in array"

/-- The two kinds of brackets. -/
inductive Bracket where
  | list
  | object
  deriving DecidableEq, Repr

inductive Malformed where
  | expectedValue
  | expectedIdent
  | expectedColon
  | expectedCommaOrEnd (bracket : Bracket)
  | keyNotString
  | trailingComma
  | trailingCharacters
  | invalidNumber
  | numberOutOfRange
  | invalidEscape
  | controlCharacter
  | loneSurrogate
  | unfinishedSurrogate
  | tooDeep
  deriving DecidableEq, Repr

def Malformed.message : Malformed → String
  | .expectedValue => "expected value"
  | .expectedIdent => "expected ident"
  | .expectedColon => "expected `:`"
  | .expectedCommaOrEnd .list => "expected `,` or `]`"
  | .expectedCommaOrEnd .object => "expected `,` or `\x7d`"
  | .keyNotString => "key must be a string"
  | .trailingComma => "trailing comma"
  | .trailingCharacters => "trailing characters"
  | .invalidNumber => "invalid number"
  | .numberOutOfRange => "number out of range"
  | .invalidEscape => "invalid escape"
  | .controlCharacter => "control character (\\u0000-\\u001F) found while parsing a string"
  | .loneSurrogate => "lone leading surrogate in hex escape"
  | .unfinishedSurrogate => "unexpected end of hex escape"
  | .tooDeep => "recursion limit exceeded"

/-- What was being read when the text ended. -/
inductive Part where
  | value
  | string
  | inside (bracket : Bracket)
  deriving DecidableEq, Repr

def Part.message : Part → String
  | .value => "EOF while parsing a value"
  | .string => "EOF while parsing a string"
  | .inside .list => "EOF while parsing a list"
  | .inside .object => "EOF while parsing an object"

inductive Fault where
  | mismatch (m : Mismatch)
  | malformed (m : Malformed)
  | ended (part : Part)

def Fault.message : Fault → String
  | .mismatch m => m.message
  | .malformed m => m.message
  | .ended part => part.message

/-- Lines count from one. The column counts the bytes read since the last line break. -/
structure Position where
  line : Nat
  column : Nat
  deriving DecidableEq, Repr

structure Failure where
  fault : Fault
  position : Position

def Failure.message (failure : Failure) : String :=
  failure.fault.message ++ " at line " ++ toString failure.position.line ++ " column " ++
    toString failure.position.column

end Folio.Json
