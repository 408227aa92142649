import Tabular.Text.Basic

/-!
Storage classes, the affinities by which columns prefer them, and the type names under which a
column may be declared.
-/
namespace Tabular

inductive StorageClass where
  | null | integer | real | text | blob
  deriving DecidableEq

def StorageClass.name : StorageClass → String
  | .null => "NULL"
  | .integer => "INTEGER"
  | .real => "REAL"
  | .text => "TEXT"
  | .blob => "BLOB"

/-- The storage class that a column prefers. A numeric column stores numbers as numbers and other
text as text; `any` has no preference. -/
inductive Affinity where
  | integer | real | text | blob | numeric | any
  deriving DecidableEq

namespace Affinity

def name : Affinity → String
  | .integer => "INTEGER"
  | .real => "REAL"
  | .text => "TEXT"
  | .blob => "BLOB"
  | .numeric => "NUMERIC"
  | .any => "ANY"

def tag : Affinity → String
  | .integer => "Integer"
  | .real => "Real"
  | .text => "Text"
  | .blob => "Blob"
  | .numeric => "Numeric"
  | .any => "Any"

def all : List Affinity := [.integer, .real, .text, .blob, .numeric, .any]

def ofTag? (s : String) : Option Affinity := all.find? (·.tag == s)

theorem ofTag?_tag (a : Affinity) : ofTag? a.tag = some a := by cases a <;> rfl

/-- Place in the order of affinities. -/
def rank : Affinity → Nat
  | .integer => 0
  | .real => 1
  | .text => 2
  | .blob => 3
  | .numeric => 4
  | .any => 5

theorem rank_inj {a b : Affinity} : a.rank = b.rank ↔ a = b := by
  cases a <;> cases b <;> simp [rank]

def declaredTypes : List (String × Affinity) :=
  [("TEXT", .text), ("CHAR", .text), ("VARCHAR", .text), ("TINYTEXT", .text),
   ("MEDIUMTEXT", .text), ("LONGTEXT", .text), ("NCHAR", .text), ("NVARCHAR", .text),
   ("CLOB", .text), ("INTEGER", .integer), ("INT", .integer), ("TINYINT", .integer),
   ("SMALLINT", .integer), ("MEDIUMINT", .integer), ("BIGINT", .integer), ("INT2", .integer),
   ("INT4", .integer), ("INT8", .integer), ("REAL", .real), ("DOUBLE", .real),
   ("DOUBLE PRECISION", .real), ("FLOAT", .real), ("NUMERIC", .numeric), ("DECIMAL", .numeric),
   ("BOOLEAN", .numeric), ("DATE", .numeric), ("DATETIME", .numeric), ("TIMESTAMP", .numeric),
   ("TIME", .numeric), ("BLOB", .blob), ("ANY", .any), ("NONE", .any)]

/-- A declared type without its size, in capitals and with single spaces. -/
def plainTypeName (s : String) : String :=
  String.ofList (Text.upperAscii (Text.joinWords (s.toList.takeWhile (· ≠ '('))))

def ofTypeName? (s : String) : Option Affinity := declaredTypes.lookup (plainTypeName s)

end Affinity
end Tabular
