import Mathlib.Data.List.Basic

set_option autoImplicit false

/-!
The text of a migration.  The daemon drops the lines that start with two dashes and cuts the rest at
semicolons and white space.  Apart from that, a grammar says how column additions are laid out in a
text; the two are compared in the module on the parser.
-/

namespace Mostro.Migrations

abbrev Text := List Char

def isWhitespace (c : Char) : Bool :=
  let n := c.toNat
  9 ≤ n && n ≤ 13 || n == 32 || n == 0x85 || n == 0xA0 || n == 0x1680 ||
    0x2000 ≤ n && n ≤ 0x200A || n == 0x2028 || n == 0x2029 || n == 0x202F || n == 0x205F ||
    n == 0x3000

def dropEndWhile (p : Char → Bool) (t : Text) : Text := (t.reverse.dropWhile p).reverse

def trim (t : Text) : Text := dropEndWhile isWhitespace (t.dropWhile isWhitespace)

def trimMatches (c : Char) (t : Text) : Text := dropEndWhile (· == c) (t.dropWhile (· == c))

def splitWhitespace (t : Text) : List Text := (t.splitOnP isWhitespace).filter (· ≠ [])

def eqIgnoreAsciiCase (t t' : Text) : Bool := t.map Char.toLower == t'.map Char.toLower

def stripCarriageReturn (line : Text) : Text :=
  if line.getLast? = some '\r' then line.dropLast else line

def lines (t : Text) : List Text :=
  let parts := t.splitOn '\n'
  parts.dropLast.map stripCarriageReturn ++ (parts.drop (parts.length - 1)).filter (· ≠ [])

def afterFirst (marker : Text) : Text → Option Text
  | [] => if marker.isPrefixOf [] then some [] else none
  | c :: t => if marker.isPrefixOf (c :: t) then some ((c :: t).drop marker.length)
    else afterFirst marker t

def beforeFirst (marker : Text) : Text → Text
  | [] => []
  | c :: t => if marker.isPrefixOf (c :: t) then [] else c :: beforeFirst marker t

def duplicateMarker : Text := "duplicate column name: ".toList

def parseDuplicateColumnName (error : Text) : Option Text :=
  (afterFirst duplicateMarker error).map fun rest => trim (beforeFirst duplicateMarker rest)

def normalizeSqlIdentifier (token : Text) : Text :=
  trimMatches ']' (trimMatches '[' (trimMatches (Char.ofNat 96) (trimMatches (Char.ofNat 34)
    (dropEndWhile (· == ',') (trim token)))))

def stripSqlComments (sql : Text) : Text :=
  List.intercalate ['\n']
    ((lines sql).filter fun line => !"--".toList.isPrefixOf (line.dropWhile isWhitespace))

def hasAddColumnWords (alter table add column : Text) : Bool :=
  eqIgnoreAsciiCase alter "ALTER".toList && eqIgnoreAsciiCase table "TABLE".toList &&
    eqIgnoreAsciiCase add "ADD".toList && eqIgnoreAsciiCase column "COLUMN".toList

def parseAddColumnStatement (statement : Text) : Option (Text × Text) :=
  match splitWhitespace statement with
  | alter :: table :: name :: add :: column :: target :: _ =>
    if hasAddColumnWords alter table add column then
      let tableName := normalizeSqlIdentifier name
      let columnName := normalizeSqlIdentifier target
      if tableName = [] ∨ columnName = [] then none else some (tableName,columnName)
    else none
  | _ => none

def parseAddColumnStatements (sql : Text) : Option (List (Text × Text)) := do
  let statements := (((stripSqlComments sql).splitOn ';').map trim).filter (· ≠ [])
  let operations ← statements.mapM parseAddColumnStatement
  if operations = [] then none else some operations

def isSqlSpace (c : Char) : Bool := c == ' ' || c == '\t' || c == '\n' || c == '\r' || c.toNat == 12

def Spaced (t : Text) : Prop := ∀ c ∈ t, isWhitespace c = true → isSqlSpace c = true

/-- The words of a text, with white space around them. -/
inductive Words : Text → List Text → Prop where
  | blank {t : Text} (hspace : ∀ c ∈ t, isWhitespace c = true) : Words t []
  | word {space word rest : Text} {words : List Text} (hspace : ∀ c ∈ space, isWhitespace c = true)
      (hne : word ≠ []) (hword : ∀ c ∈ word, isWhitespace c = false)
      (hrest : ∀ c ∈ rest.head?, isWhitespace c = true) (h : Words rest words) :
      Words (space ++ word ++ rest) (word :: words)

structure Keywords (alter table add column : Text) : Prop where
  alter : eqIgnoreAsciiCase alter "ALTER".toList = true
  table : eqIgnoreAsciiCase table "TABLE".toList = true
  add : eqIgnoreAsciiCase add "ADD".toList = true
  column : eqIgnoreAsciiCase column "COLUMN".toList = true

def isWordChar (c : Char) : Bool := c.isAlphanum || c == '_' || c == '$' || 128 ≤ c.toNat

def Named (name word : Text) : Prop :=
  name ≠ [] ∧ (∀ c ∈ name, isWordChar c = true) ∧
    (word = name ∨
      ∃ marks ∈ [(Char.ofNat 34,Char.ofNat 34),(Char.ofNat 96,Char.ofNat 96),('[',']')],
      word = marks.1 :: name ++ [marks.2])

def Shaped (t : Text) : Prop :=
  ∃ alter table name add column target rest,
    Words t (alter :: table :: name :: add :: column :: target :: rest) ∧
    Keywords alter table add column

def Addition (op : Text × Text) (t : Text) : Prop :=
  ∃ alter table name add column target rest,
    Words t (alter :: table :: name :: add :: column :: target :: rest) ∧
    Keywords alter table add column ∧ Named op.1 name ∧ Named op.2 target

inductive Uncommented : List Text → List Text → Prop where
  | nil : Uncommented [] []
  | comment {indent note : Text} {ts us : List Text} (hindent : ∀ c ∈ indent, isWhitespace c = true)
      (h : Uncommented ts us) : Uncommented ((indent ++ "--".toList ++ note) :: ts) us
  | code {t : Text} {ts us : List Text}
      (hcode : ∀ indent note, (∀ c ∈ indent, isWhitespace c = true) →
        t ≠ indent ++ "--".toList ++ note) (h : Uncommented ts us) : Uncommented (t :: ts) (t :: us)

def Pieces (sql : Text) (ts : List Text) : Prop :=
  ts ≠ [] ∧ (∀ t ∈ ts, ';' ∉ t) ∧
    ∃ code, Uncommented (lines sql) code ∧
      List.intercalate ['\n'] code = List.intercalate [';'] ts

inductive Script : List Text → List (Text × Text) → Prop where
  | nil : Script [] []
  | blank {t : Text} {ts : List Text} {ops : List (Text × Text)} (hblank : Words t [])
      (h : Script ts ops) : Script (t :: ts) ops
  | addition {t : Text} {ts : List Text} {op : Text × Text} {ops : List (Text × Text)}
      (hadd : Addition op t) (h : Script ts ops) : Script (t :: ts) (op :: ops)

def Writes (ops : List (Text × Text)) (sql : Text) : Prop :=
  ops ≠ [] ∧ ∃ ts, Pieces sql ts ∧ Script ts ops

end Mostro.Migrations
