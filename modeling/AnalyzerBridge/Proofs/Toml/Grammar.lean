/-
The written form of a document.

A document says what its entries are; how it is written is a matter of layout: blanks around
tokens, comments behind lines and on lines of their own, empty lines, and line breaks inside
brackets.  The grammar gives every text of a value, and a `Layout` of a document is a text of
each of its statements with fillers between them.

The grammar is given over the texts that may stand between two tokens inside brackets.  There
are two such notions: in what is written these are gaps, which may go over several lines, and in
what the reader has put together of them they are blanks.
-/
import Mathlib.Data.List.Forall2
import AnalyzerBridge.Toml.Document

namespace AnalyzerBridge.Toml

/-! ### Blanks and comments -/

/-- Blanks in a line: spaces, tabs, and what else is blank but for the line feed. -/
def IsBlanks (t : Bytes) : Prop := ∀ b ∈ t, Bytes.isBlank b = true ∧ b ≠ 10

/-- What may stand at the end of a line: nothing, or a comment of any bytes. -/
inductive IsRemark : Bytes → Prop
  | none : IsRemark []
  | comment (text : Bytes) (oneLine : 10 ∉ text) : IsRemark (35 :: text)

/-- What may stand between two tokens inside brackets: blanks, and before them any number of lines
that end there or hold nothing but blanks and a comment. -/
inductive IsGap : Bytes → Prop
  | blanks {t : Bytes} (blank : IsBlanks t) : IsGap t
  | line {t remark rest : Bytes} (blank : IsBlanks t) (ends : IsRemark remark) (more : IsGap rest) :
      IsGap (t ++ remark ++ 10 :: rest)

/-! ### Keys and names -/

/-- A letter, a digit, an underscore, a dash or a dot. -/
def isKeyByte (b : UInt8) : Bool := Bytes.isAlphanumeric b || b == 95 || b == 45 || b == 46

/-- A key that stands without quotes. -/
def IsKey (k : Bytes) : Prop := k ≠ [] ∧ ∀ b ∈ k, isKeyByte b = true

instance (k : Bytes) : Decidable (IsKey k) :=
  decidable_of_iff (k ≠ [] ∧ k.all isKeyByte = true) (by rw [IsKey, List.all_eq_true])

/-- A byte that may stand in the name of a section: one of a key, a space, a comma, a parenthesis or
a single quote. -/
def isNameByte (b : UInt8) : Bool :=
  isKeyByte b || b == 32 || b == 44 || b == 40 || b == 41 || b == 39

/-- The name of a section, which neither starts nor ends with a space. -/
def IsName (n : Bytes) : Prop :=
  (∀ b ∈ n, isNameByte b = true) ∧ n.head? ≠ some 32 ∧ n.getLast? ≠ some 32

instance (n : Bytes) : Decidable (IsName n) :=
  decidable_of_iff (n.all isNameByte = true ∧ n.head? ≠ some 32 ∧ n.getLast? ≠ some 32)
    (by rw [IsName, List.all_eq_true])

abbrev Key := { k : Bytes // IsKey k }

abbrev Name := { n : Bytes // IsName n }

/-! ### Values -/

/-- How a byte is written between double quotes. -/
def escapeByte (b : UInt8) : Bytes :=
  if b = 92 ∨ b = 34 then [92, b]
  else if b = 10 then [92, 110]
  else if b = 13 then [92, 114]
  else if b = 9 then [92, 116]
  else [b]

/-- The text between double quotes. -/
def quote (s : Bytes) : Bytes := 34 :: (s.flatMap escapeByte ++ [34])

/-- A value that holds no keys. -/
inductive Datum where
  | text (s : Bytes)
  | texts (ss : List Bytes)
  | truth (b : Bool)
  deriving DecidableEq, Repr

/-- A value. -/
inductive Value where
  | datum (d : Datum)
  | table (fields : List (Key × Datum))

/-- Items that are parted by commas, with a gap behind each item and each comma.  There may be a
comma behind the last. -/
inductive Separated {α : Type} (gap : Bytes → Prop) (item : α → Bytes → Prop) :
    List α → Bytes → Prop
  | none : Separated gap item [] []
  | last {a : α} {t g : Bytes} (written : item a t) (behind : gap g) :
      Separated gap item [a] (t ++ g)
  | more {a : α} {as : List α} {t g g' u : Bytes} (written : item a t) (behind : gap g)
      (ahead : gap g') (rest : Separated gap item as u) :
      Separated gap item (a :: as) (t ++ g ++ 44 :: (g' ++ u))

def truthWord (b : Bool) : Bytes := if b then ascii "true" else ascii "false"

/-- The written forms of a value that holds no keys. -/
inductive Datum.Written (gap : Bytes → Prop) : Datum → Bytes → Prop
  | text (s : Bytes) : Written gap (.text s) (quote s)
  | texts {ss : List Bytes} {g u : Bytes} (ahead : gap g)
      (items : Separated gap (fun s t => t = quote s) ss u) :
      Written gap (.texts ss) (91 :: (g ++ u) ++ [93])
  | truth (b : Bool) : Written gap (.truth b) (truthWord b)

/-- The written forms of a field of an inline table. -/
inductive FieldWritten (gap : Bytes → Prop) : Key × Datum → Bytes → Prop
  | assign {k : Key} {d : Datum} {g g' t : Bytes} (behind : gap g) (ahead : gap g')
      (value : d.Written gap t) : FieldWritten gap (k, d) (k.val ++ g ++ 61 :: (g' ++ t))

/-- The written forms of a value. -/
inductive Value.Written (gap : Bytes → Prop) : Value → Bytes → Prop
  | datum {d : Datum} {t : Bytes} (value : d.Written gap t) : Written gap (.datum d) t
  | table {fields : List (Key × Datum)} {g u : Bytes} (ahead : gap g)
      (items : Separated gap (FieldWritten gap) fields u) :
      Written gap (.table fields) (123 :: (g ++ u) ++ [125])

/-! ### Documents -/

/-- What a line, or several, can say. -/
inductive Statement where
  | header (name : Name)
  | assign (key : Key) (value : Value)

/-- The written forms of a statement, which fill their lines. -/
inductive Statement.Written : Statement → Bytes → Prop
  | header {name : Name} {a b c d remark : Bytes} (before : IsBlanks a) (ahead : IsBlanks b)
      (behind : IsBlanks c) (after : IsBlanks d) (ends : IsRemark remark) :
      Written (.header name) (a ++ (91 :: (b ++ name.val ++ c) ++ [93]) ++ (d ++ remark))
  | assign {key : Key} {value : Value} {a b c d t remark : Bytes} (before : IsBlanks a)
      (behind : IsBlanks b) (ahead : IsBlanks c) (written : value.Written IsGap t)
      (after : IsBlanks d) (ends : IsRemark remark) :
      Written (.assign key value) (a ++ (key.val ++ b ++ 61 :: (c ++ t)) ++ (d ++ remark))

/-- A line that says nothing. -/
inductive IsFiller : Bytes → Prop
  | mk {t remark : Bytes} (blank : IsBlanks t) (ends : IsRemark remark) : IsFiller (t ++ remark)

/-- A document: what is assigned at its top, and its sections in order. -/
structure Document where
  top : List (Key × Value)
  sections : List (Name × List (Key × Value))

namespace Document

/-- The statements of a document, in order. -/
def statements (d : Document) : List Statement :=
  d.top.map (fun (key, value) => Statement.assign key value)
    ++ d.sections.flatMap fun (name, assignments) =>
      Statement.header name :: assignments.map fun (key, value) => Statement.assign key value

/-- The assignments of a document, in order, each with the name of its section. -/
def assignments (d : Document) : List (Bytes × Key × Value) :=
  d.top.map (fun (key, value) => ([], key, value))
    ++ d.sections.flatMap fun (name, assignments) =>
      assignments.map fun (key, value) => (name.val, key, value)

end Document

/-- A piece of a text: one or more lines that make a statement, or one that says nothing. -/
structure Piece where
  means : Option Statement
  /-- The lines, without the line feed at their end. -/
  text : Bytes
  /-- The lines are a written form of that. -/
  written : match means with
    | none => IsFiller text
    | some statement => statement.Written text

/-- The text of some pieces, one below the other. -/
def textOf (pieces : List Piece) : Bytes := Bytes.join [10] (pieces.map (·.text))

/-- The numbers of the lines on which keys stand, if the first piece begins on a given line. -/
def keyLines (number : Nat) : List Piece → List Nat
  | [] => []
  | piece :: pieces =>
    let rest := keyLines (number + 1 + piece.text.count 10) pieces
    match piece.means with
    | some (.assign _ _) => number :: rest
    | _ => rest

/-- A way to write a document. -/
structure Layout (d : Document) where
  pieces : List Piece
  /-- They say what the document says. -/
  complete : pieces.filterMap (·.means) = d.statements

namespace Layout

variable {d : Document}

def text (layout : Layout d) : Bytes := textOf layout.pieces

/-- The numbers of the lines on which keys stand, counted from one. -/
def lines (layout : Layout d) : List Nat := keyLines 1 layout.pieces

end Layout

/-! ### What a value is read as -/

/-- The text is read as the value. -/
def Datum.ReadFrom (raw : Bytes) : Datum → Prop
  | .text s => stringValue raw = s
  | .texts ss => stringArray raw = ss
  | .truth b => boolValue? raw = some b

def Value.ReadFrom (raw : Bytes) : Value → Prop
  | .datum d => d.ReadFrom raw
  | .table fields =>
    List.Forall₂ (fun (key, d) (k, r) => k = key.val ∧ d.ReadFrom r) fields (inlineTable raw)

end AnalyzerBridge.Toml
