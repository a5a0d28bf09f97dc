/-
A plain way to write every document.

Items are parted by a comma and a space, an equals sign stands between spaces, and every statement
has a line of its own.  So there is no document that cannot be written.
-/
import AnalyzerBridge.Proofs.Toml.Values

namespace AnalyzerBridge.Toml

theorem IsGap.nil : IsGap [] := .blanks .nil

theorem IsGap.space : IsGap [32] := .blanks .space

/-- Items with a comma and a space between them. -/
theorem Separated.join {α : Type} {item : α → Bytes → Prop} {as : List α} {ts : List Bytes}
    (h : List.Forall₂ item as ts) : Separated IsGap item as (Bytes.join [44, 32] ts) := by
  induction h with
  | nil => exact .none
  | cons written rest ih =>
      cases rest with
      | nil => simpa [Bytes.join] using Separated.last written IsGap.nil
      | cons _ _ => simpa [Bytes.join] using Separated.more written .nil .space ih

/-- The plain form of a value that holds no keys. -/
def Datum.plain : Datum → Bytes
  | .text s => quote s
  | .texts ss => 91 :: Bytes.join [44, 32] (ss.map quote) ++ [93]
  | .truth b => truthWord b

theorem Datum.written_plain (d : Datum) : d.Written IsGap d.plain := by
  cases d with
  | text s => exact .text s
  | texts ss =>
      have hitems : List.Forall₂ (fun s t => t = quote s) ss (ss.map quote) :=
        List.forall₂_map_right_iff.mpr (List.forall₂_same.mpr fun _ _ => rfl)
      exact .texts .nil (.join hitems)
  | truth b => exact .truth b

/-- The plain form of an assignment. -/
def plainAssignment (key : Key) (value : Bytes) : Bytes := key.val ++ [32] ++ 61 :: ([32] ++ value)

/-- The plain form of a value. -/
def Value.plain : Value → Bytes
  | .datum d => d.plain
  | .table fields =>
    123 :: Bytes.join [44, 32] (fields.map fun (key, d) => plainAssignment key d.plain) ++ [125]

theorem Value.written_plain (v : Value) : v.Written IsGap v.plain := by
  cases v with
  | datum d => exact .datum d.written_plain
  | table fields =>
      have hfield : ∀ field ∈ fields,
          FieldWritten IsGap field (plainAssignment field.1 field.2.plain) :=
        fun field _ => .assign .space .space field.2.written_plain
      exact .table .nil (.join (List.forall₂_map_right_iff.mpr (List.forall₂_same.mpr hfield)))

/-- The plain form of a statement. -/
def Statement.plain : Statement → Bytes
  | .header name => 91 :: name.val ++ [93]
  | .assign key value => plainAssignment key value.plain

theorem Statement.written_plain (s : Statement) : s.Written s.plain := by
  cases s with
  | header name =>
      have hwritten : (Statement.header name).Written _ := .header .nil .nil .nil .nil .none
      simpa [plain] using hwritten
  | assign key value =>
      have hwritten : (Statement.assign key value).Written _ :=
        .assign .nil .space .space value.written_plain .nil .none
      simpa [plain, plainAssignment] using hwritten

/-- **Every document can be written.**  This is its plain layout. -/
def Document.plain (d : Document) : Layout d where
  pieces := d.statements.map fun s => ⟨some s, s.plain, s.written_plain⟩
  complete := by simp [List.filterMap_map]

end AnalyzerBridge.Toml
