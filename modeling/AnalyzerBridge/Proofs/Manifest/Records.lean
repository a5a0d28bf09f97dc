/-
Records that are filled in bit by bit.

However a dependency is spoken of, its record comes to hold what it should in the fields that are
spoken of, and stays as it is in the others.  `keep` is the record that has been filled in so
far, so a step is a change of what is known of it.  The list of records holds those that have
been spoken of, and a step changes one of them or adds it at the end.
-/
import AnalyzerBridge.Proofs.Manifest.Tables
import AnalyzerBridge.Proofs.Toml.Values

namespace AnalyzerBridge

open Toml (IsBlanks Key Datum Value)

/-! ### One record -/

namespace Dependency

/-- The record as far as it is known. -/
def keep (d : Dependency) (known : DependencyField → Bool) : Dependency where
  name := d.name
  kind := d.kind
  target := d.target
  version := if known .version then d.version else []
  path := if known .path then d.path else []
  git := if known .git then d.git else []
  features := if known .features then d.features else []
  optional := if known .optional then d.optional else false
  workspace := if known .workspace then d.workspace else false

variable {d : Dependency}

/-- Of a new record nothing is known. -/
theorem keep_nothing (d : Dependency) : d.keep (fun _ => false) = d.blank := rfl

/-- What a record holds of what is known. -/
theorem field_keep (known : DependencyField → Bool) (f : DependencyField) :
    (d.keep known).field f = if known f then d.field f else d.blank.field f := by
  cases f <;> simp only [field, keep] <;> split <;> rfl

/-- Records that say the same of the same are equal. -/
theorem eq_of_field {d e : Dependency} (h : d.Same e) (hfield : ∀ f, d.field f = e.field f) :
    d = e := by
  obtain ⟨hname, hkind, htarget⟩ := h
  have hversion := hfield .version
  have hpath := hfield .path
  have hgit := hfield .git
  have hfeatures := hfield .features
  have hoptional := hfield .optional
  have hworkspace := hfield .workspace
  cases d
  cases e
  simp_all [field]

/-- What is all known is what the record holds. -/
theorem keep_eq_self {known : DependencyField → Bool}
    (h : ∀ f, d.field f ≠ d.blank.field f → known f = true) : d.keep known = d := by
  refine eq_of_field ⟨rfl, rfl, rfl⟩ fun f => ?_
  rw [field_keep]
  split
  case isTrue => rfl
  case isFalse hunknown => exact (not_not.mp fun hne => hunknown (h f hne)).symm

/-- A field is set. -/
theorem setField_keep (known : DependencyField → Bool) {f : DependencyField} {raw : Bytes}
    (h : (d.field f).ReadFrom raw) :
    (d.keep known).setField f.word raw = d.keep fun g => known g || decide (g = f) := by
  cases f <;> simp only [field, Datum.ReadFrom] at h <;> simp +decide [setField, keep, h]

/-- Several fields are set. -/
theorem foldl_setField_keep (known : DependencyField → Bool) {fields : List DependencyField}
    {items : List (Bytes × Bytes)}
    (h : List.Forall₂ (fun f (k, r) => k = f.word ∧ (d.field f).ReadFrom r) fields items) :
    items.foldl (fun d (key, value) => d.setField key value) (d.keep known)
      = d.keep fun g => known g || decide (g ∈ fields) := by
  induction h generalizing known with
  | nil => simp
  | @cons f item fields items hitem _ ih =>
      obtain ⟨key, value⟩ := item
      obtain ⟨rfl, hread⟩ := hitem
      have hset := setField_keep known hread
      simp only [List.foldl_cons, hset, ih, List.mem_cons, Bool.decide_or, Bool.or_assoc]

/-- The version is set. -/
theorem assign_version (known : DependencyField → Bool) {raw : Bytes}
    (h : (Value.datum (.text d.version)).Written IsBlanks raw) :
    (d.keep known).assign none raw = d.keep fun g => known g || decide (g ∈ [.version]) := by
  have hread : Toml.stringValue raw = d.version := h.readFrom
  have hfirst : raw.head? ≠ some 123 := by
    obtain @⟨_, _, value⟩ := h
    cases value with
    | text => simp [Toml.quote]
  simp [assign, hfirst, hread, keep]

/-- The fields in a table are set. -/
theorem assign_table (known : DependencyField → Bool) {fields : List DependencyField} {raw : Bytes}
    (h : (Value.table (fields.map fun f => (f.key, d.field f))).Written IsBlanks raw) :
    (d.keep known).assign none raw = d.keep fun g => known g || decide (g ∈ fields) := by
  have hread : List.Forall₂ (fun f (k, r) => k = f.word ∧ (d.field f).ReadFrom r) fields
      (Toml.inlineTable raw) := List.forall₂_map_left_iff.mp h.readFrom
  have hfirst : raw.head? = some 123 := by
    cases h with
    | table => rfl
  rw [assign, if_pos hfirst]
  exact foldl_setField_keep known hread

/-! ### All records -/

/-- The record of a dependency, and no other, is for its name in its table. -/
theorem isFor_keep {e : Dependency} {table : DependencyTable} (hkind : table.kind = d.kind)
    (htarget : table.target = d.target) (known : DependencyField → Bool) :
    (e.keep known).isFor d.name table = true ↔ e.Same d := by
  simp [isFor, keep, Same, hkind, htarget, and_assoc]

/-- A change of a dependency whose record is there. -/
theorem change_of_mem {ds : List Dependency} (hnodup : ds.Nodup)
    (hsame : ∀ e ∈ ds, e.Same d → e = d) (hd : d ∈ ds) {table : DependencyTable}
    (hkind : table.kind = d.kind) (htarget : table.target = d.target)
    (known : Dependency → DependencyField → Bool)
    {f : Dependency → Dependency} {more : DependencyField → Bool}
    (hf : f (d.keep (known d)) = d.keep fun g => known d g || more g) :
    change d.name table f (ds.map fun e => e.keep (known e))
      = ds.map fun e => e.keep fun g => known e g || (decide (e = d) && more g) := by
  induction ds with
  | nil => exact absurd hd List.not_mem_nil
  | cons e rest ih =>
      rw [List.nodup_cons] at hnodup
      rw [List.map_cons, List.map_cons, change]
      by_cases he : e = d
      case pos =>
        -- The record is found, and as it is there once the rest is of others.
        obtain rfl := he
        have hrest : rest.map (fun c => c.keep (known c))
            = rest.map fun c => c.keep fun g => known c g || (decide (c = e) && more g) := by
          refine List.map_congr_left fun c hc => ?_
          have hne : c ≠ e := by rintro rfl; exact hnodup.1 hc
          simp [hne]
        rw [if_pos ((isFor_keep hkind htarget _).mpr ⟨rfl, rfl, rfl⟩), hf, hrest]
        simp
      case neg =>
        have hother : ¬ (e.keep (known e)).isFor d.name table = true := fun h =>
          he (hsame e List.mem_cons_self ((isFor_keep hkind htarget _).mp h))
        have hmem : d ∈ rest := (List.mem_cons.mp hd).resolve_left (Ne.symm he)
        rw [if_neg hother, ih hnodup.2 (fun c hc => hsame c (List.mem_cons_of_mem e hc)) hmem]
        simp [he]

/-- A change of a dependency whose record is not there yet. -/
theorem change_of_not_mem {ds : List Dependency} (hsame : ∀ e ∈ ds, ¬ e.Same d)
    {table : DependencyTable} (hkind : table.kind = d.kind) (htarget : table.target = d.target)
    (known : Dependency → DependencyField → Bool) (f : Dependency → Dependency) :
    change d.name table f (ds.map fun e => e.keep (known e))
      = (ds.map fun e => e.keep (known e)) ++ [f (d.keep fun _ => false)] := by
  induction ds with
  | nil => rw [keep_nothing, blank, ← hkind, ← htarget]; rfl
  | cons e rest ih =>
      have hother : ¬ (e.keep (known e)).isFor d.name table = true := fun h =>
        hsame e List.mem_cons_self ((isFor_keep hkind htarget _).mp h)
      rw [List.map_cons, change, if_neg hother, ih fun c hc => hsame c (List.mem_cons_of_mem e hc)]
      rfl

end Dependency

end AnalyzerBridge
