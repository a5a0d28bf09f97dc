/-
A file URI tells which path it was made of.

Reading a URI undoes what writing it did, byte by byte: a byte that stands for itself is
no percent sign, and the two digits behind a percent sign are the two halves of the byte.
Hence two paths from the root with one URI are one path, which is what lets documents be
kept under their URIs.
-/
import AnalyzerBridge.Path
import AnalyzerBridge.Proofs.Bytes
import AnalyzerBridge.Uri

namespace AnalyzerBridge.Uri

/-! ### Escapes -/

@[simp] theorem decode_nil : decode [] = [] := by
  rw [decode]
  intros
  contradiction

theorem decode_cons_of_ne {c : UInt8} (h : c ≠ 37) (rest : Bytes) :
    decode (c :: rest) = c :: decode rest := by
  match rest with
  | [] => simp [decode]
  | [a] => simp [decode]
  | a :: b :: rest => rw [decode, if_neg h]

/-- The two digits of an escape denote the byte it was written for. -/
theorem escapedByte_hexDigit (b : UInt8) :
    escapedByte (hexDigit (b >>> 4)) (hexDigit (b &&& 15)) = some b :=
  Bytes.forall_byte (P := fun b => escapedByte (hexDigit (b >>> 4)) (hexDigit (b &&& 15)) = some b)
    (by decide +kernel) b

theorem decode_encodeByte_append (b : UInt8) (rest : Bytes) :
    decode (encodeByte b ++ rest) = b :: decode rest := by
  unfold encodeByte
  split
  · rename_i hplain
    have hne : b ≠ 37 := by
      rintro rfl
      exact absurd hplain (by decide)
    exact decode_cons_of_ne hne rest
  · show decode (37 :: hexDigit (b >>> 4) :: hexDigit (b &&& 15) :: rest) = b :: decode rest
    rw [decode, if_pos rfl, escapedByte_hexDigit]

/-- **Reading an escaped text gives the text back.** -/
theorem decode_flatMap_encodeByte (path : Bytes) : decode (path.flatMap encodeByte) = path := by
  induction path with
  | nil => exact decode_nil
  | cons b rest ih => rw [List.flatMap_cons, decode_encodeByte_append, ih]

/-! ### URIs of paths from the root -/

theorem head?_of_isAbsolute {path : Bytes} (h : Path.isAbsolute path = true) :
    path.head? = some 47 := by
  cases path with
  | nil => exact absurd h (by decide)
  | cons b rest =>
      have hb : b = 47 := by simpa [Path.isAbsolute, Path.slash] using h
      rw [hb]
      rfl

theorem ofPath_of_isAbsolute {path : Bytes} (h : Path.isAbsolute path = true) :
    ofPath path = scheme ++ path.flatMap encodeByte := by
  rw [ofPath, if_pos (head?_of_isAbsolute h), List.append_nil]

/-- **Two paths from the root with one URI are one path.** -/
theorem eq_of_ofPath_eq {path other : Bytes} (hpath : Path.isAbsolute path = true)
    (hother : Path.isAbsolute other = true) (h : ofPath path = ofPath other) : path = other := by
  rw [ofPath_of_isAbsolute hpath, ofPath_of_isAbsolute hother] at h
  have hescaped : path.flatMap encodeByte = other.flatMap encodeByte := List.append_cancel_left h
  rw [← decode_flatMap_encodeByte path, hescaped, decode_flatMap_encodeByte]

end AnalyzerBridge.Uri
