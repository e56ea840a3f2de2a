import JsonnetPreview.Json.Printer
import JsonnetPreview.Proofs.Text.Utf8

namespace JsonnetPreview

open Text

namespace Layout

theorem isScalar_positional {digits : Text} (h : digits.IsScalar) (point : Int) :
    (positional digits point).IsScalar := by
  unfold positional
  split
  next => exact ((isScalar_map _).append (isScalar_replicate _ _)).append h
  next =>
    split
    next => exact (h.append (isScalar_replicate _ _)).append (isScalar_map _)
    next => exact (h.take _).append ((h.drop _).cons '.')

theorem isScalar_exponentText (e : Int) : (exponentText e).IsScalar := by
  have hdigits : IsScalar (replicate (2 - (ofNat e.natAbs).length) '0' ++ ofNat e.natAbs) :=
    (isScalar_replicate _ _).append (isScalar_map _)
  unfold exponentText
  split
  next => exact hdigits.cons '-'
  next => exact hdigits.cons '+'

theorem isScalar_scientific (l : Layout) {digits : Text} (h : digits.IsScalar) (point : Int) :
    (l.scientific digits point).IsScalar := by
  have hexponent := (isScalar_exponentText (point - 1)).cons 'e'
  have hrest := h.drop 1
  unfold scientific
  split
  next =>
    split
    next => exact ((h.take 1).append (isScalar_map _)).append hexponent
    next => exact ((h.take 1).append isScalar_nil).append hexponent
  next => exact ((h.take 1).append (hrest.cons '.')).append hexponent

theorem isScalar_ofDecimal (l : Layout) (d : Decimal) : (l.ofDecimal d).IsScalar := by
  simp only [ofDecimal]
  split
  next => exact isScalar_positional (isScalar_map _) _
  next => exact l.isScalar_scientific (isScalar_map _) _

theorem isScalar_signed (negative : Bool) {t : Text} (h : t.IsScalar) :
    (signed negative t).IsScalar := by
  cases negative with
  | false => exact h
  | true => exact h.cons '-'

end Layout

namespace Json

theorem isScalar_render (x : Binary64) : (layout.render x).IsScalar := by
  cases x with
  | finite negative x => exact Layout.isScalar_signed negative (layout.isScalar_ofDecimal _)
  | infinite negative => exact Layout.isScalar_signed negative (isScalar_map _)
  | nan => exact isScalar_map _

theorem isScalar_escape16 (n : Nat) : (escape16 n).IsScalar := isScalar_map ['\\', 'u', _, _, _, _]

theorem isScalar_writeElement (c : CodePoint) : (writeElement true c).IsScalar := by
  unfold writeElement
  split
  case h_8 =>
    split
    next =>
      unfold escapeUnicode
      split
      next => exact isScalar_escape16 _
      next => exact (isScalar_escape16 _).append (isScalar_escape16 _)
    next h =>
      simp only [Bool.true_and, Bool.or_eq_true, decide_eq_true_eq, not_or] at h
      cases c with
      | char x => exact isScalar_map [x]
      | surrogate i =>
          have hvalue : 0xD800 ≤ (CodePoint.surrogate i).value := Nat.le_add_right ..
          exact absurd (Nat.le_trans (by decide) hvalue) h.2
  all_goals exact isScalar_map _

theorem isScalar_writeString (t : Text) : (writeString true t).IsScalar := by
  refine IsScalar.cons '"' (IsScalar.append (fun c hc => ?_) (isScalar_map ['"']))
  obtain ⟨x, -, hx⟩ := List.mem_flatMap.1 hc
  exact isScalar_writeElement x c hx

variable {lines : Bool}

theorem isScalar_lead (s : Style) (depth : Nat) : (s.lead depth).IsScalar := by
  unfold Style.lead
  split
  next => exact (isScalar_replicate _ _).cons '\n'
  next => exact isScalar_nil

theorem isScalar_colon (s : Style) : s.colon.IsScalar := by
  unfold Style.colon
  split <;> exact isScalar_map _

theorem isScalar_name (depth : Nat) (k : Text) : IsScalar
    (Style.lead ⟨lines, true⟩ depth ++ writeString true k ++ Style.colon ⟨lines, true⟩) :=
  ((isScalar_lead _ depth).append (isScalar_writeString k)).append (isScalar_colon _)

mutual

theorem isScalar_writeBefore (depth : Nat) {tail : Text} (htail : tail.IsScalar) :
    ∀ v : Json, (writeBefore ⟨lines, true⟩ depth tail v).IsScalar
  | .null => (isScalar_map _).append htail
  | .bool true => (isScalar_map _).append htail
  | .bool false => (isScalar_map _).append htail
  | .int n => (isScalar_ofInt n).append htail
  | .float x => (isScalar_render x).append htail
  | .str t => (isScalar_writeString t).append htail
  | .arr [] => (isScalar_map _).append htail
  | .arr (v :: r) =>
      have hitems := isScalar_writeItems (depth + 1)
        ((isScalar_lead ⟨lines, true⟩ depth).append (htail.cons ']')) r
      ((isScalar_lead _ _).append (isScalar_writeBefore (depth + 1) hitems v)).cons '['
  | .obj [] => (isScalar_map _).append htail
  | .obj ((k, v) :: r) =>
      have hmembers := isScalar_writeMembers (depth + 1)
        ((isScalar_lead ⟨lines, true⟩ depth).append (htail.cons '\x7d')) r
      ((isScalar_name (depth + 1) k).append
        (isScalar_writeBefore (depth + 1) hmembers v)).cons '\x7b'

theorem isScalar_writeItems (depth : Nat) {tail : Text} (htail : tail.IsScalar) :
    ∀ r : List Json, (writeItems ⟨lines, true⟩ depth tail r).IsScalar
  | [] => htail
  | v :: r =>
      ((isScalar_lead _ _).append
        (isScalar_writeBefore depth (isScalar_writeItems depth htail r) v)).cons ','

theorem isScalar_writeMembers (depth : Nat) {tail : Text} (htail : tail.IsScalar) :
    ∀ r : List (Text × Json), (writeMembers ⟨lines, true⟩ depth tail r).IsScalar
  | [] => htail
  | (k, v) :: r =>
      ((isScalar_name depth k).append
        (isScalar_writeBefore depth (isScalar_writeMembers depth htail r) v)).cons ','

end

/-- Halves of surrogate pairs are escaped with all other characters beyond ASCII. -/
theorem isScalar_write (v : Json) : (v.write ⟨lines, true⟩).IsScalar :=
  isScalar_writeBefore 0 isScalar_nil v

end Json
end JsonnetPreview
