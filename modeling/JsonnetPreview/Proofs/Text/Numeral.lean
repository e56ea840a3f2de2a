import JsonnetPreview.Text.Blank
import JsonnetPreview.Text.Digit
import Mathlib.Algebra.Group.Nat.Defs
import Mathlib.Data.List.Induction

namespace JsonnetPreview

def blankValues : List Nat :=
  [9, 10, 11, 12, 13, 28, 29, 30, 31, 32, 0x85, 0xA0, 0x1680, 0x2000, 0x2001, 0x2002, 0x2003,
   0x2004, 0x2005, 0x2006, 0x2007, 0x2008, 0x2009, 0x200A, 0x2028, 0x2029, 0x202F, 0x205F, 0x3000]

theorem CodePoint.value_mem_blankValues {c : CodePoint} (h : c.isBlank = true) :
    c.value ∈ blankValues := by
  simp only [isBlank, Bool.or_eq_true, Bool.and_eq_true, decide_eq_true_eq, beq_iff_eq] at h
  simp only [blankValues, List.mem_cons, List.not_mem_nil, or_false]
  omega

theorem CodePoint.digit?_of_isBlank {c : CodePoint} (h : c.isBlank = true) : c.digit? = none := by
  have hblank : ∀ n ∈ blankValues, digitZeros.find? (fun z => z ≤ n && n < z + 10) = none := by
    decide
  rw [digit?, hblank _ (value_mem_blankValues h)]
  rfl

theorem CodePoint.not_isBlank_of_digit? {c : CodePoint} (h : c.digit?.isSome) :
    c.isBlank = false := by
  rw [Bool.eq_false_iff]
  intro hb
  rw [digit?_of_isBlank hb] at h
  cases h

namespace Numeral

def text (n : Numeral) : Text := n.map fun d => .char (Nat.digitChar d)

/-- A numeral that is read as a number: it has digits, and not too many. -/
structure Readable (n : Numeral) : Prop where
  ne_nil : n ≠ []
  digits : ∀ d ∈ n, d < 10
  length_le : n.length ≤ digitLimit

instance : DecidablePred Readable := fun n =>
  decidable_of_iff (n ≠ [] ∧ (∀ d ∈ n, d < 10) ∧ n.length ≤ digitLimit)
    ⟨fun ⟨h, hd, hl⟩ => ⟨h, hd, hl⟩, fun ⟨h, hd, hl⟩ => ⟨h, hd, hl⟩⟩

theorem digit?_digitChar {d : Nat} (h : d < 10) :
    (CodePoint.char (Nat.digitChar d)).digit? = some d := by
  have hall : ∀ d : Fin 10, (CodePoint.char (Nat.digitChar d)).digit? = some d.val := by decide
  exact hall ⟨d, h⟩

def Ends (t : Text) : Prop := ∀ c ∈ t.head?, c.digit? = none

theorem ends_nil : Ends [] := nofun

theorem ends_cons {c : CodePoint} {t : Text} : Ends (c :: t) ↔ c.digit? = none := by simp [Ends]

theorem scan_of_ends {t : Text} (h : Ends t) : scan t = ([], t) := by
  cases t with
  | nil => rfl
  | cons c r => simp [scan, h c rfl]

/-- A text of digits of any script, and the numeral that they are. -/
structure Spells (n : Numeral) (t : Text) : Prop where
  ne_nil : n ≠ []
  digits : t.map CodePoint.digit? = n.map some

theorem Spells.length_eq {n : Numeral} {t : Text} (h : n.Spells t) : t.length = n.length := by
  simpa using congrArg List.length h.digits

theorem Spells.text_ne_nil {n : Numeral} {t : Text} (h : n.Spells t) : t ≠ [] := by
  rintro rfl
  exact h.ne_nil (by simpa using h.digits.symm)

theorem Spells.isSome_digit? {n : Numeral} {t : Text} (h : n.Spells t) {c : CodePoint}
    (hc : c ∈ t) : c.digit?.isSome := by
  have hmem : c.digit? ∈ n.map some := h.digits ▸ List.mem_map_of_mem hc
  obtain ⟨d, -, hd⟩ := List.mem_map.1 hmem
  rw [← hd]
  rfl

theorem scan_append {n : Numeral} {u : Text} (hu : u.map CodePoint.digit? = n.map some) {t : Text}
    (ht : Ends t) : scan (u ++ t) = (n, t) := by
  induction u generalizing n with
  | nil =>
      obtain rfl : n = [] := by simpa using hu.symm
      exact scan_of_ends ht
  | cons c u ih =>
      cases n with
      | nil => cases hu
      | cons d n =>
          obtain ⟨hc, hu⟩ := List.cons.inj hu
          rw [List.cons_append, scan, hc, ih hu]

theorem exists_of_scan (t : Text) :
    ∃ u, t = u ++ (scan t).2 ∧ u.map CodePoint.digit? = (scan t).1.map some := by
  induction t with
  | nil => exact ⟨[], rfl, rfl⟩
  | cons c t ih =>
      cases hc : c.digit? with
      | none => exact ⟨[], by simp [scan, hc], by simp [scan, hc]⟩
      | some d =>
          obtain ⟨u, ht, hu⟩ := ih
          refine ⟨c :: u, ?_, ?_⟩
          · rw [scan, hc, List.cons_append, ← ht]
          · simp [scan, hc, hu]

theorem digits_text {n : Numeral} (hn : ∀ d ∈ n, d < 10) :
    n.text.map CodePoint.digit? = n.map some := by
  rw [text, List.map_map]
  exact List.map_congr_left fun d hd => digit?_digitChar (hn d hd)

theorem value?_of_length_le {n : Numeral} (h : n.length ≤ digitLimit) : n.value? = .ok n.value :=
  if_neg (Nat.not_lt.2 h)

def ofNat (n : Nat) : Numeral := if n < 10 then [n] else ofNat (n / 10) ++ [n % 10]

theorem text_append (m n : Numeral) : text (m ++ n) = m.text ++ n.text := List.map_append

theorem text_ofNat (n : Nat) : (ofNat n).text = Text.ofNat n := by
  fun_induction ofNat n with
  | case1 n h =>
      rw [Text.ofNat, Nat.toDigits_of_lt_base h]
      rfl
  | case2 n h ih =>
      have hdigits := Nat.toDigits_of_base_le (by decide : 1 < 10) (Nat.not_lt.1 h)
      rw [text_append, ih, Text.ofNat, Text.ofNat, hdigits, List.map_append]
      rfl

theorem lt_ten_of_mem_ofNat {n d : Nat} (h : d ∈ ofNat n) : d < 10 := by
  fun_induction ofNat n with
  | case1 n hn => exact List.mem_singleton.1 h ▸ hn
  | case2 n hn ih =>
      rcases List.mem_append.1 h with h | h
      · exact ih h
      · exact List.mem_singleton.1 h ▸ Nat.mod_lt n (by decide)

theorem value_ofNat (n : Nat) : (ofNat n).value = n := by
  fun_induction ofNat n with
  | case1 n hn => simp [value]
  | case2 n hn ih =>
      rw [value_append_singleton, ih]
      omega

theorem ofNat_zero : ofNat 0 = [0] := by rw [ofNat, if_pos (by decide)]

theorem exists_ofNat_eq_cons {n : Nat} (h : n ≠ 0) : ∃ d r, ofNat n = d :: r ∧ d ≠ 0 := by
  fun_induction ofNat n with
  | case1 n hn => exact ⟨n, [], rfl, h⟩
  | case2 n hn ih =>
      obtain ⟨d, r, hr, hd⟩ := ih (by omega)
      exact ⟨d, r ++ [n % 10], by rw [hr]; rfl, hd⟩

theorem length_text (n : Numeral) : n.text.length = n.length := List.length_map ..

theorem length_ofNat_le_iff {n k : Nat} (hk : 0 < k) : (ofNat n).length ≤ k ↔ n < 10 ^ k := by
  rw [← length_text, text_ofNat, Text.ofNat, List.length_map]
  exact Nat.length_toDigits_le_iff (by decide) hk

theorem value_lt {n : Numeral} (h : ∀ d ∈ n, d < 10) : n.value < 10 ^ n.length := by
  induction n using List.reverseRecOn with
  | nil => exact Nat.one_pos
  | append_singleton n d ih =>
      obtain ⟨hn, hd⟩ := List.forall_mem_append.1 h
      have hlt := ih hn
      have hten : d < 10 := hd d (List.mem_singleton_self d)
      rw [value_append_singleton, List.length_append, List.length_singleton, Nat.pow_succ]
      omega

theorem value_append_zeros (n : Numeral) (k : Nat) :
    value (n ++ List.replicate k 0) = n.value * 10 ^ k := by
  induction k with
  | zero => simp
  | succ k ih =>
      rw [List.replicate_succ', ← List.append_assoc, value_append_singleton, ih, Nat.pow_succ]
      ac_rfl

theorem value_zeros_append (k : Nat) (n : Numeral) :
    value (List.replicate k 0 ++ n) = n.value := by
  induction k with
  | zero => rfl
  | succ k ih => simpa [List.replicate_succ, value] using ih

end Numeral
end JsonnetPreview
