import JsonnetPreview.Proofs.Json.Numbers
import JsonnetPreview.Yaml.Printer

namespace JsonnetPreview

namespace Pattern

theorem denotes_sequence_cons {a : Pattern} {ps : List Pattern} {t u : Text} (ha : Denotes a t)
    (hps : Denotes (sequence ps) u) : Denotes (sequence (a :: ps)) (t ++ u) :=
  denotes_mkSeq.2 (.seq ha hps)

theorem denotes_choice {p : Pattern} {ps : List Pattern} {t : Text} (hp : p ∈ ps)
    (h : Denotes p t) : Denotes (choice ps) t := by
  induction ps with
  | nil => cases hp
  | cons q ps ih =>
      refine denotes_mkAlt.2 ?_
      rcases List.mem_cons.1 hp with rfl | hp
      · exact .left h
      · exact .right (ih hp)

theorem denotes_char (c : Char) : Denotes (char c) [.char c] := .element (by simp)

theorem denotes_many_text {p : Char → Bool} (hp : ∀ d < 10, p (Nat.digitChar d) = true)
    {n : Numeral} (h : ∀ d ∈ n, d < 10) : Denotes (many (element p)) n.text := by
  induction n with
  | nil => exact .manyNil
  | cons d n ih =>
      obtain ⟨hd, hn⟩ := List.forall_mem_cons.1 h
      exact .manyCons (t := [.char (Nat.digitChar d)]) (.element (hp d hd)) (ih hn)

end Pattern

namespace Yaml

open Json (IsWhole fractionPart exponentPart exponentNumeral fractionPart_of_ne_nil)
open Layout (signed)
open Pattern

theorem signed_eq (negative : Bool) (t : Text) :
    signed negative t = (if negative then [.char '-'] else []) ++ t := by
  cases negative <;> rfl

theorem denotes_sign (negative : Bool) :
    Denotes (opt sign) (if negative then [.char '-'] else []) := by
  cases negative with
  | false => exact .left .empty
  | true => exact .right (.element (by decide))

theorem isDigit_digitChar : ∀ d < 10, (Nat.digitChar d).isDigit = true := by decide

theorem isDigitOrUnderscore_digitChar :
    ∀ d < 10, ((Nat.digitChar d).isDigit || Nat.digitChar d == '_') = true := by decide

theorem IsWhole.exists_cons {w : Numeral} (h : IsWhole w) : ∃ d r, w = d :: r := by
  rcases h.leads with rfl | ⟨d, r, rfl, -⟩
  · exact ⟨0, [], rfl⟩
  · exact ⟨d, r, rfl⟩

theorem denotes_decimalDigits {w : Numeral} (h : IsWhole w) : Denotes decimalDigits w.text := by
  obtain ⟨d, r, rfl⟩ := IsWhole.exists_cons h
  obtain ⟨hd, hr⟩ := List.forall_mem_cons.1 h.digits
  exact .seq (t := [.char (Nat.digitChar d)]) (.element (isDigit_digitChar d hd))
    (denotes_many_text isDigitOrUnderscore_digitChar hr)

theorem denotes_exponent (negative : Bool) {e : Numeral} (hne : e ≠ []) (he : ∀ d ∈ e, d < 10) :
    Denotes exponent (exponentPart negative e) := by
  obtain ⟨d, r, rfl⟩ := List.exists_cons_of_ne_nil hne
  obtain ⟨hd, hr⟩ := List.forall_mem_cons.1 he
  have hsign : Denotes sign [.char (if negative then '-' else '+')] := by
    cases negative <;> exact .element (by decide)
  have hdigits : Denotes (many1 digit) (Numeral.text (d :: r)) :=
    .seq (t := [.char (Nat.digitChar d)]) (.element (isDigit_digitChar d hd))
      (denotes_many_text isDigit_digitChar hr)
  have hlast : Denotes (sequence [many1 digit]) (Numeral.text (d :: r) ++ []) :=
    denotes_sequence_cons hdigits .empty
  rw [List.append_nil] at hlast
  exact denotes_sequence_cons (t := [.char 'e']) (.element (by decide))
    (denotes_sequence_cons hsign hlast)

theorem isMatch_ofInt (n : Int) : integer.isMatch (Text.ofInt n) = true := by
  rw [matches_iff_denotes, ← Json.signed_natAbs, signed_eq, ← Numeral.text_ofNat]
  refine .seq (denotes_sign _) ?_
  obtain hzero | ⟨d, r, hn, hd⟩ := (Json.isWhole_ofNat n.natAbs).leads
  · rw [hzero]
    exact denotes_choice (p := char '0') (by simp) (denotes_char '0')
  · have hdigits := (Json.isWhole_ofNat n.natAbs).digits
    rw [hn] at hdigits ⊢
    obtain ⟨hlt, hr⟩ := List.forall_mem_cons.1 hdigits
    have hpositive : ∀ d < 10, d ≠ 0 →
        ((Nat.digitChar d).isDigit && Nat.digitChar d != '0') = true := by decide
    exact denotes_choice (p := positiveDigits) (by simp)
      (.seq (t := [.char (Nat.digitChar d)]) (.element (hpositive d hlt hd))
        (denotes_many_text isDigitOrUnderscore_digitChar hr))

inductive IsPointed : Text → Prop
  | positional {w f : Numeral} (hw : IsWhole w) (hf : ∀ d ∈ f, d < 10) (hne : f ≠ []) :
      IsPointed (w.text ++ fractionPart f)
  | scientific {w f : Numeral} (hw : IsWhole w) (hf : ∀ d ∈ f, d < 10) (hne : f ≠ [])
      (negative : Bool) {e : Numeral} (he : e ≠ []) (hdigits : ∀ d ∈ e, d < 10) :
      IsPointed (w.text ++ fractionPart f ++ exponentPart negative e)

theorem IsPointed.isMatch {t : Text} (h : IsPointed t) (negative : Bool) :
    float.isMatch (signed negative t) = true := by
  have hfloat {w f : Numeral} (hw : IsWhole w) (hf : ∀ d ∈ f, d < 10) (hne : f ≠ []) {e : Text}
      (he : Denotes (opt exponent) e) :
      Denotes float (signed negative (w.text ++ fractionPart f ++ e)) := by
    have hexponent : Denotes (sequence [opt exponent]) (e ++ []) := denotes_sequence_cons he .empty
    rw [List.append_nil] at hexponent
    rw [signed_eq, fractionPart_of_ne_nil hne, List.append_assoc]
    exact denotes_choice (List.mem_cons_self ..)
      (denotes_sequence_cons (denotes_sign negative)
        (denotes_sequence_cons (denotes_decimalDigits hw)
          (denotes_sequence_cons (t := [.char '.']) (denotes_char '.')
            (denotes_sequence_cons (denotes_many_text isDigitOrUnderscore_digitChar hf)
              hexponent))))
  rw [matches_iff_denotes]
  cases h with
  | positional hw hf hne => simpa using hfloat hw hf hne (.left .empty)
  | scientific hw hf hne negative he hdigits =>
      exact hfloat hw hf hne (.right (denotes_exponent negative he hdigits))

theorem digits_exponentNumeral (scale : Int) : ∀ d ∈ exponentNumeral scale, d < 10 :=
  List.forall_mem_append.2 ⟨by simp, (Json.isWhole_ofNat _).digits⟩

theorem exponentNumeral_ne_nil (scale : Int) : exponentNumeral scale ≠ [] := by
  obtain ⟨d, r, hr⟩ := IsWhole.exists_cons (Json.isWhole_ofNat scale.natAbs)
  simp [exponentNumeral, hr]

def IsNumeral (t : Text) (v : Json) : Prop :=
  ∃ m : Json.Mode, Json.run ⟨.value false, []⟩ 0 t = .ok ⟨m, []⟩ ∧ m.value? = some v

theorem IsNumeral.unique {t : Text} {v v' : Json} (h : IsNumeral t v) (h' : IsNumeral t v') :
    v = v' := by
  obtain ⟨m, hm, hv⟩ := h
  obtain ⟨m', hm', hv'⟩ := h'
  cases hm.symm.trans hm'
  exact Option.some.inj (hv.symm.trans hv')

theorem isNumeral_scientific {w f : Numeral} (hw : IsWhole w) (hf : ∀ d ∈ f, d < 10) {scale : Int}
    {x : Magnitude} (h : Magnitude.ofDecimal ⟨Numeral.value (w ++ f), scale - f.length⟩ = some x)
    (negative : Bool) :
    IsNumeral (signed negative (w.text ++ fractionPart f ++
      exponentPart (decide (scale < 0)) (exponentNumeral scale)))
      (.float (.finite negative x)) := by
  have hdigits : ∀ d ∈ exponentNumeral scale, d < 10 := digits_exponentNumeral scale
  have hne : exponentNumeral scale ≠ [] := exponentNumeral_ne_nil scale
  refine ⟨_, Json.run_scientific negative hw hf (decide (scale < 0)) hne hdigits false,
    Json.value?_fraction (.inr (by simpa using hne)) ?_ rfl⟩
  have hexp : (if decide (scale < 0) then -(scale.natAbs : Int) else scale.natAbs) = scale := by
    by_cases hs : scale < 0
    · rw [if_pos (decide_eq_true hs)]
      omega
    · rw [if_neg (by simpa using hs)]
      omega
  simp only [Json.NumberText.decimal, List.reverse_reverse, List.length_reverse,
    Json.value_exponentNumeral, hexp]
  exact h

/-- What is written of a magnitude has a point, and it is read as that magnitude. -/
structure Writes (t : Text) (x : Magnitude) : Prop where
  isPointed : IsPointed t
  isNumeral : ∀ negative, IsNumeral (signed negative t) (.float (.finite negative x))

theorem writes_of_writtenOut {t : Text} {w f : Numeral} {x : Magnitude}
    (h : Json.WrittenOut t w f x) : Writes t x where
  isPointed := h.text ▸ .positional h.whole h.digits h.ne_nil
  isNumeral negative := Json.run_writtenOut h negative false

def fractionOf (ds : Numeral) : Numeral := if ds.drop 1 = [] then [0] else ds.drop 1

theorem fractionOf_ne_nil (ds : Numeral) : fractionOf ds ≠ [] := by
  rw [fractionOf]
  split
  next => exact List.cons_ne_nil _ _
  next h => exact h

theorem digits_fractionOf {ds : Numeral} (h : IsWhole ds) : ∀ d ∈ fractionOf ds, d < 10 := by
  rw [fractionOf]
  split
  next => decide
  next => exact fun d hd => h.digits d (List.mem_of_mem_drop hd)

theorem ofDecimal_fractionOf {ds : Numeral} {e : Int} {x : Magnitude} (hds : IsWhole ds)
    (h : Magnitude.ofDecimal ⟨ds.value, e⟩ = some x) (hx : x ≠ .zero) :
    Magnitude.ofDecimal ⟨Numeral.value (ds.take 1 ++ fractionOf ds),
      ds.length + e - 1 - (fractionOf ds).length⟩ = some x := by
  obtain ⟨d, r, rfl⟩ := IsWhole.exists_cons hds
  cases r with
  | nil =>
      have hvalue : Numeral.value ([d] ++ [0]) = Numeral.value [d] * 10 ^ 1 := by
        simp [Numeral.value, Nat.mul_comm]
      have hexp : (([d] : Numeral).length : Int) + e - 1 - ([0] : Numeral).length =
          e - (1 : Nat) := by
        simp only [List.length_singleton]
        omega
      have hscale := Magnitude.ofDecimal_scale h hx 1
      rw [← hvalue, ← hexp] at hscale
      exact hscale
  | cons d' r =>
      have hexp : ((d :: d' :: r : Numeral).length : Int) + e - 1 - (d' :: r : Numeral).length =
          e := by
        simp only [List.length_cons]
        omega
      rw [← hexp] at h
      exact h

theorem scientific_eq {ds : Numeral} (hds : IsWhole ds) (point : Int) :
    layout.scientific ds.text point = Numeral.text (ds.take 1) ++
      fractionPart (fractionOf ds) ++
      exponentPart (decide (point - 1 < 0)) (exponentNumeral (point - 1)) := by
  obtain ⟨d, r, rfl⟩ := IsWhole.exists_cons hds
  rw [← Json.exponentText_eq]
  cases r <;> rfl

theorem writes_scientific {ds : Numeral} {e : Int} {x : Magnitude} (hds : IsWhole ds)
    (h : Magnitude.ofDecimal ⟨ds.value, e⟩ = some x) (hx : x ≠ .zero) :
    Writes (layout.scientific ds.text (ds.length + e)) x := by
  have hwhole := Json.isWhole_take hds Nat.one_pos
  rw [scientific_eq hds]
  exact ⟨.scientific hwhole (digits_fractionOf hds) (fractionOf_ne_nil ds) _
    (exponentNumeral_ne_nil _) (digits_exponentNumeral _),
    isNumeral_scientific hwhole (digits_fractionOf hds) (ofDecimal_fractionOf hds h hx)⟩

theorem writes_ofDecimal {c : Nat} {e : Int} {x : Magnitude}
    (h : Magnitude.ofDecimal ⟨c, e⟩ = some x) (hx : x ≠ .zero) :
    Writes (layout.ofDecimal ⟨c, e⟩) x := by
  have hne : Numeral.ofNat c ≠ [0] := by
    intro hzero
    rw [← Numeral.value_ofNat c, hzero] at h
    cases h
    exact hx rfl
  have hvalue : Magnitude.ofDecimal ⟨(Numeral.ofNat c).value, e⟩ = some x := by
    rwa [Numeral.value_ofNat]
  simp only [Layout.ofDecimal, ← Numeral.text_ofNat, Numeral.length_text]
  split
  · obtain ⟨w, f, hwf⟩ := Json.exists_writtenOut (Json.isWhole_ofNat c) hne hvalue hx
    exact writes_of_writtenOut hwf
  · exact writes_scientific (Json.isWhole_ofNat c) hvalue hx

theorem writes_shortest (x : Magnitude) : Writes (layout.ofDecimal x.shortest) x := by
  by_cases hx : x = .zero
  · subst hx
    exact writes_of_writtenOut Json.writtenOut_zero
  · exact writes_ofDecimal x.ofDecimal_shortest hx

theorem isMatch_render (x : Binary64) : float.isMatch (layout.render x) = true := by
  cases x with
  | finite negative x => exact (writes_shortest x).isPointed.isMatch negative
  | infinite negative => cases negative <;> rfl
  | nan => rfl

theorem not_isNumeral {t : Text} {fault : Json.Failure}
    (h : Json.run ⟨.value false, []⟩ 0 t = .error fault) (v : Json) : ¬IsNumeral t v := by
  rintro ⟨m, hm, -⟩
  cases h.symm.trans hm

theorem render_injective {x y : Binary64} (h : layout.render x = layout.render y) : x = y := by
  have hfinite (negative : Bool) (x : Magnitude) :
      IsNumeral (layout.render (.finite negative x)) (.float (.finite negative x)) :=
    (writes_shortest x).isNumeral negative
  have hinfinite (negative : Bool) (v : Json) :
      ¬IsNumeral (layout.render (.infinite negative)) v := by
    cases negative <;> exact not_isNumeral rfl v
  have hnan (v : Json) : ¬IsNumeral (layout.render .nan) v := not_isNumeral rfl v
  cases x with
  | finite negative x =>
      have hx := hfinite negative x
      cases y with
      | finite negative' y => exact Json.float.inj (hx.unique (h ▸ hfinite negative' y))
      | infinite negative' => exact absurd (h ▸ hx) (hinfinite negative' _)
      | nan => exact absurd (h ▸ hx) (hnan _)
  | infinite negative =>
      cases y with
      | finite negative' y => exact absurd (h ▸ hfinite negative' y) (hinfinite negative _)
      | infinite negative' => cases negative <;> cases negative' <;> first | rfl | cases h
      | nan => cases negative <;> cases h
  | nan =>
      cases y with
      | finite negative' y => exact absurd (h ▸ hfinite negative' y) (hnan _)
      | infinite negative' => cases negative' <;> cases h
      | nan => rfl

theorem text_injective {m n : Numeral} (hm : ∀ d ∈ m, d < 10) (hn : ∀ d ∈ n, d < 10)
    (h : m.text = n.text) : m = n := by
  have hdigits := congrArg (List.map CodePoint.digit?) h
  rw [Numeral.digits_text hm, Numeral.digits_text hn] at hdigits
  exact List.map_injective_iff.2 (fun _ _ => Option.some.inj) hdigits

theorem ofNat_injective {m n : Nat} (h : Text.ofNat m = Text.ofNat n) : m = n := by
  rw [← Numeral.text_ofNat, ← Numeral.text_ofNat] at h
  have hnumeral := text_injective (Json.isWhole_ofNat m).digits (Json.isWhole_ofNat n).digits h
  rw [← Numeral.value_ofNat m, hnumeral, Numeral.value_ofNat]

theorem exists_ofNat_eq_cons (n : Nat) :
    ∃ d < 10, ∃ r, Text.ofNat n = .char (Nat.digitChar d) :: r := by
  obtain ⟨d, r, hr⟩ := IsWhole.exists_cons (Json.isWhole_ofNat n)
  have hd : d < 10 := (Json.isWhole_ofNat n).digits d (by simp [hr])
  exact ⟨d, hd, Numeral.text r, by rw [← Numeral.text_ofNat, hr]; rfl⟩

theorem ofNat_ne_minus (n : Nat) (r : Text) : Text.ofNat n ≠ .char '-' :: r := by
  have hall : ∀ d < 10, Nat.digitChar d ≠ '-' := by decide
  obtain ⟨d, hd, t, ht⟩ := exists_ofNat_eq_cons n
  rw [ht]
  exact fun h => hall d hd (CodePoint.char.inj (List.cons.inj h).1)

theorem ofInt_injective {m n : Int} (h : Text.ofInt m = Text.ofInt n) : m = n := by
  cases m with
  | ofNat m =>
      cases n with
      | ofNat n => exact congrArg Int.ofNat (ofNat_injective h)
      | negSucc n => exact absurd h (ofNat_ne_minus m _)
  | negSucc m =>
      cases n with
      | ofNat n => exact absurd h.symm (ofNat_ne_minus n _)
      | negSucc n =>
          have hsucc : m + 1 = n + 1 := ofNat_injective (List.cons.inj h).2
          exact congrArg Int.negSucc (Nat.succ.inj hsucc)

end Yaml
end JsonnetPreview
