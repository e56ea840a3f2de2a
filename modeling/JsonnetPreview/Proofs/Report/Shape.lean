import JsonnetPreview.Proofs.Text.Numeral
import JsonnetPreview.Report.Location
import Mathlib.Data.List.Infix

namespace JsonnetPreview.Report

open Numeral

/-- Pieces of which none runs on into the next one. -/
def Separated : List Piece → Prop
  | [] => True
  | .mark c :: ps => (CodePoint.char c).digit? = none ∧ Separated ps
  | .numeral :: ps => ps.head? ≠ some .numeral ∧ Separated ps

theorem Shape.separated_pieces (s : Shape) : Separated s.pieces := by
  cases s <;> simp [pieces, Separated] <;> decide

theorem scanPieces_mark (m : Char) (ps : List Piece) (t : Text) :
    scanPieces (.mark m :: ps) (.char m :: t) = scanPieces ps t := if_pos rfl

theorem scanPieces_mark_eq_none {m : Char} {t : Text} (h : t.head? ≠ some (.char m))
    (ps : List Piece) : scanPieces (.mark m :: ps) t = none := by
  cases t with
  | nil => rfl
  | cons c t => exact if_neg fun hc => h (by rw [hc]; rfl)

theorem scanPieces_numeral_eq_none {t : Text} (ht : Ends t) (ps : List Piece) :
    scanPieces (.numeral :: ps) t = none := by
  rw [scanPieces, scan_of_ends ht]

inductive Spells : List Piece → List Numeral → Text → Prop
  | nil : Spells [] [] []
  | mark {ps : List Piece} {ns : List Numeral} {q : Text} (m : Char) (h : Spells ps ns q) :
      Spells (.mark m :: ps) ns (.char m :: q)
  | numeral {n : Numeral} {u : Text} {ps : List Piece} {ns : List Numeral} {q : Text}
      (hn : n.Spells u) (h : Spells ps ns q) : Spells (.numeral :: ps) (n :: ns) (u ++ q)

theorem exists_spells_of_scanPieces {ps : List Piece} {ns : List Numeral} {t rest : Text}
    (h : scanPieces ps t = some (ns, rest)) : ∃ q, t = q ++ rest ∧ Spells ps ns q := by
  induction ps generalizing ns t with
  | nil =>
      cases h
      exact ⟨[], rfl, .nil⟩
  | cons p ps ih =>
      cases p with
      | mark m =>
          by_cases hm : t.head? = some (.char m)
          · obtain ⟨t, rfl⟩ := List.head?_eq_some_iff.1 hm
            rw [scanPieces_mark] at h
            obtain ⟨q, rfl, hq⟩ := ih h
            exact ⟨.char m :: q, rfl, .mark m hq⟩
          · rw [scanPieces_mark_eq_none hm] at h
            cases h
      | numeral =>
          obtain ⟨u, ht, hu⟩ := exists_of_scan t
          rw [scanPieces] at h
          split at h
          next => cases h
          next n r hne hscan =>
            rw [hscan] at ht hu
            obtain ⟨⟨ms, rest'⟩, hrest, he⟩ := Option.map_eq_some_iff.1 h
            obtain ⟨rfl, rfl⟩ := Prod.mk.inj he
            obtain ⟨q, rfl, hq⟩ := ih hrest
            have hn : n ≠ [] := fun hn => hne (by rw [hn])
            exact ⟨u ++ q, by rw [ht, List.append_assoc], .numeral ⟨hn, hu⟩ hq⟩

namespace Spells

variable {ps : List Piece} {ns : List Numeral} {q : Text}

theorem ends_append (h : Spells ps ns q) (hs : Separated ps) (hh : ps.head? ≠ some .numeral)
    {t : Text} (ht : Ends t) : Ends (q ++ t) := by
  cases h with
  | nil => exact ht
  | mark m h => exact ends_cons.2 hs.1
  | numeral hn h => exact absurd rfl hh

theorem scanPieces_append (h : Spells ps ns q) (hs : Separated ps) {t : Text} (ht : Ends t) :
    scanPieces ps (q ++ t) = some (ns, t) := by
  induction h with
  | nil => rfl
  | mark m h ih =>
      rw [List.cons_append, scanPieces_mark]
      exact ih hs.2
  | @numeral n u ps ns q hn h ih =>
      have hscan : scan (u ++ (q ++ t)) = (n, q ++ t) :=
        scan_append hn.digits (h.ends_append hs.2 hs.1 ht)
      rw [List.append_assoc, scanPieces, hscan]
      split
      next he => exact absurd (Prod.mk.inj he).1 hn.ne_nil
      next he =>
        obtain ⟨rfl, rfl⟩ := Prod.mk.inj he
        rw [ih hs.2]
        rfl

theorem exists_infix (h : Spells ps ns q) {n : Numeral} (hn : n ∈ ns) :
    ∃ u, u <:+: q ∧ n.Spells u := by
  induction h with
  | nil => cases hn
  | mark m h ih =>
      obtain ⟨u, hu, hnu⟩ := ih hn
      exact ⟨u, List.infix_cons hu, hnu⟩
  | @numeral k v ps ns q hk h ih =>
      rcases List.mem_cons.1 hn with rfl | hn
      · exact ⟨v, (List.prefix_append v q).isInfix, hk⟩
      · obtain ⟨u, hu, hnu⟩ := ih hn
        exact ⟨u, hu.trans (List.suffix_append v q).isInfix, hnu⟩

theorem forall_mem {P : CodePoint → Prop} (h : Spells ps ns q)
    (hmark : ∀ m, .mark m ∈ ps → P (.char m)) (hdigit : ∀ c, c.digit?.isSome → P c) :
    ∀ c ∈ q, P c := by
  induction h with
  | nil => exact List.forall_mem_nil _
  | mark m h ih =>
      exact List.forall_mem_cons.2
        ⟨hmark m (List.mem_cons_self ..), ih fun m hm => hmark m (List.mem_cons_of_mem _ hm)⟩
  | numeral hn h ih =>
      exact List.forall_mem_append.2
        ⟨fun c hc => hdigit c (hn.isSome_digit? hc), ih fun m hm => hmark m (List.mem_cons_of_mem _ hm)⟩

theorem of_mark {m : Char} (h : Spells (.mark m :: ps) ns q) :
    ∃ t, q = .char m :: t ∧ Spells ps ns t := by
  cases h with
  | mark m h => exact ⟨_, rfl, h⟩

theorem exists_cons {s : Shape} (h : Spells s.pieces ns q) :
    ∃ c t, q = c :: t ∧ (c = .char '(' ∨ c.digit?.isSome) := by
  have hdigit {ps : List Piece} (hps : Spells (.numeral :: ps) ns q) :
      ∃ c t, q = c :: t ∧ (c = .char '(' ∨ c.digit?.isSome) := by
    cases hps with
    | @numeral n u ps ns q hn h =>
        obtain ⟨c, u, rfl⟩ := List.exists_cons_of_ne_nil hn.text_ne_nil
        exact ⟨c, u ++ q, rfl, .inr (hn.isSome_digit? (List.mem_cons_self ..))⟩
  cases s with
  | parenthesized =>
      obtain ⟨t, rfl, -⟩ := h.of_mark
      exact ⟨_, t, rfl, .inl rfl⟩
  | multiline | line | point => exact hdigit h

end Spells

theorem scanPieces_append (ps qs : List Piece) (t : Text) : scanPieces (ps ++ qs) t =
    (scanPieces ps t).bind fun (ns, rest) =>
      (scanPieces qs rest).map fun (ms, rest) => (ns ++ ms, rest) := by
  induction ps generalizing t with
  | nil => simp [scanPieces]
  | cons p ps ih =>
      cases p with
      | mark m =>
          cases t with
          | nil => rfl
          | cons c t => by_cases hc : c = .char m <;> simp [scanPieces, hc, ih]
      | numeral =>
          rw [List.cons_append, scanPieces, scanPieces]
          split
          next => rfl
          next n r _ _ =>
            rw [ih]
            cases scanPieces ps r with
            | none => rfl
            | some found =>
                simp only [Option.bind_some, Option.map_some, Option.map_map]
                rfl

theorem endsPosition_iff (t : Text) :
    endsPosition t = true ↔ ∀ c ∈ t.head?, c.isBlank = true ∨ c = .char ':' := by
  cases t <;> simp [endsPosition]

theorem ends_of_endsPosition {t : Text} (h : endsPosition t = true) : Ends t := by
  intro c hc
  rcases (endsPosition_iff t).1 h c hc with hb | rfl
  · exact CodePoint.digit?_of_isBlank hb
  · decide

/-- One shape goes on where another one ends. -/
def Shape.Extends (s' s : Shape) : Prop := ∃ m ps, s'.pieces = s.pieces ++ .mark m :: ps

theorem Shape.extends_iff (s' s : Shape) :
    s'.Extends s ↔ (s', s) ∈ [(multiline, line), (multiline, point), (line, point)] := by
  cases s' <;> cases s <;> simp [Extends, pieces]

theorem head?_of_scanPieces {s : Shape} {t : Text} {a : List Numeral × Text}
    (h : scanPieces s.pieces t = some a) : t.head? = some (.char '(') ↔ s = .parenthesized := by
  have hdigits (ps : List Piece) (hps : scanPieces (.numeral :: ps) t = some a) :
      t.head? ≠ some (.char '(') := by
    intro hhead
    have hends : Ends t := by
      rw [Ends, hhead]
      rintro c ⟨⟩
      decide
    rw [scanPieces_numeral_eq_none hends] at hps
    cases hps
  cases s with
  | parenthesized =>
      refine ⟨fun _ => rfl, fun _ => ?_⟩
      by_contra hhead
      rw [Shape.pieces, scanPieces_mark_eq_none hhead] at h
      cases h
  | multiline | line | point =>
      refine ⟨fun hhead => absurd hhead (hdigits _ h), fun hs => ?_⟩
      cases hs

namespace Reading

theorem ofShape?_of_scan {s : Shape} {t rest : Text} {ns : List Numeral}
    (h : scanPieces s.pieces t = some (ns, rest)) (hr : endsPosition rest = true) :
    ofShape? s t = some ⟨s, ns, rest⟩ := by
  simp [ofShape?, h, hr]

theorem of?_eq (t : Text) : of? t = (ofShape? .parenthesized t).or
    ((ofShape? .multiline t).or ((ofShape? .line t).or (ofShape? .point t))) := by
  simp only [of?, Shape.all, List.findSome?]
  cases ofShape? .parenthesized t <;> cases ofShape? .multiline t <;> cases ofShape? .line t <;>
    cases ofShape? .point t <;> rfl

theorem ofShape?_eq_some_iff {s : Shape} {t : Text} {reading : Reading} :
    ofShape? s t = some reading ↔ reading.shape = s ∧
      scanPieces s.pieces t = some (reading.numerals, reading.rest) ∧
        endsPosition reading.rest = true := by
  constructor
  · intro h
    obtain ⟨⟨ns, rest⟩, hscan, h⟩ := Option.bind_eq_some_iff.1 h
    obtain ⟨hends, h⟩ := Option.ite_none_right_eq_some.1 h
    cases h
    exact ⟨rfl, hscan, hends⟩
  · rintro ⟨rfl, hscan, hends⟩
    exact ofShape?_of_scan hscan hends

/-- Of two shapes that fit a text, one is an extension of the other. -/
theorem extends_or_extends {s s' : Shape} {t : Text} {a b : Reading} (h : ofShape? s t = some a)
    (h' : ofShape? s' t = some b) : s = s' ∨ s.Extends s' ∨ s'.Extends s := by
  have hparen : s = .parenthesized ↔ s' = .parenthesized :=
    (head?_of_scanPieces (ofShape?_eq_some_iff.1 h).2.1).symm.trans
      (head?_of_scanPieces (ofShape?_eq_some_iff.1 h').2.1)
  cases s <;> cases s' <;> simp [Shape.extends_iff] at hparen ⊢

theorem length_rest_lt {s s' : Shape} {t : Text} {a b : Reading} (h : ofShape? s t = some a)
    (h' : ofShape? s' t = some b) (hs : s'.Extends s) : b.rest.length < a.rest.length := by
  obtain ⟨m, ps, hpieces⟩ := hs
  have hscan' := (ofShape?_eq_some_iff.1 h').2.1
  rw [hpieces, scanPieces_append, (ofShape?_eq_some_iff.1 h).2.1, Option.bind_some] at hscan'
  obtain ⟨⟨ms, rest⟩, hrest, he⟩ := Option.map_eq_some_iff.1 hscan'
  obtain ⟨q, hq, hspells⟩ := exists_spells_of_scanPieces hrest
  obtain ⟨u, rfl, -⟩ := hspells.of_mark
  obtain rfl : rest = b.rest := (Prod.mk.inj he).2
  rw [hq, List.cons_append, List.length_cons, List.length_append]
  omega

theorem fits_of_of? {t : Text} {reading : Reading} (h : of? t = some reading) :
    ofShape? reading.shape t = some reading ∧
      ∀ s, s.Extends reading.shape → ofShape? s t = none := by
  simp only [of?_eq, Option.or_eq_some_iff] at h
  rcases h with h | ⟨-, h | ⟨hm, h | ⟨hl, h⟩⟩⟩ <;>
    rw [(ofShape?_eq_some_iff.1 h).1] <;> refine ⟨h, fun s hs => ?_⟩ <;>
      rw [Shape.extends_iff] at hs
  case inl => simp at hs
  case inr.inl => simp at hs
  case inr.inr.inl =>
    obtain rfl : s = .multiline := by simpa using hs
    exact hm
  case inr.inr.inr =>
    obtain rfl | rfl : s = .multiline ∨ s = .line := by simpa using hs
    · exact hm
    · exact hl

theorem of?_eq_none_iff {t : Text} : of? t = none ↔ ∀ s, ofShape? s t = none := by
  rw [of?, List.findSome?_eq_none_iff]
  exact ⟨fun h s => h s (by cases s <;> simp [Shape.all]), fun h s _ => h s⟩

/-- What is read is the shape that fits and of which no extension does. -/
theorem of?_eq_some_iff {t : Text} {reading : Reading} : of? t = some reading ↔
    ofShape? reading.shape t = some reading ∧
      ∀ s, s.Extends reading.shape → ofShape? s t = none := by
  refine ⟨fits_of_of?, fun ⟨hfits, hlast⟩ => ?_⟩
  cases hof : of? t with
  | none => simp [of?_eq_none_iff.1 hof] at hfits
  | some other =>
      obtain ⟨hother, hotherLast⟩ := fits_of_of? hof
      rcases extends_or_extends hfits hother with hs | hs | hs
      · rw [← hs, hfits] at hother
        exact hother.symm
      · simp [hotherLast _ hs] at hfits
      · simp [hlast _ hs] at hother

end Reading

theorem Spells.of?_eq {s : Shape} {ns : List Numeral} {q : Text} (h : Spells s.pieces ns q) :
    Reading.of? q = some ⟨s, ns, []⟩ := by
  have hscan : scanPieces s.pieces q = some (ns, []) := by
    simpa using h.scanPieces_append s.separated_pieces ends_nil
  refine Reading.of?_eq_some_iff.2 ⟨Reading.ofShape?_of_scan hscan rfl, ?_⟩
  rintro s' ⟨m, ps, hpieces⟩
  rw [Reading.ofShape?, hpieces, Report.scanPieces_append, hscan]
  rfl

end JsonnetPreview.Report
