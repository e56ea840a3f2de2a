import JsonnetPreview.Proofs.Report.Shape
import JsonnetPreview.Proofs.Text.Trim

namespace JsonnetPreview.Report

open Numeral Text

def writePieces : List Piece → List Numeral → Text
  | [], _ => []
  | .mark c :: ps, ns => .char c :: writePieces ps ns
  | .numeral :: ps, ns => (ns.headD []).text ++ writePieces ps ns.tail

theorem spells_writePieces {ps : List Piece} {ns : List Numeral} (hn : ∀ n ∈ ns, n.Readable)
    (hlen : ns.length = ps.count .numeral) : Spells ps ns (writePieces ps ns) := by
  induction ps generalizing ns with
  | nil =>
      obtain rfl : ns = [] := List.length_eq_zero_iff.1 hlen
      exact .nil
  | cons p ps ih =>
      cases p with
      | mark m => exact .mark m (ih hn (by simpa using hlen))
      | numeral =>
          cases ns with
          | nil => simp at hlen
          | cons n ns =>
              obtain ⟨hr, hn⟩ := List.forall_mem_cons.1 hn
              exact .numeral ⟨hr.ne_nil, digits_text hr.digits⟩ (ih hn (by simpa using hlen))

theorem mapM_value?_of_length_le {ns : List Numeral} (h : ∀ n ∈ ns, n.length ≤ digitLimit) :
    ns.mapM Numeral.value? = .ok (ns.map Numeral.value) := by
  induction ns with
  | nil => rfl
  | cons n ns ih =>
      obtain ⟨hn, hns⟩ := List.forall_mem_cons.1 h
      rw [List.mapM_cons, value?_of_length_le hn, ih hns]
      rfl

namespace Shape

def write (s : Shape) (ns : List Numeral) : Text := writePieces s.pieces ns

def arity (s : Shape) : Nat := s.pieces.count .numeral

/-- A shape with numerals in it is a notation of a range. -/
structure Denotes (s : Shape) (ns : List Numeral) (r : LocationRange) : Prop where
  readable : ∀ n ∈ ns, n.Readable
  denote : s.denote (ns.map Numeral.value) = some r
  isValid : r.isValid = true

theorem length_of_denote {s : Shape} {ns : List Nat} {r : LocationRange}
    (h : s.denote ns = some r) : ns.length = s.arity := by
  cases s <;> rcases ns with _ | ⟨l, _ | ⟨c, _ | ⟨l', _ | ⟨c', _ | ⟨_, _⟩⟩⟩⟩⟩ <;>
    first | rfl | cases h

theorem Denotes.length {s : Shape} {ns : List Numeral} {r : LocationRange} (h : s.Denotes ns r) :
    ns.length = s.arity := by
  rw [← length_of_denote h.denote, List.length_map]

theorem mark_mem_pieces {s : Shape} {m : Char} (h : .mark m ∈ s.pieces) :
    m ∈ ['(', ':', ')', '-'] := by
  cases s <;> simp [pieces] at h ⊢ <;> tauto

theorem not_isBlank_of_spells {s : Shape} {ns : List Numeral} {q : Text} (h : Spells s.pieces ns q) :
    ∀ c ∈ q, c.isBlank = false := by
  have hmarks : ['(', ':', ')', '-'].all (fun m => !(CodePoint.char m).isBlank) = true := by decide
  refine h.forall_mem (fun m hm => ?_) fun c => CodePoint.not_isBlank_of_digit?
  simpa using List.all_eq_true.1 hmarks m (mark_mem_pieces hm)

namespace Denotes

variable {s : Shape} {ns : List Numeral} {r : LocationRange}

theorem spells (h : s.Denotes ns r) : Spells s.pieces ns (s.write ns) :=
  spells_writePieces h.readable h.length

theorem not_isBlank (h : s.Denotes ns r) : ∀ c ∈ s.write ns, c.isBlank = false :=
  not_isBlank_of_spells h.spells

theorem mapM_value? (h : s.Denotes ns r) : ns.mapM Numeral.value? = .ok (ns.map Numeral.value) :=
  mapM_value?_of_length_le fun n hn => (h.readable n hn).length_le

end Denotes

end Shape

/-- White space, or a colon with white space around it, all that there is of it. -/
inductive Leads : Text → Text → Prop
  | bare {b t : Text} (hb : IsBlank b) (ht : ∀ c ∈ t.head?, c.isBlank = false ∧ c ≠ .char ':') :
      Leads b t
  | colon {b u t : Text} (hb : IsBlank b) (hu : IsBlank u)
      (ht : ∀ c ∈ t.head?, c.isBlank = false) : Leads (b ++ ":" ++ u) t

namespace Reading

theorem exists_leads (t : Text) : ∃ lead, t = lead ++ skipLead t ∧ Leads lead (skipLead t) := by
  obtain ⟨b, hb, ht⟩ := exists_trimStart t
  have hhead := not_isBlank_head_trimStart t
  rw [skipLead]
  split
  next r hr =>
    obtain ⟨u, hu, hr'⟩ := exists_trimStart r
    refine ⟨b ++ ":" ++ u, ?_, .colon hb hu (not_isBlank_head_trimStart r)⟩
    rw [List.append_assoc, ← hr', List.append_assoc]
    exact ht.trans (by rw [hr]; rfl)
  next hr =>
    refine ⟨b, ht, .bare hb fun c hc => ⟨hhead c hc, ?_⟩⟩
    rintro rfl
    obtain ⟨r, hcolon⟩ := List.head?_eq_some_iff.1 hc
    exact hr r hcolon

theorem skipLead_append {lead t : Text} (h : Leads lead t) : skipLead (lead ++ t) = t := by
  cases h with
  | bare hb ht =>
      rw [skipLead, trimStart_append hb, trimStart_of_head fun c hc => (ht c hc).1]
      split
      next r => exact absurd rfl (ht (.char ':') rfl).2
      next => rfl
  | @colon b u t hb hu ht =>
      have htrim : trimStart (b ++ ":" ++ u ++ t) = .char ':' :: (u ++ t) := by
        rw [List.append_assoc, List.append_assoc, trimStart_append hb]
        exact trimStart_cons_of_not_isBlank (by decide)
      rw [skipLead, htrim]
      exact (trimStart_append hu t).trans (trimStart_of_head ht)

end Reading

theorem positionLength_append {lead q rest : Text} {reading : Reading}
    (hlead : Leads lead (q ++ rest)) (h : Reading.of? (q ++ rest) = some reading)
    (hrest : reading.rest = rest) : positionLength (lead ++ (q ++ rest)) = (lead ++ q).length := by
  rw [positionLength, Reading.skipLead_append hlead, h]
  simp only [hrest, List.length_append]
  omega

/-- A text that can stand behind a position and does not go on with it. -/
structure Delimited (t : Text) : Prop where
  endsPosition : endsPosition t = true
  colon : ∀ r, t = .char ':' :: r → Ends r

namespace Delimited

theorem of_isBlank {t : Text} (h : ∀ c ∈ t.head?, c.isBlank = true) : Delimited t := by
  cases t with
  | nil => exact ⟨rfl, nofun⟩
  | cons c t =>
      have hc : c.isBlank = true := h c rfl
      refine ⟨by simp [Report.endsPosition, hc], ?_⟩
      rintro r hr
      obtain ⟨rfl, -⟩ := List.cons.inj hr
      cases hc

theorem ends {t : Text} (h : Delimited t) : Ends t := ends_of_endsPosition h.endsPosition

theorem head?_ne_minus {t : Text} (h : Delimited t) : t.head? ≠ some (.char '-') := by
  have he := h.endsPosition
  cases t with
  | nil => simp
  | cons c t =>
      rintro hc
      obtain rfl : c = .char '-' := by simpa using hc
      cases he

theorem scanPieces_colon {t : Text} (h : Delimited t) (ps : List Piece) :
    scanPieces (.mark ':' :: .numeral :: ps) t = none := by
  cases t with
  | nil => rfl
  | cons c t =>
      by_cases hc : c = .char ':'
      · subst hc
        rw [scanPieces_mark, scanPieces_numeral_eq_none (h.colon t rfl)]
      · exact scanPieces_mark_eq_none (by simpa using hc) _

end Delimited

namespace Shape.Denotes

open Reading

variable {s : Shape} {ns : List Numeral} {r : LocationRange} {rest : Text}

theorem of?_write (h : s.Denotes ns r) (hrest : Delimited rest) :
    of? (s.write ns ++ rest) = some ⟨s, ns, rest⟩ := by
  have hscan := h.spells.scanPieces_append s.separated_pieces hrest.ends
  refine of?_eq_some_iff.2 ⟨ofShape?_of_scan hscan hrest.endsPosition, fun s' hs => ?_⟩
  obtain ⟨m, ps, hpieces, hnone⟩ : ∃ m ps, s'.pieces = s.pieces ++ .mark m :: ps ∧
      scanPieces (.mark m :: ps) rest = none := by
    have hminus (ps : List Piece) : scanPieces (.mark '-' :: ps) rest = none :=
      scanPieces_mark_eq_none hrest.head?_ne_minus ps
    obtain ⟨rfl, rfl⟩ | ⟨rfl, rfl⟩ | ⟨rfl, rfl⟩ : s' = .multiline ∧ s = .line ∨
        s' = .multiline ∧ s = .point ∨ s' = .line ∧ s = .point := by
      simpa [extends_iff] using hs
    · exact ⟨_, _, rfl, hrest.scanPieces_colon []⟩
    · exact ⟨_, _, rfl, hminus _⟩
    · exact ⟨_, _, rfl, hminus _⟩
  rw [ofShape?, hpieces, scanPieces_append, hscan]
  simp [hnone]

theorem head_write (h : s.Denotes ns r) (rest : Text) :
    ∀ c ∈ (s.write ns ++ rest).head?, c.isBlank = false ∧ c ≠ .char ':' := by
  obtain ⟨c, t, hq, hc⟩ := h.spells.exists_cons
  rw [hq]
  rintro d ⟨⟩
  rcases hc with rfl | hc
  · decide
  · refine ⟨CodePoint.not_isBlank_of_digit? hc, ?_⟩
    rintro rfl
    exact absurd hc (by decide)

theorem leads (h : s.Denotes ns r) (rest : Text) : Leads [] (s.write ns ++ rest) :=
  .bare (List.forall_mem_nil _) (h.head_write rest)

theorem read?_of_leads (h : s.Denotes ns r) (hrest : Delimited rest) {lead : Text}
    (hlead : Leads lead (s.write ns ++ rest)) :
    LocationRange.read? (lead ++ (s.write ns ++ rest)) = .ok (some r) := by
  rw [LocationRange.read?, skipLead_append hlead, h.of?_write hrest]
  have hfilter : (s.denote (ns.map Numeral.value)).filter LocationRange.isValid = some r := by
    rw [h.denote, Option.filter_some, if_pos h.isValid]
  simp only [h.mapM_value?, bind, Except.bind, pure, Except.pure, hfilter]

theorem read?_write (h : s.Denotes ns r) (hrest : Delimited rest) :
    LocationRange.read? (.char ':' :: (s.write ns ++ rest)) = .ok (some r) :=
  h.read?_of_leads hrest <| .colon (b := []) (u := []) (List.forall_mem_nil _)
    (List.forall_mem_nil _) fun c hc => (h.head_write rest c hc).1

end Shape.Denotes
end JsonnetPreview.Report
