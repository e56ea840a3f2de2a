import JsonnetPreview.Proofs.Report.Grammar

namespace JsonnetPreview.Report

open Text

theorem Leads.of_append {lead q rest : Text} (h : Leads lead (q ++ rest)) (hq : q ≠ []) :
    Leads lead q := by
  obtain ⟨c, q, rfl⟩ := List.exists_cons_of_ne_nil hq
  cases h with
  | bare hb ht => exact .bare hb ht
  | colon hb hb' ht => exact .colon hb hb' ht

namespace Reading.Spells

variable {reading : Reading} {lead t q : Text} {r : LocationRange}

theorem ne_nil (hq : reading.Spells t q r) : q ≠ [] := by
  obtain ⟨c, u, hcons, -⟩ := hq.spells.exists_cons
  simp [hcons]

theorem leads_position (hq : reading.Spells t q r) (hlead : Leads lead t) : Leads lead q :=
  Leads.of_append (hq.text_eq ▸ hlead) hq.ne_nil

theorem positionLength_position (hq : reading.Spells t q r) (hlead : Leads lead t) :
    positionLength (lead ++ q) = (lead ++ q).length := by
  rw [positionLength, skipLead_append (hq.leads_position hlead), hq.spells.of?_eq]
  rfl

theorem read?_position (hq : reading.Spells t q r) (hlead : Leads lead t)
    (h : of? t = some reading) :
    LocationRange.read? (lead ++ q) = LocationRange.read? (lead ++ t) := by
  rw [LocationRange.read?, LocationRange.read?, skipLead_append hlead,
    skipLead_append (hq.leads_position hlead), hq.spells.of?_eq, h]

end Reading.Spells

/-- A text without a position has no length of one. Any other text is cut behind the longest position
that it begins with: what is cut off is read as the whole text is and ends where it did, and what is
left does not go on with the position. -/
theorem positionLength_agrees (token : Text) :
    positionLength token ≤ token.length ∧
      (positionLength token = 0 → LocationRange.read? token = .ok none) ∧
      (0 < positionLength token →
        LocationRange.read? (token.take (positionLength token)) = LocationRange.read? token ∧
          positionLength (token.take (positionLength token)) = positionLength token ∧
          (∀ c ∈ (token.drop (positionLength token)).head?, c.isBlank = true ∨ c = .char ':') ∧
          ∃ lead t q r, token = lead ++ t ∧ Leads lead t ∧ IsLongest t q r ∧
            token.take (positionLength token) = lead ++ q) ∧
      (HasShortNumerals token → ∃ range, LocationRange.read? token = .ok range) := by
  obtain ⟨lead, htoken, hlead⟩ := Reading.exists_leads token
  generalize ht : Reading.skipLead token = t at htoken hlead
  cases hof : Reading.of? t with
  | none =>
      have hzero : positionLength token = 0 := by rw [positionLength, ht, hof]
      have hnone : LocationRange.read? token = .ok none := by rw [LocationRange.read?, ht, hof]
      refine ⟨by omega, fun _ => hnone, fun h => by omega, fun h => h.exists_read?⟩
  | some reading =>
      obtain ⟨q, r, hq, hbegins⟩ := Reading.exists_spells (Reading.fits_of_of? hof).1
      have hlength : positionLength token = (lead ++ q).length := by
        rw [htoken, hq.text_eq]
        exact positionLength_append (hq.text_eq ▸ hlead) (hq.text_eq ▸ hof) rfl
      have hcut : token = (lead ++ q) ++ reading.rest := by
        rw [htoken, List.append_assoc, ← hq.text_eq]
      have hpos : 0 < (lead ++ q).length := by
        rw [List.length_append]
        have := List.length_pos_of_ne_nil hq.ne_nil
        omega
      have htake : token.take (lead ++ q).length = lead ++ q := by rw [hcut, List.take_left]
      have hdrop : token.drop (lead ++ q).length = reading.rest := by rw [hcut, List.drop_left]
      rw [hlength, htake, hdrop]
      refine ⟨?_, by omega, fun _ => ⟨?_, ?_, ?_, ?_⟩, fun h => h.exists_read?⟩
      · rw [hcut]
        exact (List.prefix_append _ _).length_le
      · rw [htoken]
        exact hq.read?_position hlead hof
      · exact hq.positionLength_position hlead
      · obtain ⟨rest, hrest, hends⟩ := hbegins.delimited
        rwa [List.append_cancel_left (hq.text_eq.symm.trans hrest)]
      · exact ⟨lead, t, q, r, htoken, hlead, Reading.isLongest_of_of? hof hq hbegins, rfl⟩

def columnsToken : Text := ":3:1-4:x"

theorem positionLength_agrees_columnsToken :
    0 < positionLength columnsToken ∧ HasShortNumerals columnsToken ∧
      LocationRange.read? ":3:1-4" = LocationRange.read? columnsToken ∧
      positionLength ":3:1-4" = positionLength columnsToken ∧
      ∃ range, LocationRange.read? columnsToken = .ok range := by
  have hpos : 0 < positionLength columnsToken := by decide
  have hshort : HasShortNumerals columnsToken := hasShortNumerals_of_length_le (by decide)
  obtain ⟨-, -, hcut, hreads⟩ := positionLength_agrees columnsToken
  obtain ⟨hread, hlength, -, -⟩ := hcut hpos
  have htake : columnsToken.take (positionLength columnsToken) = ":3:1-4" := by decide
  rw [htake] at hread hlength
  exact ⟨hpos, hshort, hread, hlength, hreads hshort⟩

end JsonnetPreview.Report
