import JsonnetPreview.Preview.Stream
import JsonnetPreview.Proofs.Json.Reads
import JsonnetPreview.Proofs.Text.Lines

namespace JsonnetPreview

namespace Json

/-- Where the reader can be at the beginning of a line. -/
def Mode.AtLineStart : Mode → Prop
  | .value _ | .key .. | .colon .. | .after _ => True
  | _ => False

variable [Stack] {s s' : State} {p : Nat}

theorem atLineStart_of_newline (hs : s.mode.Plain) (h : step s p (.char '\n') = .ok s') :
    s'.mode.AtLineStart := by
  obtain ⟨mode, scopes⟩ := s
  cases mode with
  | value | key | colon =>
      cases h
      trivial
  | string | escape => cases h
  | hex role start body digits => simp [step, hexDigit?] at h
  | word | minus | number | after =>
      have hc : IsDelimiter (.char '\n') := isDelimiter_of_mem (by decide)
      obtain ⟨v, hv⟩ := value?_of_step hs trivial hc h
      rw [step_of_value? hv hc] at h
      cases h
      trivial

theorem step_point_ne_ok (hs : s.mode.AtLineStart) : step s p (.char '.') ≠ .ok s' := by
  obtain ⟨mode, scopes⟩ := s
  cases mode with
  | value mayClose => cases mayClose <;> exact nofun
  | key done mayClose => cases mayClose <;> exact nofun
  | colon => exact nofun
  | after v =>
      cases scopes with
      | nil => exact nofun
      | cons scope rest => cases scope <;> exact nofun
  | string | escape | hex | word | minus | number => exact hs.elim

theorem minus_of_step_dash (hs : s.mode.AtLineStart) (h : step s p (.char '-') = .ok s') :
    s'.mode = .minus p := by
  obtain ⟨mode, scopes⟩ := s
  cases mode with
  | value mayClose => cases mayClose <;> cases h <;> rfl
  | key done mayClose => cases mayClose <;> cases h
  | colon => cases h
  | after v =>
      cases scopes with
      | nil => cases h
      | cons scope rest => cases scope <;> cases h
  | string | escape | hex | word | minus | number => exact hs.elim

theorem run_mark_ne_ok (hs : s.mode.AtLineStart) {mark : Text}
    (hmark : mark = Stream.separator ∨ mark = Stream.endMark) (r : Text) :
    run s p (mark ++ r) ≠ .ok s' := by
  intro h
  rcases hmark with rfl | rfl
  · obtain ⟨m, hm, h⟩ := run_cons_eq_ok.1 h
    obtain ⟨m', hm', -⟩ := run_cons_eq_ok.1 h
    obtain ⟨mode, scopes⟩ := m
    cases minus_of_step_dash hs hm
    cases hm'
  · obtain ⟨m, hm, -⟩ := run_cons_eq_ok.1 h
    exact step_point_ne_ok hs hm

theorem Reads.not_mark {v : Json} {before after mark : Text}
    (h : Reads (before ++ (mark ++ after)) v)
    (hbefore : before = [] ∨ ∃ b, before = b ++ [.char '\n']) :
    ¬ (mark = Stream.separator ∨ mark = Stream.endMark) := by
  intro hmark
  obtain ⟨s, h, -⟩ := h
  obtain ⟨m, hm, h⟩ := run_append_eq_ok.1 h
  refine run_mark_ne_ok ?_ hmark after h
  rcases hbefore with rfl | ⟨b, rfl⟩
  · cases hm
    trivial
  · obtain ⟨m', hm', hm⟩ := run_append_eq_ok.1 hm
    obtain ⟨m'', hm'', hm⟩ := run_cons_eq_ok.1 hm
    cases hm
    exact atLineStart_of_newline (fits_run (s := start) trivial hm').1 hm''

end Json

namespace Stream

theorem splitLines_eq_splitOn (t : Text) : splitLines t = t.splitOn (.char '\n') := by
  induction t with
  | nil => rfl
  | cons c r ih =>
      rw [List.splitOn, List.splitOnP_cons_eq_if_modifyHead, splitLines, ih]
      by_cases hc : c = .char '\n'
      · simp [hc, List.splitOn]
      · cases h : List.splitOn (.char '\n') r with
        | nil => exact absurd h (List.splitOnP_ne_nil _ r)
        | cons line rest =>
            rw [List.splitOn] at h
            simp [hc, h]

theorem joinWith_splitLines (t : Text) : Text.joinWith "\n" (splitLines t) = t := by
  rw [splitLines_eq_splitOn]
  exact List.intercalate_splitOn _

end Stream

end JsonnetPreview
