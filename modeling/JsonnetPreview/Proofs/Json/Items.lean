import JsonnetPreview.Proofs.Json.Nesting
import JsonnetPreview.Proofs.Json.Reads
import Mathlib.Data.List.Forall2

namespace JsonnetPreview.Json

/-- How many arrays and objects are open at most in a text. -/
def nesting (t : Text) : Nat := Outline.deepest {} t

def State.item (done : List Json) (mayClose : Bool) : State := ⟨.value mayClose, [.items done]⟩

/-- A text of a value is read as it wherever there is room for it. -/
def TextOf (t : Text) (v : Json) : Prop := ∃ stack : Stack, @Reads stack t v

theorem TextOf.trim {t : Text} {v : Json} (h : TextOf t v) : TextOf (Text.trim t) v := by
  obtain ⟨wide, h⟩ := h
  exact ⟨wide, @Reads.trim wide v t h⟩

theorem TextOf.ne_nil {t : Text} {v : Json} (h : TextOf t v) : t ≠ [] := by
  obtain ⟨wide, h⟩ := h
  exact @Reads.ne_nil wide v t h

theorem joinWith_comma_cons_cons (t u : Text) (ts : List Text) (r : Text) :
    Text.joinWith "," (t :: u :: ts) ++ r =
      t ++ .char ',' :: (Text.joinWith "," (u :: ts) ++ r) := by
  rw [Text.joinWith, List.intercalate_cons_cons, List.append_assoc, List.append_assoc]
  rfl

section Again

variable {wide : Stack} [Stack] {t : Text} {v : Json}

theorem Reads.again (h : @Reads wide t v) (hlimit : nesting t ≤ Stack.reading) : Reads t v := by
  obtain ⟨s, hs, hv⟩ := h
  exact ⟨s.under [], run_under (s := start) [] trivial hs hlimit, by simpa [State.under] using hv⟩

end Again

variable [stack : Stack] {t : Text} {v : Json}

theorem TextOf.reads : TextOf t v → nesting t ≤ Stack.reading → Reads t v
  | ⟨_, h⟩ => @Reads.again _ stack _ _ h

def arrayText (ts : List Text) : Text := .char '[' :: (Text.joinWith "," ts ++ [.char ']'])

theorem run_arrayText (hroom : 0 < Stack.reading) (ts : List Text) :
    run start 0 (arrayText ts) =
      run (.item [] true) 1 (Text.joinWith "," ts ++ [.char ']']) := by
  have hopen : step start 0 (.char '[') = .ok (.item [] true) :=
    (step_opener false [] 0 .array).trans (openIn_eq_ok_iff.2 ⟨hroom, rfl⟩)
  rw [arrayText, run, hopen]

theorem reading_pos_of_run {ts : List Text} {s : State} (h : run start 0 (arrayText ts) = .ok s) :
    0 < Stack.reading := by
  obtain ⟨m, hm, -⟩ := run_cons_eq_ok.1 h
  exact (openIn_eq_ok_iff.1 ((step_opener false [] 0 .array).symm.trans hm)).1

end JsonnetPreview.Json
