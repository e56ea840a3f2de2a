import JsonnetPreview.Proofs.Json.Items
import JsonnetPreview.Proofs.Json.Readable

namespace JsonnetPreview.Json

def wrap : Nat → Json → Json
  | 0, v => v
  | n + 1, v => .arr [wrap n v]

theorem wrap_succ (n : Nat) (v : Json) : wrap (n + 1) v = wrap n (.arr [v]) := by
  induction n with
  | zero => rfl
  | succ n ih => rw [wrap, ih, wrap]

theorem height_wrap (n : Nat) (v : Json) : (wrap n v).height = v.height + n := by
  induction n with
  | zero => rfl
  | succ n ih => simp only [wrap, height, heightOfItems, ih, Nat.max_zero, Nat.add_assoc]

theorem run_opening [Stack] (n : Nat) (scopes : List Scope)
    (h : scopes.length + n ≤ Stack.reading) (p : Nat) (r : Text) :
    run ⟨.value true, scopes⟩ p (Text.replicate n '[' ++ r) =
      run ⟨.value true, List.replicate n (.items []) ++ scopes⟩ (p + n) r := by
  induction n generalizing scopes p with
  | zero => rfl
  | succ n ih =>
      have hopen : step ⟨.value true, scopes⟩ p (.char '[') =
          .ok ⟨.value true, .items [] :: scopes⟩ :=
        (step_opener true scopes p .array).trans (openIn_eq_ok_iff.2 ⟨by omega, rfl⟩)
      rw [Text.replicate, List.replicate_succ, List.cons_append, run, hopen]
      refine (ih (.items [] :: scopes) (by simp only [List.length_cons]; omega) (p + 1)).trans ?_
      rw [List.replicate_succ', List.append_assoc, Nat.add_right_comm]
      rfl

theorem run_closing [Stack] (n : Nat) (v : Json) (scopes : List Scope) (p : Nat) (r : Text) :
    run ⟨.after v, List.replicate n (.items []) ++ scopes⟩ p (Text.replicate n ']' ++ r) =
      run ⟨.after (wrap n v), scopes⟩ (p + n) r := by
  induction n generalizing v p with
  | zero => rfl
  | succ n ih =>
      rw [wrap_succ]
      refine (ih (.arr [v]) (p + 1)).trans ?_
      rw [Nat.add_right_comm]
      rfl

def brackets (n : Nat) : Text := Text.replicate n '[' ++ Text.replicate n ']'

theorem run_brackets [Stack] (n : Nat) (scopes : List Scope)
    (h : scopes.length + n < Stack.reading) (p : Nat) (r : Text) :
    ∃ q, run ⟨.value false, scopes⟩ p (brackets (n + 1) ++ r) =
      run ⟨.after (wrap n (.arr [])), scopes⟩ q r := by
  have hopen : step ⟨.value false, scopes⟩ p (.char '[') = .ok ⟨.value true, .items [] :: scopes⟩ :=
    (step_opener false scopes p .array).trans (openIn_eq_ok_iff.2 ⟨by omega, rfl⟩)
  have hscopes : List.replicate n (.items []) ++ .items [] :: scopes =
      Scope.items [] :: (List.replicate n (.items []) ++ scopes) := by
    rw [List.append_cons, ← List.replicate_succ', List.replicate_succ, List.cons_append]
  refine ⟨p + 1 + n + 1 + n, ?_⟩
  calc run ⟨.value false, scopes⟩ p (brackets (n + 1) ++ r)
      = run ⟨.value true, .items [] :: scopes⟩ (p + 1)
          (Text.replicate n '[' ++ (Text.replicate (n + 1) ']' ++ r)) := by
        simp only [brackets, Text.replicate, List.replicate_succ, List.cons_append,
          List.append_assoc, run, hopen]
    _ = run ⟨.value true, .items [] :: (List.replicate n (.items []) ++ scopes)⟩ (p + 1 + n)
          (Text.replicate (n + 1) ']' ++ r) := by
        rw [run_opening n _ (by simp only [List.length_cons]; omega), hscopes]
    _ = run ⟨.after (.arr []), List.replicate n (.items []) ++ scopes⟩ (p + 1 + n + 1)
          (Text.replicate n ']' ++ r) := rfl
    _ = run ⟨.after (wrap n (.arr [])), scopes⟩ (p + 1 + n + 1 + n) r := run_closing n _ _ _ _

theorem read_brackets [Stack] (n : Nat) (h : n < Stack.reading) :
    read (brackets (n + 1)) = .ok (wrap n (.arr [])) := by
  obtain ⟨q, hq⟩ := run_brackets n [] (by simpa using h) 0 []
  rw [List.append_nil] at hq
  exact read_eq_ok_iff.2 ⟨⟨.after (wrap n (.arr [])), []⟩, hq, rfl, rfl⟩

end JsonnetPreview.Json
