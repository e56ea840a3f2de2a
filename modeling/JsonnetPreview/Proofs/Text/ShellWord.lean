import JsonnetPreview.Text.Quoted

namespace JsonnetPreview.Text

inductive Quoting where
  | none
  | single
  | double

def IsWordEnd (c : CodePoint) : Prop := c = .char ' ' ∨ c = .char '\n'

instance : DecidablePred IsWordEnd := fun c => inferInstanceAs (Decidable (c = _ ∨ c = _))

/-- The first word of a text, and what is behind it. A shell reads more than quotes; no element that
it would read in another way stands outside of single quotes in the words that are written. -/
def readWord : Quoting → Text → Text × Text
  | _, [] => ([], [])
  | .none, c :: r =>
    if IsWordEnd c then ([], c :: r)
    else if c = .char '\'' then readWord .single r
    else if c = .char '"' then readWord .double r
    else (readWord .none r).map (c :: ·) id
  | .single, c :: r =>
    if c = .char '\'' then readWord .none r else (readWord .single r).map (c :: ·) id
  | .double, c :: r =>
    if c = .char '"' then readWord .none r else (readWord .double r).map (c :: ·) id

theorem isShellSafe_quote : isShellSafe (.char '\'') = false ∧ isShellSafe (.char '"') = false := by
  decide

theorem not_isWordEnd_of_isShellSafe {c : CodePoint} (h : isShellSafe c = true) :
    ¬ IsWordEnd c := by
  rintro (rfl | rfl) <;> exact absurd h (by decide)

variable {c : CodePoint} {t r : Text}

theorem readWord_end (hc : IsWordEnd c) (r : Text) : readWord .none (c :: r) = ([], c :: r) := by
  rw [readWord, if_pos hc]

theorem readWord_safe (ht : ∀ d ∈ t, isShellSafe d = true) (hc : IsWordEnd c) (r : Text) :
    readWord .none (t ++ c :: r) = (t, c :: r) := by
  induction t with
  | nil => exact readWord_end hc r
  | cons d t ih =>
      obtain ⟨hd, ht⟩ := List.forall_mem_cons.1 ht
      have hsingle : d ≠ .char '\'' := by
        rintro rfl
        simp [isShellSafe_quote.1] at hd
      have hdouble : d ≠ .char '"' := by
        rintro rfl
        simp [isShellSafe_quote.2] at hd
      rw [List.cons_append, readWord, if_neg (not_isWordEnd_of_isShellSafe hd), if_neg hsingle,
        if_neg hdouble, ih ht]
      rfl

theorem readWord_escaped (r : Text) :
    readWord .single (ofString "'\"'\"'" ++ r) =
      (readWord .single r).map (CodePoint.char '\'' :: ·) id := rfl

theorem readWord_quoted (t : Text) (hc : IsWordEnd c) (r : Text) :
    readWord .single ((t.flatMap fun d => if d = .char '\'' then ofString "'\"'\"'" else [d]) ++
      .char '\'' :: c :: r) = (t, c :: r) := by
  induction t with
  | nil => exact readWord_end hc r
  | cons d t ih =>
      rw [List.flatMap_cons, List.append_assoc]
      by_cases hd : d = .char '\''
      · subst hd
        rw [if_pos rfl, readWord_escaped, ih]
        rfl
      · rw [if_neg hd, List.singleton_append, readWord, if_neg hd, ih]
        rfl

theorem readWord_shellWord (t : Text) (hc : IsWordEnd c) (r : Text) :
    readWord .none (shellWord t ++ c :: r) = (t, c :: r) := by
  unfold shellWord
  split
  · rename_i h
    exact readWord_safe (List.all_eq_true.1 (Bool.and_eq_true_iff.1 h).2) hc r
  · rw [List.cons_append, readWord, if_neg (by decide), if_pos rfl, List.append_assoc,
      List.singleton_append]
    exact readWord_quoted t hc r

/-- What stands behind the first word: the words that follow, each with a blank in front, and under
the line the text `r`. -/
def behind (r : Text) : List Text → Text
  | [] => .char '\n' :: r
  | t :: words => .char ' ' :: (shellWord t ++ behind r words)

theorem commandLine_append (r t : Text) (words : List Text) :
    commandLine (t :: words) ++ .char '\n' :: r = shellWord t ++ behind r words := by
  rw [commandLine]
  induction words generalizing t with
  | nil => simp [joinWith, behind]
  | cons u words ih =>
      rw [behind, ← ih u, List.map_cons, List.map_cons, joinWith, List.intercalate_cons_cons,
        ← joinWith, List.append_assoc, List.append_assoc]
      rfl

theorem readWord_behind (t r : Text) (words : List Text) :
    readWord .none (shellWord t ++ behind r words) = (t, behind r words) := by
  cases words with
  | nil => exact readWord_shellWord t (.inr rfl) r
  | cons u words => exact readWord_shellWord t (.inl rfl) _

theorem shellWord_behind_inj {t u r r' : Text} {words words' : List Text}
    (h : shellWord t ++ behind r words = shellWord u ++ behind r' words') :
    t = u ∧ behind r words = behind r' words' := by
  have hread := congrArg (readWord .none) h
  rw [readWord_behind, readWord_behind] at hread
  exact Prod.mk.inj hread

theorem behind_inj {r r' : Text} {words words' : List Text}
    (h : behind r words = behind r' words') : words = words' ∧ r = r' := by
  induction words generalizing words' with
  | nil =>
      cases words' with
      | nil => exact ⟨rfl, (List.cons.inj h).2⟩
      | cons u words' => cases (List.cons.inj h).1
  | cons t words ih =>
      cases words' with
      | nil => cases (List.cons.inj h).1
      | cons u words' =>
          obtain ⟨htu, hbehind⟩ := shellWord_behind_inj (List.cons.inj h).2
          obtain ⟨hwords, hr⟩ := ih hbehind
          exact ⟨by rw [htu, hwords], hr⟩

theorem commandLine_append_inj {t u r r' : Text} {words words' : List Text}
    (h : commandLine (t :: words) ++ .char '\n' :: r =
      commandLine (u :: words') ++ .char '\n' :: r') :
    t :: words = u :: words' ∧ r = r' := by
  rw [commandLine_append, commandLine_append] at h
  obtain ⟨htu, hbehind⟩ := shellWord_behind_inj h
  obtain ⟨hwords, hr⟩ := behind_inj hbehind
  exact ⟨by rw [htu, hwords], hr⟩

end JsonnetPreview.Text
