import JsonnetPreview.Proofs.Yaml.Escape

namespace JsonnetPreview.Yaml

def push (c : CodePoint) (x : Text × Text) : Text × Text := (c :: x.1, x.2)

def goesOn (n : Nat) (r : Text) : Bool :=
  (Text.replicate n ' ').isPrefixOf r && (r.drop n).head?.any (!isBlank ·)

/-- What is read of a plain text behind a number of elements that are skipped, and what follows. -/
def readPlain (n : Nat) : Nat → Text → Text × Text
  | _, [] => ([], [])
  | k + 1, _ :: r => readPlain n k r
  | 0, c :: r =>
    if c = .char '\n' then
      if goesOn n r then push (.char ' ') (readPlain n n r) else ([], c :: r)
    else if c = .char ':' && startsWithGap r then ([], c :: r)
    else push c (readPlain n 0 r)

/-- What is read behind a single quote. A line feed that begins a run of line ends is written twice,
and one that is alone is a folded blank. -/
def readSingle (n : Nat) : Nat → Bool → Text → Text × Text
  | _, _, [] => ([], [])
  | k + 1, inBreaks, _ :: r => readSingle n k inBreaks r
  | 0, inBreaks, c :: r =>
    if isBreak c then
      if c = .char '\n' && !inBreaks then
        if r.head? = some (.char '\n') then readSingle n 0 true r
        else push (.char ' ') (readSingle n n false r)
      else if r.head?.any isBreak then push c (readSingle n 0 true r)
      else push c (readSingle n n false r)
    else if c = .char '\'' then
      if r.head? = some (.char '\'') then push c (readSingle n 1 false r) else ([], r)
    else push c (readSingle n 0 false r)

/-- What is read behind a double quote. A backslash in front of a blank keeps it, also where the
line ends once more between the two. -/
def readDouble (n : Nat) : Nat → Text → Text × Text
  | _, [] => ([], [])
  | k + 1, _ :: r => readDouble n k r
  | 0, c :: r =>
    if c = .char '"' then ([], r)
    else if c = .char '\\' then
      if r.head? = some (.char '\n') then readDouble n (n + 1) r
      else if r.head? = some (.char ' ') then push (.char ' ') (readDouble n 1 r)
      else if r.take 2 = [.char '\\', .char '\n'] then readDouble n (n + 2) r
      else push (unescape r).1 (readDouble n (r.length - (unescape r).2.length) r)
    else push c (readDouble n 0 r)

theorem readPlain_append (n : Nat) (t r : Text) :
    readPlain n t.length (t ++ r) = readPlain n 0 r := by
  induction t with
  | nil => rfl
  | cons c t ih => exact ih

theorem readSingle_append (n : Nat) (inBreaks : Bool) (t r : Text) :
    readSingle n t.length inBreaks (t ++ r) = readSingle n 0 inBreaks r := by
  induction t with
  | nil => rfl
  | cons c t ih => exact ih

theorem readDouble_append (n : Nat) (t r : Text) :
    readDouble n t.length (t ++ r) = readDouble n 0 r := by
  induction t with
  | nil => rfl
  | cons c t ih => exact ih

theorem length_blanks (n : Nat) : (Text.replicate n ' ').length = n := List.length_replicate

variable {n k : Nat} {f : Fold} {c : CodePoint} {t u : Text}

theorem goesOn_blanks (h : isBlank c = false) (n : Nat) (r : Text) :
    goesOn n (Text.replicate n ' ' ++ c :: r) = true := by
  have hdrop : (Text.replicate n ' ' ++ c :: r).drop n = c :: r := List.drop_left' (length_blanks n)
  rw [goesOn, hdrop]
  simp [h]

theorem writePlain_cons (h : isBlank c = false) (f : Fold) (column : Nat) (prev : Option CodePoint)
    (r : Text) : writePlain f column prev (c :: r) =
      c :: writePlain f (column + 1) (some c) r := by
  simp [writePlain, h]

theorem exists_cons_of_isFoldable {prev : Option CodePoint} {r : Text}
    (h : isFoldable prev r = true) : ∃ c s, r = c :: s ∧ isBlank c = false := by
  cases r with
  | nil => simp [isFoldable] at h
  | cons c s => exact ⟨c, s, rfl, by simpa using (Bool.and_eq_true_iff.1 h).2⟩

theorem startsWithGap_writePlain (h : startsWithGap t = false) (f : Fold) (column : Nat)
    (prev : Option CodePoint) (u : Text) :
    startsWithGap (writePlain f column prev t ++ u) = false := by
  cases t with
  | nil => cases h
  | cons c t =>
      have hgap : isGap c = false := h
      have hblank : isBlank c = false := by
        rw [isBlank, decide_eq_false_iff_not]
        rintro rfl
        cases hgap
      rw [writePlain_cons hblank]
      exact h

theorem readPlain_fold (h : isBlank c = false) (n : Nat) (r : Text) :
    readPlain n 0 (.char '\n' :: (Text.replicate n ' ' ++ c :: r)) =
      push (.char ' ') (readPlain n 0 (c :: r)) := by
  have hskip := readPlain_append n (Text.replicate n ' ') (c :: r)
  rw [length_blanks] at hskip
  rw [readPlain, if_pos rfl, goesOn_blanks h, if_pos rfl, hskip]

theorem readPlain_cons (hc : c ≠ .char '\n') {r : Text}
    (hcolon : c = .char ':' → startsWithGap r = false) :
    readPlain n 0 (c :: r) = push c (readPlain n 0 r) := by
  rw [readPlain, if_neg hc, if_neg]
  simpa using hcolon

theorem readPlain_writePlain (hf : f.split = true → f.indent = n) (hlines : ∀ c ∈ t, c ≠ .char '\n')
    (hinner : hasInnerIndicator t = false) (hu : readPlain n 0 u = ([], u)) (column : Nat)
    (prev : Option CodePoint) : readPlain n 0 (writePlain f column prev t ++ u) = (t, u) := by
  induction t generalizing column prev with
  | nil => exact hu
  | cons c t ih =>
      obtain ⟨hc, hlines⟩ := List.forall_mem_cons.1 hlines
      simp only [hasInnerIndicator, Bool.or_eq_false_iff] at hinner
      obtain ⟨⟨hcolon, -⟩, hinner⟩ := hinner
      rw [writePlain]
      split
      next hfold =>
        simp only [Bool.and_eq_true] at hfold
        obtain ⟨⟨⟨hblank, hsplit⟩, -⟩, hfoldable⟩ := hfold
        obtain ⟨d, s, rfl, hd⟩ := exists_cons_of_isFoldable hfoldable
        obtain rfl : f.indent = n := hf hsplit
        have hrest := ih hlines hinner f.indent (some c)
        rw [writePlain_cons hd, List.cons_append] at hrest
        rw [Fold.newline, writePlain_cons hd, List.append_assoc, List.cons_append, List.cons_append,
          readPlain_fold hd, hrest, of_decide_eq_true hblank]
        rfl
      next =>
        have hnext : c = .char ':' →
            startsWithGap (writePlain f (column + 1) (some c) t ++ u) = false := by
          rintro rfl
          exact startsWithGap_writePlain (by simpa using hcolon) f _ _ u
        rw [List.cons_append, readPlain_cons hc hnext, ih hlines hinner]
        rfl

theorem hasPair_cons_cons (p q : CodePoint → Bool) (c d : CodePoint) (t : Text) :
    hasPair p q (c :: d :: t) = (p c && q d || hasPair p q (d :: t)) := by
  simp [hasPair]

theorem readSingle_close (h : u.head? ≠ some (.char '\'')) (inBreaks : Bool) :
    readSingle n 0 inBreaks (.char '\'' :: u) = ([], u) := by
  simp [readSingle, isBreak, h, CodePoint.value]

theorem readSingle_quote (inBreaks : Bool) (r : Text) :
    readSingle n 0 inBreaks (.char '\'' :: .char '\'' :: r) =
      push (.char '\'') (readSingle n 0 false r) := by
  simp [readSingle, isBreak, CodePoint.value]

theorem readSingle_cons (hc : isBreak c = false) (hquote : c ≠ .char '\'') (inBreaks : Bool)
    (r : Text) : readSingle n 0 inBreaks (c :: r) = push c (readSingle n 0 false r) := by
  simp [readSingle, hc, hquote]

theorem readSingle_twice (r : Text) :
    readSingle n 0 false (.char '\n' :: .char '\n' :: r) =
      readSingle n 0 true (.char '\n' :: r) := by
  rw [readSingle]
  rfl

theorem head?_blanks_append {r : Text} {p : CodePoint → Bool} (hp : p (.char ' ') = false)
    (h : r.head?.any p = false) (n : Nat) : (Text.replicate n ' ' ++ r).head?.any p = false := by
  cases n with
  | zero => exact h
  | succ n => exact hp

theorem readSingle_blanks (inBreaks : Bool) (r : Text) :
    readSingle n n inBreaks (Text.replicate n ' ' ++ r) = readSingle n 0 inBreaks r := by
  have hskip := readSingle_append n inBreaks (Text.replicate n ' ') r
  rwa [length_blanks] at hskip

theorem readSingle_fold {r : Text} (h : r.head?.any isBreak = false) :
    readSingle n 0 false (.char '\n' :: (Text.replicate n ' ' ++ r)) =
      push (.char ' ') (readSingle n 0 false r) := by
  have hhead := head?_blanks_append (by decide) h n
  have hne : (Text.replicate n ' ' ++ r).head? ≠ some (.char '\n') := by
    intro hline
    rw [hline] at hhead
    cases hhead
  rw [readSingle, if_pos (by decide), if_pos (by decide), if_neg hne, readSingle_blanks]

theorem readSingle_break (hc : isBreak c = true) (r : Text) (inBreaks : Bool)
    (hline : c = .char '\n' → inBreaks = true) :
    readSingle n 0 inBreaks
        (c :: ((if r.head?.any isBreak then [] else Text.replicate n ' ') ++ r)) =
      push c (readSingle n 0 (r.head?.any isBreak) r) := by
  have hsingle : (c = .char '\n' && !inBreaks) = false := by
    rw [Bool.and_eq_false_iff, decide_eq_false_iff_not]
    by_cases hn : c = .char '\n'
    · exact .inr (by rw [hline hn]; rfl)
    · exact .inl hn
  rw [readSingle, if_pos hc, hsingle, if_neg Bool.false_ne_true]
  by_cases hr : r.head?.any isBreak = true
  · rw [if_pos hr, List.nil_append, if_pos hr, hr]
  · rw [Bool.not_eq_true] at hr
    rw [hr, if_neg Bool.false_ne_true, head?_blanks_append (by decide) hr,
      if_neg Bool.false_ne_true, readSingle_blanks]

theorem head?_writeSingle (h : t.head? ≠ some (.char ' ')) (f : Fold) (column : Nat)
    (prev : Option CodePoint) (u : Text) :
    (writeSingle f column prev t ++ .char '\'' :: u).head?.any isBreak = t.head?.any isBreak := by
  cases t with
  | nil => rfl
  | cons c t =>
      have hblank : isBlank c = false := by simpa [isBlank] using h
      rw [writeSingle]
      by_cases hc : isBreak c = true
      · rw [if_pos hc]
        split
        next hmore =>
          simp [hc]
        next => simp [hc]
      · rw [if_neg hc]
        split
        next => simp
        next => simp [hblank]

theorem hasPair_tail {p q : CodePoint → Bool} (h : hasPair p q (c :: t) = false) :
    hasPair p q t = false ∧ (p c = true → ∀ d ∈ t.head?, q d = false) := by
  cases t with
  | nil => exact ⟨rfl, nofun⟩
  | cons d t =>
      rw [hasPair_cons_cons, Bool.or_eq_false_iff, Bool.and_eq_false_iff] at h
      refine ⟨h.2, ?_⟩
      rintro hp e ⟨⟩
      simpa [hp] using h.1

section Single

variable {prev : Option CodePoint}

theorem readSingle_writeSingle_break (hc : isBreak c = true) (hf : f.indent = n)
    (hblank : t.head? ≠ some (.char ' '))
    (hrest : readSingle n 0 (t.head?.any isBreak)
      (writeSingle f f.indent (some c) t ++ .char '\'' :: u) = (t, u)) (column : Nat) :
    readSingle n 0 (prev.any isBreak) (writeSingle f column prev (c :: t) ++ .char '\'' :: u) =
      (c :: t, u) := by
  have hhead := head?_writeSingle hblank f f.indent (some c) u
  have hbroken := readSingle_break (n := n) hc
    (writeSingle f f.indent (some c) t ++ .char '\'' :: u)
  rw [hhead, hrest, ← hf] at hbroken
  rw [writeSingle, if_pos hc, ← hf]
  by_cases hmore : (c = .char '\n' && !prev.any isBreak) = true
  · have hprev : prev.any isBreak = false := by simpa using (Bool.and_eq_true_iff.1 hmore).2
    obtain rfl : c = .char '\n' := by simpa using (Bool.and_eq_true_iff.1 hmore).1
    rw [if_pos hmore, hprev, List.append_assoc, List.cons_append, List.nil_append,
      List.cons_append, readSingle_twice, List.append_assoc]
    exact hbroken true fun _ => rfl
  · rw [if_neg hmore, List.nil_append, List.cons_append, List.append_assoc]
    exact hbroken _ fun hn => by simpa [hn] using hmore

theorem readSingle_newline (hf : f.indent = n) (ht : t.head? ≠ some (.char ' '))
    (hline : t.head?.any isBreak = false) (u : Text) :
    readSingle n 0 false
        (f.newline ++ writeSingle f f.indent prev t ++ .char '\'' :: u) =
      push (.char ' ')
        (readSingle n 0 false (writeSingle f f.indent prev t ++ .char '\'' :: u)) := by
  have hhead := head?_writeSingle ht f f.indent prev u
  rw [hline] at hhead
  rw [Fold.newline, hf, List.append_assoc, List.cons_append]
  rw [hf] at hhead
  exact readSingle_fold hhead

theorem readSingle_writeSingle (hu : u.head? ≠ some (.char '\''))
    (hsplit : f.split = true → f.indent = n) (hbreaks : ∀ c ∈ t, isBreak c = true → f.indent = n)
    (hbefore : hasPair isBreak isBlank t = false) (hbehind : hasPair isBlank isBreak t = false)
    (column : Nat) (prev : Option CodePoint) :
    readSingle n 0 (prev.any isBreak && t.head?.any isBreak)
      (writeSingle f column prev t ++ .char '\'' :: u) = (t, u) := by
  -- The reader is within line ends where the text is, so the element before it stays free.
  induction t generalizing column prev with
  | nil => exact readSingle_close hu _
  | cons c t ih =>
      obtain ⟨hc, hbreaks⟩ := List.forall_mem_cons.1 hbreaks
      obtain ⟨hbefore, hnoBlank⟩ := hasPair_tail hbefore
      obtain ⟨hbehind, hnoBreak⟩ := hasPair_tail hbehind
      have hrest (column : Nat) := ih hbreaks hbefore hbehind column (some c)
      rw [List.head?_cons, Option.any_some]
      cases hbreak : isBreak c with
      | true =>
          have hblank : t.head? ≠ some (.char ' ') := fun hhead => by
            cases hnoBlank hbreak _ hhead
          have hrest := hrest f.indent
          rw [Option.any_some, hbreak, Bool.true_and] at hrest
          rw [Bool.and_true]
          exact readSingle_writeSingle_break hbreak (hc hbreak) hblank hrest column
      | false =>
          rw [Option.any_some, hbreak, Bool.false_and] at hrest
          rw [writeSingle, if_neg (by simp [hbreak]), Bool.and_false]
          split
          next hquote =>
            subst hquote
            rw [List.cons_append, List.cons_append, readSingle_quote, hrest]
            rfl
          next hquote =>
            split
            next hfold =>
              simp only [Bool.and_eq_true] at hfold
              obtain ⟨⟨⟨hblank, hfolds⟩, -⟩, hfoldable⟩ := hfold
              obtain ⟨d, s, rfl, hd⟩ := exists_cons_of_isFoldable hfoldable
              have hhead : (d :: s).head? ≠ some (.char ' ') := by simpa [isBlank] using hd
              rw [readSingle_newline (hsplit hfolds) hhead (hnoBreak hblank d rfl), hrest,
                of_decide_eq_true hblank]
              rfl
            next =>
              rw [List.cons_append, readSingle_cons hbreak hquote, hrest]
              rfl

end Single

theorem readDouble_skip (t r : Text) (h : t.length = k) :
    readDouble n k (t ++ r) = readDouble n 0 r := h ▸ readDouble_append n t r

theorem readDouble_close (u : Text) : readDouble n 0 (.char '"' :: u) = ([], u) := by
  simp [readDouble]

theorem readDouble_cons (hquote : c ≠ .char '"') (hbackslash : c ≠ .char '\\') (r : Text) :
    readDouble n 0 (c :: r) = push c (readDouble n 0 r) := by
  simp [readDouble, hquote, hbackslash]

theorem readDouble_turn (r : Text) :
    readDouble n 0 (.char '\\' :: .char '\n' :: (Text.replicate n ' ' ++ r)) =
      readDouble n 0 r := by
  have hskip := readDouble_skip (n := n) (.char '\n' :: Text.replicate n ' ') r
    (congrArg (· + 1) (length_blanks n))
  rw [readDouble]
  simpa using hskip

def Guardable (n : Nat) (w : Text) : Prop :=
  w.head? = some (.char ' ') ∨ ∃ r, w = .char '\\' :: .char '\n' :: (Text.replicate n ' ' ++ r)

theorem readDouble_guard {w : Text} (h : Guardable n w) :
    readDouble n 0 (.char '\\' :: w) = readDouble n 0 w := by
  rcases h with hblank | ⟨r, rfl⟩
  · obtain ⟨r, rfl⟩ := List.head?_eq_some_iff.1 hblank
    simp [readDouble]
  · have hskip := readDouble_skip (n := n) (.char '\\' :: .char '\n' :: Text.replicate n ' ') r
      (congrArg (· + 2) (length_blanks n))
    rw [readDouble_turn, readDouble]
    simpa using hskip

theorem readDouble_break (hf : f.indent = n) {blank : Bool} {w : Text}
    (hw : blank = true → Guardable n w) :
    readDouble n 0 (breakDouble f blank ++ w) = readDouble n 0 w := by
  rw [breakDouble, Fold.newline, hf, List.cons_append, List.cons_append, List.cons_append,
    List.append_assoc, readDouble_turn]
  cases blank with
  | false => rfl
  | true => exact readDouble_guard (hw rfl)

theorem readDouble_escape {e : Text} (h : IsEscape c e) {r : Text}
    (hr : r.head? ≠ some (.char '\n')) :
    readDouble n 0 (e ++ r) = push c (readDouble n 0 r) := by
  obtain ⟨d, w, rfl, hline, hblank, hbackslash, hreads⟩ := h.reads
  have hpair : (.char d :: (w ++ r)).take 2 ≠ [CodePoint.char '\\', .char '\n'] := by
    intro htake
    obtain ⟨hd, hnext⟩ := List.cons.inj htake
    rw [hbackslash (CodePoint.char.inj hd)] at hnext
    cases r with
    | nil => cases hnext
    | cons x r => exact hr (congrArg List.head? hnext)
  have hskip := readDouble_skip (n := n) (.char d :: w) r rfl
  have hlength : (.char d :: (w ++ r)).length - r.length = (CodePoint.char d :: w).length := by
    simp only [List.length_cons, List.length_append]
    omega
  rw [List.cons_append, List.cons_append, readDouble, if_neg (by decide), if_pos rfl,
    if_neg (by simpa using hline), if_neg (by simpa using hblank), if_neg hpair, hreads, hlength]
  exact congrArg (push c) hskip

theorem ne_of_escape?_eq_none (h : escape? c = none) :
    c ≠ .char '"' ∧ c ≠ .char '\\' ∧ c ≠ .char '\n' := by
  refine ⟨?_, ?_, ?_⟩ <;> (rintro rfl; cases h)

theorem not_newline_writeDouble (f : Fold) (column : Nat) (inner loose : Bool) (t u : Text) :
    (writeDouble f column inner loose t ++ .char '"' :: u).head? ≠ some (.char '\n') := by
  cases t with
  | nil => simp [writeDouble]
  | cons c t =>
      rw [writeDouble]
      cases he : escape? c with
      | some e =>
          obtain ⟨d, w, rfl, -⟩ := (isEscape_of_escape? he).reads
          dsimp only
          split <;> simp
      | none =>
          dsimp only
          split
          next => simp [breakDouble]
          next => simpa using (ne_of_escape?_eq_none he).2.2

theorem guardable_writeDouble (hf : f.indent = n) (column : Nat) (inner loose : Bool) (r u : Text) :
    Guardable n (writeDouble f column inner loose (.char ' ' :: r) ++ .char '"' :: u) := by
  have he : escape? (.char ' ') = none := rfl
  rw [writeDouble, he]
  dsimp only
  split
  next =>
    simp only [breakDouble, Fold.newline, hf, List.cons_append, List.append_assoc]
    exact .inr ⟨_, rfl⟩
  next => exact .inl rfl

theorem readDouble_writeDouble (hf : f.split = true → f.indent = n) (column : Nat)
    (inner loose : Bool) (t u : Text) :
    readDouble n 0 (writeDouble f column inner loose t ++ .char '"' :: u) = (t, u) := by
  induction t generalizing column inner loose with
  | nil => exact readDouble_close u
  | cons c t ih =>
      rw [writeDouble]
      cases he : escape? c with
      | some e =>
          have hescape := isEscape_of_escape? he
          dsimp only
          split
          next hbreak =>
            simp only [Bool.and_eq_true] at hbreak
            have hindent : f.indent = n := hf hbreak.1.1.1
            -- A blank behind the break may be broken off once more, so the reader looks past that.
            have hguard : t.head?.any isBlank = true → Guardable n (writeDouble f
                (columnAfterBreak f (t.head?.any isBlank)) true true t ++ .char '"' :: u) := by
              intro hblank
              cases t with
              | nil => cases hblank
              | cons d t =>
                  obtain rfl : d = .char ' ' := of_decide_eq_true hblank
                  exact guardable_writeDouble hindent _ _ _ t u
            rw [List.append_assoc, List.append_assoc,
              readDouble_escape hescape (by simp [breakDouble]),
              readDouble_break hindent hguard, ih]
            rfl
          next =>
            have hline := not_newline_writeDouble f (column + e.length) true true t u
            rw [List.append_assoc, readDouble_escape hescape hline, ih]
            rfl
      | none =>
          obtain ⟨hquote, hbackslash, -⟩ := ne_of_escape?_eq_none he
          dsimp only
          split
          next hbreak =>
            simp only [Bool.and_eq_true] at hbreak
            have hindent : f.indent = n := hf hbreak.1.1.1.1
            rw [List.append_assoc, readDouble_break hindent, List.cons_append,
              readDouble_cons hquote hbackslash, ih]
            · rfl
            · intro hblank
              exact .inl (congrArg some (of_decide_eq_true hblank))
          next =>
            rw [List.cons_append, readDouble_cons hquote hbackslash, ih]
            rfl

end JsonnetPreview.Yaml
