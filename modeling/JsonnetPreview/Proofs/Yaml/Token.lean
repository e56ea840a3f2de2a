import JsonnetPreview.Proofs.Yaml.Styles
import JsonnetPreview.Proofs.Yaml.Word

namespace JsonnetPreview.Yaml

inductive Token where
  | plain (t : Text)
  | quoted (t : Text)

/-- The token at the beginning of a text, whose further lines have an indentation, and what follows
it. -/
def readToken (n : Nat) : Text → Token × Text
  | .char '\'' :: r => (.quoted (readSingle n 0 false r).1, (readSingle n 0 false r).2)
  | .char '"' :: r => (.quoted (readDouble n 0 r).1, (readDouble n 0 r).2)
  | t => (.plain (readPlain n 0 t).1, (readPlain n 0 t).2)

def tokenOf (t : Text) : Token := if allowsPlain t then .plain t else .quoted t

def token : Json → Token
  | .str t => tokenOf t
  | v => .plain (literal v)

variable {n : Nat} {f : Fold} {t u : Text} {v w : Json}

/-- A value without items of its own. -/
inductive IsLeaf : Json → Prop
  | literal {v : Json} (h : IsLiteral v) : IsLeaf v
  | str (t : Text) : IsLeaf (.str t)

theorem IsLiteral.token_eq (h : IsLiteral v) : token v = .plain (literal v) := by
  cases v with
  | str t => cases h with | constant h => simp [constants] at h
  | null | bool | int | float | arr | obj => rfl

theorem IsLiteral.writeLeaf_eq (h : IsLiteral v) (f : Fold) (column : Nat) :
    writeLeaf f column v = literal v := by
  cases v with
  | str t => cases h with | constant h => simp [constants] at h
  | null | bool | int | float | arr | obj => rfl

theorem tokenOf_injective (h : tokenOf t = tokenOf u) : t = u := by
  unfold tokenOf at h
  split at h <;> split at h <;> cases h <;> rfl

theorem IsLiteral.token_ne_tokenOf (h : IsLiteral v) (t : Text) : token v ≠ tokenOf t := by
  rw [h.token_eq, tokenOf]
  split
  next hplain =>
    rintro ⟨⟩
    exact absurd hplain (by simp [h.not_allowsPlain])
  next => exact nofun

theorem token_injective (hv : IsLeaf v) (hw : IsLeaf w) (h : token v = token w) : v = w := by
  cases hv with
  | literal hv =>
      cases hw with
      | literal hw =>
          rw [hv.token_eq, hw.token_eq] at h
          exact hv.injective hw (Token.plain.inj h)
      | str u => exact absurd h (hv.token_ne_tokenOf u)
  | str t =>
      cases hw with
      | literal hw => exact absurd h.symm (hw.token_ne_tokenOf t)
      | str u => exact congrArg Json.str (tokenOf_injective h)

/-- What may follow a token: it is neither taken for more of a plain text nor for a quote. -/
structure Follows (n : Nat) (u : Text) : Prop where
  plain : readPlain n 0 u = ([], u)
  quote : u.head? ≠ some (.char '\'')

theorem follows_colon (h : startsWithGap u = true) (n : Nat) : Follows n (.char ':' :: u) where
  plain := by simp [readPlain, h]
  quote := by simp

theorem IsWord.readToken (h : IsWord t) (hf : f.split = true → f.indent = n) (hu : Follows n u)
    (column : Nat) : readToken n (writePlain f column none t ++ u) = (.plain t, u) := by
  have hreads := readPlain_writePlain hf h.lines h.inner hu.plain column none
  obtain ⟨c, r, rfl, hblank, hsingle, hdouble, -⟩ := h.head
  rw [writePlain_cons hblank, List.cons_append] at hreads ⊢
  unfold Yaml.readToken
  split
  next heq => exact absurd (List.cons.inj heq).1 hsingle
  next heq => exact absurd (List.cons.inj heq).1 hdouble
  next => rw [hreads]

theorem writePlain_of_split_eq_false (hf : f.split = false) (column : Nat) (prev : Option CodePoint)
    (t : Text) : writePlain f column prev t = t := by
  induction t generalizing column prev with
  | nil => rfl
  | cons c t ih => simp [writePlain, hf, ih]

theorem readToken_writeString (hsplit : f.split = true → f.indent = n)
    (hlines : multiline t = true → f.indent = n) (hu : Follows n u) (column : Nat) :
    readToken n (writeString f column t ++ u) = (tokenOf t, u) := by
  rw [writeString, ScalarStyle.of, tokenOf]
  by_cases hplain : allowsPlain t = true
  · rw [if_pos hplain, if_pos hplain]
    exact (isWord_of_allowsPlain hplain).readToken hsplit hu column
  rw [if_neg hplain, if_neg hplain]
  by_cases hsingle : allowsSingle t = true
  · have hpairs := hsingle
    simp only [allowsSingle, Bool.and_eq_true, Bool.not_eq_true'] at hpairs
    have hreads := readSingle_writeSingle hu.quote hsplit
      (fun c hc hbreak => hlines (List.any_eq_true.2 ⟨c, hc, hbreak⟩)) hpairs.1.2 hpairs.2
      (column + 1) none
    rw [Option.any_none, Bool.false_and] at hreads
    simp [hsingle, quoted, readToken, hreads]
  · have hreads := readDouble_writeDouble hsplit (column + 1) false false t u
    simp [hsingle, quoted, readToken, hreads]

theorem readToken_writeLeaf (hv : IsLeaf v) (hf : f.indent = n) (hu : Follows n u) (column : Nat) :
    readToken n (writeLeaf f column v ++ u) = (token v, u) := by
  cases hv with
  | literal hv =>
      rw [hv.writeLeaf_eq, hv.token_eq]
      have hreads := hv.isWord.readToken (f := ⟨0, false⟩) nofun hu 0
      rwa [writePlain_of_split_eq_false rfl] at hreads
  | str t => exact readToken_writeString (fun _ => hf) (fun _ => hf) hu column

theorem IsLeaf.isWord (hv : IsLeaf v) (h : token v = .plain t) : IsWord t := by
  cases hv with
  | literal hv => exact Token.plain.inj (hv.token_eq.symm.trans h) ▸ hv.isWord
  | str t =>
      rw [token, tokenOf] at h
      split at h <;> cases h
      next hplain => exact isWord_of_allowsPlain hplain

/-- A text begins with something else than a blank and than the indicator of an item. -/
structure Begins (t : Text) : Prop where
  head : ∃ c r, t = c :: r ∧ isBlank c = false
  noItem : ∀ r, t ≠ .char '-' :: .char ' ' :: r

theorem not_isWord_indicator {i : Char} (hi : i = '-' ∨ i = '?') (n : Nat) (r : Text) :
    ¬IsWord (readPlain n 0 (.char i :: .char ' ' :: r)).1 := by
  have hread : (readPlain n 0 (.char i :: .char ' ' :: r)).1 =
      .char i :: .char ' ' :: (readPlain n 0 r).1 := by
    rcases hi with rfl | rfl <;> rfl
  intro h
  obtain ⟨c, s, hs, -, -, -, hgap⟩ := h.head
  obtain ⟨rfl, rfl⟩ := List.cons.inj (hread.symm.trans hs)
  have hi : CodePoint.char i = .char '-' ∨ CodePoint.char i = .char '?' := by simpa using hi
  cases hgap hi

theorem not_isWord_blank (n : Nat) (r : Text) : ¬IsWord (readPlain n 0 (.char ' ' :: r)).1 := by
  intro h
  obtain ⟨c, s, hs, hblank, -⟩ := h.head
  obtain ⟨rfl, -⟩ := List.cons.inj hs
  cases hblank

theorem isWord_of_readToken (hv : IsLeaf v) (hf : f.indent = n) (hu : Follows n u) {column : Nat}
    (ht : writeLeaf f column v ++ u = t) {w : Text} (h : (readToken n t).1 = .plain w) :
    IsWord w := by
  have hreads := readToken_writeLeaf hv hf hu column
  rw [ht] at hreads
  exact hv.isWord ((congrArg Prod.fst hreads).symm.trans h)

theorem begins_writeLeaf (hv : IsLeaf v) (hf : f.indent = n) (hu : Follows n u) (column : Nat) :
    Begins (writeLeaf f column v ++ u) where
  head := by
    cases ht : writeLeaf f column v ++ u with
    | nil =>
        obtain ⟨c, r, hr, -⟩ := (isWord_of_readToken hv hf hu ht rfl).head
        cases hr
    | cons c r =>
        refine ⟨c, r, rfl, Bool.eq_false_iff.2 fun hblank => ?_⟩
        obtain rfl : c = .char ' ' := of_decide_eq_true hblank
        exact not_isWord_blank n r (isWord_of_readToken hv hf hu ht rfl)
  noItem r ht := not_isWord_indicator (.inl rfl) n r (isWord_of_readToken hv hf hu ht rfl)

theorem writeLeaf_ne_question (hv : IsLeaf v) (hf : f.indent = n) (hu : Follows n u)
    (column : Nat) (r : Text) : writeLeaf f column v ++ u ≠ .char '?' :: .char ' ' :: r :=
  fun ht => not_isWord_indicator (.inr rfl) n r (isWord_of_readToken hv hf hu ht rfl)

end JsonnetPreview.Yaml
