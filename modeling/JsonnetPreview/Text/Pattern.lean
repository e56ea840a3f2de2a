import JsonnetPreview.Text.Digit

namespace JsonnetPreview

inductive Pattern where
  /-- Nothing, not even the empty text. -/
  | never
  | empty
  | element (p : Char → Bool)
  | seq (a b : Pattern)
  | alt (a b : Pattern)
  | many (a : Pattern)

namespace Pattern

def nullable : Pattern → Bool
  | never => false
  | empty => true
  | element _ => false
  | seq a b => a.nullable && b.nullable
  | alt a b => a.nullable || b.nullable
  | many _ => true

def mkSeq : Pattern → Pattern → Pattern
  | never, _ => never
  | empty, b => b
  | a, b => seq a b

def mkAlt : Pattern → Pattern → Pattern
  | never, b => b
  | a, never => a
  | a, b => alt a b

def derivative (x : CodePoint) : Pattern → Pattern
  | never => never
  | empty => never
  | element p =>
    match x with
    | .char c => if p c then empty else never
    | .surrogate _ => never
  | seq a b =>
    if a.nullable then mkAlt (mkSeq (a.derivative x) b) (b.derivative x)
    else mkSeq (a.derivative x) b
  | alt a b => mkAlt (a.derivative x) (b.derivative x)
  | many a => mkSeq (a.derivative x) (many a)

def isMatch (a : Pattern) : Text → Bool
  | [] => a.nullable
  | c :: r => (a.derivative c).isMatch r

def char (c : Char) : Pattern := element (· == c)

def anyDigit : Pattern := element fun c => (CodePoint.char c).digit?.isSome

def anyOf (s : String) : Pattern := element (s.toList.contains ·)

def word (s : String) : Pattern := s.toList.foldr (fun c rest => mkSeq (char c) rest) empty

def words (ws : List String) : Pattern := ws.foldr (fun w rest => mkAlt (word w) rest) never

def opt (a : Pattern) : Pattern := alt empty a

def many1 (a : Pattern) : Pattern := seq a (many a)

def sequence (ps : List Pattern) : Pattern := ps.foldr mkSeq empty

def choice (ps : List Pattern) : Pattern := ps.foldr mkAlt never

inductive Denotes : Pattern → Text → Prop where
  | empty : Denotes empty []
  | element {p : Char → Bool} {c : Char} (h : p c = true) : Denotes (element p) [.char c]
  | seq {a b : Pattern} {t u : Text} (ha : Denotes a t) (hb : Denotes b u) :
      Denotes (seq a b) (t ++ u)
  | left {a b : Pattern} {t : Text} (h : Denotes a t) : Denotes (alt a b) t
  | right {a b : Pattern} {t : Text} (h : Denotes b t) : Denotes (alt a b) t
  | manyNil {a : Pattern} : Denotes (many a) []
  | manyCons {a : Pattern} {t u : Text} (ha : Denotes a t) (hm : Denotes (many a) u) :
      Denotes (many a) (t ++ u)

theorem nullable_iff (a : Pattern) : a.nullable = true ↔ Denotes a [] := by
  induction a with
  | never => exact ⟨nofun, nofun⟩
  | empty => exact ⟨fun _ => .empty, fun _ => rfl⟩
  | element p => exact ⟨nofun, nofun⟩
  | seq a b iha ihb =>
    simp only [nullable, Bool.and_eq_true, iha, ihb]
    constructor
    · exact fun ⟨ha, hb⟩ => by simpa using Denotes.seq ha hb
    · intro h
      generalize ht : ([] : Text) = t at h
      cases h with
      | seq ha hb =>
        obtain ⟨rfl, rfl⟩ := List.append_eq_nil_iff.1 ht.symm
        exact ⟨ha, hb⟩
  | alt a b iha ihb =>
    simp only [nullable, Bool.or_eq_true, iha, ihb]
    constructor
    · rintro (h | h)
      · exact .left h
      · exact .right h
    · intro h
      cases h with
      | left h => exact .inl h
      | right h => exact .inr h
  | many a _ => exact ⟨fun _ => .manyNil, fun _ => rfl⟩

theorem denotes_mkSeq {a b : Pattern} {t : Text} : Denotes (mkSeq a b) t ↔ Denotes (seq a b) t := by
  unfold mkSeq
  split
  · constructor
    · nofun
    · intro h
      cases h with
      | seq ha _ => cases ha
  · constructor
    · intro h
      simpa using Denotes.seq .empty h
    · intro h
      cases h with
      | seq ha hb =>
        cases ha
        simpa using hb
  · exact Iff.rfl

theorem denotes_mkAlt {a b : Pattern} {t : Text} : Denotes (mkAlt a b) t ↔ Denotes (alt a b) t := by
  unfold mkAlt
  split
  · exact ⟨.right, fun h => by cases h with | left h => cases h | right h => exact h⟩
  · exact ⟨.left, fun h => by cases h with | left h => exact h | right h => cases h⟩
  · exact Iff.rfl

theorem denotes_seq_cons {a b : Pattern} {x : CodePoint} {t : Text} :
    Denotes (seq a b) (x :: t) ↔
      (∃ u v, t = u ++ v ∧ Denotes a (x :: u) ∧ Denotes b v) ∨
        (Denotes a [] ∧ Denotes b (x :: t)) := by
  constructor
  · intro h
    generalize hs : x :: t = s at h
    cases h with
    | @seq _ _ u v ha hb =>
      cases u with
      | nil =>
        obtain rfl : x :: t = v := hs
        exact .inr ⟨ha, hb⟩
      | cons y u =>
        obtain ⟨rfl, rfl⟩ := List.cons.inj hs
        exact .inl ⟨u, v, rfl, ha, hb⟩
  · rintro (⟨u, v, rfl, ha, hb⟩ | ⟨ha, hb⟩)
    · exact Denotes.seq ha hb
    · simpa using Denotes.seq ha hb

theorem denotes_many_cons {a : Pattern} {x : CodePoint} {t : Text} (h : Denotes (many a) (x :: t)) :
    ∃ u v, t = u ++ v ∧ Denotes a (x :: u) ∧ Denotes (many a) v := by
  generalize hp : many a = p at h
  generalize hs : x :: t = s at h
  induction h with
  | empty | element _ | seq _ _ | left _ | right _ | manyNil => cases hp <;> cases hs
  | @manyCons b u v ha hm _ ih =>
    cases hp
    cases u with
    | nil => exact ih rfl hs
    | cons y u =>
      obtain ⟨rfl, rfl⟩ := List.cons.inj hs
      exact ⟨u, v, rfl, ha, hm⟩

theorem denotes_derivative_element (p : Char → Bool) (x : CodePoint) (t : Text) :
    Denotes ((element p).derivative x) t ↔ Denotes (element p) (x :: t) := by
  cases x with
  | surrogate i => exact ⟨nofun, nofun⟩
  | char c =>
    simp only [derivative]
    split
    next hc =>
      constructor
      · intro h
        cases h
        exact .element hc
      · intro h
        cases h
        exact .empty
    next hc =>
      constructor
      · nofun
      · intro h
        cases h with
        | element h => exact absurd h hc

theorem denotes_derivative_seq {a b : Pattern} {x : CodePoint}
    (ha : ∀ t, Denotes (a.derivative x) t ↔ Denotes a (x :: t))
    (hb : ∀ t, Denotes (b.derivative x) t ↔ Denotes b (x :: t)) (t : Text) :
    Denotes ((seq a b).derivative x) t ↔ Denotes (seq a b) (x :: t) := by
  have key : Denotes (mkSeq (a.derivative x) b) t ↔
      ∃ u v, t = u ++ v ∧ Denotes a (x :: u) ∧ Denotes b v := by
    rw [denotes_mkSeq]
    constructor
    · intro h
      cases h with
      | seq hu hv => exact ⟨_, _, rfl, (ha _).1 hu, hv⟩
    · rintro ⟨u, v, rfl, hu, hv⟩
      exact .seq ((ha _).2 hu) hv
  rw [denotes_seq_cons, derivative]
  split
  -- Only behind a text of `a` that may be empty can the element be one of `b`.
  next hn =>
    rw [denotes_mkAlt]
    constructor
    · intro h
      cases h with
      | left h => exact .inl (key.1 h)
      | right h => exact .inr ⟨(nullable_iff a).1 hn, (hb _).1 h⟩
    · rintro (h | ⟨_, h⟩)
      · exact .left (key.2 h)
      · exact .right ((hb _).2 h)
  next hn =>
    rw [key]
    constructor
    · exact .inl
    · rintro (h | ⟨h, _⟩)
      · exact h
      · exact absurd ((nullable_iff a).2 h) hn

theorem denotes_derivative (a : Pattern) (x : CodePoint) (t : Text) :
    Denotes (a.derivative x) t ↔ Denotes a (x :: t) := by
  induction a generalizing t with
  | never => exact ⟨nofun, nofun⟩
  | empty => exact ⟨nofun, nofun⟩
  | element p => exact denotes_derivative_element p x t
  | seq a b iha ihb => exact denotes_derivative_seq iha ihb t
  | alt a b iha ihb =>
    rw [derivative, denotes_mkAlt]
    constructor
    · intro h
      cases h with
      | left h => exact .left ((iha _).1 h)
      | right h => exact .right ((ihb _).1 h)
    · intro h
      cases h with
      | left h => exact .left ((iha _).2 h)
      | right h => exact .right ((ihb _).2 h)
  | many a iha =>
    rw [derivative, denotes_mkSeq]
    constructor
    · intro h
      cases h with
      | seq ha hb => exact .manyCons ((iha _).1 ha) hb
    · intro h
      obtain ⟨u, v, rfl, ha, hm⟩ := denotes_many_cons h
      exact .seq ((iha _).2 ha) hm

theorem matches_iff_denotes (a : Pattern) (t : Text) : a.isMatch t = true ↔ Denotes a t := by
  induction t generalizing a with
  | nil => exact nullable_iff a
  | cons c r ih => rw [isMatch, ih, denotes_derivative]

end Pattern
end JsonnetPreview
