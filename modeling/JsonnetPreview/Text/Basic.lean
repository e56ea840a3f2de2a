
namespace JsonnetPreview

/-- A Unicode character, or one half of a surrogate pair that stands alone. An escape in a JSON
string can name such a half, and it is then carried along like any other element. -/
inductive CodePoint where
  | char (c : Char)
  | surrogate (offset : Fin 0x800)
  deriving DecidableEq, Repr

abbrev Text := List CodePoint

namespace CodePoint

def value : CodePoint → Nat
  | char c => c.toNat
  | surrogate i => 0xD800 + i

def ofValue (n : Nat) : CodePoint :=
  if h : 0xD800 ≤ n ∧ n < 0xE000 then .surrogate ⟨n - 0xD800, by omega⟩
  else .char (Char.ofNat n)

instance : Coe Char CodePoint := ⟨.char⟩

theorem value_surrogate_lt (i : Fin 0x800) : (surrogate i).value < 0xE000 := by
  simp only [value]
  omega

end CodePoint

namespace Text

def ofString (s : String) : Text := s.toList.map .char

instance : Coe String Text := ⟨ofString⟩

def ofNat (n : Nat) : Text := (Nat.toDigits 10 n).map .char

def ofInt : Int → Text
  | .ofNat n => ofNat n
  | .negSucc n => .char '-' :: ofNat (n + 1)

def joinWith (separator : Text) (parts : List Text) : Text := separator.intercalate parts

def replicate (n : Nat) (c : Char) : Text := List.replicate n (.char c)

def padLeft (width : Nat) (t : Text) : Text := replicate (width - t.length) ' ' ++ t

/-- What stands before the first element that satisfies `p`, and what stands after it. There is no
second part if no element does. -/
def breakAt (p : CodePoint → Bool) : Text → Text × Option Text
  | [] => ([], none)
  | c :: r => if p c then ([], some r) else ((c :: (breakAt p r).1), (breakAt p r).2)

theorem breakAt_append_cons {p : CodePoint → Bool} {t : Text} (ht : ∀ c ∈ t, p c = false)
    {x : CodePoint} (hx : p x = true) (r : Text) : breakAt p (t ++ x :: r) = (t, some r) := by
  induction t with
  | nil => simp [breakAt, hx]
  | cons c t ih =>
    obtain ⟨hc, ht⟩ := List.forall_mem_cons.1 ht
    simp [breakAt, hc, ih ht]

end Text
end JsonnetPreview
