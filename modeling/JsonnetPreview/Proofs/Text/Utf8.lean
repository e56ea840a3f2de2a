import JsonnetPreview.Text.Utf8
import Mathlib.Data.List.Basic
import Mathlib.Data.List.TakeWhile

namespace JsonnetPreview

namespace CodePoint

theorem value_char (x : Char) : (char x).value < 0xD800 ∨ 0xE000 ≤ (char x).value := by
  have hx := x.valid
  simp only [UInt32.isValidChar, Nat.isValidChar] at hx
  show x.val.toNat < 0xD800 ∨ 0xE000 ≤ x.val.toNat
  omega

theorem ofValue_value (c : CodePoint) : ofValue c.value = c := by
  cases c with
  | char x =>
      have hx := value_char x
      rw [ofValue, dif_neg (by omega), value, Char.ofNat_toNat]
  | surrogate i =>
      have hrange : 0xD800 ≤ 0xD800 + i.val ∧ 0xD800 + i.val < 0xE000 := by omega
      rw [value, ofValue, dif_pos hrange]
      exact congrArg surrogate (Fin.ext (Nat.add_sub_cancel_left ..))

theorem value_ofValue {n : Nat} (h : 0xD800 ≤ (ofValue n).value ∧ (ofValue n).value < 0xE000) :
    (ofValue n).value = n := by
  rw [ofValue] at h ⊢
  split at h
  next hn => rw [dif_pos hn, value, Nat.add_sub_cancel' hn.1]
  next =>
    have hchar := value_char (Char.ofNat n)
    omega

theorem value_lt (c : CodePoint) : c.value < 0x110000 := by
  cases c with
  | char c =>
      have hc := c.valid
      simp only [UInt32.isValidChar, Nat.isValidChar] at hc
      show c.val.toNat < 0x110000
      omega
  | surrogate i => exact Nat.lt_trans (value_surrogate_lt i) (by decide)

end CodePoint

namespace Text

def IsScalar (t : Text) : Prop := ∀ c ∈ t, ∃ x : Char, c = .char x

theorem isScalar_nil : IsScalar [] := List.forall_mem_nil _

theorem isScalar_map (cs : List Char) : IsScalar (cs.map .char) := by
  intro c hc
  obtain ⟨x, -, rfl⟩ := List.mem_map.1 hc
  exact ⟨x, rfl⟩

theorem isScalar_replicate (n : Nat) (x : Char) : IsScalar (replicate n x) := fun _ hc =>
  ⟨x, List.eq_of_mem_replicate hc⟩

namespace IsScalar

variable {t u : Text}

theorem cons (x : Char) (h : t.IsScalar) : IsScalar (.char x :: t) :=
  List.forall_mem_cons.2 ⟨⟨x, rfl⟩, h⟩

theorem append (h : t.IsScalar) (hu : u.IsScalar) : IsScalar (t ++ u) :=
  List.forall_mem_append.2 ⟨h, hu⟩

theorem take (h : t.IsScalar) (n : Nat) : IsScalar (t.take n) := fun c hc =>
  h c (List.mem_of_mem_take hc)

theorem drop (h : t.IsScalar) (n : Nat) : IsScalar (t.drop n) := fun c hc =>
  h c (List.mem_of_mem_drop hc)

end IsScalar

theorem isScalar_ofInt (n : Int) : (ofInt n).IsScalar := by
  cases n with
  | ofNat n => exact isScalar_map _
  | negSucc n => exact (isScalar_map _).cons '-'

end Text

namespace Utf8

/-- The first byte of a character, those behind it, and the number of the character. The second
byte is bounded where it could make a longer form than needed, half of a surrogate pair, or a
number beyond all characters. -/
inductive Spells : Nat → List Nat → Nat → Prop
  | one {a : Nat} (ha : a < 0x80) : Spells a [] a
  | two {a s : Nat} (ha : 2 ≤ a ∧ a < 0x20) (hs : s < 0x40) :
      Spells (0xC0 + a) [0x80 + s] (a * 0x40 + s)
  | three {a s t : Nat} (ha : a < 0x10) (hs : s < 0x40) (ht : t < 0x40) (hshort : a = 0 → 0x20 ≤ s)
      (hhalf : a = 0xD → s < 0x20) :
      Spells (0xE0 + a) [0x80 + s, 0x80 + t] ((a * 0x40 + s) * 0x40 + t)
  | four {a s t u : Nat} (ha : a < 5) (hs : s < 0x40) (ht : t < 0x40) (hu : u < 0x40)
      (hshort : a = 0 → 0x10 ≤ s) (hlarge : a = 4 → s < 0x10) :
      Spells (0xF0 + a) [0x80 + s, 0x80 + t, 0x80 + u] (((a * 0x40 + s) * 0x40 + t) * 0x40 + u)

namespace Spells

variable {first n : Nat} {more : List Nat}

theorem isValidChar (h : Spells first more n) : n.isValidChar := by
  unfold Nat.isValidChar
  cases h <;> omega

theorem encodeNumber_eq (h : Spells first more n) : encodeNumber n = first :: more := by
  unfold encodeNumber
  cases h with
  | one ha => rw [if_pos ha]
  | two ha hs =>
      rw [if_neg (by omega), if_pos (by omega)]
      congr <;> omega
  | three ha hs ht hshort =>
      rw [if_neg (by omega), if_neg (by omega), if_pos (by omega)]
      congr <;> omega
  | four ha hs ht hu hshort =>
      rw [if_neg (by omega), if_neg (by omega), if_neg (by omega)]
      congr <;> omega

theorem lt_of_mem (h : Spells first more n) : ∀ b ∈ first :: more, b < 0x100 := by
  cases h <;> simp <;> omega

theorem exists_of_isValidChar (h : n.isValidChar) : ∃ first more, Spells first more n := by
  unfold Nat.isValidChar at h
  by_cases h1 : n < 0x80
  · exact ⟨_, _, .one h1⟩
  · by_cases h2 : n < 0x800
    · have htwo := two (a := n / 0x40) (s := n % 0x40) (by omega) (by omega)
      have hn : n / 0x40 * 0x40 + n % 0x40 = n := by omega
      exact ⟨_, _, hn ▸ htwo⟩
    · by_cases h3 : n < 0x10000
      · have hthree := three (a := n / 0x1000) (s := n / 0x40 % 0x40) (t := n % 0x40) (by omega)
          (by omega) (by omega) (by omega) (by omega)
        have hn : (n / 0x1000 * 0x40 + n / 0x40 % 0x40) * 0x40 + n % 0x40 = n := by omega
        exact ⟨_, _, hn ▸ hthree⟩
      · have hfour := four (a := n / 0x40000) (s := n / 0x1000 % 0x40) (t := n / 0x40 % 0x40)
          (u := n % 0x40) (by omega) (by omega) (by omega) (by omega) (by omega) (by omega)
        have hn : ((n / 0x40000 * 0x40 + n / 0x1000 % 0x40) * 0x40 + n / 0x40 % 0x40) * 0x40 +
            n % 0x40 = n := by omega
        exact ⟨_, _, hn ▸ hfour⟩

end Spells

theorem continuations_of {first second : Nat} {more : List Nat} (hfollow : mayFollow first second)
    (hmore : ∀ b ∈ more, isContinuation b) (rest : List Nat) :
    continuations first (more.length + 1) (second :: (more ++ rest)) = more.length + 1 := by
  rw [continuations, if_pos hfollow, List.take_left, List.takeWhile_eq_self_iff.2 hmore,
    Nat.add_comm]

theorem of_continuations {first k : Nat} {rest : List Nat}
    (h : continuations first (k + 1) rest = k + 1) : ∃ second more tail,
      rest = second :: (more ++ tail) ∧ more.length = k ∧ mayFollow first second ∧
        ∀ b ∈ more, isContinuation b := by
  cases rest with
  | nil => cases h
  | cons second rest =>
      rw [continuations] at h
      split at h
      next hfollow =>
        have hlength : ((rest.take k).takeWhile isContinuation).length = k := by omega
        have hprefix := List.takeWhile_prefix (l := rest.take k) isContinuation
        have htake : (rest.take k).takeWhile isContinuation = rest.take k :=
          hprefix.eq_of_length_le (by rw [hlength]; exact List.length_take_le ..)
        refine ⟨second, rest.take k, rest.drop k, by rw [List.take_append_drop],
          by rw [← htake, hlength], hfollow, List.takeWhile_eq_self_iff.1 htake⟩
      next => cases h

theorem isContinuation_iff {b : Nat} : isContinuation b ↔ ∃ s < 0x40, b = 0x80 + s := by
  simp only [isContinuation, Bool.and_eq_true, decide_eq_true_eq]
  constructor
  · intro h
    exact ⟨b - 0x80, by omega, by omega⟩
  · rintro ⟨s, hs, rfl⟩
    omega

theorem mayFollow_iff {first second : Nat} : mayFollow first second ↔
    ∃ s < 0x40, second = 0x80 + s ∧ (first = 0xE0 → 0x20 ≤ s) ∧ (first = 0xED → s < 0x20) ∧
      (first = 0xF0 → 0x10 ≤ s) ∧ (first = 0xF4 → s < 0x10) := by
  simp only [mayFollow, Bool.and_eq_true, isContinuation_iff, Bool.not_eq_true',
    Bool.and_eq_false_iff, beq_eq_false_iff_ne, decide_eq_false_iff_not]
  constructor
  · rintro ⟨⟨⟨⟨⟨s, hs, rfl⟩, h1⟩, h2⟩, h3⟩, h4⟩
    exact ⟨s, hs, rfl, by omega, by omega, by omega, by omega⟩
  · rintro ⟨s, hs, rfl, h1, h2, h3, h4⟩
    exact ⟨⟨⟨⟨⟨s, hs, rfl⟩, by omega⟩, by omega⟩, by omega⟩, by omega⟩

theorem width?_eq_some_iff {first width : Nat} : width? first = some width ↔
    width = 1 ∧ first < 0x80 ∨ width = 2 ∧ 0xC2 ≤ first ∧ first < 0xE0 ∨
      width = 3 ∧ 0xE0 ≤ first ∧ first < 0xF0 ∨ width = 4 ∧ 0xF0 ≤ first ∧ first < 0xF5 := by
  unfold width?
  split
  · simp; omega
  · split
    · simp; omega
    · split
      · simp; omega
      · split
        · simp; omega
        · split
          · simp; omega
          · simp; omega

@[simp]
theorem number_two (a s : Nat) : number 2 a [s] = (a - 0xC0) * 0x40 + (s - 0x80) := rfl

@[simp]
theorem number_three (a s t : Nat) :
    number 3 a [s, t] = ((a - 0xE0) * 0x40 + (s - 0x80)) * 0x40 + (t - 0x80) := rfl

@[simp]
theorem number_four (a s t u : Nat) : number 4 a [s, t, u] =
    (((a - 0xF0) * 0x40 + (s - 0x80)) * 0x40 + (t - 0x80)) * 0x40 + (u - 0x80) := rfl

theorem decodeFirst_of {offset first width n : Nat} {rest : List Nat}
    (hwidth : width? first = some width)
    (hfound : continuations first (width - 1) rest = width - 1)
    (hn : number width first (rest.take (width - 1)) = n) :
    decodeFirst offset first rest = .ok (.ofValue n, width) := by
  rw [decodeFirst, hwidth]
  simp only [hfound, hn, if_true]

theorem of_decodeFirst {offset first width : Nat} {rest : List Nat} {c : CodePoint}
    (h : decodeFirst offset first rest = .ok (c, width)) :
    width? first = some width ∧ continuations first (width - 1) rest = width - 1 := by
  rw [decodeFirst] at h
  split at h
  next => cases h
  next w hw =>
    dsimp only at h
    split at h
    next hfound =>
      cases h
      exact ⟨hw, hfound⟩
    next => split at h <;> cases h

theorem decodeFirst_of_spells {first n : Nat} {more : List Nat} (h : Spells first more n)
    (offset : Nat) (rest : List Nat) :
    decodeFirst offset first (more ++ rest) = .ok (.ofValue n, more.length + 1) := by
  have hcont {b : Nat} (hb : b < 0x40) : isContinuation (0x80 + b) :=
    isContinuation_iff.2 ⟨b, hb, rfl⟩
  cases h with
  | one ha =>
      have hwidth : width? first = some 1 := width?_eq_some_iff.2 (.inl ⟨rfl, ha⟩)
      have hfound : continuations first 0 rest = 0 := by rw [continuations]
      exact decodeFirst_of hwidth hfound rfl
  | @two a s ha hs =>
      have hwidth : width? (0xC0 + a) = some 2 :=
        width?_eq_some_iff.2 (.inr (.inl ⟨rfl, by omega, by omega⟩))
      have hfollow : mayFollow (0xC0 + a) (0x80 + s) :=
        mayFollow_iff.2 ⟨s, hs, rfl, by omega, by omega, by omega, by omega⟩
      have hmore : ∀ b ∈ ([] : List Nat), isContinuation b := nofun
      have hn : number 2 (0xC0 + a) [0x80 + s] = a * 0x40 + s := by simp
      exact decodeFirst_of hwidth (continuations_of hfollow hmore rest) hn
  | @three a s t ha hs ht hshort hhalf =>
      have hwidth : width? (0xE0 + a) = some 3 :=
        width?_eq_some_iff.2 (.inr (.inr (.inl ⟨rfl, by omega, by omega⟩)))
      have hfollow : mayFollow (0xE0 + a) (0x80 + s) :=
        mayFollow_iff.2 ⟨s, hs, rfl, by omega, by omega, by omega, by omega⟩
      have hmore : ∀ b ∈ [0x80 + t], isContinuation b := by simp [hcont ht]
      have hn : number 3 (0xE0 + a) [0x80 + s, 0x80 + t] = (a * 0x40 + s) * 0x40 + t := by simp
      exact decodeFirst_of hwidth (continuations_of hfollow hmore rest) hn
  | @four a s t u ha hs ht hu hshort hlarge =>
      have hwidth : width? (0xF0 + a) = some 4 :=
        width?_eq_some_iff.2 (.inr (.inr (.inr ⟨rfl, by omega, by omega⟩)))
      have hfollow : mayFollow (0xF0 + a) (0x80 + s) :=
        mayFollow_iff.2 ⟨s, hs, rfl, by omega, by omega, by omega, by omega⟩
      have hmore : ∀ b ∈ [0x80 + t, 0x80 + u], isContinuation b := by simp [hcont ht, hcont hu]
      have hn : number 4 (0xF0 + a) [0x80 + s, 0x80 + t, 0x80 + u] =
          ((a * 0x40 + s) * 0x40 + t) * 0x40 + u := by simp
      exact decodeFirst_of hwidth (continuations_of hfollow hmore rest) hn

theorem spells_of_decodeFirst {offset first width : Nat} {rest : List Nat} {c : CodePoint}
    (h : decodeFirst offset first rest = .ok (c, width)) :
    ∃ more tail n, Spells first more n ∧ rest = more ++ tail := by
  obtain ⟨hwidth, hfound⟩ := of_decodeFirst h
  rcases width?_eq_some_iff.1 hwidth with
    ⟨rfl, hfirst⟩ | ⟨rfl, hlow, hhigh⟩ | ⟨rfl, hlow, hhigh⟩ | ⟨rfl, hlow, hhigh⟩
  · exact ⟨[], rest, first, .one hfirst, rfl⟩
  · obtain ⟨second, more, tail, rfl, hlength, hfollow, hmore⟩ := of_continuations hfound
    obtain ⟨s, hs, rfl, -⟩ := mayFollow_iff.1 hfollow
    obtain rfl := List.eq_nil_of_length_eq_zero hlength
    obtain ⟨a, rfl⟩ := Nat.exists_eq_add_of_le (show 0xC0 ≤ first by omega)
    exact ⟨_, tail, _, .two (by omega) hs, rfl⟩
  · obtain ⟨second, more, tail, rfl, hlength, hfollow, hmore⟩ := of_continuations hfound
    obtain ⟨s, hs, rfl, hshort, hhalf, -⟩ := mayFollow_iff.1 hfollow
    obtain ⟨t, rfl⟩ := List.length_eq_one_iff.1 hlength
    obtain ⟨t, ht, rfl⟩ := isContinuation_iff.1 (hmore t (by simp))
    obtain ⟨a, rfl⟩ := Nat.exists_eq_add_of_le hlow
    exact ⟨_, tail, _, .three (by omega) hs ht (by omega) (by omega), rfl⟩
  · obtain ⟨second, more, tail, rfl, hlength, hfollow, hmore⟩ := of_continuations hfound
    obtain ⟨s, hs, rfl, -, -, hshort, hlarge⟩ := mayFollow_iff.1 hfollow
    obtain ⟨t, u, rfl⟩ := List.length_eq_two.1 hlength
    obtain ⟨t, ht, rfl⟩ := isContinuation_iff.1 (hmore t (by simp))
    obtain ⟨u, hu, rfl⟩ := isContinuation_iff.1 (hmore u (by simp))
    obtain ⟨a, rfl⟩ := Nat.exists_eq_add_of_le hlow
    exact ⟨_, tail, _, .four (by omega) hs ht hu (by omega) (by omega), rfl⟩

theorem decodeFrom_skip (offset : Nat) (more tail : List Nat) :
    decodeFrom offset more.length (more ++ tail) = decodeFrom (offset + more.length) 0 tail := by
  induction more generalizing offset with
  | nil => rfl
  | cons b more ih =>
      rw [List.cons_append, List.length_cons, decodeFrom, ih, Nat.add_right_comm, Nat.add_assoc]

theorem decodeFrom_of_spells {first n : Nat} {more : List Nat} (h : Spells first more n)
    (offset : Nat) (rest : List Nat) : decodeFrom offset 0 (first :: (more ++ rest)) =
      (decodeFrom (offset + 1 + more.length) 0 rest).map (.ofValue n :: ·) := by
  rw [decodeFrom, decodeFirst_of_spells h]
  simp only [bind, Except.bind, Nat.add_sub_cancel, decodeFrom_skip]
  cases decodeFrom (offset + 1 + more.length) 0 rest <;> rfl

theorem decodeFrom_encode {t : Text} (ht : t.IsScalar) (offset : Nat) :
    decodeFrom offset 0 (t.flatMap fun c => encodeNumber c.value) = .ok t := by
  induction t generalizing offset with
  | nil => rfl
  | cons c t ih =>
      obtain ⟨⟨x, rfl⟩, ht'⟩ := List.forall_mem_cons.1 ht
      obtain ⟨first, more, hspells⟩ := Spells.exists_of_isValidChar x.valid
      have hbytes : encodeNumber (CodePoint.char x).value = first :: more := hspells.encodeNumber_eq
      have hvalue : CodePoint.ofValue x.val.toNat = .char x := CodePoint.ofValue_value (.char x)
      rw [List.flatMap_cons, hbytes, List.cons_append, decodeFrom_of_spells hspells, ih ht', hvalue]
      rfl

theorem exists_char_of_isValidChar {n : Nat} (h : n.isValidChar) :
    ∃ x : Char, CodePoint.ofValue n = .char x ∧ x.toNat = n := by
  have hn : ¬ (0xD800 ≤ n ∧ n < 0xE000) := by
    unfold Nat.isValidChar at h
    omega
  refine ⟨Char.ofNat n, by rw [CodePoint.ofValue, dif_neg hn], ?_⟩
  rw [Char.ofNat, dif_pos h]
  rfl

theorem encode_of_decodeFrom {offset : Nat} {bytes : List Nat} {t : Text}
    (h : decodeFrom offset 0 bytes = .ok t) :
    (t.flatMap fun c => encodeNumber c.value) = bytes ∧ t.IsScalar := by
  match bytes with
  | [] =>
      cases h
      exact ⟨rfl, nofun⟩
  | first :: rest =>
      cases hfirst : decodeFirst offset first rest with
      | error e => simp [decodeFrom, hfirst, bind, Except.bind] at h
      | ok decoded =>
          obtain ⟨c, width⟩ := decoded
          obtain ⟨more, tail, n, hspells, rfl⟩ := spells_of_decodeFirst hfirst
          rw [decodeFrom_of_spells hspells] at h
          cases htail : decodeFrom (offset + 1 + more.length) 0 tail with
          | error e => simp [htail, Except.map] at h
          | ok u =>
              obtain ⟨x, hx, hn⟩ := exists_char_of_isValidChar hspells.isValidChar
              obtain rfl : CodePoint.ofValue n :: u = t := by simpa [htail, Except.map] using h
              -- The bytes behind the first character are fewer.
              have hlength : tail.length < (first :: (more ++ tail)).length := by
                simp only [List.length_cons, List.length_append]
                omega
              obtain ⟨hbytes, hscalar⟩ := encode_of_decodeFrom htail
              have hvalue : encodeNumber (CodePoint.char x).value = first :: more :=
                (congrArg encodeNumber hn).trans hspells.encodeNumber_eq
              rw [hx, List.flatMap_cons, hbytes, hvalue]
              exact ⟨rfl, List.forall_mem_cons.2 ⟨⟨x, rfl⟩, hscalar⟩⟩
termination_by bytes.length

theorem map_toNat_encode {t : Text} (ht : t.IsScalar) :
    (encode t).map UInt8.toNat = t.flatMap fun c => encodeNumber c.value := by
  rw [encode, List.map_flatMap]
  refine List.flatMap_congr fun c hc => ?_
  obtain ⟨x, rfl⟩ := ht c hc
  obtain ⟨first, more, hspells⟩ := Spells.exists_of_isValidChar x.valid
  have hbytes : encodeNumber (CodePoint.char x).value = first :: more := hspells.encodeNumber_eq
  rw [hbytes, List.map_map]
  have hbyte : ∀ b ∈ first :: more, (UInt8.toNat ∘ UInt8.ofNat) b = id b := fun b hb =>
    Nat.mod_eq_of_lt (hspells.lt_of_mem b hb)
  rw [List.map_congr_left hbyte, List.map_id]

/-- Bytes are decoded to the text that they encode, and only if they encode one. -/
theorem decode_eq_ok_iff {bytes : Octets} {t : Text} :
    decode bytes = .ok t ↔ encode t = bytes ∧ t.IsScalar := by
  constructor
  · intro h
    obtain ⟨hbytes, hscalar⟩ := encode_of_decodeFrom h
    refine ⟨List.map_injective_iff.2 (fun a b => UInt8.toNat_inj.1) ?_, hscalar⟩
    exact (map_toNat_encode hscalar).trans hbytes
  · rintro ⟨rfl, hscalar⟩
    rw [decode, map_toNat_encode hscalar]
    exact decodeFrom_encode hscalar 0

theorem encode_inj {t u : Text} (ht : t.IsScalar) (hu : u.IsScalar) (h : encode t = encode u) :
    t = u :=
  Except.ok.inj ((decode_eq_ok_iff.2 ⟨rfl, ht⟩).symm.trans (decode_eq_ok_iff.2 ⟨h.symm, hu⟩))

end Utf8
end JsonnetPreview
