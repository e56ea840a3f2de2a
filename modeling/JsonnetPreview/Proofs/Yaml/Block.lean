import JsonnetPreview.Proofs.Yaml.Token

namespace JsonnetPreview.Yaml

variable {n m j k indent column : Nat} {c d : CodePoint} {r s t u u' : Text} {v v' : Json}

theorem blanks_cons_inj (hc : isBlank c = false) (hd : isBlank d = false)
    (h : Text.replicate j ' ' ++ c :: r = Text.replicate k ' ' ++ d :: s) :
    j = k ∧ c :: r = d :: s := by
  induction j generalizing k with
  | zero =>
      cases k with
      | zero => exact ⟨rfl, h⟩
      | succ k =>
          obtain rfl := (List.cons.inj h).1
          cases hc
  | succ j ih =>
      cases k with
      | zero =>
          obtain rfl := (List.cons.inj h).1
          cases hd
      | succ k =>
          obtain ⟨rfl, hrest⟩ := ih (List.cons.inj h).2
          exact ⟨rfl, hrest⟩

theorem lineStart_cons_inj (hc : isBlank c = false) (hd : isBlank d = false)
    (h : lineStart j ++ c :: r = lineStart k ++ d :: s) : j = k ∧ c :: r = d :: s :=
  blanks_cons_inj hc hd (List.cons.inj h).2

theorem goesOn_of_lt (hc : isBlank c = false) (h : j < n) (r : Text) :
    goesOn n (Text.replicate j ' ' ++ c :: r) = false := by
  induction j generalizing n with
  | zero =>
      obtain ⟨n, rfl⟩ := Nat.exists_eq_succ_of_ne_zero (Nat.ne_of_gt h)
      have hne : c ≠ .char ' ' := of_decide_eq_false hc
      simp [goesOn, Text.replicate, List.replicate_succ, hne.symm]
  | succ j ih =>
      obtain ⟨n, rfl⟩ := Nat.exists_eq_succ_of_ne_zero (Nat.ne_of_gt (Nat.zero_lt_of_lt h))
      have hrest := ih (Nat.lt_of_succ_lt_succ h)
      simpa [goesOn, Text.replicate, List.replicate_succ] using hrest

/-- The text is over, or its next line is indented by less than `n`. -/
inductive Stops (n : Nat) : Text → Prop
  | last : Stops n [.char '\n']
  | line {j : Nat} (h : j < n) {c : CodePoint} (hc : isBlank c = false) (r : Text) :
      Stops n (lineStart j ++ c :: r)

theorem Stops.mono (h : Stops n u) (hn : n ≤ m) : Stops m u := by
  cases h with
  | last => exact .last
  | line h hc r => exact .line (h.trans_le hn) hc r

theorem Stops.head (h : Stops n u) : ∃ r, u = .char '\n' :: r := by
  cases h with
  | last | line => exact ⟨_, rfl⟩

theorem Stops.follows (h : Stops n u) : Follows n u := by
  cases h with
  | last => exact ⟨by cases n <;> rfl, by decide⟩
  | line h hc r =>
      refine ⟨?_, by simp [lineStart]⟩
      rw [lineStart, List.cons_append, readPlain, if_pos rfl, goesOn_of_lt hc h]
      rfl

theorem Stops.ne_line (h : Stops n u) (hc : isBlank c = false) (hn : n ≤ k) :
    u ≠ lineStart k ++ c :: r := by
  intro heq
  cases h with
  | last =>
      have hnil := (List.cons.inj heq).2
      simp at hnil
  | line h hd r =>
      obtain ⟨rfl, -⟩ := lineStart_cons_inj hd hc heq
      omega

/-- What may follow items at the column `n`: no further item. -/
structure EndsItems (n : Nat) (u : Text) : Prop where
  stops : Stops (n + 1) u
  noItem : ∀ r, u ≠ lineStart n ++ .char '-' :: .char ' ' :: r

theorem Stops.endsItems (h : Stops n u) : EndsItems n u where
  stops := h.mono (Nat.le_succ n)
  noItem _ := h.ne_line rfl (Nat.le_refl n)

def writeMember (n : Nat) (u : Text) (key : Text) (v : Json) : Text :=
  memberText n key (fun column => writeAfterKey n column u v) (fun _ => writeAfterIndicator n u v)

/-- What stands at a column for a value. -/
def writeAt (f : Fold) (n : Nat) (u : Text) : Json → Text
  | .arr (v :: r) => .char '-' :: writeAfterIndicator n (writeItems n u r) v
  | .obj ((key, v) :: r) => writeMember n (writeMembers n u r) key v
  | v => writeLeaf f n v ++ u

theorem isLeaf_or (v : Json) :
    IsLeaf v ∨ (∃ x r, v = .arr (x :: r)) ∨ ∃ key x r, v = .obj ((key, x) :: r) := by
  have hconstant {v : Json} (h : v ∈ constants) : IsLeaf v := .literal (.constant h)
  cases v with
  | null => exact .inl (hconstant (by simp [constants]))
  | bool b => exact .inl (hconstant (by cases b <;> simp [constants]))
  | int n => exact .inl (.literal (.int n))
  | float x => exact .inl (.literal (.float x))
  | str t => exact .inl (.str t)
  | arr items =>
      cases items with
      | nil => exact .inl (hconstant (by simp [constants]))
      | cons x r => exact .inr (.inl ⟨x, r, rfl⟩)
  | obj members =>
      cases members with
      | nil => exact .inl (hconstant (by simp [constants]))
      | cons m r => exact .inr (.inr ⟨m.1, m.2, r, rfl⟩)

theorem IsLeaf.ne_arr (hv : IsLeaf v) (x : Json) (r : List Json) : v ≠ .arr (x :: r) := by
  rintro rfl
  cases hv with | literal h => cases h with | constant h => simp [constants] at h

theorem IsLeaf.ne_obj (hv : IsLeaf v) (key : Text) (x : Json) (r : List (Text × Json)) :
    v ≠ .obj ((key, x) :: r) := by
  rintro rfl
  cases hv with | literal h => cases h with | constant h => simp [constants] at h

theorem IsLeaf.writeAt_eq (hv : IsLeaf v) (f : Fold) (n : Nat) (u : Text) :
    writeAt f n u v = writeLeaf f n v ++ u := writeAt.eq_3 f n u v hv.ne_arr hv.ne_obj

theorem writeAfterIndicator_eq (indent : Nat) (u : Text) (v : Json) :
    writeAfterIndicator indent u v = .char ' ' :: writeAt ⟨indent + 2, true⟩ (indent + 2) u v := by
  obtain hv | ⟨x, r, rfl⟩ | ⟨key, x, r, rfl⟩ := isLeaf_or v
  · rw [hv.writeAt_eq, writeAfterIndicator.eq_3 _ _ _ hv.ne_arr hv.ne_obj]
  · rfl
  · rfl

theorem IsLeaf.writeAfterKey_eq (hv : IsLeaf v) (indent column : Nat) (u : Text) :
    writeAfterKey indent column u v =
      .char ' ' :: (writeLeaf ⟨indent + 2, true⟩ (column + 1) v ++ u) := by
  fun_cases writeAfterKey indent column u v with
  | case1 | case3 | case5 => rfl
  | case2 items hne =>
      obtain ⟨x, r, rfl⟩ := List.exists_cons_of_ne_nil hne
      exact absurd rfl (hv.ne_arr x r)
  | case4 members hne =>
      obtain ⟨m, r, rfl⟩ := List.exists_cons_of_ne_nil hne
      exact absurd rfl (hv.ne_obj m.1 m.2 r)

theorem startsWithGap_writeAfterKey (indent column : Nat) (u : Text) (v : Json) :
    startsWithGap (writeAfterKey indent column u v) = true := by
  obtain hv | ⟨x, r, rfl⟩ | ⟨key, x, r, rfl⟩ := isLeaf_or v
  · rw [hv.writeAfterKey_eq]
    rfl
  · rfl
  · rfl

theorem follows_afterKey (n indent column : Nat) (u : Text) (v : Json) :
    Follows n (.char ':' :: writeAfterKey indent column u v) :=
  follows_colon (startsWithGap_writeAfterKey indent column u v) n

section Member

variable {key key' : Text}

theorem writeMember_simple (hkey : isSimpleKey key = true) (n : Nat) (u : Text) (v : Json) :
    ∃ column, writeMember n u key v =
      writeLeaf ⟨n + 2, false⟩ n (.str key) ++ .char ':' :: writeAfterKey n column u v :=
  ⟨_, if_pos hkey⟩

theorem writeMember_complex (hkey : ¬isSimpleKey key = true) (n : Nat) (u : Text) (v : Json) :
    writeMember n u key v =
      .char '?' :: .char ' ' :: (writeLeaf ⟨n + 2, true⟩ (n + 2) (.str key) ++
        (lineStart n ++ .char ':' :: writeAfterIndicator n u v)) := by
  rw [writeMember, memberText, if_neg hkey, List.append_assoc]
  rfl

theorem readToken_key (hkey : isSimpleKey key = true) (hu : Follows n u) (indent : Nat) :
    readToken n (writeLeaf ⟨indent + 2, false⟩ indent (.str key) ++ u) = (tokenOf key, u) := by
  have hline : multiline key = false := by simpa using (Bool.and_eq_true_iff.1 hkey).2
  exact readToken_writeString (by simp) (by simp [hline]) hu indent

theorem begins_writeMember (n : Nat) (u key : Text) (v : Json) :
    Begins (writeMember n u key v) := by
  by_cases hkey : isSimpleKey key = true
  · obtain ⟨column, hwritten⟩ := writeMember_simple hkey n u v
    rw [hwritten]
    exact begins_writeLeaf (.str key) rfl (follows_afterKey ..) _
  · rw [writeMember_complex hkey]
    exact ⟨⟨_, _, rfl, rfl⟩, by simp⟩

theorem writeLeaf_ne_writeMember {f : Fold} (hv : IsLeaf v) (hf : f.indent = j) (hu : Stops j u)
    (column n : Nat) (u' key : Text) (v' : Json) :
    writeLeaf f column v ++ u ≠ writeMember n u' key v' := by
  intro h
  by_cases hkey : isSimpleKey key = true
  · obtain ⟨column', hwritten⟩ := writeMember_simple hkey n u' v'
    have hleaf := readToken_writeLeaf hv hf hu.follows column
    rw [h, hwritten, readToken_key hkey (follows_afterKey ..)] at hleaf
    obtain ⟨r, rfl⟩ := hu.head
    cases congrArg Prod.snd hleaf
  · rw [writeMember_complex hkey] at h
    exact writeLeaf_ne_question hv hf hu.follows column _ h

theorem writeMember_simple_ne_complex (hkey : isSimpleKey key = true)
    (hkey' : ¬isSimpleKey key' = true) (n : Nat) (u u' : Text) (v v' : Json) :
    writeMember n u key v ≠ writeMember n u' key' v' := by
  obtain ⟨column, hwritten⟩ := writeMember_simple hkey n u v
  rw [hwritten, writeMember_complex hkey']
  exact writeLeaf_ne_question (.str key) rfl (follows_afterKey ..) _ _

/-- A key determines its text with the end of it, so that what stands behind is left. -/
theorem writeMember_inj (h : writeMember n u key v = writeMember n u' key' v') :
    key = key' ∧ ((∃ column, writeAfterKey n column u v = writeAfterKey n column u' v') ∨
      writeAfterIndicator n u v = writeAfterIndicator n u' v') := by
  by_cases hkey : isSimpleKey key = true
  · by_cases hkey' : isSimpleKey key' = true
    · obtain ⟨column, hwritten⟩ := writeMember_simple hkey n u v
      obtain ⟨column', hwritten'⟩ := writeMember_simple hkey' n u' v'
      have hread := readToken_key hkey (follows_afterKey 0 n column u v) n
      rw [← hwritten, h, hwritten', readToken_key hkey' (follows_afterKey ..)] at hread
      obtain rfl : key = key' := tokenOf_injective (congrArg Prod.fst hread).symm
      -- One key has one length, so both values follow it at the same column.
      rw [writeMember, writeMember, memberText, memberText, if_pos hkey, if_pos hkey] at h
      exact ⟨rfl, .inl ⟨_, (List.cons.inj (List.append_cancel_left h)).2⟩⟩
    · exact absurd h (writeMember_simple_ne_complex hkey hkey' n u u' v v')
  · by_cases hkey' : isSimpleKey key' = true
    · exact absurd h.symm (writeMember_simple_ne_complex hkey' hkey n u' u v' v)
    · rw [writeMember_complex hkey, writeMember_complex hkey'] at h
      have hrest := (List.cons.inj (List.cons.inj h).2).2
      have hfollows (r : Text) : Follows (n + 2) (lineStart n ++ .char ':' :: r) :=
        Stops.follows (.line (by omega) rfl r)
      have hread := readToken_writeLeaf (f := ⟨n + 2, true⟩) (.str key) rfl
        (hfollows (writeAfterIndicator n u v)) (n + 2)
      rw [hrest, readToken_writeLeaf (.str key') rfl (hfollows _)] at hread
      obtain rfl : key = key' := tokenOf_injective (congrArg Prod.fst hread).symm
      have hvalue := List.append_cancel_left (List.append_cancel_left hrest)
      exact ⟨rfl, .inr (List.cons.inj hvalue).2⟩

end Member

/-- Two values whose texts are alike, with items at one column and members at another: they are
equal, or what is written of their items is. -/
inductive Alike (i m : Nat) (u u' : Text) : Json → Json → Prop
  | leaf (v : Json) (h : u = u') : Alike i m u u' v v
  | items {r r' : List Json} (h : writeItems i u r = writeItems i u' r') :
      Alike i m u u' (.arr r) (.arr r')
  | members {r r' : List (Text × Json)} (h : writeMembers m u r = writeMembers m u' r') :
      Alike i m u u' (.obj r) (.obj r')

theorem eq_of_writeLeaf {f f' : Fold} {column column' : Nat} (hv : IsLeaf v) (hv' : IsLeaf v')
    (hf : f.indent = n) (hf' : f'.indent = n) (hu : Follows n u) (hu' : Follows n u')
    (h : writeLeaf f column v ++ u = writeLeaf f' column' v' ++ u') : v = v' ∧ u = u' := by
  have hread := readToken_writeLeaf hv hf hu column
  rw [h, readToken_writeLeaf hv' hf' hu' column'] at hread
  exact ⟨token_injective hv hv' (congrArg Prod.fst hread).symm, (congrArg Prod.snd hread).symm⟩

theorem writeLeaf_injective {f : Fold} {column column' : Nat} (hv : IsLeaf v) (hv' : IsLeaf v')
    (h : writeLeaf f column v = writeLeaf f column' v') : v = v' :=
  (eq_of_writeLeaf hv hv' rfl rfl Stops.last.follows Stops.last.follows
    (congrArg (· ++ [.char '\n']) h)).1

section At

variable {f : Fold} {key : Text} {x y : Json} {items : List Json} {members : List (Text × Json)}

theorem exists_writeAt_arr (f : Fold) (n : Nat) (u : Text) (x : Json) (items : List Json) :
    ∃ r, writeAt f n u (.arr (x :: items)) = .char '-' :: .char ' ' :: r := by
  rw [writeAt, writeAfterIndicator_eq]
  exact ⟨_, rfl⟩

theorem writeAt_leaf_ne_arr (hv : IsLeaf v) (hf : f.indent = j) (hu : Follows j u) :
    writeAt f n u v ≠ writeAt f n u' (.arr (x :: items)) := by
  obtain ⟨r, hr⟩ := exists_writeAt_arr f n u' x items
  rw [hv.writeAt_eq, hr]
  exact (begins_writeLeaf hv hf hu n).noItem r

theorem writeAt_leaf_ne_obj (hv : IsLeaf v) (hf : f.indent = j) (hu : Stops j u) :
    writeAt f n u v ≠ writeAt f n u' (.obj ((key, x) :: members)) := by
  rw [hv.writeAt_eq]
  exact writeLeaf_ne_writeMember hv hf hu n n _ key x

theorem writeAt_obj_ne_arr : writeAt f n u (.obj ((key, x) :: members)) ≠
    writeAt f n u' (.arr (y :: items)) := by
  obtain ⟨r, hr⟩ := exists_writeAt_arr f n u' y items
  rw [hr]
  exact (begins_writeMember n _ key x).noItem r

theorem alike_of_writeAt (hf : f.indent = j) (hu : Stops j u) (hu' : Stops j u')
    (h : writeAt f n u v = writeAt f n u' v') : Alike n n u u' v v' := by
  obtain hv | ⟨x, r, rfl⟩ | ⟨key, x, r, rfl⟩ := isLeaf_or v
  · obtain hv' | ⟨x', r', rfl⟩ | ⟨key', x', r', rfl⟩ := isLeaf_or v'
    · rw [hv.writeAt_eq, hv'.writeAt_eq] at h
      obtain ⟨rfl, hrest⟩ := eq_of_writeLeaf hv hv' hf hf hu.follows hu'.follows h
      exact .leaf v hrest
    · exact absurd h (writeAt_leaf_ne_arr hv hf hu.follows)
    · exact absurd h (writeAt_leaf_ne_obj hv hf hu)
  · obtain hv' | ⟨x', r', rfl⟩ | ⟨key', x', r', rfl⟩ := isLeaf_or v'
    · exact absurd h.symm (writeAt_leaf_ne_arr hv' hf hu'.follows)
    · exact .items (congrArg (lineStart n ++ ·) h)
    · exact absurd h.symm writeAt_obj_ne_arr
  · obtain hv' | ⟨x', r', rfl⟩ | ⟨key', x', r', rfl⟩ := isLeaf_or v'
    · exact absurd h.symm (writeAt_leaf_ne_obj hv' hf hu')
    · exact absurd h writeAt_obj_ne_arr
    · exact .members (congrArg (lineStart n ++ ·) h)

end At

theorem alike_of_writeAfterIndicator (hu : Stops (indent + 2) u) (hu' : Stops (indent + 2) u')
    (h : writeAfterIndicator indent u v = writeAfterIndicator indent u' v') :
    Alike (indent + 2) (indent + 2) u u' v v' := by
  rw [writeAfterIndicator_eq, writeAfterIndicator_eq] at h
  exact alike_of_writeAt rfl hu hu' (List.cons.inj h).2

theorem exists_writeMembers_eq (n : Nat) (u : Text) (m : Text × Json)
    (members : List (Text × Json)) : ∃ c t,
      writeMembers n u (m :: members) = lineStart n ++ c :: t ∧ isBlank c = false ∧
        ∀ r, c :: t ≠ .char '-' :: .char ' ' :: r := by
  have hbegins := begins_writeMember n (writeMembers n u members) m.1 m.2
  obtain ⟨c, t, ht, hc⟩ := hbegins.head
  exact ⟨c, t, congrArg (lineStart n ++ ·) ht, hc, fun r hr => hbegins.noItem r (ht.trans hr)⟩

theorem writeItems_ne_writeMembers (x : Json) (items : List Json) (member : Text × Json)
    (members : List (Text × Json)) :
    writeItems indent u (x :: items) ≠ writeMembers (indent + 2) u' (member :: members) := by
  obtain ⟨c, t, ht, hc, -⟩ := exists_writeMembers_eq (indent + 2) u' member members
  rw [ht, writeItems]
  intro h
  have hcolumn := (lineStart_cons_inj rfl hc h).1
  omega

theorem alike_of_writeAfterKey (hu : Stops (indent + 2) u) (hu' : Stops (indent + 2) u')
    (h : writeAfterKey indent column u v = writeAfterKey indent column u' v') :
    Alike indent (indent + 2) u u' v v' := by
  obtain hv | ⟨x, r, rfl⟩ | ⟨key, x, r, rfl⟩ := isLeaf_or v
  · rw [hv.writeAfterKey_eq] at h
    obtain hv' | ⟨x', r', rfl⟩ | ⟨key', x', r', rfl⟩ := isLeaf_or v'
    · rw [hv'.writeAfterKey_eq] at h
      obtain ⟨rfl, hrest⟩ :=
        eq_of_writeLeaf hv hv' rfl rfl hu.follows hu'.follows (List.cons.inj h).2
      exact .leaf v hrest
    · cases (List.cons.inj h).1
    · cases (List.cons.inj h).1
  · obtain hv' | ⟨x', r', rfl⟩ | ⟨key', x', r', rfl⟩ := isLeaf_or v'
    · rw [hv'.writeAfterKey_eq] at h
      cases (List.cons.inj h).1
    · exact .items h
    · exact absurd h (writeItems_ne_writeMembers x r (key', x') r')
  · obtain hv' | ⟨x', r', rfl⟩ | ⟨key', x', r', rfl⟩ := isLeaf_or v'
    · rw [hv'.writeAfterKey_eq] at h
      cases (List.cons.inj h).1
    · exact absurd h.symm (writeItems_ne_writeMembers x' r' (key, x) r)
    · exact .members h

/-- A value is determined by its text with whatever stands behind, and that is determined too. -/
def Determined (v : Json) : Prop :=
  ∀ {i m : Nat} {u u' : Text} {v' : Json}, EndsItems i u → EndsItems i u' → Stops m u →
    Stops m u' → Alike i m u u' v v' → v = v' ∧ u = u'

theorem Determined.afterIndicator (hv : Determined v) (hu : Stops (n + 1) u)
    (hu' : Stops (n + 1) u') (h : writeAfterIndicator n u v = writeAfterIndicator n u' v') :
    v = v' ∧ u = u' := by
  have hstops := hu.mono (Nat.le_succ _)
  have hstops' := hu'.mono (Nat.le_succ _)
  exact hv hstops.endsItems hstops'.endsItems hstops hstops'
    (alike_of_writeAfterIndicator hstops hstops' h)

theorem Determined.afterKey (hv : Determined v) (hu : EndsItems n u) (hu' : EndsItems n u')
    (h : writeAfterKey n column u v = writeAfterKey n column u' v') : v = v' ∧ u = u' := by
  have hstops := hu.stops.mono (Nat.le_succ _)
  have hstops' := hu'.stops.mono (Nat.le_succ _)
  exact hv hu hu' hstops hstops' (alike_of_writeAfterKey hstops hstops' h)

theorem stops_writeItems (hu : EndsItems n u) (items : List Json) :
    Stops (n + 1) (writeItems n u items) := by
  cases items with
  | nil => exact hu.stops
  | cons x r => exact .line (Nat.lt_succ_self n) rfl _

theorem writeItems_ne_end (hu : EndsItems n u) (x : Json) (items : List Json) :
    writeItems n u' (x :: items) ≠ u := by
  rw [writeItems, writeAfterIndicator_eq]
  exact (hu.noItem _).symm

theorem writeItems_inj {items items' : List Json} (hitems : ∀ v ∈ items, Determined v)
    (hu : EndsItems n u) (hu' : EndsItems n u')
    (h : writeItems n u items = writeItems n u' items') : items = items' ∧ u = u' := by
  induction items generalizing items' with
  | nil =>
      cases items' with
      | nil => exact ⟨rfl, h⟩
      | cons x' r' => exact absurd h.symm (writeItems_ne_end hu x' r')
  | cons x r ih =>
      obtain ⟨hx, hr⟩ := List.forall_mem_cons.1 hitems
      cases items' with
      | nil => exact absurd h (writeItems_ne_end hu' x r)
      | cons x' r' =>
          have hitem := (List.cons.inj (List.append_cancel_left h)).2
          obtain ⟨rfl, hrest⟩ :=
            hx.afterIndicator (stops_writeItems hu r) (stops_writeItems hu' r') hitem
          obtain ⟨rfl, hend⟩ := ih hr hrest
          exact ⟨rfl, hend⟩

theorem endsItems_writeMembers (hu : Stops n u) (members : List (Text × Json)) :
    EndsItems n (writeMembers n u members) := by
  cases members with
  | nil => exact hu.endsItems
  | cons m r =>
      obtain ⟨c, t, ht, hc, hitem⟩ := exists_writeMembers_eq n u m r
      rw [ht]
      exact ⟨.line (Nat.lt_succ_self n) hc t, fun s hs => hitem s (List.append_cancel_left hs)⟩

theorem writeMembers_ne_end (hu : Stops n u) (m : Text × Json) (members : List (Text × Json)) :
    writeMembers n u' (m :: members) ≠ u := by
  obtain ⟨c, t, ht, hc, -⟩ := exists_writeMembers_eq n u' m members
  rw [ht]
  exact (hu.ne_line hc (Nat.le_refl n)).symm

theorem writeMembers_inj {members members' : List (Text × Json)}
    (hmembers : ∀ m ∈ members, Determined m.2) (hu : Stops n u) (hu' : Stops n u')
    (h : writeMembers n u members = writeMembers n u' members') : members = members' ∧ u = u' := by
  induction members generalizing members' with
  | nil =>
      cases members' with
      | nil => exact ⟨rfl, h⟩
      | cons m' r' => exact absurd h.symm (writeMembers_ne_end hu m' r')
  | cons m r ih =>
      obtain ⟨hm, hr⟩ := List.forall_mem_cons.1 hmembers
      cases members' with
      | nil => exact absurd h (writeMembers_ne_end hu' m r)
      | cons m' r' =>
          obtain ⟨key, v⟩ := m
          obtain ⟨key', v'⟩ := m'
          -- The members left on either side are what stands behind the two values.
          have hends := endsItems_writeMembers hu r
          have hends' := endsItems_writeMembers hu' r'
          obtain ⟨rfl, hvalue⟩ := writeMember_inj (List.append_cancel_left h)
          have hboth : v = v' ∧ writeMembers n u r = writeMembers n u' r' := by
            rcases hvalue with ⟨column, hkey⟩ | hindicator
            · exact hm.afterKey hends hends' hkey
            · exact hm.afterIndicator hends.stops hends'.stops hindicator
          obtain ⟨rfl, hrest⟩ := hboth
          obtain ⟨rfl, hend⟩ := ih hr hrest
          exact ⟨rfl, hend⟩

mutual

theorem determined : ∀ v : Json, Determined v
  | .arr items => fun hu hu' _ _ h => by
      cases h with
      | leaf _ h => exact ⟨rfl, h⟩
      | items h =>
          obtain ⟨rfl, hend⟩ := writeItems_inj (determined_items items) hu hu' h
          exact ⟨rfl, hend⟩
  | .obj members => fun _ _ hu hu' h => by
      cases h with
      | leaf _ h => exact ⟨rfl, h⟩
      | members h =>
          obtain ⟨rfl, hend⟩ := writeMembers_inj (determined_members members) hu hu' h
          exact ⟨rfl, hend⟩
  | .null | .bool _ | .int _ | .float _ | .str _ => fun _ _ _ _ h => by
      cases h with | leaf _ h => exact ⟨rfl, h⟩

theorem determined_items : ∀ items : List Json, ∀ v ∈ items, Determined v
  | [] => nofun
  | v :: r => List.forall_mem_cons.2 ⟨determined v, determined_items r⟩

theorem determined_members : ∀ members : List (Text × Json), ∀ m ∈ members, Determined m.2
  | [] => nofun
  | (_, v) :: r => List.forall_mem_cons.2 ⟨determined v, determined_members r⟩

end

def documentEnd (v : Json) : Text := .ofString (if isOpenEnded v then "\n...\n" else "\n")

theorem stops_documentEnd (v : Json) (h : 0 < n) : Stops n (documentEnd v) := by
  rw [documentEnd]
  split
  next => exact .line h (c := .char '.') rfl _
  next => exact .last

theorem writeDocument_eq (v : Json) :
    writeDocument v = writeAt ⟨2, true⟩ 0 (documentEnd v) v := by
  obtain hv | ⟨x, r, rfl⟩ | ⟨key, x, r, rfl⟩ := isLeaf_or v
  · rw [hv.writeAt_eq, writeDocument.eq_3 _ hv.ne_arr fun m => hv.ne_obj m.1 m.2]
    rfl
  · rfl
  · rfl

theorem writeDocument_injective {v w : Json} (h : writeDocument v = writeDocument w) : v = w := by
  rw [writeDocument_eq, writeDocument_eq] at h
  have halike := alike_of_writeAt rfl (stops_documentEnd v Nat.two_pos)
    (stops_documentEnd w Nat.two_pos) h
  have hlast : Stops 0 (Text.ofString "\n") := .last
  cases halike with
  | leaf => rfl
  | items h =>
      have hend := writeItems_inj (fun v _ => determined v) hlast.endsItems hlast.endsItems h
      exact congrArg Json.arr hend.1
  | members h =>
      have hend := writeMembers_inj (fun m _ => determined m.2) hlast hlast h
      exact congrArg Json.obj hend.1

end JsonnetPreview.Yaml
