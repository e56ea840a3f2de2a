import JsonnetPreview.Proofs.World.FileTree
import Mathlib.Data.List.Basic
import Mathlib.Data.List.Induction

namespace JsonnetPreview

namespace Path

structure IsName (part : Text) : Prop where
  ne_nil : part ≠ []
  slash_not_mem : .char '/' ∉ part
  ne_here : part ≠ here
  ne_up : part ≠ up

instance : DecidablePred IsName := fun part =>
  decidable_of_iff (part ≠ [] ∧ .char '/' ∉ part ∧ part ≠ here ∧ part ≠ up)
    ⟨fun ⟨hne, hslash, hhere, hup⟩ => ⟨hne, hslash, hhere, hup⟩,
      fun ⟨hne, hslash, hhere, hup⟩ => ⟨hne, hslash, hhere, hup⟩⟩

/-- A path from the root without dots that lead elsewhere. -/
structure IsNormal (p : Path) : Prop where
  isAbsolute : p.isAbsolute = true
  isName : ∀ part ∈ p.parts, IsName part

instance : DecidablePred IsNormal := fun p =>
  decidable_of_iff (p.isAbsolute = true ∧ ∀ part ∈ p.parts, IsName part)
    ⟨fun ⟨habsolute, hnames⟩ => ⟨habsolute, hnames⟩, fun ⟨habsolute, hnames⟩ => ⟨habsolute, hnames⟩⟩

theorem split_of_not_mem {part : Text} (h : .char '/' ∉ part) : split part = [part] := by
  induction part with
  | nil => rfl
  | cons c part ih =>
      obtain ⟨hc, hpart⟩ := not_or.1 (List.mem_cons.not.1 h)
      rw [split, ih hpart]
      simp [isSlash, Ne.symm hc]

theorem split_append_slash {part : Text} (h : .char '/' ∉ part) (rest : Text) :
    split (part ++ .char '/' :: rest) = part :: split rest := by
  induction part with
  | nil => rfl
  | cons c part ih =>
      obtain ⟨hc, hpart⟩ := not_or.1 (List.mem_cons.not.1 h)
      rw [List.cons_append, split, ih hpart]
      simp [isSlash, Ne.symm hc]

theorem split_joinWith {parts : List Text} (hne : parts ≠ [])
    (h : ∀ part ∈ parts, .char '/' ∉ part) : split (Text.joinWith "/" parts) = parts := by
  induction parts with
  | nil => exact absurd rfl hne
  | cons part parts ih =>
      obtain ⟨hpart, hparts⟩ := List.forall_mem_cons.1 h
      cases parts with
      | nil => rw [Text.joinWith, List.intercalate_singleton, split_of_not_mem hpart]
      | cons next parts =>
          have hjoin : Text.joinWith "/" (part :: next :: parts) =
              part ++ .char '/' :: Text.joinWith "/" (next :: parts) := by
            rw [Text.joinWith, List.intercalate_cons_cons, List.append_assoc]
            rfl
          rw [hjoin, split_append_slash hpart, ih (List.cons_ne_nil _ _) hparts]

theorem split_ne_nil (t : Text) : split t ≠ [] := by
  cases t with
  | nil => exact List.cons_ne_nil _ _
  | cons c t =>
      rw [split]
      split
      · exact List.cons_ne_nil _ _
      · split <;> exact List.cons_ne_nil _ _

theorem split_concat_slash (t : Text) : split (t ++ [.char '/']) = split t ++ [[]] := by
  induction t with
  | nil => rfl
  | cons c t ih =>
      rw [List.cons_append, split, split, ih]
      split
      · rfl
      · obtain ⟨part, rest, ht⟩ := List.exists_cons_of_ne_nil (split_ne_nil t)
        rw [ht]
        rfl

namespace IsNormal

variable {p : Path}

theorem parent (h : p.IsNormal) : p.parent.IsNormal :=
  ⟨h.isAbsolute, fun part hpart => h.isName part (List.dropLast_subset _ hpart)⟩

theorem join (h : p.IsNormal) {parts : List Text} (hparts : ∀ part ∈ parts, IsName part) :
    (p.join parts).IsNormal :=
  ⟨h.isAbsolute, List.forall_mem_append.2 ⟨h.isName, hparts⟩⟩

theorem exists_slashes (h : p.IsNormal) :
    ∃ n, p.toText = List.replicate (n + 1) (.char '/') ++ Text.joinWith "/" p.parts := by
  obtain ⟨anchor, parts⟩ := p
  cases anchor with
  | relative => exact absurd h.isAbsolute Bool.false_ne_true
  | root => exact ⟨0, rfl⟩
  | doubleRoot => exact ⟨1, rfl⟩

theorem toText_ne_nil (h : p.IsNormal) : p.toText ≠ [] := by
  obtain ⟨n, hn⟩ := h.exists_slashes
  rw [hn]
  simp

end IsNormal

end Path

namespace FileTree

open JsonnetPreview.Path

theorem filter_split_slashes (n : Nat) (t : Text) :
    (split (List.replicate n (.char '/') ++ t)).filter (!·.isEmpty) =
      (split t).filter (!·.isEmpty) := by
  induction n with
  | zero => rfl
  | succ n ih => exact ih

theorem getLast?_joinWith {parts : List Text} (hne : parts ≠ [])
    (h : ∀ part ∈ parts, IsName part) :
    (Text.joinWith "/" parts).getLast? ≠ some (.char '/') := by
  intro hlast
  have hsplit := split_joinWith hne fun part hpart => (h part hpart).slash_not_mem
  obtain ⟨t, ht⟩ := List.getLast?_eq_some_iff.1 hlast
  rw [ht, split_concat_slash] at hsplit
  have hnil : ([] : Text) ∈ parts := by
    rw [← hsplit]
    exact List.mem_append_right _ (List.mem_singleton_self _)
  exact (h [] hnil).ne_nil rfl

theorem writtenParts_toText {p : Path} (h : p.IsNormal) (hne : p.parts ≠ []) :
    writtenParts p.toText = p.parts := by
  obtain ⟨n, hn⟩ := h.exists_slashes
  have hsplit := split_joinWith hne fun part hpart => (h.isName part hpart).slash_not_mem
  have hnames : p.parts.filter (!·.isEmpty) = p.parts :=
    List.filter_eq_self.2 fun part hpart => by simpa using (h.isName part hpart).ne_nil
  have hjoin : Text.joinWith "/" p.parts ≠ [] := by
    intro hnil
    rw [hnil] at hsplit
    exact (h.isName [] (hsplit ▸ List.mem_singleton_self _)).ne_nil rfl
  have hlast : p.toText.getLast? ≠ some (.char '/') := by
    rw [hn, List.getLast?_append_of_ne_nil _ hjoin]
    exact getLast?_joinWith hne h.isName
  rw [writtenParts, if_neg hlast, hn, filter_split_slashes, hsplit, hnames, List.append_nil]

variable {t : FileTree} {place : Place}

theorem hasWay_nil (t : FileTree) : t.HasWay [] := nofun

theorem wayTo_concat (place : Place) (part : Text) :
    wayTo (place ++ [part]) = wayTo place ++ [place ++ [part]] := by
  rw [wayTo, List.length_append, List.length_singleton, List.range_succ, List.map_append, wayTo]
  congr 1
  · refine List.map_congr_left fun n hn => ?_
    rw [List.take_append_of_le_length (List.mem_range.1 hn)]
  · rw [List.map_singleton, List.take_of_length_le (by simp)]

theorem hasWay_concat_iff {part : Text} : t.HasWay (place ++ [part]) ↔ t.HasWay place ∧
    t.node? (place ++ [part]) = some .directory ∧ t.barred? (place ++ [part]) = none := by
  rw [HasWay, wayTo_concat, List.forall_mem_append, List.forall_mem_singleton]
  rfl

theorem HasWay.of_append {above below : Place} (h : t.HasWay (above ++ below)) :
    t.HasWay above := by
  induction below using List.reverseRecOn with
  | nil => rwa [List.append_nil] at h
  | append_singleton below part ih =>
      rw [← List.append_assoc, hasWay_concat_iff] at h
      exact ih h.1

theorem HasWay.node? (h : t.HasWay place) :
    t.node? place = some .directory ∧ t.barred? place = none := by
  induction place using List.reverseRecOn with
  | nil => exact ⟨rfl, rfl⟩
  | append_singleton place part ih => exact (hasWay_concat_iff.1 h).2

/-- Directories that can be looked into lead from a place down some parts, and none of the names is
too long. -/
structure Leads (t : FileTree) (place : Place) (parts : List Text) : Prop where
  hasWay : t.HasWay (place ++ parts)
  short : ∀ name ∈ parts, (Utf8.encode name).length ≤ nameLimit

/-- What the system says on the way down some parts, where directories lead up to a name that is too
long or to a directory that is not looked into. -/
inductive IsBlocked (t : FileTree) (place : Place) (parts : List Text) : FileError → Prop
  | long {above below : List Text} {name : Text} (hparts : parts = above ++ name :: below)
      (habove : t.Leads place above) (hname : nameLimit < (Utf8.encode name).length) :
      IsBlocked t place parts .nameTooLong
  | barred {above below : List Text} {name : Text} {e : FileError}
      (hparts : parts = above ++ name :: below) (hbelow : below ≠ []) (habove : t.Leads place above)
      (hname : (Utf8.encode name).length ≤ nameLimit)
      (hnode : t.node? (place ++ above ++ [name]) = some .directory)
      (hbarred : t.barred? (place ++ above ++ [name]) = some e) : IsBlocked t place parts e

variable {parts : List Text} {e : FileError}

theorem not_isBlocked_nil : ¬t.IsBlocked place [] e := by
  rintro (⟨hparts, -, -⟩ | ⟨hparts, -, -, -, -, -⟩) <;> exact absurd hparts.symm (by simp)

theorem leads_cons_iff {part : Text} : t.Leads place (part :: parts) ↔
    (Utf8.encode part).length ≤ nameLimit ∧ t.Leads (place ++ [part]) parts := by
  constructor
  · rintro ⟨hway, hshort⟩
    obtain ⟨hpart, hparts⟩ := List.forall_mem_cons.1 hshort
    exact ⟨hpart, by rwa [List.append_cons] at hway, hparts⟩
  · rintro ⟨hpart, hway, hparts⟩
    exact ⟨by rwa [List.append_cons], List.forall_mem_cons.2 ⟨hpart, hparts⟩⟩

theorem isBlocked_cons_iff {part : Text} (hway : t.HasWay place) :
    t.IsBlocked place (part :: parts) e ↔
      (nameLimit < (Utf8.encode part).length ∧ e = .nameTooLong) ∨
      ((Utf8.encode part).length ≤ nameLimit ∧
        ((parts ≠ [] ∧ t.node? (place ++ [part]) = some .directory ∧
            t.barred? (place ++ [part]) = some e) ∨
          (t.HasWay (place ++ [part]) ∧ t.IsBlocked (place ++ [part]) parts e))) := by
  constructor
  · rintro (⟨hparts, habove, hname⟩ | ⟨hparts, hbelow, habove, hname, hnode, hbarred⟩)
    · rename_i above below name
      cases above with
      | nil =>
          obtain ⟨rfl, -⟩ := List.cons.inj hparts
          exact .inl ⟨hname, rfl⟩
      | cons first above =>
          obtain ⟨rfl, rfl⟩ := List.cons.inj hparts
          obtain ⟨hpart, habove⟩ := leads_cons_iff.1 habove
          exact .inr ⟨hpart, .inr ⟨habove.hasWay.of_append, .long rfl habove hname⟩⟩
    · rename_i above below name
      cases above with
      | nil =>
          obtain ⟨rfl, rfl⟩ := List.cons.inj hparts
          rw [List.append_nil] at hnode hbarred
          exact .inr ⟨hname, .inl ⟨hbelow, hnode, hbarred⟩⟩
      | cons first above =>
          obtain ⟨rfl, rfl⟩ := List.cons.inj hparts
          obtain ⟨hpart, habove⟩ := leads_cons_iff.1 habove
          rw [List.append_cons place part above] at hnode hbarred
          exact .inr ⟨hpart, .inr ⟨habove.hasWay.of_append,
            .barred rfl hbelow habove hname hnode hbarred⟩⟩
  · have hhere : t.Leads place [] := ⟨by rwa [List.append_nil], nofun⟩
    rintro (⟨hlong, rfl⟩ | ⟨hpart, ⟨hparts, hnode, hbarred⟩ | ⟨-, hblocked⟩⟩)
    · exact @IsBlocked.long t place (part :: parts) [] parts part rfl hhere hlong
    · refine @IsBlocked.barred t place (part :: parts) [] parts part e rfl hparts hhere hpart ?_ ?_ <;>
        rwa [List.append_nil]
    · cases hblocked with
      | long hparts habove hname =>
          exact .long (congrArg (part :: ·) hparts) (leads_cons_iff.2 ⟨hpart, habove⟩) hname
      | barred hparts hbelow habove hname hnode hbarred =>
          refine .barred (congrArg (part :: ·) hparts) hbelow (leads_cons_iff.2 ⟨hpart, habove⟩) hname
            ?_ ?_ <;> rwa [List.append_cons place part]

theorem locate_cons {part : Text} (hpart : IsName part) (hway : t.HasWay place) :
    t.locate place (part :: parts) =
      if nameLimit < (Utf8.encode part).length then .error .nameTooLong
      else t.locate (place ++ [part]) parts := by
  rw [locate, hway.node?.1]
  simp only [hway.node?.2, if_neg hpart.ne_here, if_neg hpart.ne_up]

theorem locate_nil_ne_error (he : e.isAbsence = false) : t.locate place [] ≠ .error e := by
  rintro herror
  rw [locate] at herror
  split at herror
  · cases herror
  · cases herror
    cases he

theorem exists_locate_eq_error (hnode : t.node? place ≠ some .directory) (hne : parts ≠ []) :
    ∃ e, t.locate place parts = .error e ∧ e.isAbsence = true := by
  obtain ⟨part, rest, rfl⟩ := List.exists_cons_of_ne_nil hne
  rw [locate]
  split
  next => exact ⟨_, rfl, rfl⟩
  next => exact ⟨_, rfl, rfl⟩
  next hdirectory => exact absurd hdirectory hnode

theorem locate_of_barred (hnode : t.node? place = some .directory) (hbarred : t.barred? place = some e)
    (hne : parts ≠ []) : t.locate place parts = .error e := by
  obtain ⟨part, rest, rfl⟩ := List.exists_cons_of_ne_nil hne
  rw [locate, hnode]
  simp only [hbarred]

theorem locate_eq_error_iff (hparts : ∀ part ∈ parts, IsName part) (hway : t.HasWay place)
    (he : e.isAbsence = false) : t.locate place parts = .error e ↔ t.IsBlocked place parts e := by
  induction parts generalizing place with
  | nil => exact iff_of_false (locate_nil_ne_error he) not_isBlocked_nil
  | cons part parts ih =>
      obtain ⟨hpart, hparts⟩ := List.forall_mem_cons.1 hparts
      rw [locate_cons hpart hway, isBlocked_cons_iff hway]
      by_cases hlong : nameLimit < (Utf8.encode part).length
      · rw [if_pos hlong, or_iff_left fun h => Nat.not_le_of_lt hlong h.1, and_iff_right hlong,
          Except.error.injEq, eq_comm]
      rw [if_neg hlong, or_iff_right fun h => hlong h.1, and_iff_right (Nat.le_of_not_lt hlong)]
      by_cases hnil : parts = []
      · subst hnil
        refine iff_of_false (locate_nil_ne_error he) ?_
        rintro (⟨hne, -⟩ | ⟨-, hblocked⟩)
        · exact hne rfl
        · exact not_isBlocked_nil hblocked
      rw [and_iff_right hnil]
      -- The next part is looked up in what has this name, if that is a directory.
      by_cases hnode : t.node? (place ++ [part]) = some .directory
      · rw [and_iff_right hnode, hasWay_concat_iff, and_iff_right hway, and_iff_right hnode]
        cases hbarred : t.barred? (place ++ [part]) with
        | none => simpa using ih hparts (hasWay_concat_iff.2 ⟨hway, hnode, hbarred⟩)
        | some e' => simp [locate_of_barred hnode hbarred hnil]
      · obtain ⟨e', hlocate, he'⟩ := exists_locate_eq_error hnode hnil
        refine iff_of_false (fun herror => ?_) ?_
        · cases hlocate.symm.trans herror
          cases he.symm.trans he'
        · rintro (h | h)
          · exact hnode h.1
          · exact hnode (hasWay_concat_iff.1 h.1).2.1

theorem locate_ne_ok_of_not_hasWay (hway : t.HasWay place) {part : Text}
    (hnext : ¬t.HasWay (place ++ [part])) (hne : parts ≠ []) (found : Place × Node) :
    t.locate (place ++ [part]) parts ≠ .ok found := by
  intro hfound
  by_cases hnode : t.node? (place ++ [part]) = some .directory
  · cases hbarred : t.barred? (place ++ [part]) with
    | none => exact hnext (hasWay_concat_iff.2 ⟨hway, hnode, hbarred⟩)
    | some e => cases (locate_of_barred hnode hbarred hne).symm.trans hfound
  · obtain ⟨e, hlocate, -⟩ := exists_locate_eq_error hnode hne
    cases hlocate.symm.trans hfound

theorem locate_eq_ok_iff (hparts : ∀ part ∈ parts, IsName part) (hway : t.HasWay place)
    (hblocked : ¬t.IsBlocked place parts .nameTooLong) (found : Place × Node) :
    t.locate place parts = .ok found ↔ found.1 = place ++ parts ∧
      t.HasWay (place ++ parts.dropLast) ∧ t.node? (place ++ parts) = some found.2 := by
  obtain ⟨q, node⟩ := found
  induction parts generalizing place with
  | nil =>
      rw [locate]
      simp only [List.append_nil, List.dropLast_nil, and_iff_right hway]
      cases t.node? place with
      | none => simp
      | some node' => simp [eq_comm]
  | cons part parts ih =>
      obtain ⟨hpart, hparts⟩ := List.forall_mem_cons.1 hparts
      rw [isBlocked_cons_iff hway, not_or] at hblocked
      have hshort : ¬nameLimit < (Utf8.encode part).length := fun h => hblocked.1 ⟨h, rfl⟩
      rw [locate_cons hpart hway, if_neg hshort, List.append_cons place part parts]
      by_cases hnil : parts = []
      · subst hnil
        rw [locate]
        simp only [List.dropLast_singleton, List.append_nil, and_iff_right hway]
        cases t.node? (place ++ [part]) with
        | none => simp
        | some node' => simp [eq_comm]
      by_cases hnext : t.HasWay (place ++ [part])
      · rw [ih hparts hnext fun h => hblocked.2 ⟨Nat.le_of_not_lt hshort, .inr ⟨hnext, h⟩⟩,
          List.dropLast_cons_of_ne_nil hnil, List.append_cons place part parts.dropLast]
      · refine iff_of_false (locate_ne_ok_of_not_hasWay hway hnext hnil _) fun h => hnext ?_
        rw [List.dropLast_cons_of_ne_nil hnil, List.append_cons place part parts.dropLast] at h
        exact h.2.1.of_append

/-- The system does not look a path up, and what it says is not that nothing is there. -/
def Refuses (t : FileTree) (p : Path) (e : FileError) : Prop :=
  .char '\x00' ∉ p.toText ∧ e.isAbsence = false ∧
    if pathLimit ≤ (Utf8.encode p.toText).length then e = .nameTooLong
    else t.IsBlocked [] p.parts e

/-- Directories lead to a path, and a file is there. No name has a null character in it. -/
def HasFile (t : FileTree) (p : Path) : Prop :=
  .char '\x00' ∉ p.toText ∧ t.HasWay p.parts.dropLast ∧
    ∃ content, t.node? p.parts = some (.file content)

variable {p : Path}

theorem locateWritten_toText (h : p.IsNormal) (hne : p.parts ≠ []) :
    t.locateWritten ⟨.root, []⟩ p.toText =
      if pathLimit ≤ (Utf8.encode p.toText).length then .error .nameTooLong
      else t.locate [] p.parts := by
  have hempty : ¬p.toText.isEmpty := by simpa using h.toText_ne_nil
  simp only [locateWritten, writtenParts_toText h hne, if_neg hempty, List.nil_append, ite_self]

theorem locateWritten_eq_error_iff (h : p.IsNormal) (hne : p.parts ≠ []) (he : e.isAbsence = false) :
    t.locateWritten ⟨.root, []⟩ p.toText = .error e ↔
      if pathLimit ≤ (Utf8.encode p.toText).length then e = .nameTooLong
      else t.IsBlocked [] p.parts e := by
  rw [locateWritten_toText h hne]
  split
  · rw [Except.error.injEq, eq_comm]
  · exact locate_eq_error_iff h.isName t.hasWay_nil he

theorem lookUp_of_not_mem {path : Text} (hnull : .char '\x00' ∉ path) (directory : Path) :
    t.lookUp directory path =
      (t.locateWritten directory path).mapError fun e => .system e path := by
  simp [lookUp, hnull]

theorem isFile_of_refuses (h : p.IsNormal) (hne : p.parts ≠ []) (hrefuses : t.Refuses p e) :
    t.isFile p = .error (.system e p.toText) := by
  obtain ⟨hnull, he, hblocked⟩ := hrefuses
  rw [isFile, probe, lookUp_of_not_mem hnull, (locateWritten_eq_error_iff h hne he).2 hblocked]
  simp [Except.mapError, Except.map, he]

theorem isFile_of_mem (hnull : .char '\x00' ∈ p.toText) : t.isFile p = .ok false := by
  have hlookUp : t.lookUp ⟨.root, []⟩ p.toText = .error .nullCharacter := by simp [lookUp, hnull]
  rw [isFile, probe, hlookUp]
  rfl

theorem isFile_of_not_refuses (h : p.IsNormal) (hne : p.parts ≠ [])
    (hrefuses : ¬∃ e, t.Refuses p e) : ∃ b, t.isFile p = .ok b ∧ (b = true ↔ t.HasFile p) := by
  by_cases hnull : .char '\x00' ∈ p.toText
  · exact ⟨false, isFile_of_mem hnull, iff_of_false nofun fun hfile => hfile.1 hnull⟩
  have hshort : ¬pathLimit ≤ (Utf8.encode p.toText).length := fun hlong =>
    hrefuses ⟨.nameTooLong, hnull, rfl, by rw [if_pos hlong]⟩
  have hblocked {e : FileError} (he : e.isAbsence = false) : ¬t.IsBlocked [] p.parts e :=
    fun hblocked => hrefuses ⟨e, hnull, he, by rwa [if_neg hshort]⟩
  have hok := locate_eq_ok_iff h.isName t.hasWay_nil (hblocked rfl)
  rw [isFile, probe, lookUp_of_not_mem hnull, locateWritten_toText h hne, if_neg hshort]
  cases hlocate : t.locate [] p.parts with
  | error e =>
      have hnone : ¬t.HasFile p := by
        rintro ⟨-, hway, content, hnode⟩
        cases hlocate.symm.trans ((hok (p.parts, .file content)).2 ⟨rfl, hway, hnode⟩)
      have he : e.isAbsence = true := by
        by_contra he
        rw [Bool.not_eq_true] at he
        exact hblocked he ((locate_eq_error_iff h.isName t.hasWay_nil he).1 hlocate)
      refine ⟨false, ?_, iff_of_false nofun hnone⟩
      simp [Except.mapError, Except.map, he]
  | ok found =>
      obtain ⟨q, node⟩ := found
      obtain ⟨rfl, hway, hnode⟩ := (hok (q, node)).1 hlocate
      cases node with
      | file content => exact ⟨true, rfl, iff_of_true rfl ⟨hnull, hway, content, hnode⟩⟩
      | directory =>
          refine ⟨false, rfl, iff_of_false nofun ?_⟩
          rintro ⟨-, -, content, hfile⟩
          cases hnode.symm.trans hfile

end FileTree
end JsonnetPreview
