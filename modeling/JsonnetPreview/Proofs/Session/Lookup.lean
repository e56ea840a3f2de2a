import JsonnetPreview.Proofs.Report.Grouping
import JsonnetPreview.Proofs.World.Place
import JsonnetPreview.Session.State
import Mathlib.Algebra.GroupWithZero.Nat
import Mathlib.Data.List.Dedup
import Mathlib.Data.List.Perm.Basic

namespace JsonnetPreview.DocumentState

open JsonnetPreview.Path Report

/-- A path that is given, and that the system can take. -/
structure IsGiven (path : Text) : Prop where
  ne_nil : path ≠ []
  null_not_mem : .char '\x00' ∉ path

def Apart (directory : Path) (path path' : Text) : Prop := ¬SamePlace directory path path'

instance (directory : Path) : DecidableRel (Apart directory) :=
  fun _ _ => inferInstanceAs (Decidable (¬_))

def keptAt (s : DocumentState) (directory : Path) (path : Text) : List Diagnostic :=
  (s.diagnostics.filter fun entry => SamePlace directory entry.1 path).flatMap (·.2)

/-- Paths that name the places of all files, and none of them twice. -/
structure Covers (directory : Path) (paths files : List Text) : Prop where
  isGiven : ∀ path ∈ paths, IsGiven path
  apart : paths.Pairwise (Apart directory)
  covers : ∀ file ∈ files, ∃ path ∈ paths, SamePlace directory file path

theorem mapM_ok {α β ε : Type} {f : α → Except ε β} {g : α → β} {xs : List α}
    (h : ∀ x ∈ xs, f x = .ok (g x)) : xs.mapM f = .ok (xs.map g) := by
  induction xs with
  | nil => rfl
  | cons x xs ih =>
      obtain ⟨hx, hxs⟩ := List.forall_mem_cons.1 h
      rw [List.mapM_cons, hx, ih hxs]
      rfl

variable {s : DocumentState} {directory : Path}

theorem diagnosticsAt_eq (hfiles : ∀ file ∈ s.diagnostics.files, .char '\x00' ∉ file) {path : Text}
    (hpath : .char '\x00' ∉ path) :
    s.diagnosticsAt directory path = .ok (s.keptAt directory path) := by
  let resolved (entry : Text × List Diagnostic) := ((ofText entry.1).resolve directory, entry.2)
  rw [diagnosticsAt, place_of_not_mem hpath, mapM_ok (g := resolved)]
  · show Except.ok _ = _
    rw [List.filter_map, List.flatMap_map, keptAt]
    simp only [resolved, samePlace_iff, Function.comp_def]
  · intro entry hentry
    simp only [place_of_not_mem (hfiles _ (List.mem_map_of_mem hentry))]
    rfl

theorem diagnosticsFor_some {path : Text} (h : path ≠ []) :
    s.diagnosticsFor directory (some path) = s.diagnosticsAt directory path := by
  cases path with
  | nil => exact absurd rfl h
  | cons c r => rfl

theorem diagnosticsFor_none :
    s.diagnosticsFor directory none = s.diagnosticsFor directory (some s.path) := by
  rw [diagnosticsFor]
  cases hpath : s.path with
  | nil => rw [diagnosticsFor, hpath]
  | cons c r => rfl

theorem keptAt_congr {path path' : Text} (h : SamePlace directory path path') :
    s.keptAt directory path = s.keptAt directory path' := by
  rw [keptAt, keptAt]
  congr 1
  refine List.filter_congr fun entry _ => ?_
  simp only [samePlace_iff.1 h, samePlace_iff]

theorem flatMap_filter_perm {α β : Type} (p : α → β → Bool) {keys : List β} {xs : List α}
    (hapart : keys.Pairwise fun k l => ∀ x ∈ xs, ¬(p x k ∧ p x l)) :
    (keys.flatMap fun k => xs.filter (p · k)).Perm (xs.filter fun x => keys.any (p x)) := by
  induction keys with
  | nil => simp
  | cons k keys ih =>
      obtain ⟨hk, hkeys⟩ := List.pairwise_cons.1 hapart
      have hfirst : (xs.filter fun x => (k :: keys).any (p x)).filter (p · k) =
          xs.filter (p · k) := by
        rw [List.filter_filter]
        refine List.filter_congr fun x _ => ?_
        by_cases h : p x k <;> simp [h]
      have hrest : (xs.filter fun x => (k :: keys).any (p x)).filter (!p · k) =
          xs.filter fun x => keys.any (p x) := by
        rw [List.filter_filter]
        refine List.filter_congr fun x hx => ?_
        by_cases h : p x k
        · have hnone : keys.any (p x) = false := by
            rw [List.any_eq_false]
            exact fun l hl hxl => hk l hl x hx ⟨h, hxl⟩
          simp [h, hnone]
        · simp [h]
      rw [List.flatMap_cons]
      refine List.Perm.trans ?_ (List.filter_append_perm (p · k) _)
      rw [hfirst, hrest]
      exact (ih hkeys).append_left _

theorem apart_or_apart {p q r : Text} (h : Apart directory p r) :
    Apart directory p q ∨ Apart directory q r := by
  rw [Apart, Apart, ← not_and_or]
  exact fun ⟨hpq, hqr⟩ => h ((samePlace_equivalence directory).trans hpq hqr)

def spelling (file : Text) : Text := if file = [] then here else file

theorem isGiven_spelling {file : Text} (h : .char '\x00' ∉ file) : IsGiven (spelling file) := by
  rw [spelling]
  split
  next => exact ⟨by decide, by decide⟩
  next hne => exact ⟨hne, h⟩

theorem samePlace_spelling (directory : Path) (file : Text) :
    SamePlace directory file (spelling file) := by
  rw [samePlace_iff, spelling]
  split
  next hnil =>
    subst hnil
    rfl
  next => rfl

theorem exists_covers (directory : Path) {files : List Text}
    (hfiles : ∀ file ∈ files, .char '\x00' ∉ file) : ∃ paths, Covers directory paths files := by
  refine ⟨(files.map spelling).pwFilter (Apart directory), fun path hpath => ?_,
    List.pairwise_pwFilter _, fun file hfile => ?_⟩
  · obtain ⟨file, hfile, rfl⟩ := List.mem_map.1 ((List.pwFilter_sublist _).subset hpath)
    exact isGiven_spelling (hfiles file hfile)
  · by_contra hnone
    have hall : ∀ path ∈ (files.map spelling).pwFilter (Apart directory),
        Apart directory file path := fun path hpath hsame => hnone ⟨path, hpath, hsame⟩
    have hnever := (List.forall_mem_pwFilter (R := Apart directory) apart_or_apart file _).1 hall
    exact hnever (spelling file) (List.mem_map_of_mem hfile) (samePlace_spelling directory file)

theorem keptAt_perm {paths : List Text} (h : Covers directory paths s.diagnostics.files) :
    (paths.flatMap (s.keptAt directory)).Perm (s.diagnostics.flatMap (·.2)) := by
  have hapart : paths.Pairwise fun p q => ∀ entry ∈ s.diagnostics,
      ¬((decide (SamePlace directory entry.1 p) : Prop) ∧
        (decide (SamePlace directory entry.1 q) : Prop)) := by
    refine h.apart.imp fun {p q} hpq entry _ => ?_
    simp only [decide_eq_true_eq]
    rintro ⟨hp, hq⟩
    exact hpq ((samePlace_equivalence directory).trans
      ((samePlace_equivalence directory).symm hp) hq)
  have hall : (s.diagnostics.filter fun entry =>
      paths.any fun p => SamePlace directory entry.1 p) = s.diagnostics := by
    refine List.filter_eq_self.2 fun entry hentry => List.any_eq_true.2 ?_
    obtain ⟨path, hpath, hsame⟩ := h.covers entry.1 (List.mem_map_of_mem hentry)
    exact ⟨path, hpath, decide_eq_true hsame⟩
  have hshared := flatMap_filter_perm _ hapart
  rw [hall] at hshared
  have hflat := hshared.flatMap_right (·.2)
  rwa [List.flatMap_assoc] at hflat

theorem length_flatMap_diagnostics (d : DiagnosticSet) :
    (d.flatMap (·.2)).length = d.count := by
  induction d with
  | nil => rfl
  | cons entry d ih => rw [List.flatMap_cons, List.length_append, ih, DiagnosticSet.count]

/-- A path finds what is kept for all spellings of its place, whichever of them it is. Every file
has one place, and over paths that name each place once the lists share out what there is. -/
theorem diagnosticsFor_partition (s : DocumentState) (directory : Path)
    (hsource : .char '\x00' ∉ s.path) (hfiles : ∀ file ∈ s.diagnostics.files, .char '\x00' ∉ file) :
    (∀ path, IsGiven path →
      s.diagnosticsFor directory (some path) = .ok (s.keptAt directory path)) ∧
    (∀ path path', IsGiven path → IsGiven path' → SamePlace directory path path' →
      s.diagnosticsFor directory (some path) = s.diagnosticsFor directory (some path')) ∧
    s.diagnosticsFor directory none = s.diagnosticsFor directory (some s.path) ∧
    s.diagnosticsFor directory none = .ok (s.keptAt directory s.path) ∧
    (∀ file ∈ s.diagnostics.files, ∃! place, Denotes directory file place) ∧
    (∃ paths, Covers directory paths s.diagnostics.files) ∧
    ∀ paths, Covers directory paths s.diagnostics.files →
      ∃ lists, paths.mapM (fun path => s.diagnosticsFor directory (some path)) = .ok lists ∧
        lists.flatten.Perm (s.diagnostics.flatMap (·.2)) ∧
        (lists.map List.length).sum = s.errorCount := by
  have hfor {path : Text} (h : IsGiven path) :
      s.diagnosticsFor directory (some path) = .ok (s.keptAt directory path) := by
    rw [diagnosticsFor_some h.ne_nil, diagnosticsAt_eq hfiles h.null_not_mem]
  refine ⟨fun path => hfor, fun path path' h h' hsame => ?_, diagnosticsFor_none,
    diagnosticsAt_eq hfiles hsource, fun file _ => existsUnique_denotes directory file,
    exists_covers directory hfiles, fun paths hpaths => ?_⟩
  · rw [hfor h, hfor h', keptAt_congr hsame]
  · have hperm : (paths.map (s.keptAt directory)).flatten.Perm (s.diagnostics.flatMap (·.2)) :=
      keptAt_perm hpaths
    refine ⟨_, mapM_ok fun path hpath => hfor (hpaths.isGiven path hpath), hperm, ?_⟩
    rw [← List.length_flatten, hperm.length_eq, length_flatMap_diagnostics]
    rfl

def namedTwice : DocumentState where
  path := "/home/u/./a.jsonnet"
  diagnostics :=
    [("a.jsonnet", [⟨⟨⟨0, 0⟩, ⟨0, 1⟩⟩, "first", .error⟩]),
     ("lib/b", [⟨⟨⟨1, 0⟩, ⟨1, 1⟩⟩, "second", .error⟩]),
     ("lib/.././a.jsonnet", [⟨⟨⟨2, 0⟩, ⟨2, 1⟩⟩, "third", .error⟩]),
     ("/home/u//lib/b/", [⟨⟨⟨3, 0⟩, ⟨3, 1⟩⟩, "fourth", .error⟩])]

theorem diagnosticsFor_partition_namedTwice :
    namedTwice.diagnosticsFor ⟨.root, ["home", "u"]⟩ none =
      .ok [⟨⟨⟨0, 0⟩, ⟨0, 1⟩⟩, "first", .error⟩, ⟨⟨⟨2, 0⟩, ⟨2, 1⟩⟩, "third", .error⟩] ∧
    namedTwice.diagnosticsFor ⟨.root, ["home", "u"]⟩ (some "lib/../lib/b") =
      .ok [⟨⟨⟨1, 0⟩, ⟨1, 1⟩⟩, "second", .error⟩, ⟨⟨⟨3, 0⟩, ⟨3, 1⟩⟩, "fourth", .error⟩] ∧
    namedTwice.errorCount = 4 := by
  obtain ⟨hfor, -, -, hnone, -, -, hall⟩ :=
    diagnosticsFor_partition namedTwice ⟨.root, ["home", "u"]⟩ (by decide) (by decide)
  refine ⟨hnone, hfor "lib/../lib/b" ⟨by decide, by decide⟩, ?_⟩
  have hcovers : Covers ⟨.root, ["home", "u"]⟩ ["a.jsonnet", "lib/b"]
      namedTwice.diagnostics.files :=
    ⟨fun path hpath => ?_, by decide, by decide⟩
  · obtain ⟨lists, hlists, -, hsum⟩ := hall _ hcovers
    cases hlists
    exact hsum.symm
  · rcases List.mem_pair.1 hpath with rfl | rfl <;> exact ⟨by decide, by decide⟩

end JsonnetPreview.DocumentState
