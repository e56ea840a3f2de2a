import JsonnetPreview.Report.Diagnostic
import JsonnetPreview.Proofs.Groups

namespace JsonnetPreview.Report.DiagnosticSet

def addAll (s : DiagnosticSet) (found : List (Text × Diagnostic)) : DiagnosticSet :=
  found.foldl (fun s x => s.add x.1 x.2) s

def ofFile (file : Text) (found : List (Text × Diagnostic)) : List Diagnostic :=
  (found.filter (·.1 = file)).map (·.2)

def elsewhere (file : Text) (found : List (Text × Diagnostic)) : List (Text × Diagnostic) :=
  found.filter (·.1 ≠ file)

/-- The files in the order in which they first occur, each with its diagnostics. -/
def grouped (found : List (Text × Diagnostic)) : DiagnosticSet :=
  (found.map (·.1)).eraseDups.map fun file => (file, ofFile file found)

theorem ofFile_elsewhere {f g : Text} (h : g ≠ f) (found : List (Text × Diagnostic)) :
    ofFile g (elsewhere f found) = ofFile g found := by
  rw [ofFile, elsewhere, List.filter_filter]
  congr 1
  apply List.filter_congr
  rintro ⟨file, d⟩ -
  by_cases hg : file = g
  · simp [hg, h]
  · simp [hg]

theorem addAll_cons (f : Text) (ds : List Diagnostic) (s : DiagnosticSet)
    (found : List (Text × Diagnostic)) : addAll ((f, ds) :: s) found =
      (f, ds ++ ofFile f found) :: addAll s (elsewhere f found) := by
  induction found generalizing ds s with
  | nil => simp [addAll, ofFile, elsewhere]
  | cons x found ih =>
      obtain ⟨file, d⟩ := x
      rw [addAll, List.foldl_cons]
      by_cases hf : f = file
      · subst hf
        simpa [add, addAll, ofFile, elsewhere] using ih (ds ++ [d]) s
      · simpa [add, addAll, ofFile, elsewhere, hf, Ne.symm hf] using ih ds (s.add file d)

theorem grouped_cons (file : Text) (d : Diagnostic) (found : List (Text × Diagnostic)) :
    grouped ((file, d) :: found) =
      (file, d :: ofFile file found) :: grouped (elsewhere file found) := by
  have hfiles : (found.map (·.1)).filter (fun g => !g == file) =
      (elsewhere file found).map (·.1) := by
    rw [List.filter_map]
    congr 1
    exact List.filter_congr fun x _ => by rw [Bool.eq_iff_iff]; simp
  rw [grouped, List.map_cons, List.eraseDups_cons, List.map_cons, hfiles]
  congr 1
  · simp [ofFile]
  · rw [grouped]
    apply List.map_congr_left
    intro g hg
    have hne : g ≠ file := by
      obtain ⟨x, hx, rfl⟩ := List.mem_map.1 (List.mem_eraseDups.1 hg)
      simpa using (List.mem_filter.1 hx).2
    rw [ofFile_elsewhere hne]
    simp [ofFile, Ne.symm hne]

theorem addAll_nil (found : List (Text × Diagnostic)) : addAll [] found = grouped found := by
  match found with
  | [] => rfl
  | (file, d) :: found =>
      -- What is left for the other files is shorter, but no tail of the list.
      have hlen : (elsewhere file found).length < found.length + 1 :=
        Nat.lt_succ_of_le (List.length_filter_le _ _)
      have hstep : addAll [] ((file, d) :: found) = addAll [(file, [d])] found := rfl
      rw [hstep, addAll_cons, addAll_nil, grouped_cons]
      rfl
termination_by found.length

def others (file : Text) (s : DiagnosticSet) : DiagnosticSet := s.filter (·.1 ≠ file)

theorem add_eq (file : Text) (d : Diagnostic) (s : DiagnosticSet) :
    add file d s = Groups.add file d s := by
  induction s with
  | nil => rfl
  | cons entry s ih => rw [add, Groups.add, ih]

theorem addAll_eq (s : DiagnosticSet) (found : List (Text × Diagnostic)) :
    addAll s found = Groups.addAll s found := by
  simp only [addAll, Groups.addAll, add_eq]

theorem get_addAll (file : Text) (s : DiagnosticSet) (found : List (Text × Diagnostic)) :
    (addAll s found).get file = s.get file ++ ofFile file found := by
  rw [addAll_eq]
  exact Groups.get_addAll file s found

theorem others_cons (file f : Text) (ds : List Diagnostic) (s : DiagnosticSet) :
    others file ((f, ds) :: s) = if f = file then others file s else (f, ds) :: others file s := by
  by_cases h : f = file <;> simp [others, h]

theorem others_add (file g : Text) (d : Diagnostic) (s : DiagnosticSet) :
    (add g d s).others file = if g = file then s.others file else add g d (s.others file) := by
  induction s with
  | nil => exact others_cons file g [d] []
  | cons entry s ih =>
      obtain ⟨f, ds⟩ := entry
      by_cases hf : f = g
      · subst hf
        by_cases hfile : f = file <;> simp [add, others_cons, hfile]
      · rw [add, if_neg hf, others_cons, others_cons, ih]
        by_cases hfile : f = file
        · simp [hfile, show g ≠ file from fun hg => hf (hfile.trans hg.symm)]
        · by_cases hg : g = file <;> simp [add, hfile, hg, hf]

theorem others_addAll (file : Text) (s : DiagnosticSet) (found : List (Text × Diagnostic)) :
    (addAll s found).others file = addAll (s.others file) (elsewhere file found) := by
  induction found generalizing s with
  | nil => rfl
  | cons x found ih =>
      obtain ⟨g, d⟩ := x
      have hstep : addAll s ((g, d) :: found) = addAll (add g d s) found := rfl
      rw [hstep, ih, others_add]
      by_cases hg : g = file <;> simp [elsewhere, addAll, hg]

def files (s : DiagnosticSet) : List Text := s.map (·.1)

/-- Every file stands in a set once, and none without a diagnostic. -/
structure WellFormed (s : DiagnosticSet) : Prop where
  nodup : s.files.Nodup
  ne_nil : ∀ entry ∈ s, entry.2 ≠ []

theorem wellFormed_add {file : Text} {d : Diagnostic} {s : DiagnosticSet} (h : s.WellFormed) :
    (add file d s).WellFormed := by
  have hgroups : Groups.WellFormed s := ⟨h.nodup, h.ne_nil⟩
  obtain ⟨hnodup, hne⟩ := Groups.wellFormed_add (k := file) (x := d) hgroups
  rw [add_eq]
  exact ⟨hnodup, hne⟩

end JsonnetPreview.Report.DiagnosticSet
