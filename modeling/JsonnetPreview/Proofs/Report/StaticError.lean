import JsonnetPreview.Proofs.Report.Accounting

namespace JsonnetPreview.Report

open Text

def locatedError (file : Text) (s : Shape) (ns : List Numeral) (rest : Text) : Text :=
  file ++ .char ':' :: (s.write ns ++ rest)

/-- A text that can be printed as the message of an error. -/
structure IsMessage (m : Text) : Prop where
  ne_nil : m ≠ []
  isLine : IsLine m
  head : ∀ c ∈ m.head?, c ≠ .char ':' ∧ c ≠ .char ' ' ∧ c ≠ .char '\t'

def separators : List Text := [": ", " "]

def staticReport (banner error : Text) (further : List Text) : Text :=
  joinWith "\n" (banner :: (staticMark ++ error) :: further)

theorem classify_staticReport {banner error : Text} (hb : IsLine banner) (he : IsLine error)
    (further : List Text) : classify (staticReport banner error further) = .static error := by
  have hmark : IsLine (staticMark ++ error) := isLine_append.2 ⟨by decide, he⟩
  rw [staticReport,
    classify_of_lines (lines_joinWith_cons_cons hb hmark (by simp [staticMark, ofString]) _)]
  rfl

theorem delimited_separator {sep : Text} (hsep : sep ∈ separators) (m : Text) :
    Delimited (sep ++ m) := by
  obtain rfl | rfl : sep = ofString ": " ∨ sep = ofString " " := by simpa [separators] using hsep
  · refine ⟨rfl, ?_⟩
    rintro r ⟨⟩
    exact Numeral.ends_cons.2 (by decide)
  · refine .of_isBlank ?_
    rintro c ⟨⟩
    decide

theorem trimStartOf_separator {sep m : Text} (hsep : sep ∈ separators) (hm : IsMessage m) :
    trimStartOf isMessageLead (sep ++ m) = m := by
  have hlead : ∀ sep ∈ separators, ∀ c ∈ sep, isMessageLead c = true := by decide
  obtain ⟨c, r, rfl⟩ := List.exists_cons_of_ne_nil hm.ne_nil
  have hc : isMessageLead c = false := by simpa [isMessageLead, and_assoc] using hm.head c rfl
  rw [trimStartOf, List.dropWhile_append_of_pos (hlead sep hsep)]
  simp [hc]

namespace Shape.Denotes

variable {s : Shape} {ns : List Numeral} {r : LocationRange} {file rest : Text}

theorem isLine_locatedError (h : s.Denotes ns r) (hf : IsLine file) (hrest : IsLine rest) :
    IsLine (locatedError file s ns rest) := by
  have hposition : IsLine (s.write ns) := fun c hc =>
    not_isLineBreak_of_not_isBlank (h.not_isBlank c hc)
  exact isLine_append.2 ⟨hf, isLine_cons.2 ⟨by decide, isLine_append.2 ⟨hposition, hrest⟩⟩⟩

theorem staticFinding_locatedError (h : s.Denotes ns r) (hfile : IsFile file)
    (hrest : Delimited rest) : staticFinding (locatedError file s ns rest) =
      .ok (.located file
        { range := r.toRange
          message :=
            if (trimStartOf isMessageLead rest).isEmpty then trim (s.write ns ++ rest)
            else trimStartOf isMessageLead rest }) := by
  have hframe : Frame.read? (locatedError file s ns rest) = some ⟨[], file⟩ :=
    Frame.read?_append (List.forall_mem_nil _) hfile.ne_nil hfile.colon_not_mem
      hfile.not_isBlank_head _
  have hlocated : (locatedError file s ns rest).drop (Frame.full ⟨[], file⟩).length =
      s.write ns ++ rest := by
    have hfull : locatedError file s ns rest = Frame.full ⟨[], file⟩ ++ (s.write ns ++ rest) := by
      simp [locatedError, Frame.full, Frame.indentedFile]
    rw [hfull, List.drop_left]
  have hrange : LocationRange.read? (s.write ns ++ rest) = .ok (some r) :=
    h.read?_of_leads hrest (h.leads rest)
  have hlength : positionLength (s.write ns ++ rest) = (s.write ns).length :=
    positionLength_append (h.leads rest) (h.of?_write hrest) rfl
  rw [staticFinding, hframe]
  simp only [hlocated, hrange, hlength, List.drop_left]
  rfl

end Shape.Denotes

theorem extract_of_staticFinding {banner error file : Text} {d : Diagnostic} (hb : IsLine banner)
    (he : IsLine error) (h : staticFinding error = .ok (.located file d)) (further : List Text) :
    extract (staticReport banner error further) = .ok ⟨[], [(file, [d])]⟩ := by
  rw [extract, classify_staticReport hb he]
  simp only [collect, h]
  rfl

/-- A printed static error is one diagnostic, and the message is the printed one. If nothing is
printed behind the position, the position is the message. -/
theorem extract_staticReport {banner file : Text} (hb : IsLine banner) (hfile : IsFile file)
    (hline : IsLine file) {s : Shape} {ns : List Numeral} {r : LocationRange} (h : s.Denotes ns r)
    (further : List Text) :
    (∀ sep ∈ separators, ∀ m, IsMessage m →
      extract (staticReport banner (locatedError file s ns (sep ++ m)) further) =
        .ok ⟨[], [(file, [⟨r.toRange, m, .error⟩])]⟩) ∧
      extract (staticReport banner (locatedError file s ns []) further) =
        .ok ⟨[], [(file, [⟨r.toRange, s.write ns, .error⟩])]⟩ := by
  constructor
  · intro sep hsep m hm
    have hseparator : IsLine sep := (by decide : ∀ sep ∈ separators, IsLine sep) sep hsep
    have herror := h.isLine_locatedError hline (isLine_append.2 ⟨hseparator, hm.isLine⟩)
    have hfinding := h.staticFinding_locatedError hfile (delimited_separator hsep m)
    rw [trimStartOf_separator hsep hm, if_neg (by simpa using hm.ne_nil)] at hfinding
    exact extract_of_staticFinding hb herror hfinding further
  · have herror := h.isLine_locatedError hline (List.forall_mem_nil _)
    have hdelimited : Delimited [] := .of_isBlank nofun
    have hfinding := h.staticFinding_locatedError hfile hdelimited
    rw [List.append_nil, trim_of_forall_not_isBlank h.not_isBlank] at hfinding
    exact extract_of_staticFinding hb herror hfinding further

def numberedMessage : Text := "4: expected a comma"

theorem isMessage_numberedMessage : IsMessage numberedMessage := ⟨by decide, by decide, by decide⟩

theorem extract_staticReport_numberedMessage :
    IsLine "Command failed: jsonnet main.jsonnet" ∧ IsFile "main file.jsonnet" ∧
      IsLine "main file.jsonnet" ∧ Shape.line.Denotes [[3], [5], [9]] ⟨⟨3, 5⟩, ⟨3, 9⟩⟩ ∧
      extract (staticReport "Command failed: jsonnet main.jsonnet"
          "main file.jsonnet:3:5-9: 4: expected a comma" ["", "3:6-7: more"]) =
        .ok ⟨[], [("main file.jsonnet", [⟨⟨⟨2, 4⟩, ⟨2, 9⟩⟩, numberedMessage, .error⟩])]⟩ ∧
      extract (staticReport "Command failed: jsonnet main.jsonnet"
          "main file.jsonnet:3:5-9" ["", "3:6-7: more"]) =
        .ok ⟨[], [("main file.jsonnet", [⟨⟨⟨2, 4⟩, ⟨2, 9⟩⟩, "3:5-9", .error⟩])]⟩ := by
  have hbanner : IsLine "Command failed: jsonnet main.jsonnet" := by decide
  have hfile : IsFile "main file.jsonnet" := ⟨by decide, by decide, by decide⟩
  have hline : IsLine "main file.jsonnet" := by decide
  have hdenotes : Shape.line.Denotes [[3], [5], [9]] ⟨⟨3, 5⟩, ⟨3, 9⟩⟩ := ⟨by decide, rfl, rfl⟩
  obtain ⟨hmessage, hbare⟩ :=
    extract_staticReport hbanner hfile hline hdenotes ["", "3:6-7: more"]
  exact ⟨hbanner, hfile, hline, hdenotes,
    hmessage ": " (by decide) numberedMessage isMessage_numberedMessage, hbare⟩

end JsonnetPreview.Report
