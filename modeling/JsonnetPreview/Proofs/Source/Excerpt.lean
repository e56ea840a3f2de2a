import JsonnetPreview.Proofs.Source.Underline
import JsonnetPreview.Source.Listing

namespace JsonnetPreview.Source

open Report Text

def lineAt? (lines : List Text) : Int → Option Text
  | .ofNat n => lines[n]?
  | .negSucc _ => none

def excerptMark (d : Diagnostic) (line : Int) : Char :=
  if line = d.range.start.line then '►' else ' '

def excerptGutter (d : Diagnostic) (line : Int) : Text :=
  gutter (excerptMark d line) excerptWidth (line.toNat + 1)

def excerptText (d : Diagnostic) (line : Int) (source : Text) : Text :=
  excerptGutter d line ++ Styled.showable source

def excerptRow? (lines : List Text) (d : Diagnostic) (line : Int) : Option Text :=
  (lineAt? lines line).map (excerptText d line)

/-- The lines of an excerpt under the message: one for each line around the beginning of the
diagnostic that is there. -/
def excerptRows (lines : List Text) (d : Diagnostic) : List Text :=
  let line := d.range.start.line
  [line - 1, line, line + 1].filterMap (excerptRow? lines d)

variable {lines : List Text} {d : Diagnostic} {line : Int} {source : Text}

theorem forall_mem_excerptGutter {p : CodePoint → Prop} (hmark : p '►') 
    (helements : ∀ c ∈ gutterElements, p c) : ∀ c ∈ excerptGutter d line, p c := by
  intro c hc
  rcases mem_gutter hc with rfl | hc
  · rw [excerptMark]
    split
    · exact hmark
    · exact helements _ (by decide)
  · exact helements c hc

theorem showable_excerptGutter : Styled.showable (excerptGutter d line) = excerptGutter d line :=
  List.filter_eq_self.2 (forall_mem_excerptGutter (by decide) (by decide))

theorem isLine_excerptGutter : IsLine (excerptGutter d line) :=
  forall_mem_excerptGutter (by decide) (by decide)

def columnsOf (lines : List Text) (d : Diagnostic) (line : Int) : List Columns :=
  Groups.get (lineSpans [d] (lines.map List.length)) line.toNat

theorem appendExcerptLine_of_none (h : lineAt? lines line = none) (s : Styled) :
    appendExcerptLine lines d s line = s := by
  cases line with
  | negSucc n => rfl
  | ofNat n =>
      have hline : lines[n]? = none := h
      rw [appendExcerptLine, hline]

theorem appendExcerptLine_of_some (h : lineAt? lines line = some source) (s : Styled) :
    appendExcerptLine lines d s line =
      (if line = d.range.start.line then
        (s.append (excerptGutter d line) (some .boldYellow)).appendStyled
          (underline (Styled.ofText source (some .bold)) (columnsOf lines d line))
      else (s.append (excerptGutter d line) (some .dim)).append source (some .dim)).append
        "\n" none := by
  cases line with
  | negSucc n => cases h
  | ofNat n =>
      have hline : lines[n]? = some source := h
      rw [appendExcerptLine, hline, excerptGutter, excerptMark]
      dsimp only
      split <;> rfl

theorem isProper_columnsOf (h : d.range.IsProper) : ∀ c ∈ columnsOf lines d line, c.IsProper :=
  isProper_of_marks ((marksEach_lineSpans (List.forall_mem_singleton.2 h)
    (lines.map List.length)).marks line.toNat)

theorem underline_source (h : d.range.IsProper) (source : Text) :
    underline (Styled.ofText source (some .bold)) (columnsOf lines d line) =
      ⟨Styled.showable source,
        (columnsOf lines d line).filterMap (·.span? 0 (Styled.showable source).length),
        some .bold⟩ :=
  underline_eq _ (isProper_columnsOf h)

theorem plain_appendExcerptLine (h : d.range.IsProper) (s : Styled) (line : Int) :
    (appendExcerptLine lines d s line).plain =
      s.plain ++ (excerptRow? lines d line).toList.flatMap (· ++ [CodePoint.char '\n']) := by
  have hnewline : Styled.showable "\n" = [.char '\n'] := by decide
  cases hline : lineAt? lines line with
  | none => rw [appendExcerptLine_of_none hline, excerptRow?, hline]; simp
  | some source =>
      rw [appendExcerptLine_of_some hline, Styled.plain_append, hnewline, excerptRow?, hline]
      split
      · rw [underline_source h]
        simp [Styled.appendStyled, Styled.plain_append, showable_excerptGutter, excerptText]
      · simp [Styled.plain_append, showable_excerptGutter, excerptText]

theorem underlines_appendExcerptLine_of_ne (hline : line ≠ d.range.start.line) (s : Styled) :
    (appendExcerptLine lines d s line).underlines = s.underlines := by
  cases hsource : lineAt? lines line with
  | none => rw [appendExcerptLine_of_none hsource]
  | some source =>
      rw [appendExcerptLine_of_some hsource, if_neg hline, Styled.underlines_append _ _ (by decide),
        Styled.underlines_append _ _ (by decide), Styled.underlines_append _ _ (by decide)]

theorem underlines_appendExcerptLine (h : d.range.IsProper)
    (hsource : lineAt? lines d.range.start.line = some source) (s : Styled) :
    (appendExcerptLine lines d s d.range.start.line).underlines =
      s.underlines ++ (columnsOf lines d d.range.start.line).filterMap
        (·.span? (s.plain ++ excerptGutter d d.range.start.line).length
          (Styled.showable source).length) := by
  have hlength : (s.append (excerptGutter d d.range.start.line) (some .boldYellow)).plain =
      s.plain ++ excerptGutter d d.range.start.line := by
    rw [Styled.plain_append, showable_excerptGutter]
  rw [appendExcerptLine_of_some hsource, if_pos rfl, Styled.underlines_append _ _ (by decide),
    underline_source h, Styled.underlines_appendStyled (by simp),
    Styled.underlines_append _ _ (by decide), hlength]
  congr 1
  rw [Styled.underlines, filter_filterMap_span?, map_shift_filterMap_span?, Int.add_zero]

theorem bounded_appendExcerptLine (h : d.range.IsProper) {s : Styled} (hs : s.Bounded)
    (line : Int) : (appendExcerptLine lines d s line).Bounded := by
  cases hsource : lineAt? lines line with
  | none => rwa [appendExcerptLine_of_none hsource]
  | some source =>
      rw [appendExcerptLine_of_some hsource]
      refine Styled.Bounded.append ?_ _ _
      split
      · refine (hs.append _ _).appendStyled ?_
        rw [underline_source h]
        intro x hx
        obtain ⟨c, -, hc⟩ := List.mem_filterMap.1 hx
        rw [Columns.span?] at hc
        split at hc
        · obtain rfl := Option.some.inj hc
          simp only
          omega
        · cases hc
      · exact (hs.append _ _).append _ _

def excerptHead (d : Diagnostic) : Styled :=
  (Styled.empty.append d.message (some .boldRed)).append "\n" none

def untrimmed (lines : List Text) (d : Diagnostic) : Styled :=
  let line := d.range.start.line
  [line - 1, line, line + 1].foldl (appendExcerptLine lines d) (excerptHead d)

theorem excerpt_eq (lines : List Text) (d : Diagnostic) :
    excerpt lines (some d) = (untrimmed lines d).trimEnd := rfl

theorem plain_excerptHead (d : Diagnostic) :
    (excerptHead d).plain = Styled.showable d.message ++ [.char '\n'] := by
  have hnewline : Styled.showable "\n" = [.char '\n'] := by decide
  rw [excerptHead, Styled.plain_append, Styled.plain_append, hnewline]
  rfl

theorem underlines_excerptHead (d : Diagnostic) : (excerptHead d).underlines = [] := by
  rw [excerptHead, Styled.underlines_append _ _ (by decide),
    Styled.underlines_append _ _ (by decide)]
  rfl

theorem bounded_excerptHead (d : Diagnostic) : (excerptHead d).Bounded := by
  have hempty : Styled.Bounded .empty := nofun
  exact (hempty.append _ _).append _ _

theorem bounded_untrimmed (h : d.range.IsProper) : (untrimmed lines d).Bounded :=
  bounded_appendExcerptLine h (bounded_appendExcerptLine h (bounded_appendExcerptLine h
    (bounded_excerptHead d) _) _) _

def ended (rows : List Text) : Text := rows.flatMap (· ++ [CodePoint.char '\n'])

theorem ended_cons (row : Text) (rows : List Text) :
    ended (row :: rows) = joinWith "\n" (row :: rows) ++ [.char '\n'] := by
  induction rows generalizing row with
  | nil => simp [ended, joinWith]
  | cons row' rows ih =>
      rw [joinWith_cons_cons, List.append_assoc, List.cons_append, ← ih]
      simp [ended]

theorem count_newline_ended {rows : List Text} (h : ∀ row ∈ rows, IsLine row) :
    (ended rows).count (.char '\n') = rows.length := by
  induction rows with
  | nil => rfl
  | cons row rows ih =>
      obtain ⟨hrow, hrows⟩ := List.forall_mem_cons.1 h
      have hcons : ended (row :: rows) = row ++ [.char '\n'] ++ ended rows := List.flatMap_cons
      rw [hcons, List.count_append, List.count_append, count_newline hrow, ih hrows,
        List.length_cons, Nat.add_comm rows.length, Nat.zero_add]
      rfl

theorem excerptRows_eq (lines : List Text) (d : Diagnostic) : excerptRows lines d =
    (excerptRow? lines d (d.range.start.line - 1)).toList ++
      ((excerptRow? lines d d.range.start.line).toList ++
        (excerptRow? lines d (d.range.start.line + 1)).toList) := by
  rw [excerptRows, List.filterMap_eq_flatMap_toList]
  simp

theorem plain_untrimmed (h : d.range.IsProper) : (untrimmed lines d).plain =
    ended (Styled.showable d.message :: excerptRows lines d) := by
  rw [untrimmed, List.foldl_cons, List.foldl_cons, List.foldl_cons, List.foldl_nil,
    plain_appendExcerptLine h, plain_appendExcerptLine h, plain_appendExcerptLine h,
    plain_excerptHead, excerptRows_eq]
  simp [ended]

theorem plain_excerpt (h : d.range.IsProper) : (excerpt lines (some d)).plain =
    trimEnd (joinWith "\n" (Styled.showable d.message :: excerptRows lines d)) := by
  rw [excerpt_eq, Styled.plain_trimEnd, plain_untrimmed h, ended_cons]
  exact trimEnd_append_of_isBlank (by decide) _

theorem isLine_showable (h : IsLine source) : IsLine (Styled.showable source) :=
  fun c hc => h c (List.mem_of_mem_filter hc)

theorem mem_of_lineAt? (h : lineAt? lines line = some source) : source ∈ lines := by
  cases line with
  | negSucc n => cases h
  | ofNat n => exact List.mem_of_getElem? h

/-- The rule of the gutter keeps a line of an excerpt from being trimmed away. -/
theorem exists_rule (d : Diagnostic) (line : Int) (source : Text) : ∃ t u,
    excerptText d line source = .char (excerptMark d line) :: (t ++ .char '│' :: u) := by
  refine ⟨.char ' ' :: (padLeft excerptWidth (ofNat (line.toNat + 1)) ++ [.char ' ']),
    .char ' ' :: Styled.showable source, ?_⟩
  have hrule : ofString " │ " = [.char ' ', .char '│', .char ' '] := by decide
  rw [excerptText, excerptGutter, gutter, hrule]
  simp

theorem not_isBlank_excerptText (d : Diagnostic) (line : Int) (source : Text) :
    ¬ IsBlank (excerptText d line source) := by
  obtain ⟨t, u, htext⟩ := exists_rule d line source
  rw [htext]
  exact fun hblank => absurd (hblank (.char '│') (by simp)) (by decide)

theorem head?_excerptText (d : Diagnostic) (line : Int) (source : Text) :
    (excerptText d line source).head? = some (.char (excerptMark d line)) ∧
      (trimEnd (excerptText d line source)).head? = some (.char (excerptMark d line)) := by
  obtain ⟨t, u, htext⟩ := exists_rule d line source
  have hrule : ¬ IsBlank (t ++ .char '│' :: u) := fun hblank =>
    absurd (hblank (.char '│') (by simp)) (by decide)
  rw [htext, ← List.singleton_append, trimEnd_append hrule]
  exact ⟨rfl, rfl⟩

theorem exists_of_mem_excerptRows {row : Text} (h : row ∈ excerptRows lines d) :
    ∃ line source, lineAt? lines line = some source ∧ row = excerptText d line source := by
  obtain ⟨line, -, hrow⟩ := List.mem_filterMap.1 h
  obtain ⟨source, hsource, rfl⟩ := Option.map_eq_some_iff.1 hrow
  exact ⟨line, source, hsource, rfl⟩

theorem isLine_excerptRows (h : ∀ l ∈ lines, IsLine l) {row : Text}
    (hrow : row ∈ excerptRows lines d) : IsLine row := by
  obtain ⟨line, source, hsource, rfl⟩ := exists_of_mem_excerptRows hrow
  exact isLine_append.2 ⟨isLine_excerptGutter, isLine_showable (h _ (mem_of_lineAt? hsource))⟩

theorem lines_excerpt (h : d.range.IsProper) (hmessage : IsLine d.message)
    (hlines : ∀ l ∈ lines, IsLine l) :
    (excerpt lines (some d)).plain.lines.drop 1 = trimLast (excerptRows lines d) := by
  rw [plain_excerpt h]
  refine lines_trimEnd_joinWith (isLine_showable hmessage) fun row hrow =>
    ⟨isLine_excerptRows hlines hrow, ?_⟩
  obtain ⟨line, source, -, rfl⟩ := exists_of_mem_excerptRows hrow
  exact not_isBlank_excerptText d line source

theorem map_head?_excerptRows (lines : List Text) (d : Diagnostic) :
    (trimLast (excerptRows lines d)).map List.head? = (excerptRows lines d).map List.head? := by
  refine map_head?_trimLast fun row hrow => ?_
  obtain ⟨line, source, -, rfl⟩ := exists_of_mem_excerptRows hrow
  obtain ⟨hhead, htrim⟩ := head?_excerptText d line source
  rw [htrim, hhead]

theorem lineAt?_isSome_iff : (lineAt? lines line).isSome ↔ 0 ≤ line ∧ line < lines.length := by
  cases line with
  | negSucc n => exact ⟨nofun, fun ⟨hline, _⟩ => absurd hline (by omega)⟩
  | ofNat n =>
      show (lines[n]?).isSome ↔ (0 : Int) ≤ n ∧ (n : Int) < lines.length
      rw [isSome_getElem?]
      omega

theorem excerptMark_eq_iff : excerptMark d line = '►' ↔ line = d.range.start.line := by
  rw [excerptMark]
  split
  next hline => exact ⟨fun _ => hline, fun _ => rfl⟩
  next hline => exact ⟨fun hmark => absurd hmark (by decide), fun h => absurd h hline⟩

theorem exists_marked_iff (lines : List Text) (d : Diagnostic) :
    (∃ row ∈ trimLast (excerptRows lines d), row.head? = some (.char '►')) ↔
      0 ≤ d.range.start.line ∧ d.range.start.line < lines.length := by
  rw [← List.mem_map, map_head?_excerptRows, List.mem_map, ← lineAt?_isSome_iff,
    Option.isSome_iff_exists]
  constructor
  · rintro ⟨row, hrow, hhead⟩
    obtain ⟨line, source, hsource, rfl⟩ := exists_of_mem_excerptRows hrow
    rw [(head?_excerptText d line source).1] at hhead
    obtain rfl := excerptMark_eq_iff.1 (CodePoint.char.inj (Option.some.inj hhead))
    exact ⟨source, hsource⟩
  · rintro ⟨source, hsource⟩
    have hrow : excerptText d d.range.start.line source ∈ excerptRows lines d := by
      refine List.mem_filterMap.2 ⟨d.range.start.line, by simp, ?_⟩
      rw [excerptRow?, hsource]
      rfl
    refine ⟨_, hrow, ?_⟩
    rw [(head?_excerptText d d.range.start.line source).1, excerptMark_eq_iff.2 rfl]

/-- All that stands in front of the first line of a diagnostic. -/
def excerptStart (lines : List Text) (d : Diagnostic) : Text :=
  ended (Styled.showable d.message ::
    (excerptRow? lines d (d.range.start.line - 1)).toList) ++ excerptGutter d d.range.start.line

def excerptEnd (lines : List Text) (d : Diagnostic) : Text :=
  ended (excerptRow? lines d (d.range.start.line + 1)).toList

theorem plain_untrimmed_of_some (h : d.range.IsProper)
    (hsource : lineAt? lines d.range.start.line = some source) : (untrimmed lines d).plain =
      excerptStart lines d ++ (Styled.showable source ++ .char '\n' :: excerptEnd lines d) := by
  have hrow : excerptRow? lines d d.range.start.line =
      some (excerptGutter d d.range.start.line ++ Styled.showable source) := by
    rw [excerptRow?, hsource]
    rfl
  rw [plain_untrimmed h, excerptRows_eq, hrow, excerptStart, excerptEnd]
  simp [ended]

theorem underlines_untrimmed_of_some (h : d.range.IsProper)
    (hsource : lineAt? lines d.range.start.line = some source) : (untrimmed lines d).underlines =
      (columnsOf lines d d.range.start.line).filterMap
        (·.span? (excerptStart lines d).length (Styled.showable source).length) := by
  have hstart : (appendExcerptLine lines d (excerptHead d) (d.range.start.line - 1)).plain ++
      excerptGutter d d.range.start.line = excerptStart lines d := by
    rw [plain_appendExcerptLine h, plain_excerptHead, excerptStart]
    simp [ended]
  rw [untrimmed, List.foldl_cons, List.foldl_cons, List.foldl_cons, List.foldl_nil,
    underlines_appendExcerptLine_of_ne (by omega), underlines_appendExcerptLine h hsource,
    underlines_appendExcerptLine_of_ne (by omega), underlines_excerptHead, hstart]
  rfl

theorem underlines_untrimmed_of_none (hsource : lineAt? lines d.range.start.line = none) :
    (untrimmed lines d).underlines = [] := by
  rw [untrimmed, List.foldl_cons, List.foldl_cons, List.foldl_cons, List.foldl_nil,
    underlines_appendExcerptLine_of_ne (by omega), appendExcerptLine_of_none hsource,
    underlines_appendExcerptLine_of_ne (by omega), underlines_excerptHead]

theorem map_under_untrimmed (h : d.range.IsProper) (hlines : ∀ l ∈ lines, IsLine l) :
    (untrimmed lines d).underlines.map (untrimmed lines d).under =
      (listing lines [d]).underlinedIn d.range.start.line.toNat := by
  have hlisting := underlinedIn_listing (List.forall_mem_singleton.2 h) hlines
    d.range.start.line.toNat
  have hat : lines[d.range.start.line.toNat]? = lineAt? lines d.range.start.line := by
    obtain ⟨n, hn⟩ := Int.eq_ofNat_of_zero_le h.line
    rw [hn]
    rfl
  rw [hlisting, hat]
  cases hsource : lineAt? lines d.range.start.line with
  | none =>
      rw [underlines_untrimmed_of_none hsource]
      rfl
  | some source =>
      rw [underlines_untrimmed_of_some h hsource, Option.toList_some, List.flatMap_singleton]
      exact map_slice_filterMap_span? (plain_untrimmed_of_some h hsource) (isProper_columnsOf h)

theorem head?_of_mem_underlines (h : d.range.IsProper) (hmessage : IsLine d.message)
    (hlines : ∀ l ∈ lines, IsLine l) {x : Span} (hx : x ∈ (excerpt lines (some d)).underlines) :
    0 < (excerpt lines (some d)).lineOf x ∧
      ∃ row, (excerpt lines (some d)).plain.lines[(excerpt lines (some d)).lineOf x]? = some row ∧
        row.head? = some (.char '►') := by
  obtain ⟨y, hy, hline⟩ : ∃ y ∈ (untrimmed lines d).underlines,
      (excerpt lines (some d)).lineOf x = (untrimmed lines d).lineOf y :=
    Styled.exists_of_mem_underlines_trimEnd hx
  cases hsource : lineAt? lines d.range.start.line with
  | none => exact absurd hy (underlines_untrimmed_of_none hsource ▸ List.not_mem_nil)
  | some source =>
      let above := (excerptRow? lines d (d.range.start.line - 1)).toList
      have habove : ∀ row ∈ Styled.showable d.message :: above, IsLine row := by
        refine List.forall_mem_cons.2 ⟨isLine_showable hmessage, fun row hrow => ?_⟩
        exact isLine_excerptRows hlines (excerptRows_eq lines d ▸ List.mem_append_left _ hrow)
      have hcount : (excerpt lines (some d)).lineOf x = above.length + 1 := by
        rw [underlines_untrimmed_of_some h hsource] at hy
        rw [hline, lineOf_of_mem_underlines (plain_untrimmed_of_some h hsource)
          (isLine_showable (hlines _ (mem_of_lineAt? hsource))) (isProper_columnsOf h) hy,
          excerptStart, List.count_append, count_newline_ended habove,
          count_newline isLine_excerptGutter]
        rfl
      have hhead : ((trimLast (excerptRows lines d)).map List.head?)[above.length]? =
          some (some (.char '►')) := by
        have hrow : excerptRow? lines d d.range.start.line =
            some (excerptText d d.range.start.line source) := by
          rw [excerptRow?, hsource]
          rfl
        rw [map_head?_excerptRows, excerptRows_eq, hrow, List.map_append,
          List.getElem?_append_right (by simp [above])]
        simp [above, (head?_excerptText d d.range.start.line source).1, excerptMark_eq_iff.2]
      rw [List.getElem?_map, ← lines_excerpt h hmessage hlines, List.getElem?_drop] at hhead
      obtain ⟨row, hrow, hmark⟩ := Option.map_eq_some_iff.1 hhead
      refine ⟨by omega, row, ?_, hmark⟩
      rw [hcount, Nat.add_comm, hrow]

theorem exists_toList_underlines (h : d.range.IsProper)
    (hsource : lineAt? lines d.range.start.line = some source) :
    ∃ x : Option Span, (untrimmed lines d).underlines = x.toList := by
  rw [underlines_untrimmed_of_some h hsource, columnsOf, get_lineSpans]
  cases hcolumns : columnsAt? (lines.map List.length) d.range.start.line.toNat d with
  | none => exact ⟨none, by simp [hcolumns]⟩
  | some c =>
      refine ⟨c.span? (excerptStart lines d).length (Styled.showable source).length, ?_⟩
      rw [List.filterMap_cons_some hcolumns, List.filterMap_nil,
        List.filterMap_eq_flatMap_toList, List.flatMap_singleton]

theorem trimEnd_untrimmed_of_next (h : d.range.IsProper)
    (hsource : lineAt? lines d.range.start.line = some source) {next : Text}
    (hnext : lineAt? lines (d.range.start.line + 1) = some next) :
    trimEnd (untrimmed lines d).plain = excerptStart lines d ++
      (Styled.showable source ++ .char '\n' :: trimEnd (excerptEnd lines d)) := by
  have hrow : excerptEnd lines d =
      excerptText d (d.range.start.line + 1) next ++ [.char '\n'] := by
    rw [excerptEnd, excerptRow?, hnext]
    simp [ended]
  have hend : ¬ IsBlank (excerptEnd lines d) := by
    rw [hrow]
    exact fun hblank => not_isBlank_excerptText d _ next fun c hc =>
      hblank c (List.mem_append_left _ hc)
  have hplain : (untrimmed lines d).plain =
      (excerptStart lines d ++ (Styled.showable source ++ [.char '\n'])) ++ excerptEnd lines d := by
    rw [plain_untrimmed_of_some h hsource]
    simp
  rw [hplain, trimEnd_append hend]
  simp

/-- White space at the end of the text that is underlined is all that an excerpt leaves out, and
only if no line of the source is behind it. -/
theorem exists_flatMap_under (h : d.range.IsProper) (lines : List Text) : ∃ blanks, IsBlank blanks ∧
    (blanks ≠ [] → d.range.start.line + 1 = lines.length) ∧
    (untrimmed lines d).underlines.flatMap (untrimmed lines d).under =
      (excerpt lines (some d)).underlines.flatMap (excerpt lines (some d)).under ++ blanks := by
  rw [excerpt_eq, Styled.flatMap_under_trimEnd]
  cases hsource : lineAt? lines d.range.start.line with
  | none =>
      rw [underlines_untrimmed_of_none hsource]
      exact ⟨[], nofun, nofun, rfl⟩
  | some source =>
      cases hnext : lineAt? lines (d.range.start.line + 1) with
      | none =>
          -- The marked line is the last one, and what trimming takes may be underlined in it.
          have hlast : d.range.start.line + 1 = lines.length := by
            have hin := lineAt?_isSome_iff.1 (Option.isSome_of_mem hsource)
            have hout : ¬ (lineAt? lines (d.range.start.line + 1)).isSome := by simp [hnext]
            rw [lineAt?_isSome_iff] at hout
            omega
          obtain ⟨x, hx⟩ := exists_toList_underlines h hsource
          rw [hx]
          cases x with
          | none => exact ⟨[], nofun, nofun, rfl⟩
          | some x =>
              obtain ⟨b, hb, hslice⟩ :=
                exists_slice_trimEnd (untrimmed lines d).plain x.start x.stop
              refine ⟨b, hb, fun _ => hlast, ?_⟩
              simp only [Option.toList_some, List.flatMap_singleton]
              exact hslice
      | some next =>
          have hproper : ∀ c ∈ columnsOf lines d d.range.start.line, c.IsProper :=
            isProper_columnsOf h
          have hplain := map_slice_filterMap_span? (plain_untrimmed_of_some h hsource) hproper
          have htrim :=
            map_slice_filterMap_span? (trimEnd_untrimmed_of_next h hsource hnext) hproper
          refine ⟨[], nofun, fun hne => absurd rfl hne, ?_⟩
          rw [List.append_nil, List.flatMap_def, List.flatMap_def,
            underlines_untrimmed_of_some h hsource]
          exact congrArg List.flatten (hplain.trans htrim.symm)

/-- An excerpt shows the message of a diagnostic and under it the lines around its beginning, each
with its number. The first line of the diagnostic is marked if it is there, and in it the same text
is underlined as in a listing, but for white space at the end of the whole source. -/
theorem excerpt_agrees (h : d.range.IsProper) (hmessage : IsLine d.message)
    (hlines : ∀ l ∈ lines, IsLine l) :
    let shown := excerpt lines (some d)
    ((∃ row ∈ shown.plain.lines.drop 1, row.head? = some (.char '►')) ↔
      0 ≤ d.range.start.line ∧ d.range.start.line < lines.length) ∧
    shown.plain = trimEnd (joinWith "\n" (Styled.showable d.message :: excerptRows lines d)) ∧
    shown.plain.lines.drop 1 = trimLast (excerptRows lines d) ∧
    (∀ x ∈ shown.underlines, 0 < shown.lineOf x ∧
      ∃ row, shown.plain.lines[shown.lineOf x]? = some row ∧ row.head? = some (.char '►')) ∧
    (∃ blanks, IsBlank blanks ∧ (blanks ≠ [] → d.range.start.line + 1 = lines.length) ∧
      ((listing lines [d]).underlinedIn d.range.start.line.toNat).flatten =
        shown.underlines.flatMap shown.under ++ blanks) ∧
    shown.Bounded := by
  have hrows := lines_excerpt h hmessage hlines
  refine ⟨?_, plain_excerpt h, hrows, fun x => head?_of_mem_underlines h hmessage hlines, ?_, ?_⟩
  · rw [hrows]
    exact exists_marked_iff lines d
  · obtain ⟨blanks, hblanks, hlast, hunder⟩ := exists_flatMap_under h lines
    refine ⟨blanks, hblanks, hlast, ?_⟩
    rw [← hunder, ← map_under_untrimmed h hlines, List.flatMap_def]
  · exact (bounded_untrimmed h).trimEnd

def unfinishedLines : List Text := ["local a = 1;", "[a, a  "]

def unfinishedDiagnostic : Diagnostic :=
  { range := ⟨⟨1, 4⟩, ⟨1, 7⟩⟩, message := "expected a comma" }

theorem excerpt_agrees_unfinished :
    unfinishedDiagnostic.range.IsProper ∧ IsLine unfinishedDiagnostic.message ∧
    (∀ l ∈ unfinishedLines, IsLine l) ∧
    (excerpt unfinishedLines (some unfinishedDiagnostic)).plain.lines.drop 1 =
      ["     1 │ local a = 1;", "►    2 │ [a, a"] ∧
    ∃ blanks, IsBlank blanks ∧ ofString "a  " =
      (excerpt unfinishedLines (some unfinishedDiagnostic)).underlines.flatMap
        (excerpt unfinishedLines (some unfinishedDiagnostic)).under ++ blanks := by
  have hproper : unfinishedDiagnostic.range.IsProper :=
    ⟨by decide, by decide, by decide, .inr ⟨rfl, by decide⟩⟩
  have hlines : ∀ l ∈ unfinishedLines, IsLine l := by decide
  obtain ⟨-, -, hrows, -, ⟨blanks, hblanks, -, hunder⟩, -⟩ :=
    excerpt_agrees hproper (by decide) hlines
  refine ⟨hproper, by decide, hlines, hrows.trans (by decide +kernel), blanks, hblanks, ?_⟩
  rw [← hunder]
  decide +kernel

end JsonnetPreview.Source
