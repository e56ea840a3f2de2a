import JsonnetPreview.Panel.Screen
import JsonnetPreview.Proofs.Panel.Selection

namespace JsonnetPreview

namespace Screen

def barOf (s : DocumentState) : StatusBar where
  file := (Path.ofText s.path).name
  format := (formatOf s.format).getD []
  externals := Variables.format s.externals.toTexts
  status := if s.hasErrors then "error" else "ok"
  errors := s.errorCount

/-- All panes show a state. Either a report or a preview is displayed, and the panel shows one of the
diagnostics of the active document if there are any. -/
structure Shows (x : Screen) (s : DocumentState) (directory : Path) : Prop where
  displays : x.showsReport = true ↔ s.failed = true ∧ s.diagnostics = []
  report : x.showsReport = true → x.report = Text.throughEditor s.preview
  view : x.showsReport = false →
    x.view = some (.ofPreview s.preview s.format.display s.failed)
  bar : x.bar = barOf s
  title : x.title = (SourceKind.ofPath s.path).label
  diagnostics : s.diagnosticsFor directory none = .ok x.peek.diagnostics
  source : x.source = Source.listing s.lines x.peek.diagnostics
  lines : x.peek.lines = s.lines
  current_mem : ∀ d, x.peek.current = some d → d ∈ x.peek.diagnostics
  current_eq_none : x.peek.current = none ↔ x.peek.diagnostics = []

def IsUpToDate (x : Screen) : Prop := x.Shows x.session.state x.session.world.directory

variable {x y : Screen}

theorem isUnlocated_iff (s : DocumentState) :
    isUnlocated s = true ↔ s.failed = true ∧ s.diagnostics = [] := by
  rw [isUnlocated, Bool.and_eq_true, List.isEmpty_iff]

section ShowPreview

variable (x : Screen) (s : DocumentState)

theorem showPreview_showsReport : (x.showPreview s).showsReport = isUnlocated s := by
  cases h : isUnlocated s with
  | true => simp only [showPreview, h, if_true]
  | false => simp [showPreview, h]

theorem showPreview_report (h : isUnlocated s = true) :
    (x.showPreview s).report = Text.throughEditor s.preview := by
  simp only [showPreview, if_pos h]

theorem showPreview_view (h : isUnlocated s = false) :
    (x.showPreview s).view = some (.ofPreview s.preview s.format.display s.failed) := by
  simp [showPreview, h]

theorem showPreview_eq : ∃ popup view showsReport report,
    x.showPreview s = { x with popup, view, showsReport, report } := by
  rw [showPreview]
  split
  · exact ⟨_, _, _, _, rfl⟩
  · exact ⟨_, _, _, _, rfl⟩

end ShowPreview

theorem statusBar_eq_ok {bar bar' : StatusBar} {s : DocumentState}
    (h : statusBar bar s = .ok bar') : bar' = bar.update (statusOf s) := by
  rw [statusBar] at h
  split at h
  · exact (Except.ok.inj h).symm
  · cases h

theorem formatOf_str (name : Text) : formatOf (.str name) = some name := by
  cases name <;> rfl

/-- A format that is not given leaves the one that is shown, and there is none if the format has
never been given. -/
theorem update_statusOf {bar : StatusBar} {s : DocumentState}
    (h : s.format = .null → bar.format = []) : bar.update (statusOf s) = barOf s := by
  have hformat : (formatOf s.format).getD bar.format = (formatOf s.format).getD [] := by
    cases hs : s.format with
    | null => exact h hs
    | bool | int | float | str | arr | obj => rfl
  exact congrArg ({ barOf s with format := · }) hformat

theorem setPanes_eq_ok (h : x.setPanes = .ok y) : ∃ ds bar,
    x.session.state.diagnosticsFor x.session.world.directory none = .ok ds ∧
      statusBar x.bar x.session.state = .ok bar ∧
      y = { x.showPreview x.session.state with
            source := Source.listing x.session.state.lines ds
            title := (SourceKind.ofPath x.session.state.path).label
            peek := PeekPanel.update x.session.state.lines ds
            bar } := by
  cases hds : x.session.state.diagnosticsFor x.session.world.directory none with
  | error fault =>
      simp only [setPanes, hds] at h
      cases h
  | ok ds =>
      cases hbar : statusBar x.bar x.session.state with
      | error fault =>
          simp only [setPanes, hds, hbar] at h
          cases h
      | ok bar =>
          simp only [setPanes, hds, hbar] at h
          cases h
          exact ⟨ds, bar, rfl, rfl, rfl⟩

theorem setPanes_of_ok {ds : List Report.Diagnostic} {bar : StatusBar}
    (hds : x.session.state.diagnosticsFor x.session.world.directory none = .ok ds)
    (hbar : statusBar x.bar x.session.state = .ok bar) :
    x.setPanes = .ok { x.showPreview x.session.state with
      source := Source.listing x.session.state.lines ds
      title := (SourceKind.ofPath x.session.state.path).label
      peek := PeekPanel.update x.session.state.lines ds
      bar } := by
  simp only [setPanes, hds, hbar]
  rfl

theorem setPanes_keeps (h : x.setPanes = .ok y) :
    y.session = x.session ∧ y.documents = x.documents ∧ y.active = x.active := by
  obtain ⟨ds, bar, -, -, rfl⟩ := setPanes_eq_ok h
  obtain ⟨popup, view, showsReport, report, hpreview⟩ := x.showPreview_eq x.session.state
  rw [hpreview]
  exact ⟨rfl, rfl, rfl⟩

theorem shows_of_setPanes (h : x.setPanes = .ok y)
    (hformat : x.session.state.format = .null → x.bar.format = []) :
    y.Shows x.session.state x.session.world.directory := by
  obtain ⟨ds, bar, hds, hbar, rfl⟩ := setPanes_eq_ok h
  have hreport := x.showPreview_showsReport x.session.state
  constructor
  case displays => exact hreport ▸ isUnlocated_iff x.session.state
  case report => exact fun hy => x.showPreview_report x.session.state (hreport.symm.trans hy)
  case view => exact fun hy => x.showPreview_view x.session.state (hreport.symm.trans hy)
  case bar => exact (statusBar_eq_ok hbar).trans (update_statusOf hformat)
  case title | source | lines => rfl
  case diagnostics => exact hds
  case current_mem => exact fun d hd => List.mem_of_getElem? hd
  case current_eq_none =>
    exact (PeekPanel.selects_update x.session.state.lines ds).current_eq_none

theorem statusBar_statusBar {bar bar' : StatusBar} {s : DocumentState}
    (h : statusBar bar s = .ok bar') : statusBar bar' s = .ok bar' := by
  obtain rfl := statusBar_eq_ok h
  have hupdate : (bar.update (statusOf s)).update (statusOf s) = bar.update (statusOf s) := by
    cases hs : formatOf s.format <;> simp [StatusBar.update, statusOf, hs]
  rw [statusBar] at h ⊢
  rw [hupdate]
  exact h

theorem setPanes_setPanes (h : x.setPanes = .ok y) : y.setPanes = .ok y := by
  have hsession := (setPanes_keeps h).1
  obtain ⟨ds, bar, hds, hbar, hy⟩ := setPanes_eq_ok h
  have hbar' : statusBar y.bar y.session.state = .ok bar := by
    rw [hsession, hy]
    exact statusBar_statusBar hbar
  rw [setPanes_of_ok (hsession ▸ hds) hbar', hsession, hy]
  cases hs : isUnlocated x.session.state <;> simp [showPreview, hs]

theorem setPanes_withBar (bar : StatusBar) (hformat : bar.format = x.bar.format) :
    setPanes { x with bar } = x.setPanes := by
  have hbar : statusBar bar x.session.state = statusBar x.bar x.session.state := by
    rw [statusBar, statusBar, StatusBar.update, hformat]
    rfl
  simp only [setPanes, hbar]
  cases hs : isUnlocated x.session.state <;> simp [showPreview, hs]

theorem isUpToDate_of_setPanes (h : x.setPanes = .ok y)
    (hformat : x.session.state.format = .null → x.bar.format = []) : y.IsUpToDate := by
  rw [IsUpToDate, (setPanes_keeps h).1]
  exact shows_of_setPanes h hformat

theorem IsUpToDate.withSession (h : x.IsUpToDate) {t : Session}
    (hstate : t.state = x.session.state)
    (hdirectory : t.world.directory = x.session.world.directory) :
    IsUpToDate { x with session := t } := by
  show Shows _ t.state t.world.directory
  rw [hstate, hdirectory]
  exact { h with }

theorem IsUpToDate.withPopup (h : x.IsUpToDate) (popup : Popup) :
    IsUpToDate { x with popup } :=
  { h with }

theorem IsUpToDate.withPeek (h : x.IsUpToDate) {peek : PeekPanel} (hpeek : x.peek.Turns peek) :
    IsUpToDate { x with peek } := by
  constructor
  case displays => exact h.displays
  case report => exact h.report
  case view => exact h.view
  case bar => exact h.bar
  case title => exact h.title
  case diagnostics => exact hpeek.diagnostics ▸ h.diagnostics
  case source => exact hpeek.diagnostics ▸ h.source
  case lines => exact hpeek.lines.trans h.lines
  case current_mem => exact fun d hd => List.mem_of_getElem? hd
  case current_eq_none => exact hpeek.selects.current_eq_none

end Screen

end JsonnetPreview
