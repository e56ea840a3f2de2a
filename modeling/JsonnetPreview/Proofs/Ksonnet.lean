import JsonnetPreview.Ksonnet
import JsonnetPreview.Proofs.World.RegularFile

namespace JsonnetPreview.Ksonnet

open JsonnetPreview.Path FileTree

variable {files : FileTree} {p c : Path}

/-- What the root of an app is seen by, in the directory that holds its components. -/
def appFileOf (components : Path) : Path := components.parent.join [appFile]

def decision (files : FileTree) (components : Path) : Except FileFault (Option Path) :=
  (files.isFile (appFileOf components)).map fun
    | true => some components.parent
    | false => none

/-- The way up from a directory, and what comes of it. The topmost directory is the one above
itself. -/
inductive Climbs (files : FileTree) : Path → Except FileFault (Option Path) → Prop
  | decided {p : Path} (hname : p.name = componentsName) : Climbs files p (decision files p)
  | top {p : Path} (hname : p.name ≠ componentsName) (htop : p.parent = p) :
      Climbs files p (.ok none)
  | up {p : Path} {result : Except FileFault (Option Path)} (hname : p.name ≠ componentsName)
      (htop : p.parent ≠ p) (hclimbs : Climbs files p.parent result) : Climbs files p result

theorem climbs_rootAbove (files : FileTree) (anchor : Anchor) (above : List Text) :
    Climbs files ⟨anchor, above.reverse⟩ (rootAbove files anchor above) := by
  induction above with
  | nil =>
      have hname : Path.name ⟨anchor, []⟩ ≠ componentsName := (by decide : [] ≠ componentsName)
      exact .top hname rfl
  | cons name above ih =>
      have hname : Path.name ⟨anchor, (name :: above).reverse⟩ = name := by simp [Path.name]
      have hparent : Path.parent ⟨anchor, (name :: above).reverse⟩ = ⟨anchor, above.reverse⟩ := by
        simp [Path.parent]
      rw [rootAbove]
      split
      next h =>
        have hdecided : Climbs files _ _ := .decided (hname.trans h)
        rwa [decision, appFileOf, hparent] at hdecided
      next h =>
        refine .up (fun hc => h (hname.symm.trans hc)) ?_ (by rwa [hparent])
        rw [hparent]
        simp

theorem Climbs.unique {r r' : Except FileFault (Option Path)} (h : Climbs files p r)
    (h' : Climbs files p r') : r = r' := by
  induction h with
  | decided hname =>
      cases h' with
      | decided => rfl
      | top hname' | up hname' => exact absurd hname hname'
  | top hname htop =>
      cases h' with
      | decided hname' => exact absurd hname' hname
      | top => rfl
      | up hname' htop' => exact absurd htop htop'
  | up hname htop hclimbs ih =>
      cases h' with
      | decided hname' => exact absurd hname' hname
      | top hname' htop' => exact absurd htop' htop
      | up hname' htop' hclimbs' => exact ih hclimbs'

/-- A directory on the way to a path. -/
def IsAbove (c p : Path) : Prop :=
  c.anchor = p.anchor ∧ ∃ rest, rest ≠ [] ∧ p.parts = c.parts ++ rest

/-- The deepest directory of components on the way to a path. -/
structure IsNearest (c p : Path) : Prop where
  isAbove : IsAbove c p
  name : c.name = componentsName
  deepest : ∀ c', IsAbove c' p → c'.name = componentsName → c'.parts.length ≤ c.parts.length

theorem name_concat (anchor : Anchor) (parts : List Text) (name : Text) :
    Path.name ⟨anchor, parts ++ [name]⟩ = name := by
  simp [Path.name]

theorem exists_parts_of_name (h : c.name = componentsName) :
    ∃ above, c.parts = above ++ [componentsName] := by
  rw [Path.name] at h
  cases hlast : c.parts.getLast? with
  | none =>
      rw [hlast] at h
      exact absurd h (by decide)
  | some name =>
      rw [hlast] at h
      obtain ⟨above, habove⟩ := List.getLast?_eq_some_iff.1 hlast
      exact ⟨above, by rw [habove, ← h]; rfl⟩

theorem mem_of_concat_eq {below rest : List Text} {name last : Text} (as : List Text)
    (hrest : rest ≠ []) (h : below ++ [last] = as ++ name :: rest) : name ∈ below := by
  obtain ⟨init, x, rfl⟩ := List.eq_nil_or_concat' rest |>.resolve_left hrest
  have hsplit : below ++ [last] = (as ++ name :: init) ++ [x] := by simpa using h
  rw [(List.append_inj' hsplit rfl).1]
  exact List.mem_append_right _ List.mem_cons_self

theorem isNearest_iff : IsNearest c p ↔ ∃ above below last,
    p.parts = above ++ componentsName :: (below ++ [last]) ∧ componentsName ∉ below ∧
      c = ⟨p.anchor, above ++ [componentsName]⟩ := by
  constructor
  · rintro ⟨⟨hanchor, rest, hrest, hparts⟩, hname, hdeepest⟩
    obtain ⟨above, habove⟩ := exists_parts_of_name hname
    obtain ⟨below, last, rfl⟩ := (List.eq_nil_or_concat' rest).resolve_left hrest
    refine ⟨above, below, last, by simp [hparts, habove], fun hmem => ?_, ?_⟩
    · obtain ⟨first, second, rfl⟩ := List.append_of_mem hmem
      have hdeeper := hdeepest ⟨p.anchor, (above ++ componentsName :: first) ++ [componentsName]⟩
        ⟨rfl, second ++ [last], by simp, by simp [hparts, habove]⟩ (name_concat _ _ _)
      simp [habove] at hdeeper
    · obtain ⟨anchor, parts⟩ := c
      cases hanchor
      cases habove
      rfl
  · rintro ⟨above, below, last, hparts, hmem, rfl⟩
    refine ⟨⟨rfl, below ++ [last], by simp, by simp [hparts]⟩, name_concat _ _ _, ?_⟩
    rintro c' ⟨-, rest, hrest, hparts'⟩ hname
    obtain ⟨above', habove'⟩ := exists_parts_of_name hname
    -- Both directories cut the path behind a directory of components, and there is none in `below`.
    have heq : (above ++ [componentsName]) ++ (below ++ [last]) =
        above' ++ componentsName :: rest := by
      simpa [hparts, habove'] using hparts'
    rcases List.append_eq_append_iff.1 heq with ⟨as, -, has⟩ | ⟨bs, hbs, hrest'⟩
    · exact absurd (mem_of_concat_eq as hrest has) hmem
    · cases bs with
      | nil => exact absurd (mem_of_concat_eq [] hrest hrest'.symm) hmem
      | cons b bs =>
          have hlength := congrArg List.length hbs
          simp only [List.length_append, List.length_cons, List.length_nil] at hlength
          simp only [habove', List.length_append, List.length_singleton]
          omega

theorem rootAbove_append {anchor : Anchor} {below : List Text} (h : componentsName ∉ below)
    (above : List Text) :
    rootAbove files anchor (below ++ above) = rootAbove files anchor above := by
  induction below with
  | nil => rfl
  | cons name below ih =>
      obtain ⟨hname, hbelow⟩ := not_or.1 (List.mem_cons.not.1 h)
      rw [List.cons_append, rootAbove, if_neg (Ne.symm hname), ih hbelow]

variable {directory : Path} {file : Text}

theorem findRoot_of_isNearest (h : IsNearest c (absolute directory (ofText file))) :
    findRoot files directory file = decision files c := by
  obtain ⟨above, below, last, hparts, hmem, rfl⟩ := isNearest_iff.1 h
  have hfolder : (folderOf directory file).parts = above ++ componentsName :: below := by
    rw [folderOf, Path.parent, hparts, ← List.cons_append, ← List.append_assoc,
      List.dropLast_concat]
  have hreverse : (folderOf directory file).parts.reverse =
      below.reverse ++ componentsName :: above.reverse := by simp [hfolder]
  rw [findRoot, hreverse, rootAbove_append (by simpa using hmem), rootAbove, if_pos rfl, decision,
    appFileOf, Path.parent, List.dropLast_concat, List.reverse_reverse]
  rfl

theorem findRoot_of_forall_not (h : ∀ c, ¬IsNearest c (absolute directory (ofText file))) :
    findRoot files directory file = .ok none := by
  have hmem : componentsName ∉ (folderOf directory file).parts.reverse := by
    intro hmem
    obtain ⟨below, above, hsplit, hbelow⟩ := List.eq_append_cons_of_mem hmem
    have hfolder : (folderOf directory file).parts =
        above.reverse ++ componentsName :: below.reverse := by
      rw [← List.reverse_inj, hsplit]
      simp
    obtain ⟨init, last, hparts⟩ := (List.eq_nil_or_concat'
      (absolute directory (ofText file)).parts).resolve_left fun hnil => by
        simp [folderOf, Path.parent, hnil] at hfolder
    rw [folderOf, Path.parent, hparts, List.dropLast_concat] at hfolder
    have hinit : init = above.reverse ++ componentsName :: below.reverse := hfolder
    have hbelow : componentsName ∉ below.reverse := by simpa using hbelow
    refine h _ (isNearest_iff.2 ⟨above.reverse, below.reverse, last, ?_, hbelow, rfl⟩)
    rw [hparts, hinit]
    simp
  rw [findRoot, ← List.append_nil (folderOf directory file).parts.reverse, rootAbove_append hmem]
  rfl

theorem isName_appFile : IsName appFile := ⟨by decide, by decide, by decide, by decide⟩

theorem isNormal_of_isAbove (hp : p.IsNormal) (h : IsAbove c p) : c.IsNormal := by
  obtain ⟨hanchor, rest, -, hparts⟩ := h
  refine ⟨?_, fun part hpart => hp.isName part ?_⟩
  · rw [isAbsolute, hanchor]
    exact hp.isAbsolute
  · rw [hparts]
    exact List.mem_append_left _ hpart

theorem isNormal_appFileOf (hp : p.IsNormal) (h : IsAbove c p) : (appFileOf c).IsNormal :=
  (isNormal_of_isAbove hp h).parent.join (List.forall_mem_singleton.2 isName_appFile)

theorem parts_appFileOf_ne_nil (c : Path) : (appFileOf c).parts ≠ [] := by
  simp [appFileOf, Path.join]

theorem decision_of_refuses (hp : p.IsNormal) (h : IsNearest c p) {e : FileError}
    (hrefuses : files.Refuses (appFileOf c) e) :
    decision files c = .error (.system e (appFileOf c).toText) := by
  rw [decision, isFile_of_refuses (isNormal_appFileOf hp h.isAbove) (parts_appFileOf_ne_nil c)
    hrefuses]
  rfl

theorem decision_of_not_refuses (hp : p.IsNormal) (h : IsNearest c p)
    (hrefuses : ¬∃ e, files.Refuses (appFileOf c) e) :
    (files.HasFile (appFileOf c) → decision files c = .ok (some c.parent)) ∧
      (¬files.HasFile (appFileOf c) → decision files c = .ok none) := by
  obtain ⟨b, hb, hfile⟩ := isFile_of_not_refuses (isNormal_appFileOf hp h.isAbove)
    (parts_appFileOf_ne_nil c) hrefuses
  rw [decision, hb, ← hfile]
  cases b <;> exact ⟨by simp [Except.map], by simp [Except.map]⟩

theorem decision_eq_some_iff (hp : p.IsNormal) (h : IsNearest c p) {root : Path} :
    decision files c = .ok (some root) ↔
      root = c.parent ∧ (¬∃ e, files.Refuses (appFileOf c) e) ∧
        files.HasFile (appFileOf c) := by
  by_cases hrefuses : ∃ e, files.Refuses (appFileOf c) e
  · obtain ⟨e, he⟩ := hrefuses
    rw [decision_of_refuses hp h he]
    exact iff_of_false nofun fun hroot => hroot.2.1 ⟨e, he⟩
  obtain ⟨hsome, hnone⟩ := decision_of_not_refuses hp h hrefuses
  by_cases hfile : files.HasFile (appFileOf c)
  · rw [hsome hfile]
    simp [hrefuses, hfile, eq_comm]
  · rw [hnone hfile]
    exact iff_of_false nofun fun hroot => hfile hroot.2.2

theorem decision_eq_error_iff (hp : p.IsNormal) (h : IsNearest c p) {fault : FileFault} :
    decision files c = .error fault ↔
      ∃ e, files.Refuses (appFileOf c) e ∧ fault = .system e (appFileOf c).toText := by
  constructor
  case mpr =>
    rintro ⟨e, he, rfl⟩
    exact decision_of_refuses hp h he
  intro herror
  by_cases hrefuses : ∃ e, files.Refuses (appFileOf c) e
  · obtain ⟨e, he⟩ := hrefuses
    rw [decision_of_refuses hp h he] at herror
    cases herror
    exact ⟨e, he, rfl⟩
  obtain ⟨hsome, hnone⟩ := decision_of_not_refuses hp h hrefuses
  by_cases hfile : files.HasFile (appFileOf c)
  · cases (hsome hfile).symm.trans herror
  · cases (hnone hfile).symm.trans herror

theorem findRoot_eq_some_iff (hp : (absolute directory (ofText file)).IsNormal) {root : Path} :
    findRoot files directory file = .ok (some root) ↔
      ∃ c, IsNearest c (absolute directory (ofText file)) ∧ root = c.parent ∧
        (¬∃ e, files.Refuses (appFileOf c) e) ∧ files.HasFile (appFileOf c) := by
  constructor
  · intro hroot
    by_cases hnearest : ∃ c, IsNearest c (absolute directory (ofText file))
    · obtain ⟨c, hc⟩ := hnearest
      rw [findRoot_of_isNearest hc] at hroot
      exact ⟨c, hc, (decision_eq_some_iff hp hc).1 hroot⟩
    · rw [findRoot_of_forall_not (not_exists.1 hnearest)] at hroot
      cases hroot
  · rintro ⟨c, hc, hdecision⟩
    rw [findRoot_of_isNearest hc]
    exact (decision_eq_some_iff hp hc).2 hdecision

theorem findRoot_eq_error_iff (hp : (absolute directory (ofText file)).IsNormal)
    {fault : FileFault} : findRoot files directory file = .error fault ↔
      ∃ c e, IsNearest c (absolute directory (ofText file)) ∧ files.Refuses (appFileOf c) e ∧
        fault = .system e (appFileOf c).toText := by
  constructor
  · intro herror
    by_cases hnearest : ∃ c, IsNearest c (absolute directory (ofText file))
    · obtain ⟨c, hc⟩ := hnearest
      rw [findRoot_of_isNearest hc] at herror
      obtain ⟨e, he⟩ := (decision_eq_error_iff hp hc).1 herror
      exact ⟨c, e, hc, he⟩
    · rw [findRoot_of_forall_not (not_exists.1 hnearest)] at herror
      cases herror
  · rintro ⟨c, e, hc, he⟩
    rw [findRoot_of_isNearest hc]
    exact (decision_eq_error_iff hp hc).2 ⟨e, he⟩

theorem findRoot_eq_none_iff (hp : (absolute directory (ofText file)).IsNormal) :
    findRoot files directory file = .ok none ↔
      ∀ c, IsNearest c (absolute directory (ofText file)) →
        (¬∃ e, files.Refuses (appFileOf c) e) ∧ ¬files.HasFile (appFileOf c) := by
  constructor
  · intro hnone c hc
    rw [findRoot_of_isNearest hc] at hnone
    have hrefuses : ¬∃ e, files.Refuses (appFileOf c) e := by
      rintro ⟨e, he⟩
      cases hnone.symm.trans (decision_of_refuses hp hc he)
    refine ⟨hrefuses, fun hfile => ?_⟩
    cases hnone.symm.trans ((decision_of_not_refuses hp hc hrefuses).1 hfile)
  · intro hall
    by_cases hnearest : ∃ c, IsNearest c (absolute directory (ofText file))
    · obtain ⟨c, hc⟩ := hnearest
      obtain ⟨hrefuses, hfile⟩ := hall c hc
      rw [findRoot_of_isNearest hc, (decision_of_not_refuses hp hc hrefuses).2 hfile]
    · exact findRoot_of_forall_not (not_exists.1 hnearest)

theorem exists_folder_of_isNearest (h : IsNearest c (absolute directory (ofText file))) :
    ∃ below, folderOf directory file = c.parent.join (componentsName :: below) := by
  obtain ⟨above, below, last, hparts, -, rfl⟩ := isNearest_iff.1 h
  refine ⟨below, ?_⟩
  rw [folderOf, Path.parent, Path.parent, Path.join, hparts, ← List.cons_append,
    ← List.append_assoc, List.dropLast_concat, List.dropLast_concat]

theorem asked_of_none (h : findRoot files directory file = .ok none) :
    isInApp files directory file = .ok false ∧ rootText files directory file = .ok [] ∧
      imports files directory file = .ok [] := by
  rw [isInApp, rootText, imports, h]
  exact ⟨rfl, rfl, rfl⟩

theorem asked_of_some {root : Path} (h : findRoot files directory file = .ok (some root)) :
    isInApp files directory file = .ok true ∧ rootText files directory file = .ok root.toText ∧
      imports files directory file = .ok (importsIn root directory file) := by
  rw [isInApp, rootText, imports, h]
  exact ⟨rfl, rfl, rfl⟩

theorem asked_of_error {fault : FileFault} (h : findRoot files directory file = .error fault) :
    isInApp files directory file = .error fault ∧ rootText files directory file = .error fault ∧
      imports files directory file = .error fault := by
  rw [isInApp, rootText, imports, h]
  exact ⟨rfl, rfl, rfl⟩

theorem toText_ne_nil_of_findRoot (hp : (absolute directory (ofText file)).IsNormal) {root : Path}
    (h : findRoot files directory file = .ok (some root)) : root.toText ≠ [] := by
  obtain ⟨c, hc, rfl, -⟩ := (findRoot_eq_some_iff hp).1 h
  exact (isNormal_of_isAbove hp hc.isAbove).parent.toText_ne_nil

theorem findRoot_eq_none_of_asked (hp : (absolute directory (ofText file)).IsNormal)
    (h : isInApp files directory file = .ok false ∨ rootText files directory file = .ok [] ∨
      imports files directory file = .ok []) : findRoot files directory file = .ok none := by
  cases hroot : findRoot files directory file with
  | error fault =>
      obtain ⟨hinApp, htext, himports⟩ := asked_of_error hroot
      rw [hinApp, htext, himports] at h
      simp at h
  | ok root =>
      cases root with
      | none => rfl
      | some root =>
          obtain ⟨hinApp, htext, himports⟩ := asked_of_some hroot
          rw [hinApp, htext, himports] at h
          simp [importsIn, toText_ne_nil_of_findRoot hp hroot] at h

theorem climbs_findRoot (files : FileTree) (directory : Path) (file : Text) :
    Climbs files (folderOf directory file) (findRoot files directory file) := by
  have hclimbs := climbs_rootAbove files (folderOf directory file).anchor
    (folderOf directory file).parts.reverse
  rwa [List.reverse_reverse] at hclimbs

/-- The way up from the directory of a file ends, and what comes of it is the root of the app: the
directory above the nearest directory of components, if the file of an app is there. Where the
system refuses to look for that file there is its error instead. All that is asked of an app
agrees. -/
theorem findRoot_decides (files : FileTree) {directory p : Path} {file : Text}
    (hfile : absolute directory (ofText file) = p) (hp : p.IsNormal) :
    (∀ result, Climbs files p.parent result ↔ findRoot files directory file = result) ∧
    (∀ root, findRoot files directory file = .ok (some root) ↔
      ∃ c, IsNearest c p ∧ root = c.parent ∧
        (¬∃ e, files.Refuses (root.join [appFile]) e) ∧ files.HasFile (root.join [appFile])) ∧
    (∀ fault, findRoot files directory file = .error fault ↔
      ∃ c e, IsNearest c p ∧ files.Refuses (c.parent.join [appFile]) e ∧
        fault = .system e (c.parent.join [appFile]).toText) ∧
    (findRoot files directory file = .ok none ↔ ∀ c, IsNearest c p →
      (¬∃ e, files.Refuses (c.parent.join [appFile]) e) ∧
        ¬files.HasFile (c.parent.join [appFile])) ∧
    (findRoot files directory file = .ok none ↔ isInApp files directory file = .ok false) ∧
    (findRoot files directory file = .ok none ↔ rootText files directory file = .ok []) ∧
    (findRoot files directory file = .ok none ↔ imports files directory file = .ok []) ∧
    (∀ root, findRoot files directory file = .ok (some root) →
      isInApp files directory file = .ok true ∧ rootText files directory file = .ok root.toText ∧
      imports files directory file =
        .ok [("__ksonnet/params", (p.parent.join [parametersFile]).toText),
          ("__ksonnet/environments",
            (root.join ["environments", "default", parametersFile]).toText)] ∧
      ∃ below, p.parent = root.join (componentsName :: below)) ∧
    ∀ fault, findRoot files directory file = .error fault →
      isInApp files directory file = .error fault ∧ rootText files directory file = .error fault ∧
        imports files directory file = .error fault := by
  subst hfile
  have hclimbs := climbs_findRoot files directory file
  refine ⟨fun result => ⟨hclimbs.unique, fun h => h ▸ hclimbs⟩, fun root => ?_,
    fun fault => findRoot_eq_error_iff hp, findRoot_eq_none_iff hp,
    ⟨fun h => (asked_of_none h).1, fun h => findRoot_eq_none_of_asked hp (.inl h)⟩,
    ⟨fun h => (asked_of_none h).2.1, fun h => findRoot_eq_none_of_asked hp (.inr (.inl h))⟩,
    ⟨fun h => (asked_of_none h).2.2, fun h => findRoot_eq_none_of_asked hp (.inr (.inr h))⟩,
    fun root hroot => ?_, fun fault => asked_of_error⟩
  · rw [findRoot_eq_some_iff hp]
    constructor <;> (rintro ⟨c, hc, rfl, hdecision⟩; exact ⟨c, hc, rfl, hdecision⟩)
  · obtain ⟨hinApp, htext, himports⟩ := asked_of_some hroot
    obtain ⟨c, hc, rfl, -⟩ := (findRoot_eq_some_iff hp).1 hroot
    exact ⟨hinApp, htext, himports, exists_folder_of_isNearest hc⟩

def longRoot : Path := ⟨.root, [List.replicate 256 (.char 'a')]⟩

theorem not_findRoot_none :
    findRoot { nodes := [] } ⟨.root, []⟩ (longRoot.join [componentsName, "main.jsonnet"]).toText =
      .error (.system .nameTooLong (longRoot.join [appFile]).toText) ∧
    ¬ ∀ (files : FileTree) (directory : Path) (file : Text),
      (absolute directory (ofText file)).IsNormal →
      (∀ c, IsNearest c (absolute directory (ofText file)) →
        ¬files.HasFile (c.parent.join [appFile])) →
      findRoot files directory file = .ok none := by
  have herror : findRoot { nodes := [] } ⟨.root, []⟩
      (longRoot.join [componentsName, "main.jsonnet"]).toText =
    .error (.system .nameTooLong (longRoot.join [appFile]).toText) := by decide +kernel
  have hnormal : (absolute ⟨.root, []⟩
      (ofText (longRoot.join [componentsName, "main.jsonnet"]).toText)).IsNormal := by
    decide +kernel
  refine ⟨herror, fun h => ?_⟩
  have hnone := h { nodes := [] } ⟨.root, []⟩ _ hnormal fun c _ ⟨_, _, content, hnode⟩ => by
    simp [FileTree.node?, Path.join, Table.get?] at hnode
  cases herror.symm.trans hnone

def bareApp : FileTree := FileTree.putFile { nodes := [] } ["app", "app.yaml"] []

def denied : FileError := .refused 13 "Permission denied"

def closedApp : FileTree := { bareApp with barred := [(["app"], denied)] }

theorem findRoot_decides_bareApp :
    (∃ c, IsNearest c ⟨.root, ["app", "components", "dev", "main.jsonnet"]⟩ ∧
      bareApp.HasFile (c.parent.join [appFile]) ∧ c.parent = ⟨.root, ["app"]⟩) ∧
    imports bareApp ⟨.root, ["app"]⟩ "components/dev/main.jsonnet" =
      .ok [("__ksonnet/params", "/app/components/dev/params.libsonnet"),
        ("__ksonnet/environments", "/app/environments/default/params.libsonnet")] ∧
    rootText bareApp ⟨.root, ["app"]⟩ "components/components/main.jsonnet" = .ok [] ∧
    (∃ c, IsNearest c ⟨.root, ["app", "components", "dev", "main.jsonnet"]⟩ ∧
      closedApp.Refuses (c.parent.join [appFile]) denied) ∧
    isInApp closedApp ⟨.root, ["app"]⟩ "components/dev/main.jsonnet" =
      .error (.system denied "/app/app.yaml") := by
  have hroot : findRoot bareApp ⟨.root, ["app"]⟩ "components/dev/main.jsonnet" =
    .ok (some ⟨.root, ["app"]⟩) := rfl
  have hnone : findRoot bareApp ⟨.root, ["app"]⟩ "components/components/main.jsonnet" =
    .ok none := rfl
  have hdenied : findRoot closedApp ⟨.root, ["app"]⟩ "components/dev/main.jsonnet" =
    .error (.system denied "/app/app.yaml") := rfl
  have hp : IsNormal ⟨.root, ["app", "components", "dev", "main.jsonnet"]⟩ := by decide
  have hp' : IsNormal ⟨.root, ["app", "components", "components", "main.jsonnet"]⟩ := by decide
  have hfile : absolute ⟨.root, ["app"]⟩ (ofText "components/dev/main.jsonnet") =
    ⟨.root, ["app", "components", "dev", "main.jsonnet"]⟩ := rfl
  have hfile' : absolute ⟨.root, ["app"]⟩ (ofText "components/components/main.jsonnet") =
    ⟨.root, ["app", "components", "components", "main.jsonnet"]⟩ := rfl
  obtain ⟨-, hsome, -, -, -, -, -, hasked, -⟩ := findRoot_decides bareApp hfile hp
  obtain ⟨-, -, -, -, -, htext, -⟩ := findRoot_decides bareApp hfile' hp'
  obtain ⟨-, -, hfault, -, -, -, -, -, hraised⟩ := findRoot_decides closedApp hfile hp
  obtain ⟨c, hc, hparent, -, happ⟩ := (hsome _).1 hroot
  obtain ⟨-, -, himports, -⟩ := hasked _ hroot
  obtain ⟨c', e, hc', hrefuses, he⟩ := (hfault _).1 hdenied
  rw [FileFault.system.injEq] at he
  obtain ⟨rfl, -⟩ := he
  exact ⟨⟨c, hc, hparent ▸ happ, hparent.symm⟩, himports, htext.1 hnone, ⟨c', hc', hrefuses⟩,
    (hraised _ hdenied).1⟩

end JsonnetPreview.Ksonnet
