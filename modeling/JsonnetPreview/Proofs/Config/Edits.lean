import JsonnetPreview.Proofs.Config.Load
import JsonnetPreview.Proofs.Json.Limits
import JsonnetPreview.Proofs.Json.RoundTrip
import JsonnetPreview.Proofs.Json.Scalar
import Mathlib.Data.List.DropRight

namespace JsonnetPreview

namespace Table

variable {κ α : Type _} [BEq κ] [LawfulBEq κ]

theorem get?_set (t : Table κ α) (k₁ : κ) (v : α) (k : κ) :
    (t.set k₁ v).get? k = (get? [(k₁, v)] k).or (t.get? k) := by
  by_cases hk : k = k₁
  · subst hk
    rw [get?_set_self]
    simp [get?]
  · have hne : (k == k₁) = false := by simpa using hk
    rw [get?_set_of_ne hk]
    simp [get?, List.lookup_cons, hne]

theorem get?_setAll (t : Table κ α) (u : List (κ × α)) (k : κ) :
    (t.setAll u).get? k = (get? u.reverse k).or (t.get? k) := by
  induction u generalizing t with
  | nil => rfl
  | cons e u ih =>
      calc (t.setAll (e :: u)).get? k = (get? u.reverse k).or ((t.set e.1 e.2).get? k) := ih _
        _ = ((get? u.reverse k).or (get? [e] k)).or (t.get? k) := by rw [get?_set, Option.or_assoc]
        _ = (get? (e :: u).reverse k).or (t.get? k) := by
          rw [List.reverse_cons]
          simp only [get?, List.lookup_append]

theorem get?_reverse {t : Table κ α} (h : t.Distinct) (k : κ) : get? t.reverse k = t.get? k := by
  have hall : (ofPairs t).get? k = (get? t.reverse k).or none := get?_setAll [] t k
  rw [ofPairs_of_distinct h, Option.or_none] at hall
  exact hall.symm

end Table

namespace Config

open Json (read)

/-- What may still be opened in a setting: all settings are an object. -/
def room [Stack] : Nat := Stack.reading - 1

inductive Edit where
  | override (values : List (Text × Json))
  | set (name : Text) (v : Json)

namespace Edit

def isSet : Edit → Bool
  | override _ => false
  | set _ _ => true

def given : Edit → List (Text × Json)
  | override values => values.filter fun
    | (_, .null) => false
    | _ => true
  | set name v => [(name, v)]

def apply (c : Config) : Edit → Config
  | override values => c.override values
  | set name v => c.set name v

/-- Make an edit; where a value is set, all settings are saved. -/
def perform [Stack] (c : Config) (w : World) : Edit → Except StoreFault (Config × World)
  | override values => .ok (c.override values, w)
  | set name v =>
    match c.assign name v w with
    | (c, .ok w) => .ok (c, w)
    | (_, .error fault) => .error fault

/-- Whatever an edit gives comes back from the file. -/
structure Storable [Stack] (e : Edit) : Prop where
  keys : ∀ g ∈ e.given, Json.Style.Keeps ⟨true, true⟩ g.1
  values : ∀ g ∈ e.given, Json.Readable ⟨true, true⟩ room g.2

end Edit

def after (c : Config) (es : List Edit) : Config := es.foldl Edit.apply c

def performAll [Stack] : List Edit → Config → World → Except StoreFault (Config × World)
  | [], c, w => .ok (c, w)
  | e :: es, c, w =>
    match e.perform c w with
    | .ok (c, w) => performAll es c w
    | .error fault => .error fault

/-- The edits up to the last one that saves. -/
def saved (es : List Edit) : List Edit := es.rdropWhile (!·.isSet)

/-- The value that a setting has after some edits. -/
def lastGiven (c : Config) (es : List Edit) (k : Text) : Option Json :=
  (Table.get? (es.flatMap Edit.given).reverse k).or (c.get? k)

/-- The value that a setting was last set to, if only setting counts. -/
def lastSet (c : Config) (es : List Edit) (k : Text) : Option Json :=
  lastGiven c (es.filter Edit.isSet) k

/-- Whether a setting is given a value for one run. -/
def Overridden (es : List Edit) (k : Text) : Prop :=
  ∃ e ∈ es, e.isSet = false ∧ ∃ v, (k, v) ∈ e.given

section After

theorem settings_override (c : Config) (values : List (Text × Json)) :
    (c.override values).settings = c.settings.setAll (Edit.override values).given := by
  induction values generalizing c with
  | nil => rfl
  | cons e values ih =>
      obtain ⟨name, v⟩ := e
      cases v with
      | null => exact ih c
      | bool | int | float | str | arr | obj => exact ih (c.set name _)

theorem settings_apply (c : Config) (e : Edit) :
    (e.apply c).settings = c.settings.setAll e.given := by
  cases e with
  | override values => exact settings_override c values
  | set name v => rfl

theorem settings_after (c : Config) (es : List Edit) :
    (c.after es).settings = c.settings.setAll (es.flatMap Edit.given) := by
  induction es generalizing c with
  | nil => rfl
  | cons e es ih =>
      have hafter : (c.after (e :: es)).settings = ((e.apply c).after es).settings := rfl
      rw [hafter, ih, settings_apply, List.flatMap_cons]
      exact (List.foldl_append ..).symm

theorem get?_after (c : Config) (es : List Edit) (k : Text) :
    (c.after es).get? k = lastGiven c es k := by
  rw [get?, settings_after, Table.get?_setAll]
  rfl

theorem after_append_singleton (c : Config) (es : List Edit) (e : Edit) :
    c.after (es ++ [e]) = e.apply (c.after es) := by
  rw [after, List.foldl_append]
  rfl

theorem saved_override (es : List Edit) (values : List (Text × Json)) :
    saved (es ++ [.override values]) = saved es := List.rdropWhile_concat_pos _ _ _ rfl

theorem saved_set (es : List Edit) (name : Text) (v : Json) :
    saved (es ++ [.set name v]) = es ++ [.set name v] := List.rdropWhile_concat_neg _ _ _ nofun

end After

variable {c c' : Config} {w w₁ w' : World} {es done : List Edit} {name : Text} {v : Json}

section Saved

theorem saved_eq_nil_iff : saved es = [] ↔ ∀ e ∈ es, e.isSet = false := by
  rw [saved, List.rdropWhile_eq_nil_iff]
  simp

theorem mem_saved_of_set {before after : List Edit} {e : Edit} (h : e.isSet) :
    ∀ f ∈ before ++ [e], f ∈ saved (before ++ e :: after) := by
  induction after using List.reverseRecOn with
  | nil =>
      cases e with
      | override values => cases h
      | set name v =>
          rw [saved_set]
          exact fun f hf => hf
  | append_singleton after g ih =>
      rw [← List.cons_append, ← List.append_assoc]
      cases g with
      | override values => rwa [saved_override]
      | set name v =>
          rw [saved_set]
          intro f hf
          simp only [List.mem_append, List.mem_cons, List.not_mem_nil, or_false] at hf ⊢
          tauto

theorem filter_isSet_saved (es : List Edit) :
    (saved es).filter Edit.isSet = es.filter Edit.isSet := by
  induction es using List.reverseRecOn with
  | nil => rfl
  | append_singleton es e ih =>
      cases e with
      | override values =>
          rw [saved_override, ih, List.filter_append]
          exact (List.append_nil _).symm
      | set name v => rw [saved_set]

theorem lastGiven_cons (c : Config) (e : Edit) (es : List Edit) (k : Text) :
    lastGiven c (e :: es) k = lastGiven (e.apply c) es k := by
  rw [← get?_after, ← get?_after]
  rfl

theorem lastGiven_congr {k : Text} (h : c.get? k = c'.get? k) (es : List Edit) :
    lastGiven c es k = lastGiven c' es k := by
  rw [lastGiven, lastGiven, h]

theorem get?_apply_of_not_given {e : Edit} {k : Text} (h : ∀ v, (k, v) ∉ e.given) (c : Config) :
    (e.apply c).get? k = c.get? k := by
  have hnone : Table.get? e.given.reverse k = none := by
    refine List.lookup_eq_none_iff.2 fun g hg => ?_
    have hne : k ≠ g.1 := fun hk => h g.2 (hk ▸ List.mem_reverse.1 hg)
    simpa using hne
  rw [get?, settings_apply, Table.get?_setAll, hnone]
  rfl

theorem lastGiven_filter_isSet {k : Text} (h : ¬ Overridden es k) (c : Config) :
    lastGiven c (es.filter Edit.isSet) k = lastGiven c es k := by
  induction es generalizing c with
  | nil => rfl
  | cons e es ih =>
      have hes : ¬ Overridden es k := fun ⟨f, hf, hoverride⟩ =>
        h ⟨f, List.mem_cons_of_mem e hf, hoverride⟩
      cases hset : e.isSet with
      | true => rw [List.filter_cons_of_pos hset, lastGiven_cons, lastGiven_cons, ih hes]
      | false =>
          have hgiven : ∀ v, (k, v) ∉ e.given := fun v hv => h ⟨e, List.mem_cons_self, hset, v, hv⟩
          rw [List.filter_cons_of_neg (by simp [hset]), ih hes, lastGiven_cons]
          exact lastGiven_congr (get?_apply_of_not_given hgiven c).symm es

theorem lastGiven_saved {k : Text} (h : ¬ Overridden (saved es) k) (c : Config) :
    lastGiven c (saved es) k = lastSet c es k := by
  rw [lastSet, ← filter_isSet_saved, lastGiven_filter_isSet h]

end Saved

section Run

theorem place_congr (h : w'.home = w.home) : place w' = place w := by
  rw [place, place, folder, folder, h]

theorem place_ne_nil (w : World) : place w ≠ [] := List.append_ne_nil_of_right_ne_nil _ nofun

theorem save_of_hasWay [Stack] (hway : w.files.HasWay (folder w))
    (hfile : w.files.node? (place w) ≠ some .directory) {c : Config}
    (hroom : Stack.writesJson (.obj c.settings)) :
    c.save w = .ok { w with files := w.files.setNode (place w) (.file (content c)) } := by
  rw [save, FileTree.ensureDirectory_eq_ok_iff.2
    ⟨hway.clear, FileTree.makeDirectories_of_hasWay hway⟩]
  simp only [FileTree.write_of_ne_directory hfile, if_pos hroom]

/-- The stack has room for what every save of some edits writes. -/
def RoomFor [Stack] (c : Config) (es : List Edit) : Prop :=
  ∀ before e after, es = before ++ e :: after → e.isSet →
    Stack.writesJson (.obj (c.after (before ++ [e])).settings)

def stored (c : Config) (w : World) (done : List Edit) : Option Node :=
  if (saved done).isEmpty then w.files.node? (place w)
  else some (.file (content (c.after (saved done))))

theorem stored_of_nil (h : saved done = []) (c : Config) (w : World) :
    stored c w done = w.files.node? (place w) := by
  rw [stored, h]
  rfl

theorem stored_of_ne_nil (h : saved done ≠ []) (c : Config) (w : World) :
    stored c w done = some (.file (content (c.after (saved done)))) := if_neg (by simpa using h)

theorem stored_override (c : Config) (w : World) (done : List Edit) (values : List (Text × Json)) :
    stored c w (done ++ [.override values]) = stored c w done := by
  rw [stored, stored, saved_override]

theorem stored_set (c : Config) (w : World) (done : List Edit) (name : Text) (v : Json) :
    stored c w (done ++ [.set name v]) =
      some (.file (content (c.after (done ++ [.set name v])))) := by
  have hne : saved (done ++ [.set name v]) ≠ [] := by simp [saved_set]
  rw [stored_of_ne_nil hne, saved_set]

theorem perform_set [Stack] (h : (c.set name v).save w = .ok w') :
    (Edit.set name v).perform c w = .ok (c.set name v, w') := by
  rw [Edit.perform, assign, h]

/-- Some edits are made, from settings `c` in a world `w`. -/
structure Made (c : Config) (w : World) (done : List Edit) (c' : Config) (w' : World) : Prop where
  config : c' = c.after done
  home : w'.home = w.home
  file : w'.files.node? (place w) = stored c w done
  others : ∀ p, p ≠ place w → w'.files.node? p = w.files.node? p
  barred : ∀ p, w'.files.barred? p = w.files.barred? p

namespace Made

theorem refl (c : Config) (w : World) : Made c w [] c w :=
  ⟨rfl, rfl, rfl, fun _ _ => rfl, fun _ => rfl⟩

theorem hasWay (h : Made c w done c' w') (hway : w.files.HasWay (folder w)) :
    w'.files.HasWay (folder w') := by
  have hfolder : folder w' = folder w := by rw [folder, folder, h.home]
  intro p hp
  rw [hfolder] at hp
  rw [h.others p fun he => place_not_mem_wayTo w (he ▸ hp), h.barred]
  exact hway p hp

theorem node?_ne_directory (h : Made c w done c' w')
    (hfile : w.files.node? (place w) ≠ some .directory) :
    w'.files.node? (place w') ≠ some .directory := by
  rw [place_congr h.home, h.file, stored]
  split
  next => exact hfile
  next => nofun

theorem perform [Stack] (h : Made c w done c' w') (hway : w.files.HasWay (folder w))
    (hfile : w.files.node? (place w) ≠ some .directory) {e : Edit}
    (hroom : e.isSet → Stack.writesJson (.obj (c.after (done ++ [e])).settings)) :
    ∃ c'' w'', e.perform c' w' = .ok (c'', w'') ∧ Made c w (done ++ [e]) c'' w'' := by
  cases e with
  | override values =>
      refine ⟨_, _, rfl, ?_, h.home, ?_, h.others, h.barred⟩
      · rw [after_append_singleton, ← h.config]
        rfl
      · rw [h.file, stored_override]
  | set name v =>
      have hconfig : c'.set name v = c.after (done ++ [.set name v]) := by
        rw [after_append_singleton, ← h.config]
        rfl
      have hsave := save_of_hasWay (h.hasWay hway) (h.node?_ne_directory hfile)
        (hconfig ▸ hroom rfl)
      have hplace := place_congr h.home
      rw [hplace] at hsave
      refine ⟨_, _, perform_set hsave, hconfig, h.home, ?_, fun p hp => ?_, fun p => ?_⟩
      · rw [stored_set, ← hconfig]
        exact FileTree.node?_setNode_self (place_ne_nil w) ..
      · exact (FileTree.node?_setNode_of_ne hp ..).trans (h.others p hp)
      · exact (FileTree.barred?_setNode ..).trans (h.barred p)

theorem performAll [Stack] (h : Made c w done c' w') (hway : w.files.HasWay (folder w))
    (hfile : w.files.node? (place w) ≠ some .directory) {es : List Edit}
    (hroom : RoomFor c (done ++ es)) :
    ∃ c'' w'', performAll es c' w' = .ok (c'', w'') ∧ Made c w (done ++ es) c'' w'' := by
  induction es generalizing done c' w' with
  | nil => exact ⟨c', w', rfl, (List.append_nil done).symm ▸ h⟩
  | cons e es ih =>
      obtain ⟨c₁, w₁, hperform, h₁⟩ := h.perform hway hfile (hroom done e es rfl)
      obtain ⟨c₂, w₂, hperformAll, h₂⟩ := ih h₁ (List.append_cons done e es ▸ hroom)
      refine ⟨c₂, w₂, ?_, List.append_cons done e es ▸ h₂⟩
      rw [Config.performAll, hperform]
      exact hperformAll

theorem file_of_saved (h : Made c w es c' w') (hsaved : saved es ≠ []) :
    w'.files.node? (place w') = some (.file (content (c.after (saved es)))) := by
  rw [place_congr h.home, h.file, stored_of_ne_nil hsaved]

theorem file_of_unsaved (h : Made c w es c' w') (hsaved : saved es = []) :
    w'.files.node? (place w') = w.files.node? (place w) := by
  rw [place_congr h.home, h.file, stored_of_nil hsaved]

end Made

end Run

section Reload

variable [Stack]

/-- Settings that come back from the file when they are saved. A default that was not there would
come back as well. -/
structure Storable (c : Config) : Prop where
  members : Json.Members ⟨true, true⟩ room c.settings
  complete : ∀ k, c.get? k = none → defaults.get? k = none

theorem room_add_one (hstack : 1 < Stack.reading) : room + 1 = Stack.reading :=
  Nat.sub_add_cancel (Nat.le_of_lt hstack)

theorem members_defaults (hstack : 1 < Stack.reading) :
    Json.Members ⟨true, true⟩ room defaults.settings where
  distinct := by decide
  keys e he _ := by
    refine Json.unpaired_of_isScalar ?_
    simp only [defaults, List.mem_cons, List.not_mem_nil, or_false] at he
    rcases he with rfl | rfl | rfl | rfl | rfl | rfl | rfl | rfl | rfl <;>
      exact Text.isScalar_map _
  values e he := by
    simp only [defaults, List.mem_cons, List.not_mem_nil, or_false] at he
    obtain ⟨n, hn⟩ : ∃ n, room = n + 1 := ⟨room - 1, by have := room_add_one hstack; omega⟩
    have hstr (cs : List Char) : Json.Readable ⟨true, true⟩ room (.str (cs.map .char)) :=
      .str fun _ => Json.unpaired_of_isScalar (Text.isScalar_map cs)
    rcases he with rfl | rfl | rfl | rfl | rfl | rfl | rfl | rfl | rfl
    exacts [hstr _, .null, hn ▸ .arr nofun, hn ▸ Json.Members.nil.obj, hstr _, .bool _, .null, .null,
      hstr _]

namespace Storable

theorem defaults_setAll (hstack : 1 < Stack.reading) (members : List (Text × Json))
    (hkeys : ∀ e ∈ members, Json.Style.Keeps ⟨true, true⟩ e.1)
    (hvalues : ∀ e ∈ members, Json.Readable ⟨true, true⟩ room e.2) :
    Storable { settings := defaults.settings.setAll members } where
  members := (members_defaults hstack).setAll hkeys hvalues
  complete k hk := by
    rw [get?, Table.get?_setAll, Option.or_eq_none_iff] at hk
    exact hk.2

theorem defaults (hstack : 1 < Stack.reading) : Storable defaults :=
  defaults_setAll hstack [] nofun nofun

theorem of_ofContent (hstack : 1 < Stack.reading) {content : Octets} (h : OfContent content c) :
    Storable c := by
  cases h with
  | object ht h =>
      have hreadable := Json.readable_of_read (s := ⟨true, true⟩) (fun _ => ht) h
      rw [← room_add_one hstack] at hreadable
      exact defaults_setAll hstack _ hreadable.members.keys hreadable.members.values
  | other | malformed => exact defaults hstack

theorem after (h : Storable c) (hes : ∀ e ∈ es, e.Storable) : Storable (c.after es) where
  members := by
    rw [settings_after]
    refine h.members.setAll (fun g hg => ?_) fun g hg => ?_
    all_goals obtain ⟨e, he, hg⟩ := List.mem_flatMap.1 hg
    · exact (hes e he).keys g hg
    · exact (hes e he).values g hg
  complete k hk := by
    rw [get?_after, lastGiven, Option.or_eq_none_iff] at hk
    exact h.complete k hk.2

end Storable

theorem clear_of_load (h : load w = .ok (c, w')) : w.files.Clear (folder w) := by
  rw [load] at h
  split at h
  next => cases h
  next files hfiles => exact (FileTree.ensureDirectory_eq_ok_iff.1 hfiles).1

theorem loadFile_frame (h : loadFile w = .ok (c, w')) : w'.files = w.files ∧ w'.home = w.home := by
  simp only [loadFile] at h
  repeat' split at h
  all_goals cases h
  all_goals exact ⟨rfl, rfl⟩

theorem load_frame (h : load w = .ok (c, w')) : w'.home = w.home ∧
    w'.files.HasWay (folder w') ∧ w'.files.node? (place w') = w.files.node? (place w) := by
  have hclear := clear_of_load h
  rw [load_of_clear hclear] at h
  obtain ⟨hfiles, hhome⟩ := loadFile_frame h
  have hfolder : folder w' = folder w := by rw [folder, folder, hhome]
  rw [place_congr hhome, hfolder, hfiles]
  exact ⟨hhome, FileTree.hasWay_makeDirectories hclear, node?_place_makeDirectories w⟩

theorem origin_of_load (h : load w = .ok (c, w'))
    (hfile : w.files.node? (place w) ≠ some .directory) :
    (w.files.node? (place w) = none ∧ c = defaults) ∨
      ∃ content, w.files.node? (place w) = some (.file content) ∧ OfContent content c := by
  have hclear := clear_of_load h
  cases hnode : w.files.node? (place w) with
  | none =>
      obtain ⟨w'', hload⟩ := load_of_absent hclear hnode
      cases h.symm.trans hload
      exact .inl ⟨rfl, rfl⟩
  | some node =>
      cases node with
      | directory => exact absurd hnode hfile
      | file content =>
          rcases load_cases hclear hnode with ⟨c', w'', hload, hc⟩ | ⟨fault, hload, -⟩
          · cases h.symm.trans hload
            exact .inr ⟨content, rfl, hc⟩
          · cases h.symm.trans hload

theorem storable_of_load (hstack : 1 < Stack.reading) (h : load w = .ok (c, w'))
    (hfile : w.files.node? (place w) ≠ some .directory) : Storable c := by
  rcases origin_of_load h hfile with ⟨-, rfl⟩ | ⟨content, -, hc⟩
  · exact .defaults hstack
  · exact .of_ofContent hstack hc

def Stands (w : World) (members : Table Text Json) : Prop :=
  ∃ t : Text, w.files.node? (place w) = some (.file (Utf8.encode t)) ∧ t.IsScalar ∧
    read t = .ok (.obj members)

theorem Storable.stands (hstack : 1 < Stack.reading) (h : Storable c)
    (hfile : w.files.node? (place w) = some (.file (content c))) : Stands w c.settings :=
  ⟨_, hfile, Json.isScalar_write _, Json.read_write (room_add_one hstack ▸ h.members.obj)⟩

theorem Storable.load (hstack : 1 < Stack.reading) (h : Storable c) (hclear : w.files.Clear (folder w))
    (hfile : w.files.node? (place w) = some (.file (content c))) :
    ∃ c' w', load w = .ok (c', w') ∧ ∀ k, c'.get? k = c.get? k := by
  obtain ⟨t, hcontent, ht, hread⟩ := h.stands hstack hfile
  obtain ⟨w', hload⟩ := load_of_ofContent hclear hcontent (.object ht hread)
  refine ⟨_, w', hload, fun k => ?_⟩
  rw [get?, Table.get?_setAll, Table.get?_reverse h.members.distinct]
  cases hk : c.settings.get? k with
  | none => exact (h.complete k hk).trans hk.symm
  | some v => exact hk.symm

theorem load_of_unchanged (h : load w = .ok (c, w₁))
    (hfile : w.files.node? (place w) ≠ some .directory) (hclear : w'.files.Clear (folder w'))
    (hnode : w'.files.node? (place w') = w.files.node? (place w)) :
    ∃ w'', load w' = .ok (c, w'') := by
  rcases origin_of_load h hfile with ⟨hnone, rfl⟩ | ⟨content, hcontent, hc⟩
  · exact load_of_absent hclear (hnode.trans hnone)
  · exact load_of_ofContent hclear (hnode.trans hcontent) hc

end Reload

theorem roomFor_of_storable [Stack] (hstack : 1 < Stack.reading)
    (hwrites : ∀ v : Json, v.height ≤ Stack.reading → Stack.writesJson v) (hc : Storable c)
    (hes : ∀ e ∈ saved es, e.Storable) : RoomFor c es := by
  rintro before e after rfl hset
  have hsaved : Storable (c.after (before ++ [e])) :=
    hc.after fun f hf => hes f (mem_saved_of_set hset f hf)
  have hheight := hsaved.members.obj.height_le
  rw [room_add_one hstack] at hheight
  exact hwrites _ hheight

/-- Without a save, the file stays as it is. Else it holds what the settings were last given up to
the last save, even if that was for one run only, and this is loaded again. -/
theorem load_performAll (hload : load w = .ok (c, w₁))
    (hfile : w.files.node? (place w) ≠ some .directory) (hes : ∀ e ∈ saved es, e.Storable) :
    ∃ c' w', performAll es c w₁ = .ok (c', w') ∧
      ((∀ e ∈ es, e.isSet = false) → w'.files.node? (place w') = w.files.node? (place w)) ∧
      ((∃ e ∈ es, e.isSet) → ∃ members, Stands w' members ∧
        ∀ k, members.get? k = lastGiven c (saved es) k) ∧
      ∃ c'' w'', load w' = .ok (c'', w'') ∧ ∀ k, c''.get? k = lastGiven c (saved es) k ∧
        (¬ Overridden (saved es) k → c''.get? k = lastSet c es k) := by
  obtain ⟨-, hway, hnode⟩ := load_frame hload
  have hstack : 1 < Json.depthLimit := by decide
  have hc := storable_of_load hstack hload hfile
  have hroom : RoomFor c ([] ++ es) := roomFor_of_storable hstack
    (fun _ hv => Json.writesJson_of_height_le (Nat.le_succ_of_le hv)) hc hes
  obtain ⟨c', w', hperform, hmade⟩ :=
    (Made.refl c w₁).performAll hway (hnode ▸ hfile) hroom
  rw [List.nil_append] at hmade
  have hclear := (hmade.hasWay hway).clear
  have hloaded {c'' : Config} (h : ∀ k, c''.get? k = (c.after (saved es)).get? k) (k : Text) :
      c''.get? k = lastGiven c (saved es) k ∧
        (¬ Overridden (saved es) k → c''.get? k = lastSet c es k) := by
    have hk := (h k).trans (get?_after c (saved es) k)
    exact ⟨hk, fun hnot => hk.trans (lastGiven_saved hnot c)⟩
  refine ⟨c', w', hperform, fun h => ?_, fun hset => ?_, ?_⟩
  · exact (hmade.file_of_unsaved (saved_eq_nil_iff.2 h)).trans hnode
  · have hsaved : saved es ≠ [] := by
      obtain ⟨e, he, hset⟩ := hset
      exact fun hnil => Bool.false_ne_true ((saved_eq_nil_iff.1 hnil e he).symm.trans hset)
    exact ⟨_, (hc.after hes).stands hstack (hmade.file_of_saved hsaved), get?_after c (saved es)⟩
  -- Without a save the file is as before, after one it holds the settings of the last save.
  · by_cases hsaved : saved es = []
    · have hunchanged := (hmade.file_of_unsaved hsaved).trans hnode
      obtain ⟨w'', hload'⟩ := load_of_unchanged hload hfile hclear hunchanged
      exact ⟨c, w'', hload', hloaded fun k => by rw [hsaved]; rfl⟩
    · obtain ⟨c'', w'', hload', hget⟩ :=
        (hc.after hes).load hstack hclear (hmade.file_of_saved hsaved)
      exact ⟨c'', w'', hload', hloaded hget⟩

def bareWorld : World := { storedWorld [] with files := { nodes := [] } }

def bareLoaded : World :=
  { bareWorld with files := bareWorld.files.makeDirectories (folder bareWorld) }

def formatThenTimeout : List Edit :=
  [.override [(outputFormat, .str "yaml")], .set timeout (.int 5)]

theorem storable_formatThenTimeout : ∀ e ∈ formatThenTimeout, e.Storable := by
  have hkeeps (cs : List Char) : Json.Style.Keeps ⟨true, true⟩ (cs.map .char) := fun _ =>
    Json.unpaired_of_isScalar (Text.isScalar_map cs)
  have hfive : (5 : Int).natAbs < 10 ^ Numeral.digitLimit :=
    Nat.lt_of_lt_of_le (by decide : 5 < 10 ^ 1) (Nat.pow_le_pow_right (by decide) (by decide))
  intro e he
  simp only [formatThenTimeout, List.mem_cons, List.not_mem_nil, or_false] at he
  rcases he with rfl | rfl
  · exact ⟨List.forall_mem_singleton.2 (hkeeps _), List.forall_mem_singleton.2 (.str (hkeeps _))⟩
  · exact ⟨List.forall_mem_singleton.2 (hkeeps _), List.forall_mem_singleton.2 (.int hfive)⟩

theorem load_performAll_formatThenTimeout :
    ∃ c' w', performAll formatThenTimeout defaults bareLoaded = .ok (c', w') ∧
      ∃ c'' w'', load w' = .ok (c'', w'') ∧ c''.get? outputFormat = some (.str "yaml") ∧
        c''.get? timeout = some (.int 5) ∧ c''.get? executable = some (.str "jsonnet") := by
  have hload : load bareWorld = .ok (defaults, bareLoaded) := rfl
  have hes : ∀ e ∈ saved formatThenTimeout, e.Storable := storable_formatThenTimeout
  obtain ⟨c', w', hperform, -, -, c'', w'', hload', hget⟩ :=
    load_performAll hload nofun hes
  exact ⟨c', w', hperform, c'', w'', hload', (hget _).1, (hget _).1, (hget _).1⟩

theorem not_stands_lastSet : ¬ ∀ (w w₁ w' : World) (c c' : Config) (es : List Edit),
    load w = .ok (c, w₁) → performAll es c w₁ = .ok (c', w') →
      ∀ members, Stands w' members → ∀ k, members.get? k = lastSet c es k := by
  intro h
  have hload : load bareWorld = .ok (defaults, bareLoaded) := rfl
  have hstack : 1 < Json.depthLimit := by decide
  have hes : ∀ e ∈ saved formatThenTimeout, e.Storable := storable_formatThenTimeout
  obtain ⟨-, hway, hnode⟩ := load_frame hload
  have hroom : RoomFor defaults ([] ++ formatThenTimeout) :=
    roomFor_of_storable hstack (fun _ hv => Json.writesJson_of_height_le (Nat.le_succ_of_le hv))
      (.defaults hstack) hes
  obtain ⟨c', w', hperform, hmade⟩ :=
    (Made.refl defaults bareLoaded).performAll hway nofun hroom
  have hstands :=
    ((Storable.defaults hstack).after hes).stands hstack (hmade.file_of_saved (List.cons_ne_nil _ _))
  have hyaml : some (Json.str "yaml") = some (.str "json") :=
    h _ _ _ _ _ _ hload hperform _ hstands outputFormat
  exact absurd (Json.str.inj (Option.some.inj hyaml)) (by decide)

end Config
end JsonnetPreview
