import JsonnetPreview.Proofs.Config.Edits
import JsonnetPreview.Proofs.Json.Wrapped
import JsonnetPreview.Proofs.Tables

namespace JsonnetPreview.Config

open Json (read)

/-- A setting as it stands in an object that is read. -/
def Loadable [Stack] (e : Text × Json) : Prop :=
  ∃ (t : Text) (members : List (Text × Json)),
    t.IsScalar ∧ read t = .ok (.obj members) ∧ e ∈ members

structure OverDefaults (c : Config) : Prop where
  given : c.given = none
  settings : ∃ pairs, c.settings = defaults.settings.setAll pairs

variable {c c' : Config} {w w₁ w' : World} {pairs : List (Text × Json)}

theorem Loadable.readable [Stack] (hstack : 1 < Stack.reading) {e : Text × Json}
    (h : Loadable e) : Json.Style.Keeps ⟨true, true⟩ e.1 ∧ Json.Readable ⟨true, true⟩ room e.2 := by
  obtain ⟨t, members, ht, hread, he⟩ := h
  have hreadable := Json.readable_of_read (s := ⟨true, true⟩) (fun _ => ht) hread
  rw [← room_add_one hstack] at hreadable
  exact ⟨hreadable.members.keys e he, hreadable.members.values e he⟩

theorem loadFile_of_directory [Stack] (h : w.files.node? (place w) = some .directory) :
    ∃ w', loadFile w = .ok (defaults, w') := by
  rw [loadFile, h]
  exact ⟨_, rfl⟩

theorem eq_defaults_of_directory [Stack] (h : load w = .ok (c, w'))
    (hnode : w.files.node? (place w) = some .directory) : c = defaults := by
  rw [load_of_clear (clear_of_load h)] at h
  obtain ⟨w'', hload⟩ :=
    loadFile_of_directory (w := { w with files := w.files.makeDirectories (folder w) })
      ((node?_place_makeDirectories w).trans hnode)
  cases h.symm.trans hload
  rfl

namespace OverDefaults

theorem defaults_setAll (pairs : List (Text × Json)) :
    OverDefaults { settings := defaults.settings.setAll pairs } := ⟨rfl, pairs, rfl⟩

theorem of_ofContent [Stack] {content : Octets} (h : OfContent content c) : OverDefaults c := by
  cases h with
  | object ht h => exact defaults_setAll _
  | other | malformed => exact defaults_setAll []

theorem of_load [Stack] (h : load w = .ok (c, w')) : OverDefaults c := by
  by_cases hfile : w.files.node? (place w) = some .directory
  · rw [eq_defaults_of_directory h hfile]
    exact defaults_setAll []
  · rcases origin_of_load h hfile with ⟨-, rfl⟩ | ⟨content, -, hc⟩
    · exact defaults_setAll []
    · exact of_ofContent hc

end OverDefaults

theorem storable_of_loaded [Stack] (hstack : 1 < Stack.reading) (h : load w = .ok (c, w')) :
    Storable c := by
  by_cases hfile : w.files.node? (place w) = some .directory
  · exact eq_defaults_of_directory h hfile ▸ .defaults hstack
  · exact storable_of_load hstack h hfile

theorem distinct_of_load [Stack] (hstack : 1 < Stack.reading) (h : load w = .ok (c, w'))
    {name : Text} {members : Table Text Json} (hget : c.get name = .obj members) :
    members.Distinct := by
  have hlookup : c.settings.lookup name = some (.obj members) := by
    rw [get, get?, Table.get?] at hget
    cases hvalue : c.settings.lookup name with
    | none => simp [hvalue] at hget
    | some v => rw [hvalue] at hget; exact congrArg some hget
  obtain ⟨before, after, hsettings, -⟩ := List.lookup_eq_some_iff.1 hlookup
  have hmem : (name, .obj members) ∈ c.settings := by
    rw [hsettings]
    exact List.mem_append_right _ List.mem_cons_self
  exact ((storable_of_loaded hstack h).members.values _ hmem).distinct

section Saved

variable [Stack] (htext : Json.TextOf (Json.obj c.settings).prettyAscii (.obj c.settings))
  (hclear : w.files.Clear (folder w))
  (hfile : w.files.node? (place w) = some (.file (content c)))

include htext hclear hfile

end Saved

def deepest : Json := Json.wrap 987 (.arr [])

end JsonnetPreview.Config
