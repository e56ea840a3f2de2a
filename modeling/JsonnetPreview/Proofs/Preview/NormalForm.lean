import JsonnetPreview.Proofs.Json.RoundTrip
import JsonnetPreview.Proofs.Stream.Lines
import JsonnetPreview.Proofs.Stream.Parts

namespace JsonnetPreview

namespace Payload

variable {raw shown : Text} {v : Json}

theorem readRendered_of_read [Stack] (h : Json.read raw = .ok v) : readRendered raw = .ok v := by
  have hstream : ¬ Stream.separator.isPrefixOf raw := by
    intro hprefix
    obtain ⟨r, rfl⟩ := List.isPrefixOf_iff_prefix.1 hprefix
    have hreads : Json.Reads ([] ++ (Stream.separator ++ r)) v := Json.read_eq_ok_iff.1 h
    exact hreads.not_mark (.inl rfl) (.inl rfl)
  rw [readRendered, if_neg hstream, h]

theorem readRendered_pretty [Stack] (h : readRendered raw = .ok v) : readRendered v.pretty = .ok v :=
  readRendered_of_read (Json.read_write (Json.readable_of_read nofun h))

theorem reformat_congr [Stack] {raw' : Text} (h : readRendered raw = readRendered raw')
    (format : Text) :
    (rendered raw).reformat format = (rendered raw').reformat format := by
  simp only [reformat, h]

/-- The JSON that a payload is shown as is shown as that JSON again, and in any format as the
payload is. -/
theorem reformat_shown [Stack] (h : (rendered raw).reformat OutputFormat.json.name = .ok shown) :
    (rendered shown).reformat OutputFormat.json.name = .ok shown ∧
      ∀ format, (rendered shown).reformat format = (rendered raw).reformat format := by
  obtain ⟨v, hread, hwrite⟩ := reformat_eq_ok_iff.1 h
  obtain rfl : v.pretty = shown := (Json.write?_eq_ok_iff.1 hwrite).2
  have halike := reformat_congr ((readRendered_pretty hread).trans hread.symm)
  exact ⟨(halike _).trans h, halike⟩

def sampleStream : Text :=
  "---\n\x7b\"b\":1,\"a\":[],\"b\":\"\\u00e9\\u0001\"\x7d\n---\n-0\n"

def sampleShown : Text :=
  "[\n  \x7b\n    \"b\": \"é\\u0001\",\n    \"a\": []\n  \x7d,\n  0\n]"

theorem reformat_shown_sample :
    (rendered sampleStream).reformat OutputFormat.json.name = .ok sampleShown ∧
      (rendered sampleShown).reformat OutputFormat.yaml.name =
        (rendered sampleStream).reformat OutputFormat.yaml.name := by
  have hshown : (rendered sampleStream).reformat OutputFormat.json.name = .ok sampleShown := by
    decide +kernel
  exact ⟨hshown, (reformat_shown hshown).2 _⟩

end Payload
end JsonnetPreview
