import JsonnetPreview.Proofs.Json.Limits
import JsonnetPreview.Proofs.Preview.NormalForm
import JsonnetPreview.Proofs.Yaml.Block

namespace JsonnetPreview

namespace Payload

open Yaml (Fold IsLeaf writeDocument writeLeaf writeString)

/-- Values that were read from rendered texts are told apart by their JSON. -/
theorem pretty_injective [Stack] {t u : Text} {v w : Json} (hv : readRendered t = .ok v)
    (hw : readRendered u = .ok w) (h : v.pretty = w.pretty) : v = w := by
  have hread := readRendered_pretty hv
  rw [h, readRendered_pretty hw] at hread
  exact (Except.ok.inj hread).symm

theorem write_json_of_read {t : Text} {v : Json} (h : readRendered t = .ok v) :
    OutputFormat.json.write v = .ok v.pretty :=
  Json.write?_eq_ok_iff.2 ⟨Json.writesJson_of_read h, rfl⟩

/-- What is shown as YAML can be shown as JSON, and the two formats tell the same payloads apart.
No two values at all are written as one document, and wherever a string stands and however its lines
are folded, it is not written as another value without items, or as another string, would be. -/
theorem yaml_eq_iff_json_eq {t u y y' : Text}
    (ht : (rendered t).reformat OutputFormat.yaml.name = .ok y)
    (hu : (rendered u).reformat OutputFormat.yaml.name = .ok y') :
    (∃ j j', (rendered t).reformat OutputFormat.json.name = .ok j ∧
        (rendered u).reformat OutputFormat.json.name = .ok j' ∧ (y = y' ↔ j = j')) ∧
      (∀ v w, writeDocument v = writeDocument w → v = w) ∧
      ∀ (f : Fold) (column column' : Nat) (s : Text) (v : Json), IsLeaf v →
        writeString f column s = writeLeaf f column' v → v = .str s := by
  refine ⟨?_, fun v w => Yaml.writeDocument_injective, fun f column column' s v hv h =>
    (Yaml.writeLeaf_injective (.str s) hv h).symm⟩
  obtain ⟨v, hv, hyaml⟩ := reformat_eq_ok_iff.1 ht
  obtain ⟨w, hw, hyaml'⟩ := reformat_eq_ok_iff.1 hu
  refine ⟨v.pretty, w.pretty, reformat_eq_ok_iff.2 ⟨v, hv, write_json_of_read hv⟩,
    reformat_eq_ok_iff.2 ⟨w, hw, write_json_of_read hw⟩, ?_, fun h => ?_⟩
  · rintro rfl
    have hdocument :=
      (Yaml.write?_eq_ok_iff.1 hyaml).2.trans (Yaml.write?_eq_ok_iff.1 hyaml').2.symm
    exact congrArg Json.pretty (Yaml.writeDocument_injective hdocument)
  · obtain rfl := pretty_injective hv hw h
    exact Except.ok.inj (hyaml.symm.trans hyaml')

def quotedNumber : Text := "\x7b\"a\\nb\":[\"1\",null]\x7d"

def quotedNull : Text := "\x7b\"a\\nb\":[1,\"null\"]\x7d"

theorem yaml_eq_iff_json_eq_quoted :
    (rendered quotedNumber).reformat OutputFormat.yaml.name =
        .ok "? 'a\n\n  b'\n: - '1'\n  - null\n" ∧
      (rendered quotedNull).reformat OutputFormat.yaml.name =
        .ok "? 'a\n\n  b'\n: - 1\n  - 'null'\n" ∧
      ∃ j j', (rendered quotedNumber).reformat OutputFormat.json.name = .ok j ∧
        (rendered quotedNull).reformat OutputFormat.json.name = .ok j' ∧ j ≠ j' := by
  have hnumber : (rendered quotedNumber).reformat OutputFormat.yaml.name =
      .ok "? 'a\n\n  b'\n: - '1'\n  - null\n" := by decide +kernel
  have hnull : (rendered quotedNull).reformat OutputFormat.yaml.name =
      .ok "? 'a\n\n  b'\n: - 1\n  - 'null'\n" := by decide +kernel
  obtain ⟨j, j', hj, hj', hviews⟩ := (yaml_eq_iff_json_eq hnumber hnull).1
  exact ⟨hnumber, hnull, j, j', hj, hj', mt hviews.2 (by decide)⟩

end Payload
end JsonnetPreview
