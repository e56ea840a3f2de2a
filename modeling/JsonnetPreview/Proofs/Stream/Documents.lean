import JsonnetPreview.Preview.Reformat
import JsonnetPreview.Proofs.Json.Wrapped
import JsonnetPreview.Proofs.Stream.Lines

namespace JsonnetPreview

namespace Stream

/-- A document of a stream: a text that is read where there is room for it, and what stands behind
the separator before it. -/
structure Document where
  gap : Text
  text : Text
  value : Json
  isGap : ∀ c ∈ gap, c = .char ' ' ∨ c = .char '\t'
  reads : ∃ stack : Stack, @Json.read stack text = .ok value

namespace Document

variable (d : Document)

def head : Text := separator ++ d.gap

def layout : Text := d.head ++ .char '\n' :: (d.text ++ [.char '\n'])

def lines : List Text := d.head :: splitLines d.text

def content : Text := Text.trim d.text

end Document

def ending : Option Text → Text
  | none => []
  | some rest => endMark ++ .char '\n' :: rest

def write (docs : List Document) (rest : Option Text) : Text :=
  docs.flatMap Document.layout ++ ending rest

end Stream

open JsonnetPreview.Stream

namespace Payload

section AnyStack

variable [Stack] (d : Document) (docs : List Document) (rest : Option Text) (f : OutputFormat)

end AnyStack

theorem write_yaml_wrap (n : Nat) : OutputFormat.yaml.write (Json.wrap n (.arr [])) =
    if n < Yaml.depthLimit then .ok (Yaml.writeDocument (Json.wrap n (.arr [])))
    else .error .writingYaml := by
  have hheight : (Json.wrap n (.arr [])).height = n :=
    (Json.height_wrap n (.arr [])).trans (Nat.zero_add n)
  rw [OutputFormat.write, Yaml.write?]
  simp only [Stack.writesYaml, hheight, decide_eq_true_eq]

end Payload

end JsonnetPreview
