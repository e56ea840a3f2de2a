import JsonnetPreview.Text.Basic

namespace JsonnetPreview

structure StatusBar where
  file : Text := []
  format : Text := []
  externals : Text := []
  status : Text := "idle"
  errors : Int := 0
  deriving DecidableEq, Repr

namespace StatusBar

/-- What is to be shown from now on; a part that is not given stays. -/
structure Update where
  file : Option Text := none
  format : Option Text := none
  externals : Option Text := none
  status : Option Text := none
  errors : Option Int := none

def update (bar : StatusBar) (u : Update) : StatusBar where
  file := u.file.getD bar.file
  format := u.format.getD bar.format
  externals := u.externals.getD bar.externals
  status := u.status.getD bar.status
  errors := u.errors.getD bar.errors

def text (bar : StatusBar) : Text :=
  let part (mark : String) (t : Text) : List Text :=
    if t.isEmpty then [] else [Text.ofString mark ++ t]
  Text.joinWith "  │  "
    (part "📄 " bar.file ++ part "⇄ " bar.format ++ part "⚙  " bar.externals ++
      [Text.ofString "● " ++ bar.status] ++
      if bar.errors = 0 then []
      else [Text.ofString "❌ " ++ Text.ofInt bar.errors ++ Text.ofString " error(s)"])

end StatusBar
end JsonnetPreview
