import JsonnetPreview.Panel.LineEdit

namespace JsonnetPreview

inductive EditKey where
  | move (m : LineEdit.Motion)
  | select (m : LineEdit.Motion)
  | delete (m : LineEdit.Motion)
  | selectAll
  | cut
  | copy
  | paste
  deriving DecidableEq, Repr

inductive Key where
  /-- The key of a character that is named by it. -/
  | letter (c : CodePoint)
  /-- The key of a character that has a name of its own. -/
  | named (c : Char)
  | edit (e : EditKey)
  | enter
  | escape
  | tab
  | backTab
  | other
  deriving DecidableEq, Repr

namespace Key

def names : List (String × Key) :=
  [("enter", enter), ("escape", escape), ("tab", tab), ("shift+tab", backTab),
   ("left", edit (.move .left)), ("right", edit (.move .right)),
   ("home", edit (.move .lineStart)), ("ctrl+a", edit (.move .lineStart)),
   ("end", edit (.move .lineEnd)), ("ctrl+e", edit (.move .lineEnd)),
   ("ctrl+left", edit (.move .wordLeft)), ("ctrl+right", edit (.move .wordRight)),
   ("shift+left", edit (.select .left)), ("shift+right", edit (.select .right)),
   ("shift+home", edit (.select .lineStart)), ("shift+end", edit (.select .lineEnd)),
   ("ctrl+shift+left", edit (.select .wordLeft)), ("ctrl+shift+right", edit (.select .wordRight)),
   ("backspace", edit (.delete .left)), ("delete", edit (.delete .right)),
   ("ctrl+d", edit (.delete .right)), ("ctrl+w", edit (.delete .wordLeft)),
   ("ctrl+f", edit (.delete .wordRight)), ("ctrl+u", edit (.delete .lineStart)),
   ("ctrl+k", edit (.delete .lineEnd)), ("ctrl+shift+a", edit .selectAll),
   ("ctrl+x", edit .cut), ("ctrl+c", edit .copy), ("super+c", edit .copy), ("ctrl+v", edit .paste),
   ("space", named ' '), ("exclamation_mark", named '!'), ("quotation_mark", named '"'),
   ("number_sign", named '#'), ("dollar_sign", named '$'), ("percent_sign", named '%'),
   ("ampersand", named '&'), ("apostrophe", named '\''), ("left_parenthesis", named '('),
   ("right_parenthesis", named ')'), ("asterisk", named '*'), ("plus", named '+'),
   ("plus_sign", named '+'), ("comma", named ','), ("minus", named '-'),
   ("hyphen_minus", named '-'), ("full_stop", named '.'), ("slash", named '/'),
   ("solidus", named '/'), ("colon", named ':'),
   ("semicolon", named ';'), ("less_than_sign", named '<'), ("equals_sign", named '='),
   ("greater_than_sign", named '>'), ("question_mark", named '?'), ("at", named '@'),
   ("commercial_at", named '@'), ("left_square_bracket", named '['), ("backslash", named '\\'),
   ("reverse_solidus", named '\\'), ("right_square_bracket", named ']'),
   ("circumflex_accent", named '^'), ("underscore", named '_'), ("low_line", named '_'),
   ("grave_accent", named '\x60'), ("left_curly_bracket", named '\x7b'),
   ("vertical_line", named '|'), ("right_curly_bracket", named '\x7d'), ("tilde", named '~')]

def ofName : Text → Key
  | [c] => letter c
  | t => ((names.find? fun (name, _) => Text.ofString name = t).map (·.2)).getD other

end Key
end JsonnetPreview
