import JsonnetPreview.Text.Pattern

namespace JsonnetPreview.Yaml

open Pattern

def digit : Pattern := element Char.isDigit

def digitOrUnderscore : Pattern := element fun c => c.isDigit || c == '_'

def sign : Pattern := anyOf "+-"

def boolean : Pattern :=
  words ["yes", "Yes", "YES", "no", "No", "NO", "true", "True", "TRUE", "false", "False", "FALSE",
    "on", "On", "ON", "off", "Off", "OFF"]

def null : Pattern := words ["", "~", "null", "Null", "NULL"]

def sixtieth : Pattern := sequence [char ':', opt (anyOf "012345"), digit]

def decimalDigits : Pattern := seq digit (many digitOrUnderscore)

def positiveDigits : Pattern :=
  seq (element fun c => c.isDigit && c != '0') (many digitOrUnderscore)

def integer : Pattern :=
  seq (opt sign) (choice
    [sequence [word "0b", many1 (anyOf "01_")],
     sequence [char '0', many1 (anyOf "01234567_")],
     char '0', positiveDigits,
     sequence [word "0x", many1 (anyOf "0123456789abcdefABCDEF_")],
     seq positiveDigits (many1 sixtieth)])

def exponent : Pattern := sequence [anyOf "eE", sign, many1 digit]

def float : Pattern :=
  choice
    [sequence [opt sign, decimalDigits, char '.', many digitOrUnderscore, opt exponent],
     sequence [char '.', decimalDigits, opt exponent],
     sequence [opt sign, decimalDigits, many1 sixtieth, char '.', many digitOrUnderscore],
     sequence [opt sign, char '.', words ["inf", "Inf", "INF"]],
     sequence [char '.', words ["nan", "NaN", "NAN"]]]

def oneOrTwoDigits : Pattern := seq digit (opt digit)

def date : Pattern :=
  sequence [digit, digit, digit, digit, char '-', digit, digit, char '-', digit, digit]

def timestamp : Pattern :=
  let blanks := anyOf " \t"
  sequence
    [digit, digit, digit, digit, char '-', oneOrTwoDigits, char '-', oneOrTwoDigits,
     choice [anyOf "Tt", many1 blanks],
     oneOrTwoDigits, char ':', digit, digit, char ':', digit, digit,
     opt (seq (char '.') (many digit)),
     opt (seq (many blanks) (choice
       [char 'Z',
        sequence [sign, oneOrTwoDigits, opt (sequence [char ':', digit, digit])]]))]

def special : Pattern := words ["<<", "="]

def readsAsString (t : Text) : Bool :=
  !([boolean, null, integer, float, date, timestamp, special].any (·.isMatch t))

end JsonnetPreview.Yaml
