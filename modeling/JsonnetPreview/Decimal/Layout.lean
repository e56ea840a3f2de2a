import JsonnetPreview.Decimal.Shortest
import JsonnetPreview.Text.Basic

namespace JsonnetPreview

/-- The choices in which the formats differ. In all of them a number from `10 ^ -4` up to but not
including `10 ^ 16` is written out, with at least one digit behind the point, and any other one with
an exponent of at least two digits and its sign. -/
structure Layout where
  infinity : Text
  nan : Text
  /-- Whether a single digit before an exponent is followed by a point and a zero. -/
  pointBeforeExponent : Bool

namespace Layout

def positional (digits : Text) (point : Int) : Text :=
  if point ≤ 0 then "0." ++ Text.replicate (-point).toNat '0' ++ digits
  else if digits.length ≤ point.toNat then
    digits ++ Text.replicate (point.toNat - digits.length) '0' ++ ".0"
  else digits.take point.toNat ++ .char '.' :: digits.drop point.toNat

def exponentText (e : Int) : Text :=
  let digits := Text.ofNat e.natAbs
  (if e < 0 then .char '-' else .char '+') :: (Text.replicate (2 - digits.length) '0' ++ digits)

def scientific (l : Layout) (digits : Text) (point : Int) : Text :=
  let fraction : Text :=
    match digits.drop 1 with
    | [] => if l.pointBeforeExponent then ".0" else []
    | rest => .char '.' :: rest
  digits.take 1 ++ fraction ++ .char 'e' :: exponentText (point - 1)

def ofDecimal (l : Layout) (d : Decimal) : Text :=
  let digits := Text.ofNat d.coefficient
  let point : Int := digits.length + d.exponent
  if -4 < point && point ≤ 16 then positional digits point else l.scientific digits point

def signed (negative : Bool) (t : Text) : Text := if negative then .char '-' :: t else t

def render (l : Layout) : Binary64 → Text
  | .finite negative x => signed negative (l.ofDecimal x.shortest)
  | .infinite negative => signed negative l.infinity
  | .nan => l.nan

end Layout
end JsonnetPreview
