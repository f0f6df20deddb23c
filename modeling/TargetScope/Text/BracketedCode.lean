import TargetScope.Text.DecimalDigit

/-!
# Codes in brackets

A message may carry a code such as `[RES-0110]`: a family, a hyphen and four decimal digits between
square brackets.  The code of a message is the first one in it.
-/

namespace TargetScope.Text

/-- The three characters are capital letters of ASCII. -/
def isFamily (a b c : Char) : Bool :=
  a.isUpper && b.isUpper && c.isUpper

/-- The code in brackets at the very front of a text, if the three letters of its family pass the
test. -/
def codeAt? (family : Char → Char → Char → Bool) : List Char → Option String
  | '[' :: a :: b :: c :: '-' :: d₁ :: d₂ :: d₃ :: d₄ :: ']' :: _ =>
    if family a b c && [d₁, d₂, d₃, d₄].all isDecimalDigit then
      some (String.ofList [a, b, c, '-', d₁, d₂, d₃, d₄])
    else none
  | _ => none

/-- The first code in brackets of a text whose family passes the test. -/
def findCode? (family : Char → Char → Char → Bool) : List Char → Option String
  | [] => none
  | c :: rest => (codeAt? family (c :: rest)).or (findCode? family rest)

end TargetScope.Text
