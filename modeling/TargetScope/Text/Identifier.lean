import TargetScope.Text.IdentifierTable

/-!
# Identifiers

An identifier begins with a letter-like character or an underscore and goes on with any number of
characters that may follow one.  Names are compared as they are written.
-/

namespace TargetScope.Text

/-- A character that may begin an identifier. -/
def isIdentifierStart (c : Char) : Bool :=
  c == '_' || inRanges identifierStarts c

/-- A character that may stand in an identifier. -/
def isIdentifierPart (c : Char) : Bool :=
  isIdentifierStart c || inRanges identifierFollowers c

/-- The characters spell an identifier. -/
def isIdentifier : List Char → Bool
  | [] => false
  | c :: rest => isIdentifierStart c && rest.all isIdentifierPart

/-- The characters spell an identifier once each dot is read as an underscore, as in the name of
a unit. -/
def isDottedName (name : List Char) : Bool :=
  isIdentifier (name.map fun c => if c = '.' then '_' else c)

theorem isIdentifierPart_of_start {c : Char} (h : isIdentifierStart c = true) :
    isIdentifierPart c = true := by
  simp [isIdentifierPart, h]

/-- Every identifier is a dotted name. -/
theorem isDottedName_of_isIdentifier {name : List Char} (h : isIdentifier name = true) :
    isDottedName name = true := by
  have hs : isIdentifierStart '_' = true := rfl
  cases name with
  | nil => simp [isIdentifier] at h
  | cons c rest =>
    simp only [isIdentifier, Bool.and_eq_true, List.all_eq_true] at h
    simp only [isDottedName, List.map_cons, isIdentifier, Bool.and_eq_true, List.all_eq_true,
      List.mem_map, forall_exists_index, and_imp, forall_apply_eq_imp_iff₂]
    refine ⟨?_, fun d hd => ?_⟩
    · split
      · exact hs
      · exact h.1
    · split
      · exact isIdentifierPart_of_start hs
      · exact h.2 d hd

end TargetScope.Text
