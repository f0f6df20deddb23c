import Mathlib.Tactic.Lemma
import TargetScope.Analysis

/-!
# The codes of diagnostics

The code of a diagnostic is searched in its message, which also carries names and words of the
user.  Every message begins with the code of its check, so that nothing behind it is ever found:
the diagnostic of a fault has the code of that fault, whatever the names in it are.
-/

namespace TargetScope

namespace Text

/-- The text has the form of a code: the three letters of a family, a hyphen and four digits. -/
def isCode : List Char → Bool
  | [a, b, c, '-', d₁, d₂, d₃, d₄] =>
    isFamily a b c && [d₁, d₂, d₃, d₄].all isDecimalDigit
  | _ => false

/-- A code in brackets at the front of a text is the first one in it. -/
lemma findCode?_of_isCode {code : List Char} (h : isCode code = true) (rest : List Char) :
    findCode? isFamily ('[' :: code ++ ']' :: rest) = some (String.ofList code) := by
  unfold isCode at h
  split at h
  · rw [List.cons_append, findCode?]
    simp only [List.cons_append, List.nil_append, codeAt?, h, if_true, Option.some_or]
  · exact absurd h (by decide)

/-- A code begins with a bracket. -/
lemma findCode?_cons_of_ne {c : Char} (h : c ≠ '[') (rest : List Char) :
    findCode? isFamily (c :: rest) = findCode? isFamily rest := by
  have hat : codeAt? isFamily (c :: rest) = none := by
    unfold codeAt?
    split
    · next heq => exact absurd (List.cons.inj heq).1 h
    · rfl
  rw [findCode?, hat, Option.none_or]

/-- What stands in front of the first bracket does not matter. -/
lemma findCode?_append {lead : List Char} (h : '[' ∉ lead) (rest : List Char) :
    findCode? isFamily (lead ++ rest) = findCode? isFamily rest := by
  induction lead with
  | nil => rfl
  | cons c lead ih =>
    rw [List.mem_cons, not_or] at h
    rw [List.cons_append, findCode?_cons_of_ne (Ne.symm h.1), ih h.2]

end Text

/-- The code of a diagnostic whose message has a code in brackets behind a lead without any. -/
lemma Diagnostic.code_eq {d : Diagnostic} {code : String} (lead rest : String)
    (hm : d.message = lead ++ ("[" ++ code ++ "] " ++ rest)) (hl : '[' ∉ lead.toList)
    (hc : Text.isCode code.toList = true) : d.code = some code := by
  have htext : d.message.toList =
      lead.toList ++ ('[' :: code.toList ++ ']' :: ' ' :: rest.toList) := by
    rw [hm]
    simp [String.toList_append]
  rw [Diagnostic.code, htext, Text.findCode?_append hl, Text.findCode?_of_isCode hc,
    String.ofList_toList]

lemma Failure.isCode_code (f : Failure) : Text.isCode f.code.toList = true := by
  unfold code
  split <;> decide

lemma StructureFault.isCode_code (f : StructureFault) : Text.isCode f.code.toList = true := by
  unfold code
  split <;> decide

lemma SyntaxFault.isCode_code (f : SyntaxFault) : Text.isCode f.code.toList = true := by
  unfold code
  split <;> decide

lemma Failure.code_diagnose (f : Failure) (mode : Mode) (t : ScopeTree)
    (filename : Option String) : (f.diagnose mode t filename).code = some f.code :=
  Diagnostic.code_eq "" (f.detail mode t) String.empty_append.symm (by decide)
    f.isCode_code

lemma StructureError.code_diagnostic (e : StructureError) (unitName filename : Option String) :
    (e.diagnostic unitName filename).code = some e.fault.code :=
  Diagnostic.code_eq "" e.fault.detail String.empty_append.symm (by decide)
    e.fault.isCode_code

lemma SyntaxError.code_diagnostic (e : SyntaxError) (filename : String) :
    (e.diagnostic filename).code = some e.fault.code :=
  Diagnostic.code_eq "syntax: " e.fault.detail rfl (by decide)
    e.fault.isCode_code

/-- The path of a file that cannot be read does not matter for the code. -/
lemma FileFault.code_of_message (fault : FileFault) (path : String) {d : Diagnostic}
    (hm : d.message = fault.message path) : d.code = some "DRV-0010" := by
  have hmessage : d.message = "[DRV-0010] cannot read " ++ path ++ ": " ++ fault.reason := hm
  have htext : d.message.toList = '[' :: "DRV-0010".toList ++
      ']' :: (" cannot read ".toList ++ path.toList ++ ": ".toList ++ fault.reason.toList) := by
    rw [hmessage]
    simp [String.toList_append]
  rw [Diagnostic.code, htext, Text.findCode?_of_isCode (by decide), String.ofList_toList]

end TargetScope
