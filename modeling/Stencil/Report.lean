import Stencil.Fault

/-!
# Reports — faults with advice, as they are shown to a person

A report is a fault with an optional remark on what led to it and an optional suggestion
what to do about it. On a terminal each of the three has a heading of its own colour.
-/

namespace Stencil

/-- A fault with details and a suggestion. -/
structure Report where
  fault : Fault
  suggestion : Option String
  details : Option String
deriving Repr, DecidableEq

/-- What may be done about a fault. -/
def Fault.suggestion : Fault → Option String
  | .unreadable label _ =>
    some (s!"Check the JSON syntax in {label}. " ++
      "Every @@keyword@@ it uses must be defined in the keyword mappings")
  | .argument _ =>
    some "Pass the payload as text; serialize structured data before checksumming"
  | .duplicateName name _ =>
    some (s!"Rename one of the resources called '{name}' " ++
      "or set duplicate_names = \"overwrite\"")
  | .rule _ => some "Move the listed settings into their own resource definitions"
  | .resource _ =>
    some ("Each resource must be a JSON object with a string 'name'; " ++
      "the child list field must hold an array")
  | .settings _ => some "Check the configuration file and the keywords file it references"
  | .other _ => none

/-- What there is to add to a fault of this kind. -/
def Fault.remark : Fault → Option String
  | .unreadable _ _ =>
    some "Unresolved keywords are left in place and usually make the file invalid JSON"
  | .duplicateName _ _ =>
    some "Resource names must be unique within one list when duplicates are rejected"
  | _ => none

/-- The report on a fault alone. -/
def Fault.report (fault : Fault) : Report :=
  ⟨fault, fault.suggestion, fault.remark⟩

namespace Report

/-- A line of a report that may be missing, behind its heading. -/
def paragraph (heading : String) : Option String → String
  | none => ""
  | some text => "\n" ++ heading ++ ": " ++ text

/-- A report as plain text. -/
def text (report : Report) : String :=
  report.fault.message ++ paragraph "Details" report.details ++
    paragraph "Suggestion" report.suggestion

/-- A word in a terminal colour. -/
def paint (code word : String) : String :=
  "\x1b[" ++ code ++ "m" ++ word ++ "\x1b[0m"

/-- A heading of a report on a terminal. -/
def heading (coloured : Bool) (code word : String) : String :=
  (if coloured then paint code word else word) ++ ": "

/-- A report as it is shown on a terminal: the fault in bold red, the details in yellow,
    the suggestion in green. -/
def terminal (coloured : Bool) (report : Report) : String :=
  let line (code word text : String) := heading coloured code word ++ text ++ "\n"
  line "1;31" "error" report.fault.message ++
    (report.details.map (line "33" "details")).getD "" ++
    (report.suggestion.map (line "32" "suggestion")).getD ""

end Report

end Stencil
