import Shapes.Report.Basic

/-!
# Reports as text

One line for every refused declaration and every query, and a summary at the
end.  With colours, subjects are cyan, answers green and kinds of failure bold
red.
-/

namespace Shapes

/-!
# Colours

A style ends with a reset, so the style around it is taken up again after that.
-/

/-- A terminal style, by the numbers that select it. -/
structure Style where
  codes : String

namespace Style

def subject : Style := ⟨"36"⟩

def success : Style := ⟨"32"⟩

def failureKind : Style := ⟨"1;31"⟩

def failure : Style := ⟨"31"⟩

def reset : String := "\x1b[0m"

def opening (style : Style) : String :=
  "\x1b[" ++ style.codes ++ "m"

/-- A text in a style, which is taken up again after every reset inside it. -/
def paint (style : Style) (text : String) : String :=
  style.opening ++ (reset ++ style.opening).intercalate (text.splitOn reset) ++ reset

def paintIf (colour : Bool) (style : Style) (text : String) : String :=
  if colour then style.paint text else text

end Style

/-!
# Lines

Every line has a subject, and either an answer or a kind of failure with its
message.
-/

namespace Answer

def text : Answer -> String
  | declared => "ok"
  | keys names => "[" ++ ", ".intercalate names ++ "]"
  | fieldType text => text
  | value v => v.compact
  | verdict true => "true"
  | verdict false => "false"

end Answer

namespace Outcome

def failureText (colour : Bool) (failure : Failure) : String :=
  Style.failureKind.paintIf colour ("error[" ++ failure.code ++ "]:") ++ " " ++
    failure.message

def resultText (colour : Bool) (outcome : Outcome) : String :=
  match outcome.result with
  | .ok answer => Style.success.paintIf colour answer.text
  | .error failure => failureText colour failure

def line (colour : Bool) (subject : String) (outcome : Outcome) : String :=
  Style.subject.paintIf colour (subject ++ ":") ++ " " ++ outcome.resultText colour

end Outcome

namespace Report

def number (n : Nat) : String :=
  String.ofList (Nat.toDigits 10 n)

def summary (report : Report) : String :=
  number report.declarations.length ++ " declaration(s), " ++
    number report.queries.length ++ " query(ies), " ++
    number report.failureCount ++ " error(s)"

def text (colour : Bool) (report : Report) : String :=
  let refused :=
    (report.declarations.filter Outcome.isFailure).map fun outcome =>
      outcome.line colour ("declare " ++ outcome.subject)
  let answered := report.queries.map fun outcome => outcome.line colour outcome.subject
  let style := if report.failureCount = 0 then Style.success else Style.failure
  "\n".intercalate (refused ++ answered ++ [style.paintIf colour report.summary])

end Report
end Shapes
