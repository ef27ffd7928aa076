import Shapes.Report.Basic

/-!
# Reports as JSON

Every outcome with its subject and either the answer or the failure, and the
number of failures.
-/

namespace Shapes

def Answer.json : Answer -> Json
  | declared => .bool true
  | keys names => .arr (names.map .str)
  | fieldType text => .obj [("type", .str text)]
  | value v => v
  | verdict holds => .bool holds

def Outcome.json (outcome : Outcome) : Json :=
  match outcome.result with
  | .ok answer => .obj [("subject", .str outcome.subject), ("ok", answer.json)]
  | .error failure =>
      .obj
        [("subject", .str outcome.subject),
         ("error", .obj [("code", .str failure.code), ("message", .str failure.message)])]

def Report.json (report : Report) : Json :=
  .obj
    [("declarations", .arr (report.declarations.map Outcome.json)),
     ("queries", .arr (report.queries.map Outcome.json)),
     ("errors", .num (.integer report.failureCount))]

end Shapes
