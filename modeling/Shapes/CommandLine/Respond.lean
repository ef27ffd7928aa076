import Shapes.CommandLine.Arguments
import Shapes.Document.Decode
import Shapes.Report.Json
import Shapes.Report.Text

/-!
# The command

What the command prints and how it exits, as a function of its arguments, of
the files it can read and of whether it prints to a terminal.
-/

namespace Shapes
namespace CommandLine

structure Response where
  status : UInt32
  output : String
  /-- What went wrong, for the standard error output. -/
  complaint : Option String := none

def versionText : String := "shapeck 0.1.0\n"

def helpText : String :=
  "\n".intercalate
    ["Declare structural shapes and check keys and values against them",
     "",
     "Usage: shapeck [OPTIONS] <FILE>",
     "",
     "Arguments:",
     "  <FILE>  Declaration file (JSON) to load",
     "",
     "Options:",
     "      --union-keys <UNION_KEYS>  Which keys of a union are accessible. Overrides `options.unionKeys` [possible values: common, any]",
     "      --format <FORMAT>          Output format [default: text] [possible values: text, json]",
     "      --color                    Force colored output",
     "      --no-color                 Disable colored output",
     "      --keys <NAME>              Print the keys of a declared shape. May be repeated",
     "  -h, --help                     Print help",
     "  -V, --version                  Print version",
     ""]

def Stop.respond : Stop -> Response
  | help => { status := 0, output := helpText }
  | version => { status := 0, output := versionText }
  | missingFile => refuse "the following required arguments were not provided: <FILE>"
  | invalidValue => refuse "invalid value"
  | unknownArgument => refuse "unexpected argument"
  | repeatedOption => refuse "the argument cannot be used multiple times"
  | unwantedValue => refuse "unexpected value"
where
  refuse (complaint : String) : Response :=
    { status := 2, output := "", complaint := some complaint }

def printed (format : ReportFormat) (colour : Bool) (report : Report) : String :=
  match format with
  | .text => report.text colour ++ "\n"
  | .json => report.json.pretty ++ "\n"

def execute (arguments : Arguments) (bytes : Option ByteArray) (terminal : Bool) :
    Response :=
  let failed (complaint : String) : Response :=
    { status := 1, output := "", complaint := some complaint }
  match Document.load arguments.file bytes with
  | .error failure => failed failure.message
  | .ok document =>
      match document.run (document.effectivePolicy arguments.policy) arguments.keys with
      | .error invalid => failed invalid.message
      | .ok report =>
          { status := if report.hasFailures then 1 else 0
            output := printed arguments.format (arguments.useColour terminal) report }

end CommandLine
end Shapes
