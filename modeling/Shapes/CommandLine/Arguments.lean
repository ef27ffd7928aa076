import Shapes.Shape.Keys

/-!
# Arguments

The command takes one file and a few options.  An option with a value takes it
after an equals sign or from the next argument, unless that looks like an
option itself.  A value is not checked before the argument after it is known to
be an argument at all, which decides what is reported when several things are
wrong.
-/

namespace Shapes
namespace CommandLine

inductive ReportFormat where
  | text
  | json
  deriving DecidableEq, Repr

structure Arguments where
  file : String
  policy : Option KeyPolicy
  format : ReportFormat
  colour : Bool
  noColour : Bool
  /-- Names whose keys are asked for after the document's own queries. -/
  keys : List String

namespace Arguments

/-- Colours when asked for; without a wish, on a terminal only. -/
def useColour (arguments : Arguments) (terminal : Bool) : Bool :=
  if arguments.noColour then false
  else if arguments.colour then true
  else terminal

end Arguments

/-- Why the arguments do not lead to a run. -/
inductive Stop where
  | help
  | version
  | missingFile
  | invalidValue
  | unknownArgument
  | repeatedOption
  | unwantedValue
  deriving DecidableEq, Repr

/-!
# What arguments can be given

An option is known by its long name, and two of the switches by a letter as
well.  A value goes into a slot, and the file has a slot of its own.
-/

inductive Slot where
  | file
  | policy
  | format
  | keys
  deriving DecidableEq, Repr

inductive Switch where
  | colour
  | noColour
  | help
  | version
  deriving DecidableEq, Repr

inductive OptionName where
  | slot (slot : Slot)
  | switch (switch : Switch)

def OptionName.ofLong? : String -> Option OptionName
  | "union-keys" | "unionKeys" => some (.slot .policy)
  | "format" => some (.slot .format)
  | "keys" => some (.slot .keys)
  | "color" => some (.switch .colour)
  | "no-color" => some (.switch .noColour)
  | "help" => some (.switch .help)
  | "version" => some (.switch .version)
  | _ => none

def OptionName.ofShort? : Char -> Option Switch
  | 'h' => some .help
  | 'V' => some .version
  | _ => none

/-!
# Reading arguments

Arguments are read from left to right.  What has been accepted is kept next to
the option that still waits for its value, and the first thing that is wrong
ends the reading.
-/

/-- What has been accepted so far, and what still waits to be. -/
structure Reading where
  file : Option String
  policy : Option KeyPolicy
  format : Option ReportFormat
  colour : Bool
  noColour : Bool
  keys : List String
  /-- An argument that has been given but not checked, with its value if any. -/
  waiting : Option (Slot × Option String)
  /-- Whether the next argument is the value of the waiting option. -/
  wantsValue : Bool
  /-- Whether a file has been given, checked or not. -/
  fileGiven : Bool
  onlyFiles : Bool

namespace Reading

def start : Reading :=
  { file := none, policy := none, format := none, colour := false, noColour := false,
    keys := [], waiting := none, wantsValue := false, fileGiven := false,
    onlyFiles := false }

/-- Names of values are compared in any ASCII case. -/
def policy? (value : String) : Option KeyPolicy :=
  let lower := value.map Char.toLower
  if lower = "common" then some .common
  else if lower = "any" then some .any
  else none

def format? (value : String) : Option ReportFormat :=
  let lower := value.map Char.toLower
  if lower = "text" then some .text
  else if lower = "json" then some .json
  else none

def accept (r : Reading) (slot : Slot) (value : String) : Except Stop Reading :=
  match slot with
  | .file => if value.isEmpty then throw .invalidValue else return { r with file := some value }
  | .policy =>
      if r.policy.isSome then throw .repeatedOption
      else
        match policy? value with
        | some policy => return { r with policy := some policy }
        | none => throw .invalidValue
  | .format =>
      if r.format.isSome then throw .repeatedOption
      else
        match format? value with
        | some format => return { r with format := some format }
        | none => throw .invalidValue
  | .keys => return { r with keys := r.keys ++ [value] }

def settle (r : Reading) : Except Stop Reading :=
  let rest := { r with waiting := none, wantsValue := false }
  match r.waiting with
  | none => return rest
  | some (_, none) => throw .invalidValue
  | some (slot, some value) => rest.accept slot value

def flip (r : Reading) (switch : Switch) : Except Stop Reading := do
  let r <- r.settle
  match switch with
  | .help => throw .help
  | .version => throw .version
  | .colour =>
      if r.colour then throw .repeatedOption
      else return { r with colour := true, noColour := false }
  | .noColour =>
      if r.noColour then throw .repeatedOption
      else return { r with noColour := true, colour := false }

def long (r : Reading) (name : String) (value : Option String) : Except Stop Reading :=
  match OptionName.ofLong? name, value with
  | none, _ => throw .unknownArgument
  | some (.switch switch), none => r.flip switch
  | some (.switch _), some _ => throw .unwantedValue
  | some (.slot slot), some value => do
      let r <- r.settle
      r.accept slot value
  | some (.slot slot), none => do
      let r <- r.settle
      return { r with waiting := some (slot, none), wantsValue := true }

def shorts (r : Reading) : List Char -> Except Stop Reading
  | [] => return r
  | c :: rest =>
      match OptionName.ofShort? c with
      | none => throw .unknownArgument
      | some switch => do
          let r <- r.flip switch
          r.shorts rest

def positional (r : Reading) (value : String) : Except Stop Reading :=
  if r.fileGiven then throw .unknownArgument
  else do
    let r <- r.settle
    return { r with waiting := some (.file, some value), fileGiven := true }

def plain (r : Reading) (value : String) : Except Stop Reading :=
  match r.wantsValue, r.waiting with
  | true, some (slot, _) =>
      return { r with waiting := some (slot, some value), wantsValue := false }
  | _, _ => r.positional value

def splitLong (text : List Char) : String × Option String :=
  match text.dropWhile (· ≠ '=') with
  | [] => (String.ofList text, none)
  | _ :: value => (String.ofList (text.takeWhile (· ≠ '=')), some (String.ofList value))

def step (r : Reading) (argument : String) : Except Stop Reading :=
  if r.onlyFiles then r.positional argument
  else
    match argument.toList with
    | ['-', '-'] => return { r with onlyFiles := true }
    | '-' :: '-' :: text =>
        let (name, value) := splitLong text
        r.long name value
    | '-' :: c :: text => r.shorts (c :: text)
    | _ => r.plain argument

def finish (r : Reading) : Except Stop Arguments := do
  let r <- r.settle
  match r.file with
  | none => throw .missingFile
  | some file =>
      return { file, policy := r.policy, format := r.format.getD .text,
               colour := r.colour, noColour := r.noColour, keys := r.keys }

end Reading

/-- The settings that arguments stand for, without the name of the command. -/
def Arguments.parse (arguments : List String) : Except Stop Arguments := do
  let r <- arguments.foldlM Reading.step Reading.start
  r.finish

end CommandLine
end Shapes
