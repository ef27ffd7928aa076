import Shapes.CommandLine.Respond

/-!
# The program

Reads the file that the arguments name, prints the response and exits.
-/

namespace Shapes
namespace CommandLine

def readBytes (path : String) : IO (Option ByteArray) := do
  try
    let bytes <- IO.FS.readBinFile path
    return some bytes
  catch _ => return none

def Response.emit (response : Response) : IO UInt32 := do
  IO.print response.output
  if let some complaint := response.complaint then
    IO.eprintln s!"Error: {complaint}"
  return response.status

end CommandLine
end Shapes

open Shapes.CommandLine in
def main (arguments : List String) : IO UInt32 := do
  match Arguments.parse arguments with
  | .error stop => stop.respond.emit
  | .ok settings =>
      let bytes <- readBytes settings.file
      let terminal <- (<- IO.getStdout).isTty
      (execute settings bytes terminal).emit
