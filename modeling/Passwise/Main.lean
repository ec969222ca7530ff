import Passwise.Command.Report
import Passwise.Command.Summary
import Passwise.Source.Generator

set_option autoImplicit false

namespace Passwise

def folderOf (path : String) : String := "/".intercalate (pathParts path).dropLast

def writeFile (path text : String) : IO Unit := do
  let folder := folderOf path
  if !folder.isEmpty then IO.FS.createDirAll folder
  IO.FS.writeFile path text

def fail (message : String) (code : UInt32) : IO UInt32 := do
  IO.eprintln s!"error: {message}"
  return code

def runFit (words : List String) : IO UInt32 := do
  match Command.parse Command.Fit.arguments words with
  | .error .help =>
    for a in Command.Fit.arguments do IO.println a.name
    return 0
  | .error (.refused message) => fail message 2
  | .ok values =>
    let chance : Command.Fit.Chance := ⟨Generator.draws, Generator.shuffle⟩
    let (result, filed) := (Command.Fit.execute values chance).run ⟨[], []⟩
    for (path, cells) in filed.states do writeFile path (Command.stateText cells)
    for (path, text) in filed.histories do writeFile path text
    match result with
    | .error e => fail (Command.errorText e) 1
    | .ok summary =>
      for line in Command.summaryLines summary do IO.println line
      return 0

partial def readLines (input : IO.FS.Stream) (done : List String) : IO (List String) := do
  let line ← input.getLine
  if line.isEmpty then return done.reverse
  let path := String.ofList (Text.trim line.toList)
  readLines input (if path.isEmpty then done else path :: done)

def runReport (words : List String) : IO UInt32 := do
  match Command.parse Command.Report.arguments words with
  | .error .help =>
    for a in Command.Report.arguments do IO.println a.name
    return 0
  | .error (.refused message) => fail message 2
  | .ok values =>
    let paths ← readLines (← IO.getStdin) []
    let files ← paths.mapM fun (path : String) => return (path, ← IO.FS.readFile path)
    let (result, gallery) := (Command.Report.execute values files).run .empty
    for figure in gallery.figures do
      writeFile (figure.path ++ ".csv") (Csv.write (Command.pointTable figure))
    for (path, table) in gallery.tables do writeFile path (Csv.write table)
    match result with
    | .error e => fail (Command.errorText e) 1
    | .ok folder =>
      IO.println s!"Wrote plots to: {folder}"
      return 0

end Passwise

def main : List String → IO UInt32
  | "fit" :: words => Passwise.runFit words
  | "report" :: words => Passwise.runReport words
  | _ => Passwise.fail "expected fit or report" 2
