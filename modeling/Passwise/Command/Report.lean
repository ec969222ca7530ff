import Passwise.Archive
import Passwise.Command.Arguments
import Passwise.Figure
import Passwise.Objective
import Passwise.Settings.Fields
import Passwise.Source.Dataset

set_option autoImplicit false

namespace Passwise.Command.Report

def arguments : List Argument := [
    { name := "--objective", kind := .choice (Objective.all.map (·.name)), required := true },
    { name := "--dataset", kind := .choice (Dataset.all.map (·.name)), required := true },
    { name := "--m", kind := .whole, required := true },
    { name := "--d", kind := .whole, required := true },
    { name := "--seeds", kind := .text, initial := .text "0" },
    { name := "--methods", kind := .text, initial := .text "igd,cg,newton" },
    { name := "--outdir", kind := .text, initial := .text "figures" },
    { name := "--targets", kind := .text, initial := .text "" }
  ]

def words (text : String) : List String :=
  ((text.splitOn ",").map fun word => String.ofList (Text.trim word.toList)).filter (!·.isEmpty)

def textOf (values : Fields) (name : String) : String :=
  match values.get name with
  | .text s => s
  | _ => ""

def wholeOf (values : Fields) (name : String) : Int :=
  match values.get name with
  | .whole n => n
  | _ => 0

def execute (values : Fields) (files : Files) : Update Figure.Gallery String := do
  let seeds ← Update.ofExcept
    ((words (textOf values "--seeds")).mapM fun word => (Literal.text word).toWhole)
  let methods := words (textOf values "--methods")
  let targets ← Update.ofExcept
    ((words (textOf values "--targets")).mapM fun word => (Literal.text word).toReal)
  let objective := textOf values "--objective"
  let dataset := textOf values "--dataset"
  let rows := wholeOf values "--m"
  let dimension := wholeOf values "--d"
  let t ← Update.ofExcept
    (Archive.load files (.text "results")
      ⟨.text objective, .text dataset, .whole rows, .whole dimension⟩
      (.list (seeds.map .whole)) (.list (methods.map .text)))
  let folder := Figure.joinPath (textOf values "--outdir")
    s!"{objective}_{dataset}_m{rows}_d{dimension}"
  Update.ofExcept (files.requireFolder folder)
  Figure.gallery t folder s!"{objective} / {dataset}" targets
  return folder

end Passwise.Command.Report
