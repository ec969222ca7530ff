import Passwise.Archive
import Passwise.Command.Arguments
import Passwise.Estimate
import Passwise.History
import Passwise.Run.Fit
import Passwise.Settings.Run
import Passwise.Source.Dataset
import Passwise.Table.Csv

set_option autoImplicit false

namespace Passwise.Command.Fit

def arguments : List Argument := [
    { name := "--objective", kind := .choice (Objective.all.map (·.name)), initial := .text "svm" },
    { name := "--method", kind := .choice (Method.all.map (·.name)), initial := .text "igd" },
    { name := "--dataset", kind := .choice (Dataset.all.map (·.name)) },
    { name := "--m", kind := .whole, initial := .whole 1000 },
    { name := "--d", kind := .whole, initial := .whole 5 },
    { name := "--iters", kind := .whole, initial := .whole 50 },
    { name := "--stepsize", kind := .real, initial := .real 0.01 },
    { name := "--lam", kind := .real, initial := .real 0.0 },
    { name := "--tol", kind := .real, initial := .real 1e-6 },
    { name := "--partitions", kind := .whole, initial := .whole 4 },
    { name := "--workers", kind := .whole, initial := .whole 1 },
    { name := "--merge", kind := .choice ["tree", "sequential"], initial := .text "tree" },
    { name := "--line_search", kind := .choice ["fixed", "best_ball"], initial := .text "fixed" },
    { name := "--stepsizes", kind := .text, initial := .text "1,0.5,0.25,0.125,0.0625" },
    { name := "--seed", kind := .whole, initial := .whole 0 },
    { name := "--data_seed", kind := .whole, initial := .whole 0 },
    { name := "--save_states", kind := .switch, initial := .flag false },
    { name := "--log_level", kind := .text, initial := .text "INFO" }
  ]

def logLevels : List String :=
  ["TRACE", "DEBUG", "INFO", "SUCCESS", "WARNING", "ERROR", "CRITICAL"]

def settingArguments : List (String × String) := [
    ("seed", "--seed"), ("objective", "--objective"), ("method", "--method"),
    ("dimension", "--d"), ("stepsize", "--stepsize"), ("regularization", "--lam"),
    ("tolerance", "--tol"), ("max_iters", "--iters"), ("num_partitions", "--partitions"),
    ("max_workers", "--workers"), ("merge_shape", "--merge"), ("line_search", "--line_search")
  ]

def readStepsizes (text : String) : Except Error Literal := do
  let words := (text.splitOn ",").filter (!·.isEmpty)
  return .list (← words.mapM fun word => return .real (← (Literal.text word).toReal))

def settings (values : Fields) : Except Error Fields := do
  let .text given := values.get "--stepsizes" | throw .wrongType
  let stepsizes ← readStepsizes given
  return ("stepsizes", stepsizes) ::
    settingArguments.map fun (name, argument) => (name, values.get argument)

structure Filed where
  histories : List (String × String)
  states : List (String × List Numeral)

def Filed.paths (f : Filed) : List String :=
  (f.histories.map (·.1) ++ f.states.map (·.1)).mergeSort fun a b => !(b < a)

structure Summary where
  outcome : Outcome Numeral
  estimate : Option (Estimate Numeral)

structure Chance where
  draws : (seed : Int) → Draws Numeral
  shuffles : (seed : Int) → (size : Nat) → Run.Shuffles

def wholeOf (values : Fields) (name : String) : Int :=
  match values.get name with
  | .whole n => n
  | _ => 0

def resultsFolder : String := "results"

def plan (values : Fields) (chance : Chance) :
    Except Error (Run Numeral × Source Numeral × String) := do
  let .text level := values.get "--log_level" | throw .wrongType
  if !logLevels.contains level then throw .badValue
  let run ← Run.ofFields (← settings values)
  let dataset := match values.get "--dataset" with
    | .text name => (Dataset.ofName? name).getD (Dataset.suited run.task.objective)
    | _ => Dataset.suited run.task.objective
  let rows := wholeOf values "--m"
  let dimension := wholeOf values "--d"
  let dataSeed := wholeOf values "--data_seed"
  let noise : Numeral := .real 0.1
  let _ ← Run.seedOf (.whole dataSeed)
  let source ← dataset.generate (chance.draws dataSeed) rows dimension noise
  let _ ← Run.seedOf (values.get "--seed")
  let experiment : Archive.Experiment :=
    ⟨.text run.task.objective.name, .text dataset.name, .whole rows, .whole dimension⟩
  let tag := Archive.baseName experiment (.text run.method.name) (toString dataSeed)
    (values.get "--seed")
  return (run, source, tag)

def execute (values : Fields) (chance : Chance) : Update Filed Summary := do
  -- States kept before an error stay, a history is filed only at the end.
  let (run, source, tag) ← Update.ofExcept (plan values chance)
  let durable := (values.get "--save_states").truthy
  let shuffles := chance.shuffles (wholeOf values "--seed") source.size
  let (result, progress) := (run.fit source shuffles none).run (.fresh durable)
  let folder := s!"{resultsFolder}/states/{tag}"
  modify fun filed => { filed with
    states := progress.directory.map fun (name, cells) => (s!"{folder}/{name}", cells) }
  let outcome ← Update.ofExcept result
  let text := Csv.write (History.table progress.log)
  modify fun filed => { filed with histories := [(s!"{resultsFolder}/{tag}.csv", text)] }
  let estimate ← Update.ofExcept
    (outcome.snapshot.mapM fun s => Estimate.ofSnapshot s (some (Scalar.ofNat outcome.iterations)))
  return ⟨outcome, estimate⟩

end Passwise.Command.Fit
