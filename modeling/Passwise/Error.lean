
set_option autoImplicit false

namespace Passwise

inductive Family where
  | configuration
  | sizeLimit
  | dimension
  | numeric
  | unsupported
  | badValue
  | overflow
  | wrongType
  | shape
  | report
  | outOfRange
  | missingKey
  | missingPart
  | divisionByZero
  | noContent
  | raggedTable
  | singularSystem
  | isFolder
  | notFolder
  | fileExists
  deriving DecidableEq, Repr

inductive Error where
  | dimensionNotWhole (given : String)
  | dimensionNotPositive (given : Int)
  | objectiveNotListed (given : String)
  | unknownObjective (given : String)
  | notFiniteNonnegative (name given : String)
  | methodNotListed (given : String)
  | unknownMethod (given : String)
  | unknownMergeShape (given : String)
  | unknownBetaRule (given : String)
  | unknownLineSearch (given : String)
  | tooFewParts
  | tooFewIterations
  | noCandidateStepsize
  | nothingToStartFrom
  | cannotFit (method objective : String)
  | noHessian (objective : String)
  | roughPenalty (objective : String)
  | roughPenaltyHessian
  | denseTooLarge (dimension : Nat) (bound : Int)
  | dimensionMismatch (expected got : Nat)
  | cannotResume (objective : String) (dimension : Nat) (fromObjective : String) (fromDimension : Nat)
  | noSuchContribution (objective : String)
  | riskSetContribution
  | labelWithoutTime
  | timesNotDescending
  | severalRiskSets
  | nonFiniteEntries (what : String)
  | nonFinite (what given : String)
  | illConditioned (condition bound : String)
  | noDirection
  | noStoredData
  | notStored (key : String)
  | blobLength (length : Nat) (dimension : Int)
  | badBacktracking
  | noCandidates
  | stepsizeCount (models stepsizes : Nat)
  | searchOverRiskSet
  | candidateCounts (left right : Nat)
  | searchBlobLength (length : Nat) (count dimension : Int)
  | noFiniteLoss
  | noTrials
  | notTwoDimensional (shape : List Nat)
  | labelCount (rows labels : Nat)
  | eventCount (rows flags : Nat)
  | noExamples
  | partsBelowOne
  | unknownDataset (name : String)
  | noFolder (root : String)
  | noRuns (patterns : List String)
  | noIterColumn
  | wrongType
  | badValue
  | overflow
  | shape
  | outOfRange
  | missingKey
  | missingPart
  | divisionByZero
  | noContent
  | raggedTable
  | singularSystem
  | rootedPattern
  | isFolder
  | noFolderBelowFile
  | fileExists
  deriving DecidableEq, Repr

namespace Error

def family : Error → Family
  | dimensionNotWhole _ | dimensionNotPositive _ | objectiveNotListed _ | unknownObjective _
  | notFiniteNonnegative _ _ | methodNotListed _ | unknownMethod _ | unknownMergeShape _
  | unknownBetaRule _ | unknownLineSearch _ | tooFewParts | tooFewIterations
  | noCandidateStepsize | nothingToStartFrom | cannotFit _ _ | noHessian _ | roughPenalty _
  | roughPenaltyHessian | cannotResume _ _ _ _ | labelWithoutTime | timesNotDescending
  | severalRiskSets | noDirection | blobLength _ _ | badBacktracking | noCandidates
  | stepsizeCount _ _ | searchOverRiskSet | candidateCounts _ _ | searchBlobLength _ _ _
  | noTrials => .configuration
  | denseTooLarge _ _ => .sizeLimit
  | dimensionMismatch _ _ => .dimension
  | nonFiniteEntries _ | nonFinite _ _ | illConditioned _ _ | noFiniteLoss => .numeric
  | noSuchContribution _ | riskSetContribution | rootedPattern => .unsupported
  | noStoredData | notTwoDimensional _ | labelCount _ _ | eventCount _ _ | noExamples
  | partsBelowOne | unknownDataset _ | badValue => .badValue
  | notStored _ | missingKey => .missingKey
  | noFolder _ | noRuns _ | noIterColumn => .report
  | wrongType => .wrongType
  | overflow => .overflow
  | shape => .shape
  | outOfRange => .outOfRange
  | missingPart => .missingPart
  | divisionByZero => .divisionByZero
  | noContent => .noContent
  | raggedTable => .raggedTable
  | singularSystem => .singularSystem
  | isFolder => .isFolder
  | noFolderBelowFile => .notFolder
  | fileExists => .fileExists

def shapeText : List Nat → String
  | [n] => s!"({n},)"
  | sizes => "(" ++ ", ".intercalate (sizes.map toString) ++ ")"

def listedObjectives : String := "('svm', 'logistic', 'ridge', 'lasso', 'cox')"

def listedMethods : String := "('igd', 'cg', 'newton')"

def message : Error → Option String
  | dimensionNotWhole given => some s!"dimension must be an int, got {given}"
  | dimensionNotPositive given => some s!"dimension must be positive, got {given}"
  | objectiveNotListed given =>
    some s!"Unknown objective: {given} (expected one of {listedObjectives})"
  | unknownObjective given => some s!"Unknown objective: {given}"
  | notFiniteNonnegative name given => some s!"{name} must be finite and >= 0, got {given}"
  | methodNotListed given => some s!"Unknown method: {given} (expected one of {listedMethods})"
  | unknownMethod given => some s!"Unknown method: {given}"
  | unknownMergeShape given => some s!"Unknown merge shape: {given}"
  | unknownBetaRule given => some s!"Unknown conjugate-gradient beta rule: {given}"
  | unknownLineSearch given => some s!"Unknown line search: {given}"
  | tooFewParts => some "num_partitions and max_workers must be >= 1"
  | tooFewIterations => some "max_iters must be >= 1"
  | noCandidateStepsize => some "best_ball line search needs at least one candidate stepsize"
  | nothingToStartFrom => some "Need a TaskConfig or a previous snapshot to start a pass"
  | cannotFit method objective => some s!"{method} cannot fit {objective}; use newton"
  | noHessian objective => some s!"{objective} has no Hessian; use igd or cg"
  | roughPenalty objective =>
    some s!"{objective} penalty is not twice differentiable; use igd or cg"
  | roughPenaltyHessian => some "The L1 penalty has no Hessian; use igd or cg for lasso."
  | denseTooLarge dimension bound =>
    some s!"Dense Hessian for dimension {dimension} exceeds the bound of {bound}"
  | dimensionMismatch expected got =>
    some s!"Example has {got} features, state is configured for {expected}."
  | cannotResume objective dimension fromObjective fromDimension =>
    some (s!"Cannot warm start a {objective}/{dimension} pass from a " ++
      s!"{fromObjective}/{fromDimension} snapshot")
  | noSuchContribution objective => some s!"{objective} has no Hessian contribution"
  | riskSetContribution =>
    some "Cox contributions depend on the risk set; accumulate with accumulate()"
  | labelWithoutTime => some "cox examples need a (time, event) label"
  | timesNotDescending => some "cox pass needs examples in descending time order"
  | severalRiskSets => some "cox partial likelihood needs a single time-ordered partition"
  | nonFiniteEntries what => some s!"Non-finite values in {what}"
  | nonFinite what given => some s!"Non-finite {what}: {given}"
  | illConditioned condition bound =>
    some (s!"Hessian is singular or ill-conditioned (condition number {condition}, " ++
      s!"bound {bound})")
  | noDirection => some "Snapshot carries no search direction"
  | noStoredData => some "NO_DATA is not a snapshot"
  | notStored key => some key
  | blobLength length dimension =>
    some s!"Blob of length {length} does not match dimension {dimension}"
  | badBacktracking => some "Need alpha0 > 0, 0 < tau < 1 and n >= 1"
  | noCandidates => some "Step-size search needs at least one candidate"
  | stepsizeCount models stepsizes =>
    some s!"{models} candidate models but {stepsizes} stepsizes"
  | searchOverRiskSet => some "cox losses are not per-example; step-size search does not apply"
  | candidateCounts left right =>
    some s!"Cannot merge searches over {left} and {right} candidates"
  | searchBlobLength length count dimension =>
    some s!"Blob of length {length} does not hold {count} records of dimension {dimension}"
  | noFiniteLoss => some "Every candidate produced a non-finite loss"
  | noTrials => some "Need at least one stepsize"
  | notTwoDimensional sizes => some s!"X must be 2-D (rows, features), got shape {shapeText sizes}"
  | labelCount rows labels => some s!"{rows} rows but {labels} labels"
  | eventCount rows flags => some s!"{rows} rows but {flags} event flags"
  | noExamples => some "Cannot build a source from zero examples"
  | partsBelowOne => some "n must be >= 1"
  | unknownDataset name => some s!"Unknown dataset: {name}"
  | noFolder root => some s!"{root}/ folder not found. Run from the project root."
  | noRuns patterns =>
    some ("\n".intercalate ("No CSVs found for the requested selection." ::
      (patterns.take 12).map fun pattern => "  " ++ pattern))
  | noIterColumn => some "CSV must contain an iter column."
  | wrongType | badValue | overflow | shape | outOfRange | missingKey | missingPart
  | divisionByZero | noContent | raggedTable | singularSystem | rootedPattern | isFolder
  | noFolderBelowFile | fileExists => none

end Error

-- A change to a state that may stop half-way: what was done before the cause stays done.
abbrev Update (σ β : Type) := ExceptT Error (StateM σ) β

namespace Update

variable {σ τ β : Type}

def ofExcept (result : Except Error β) : Update σ β := ExceptT.mk (pure result)

def onPart (get : σ → τ) (put : τ → σ → σ) (part : Update τ β) : Update σ β :=
  ExceptT.mk fun state =>
    let (result, left) := part.run (get state)
    (result, put left state)

def each (update : Nat → Update τ Unit) : Update (List τ) Unit :=
  -- When one part stops, those before it stay changed.
  ExceptT.mk (go 0)
where
  go (i : Nat) : List τ → Except Error Unit × List τ
    | [] => (.ok (), [])
    | part :: rest =>
      match (update i).run part with
      | (.error cause, part) => (.error cause, part :: rest)
      | (.ok _, part) =>
        let (result, rest) := go (i + 1) rest
        (result, part :: rest)

def left (update : Update σ β) (state : σ) : σ := (update.run state).2

def exec (update : Update σ β) (state : σ) : Except Error σ :=
  match update.run state with
  | (.ok _, reached) => .ok reached
  | (.error cause, _) => .error cause

end Update

end Passwise
