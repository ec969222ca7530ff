import Passwise.Literal

set_option autoImplicit false

namespace Passwise.Command

inductive Kind where
  | text
  | choice (names : List String)
  | whole
  | real
  | switch
  deriving DecidableEq, Repr

structure Argument where
  name : String
  kind : Kind
  initial : Literal := .null
  required : Bool := false

inductive Stop where
  | help
  | refused (message : String)
  deriving DecidableEq, Repr

inductive Target where
  | help
  | argument (a : Argument)

namespace Target

def title : Target → String
  | help => "-h/--help"
  | argument a => a.name

def takesValue : Target → Bool
  | help => false
  | argument a => a.kind != .switch

def refuse (t : Target) (reason : String) : Stop :=
  .refused s!"argument {t.title}: {reason}"

def ignored (t : Target) (value : String) : Stop :=
  t.refuse s!"ignored explicit argument {Text.quote value}"

end Target

inductive Token where
  | name (target : Target) (value : Option String)
  | letters (rest : List Char)
  | unknown (word : String)
  | value (word : String)
  | dashes

def namesOf (arguments : List Argument) : List (String × Target) :=
  ("-h", .help) :: ("--help", .help) :: arguments.map fun a => (a.name, .argument a)

def splitEquals (word : String) : String × Option String :=
  let cs := word.toList
  match cs.dropWhile (· != '=') with
  | [] => (word, none)
  | _ :: after => (String.ofList (cs.takeWhile (· != '=')), some (String.ofList after))

def isDigit (c : Char) : Bool := (Text.digitValue? c).isSome

def isNegativeNumber (word : String) : Bool :=
  match word.toList with
  | '-' :: rest =>
    let rest := if rest.getLast? = some '\n' then rest.dropLast else rest
    let whole := rest.takeWhile isDigit
    match rest.dropWhile isDigit with
    | [] => !whole.isEmpty
    | '.' :: fraction => !fraction.isEmpty && fraction.all isDigit
    | _ => false
  | _ => false

def candidates (names : List (String × Target)) (word : String) : List (String × Token) :=
  if word.startsWith "--" then
    let (start, value) := splitEquals word
    names.filterMap fun (name, target) =>
      if name.startsWith start then some (name, .name target value) else none
  else if word.startsWith "-h" then [("-h", .letters (word.toList.drop 2))]
  else []

def tokenOf (names : List (String × Target)) (word : String) : Except Stop Token :=
  if !word.startsWith "-" then .ok (.value word)
  else match names.lookup word with
    | some target => .ok (.name target none)
    | none =>
      if word = "-" then .ok (.value word)
      else
        let (start, value) := splitEquals word
        match (if value.isSome then names.lookup start else none) with
        | some target => .ok (.name target value)
        | none =>
          match candidates names word with
          | [(_, token)] => .ok token
          | _ :: _ :: _ =>
            let fitting := ", ".intercalate ((candidates names word).map (·.1))
            .error (.refused s!"ambiguous option: {word} could match {fitting}")
          | [] =>
            if isNegativeNumber word || word.toList.contains ' ' then .ok (.value word)
            else .ok (.unknown word)

def tokensOf (names : List (String × Target)) : List String → Except Stop (List Token)
  | [] => .ok []
  | "--" :: rest => .ok (.dashes :: rest.map .value)
  | word :: rest => do return (← tokenOf names word) :: (← tokensOf names rest)

def readValue (a : Argument) (word : String) : Except Stop Literal :=
  let refuse (reason : String) : Except Stop Literal := .error ((Target.argument a).refuse reason)
  match a.kind with
  | .text | .switch => .ok (.text word)
  | .whole => match Decimal.readWhole? word with
    | some n => .ok (.whole n)
    | none => refuse s!"invalid int value: {Text.quote word}"
  | .real => match Decimal.readReal? word with
    | some x => .ok (.real x)
    | none => refuse s!"invalid float value: {Text.quote word}"
  | .choice names =>
    if names.contains word then .ok (.text word)
    else
      let listed := ", ".intercalate (names.map Text.quote)
      refuse s!"invalid choice: {Text.quote word} (choose from {listed})"

structure Reading where
  values : List (String × Literal)
  rest : List String

def accept (target : Target) (value : Literal) (r : Reading) : Except Stop Reading :=
  match target with
  | .help => .error .help
  | .argument a => .ok { r with values := (a.name, value) :: r.values }

def stopOf : List Char → Stop
  | 'h' :: '=' :: value => Target.help.ignored (String.ofList value)
  | 'h' :: rest => stopOf rest
  | '-' :: rest => Target.help.ignored (String.ofList ('-' :: rest))
  | _ => .help

def readTokens (r : Reading) : List Token → Except Stop Reading
  | [] => .ok r
  | .unknown word :: rest => readTokens { r with rest := r.rest ++ [word] } rest
  | .value word :: rest => readTokens { r with rest := r.rest ++ [word] } rest
  | .dashes :: rest => readTokens { r with rest := r.rest ++ ["--"] } rest
  | .letters cs :: _ => .error (stopOf cs)
  | .name target (some word) :: rest =>
    match target with
    | .argument a =>
      if target.takesValue then do
        readTokens (← accept target (← readValue a word) r) rest
      else .error (target.ignored word)
    | .help => .error (target.ignored word)
  | .name target none :: .value word :: rest =>
    match target with
    | .argument a =>
      if target.takesValue then do
        readTokens (← accept target (← readValue a word) r) rest
      else do readTokens (← accept target (.flag true) r) (.value word :: rest)
    | .help => .error .help
  | .name target none :: rest =>
    if target.takesValue then .error (target.refuse "expected one argument")
    else do readTokens (← accept target (.flag true) r) rest
termination_by tokens => tokens.length

def parse (arguments : List Argument) (words : List String) :
    Except Stop (List (String × Literal)) := do
  let names := namesOf arguments
  let r ← readTokens ⟨[], []⟩ (← tokensOf names words)
  let absent := arguments.filter fun a => a.required && (r.values.lookup a.name).isNone
  if !absent.isEmpty then
    let listed := ", ".intercalate (absent.map (·.name))
    throw (.refused s!"the following arguments are required: {listed}")
  if !r.rest.isEmpty then
    let listed := " ".intercalate r.rest
    throw (.refused s!"unrecognized arguments: {listed}")
  return arguments.map fun a => (a.name, (r.values.lookup a.name).getD a.initial)

end Passwise.Command
