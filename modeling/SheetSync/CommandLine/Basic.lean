/-!
What the command line asks for. Arguments are read from left to right: the first one that cannot be
meant, or the first request for help, decides, whatever comes behind it. No option may be given
twice at one level, and the value of an option never starts with a dash unless it is the dash alone
or is joined to its option by an equals sign.
-/
namespace SheetSync.CommandLine

/-- What there is help on. -/
inductive Topic where
  | program
  | simulate
  | signature
  | help
deriving DecidableEq, Inhabited

/-- The options of a simulation. -/
structure SimulateOptions where
  operations : Nat := 1000
  seed : UInt64 := 42
  directory : Option String := none
  config : Option String := none
  stopsAtViolation : Bool := false
deriving DecidableEq, Inhabited

/-- What is asked for. -/
inductive Command where
  | overview
  | version
  | help (topic : Topic)
  | simulate (options : SimulateOptions)
  | signature (path : String)
deriving DecidableEq, Inhabited

/-- The form of an argument. -/
inductive Token where
  | escape
  | long (name : String) (value : Option String)
  | short (letter : Char)
  | plain (text : String)
deriving DecidableEq, Inhabited

/-- The part before the first equals sign, and the part behind it. -/
def splitValue (cs : List Char) : String × Option String :=
  (String.ofList (cs.takeWhile (· ≠ '=')),
    match cs.dropWhile (· ≠ '=') with
    | _ :: value => some (String.ofList value)
    | [] => none)

/-- The form of an argument; of letters behind one dash only the first is told. -/
def Token.ofArgument (arg : String) : Token :=
  match arg.toList with
  | ['-', '-'] => .escape
  | '-' :: '-' :: cs => let (name, value) := splitValue cs; .long name value
  | '-' :: c :: _ => .short c
  | _ => .plain arg

/-- What arguments say below the level of the whole program. -/
inductive Item where
  | option (name value : String)
  | flag (name : String)
  | word (text : String)
  | wrong
deriving DecidableEq, Inhabited

/-- Reads arguments, given which options take values and which do not. -/
def items (valued flags : List String) : List String → List Item
  | [] => []
  | arg :: rest =>
    match Token.ofArgument arg with
    | .escape => rest.map .word
    | .plain text => .word text :: items valued flags rest
    | .short c => if c = 'h' then [.flag "help"] else [.wrong]
    | .long name (some value) =>
      if name ∈ valued then .option name value :: items valued flags rest else [.wrong]
    | .long name none =>
      if name ∈ flags then .flag name :: items valued flags rest
      else if name ∈ valued then
        match rest with
        | [] => [.wrong]
        | next :: rest =>
          match Token.ofArgument next with
          | .plain value => .option name value :: items valued flags rest
          | _ => [.wrong]
      else [.wrong]

/-- Takes up items one after the other; help ends that, which gives none inside. -/
def gather {σ : Type} (take : Item → σ → Option σ) :
    List Item → List String → σ → Option (Option σ)
  | [], _, s => some (some s)
  | item :: rest, given, s =>
    let name? := match item with
      | .option name _ | .flag name => some name
      | _ => none
    match name? with
    | none => do gather take rest given (← take item s)
    | some name =>
      if name = "help" then some none
      else if name ∈ given then none
      else do gather take rest (name :: given) (← take item s)

/-- A number of 64 bits, with or without a plus sign in front. -/
def number? (text : String) : Option Nat :=
  let digits := match text.toList with
    | '+' :: ds => ds
    | ds => ds
  if digits ≠ [] ∧ digits.all Char.isDigit then
    let n := digits.foldl (fun n d => 10 * n + (d.toNat - '0'.toNat)) 0
    if n < Nat.pow 2 64 then some n else none
  else none

/-- A path, which must not be empty. -/
def path? (text : String) : Option String := if text = "" then none else some text

def takeSimulate : Item → SimulateOptions → Option SimulateOptions
  | .option "ops" value, o => do return { o with operations := ← number? value }
  | .option "seed" value, o => do return { o with seed := UInt64.ofNat (← number? value) }
  | .option "dir" value, o => do return { o with directory := some (← path? value) }
  | .option "config" value, o => do return { o with config := some (← path? value) }
  | .option "log-level" _, o => some o
  | .flag "stop-on-violation", o => some { o with stopsAtViolation := true }
  | _, _ => none

/-- Takes up one path. -/
def takePath : Item → Option String → Option (Option String)
  | .option "log-level" _, path => some path
  | .word text, none => some (some text)
  | _, _ => none

def simulate? (args : List String) : Option Command := do
  let flags := ["help", "stop-on-violation"]
  match ← gather takeSimulate (items ["ops", "seed", "dir", "config", "log-level"] flags args) [] {}
    with
  | some options => return .simulate options
  | none => return .help .simulate

def signature? (args : List String) : Option Command := do
  match ← gather takePath (items ["log-level"] ["help"] args) [] none with
  | some path => return .signature (← path)
  | none => return .help .signature

/-- Help on the commands named, which must lead from one to the next. -/
def help? : List String → Option Command
  | [] => some (.help .program)
  | ["simulate"] => some (.help .simulate)
  | ["signature"] => some (.help .signature)
  | ["help"] => some (.help .help)
  | _ => none

/-- Reads the arguments of the program; `leveled` tells that a log level was given. -/
def read? (leveled : Bool) : List String → Option Command
  | [] => some .overview
  | arg :: rest =>
    match Token.ofArgument arg with
    | .escape => if rest = [] then some .overview else none
    | .plain "simulate" => simulate? rest
    | .plain "signature" => signature? rest
    | .plain "help" => help? rest
    | .plain _ => none
    | .short 'h' | .long "help" none => some (.help .program)
    | .short 'V' | .long "version" none => some .version
    | .long "log-level" (some _) => if leveled then none else read? true rest
    | .long "log-level" none =>
      match rest with
      | [] => none
      | next :: rest =>
        match Token.ofArgument next with
        | .plain _ => if leveled then none else read? true rest
        | _ => none
    | _ => none

/-- Reads the arguments of the program; none if they make no sense. -/
def command? (args : List String) : Option Command := read? false args

end SheetSync.CommandLine
