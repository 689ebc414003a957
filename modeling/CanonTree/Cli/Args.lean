import CanonTree.Cli.Help
import CanonTree.Config.Basic

namespace CanonTree.Cli

inductive Command where
  | version
  | help (topic : Topic)
  | convert (inputs : List String) (output : Option String) (format : Option Format)
      (config : Option String)
  | types (format : Format)
  | stats (input : String) (format : Format)
deriving DecidableEq

inductive OptionName where
  | output | format | config
deriving DecidableEq

namespace OptionName

def ofLong? : String → Option OptionName
  | "output" => some output
  | "format" => some format
  | "config" => some config
  | _ => none

def ofShort? : Char → Option OptionName
  | 'o' => some output
  | 'f' => some format
  | 'c' => some config
  | _ => none

def accepts : OptionName → String → Bool
  | format, s => (Format.parse? s).isSome
  | output, s | config, s => !s.isEmpty

end OptionName

structure Given where
  positionals : List String := []
  options : List (OptionName × String) := []
  verbose : Bool := false
  help : Bool := false

def Given.withOption? (g : Given) (name : OptionName) (value : String) : Option Given :=
  if name.accepts value && !g.options.any (·.1 = name) then
    some { g with options := g.options ++ [(name, value)] }
  else none

def Given.withVerbose? (g : Given) : Option Given :=
  if g.verbose then none else some { g with verbose := true }

def Given.option? (g : Given) (name : OptionName) : Option String :=
  (g.options.find? (·.1 = name)).map (·.2)

/-- A value in an argument of its own must not look like an option. -/
def isValue (s : String) : Bool := !s.startsWith "-" || s = "-"

def dropEquals : List Char → List Char
  | '=' :: cs => cs
  | cs => cs

/-- The short options in one argument. The value of an option is the rest of the argument, or the
next argument if there is no rest; the result tells whether that was taken. -/
def readShorts (known : List OptionName) (next : Option String) :
    List Char → Given → Option (Given × Bool)
  | [], g => some (g, false)
  | 'v' :: cs, g => do
    let g ← g.withVerbose?
    readShorts known next cs g
  | 'h' :: _, g => some ({ g with help := true }, false)
  | c :: cs, g => do
    let name ← OptionName.ofShort? c
    if !known.contains name then none
    else if cs.isEmpty then
      let value ← next
      if isValue value then return (← g.withOption? name value, true) else none
    else return (← g.withOption? name (String.ofList (dropEquals cs)), false)

def readLong (known : List OptionName) (next : Option String) (cs : List Char) (g : Given) :
    Option (Given × Bool) := do
  let name := String.ofList (cs.takeWhile (· ≠ '='))
  match name, cs.dropWhile (· ≠ '=') with
  | "verbose", [] => return (← g.withVerbose?, false)
  | "help", [] => return ({ g with help := true }, false)
  | _, value =>
    let option ← OptionName.ofLong? name
    if !known.contains option then none
    else match value with
      | [] => do
        let value ← next
        if isValue value then return (← g.withOption? option value, true) else none
      | _ :: value => return (← g.withOption? option (String.ofList value), false)

/-- Reads the arguments behind a command. Behind two hyphens everything is a positional. -/
def readGiven (known : List OptionName) : List String → Given → Option Given
  | [], g => some g
  | arg :: args, g =>
    if g.help then some g
    else match arg.toList with
      | ['-', '-'] =>
        if args.contains "" then none else some { g with positionals := g.positionals ++ args }
      | '-' :: '-' :: cs =>
        match readLong known args.head? cs g with
        | some (g, true) => readGiven known args.tail g
        | some (g, false) => readGiven known args g
        | none => none
      | '-' :: c :: cs =>
        match readShorts known args.head? (c :: cs) g with
        | some (g, true) => readGiven known args.tail g
        | some (g, false) => readGiven known args g
        | none => none
      | [] => none
      | _ => readGiven known args { g with positionals := g.positionals ++ [arg] }
termination_by args => args.length
decreasing_by all_goals (simp only [List.length_tail, List.length_cons]; omega)

def Given.format? (g : Given) : Option Format := (g.option? .format).bind Format.parse?

def convertCommand? (g : Given) : Option Command :=
  if g.help then some (.help .convert)
  else if g.positionals.isEmpty then none
  else some (.convert g.positionals (g.option? .output) g.format? (g.option? .config))

def typesCommand? (g : Given) : Option Command :=
  if g.help then some (.help .types)
  else if g.positionals.isEmpty then some (.types (g.format?.getD .text))
  else none

def statsCommand? (g : Given) : Option Command :=
  if g.help then some (.help .stats)
  else match g.positionals with
    | [input] => some (.stats input (g.format?.getD .text))
    | _ => none

def commandNamed? (name : String) (args : List String) : Option Command :=
  match name with
  | "convert" => (readGiven [.output, .format, .config] args {}).bind convertCommand?
  | "types" => (readGiven [.format] args {}).bind typesCommand?
  | "stats" => (readGiven [.format] args {}).bind statsCommand?
  | "help" => (Topic.ofArgs? args).map .help
  | _ => none

def readFrontShorts (verbose : Bool) : List Char → Option (Sum Command Bool)
  | [] => some (.inr verbose)
  | 'v' :: cs => if verbose then none else readFrontShorts true cs
  | 'V' :: _ => some (.inl .version)
  | 'h' :: _ => some (.inl (.help .program))
  | _ => none

def readFront (verbose : Bool) : List String → Option Command
  | [] => none
  | arg :: args =>
    match arg.toList with
    | '-' :: '-' :: cs =>
      match String.ofList cs with
      | "verbose" => if verbose then none else readFront true args
      | "version" => some .version
      | "help" => some (.help .program)
      | _ => none
    | '-' :: c :: cs =>
      match readFrontShorts verbose (c :: cs) with
      | some (.inl command) => some command
      | some (.inr verbose) => readFront verbose args
      | none => none
    | _ => commandNamed? arg args

/-- The first argument that does not fit or asks for help decides. -/
def Command.ofArgs? (args : List String) : Option Command := readFront false args

end CanonTree.Cli
