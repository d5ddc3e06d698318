/-
The commands of the command line and how their words are read. Options may be written `--name v`,
`--name=v`, `-n v`, `-nv` or `-n=v`. An option counts as given only when the next one is met or the
words end, so an unknown word is reported before a fault of the option ahead of it.
-/
namespace Backtest

inductive Command where
  | backtest (settings : String) (strategy symbol output : Option String)
  | validate (strategy : String)
  | info (settings : String) (symbol : Option String)
  deriving DecidableEq

/-- Why words are no command. -/
inductive UsageError where
  /-- The words ask for help. -/
  | help
  | noCommand
  | unknownCommand
  | unknownArgument
  | missingOption
  /-- An option without its value, or an empty path. -/
  | invalidValue
  | repeatedOption
  /-- A value for an option that takes none. -/
  | surplusValue
  deriving DecidableEq

/-- The exit code: 0 for help and 2 for words that cannot be read. -/
def UsageError.exitCode : UsageError → Nat
  | help => 0
  | _ => 2

/-! ## Options -/

/-- An option, which always takes a value. -/
structure CommandOption where
  name : String
  letter : Option Char
  isPath : Bool
  isRequired : Bool
  deriving DecidableEq

/-- The values given so far, and the option that was named last with its value if it has one. -/
structure GivenOptions where
  values : List (String × String)
  pending : Option (CommandOption × Option String)

namespace GivenOptions

def value? (given : GivenOptions) (name : String) : Option String :=
  (given.values.find? (·.1 = name)).map (·.2)

/-- Count the option that was named last as given. -/
def settle (given : GivenOptions) : Except UsageError GivenOptions :=
  match given.pending with
  | none => .ok given
  | some (_, none) => .error .invalidValue
  | some (o, some value) =>
    if (given.value? o.name).isSome then .error .repeatedOption
    else if o.isPath ∧ value = "" then .error .invalidValue
    else .ok ⟨given.values ++ [(o.name, value)], none⟩

/-- Take in an option, with the value that is attached to it if there is one. -/
def named (given : GivenOptions) (o : CommandOption) (value : Option String) :
    Except UsageError GivenOptions := do
  let settled ← given.settle
  let given : GivenOptions := { settled with pending := some (o, value) }
  match value with
  | none => return given
  | some _ => given.settle

/-- Help is asked for, unless the option ahead is at fault. -/
def help (given : GivenOptions) : UsageError :=
  match given.settle with
  | .ok _ => .help
  | .error e => e

end GivenOptions

/-- The shapes of a word. -/
inductive CommandWord where
  | long (name : String) (value : Option String)
  /-- A letter and what follows it. -/
  | short (letter : Char) (rest : List Char)
  | plain (text : String)

def CommandWord.ofText (text : String) : CommandWord :=
  match text.toList with
  | '-' :: '-' :: rest =>
    let name := String.ofList (rest.takeWhile (· != '='))
    match rest.dropWhile (· != '=') with
    | [] => .long name none
    | _ :: value => .long name (some (String.ofList value))
  | '-' :: letter :: rest => .short letter rest
  | _ => .plain text

/-- The value attached to a letter. -/
def attachedValue : List Char → Option String
  | [] => none
  | '=' :: value => some (String.ofList value)
  | value => some (String.ofList value)

/-- Take in one word. -/
def GivenOptions.take (options : List CommandOption) (given : GivenOptions) (word : String) :
    Except UsageError GivenOptions :=
  match CommandWord.ofText word with
  | .long name value =>
    if name = "help" then .error (if value.isSome then .surplusValue else given.help)
    else
      match options.find? (·.name = name) with
      | some o => given.named o value
      | none => .error .unknownArgument
  | .short letter rest =>
    if letter = 'h' then .error given.help
    else
      match options.find? (·.letter = some letter) with
      | some o => given.named o (attachedValue rest)
      | none => .error .unknownArgument
  | .plain text =>
    match given.pending with
    | some (o, none) => .ok { given with pending := some (o, some text) }
    | _ => .error .unknownArgument

/-- The word that ends the options. -/
def endOfOptions : String := "--"

/-- Take in all words. Nothing may follow the end of the options. -/
def GivenOptions.takeAll (options : List CommandOption) :
    GivenOptions → List String → Except UsageError GivenOptions
  | given, [] => given.settle
  | given, word :: rest =>
    if word = endOfOptions then
      match rest with
      | [] => given.settle
      | _ :: _ => .error .unknownArgument
    else do
      let given ← given.take options word
      takeAll options given rest

/-- The values that the words give to options, of which the required ones must be there. -/
def readOptions (options : List CommandOption) (words : List String) :
    Except UsageError GivenOptions := do
  let given ← GivenOptions.takeAll options ⟨[], none⟩ words
  if options.all fun o => !o.isRequired || (given.value? o.name).isSome then return given
  else .error .missingOption

/-! ## Commands -/

inductive CommandName where
  | backtest
  | validate
  | info
  deriving DecidableEq

namespace CommandName

def ofText? : String → Option CommandName
  | "backtest" => some backtest
  | "validate" => some validate
  | "info" => some info
  | _ => none

def options : CommandName → List CommandOption
  | backtest =>
    [⟨"config", some 'c', true, true⟩, ⟨"strategy", some 's', true, false⟩,
      ⟨"symbol", none, false, false⟩, ⟨"output", some 'o', true, false⟩]
  | validate => [⟨"strategy", some 's', true, true⟩]
  | info => [⟨"config", some 'c', true, true⟩, ⟨"symbol", none, false, false⟩]

/-- The command with the given options. -/
def command (name : CommandName) (given : GivenOptions) : Command :=
  let path option := (given.value? option).getD ""
  match name with
  | backtest =>
    .backtest (path "config") (given.value? "strategy") (given.value? "symbol")
      (given.value? "output")
  | validate => .validate (path "strategy")
  | info => .info (path "config") (given.value? "symbol")

end CommandName

namespace Command

/-- The word that asks for help on a command. -/
def helpWord : String := "help"

/-- What words after the one for help say: at most one command, or help itself. -/
def helpError : List String → UsageError
  | [] => .help
  | [word] => if word = helpWord ∨ (CommandName.ofText? word).isSome then .help else .unknownCommand
  | _ => .unknownCommand

/-- The error for words that do not start with a command. -/
def wordError (word : String) (rest : List String) : UsageError :=
  if word = helpWord then helpError rest
  else if word = endOfOptions then
    match rest with
    | [] => .noCommand
    | next :: _ =>
      if next = helpWord ∨ (CommandName.ofText? next).isSome then .unknownArgument
      else .unknownCommand
  else
    match CommandWord.ofText word with
    | .long name value =>
      if name = "help" then if value.isSome then .surplusValue else .help else .unknownArgument
    | .short letter _ => if letter = 'h' then .help else .unknownArgument
    | .plain _ => .unknownCommand

/-- The command that words spell. -/
def ofWords : List String → Except UsageError Command
  | [] => .error .noCommand
  | word :: rest =>
    match CommandName.ofText? word with
    | some name => return name.command (← readOptions name.options rest)
    | none => .error (wordError word rest)

end Command
end Backtest
