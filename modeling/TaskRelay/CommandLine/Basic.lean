import TaskRelay.Text.Terminal

/-!
# Reading a command line

Each option takes one value, in the next argument or attached to its name (`--name=value`,
`-nvalue`, `-n=value`); there are no other arguments, and `-h` or `--help` asks for help. Arguments
are read from left to right. A value in an argument of its own is taken in only when the next
option is met or the arguments end, so that an argument that does not belong there is complained
about first.
-/

namespace TaskRelay.CommandLine

/-- An option for settings `σ`. -/
structure Flag (σ : Type) where
  long : String
  short : Option Char
  /-- What its value is called. -/
  placeholder : String
  /-- Takes a value in, or says what is wrong with it. -/
  take : String → σ → Except String σ

/-- How complaints name an option. -/
def Flag.shown {σ : Type} (f : Flag σ) : String :=
  "--" ++ f.long ++ " <" ++ f.placeholder ++ ">"

/-- What can be wrong with a command line. -/
inductive Complaint where
  /-- An argument that is no option. -/
  | unexpected (argument : String)
  /-- An option without its value. -/
  | missing (option : String)
  /-- An option that was given before. -/
  | repeated (option : String)
  /-- A value that the option refuses. -/
  | invalid (value option reason : String)
  /-- A value for an option that takes none. -/
  | excess (value option : String)
deriving DecidableEq, Repr

namespace Complaint

open Terminal (Style)

/-- What a complaint says. What it quotes is marked, whatever it holds; a reason is not. -/
def details : Complaint → String
  | .unexpected a => "unexpected argument '" ++ Style.marked.apply a ++ "' found"
  | .missing o => "a value is required for '" ++ Style.marked.apply o ++ "' but none was supplied"
  | .repeated o => "the argument '" ++ Style.marked.apply o ++ "' cannot be used multiple times"
  | .invalid v o reason =>
    "invalid value '" ++ Style.marked.apply v ++ "' for '" ++ Style.literal.apply o ++ "': " ++
      reason
  | .excess v o =>
    "unexpected value '" ++ Style.marked.apply v ++ "' for '" ++ Style.literal.apply o ++
      "' found; no more were expected"

/-- A complaint as a terminal shows it, with a hint at the option that asks for help. -/
def text (c : Complaint) : String :=
  Style.alert.apply "error:" ++ " " ++ c.details ++ "\n\nFor more information, try '" ++
    Style.literal.apply "--help" ++ "'.\n"

/-- A complaint where there is no terminal. -/
def message (c : Complaint) : String := Terminal.plain c.text

end Complaint

/-- Why reading ends early. -/
inductive Stop where
  | help
  | complaint (c : Complaint)
deriving DecidableEq, Repr

/-- What has been read. -/
structure Progress (σ : Type) where
  settings : σ
  /-- The names of the options whose values are taken in. -/
  taken : List String
  /-- The option that was met last, if its value is not taken in yet, with that value. -/
  pending : Option (Flag σ × Option String)

namespace Progress

variable {σ : Type}

/-- Nothing has been read. -/
def start (settings : σ) : Progress σ := ⟨settings, [], none⟩

/-- Takes in the value of an option. -/
def give (f : Flag σ) (value : String) (p : Progress σ) : Except Stop (Progress σ) :=
  if f.long ∈ p.taken then .error (.complaint (.repeated f.shown))
  else
    match f.take value p.settings with
    | .ok settings => .ok { p with settings := settings, taken := f.long :: p.taken }
    | .error reason => .error (.complaint (.invalid value f.shown reason))

/-- Takes in the value that is still pending. -/
def resolve (p : Progress σ) : Except Stop (Progress σ) :=
  match p.pending with
  | none => .ok p
  | some (f, none) => .error (.complaint (.missing f.shown))
  | some (f, some value) => give f value { p with pending := none }

/-- Meets an option whose value is to follow. -/
def await (f : Flag σ) (p : Progress σ) : Except Stop (Progress σ) :=
  p.resolve.map fun p => { p with pending := some (f, none) }

/-- Meets an option with its value. -/
def attach (f : Flag σ) (value : String) (p : Progress σ) : Except Stop (Progress σ) :=
  p.resolve.bind (give f value)

/-- Asks for help. -/
def help (p : Progress σ) : Except Stop (Progress σ) := p.resolve.bind fun _ => .error .help

/-- An argument that is no option is the value of the option in front of it. -/
def word (argument : String) (p : Progress σ) : Except Stop (Progress σ) :=
  match p.pending with
  | some (f, none) => .ok { p with pending := some (f, some argument) }
  | _ => .error (.complaint (.unexpected argument))

end Progress

section

variable {σ : Type} (flags : List (Flag σ))

/-- Splits at the first equals sign. -/
def splitEquals : List Char → List Char × Option (List Char)
  | [] => ([], none)
  | '=' :: rest => ([], some rest)
  | c :: rest => ((c :: (splitEquals rest).1), (splitEquals rest).2)

/-- Reads what follows two dashes. -/
def readLong (cs : List Char) (p : Progress σ) : Except Stop (Progress σ) :=
  let name := String.ofList (splitEquals cs).1
  let value := (splitEquals cs).2.map String.ofList
  match flags.find? fun f => f.long = name, value with
  | some f, some v => p.attach f v
  | some f, none => p.await f
  | none, value =>
    if name = "help" then
      match value with
      | some v => .error (.complaint (.excess v "--help"))
      | none => p.help
    else .error (.complaint (.unexpected ("--" ++ name)))

/-- Reads what follows one dash. -/
def readShort (c : Char) (rest : List Char) (p : Progress σ) : Except Stop (Progress σ) :=
  match flags.find? fun f => f.short = some c with
  | some f =>
    match rest with
    | [] => p.await f
    | '=' :: value => p.attach f (String.ofList value)
    | value => p.attach f (String.ofList value)
  | none =>
    if c = 'h' then p.help else .error (.complaint (.unexpected (String.ofList ['-', c])))

/-- Reads an argument. -/
def readArgument (argument : String) (p : Progress σ) : Except Stop (Progress σ) :=
  match argument.toList with
  | '-' :: '-' :: cs => readLong flags cs p
  | '-' :: c :: rest => readShort flags c rest p
  | _ => p.word argument

/-- Reads arguments. Behind two dashes there are no options. -/
def readArguments : List String → Progress σ → Except Stop (Progress σ)
  | [], p => p.resolve
  | argument :: rest, p =>
    if argument = "--" then
      match rest with
      | [] => p.resolve
      | surplus :: _ => .error (.complaint (.unexpected surplus))
    else (readArgument flags argument p).bind (readArguments rest)

/-- Reads a command line into settings. -/
def read (settings : σ) (arguments : List String) : Except Stop σ :=
  (readArguments flags arguments (.start settings)).map Progress.settings

end

end TaskRelay.CommandLine
