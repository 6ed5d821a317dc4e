/-!
# Options on a command line

How arguments are taken for options and their values. An option goes by a long name, and most go by
a letter too; its value follows as an argument of its own, or is attached to the option. Letters of
several options without values can share an argument. A value that stands by itself is looked at
only when the next option comes up or the arguments end, so what is wrong with it may be noticed
after something else that is wrong further on. After the argument `--` there are no options.
-/

namespace TokenLedger.CommandLine

/-- Why reading stops before the arguments have been understood. -/
inductive Stop where
  | help
  | version
  /-- The arguments are not as they should be; there may be a text about a value refused. -/
  | usage (message? : Option String)
deriving DecidableEq

inductive OptionRole where
  /-- Takes a value, which is checked. -/
  | value (check : String → Except Stop Unit)
  | flag
  | help
  | version

structure OptionSpec where
  name : String
  letter? : Option Char
  role : OptionRole

structure Reading where
  /-- The options given, by name, with their values. -/
  given : List (String × String)
  /-- An option whose value is to follow or has followed, but has not been looked at. -/
  pending? : Option (OptionSpec × Option String)

namespace Reading

def empty : Reading := { given := [], pending? := none }

/-- Whether the next argument may be the value of an option. -/
def awaitsValue (reading : Reading) : Bool :=
  match reading.pending? with
  | some (_, none) => true
  | _ => false

/-- Takes an option down. No option can be given twice, and a value has to pass its check. -/
def record (reading : Reading) (spec : OptionSpec) (value : String)
    (check : String → Except Stop Unit) : Except Stop Reading := do
  if (reading.given.lookup spec.name).isSome then throw (.usage none)
  check value
  return { reading with given := reading.given ++ [(spec.name, value)] }

/-- Looks at the option whose turn has come. -/
def settle (reading : Reading) : Except Stop Reading :=
  let rest := { reading with pending? := none }
  match reading.pending? with
  | none => .ok rest
  | some (_, none) => .error (.usage none)
  | some (spec, some value) =>
    match spec.role with
    | .value check => rest.record spec value check
    | _ => .ok rest

/-- An option comes up, with or without a value attached to it. -/
def take (reading : Reading) (spec : OptionSpec) (attached? : Option String) :
    Except Stop Reading := do
  match spec.role, attached? with
  | .value check, some value => (← reading.settle).record spec value check
  | .value _, none => return { ← reading.settle with pending? := some (spec, none) }
  | .flag, none => (← reading.settle).record spec "" fun _ => .ok ()
  | .help, none => let _ ← reading.settle; throw .help
  | .version, none => let _ ← reading.settle; throw .version
  | _, some _ => throw (.usage none)

/-- The text behind an equals sign, or all of it where there is none at the front. -/
def attachedText : List Char → String
  | '=' :: value => String.ofList value
  | value => String.ofList value

/-- Reads the letters of an argument. What follows the letter of an option with a value is the
    value, unless nothing does. -/
def takeLetters (specs : List OptionSpec) (reading : Reading) :
    List Char → Except Stop Reading
  | [] => .ok reading
  | letter :: rest =>
    match specs.find? (·.letter? = some letter) with
    | none => .error (.usage none)
    | some spec =>
      match spec.role with
      | .value _ => reading.take spec (if rest.isEmpty then none else some (attachedText rest))
      | _ =>
        match reading.take spec none with
        | .ok reading => takeLetters specs reading rest
        | .error stop => .error stop

/-- Reads a long name, with a value attached behind an equals sign. -/
def takeLong (specs : List OptionSpec) (reading : Reading) (text : List Char) :
    Except Stop Reading :=
  let name := String.ofList (text.takeWhile (· ≠ '='))
  match specs.find? (·.name = name) with
  | none => .error (.usage none)
  | some spec =>
    match text.dropWhile (· ≠ '=') with
    | [] => reading.take spec none
    | _ :: value => reading.take spec (some (String.ofList value))

/-- Reads an argument that is no word of its own. -/
def takeArgument (specs : List OptionSpec) (reading : Reading) (argument : String) :
    Except Stop Reading :=
  match argument.toList with
  | '-' :: '-' :: text => takeLong specs reading text
  | '-' :: letter :: rest => takeLetters specs reading (letter :: rest)
  | _ =>
    match reading.pending? with
    | some (spec, none) => .ok { reading with pending? := some (spec, some argument) }
    | _ => .error (.usage none)

end Reading

/-- Reads the arguments of a command that has no commands of its own. -/
def readOptions (specs : List OptionSpec) (reading : Reading) :
    List String → Except Stop Reading
  | [] => reading.settle
  | ["--"] => reading.settle
  | "--" :: _ => .error (.usage none)
  | argument :: rest =>
    match reading.takeArgument specs argument with
    | .ok reading => readOptions specs reading rest
    | .error stop => .error stop

/-- Reads options up to a word that is not the value of one, which is answered with the arguments
    behind it. There has to be one. The last option before it is not looked at yet. -/
def readUntilWord (specs : List OptionSpec) (reading : Reading) :
    List String → Except Stop (Reading × String × List String)
  | [] => .error (.usage none)
  | "--" :: _ => .error (.usage none)
  | argument :: rest =>
    if argument.startsWith "-" && argument ≠ "-" || reading.awaitsValue then
      match reading.takeArgument specs argument with
      | .ok reading => readUntilWord specs reading rest
      | .error stop => .error stop
    else .ok (reading, argument, rest)

end TokenLedger.CommandLine
