import TokenLedger.CommandLine.Options
import TokenLedger.Operation

/-!
# Commands

What can be asked on the command line, and how arguments are understood as one command. Options in
front of the command's name say which database and which keypair to use; where they are missing the
environment says it, and where that does not either, there is a default.
-/

namespace TokenLedger.CommandLine

inductive Command where
  | keygen (out? : Option String)
  /-- Create a mint, at the public key of a keypair file or of a new keypair. -/
  | init (decimals : UInt8) (mintKeypair? : Option String)
  /-- Create an account, the payer's own if no owner is named. -/
  | createAccount (mint : MintAddress) (owner? : Option Principal)
  | mint (mint : MintAddress) (recipient : Principal) (amount : UInt64)
  | transfer (mint : MintAddress) (recipient : Principal) (amount : UInt64)
  | burn (mint : MintAddress) (amount : UInt64)
  /-- Show a balance, the payer's own if no owner is named. -/
  | balance (mint : MintAddress) (owner? : Option Principal)
  | mintInfo (mint : MintAddress) (json : Bool)
deriving DecidableEq

/-- A command and the files it works with. -/
structure Arguments where
  database : String
  keypair : String
  command : Command
deriving DecidableEq

structure Environment where
  database? : Option String := none
  keypair? : Option String := none

/-! ## Values -/

/-- A path is any text but the empty one. -/
def readPath (text : String) : Except Stop String :=
  if text.isEmpty then .error (.usage none) else .ok text

/-- The number that a text of decimal digits stands for. -/
def digits? (text : List Char) : Option Nat :=
  if text ≠ [] ∧ text.all (fun c => '0' ≤ c ∧ c ≤ '9') then
    some (text.foldl (fun n c => 10 * n + (c.toNat - '0'.toNat)) 0)
  else none

/-- A natural number may have a plus sign. -/
def natural? (text : List Char) : Option Nat :=
  match text with
  | '+' :: rest => digits? rest
  | rest => digits? rest

/-- A number of decimals is below 256. A negative zero is a zero. -/
def readDecimals (text : String) : Except Stop UInt8 :=
  let value? := match text.toList with
    | '-' :: rest => (digits? rest).filter (· = 0)
    | rest => natural? rest
  match value? with
  | some n => if n < 256 then .ok (UInt8.ofNat n) else .error (.usage none)
  | none => .error (.usage none)

/-- An amount is a number of 64 bits. -/
def readAmount (text : String) : Except Stop UInt64 :=
  match natural? text.toList with
  | some n => if n < UInt64.size then .ok (UInt64.ofNat n) else .error (.usage none)
  | none => .error (.usage none)

def readMint (text : String) : Except Stop MintAddress :=
  match MintAddress.ofHex text with
  | .ok address => .ok address
  | .error e => .error (.usage (some ("invalid mint address: " ++ e.message)))

def readPrincipal (text : String) : Except Stop Principal :=
  match Principal.ofHex text with
  | .ok principal => .ok principal
  | .error e => .error (.usage (some ("invalid public key: " ++ e.message)))

/-! ## Options -/

def OptionSpec.reads {α : Type} (name : String) (letter? : Option Char)
    (read : String → Except Stop α) : OptionSpec :=
  { name, letter?, role := .value fun text => discard (read text) }

def helpOption : OptionSpec := { name := "help", letter? := some 'h', role := .help }

def versionOption : OptionSpec := { name := "version", letter? := some 'V', role := .version }

def databaseOption : OptionSpec := .reads "db" none readPath

def keypairOption : OptionSpec := .reads "keypair" (some 'k') readPath

def outOption : OptionSpec := .reads "out" (some 'o') readPath

def decimalsOption : OptionSpec := .reads "decimals" (some 'd') readDecimals

def mintKeypairOption : OptionSpec := .reads "mint-keypair" (some 'm') readPath

def mintOption : OptionSpec := .reads "mint" (some 'm') readMint

def ownerOption : OptionSpec := .reads "owner" (some 'o') readPrincipal

def recipientOption : OptionSpec := .reads "to" (some 't') readPrincipal

def amountOption : OptionSpec := .reads "amount" (some 'a') readAmount

def jsonOption : OptionSpec := { name := "json", letter? := none, role := .flag }

/-- Options by name, with their values. -/
abbrev Given := List (String × String)

def Given.optional {α : Type} (given : Given) (name : String) (read : String → Except Stop α) :
    Except Stop (Option α) :=
  match List.lookup name given with
  | none => .ok none
  | some text => (read text).map some

def Given.required {α : Type} (given : Given) (name : String) (read : String → Except Stop α) :
    Except Stop α := do
  match ← given.optional name read with
  | some value => return value
  | none => throw (.usage none)

/-! ## Commands by name -/

/-- The options in front of a command's name. -/
def commonOptions : List OptionSpec := [databaseOption, keypairOption, helpOption, versionOption]

structure CommandSpec where
  name : String
  options : List OptionSpec
  build : Given → Except Stop Command

def paymentOptions : List OptionSpec := [mintOption, recipientOption, amountOption]

/-- A command that sends someone an amount. -/
def buildPayment (command : MintAddress → Principal → UInt64 → Command) (given : Given) :
    Except Stop Command := do
  return command (← given.required "mint" readMint) (← given.required "to" readPrincipal)
    (← given.required "amount" readAmount)

/-- A command about an account that may be the payer's own. -/
def buildHolding (command : MintAddress → Option Principal → Command) (given : Given) :
    Except Stop Command := do
  return command (← given.required "mint" readMint) (← given.optional "owner" readPrincipal)

def commandSpecs : List CommandSpec :=
  [ { name := "keygen"
      options := [outOption]
      build := fun given => do return .keygen (← given.optional "out" readPath) },
    { name := "init"
      options := [decimalsOption, mintKeypairOption]
      build := fun given => do
        return .init (← given.required "decimals" readDecimals)
          (← given.optional "mint-keypair" readPath) },
    { name := "create-account"
      options := [mintOption, ownerOption]
      build := buildHolding .createAccount },
    { name := "mint", options := paymentOptions, build := buildPayment .mint },
    { name := "transfer", options := paymentOptions, build := buildPayment .transfer },
    { name := "burn"
      options := [mintOption, amountOption]
      build := fun given => do
        return .burn (← given.required "mint" readMint) (← given.required "amount" readAmount) },
    { name := "balance"
      options := [mintOption, ownerOption]
      build := buildHolding .balance },
    { name := "mint-info"
      options := [mintOption, jsonOption]
      build := fun given => do
        return .mintInfo (← given.required "mint" readMint)
          (List.lookup "json" given).isSome } ]

/-- The word that asks for help, about a command if one is named. -/
def helpWord : String := "help"

/-- What follows a request for help. -/
def readHelp : List String → Stop
  | [] => .help
  | [name] =>
    if name = helpWord || (commandSpecs.find? (·.name = name)).isSome then .help else .usage none
  | _ => .usage none

/-- Reads a command from its name and the arguments behind it. -/
def readCommand (name : String) (arguments : List String) : Except Stop Command :=
  if name = helpWord then .error (readHelp arguments)
  else
    match commandSpecs.find? (·.name = name) with
    | none => .error (.usage none)
    | some spec => do
      let reading ← readOptions (helpOption :: spec.options) .empty arguments
      spec.build reading.given

/-- A path from the options, or else from the environment, or else the default. -/
def choosePath (given : Given) (name : String) (environment? : Option String) (default : String) :
    Except Stop String := do
  match ← given.optional name readPath, environment? with
  | some path, _ => return path
  | none, some path => readPath path
  | none, none => return default

/-- Understands the arguments. The command is read before the options in front of it are settled. -/
def Arguments.read (environment : Environment) (arguments : List String) :
    Except Stop Arguments := do
  let (reading, name, rest) ← readUntilWord commonOptions .empty arguments
  let command ← readCommand name rest
  let reading ← reading.settle
  return {
    database := ← choosePath reading.given "db" environment.database? "mintledger.db"
    keypair := ← choosePath reading.given "keypair" environment.keypair? "mintledger-keypair.json"
    command }

end TokenLedger.CommandLine
