import CilPatch.Game.Config

/-!
# Command line options

The command line names one command. Options that concern all commands may stand before or after
it, those of one command only after it. Each option is given once on each side; what is given
after the command counts.
-/

namespace CilPatch.Cli

/-- What is to be done. -/
inductive Command where
  /-- Patch the executable. -/
  | patch
  /-- Put the backup back. -/
  | restore
  /-- Say where the patches would go. -/
  | info
  deriving DecidableEq

/-- An option by its meaning. -/
inductive Key where
  /-- The game directory. -/
  | directory
  /-- The name of the executable. -/
  | exe
  /-- Answers are to be JSON. -/
  | json
  /-- All notices are to be shown. -/
  | verbose
  /-- The number of projectile slots. -/
  | maxProjectiles
  /-- The local variable that holds the item in use. -/
  | heldItemLocal
  /-- No backup is to be kept. -/
  | noBackup
  deriving DecidableEq

/-- What help is asked about. -/
inductive Topic where
  /-- The whole program. -/
  | program
  /-- One command. -/
  | command (asked : Command)
  /-- Asking for help. -/
  | help
  deriving DecidableEq

/-- Why a command line is not carried out. -/
inductive Stop where
  /-- It is wrong. -/
  | refused
  /-- It asks for help. -/
  | help (topic : Topic)
  /-- It asks for the version. -/
  | version
  deriving DecidableEq

/-- A command line that can be carried out. -/
structure Options where
  /-- What is to be done. -/
  command : Command
  /-- The game directory, if one is given. -/
  directory : Option String
  /-- The name of the executable. -/
  exe : String
  /-- Whether answers are to be JSON. -/
  json : Bool
  /-- Whether all notices are to be shown. -/
  verbose : Bool
  /-- The number of projectile slots. -/
  maxProjectiles : Int32
  /-- The local variable that holds the item in use. -/
  heldItemLocal : UInt16
  /-- Whether a backup is to be kept. -/
  backup : Bool

namespace Command

/-- All commands. -/
def all : List Command := [patch, restore, info]

/-- The name of a command. -/
def name : Command → String
  | patch => "patch"
  | restore => "restore"
  | info => "info"

/-- The command with a name. -/
def ofName? (name : String) : Option Command := all.find? (·.name == name)

end Command

namespace Key

/-- All options, in the order in which help lists them. -/
def all : List Key :=
  [directory, maxProjectiles, exe, heldItemLocal, json, noBackup, verbose]

/-- The long name of an option. -/
def long : Key → String
  | directory => "dir"
  | exe => "exe"
  | json => "json"
  | verbose => "verbose"
  | maxProjectiles => "max-projectiles"
  | heldItemLocal => "held-item-local"
  | noBackup => "no-backup"

/-- The short name of an option. -/
def short? : Key → Option Char
  | directory => some 'd'
  | verbose => some 'v'
  | _ => none

/-- What help calls the value of an option, if it comes with one. -/
def valueName? : Key → Option String
  | directory => some "DIR"
  | exe => some "NAME"
  | maxProjectiles => some "MAX_PROJECTILES"
  | heldItemLocal => some "HELD_ITEM_LOCAL"
  | json | verbose | noBackup => none

/-- Whether an option comes with a value. -/
def takesValue (key : Key) : Bool := key.valueName?.isSome

/-- Whether an option can be given behind a command, or in front of any. -/
def isOffered (command : Option Command) : Key → Bool
  | directory | exe | json | verbose => true
  | maxProjectiles | heldItemLocal | noBackup => command == some .patch

/-- The option with a long name, in front of the command or behind it. -/
def ofLong? (command : Option Command) (name : String) : Option Key :=
  all.find? fun key => key.isOffered command && key.long == name

/-- The option with a short name. -/
def ofShort? (letter : Char) : Option Key := all.find? (·.short? == some letter)

end Key

/-- A whole number in decimal digits, which may have a sign in front. -/
def wholeNumber? (text : String) : Option Int :=
  let digits (chars : List Char) : Option Int :=
    if chars.isEmpty || !chars.all Char.isDigit then none
    else some (chars.foldl (fun value c => 10 * value + (c.toNat - '0'.toNat : Nat)) 0)
  match text.toList with
  | '-' :: rest => (digits rest).map (- ·)
  | '+' :: rest => digits rest
  | chars => digits chars

/-- Whether a value can be given to an option. -/
def Key.accepts (value : String) : Key → Bool
  | directory => !value.isEmpty
  | maxProjectiles => (wholeNumber? value).any fun number => 1 ≤ number && number < 0x80000000
  | heldItemLocal => (wholeNumber? value).any fun number => 0 ≤ number && number < 0x10000
  | _ => true

/-- Options with their values, the last one first. -/
abbrev Given := List (Key × String)

/-- Takes an option with its value. -/
def give (given : Given) (key : Key) (value : String) : Except Stop Given :=
  if (given.lookup key).isSome || !key.accepts value then .error .refused
  else .ok ((key, value) :: given)

/-- Whether an argument has the form of an option. -/
def isDashed (argument : String) : Bool := argument.startsWith "-" && argument != "-"

/-- A text in front of the first equals sign and what follows that. -/
def splitValue (text : String) : String × Option String :=
  let chars := text.toList
  let name := String.ofList (chars.takeWhile (· != '='))
  match chars.dropWhile (· != '=') with
  | [] => (name, none)
  | _ :: value => (name, some (String.ofList value))

/-- What help is asked about behind a command, or in front of any. -/
def Topic.ofCommand? (command : Option Command) : Topic :=
  (command.map Topic.command).getD .program

/-- What help is asked about by names of commands. -/
def Topic.ofNames? : List String → Option Topic
  | [] => some .program
  | ["help"] => some .help
  | [name] => (Command.ofName? name).map .command
  | _ => none

/-- What an option argument leaves to do: nothing, or to take the next argument as a value. -/
abbrev Pending := Given × Option Key

/-- Reads an argument that starts with two dashes, without them. -/
def readLong (command : Option Command) (given : Given) (text : String) :
    Except Stop Pending :=
  let (name, value) := splitValue text
  match Key.ofLong? command name with
  | some key =>
      match key.takesValue, value with
      | true, some value => (give given key value).map (·, none)
      | true, none => .ok (given, some key)
      | false, none => (give given key "").map (·, none)
      | false, some _ => .error .refused
  | none =>
      if value.isSome then .error .refused
      else if name = "help" then .error (.help (.ofCommand? command))
      else if name = "version" ∧ command = none then .error .version
      else .error .refused

/-- Reads the letters of an argument that starts with one dash. -/
def readShort (command : Option Command) : Given → List Char → Except Stop Pending
  | given, [] => .ok (given, none)
  | given, letter :: rest =>
      match Key.ofShort? letter with
      | some key =>
          if key.takesValue then
            match rest with
            | [] => .ok (given, some key)
            | '=' :: value => (give given key (String.ofList value)).map (·, none)
            | value => (give given key (String.ofList value)).map (·, none)
          else do
            let given ← give given key ""
            readShort command given rest
      | none =>
          if letter = 'h' then .error (.help (.ofCommand? command))
          else if letter = 'V' ∧ command = none then .error .version
          else .error .refused

/-- What the arguments give: the command, the options in front of it and those behind it. -/
structure Parsed where
  /-- The command. -/
  command : Option Command := none
  /-- The options in front of the command. -/
  before : Given := []
  /-- The options behind the command. -/
  after : Given := []

/-- The options on the side of the command that is being read. -/
def Parsed.given (parsed : Parsed) : Given :=
  if parsed.command.isSome then parsed.after else parsed.before

/-- Other options on the side of the command that is being read. -/
def Parsed.withGiven (parsed : Parsed) (given : Given) : Parsed :=
  if parsed.command.isSome then { parsed with after := given } else { parsed with before := given }

/-- Reads arguments; the first may be the value of an option. -/
def readArguments (parsed : Parsed) : Option Key → List String → Except Stop Parsed
  | none, [] => .ok parsed
  | some _, [] => .error .refused
  | some key, value :: rest => do
      if isDashed value then throw .refused
      readArguments (parsed.withGiven (← give parsed.given key value)) none rest
  | none, argument :: rest => do
      if argument = "--" then
        if rest.isEmpty then return parsed else throw .refused
      else if isDashed argument then
        let (given, key) ←
          if argument.startsWith "--" then
            readLong parsed.command parsed.given (String.ofList (argument.toList.drop 2))
          else readShort parsed.command parsed.given (argument.toList.drop 1)
        readArguments (parsed.withGiven given) key rest
      else if parsed.command.isSome then throw .refused
      else if argument = "help" then
        throw (((Topic.ofNames? rest).map Stop.help).getD .refused)
      else
        match Command.ofName? argument with
        | none => throw .refused
        | some command => readArguments { parsed with command := some command } none rest

/-- The command line that arguments give. -/
def Options.ofArguments (arguments : List String) : Except Stop Options := do
  let parsed ← readArguments {} none arguments
  let value? (key : Key) : Option String :=
    (parsed.after.lookup key).orElse fun _ => parsed.before.lookup key
  let number (key : Key) (fallback : Int) : Int :=
    ((value? key).bind wholeNumber?).getD fallback
  match parsed.command with
  | none => throw .refused
  | some command =>
      return {
        command
        directory := value? .directory
        exe := (value? .exe).getD "Terraria.exe"
        json := (value? .json).isSome
        verbose := (value? .verbose).isSome
        maxProjectiles := Int32.ofInt (number .maxProjectiles 1000)
        heldItemLocal := UInt16.ofNat (number .heldItemLocal 1).toNat
        backup := (value? .noBackup).isNone }

/-- The configuration for a command line in an environment. -/
def Options.config (options : Options) (env : String → Option String) : Config :=
  let config := match options.directory with
    | some directory => { Config.ofHome env with directory }
    | none => Config.ofEnv env
  let config := { config with exeName := options.exe }
  if options.command = .patch then
    { config with
      maxProjectiles := options.maxProjectiles
      heldItemLocal := options.heldItemLocal
      backup := options.backup }
  else config

end CilPatch.Cli
