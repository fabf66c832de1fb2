import CilPatch.Cli.Options
import CilPatch.Text.Lines
import CilPatch.Text.Terminal

/-!
# Help

The help on a topic says what it is about, how it is called and what can be given to it. Names
stand in one column and their explanations in another. Where the names are long and an
explanation has no room beside them, all explanations stand on lines of their own.
-/

namespace CilPatch.Cli

/-- The name of the program. -/
def programName : String := "autofish"

/-- The version of the program. -/
def version : String := "0.2.0"

/-- What a command does. -/
def Command.about : Command → String
  | patch => "Patch the executable, keeping a backup of the original"
  | restore => "Copy the backup over the executable"
  | info => "Show the executable, its backup state and where the patches would go"

/-- What an option says. -/
def Key.about : Key → String
  | directory => "Game directory. Defaults to TERRARIA_DIR, then the Steam install location"
  | exe => "File name of the game executable [default: Terraria.exe]"
  | json => "Emit output as JSON instead of human-readable text"
  | verbose => "Enable verbose (debug-level) logging output"
  | maxProjectiles => "Number of projectile slots the recast check scans [default: 1000]"
  | heldItemLocal => "Local slot of Player.ItemCheck holding the item in use [default: 1]"
  | noBackup => "Do not create or update the backup and hash file"

namespace Help

/-- How wide a line may become. -/
def lineWidth : Nat := 100

/-- A part of a line. -/
inductive Span where
  /-- What a list is about. -/
  | heading (text : String)
  /-- What is typed as it stands. -/
  | literal (text : String)
  /-- Everything else. -/
  | plain (text : String)

/-- The text of a part of a line, with or without its style. -/
def Span.text (isStyled : Bool) : Span → String
  | heading text => if isStyled then Terminal.styled [1, 4] text else text
  | literal text => if isStyled then Terminal.styled [1] text else text
  | plain text => text

/-- A line by its parts. -/
abbrev Line := List Span

/-- The text of a line. -/
def lineText (isStyled : Bool) (line : Line) : String := String.join (line.map (·.text isStyled))

/-- How many columns a line takes. -/
def lineLength (line : Line) : Nat := (lineText false line).length

/-- A named thing with its explanation. -/
structure Entry where
  /-- What stands in front of the name. -/
  mark : Line := []
  /-- The name, and that of the value. -/
  name : Line
  /-- The explanation. -/
  about : String

/-- The entry for an option with a long name. -/
def Entry.ofOption (short : Option Char) (long : String) (value : Option String)
    (about : String) : Entry where
  mark := match short with
    | some letter => [.literal ("-" ++ letter.toString), .plain ", "]
    | none => [.plain "    "]
  name := .literal ("--" ++ long) :: (value.map fun value => .plain (" <" ++ value ++ ">")).toList
  about := about

/-- How many columns the longest name takes. -/
def longest (entries : List Entry) : Nat :=
  (entries.map fun entry => lineLength entry.name).foldl max 0

/-- Whether all explanations of options stand on lines of their own: the names take more than
two fifths of a line with their margins, and what is left is too narrow for an explanation. -/
def needsOwnLines (entries : List Entry) : Bool :=
  let taken := longest entries + 12
  taken ≤ lineWidth && 2 * lineWidth < 5 * taken &&
    entries.any fun entry => lineWidth - taken < entry.about.length

/-- A line filled up with blanks to a width. -/
def padded (line : Line) (width : Nat) : Line :=
  line ++ [.plain (String.ofList (List.replicate (width - lineLength line) ' '))]

/-- The lines of named things with their explanations. -/
def entryLines (entries : List Entry) : List Line :=
  let width := longest entries
  let apart := needsOwnLines entries
  entries.flatMap fun entry =>
    let start := .plain "  " :: entry.mark
    if apart then [start ++ entry.name, [.plain ("          " ++ entry.about)]]
    else [start ++ padded entry.name width ++ [.plain ("  " ++ entry.about)]]

/-- The options that can be given behind a command, or in front of any. -/
def optionEntries (command : Option Command) : List Entry :=
  ((Key.all.filter (·.isOffered command)).map fun key =>
    Entry.ofOption key.short? key.long key.valueName? key.about) ++
  [Entry.ofOption (some 'h') "help" none "Print help"] ++
  if command.isNone then [Entry.ofOption (some 'V') "version" none "Print version"] else []

/-- What asking for help does. -/
def helpAbout : String := "Print this message or the help of the given subcommand(s)"

/-- The entry of a command. -/
def Entry.ofCommand (name about : String) : Entry := { name := [.literal name], about }

/-- All commands. -/
def commandEntries : List Entry :=
  (Command.all.map fun command => Entry.ofCommand command.name command.about) ++
    [Entry.ofCommand "help" helpAbout]

/-- The line that says how something is called. -/
def usage (call rest : String) : Line :=
  [.heading "Usage:", .plain " ", .literal call, .plain (" " ++ rest)]

end Help

open Help in
/-- The lines of the help on a topic. -/
def Topic.lines : Topic → List Line
  | program =>
      [[.plain ("Command line front-end of " ++ programName ++
          ": patch, restore and inspect the Terraria executable")], [],
        usage programName "[OPTIONS] <COMMAND>", [], [.heading "Commands:"]] ++
      entryLines commandEntries ++ [[], [.heading "Options:"]] ++ entryLines (optionEntries none)
  | command asked =>
      [[.plain asked.about], [], usage (programName ++ " " ++ asked.name) "[OPTIONS]", [],
        [.heading "Options:"]] ++
      entryLines (optionEntries (some asked))
  | help =>
      [[.plain helpAbout], [], usage (programName ++ " help") "[COMMAND]...", [],
        [.heading "Arguments:"]] ++
      entryLines [{ name := [.plain "[COMMAND]..."], about := "Print help for the subcommand(s)" }]

/-- The help on a topic. -/
def Topic.text (topic : Topic) (isStyled : Bool) : String :=
  unlines (topic.lines.map (Help.lineText isStyled))

end CilPatch.Cli
