import CilPatch.Cli.Filter
import CilPatch.Text.Lines
import CilPatch.Text.Terminal

/-!
# Showing notices

A notice is shown as its level in brackets and its text. Further lines of the text are set in.
Where styles are not asked for, the notice is freed of all control sequences.
-/

namespace CilPatch

/-- How a level is called; all names are of the same width. -/
def Level.label : Level → String
  | error => "ERROR"
  | warning => "WARN "
  | info => "INFO "
  | debug => "DEBUG"

/-- The style of a level. -/
def Level.style : Level → List Nat
  | error => [1, 31]
  | warning => [33]
  | info => [32]
  | debug => [34]

end CilPatch

namespace CilPatch.Cli

/-- The style of the brackets. -/
def bracketStyle : List Nat := [90]

/-- How notices are shown. -/
structure Log where
  /-- What is shown of them. -/
  filter : Filter
  /-- Whether they are styled. -/
  isStyled : Bool

namespace Log

/-- Whether an environment asks for styles. -/
def wantsStyles (env : String → Option String) : Bool :=
  match env "RUST_LOG_STYLE" with
  | some "always" => true
  | some "never" => false
  | _ => Terminal.isForced env

/-- How notices are shown in an environment, with complaints about what it says. -/
def ofEnv (isVerbose : Bool) (env : String → Option String) : Log × List String :=
  let least := if isVerbose then Level.debug else Level.info
  let filter : Filter := { rules := [⟨some Origin.run.path, least.rank + 1⟩] }
  let (filter, complaints) := match env "RUST_LOG" with
    | some text => filter.add text
    | none => (filter, [])
  (⟨filter, wantsStyles env⟩, complaints.map fun text => "warning: " ++ text ++ ", ignoring it")

/-- A notice as it is shown. -/
def record (log : Log) (notice : Notice) : String :=
  let text := "\n    ".intercalate (notice.text.splitOn "\n") ++ "\n"
  let label := notice.level.label
  if log.isStyled then
    Terminal.styled bracketStyle "[" ++ Terminal.styled notice.level.style label ++
      Terminal.styled bracketStyle "]" ++ " " ++ text
  else Terminal.plain ("[" ++ label ++ "] " ++ text)

/-- The notices that are shown. -/
def text (log : Log) (notices : List Notice) : String :=
  String.join ((notices.filter log.filter.shows).map log.record)

end Log

end CilPatch.Cli
