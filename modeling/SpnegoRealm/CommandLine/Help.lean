import SpnegoRealm.CommandLine.Invocation

/-! # Pages of help

A page tells what a command does and how it is written, then lists what it takes. The columns of
a list are aligned.
-/

namespace SpnegoRealm.CommandLine

/-- The name of the program. -/
def programName : String := "kerberos-realm"

/-- The version of the program. -/
def programVersion : String := "0.2.13"

/-- What the version option shows. -/
def versionText : String := programName ++ " " ++ programVersion ++ "\n"

/-- A list on a page: what can be written, and what it means. -/
structure HelpList where
  title : String
  rows : List (String × String)

/-- The text of a page. -/
structure HelpPage where
  about : String
  usage : String
  lists : List HelpList

namespace HelpList

/-- The width of the first column. -/
def width (list : HelpList) : Nat :=
  list.rows.foldl (fun widest row => max widest row.1.length) 0

/-- The lines of a list. -/
def lines (list : HelpList) : List String :=
  (list.title ++ ":") :: list.rows.map fun row =>
    "  " ++ row.1 ++ String.ofList (List.replicate (list.width - row.1.length + 2) ' ') ++ row.2

end HelpList

/-- The text of a page, one line after the other. -/
def HelpPage.text (page : HelpPage) : String :=
  let lines := [page.about, "", "Usage: " ++ programName ++ page.usage] ++
    page.lists.flatMap fun list => "" :: list.lines
  "\n".intercalate lines ++ "\n"

/-- What the commands do. -/
def commandRows : List (String × String) :=
  [("negotiate", "Run one negotiation round for an `Authorization` header value"),
    ("mapping", "Build the role mapping and print it as JSON"),
    ("is-member", "Check whether a principal belongs to a group through nested groups"),
    ("run", "Keep the role mapping fresh until Ctrl-C"),
    ("help", "Print this message or the help of the given subcommand(s)")]

/-- What the command with a name does. -/
def aboutCommand (name : String) : String := (commandRows.lookup name).getD ""

/-- The row of the option that asks for help. -/
def helpRow : String × String := ("-h, --help", "Print help")

/-- The content of a page. -/
def Page.content : Page → HelpPage
  | program =>
    { about := "Kerberos realm operator tool"
      usage := " [OPTIONS] <COMMAND>"
      lists := [⟨"Commands", commandRows⟩,
        ⟨"Options",
          [("-c, --config <CONFIG>",
              "YAML configuration file [default: " ++ defaultConfigPath ++ "]"),
            ("    --json-logs", "Emit logs as JSON"), helpRow,
            ("-V, --version", "Print version")]⟩] }
  | negotiate =>
    { about := aboutCommand "negotiate"
      usage := " negotiate [HEADER]"
      lists := [⟨"Arguments", [("[HEADER]", "Full header value, e.g. \"Negotiate YIIF...\"")]⟩,
        ⟨"Options", [helpRow]⟩] }
  | mapping =>
    { about := aboutCommand "mapping"
      usage := " mapping"
      lists := [⟨"Options", [helpRow]⟩] }
  | isMember =>
    { about := aboutCommand "is-member"
      usage := " is-member --principal <PRINCIPAL> --group <GROUP>"
      lists := [⟨"Options", [("    --principal <PRINCIPAL>", ""), ("    --group <GROUP>", ""),
        helpRow]⟩] }
  | run =>
    { about := aboutCommand "run"
      usage := " run"
      lists := [⟨"Options", [helpRow]⟩] }
  | help =>
    { about := aboutCommand "help"
      usage := " help [COMMAND]..."
      lists := [⟨"Arguments", [("[COMMAND]...", "Print help for the subcommand(s)")]⟩] }

end SpnegoRealm.CommandLine
