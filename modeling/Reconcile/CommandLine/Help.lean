namespace Reconcile.Help

/-- The name and version of the program. -/
def version : String := "tfvc 0.1.0"

/-- The line about the configuration file. -/
def configLine : String :=
  "  -c, --config <CONFIG>  " ++
    "Path to the TOML configuration file. Defaults to the user config directory"

def general : List String :=
  ["Validate check-ins and triage conflicts for TFVC workspaces", "",
    "Usage: tfvc [OPTIONS] <COMMAND>", "",
    "Commands:",
    "  init       Interactive setup wizard; writes a configuration file",
    "  validate   Validate a configuration file",
    "  checkin    Check notes and policies of a pending check-in",
    "  conflicts  Inspect and merge conflicts",
    "  help       Print this message or the help of the given subcommand(s)", "",
    "Options:", configLine,
    "  -h, --help             Print help",
    "  -V, --version          Print version"]

def setup : List String :=
  ["Interactive setup wizard; writes a configuration file", "",
    "Usage: tfvc init [OPTIONS]", "",
    "Options:", configLine,
    "  -o, --output <OUTPUT>  Output path for the config file. Defaults to `--config`",
    "      --defaults         Write a sample configuration without asking any questions",
    "  -h, --help             Print help"]

def validate : List String :=
  ["Validate a configuration file", "",
    "Usage: tfvc validate [OPTIONS]", "",
    "Options:", configLine,
    "  -h, --help             Print help"]

def checkin : List String :=
  ["Check notes and policies of a pending check-in", "",
    "Usage: tfvc checkin [OPTIONS] --snapshot <SNAPSHOT> <FILES>...", "",
    "Arguments:",
    "  <FILES>...  Local files of the pending check-in", "",
    "Options:",
    "  -c, --config <CONFIG>",
    "          Path to the TOML configuration file. Defaults to the user config directory",
    "      --snapshot <SNAPSHOT>",
    "          JSON snapshot of server notes and policy annotations",
    "  -m, --message <MESSAGE>",
    "          Commit message [default: ]",
    "      --note <NAME=VALUE>",
    "          Check-in note value; applies to every server declaring the note",
    "      --work-item <ID[:TITLE]>",
    "          Work item to associate with the check-in",
    "      --resolve",
    "          Resolve the work items instead of only associating them",
    "      --override-reason <OVERRIDE_REASON>",
    "          Reason for committing despite policy warnings",
    "      --json",
    "          Print the result as JSON instead of tables",
    "  -h, --help",
    "          Print help"]

def conflicts : List String :=
  ["Inspect and merge conflicts", "",
    "Usage: tfvc conflicts [OPTIONS] <COMMAND>", "",
    "Commands:",
    "  list   Classify the unresolved conflicts in a JSON dump",
    "  merge  Three-way merge of text files",
    "  help   Print this message or the help of the given subcommand(s)", "",
    "Options:", configLine,
    "  -h, --help             Print help"]

def listConflicts : List String :=
  ["Classify the unresolved conflicts in a JSON dump", "",
    "Usage: tfvc conflicts list [OPTIONS] <DUMP>", "",
    "Arguments:",
    "  <DUMP>  JSON file: `[\x7b\"workspace\": \"<name>\", \"conflicts\": [...]\x7d]`", "",
    "Options:", configLine,
    "      --json             Print the classification as JSON",
    "  -h, --help             Print help"]

def mergeFiles : List String :=
  ["Three-way merge of text files", "",
    "Usage: tfvc conflicts merge [OPTIONS] <BASE> <YOURS> <THEIRS>", "",
    "Arguments:",
    "  <BASE>    ",
    "  <YOURS>   ",
    "  <THEIRS>  ", "",
    "Options:", configLine,
    "  -o, --output <OUTPUT>  Write the merged text here instead of stdout",
    "  -h, --help             Print help"]

/-- The help on asking for help about the commands of a program or command. -/
def onHelp (program : String) : List String :=
  ["Print this message or the help of the given subcommand(s)", "",
    s!"Usage: {program} help [COMMAND]...", "",
    "Arguments:",
    "  [COMMAND]...  Print help for the subcommand(s)"]

def onTopic : List String → List String
  | ["help"] => onHelp "tfvc"
  | ["conflicts", "help"] => onHelp "tfvc conflicts"
  | ["init"] => setup
  | ["validate"] => validate
  | ["checkin"] => checkin
  | ["conflicts"] => conflicts
  | ["conflicts", "list"] => listConflicts
  | ["conflicts", "merge"] => mergeFiles
  | _ => general

end Reconcile.Help
