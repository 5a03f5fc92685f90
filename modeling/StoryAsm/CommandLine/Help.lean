import StoryAsm.CommandLine.Command

/-!
# Help texts
-/

namespace StoryAsm.CommandLine

/-- What is printed when the arguments are wrong. -/
def usageText : String :=
  "error: wrong usage\n\nUsage: zapgen <COMMAND>\n\nFor more information, try '--help'.\n"

def programHelp : List String := [
  "Generate ZAP assembly for the Z-machine",
  "",
  "Usage: zapgen <COMMAND>",
  "",
  "Commands:",
  "  init      Write a sample zapgen.toml in the current directory",
  "  build     Build the .zap files for a game manifest",
  "  sanitize  Print the ZAP symbol for each name",
  "  help      Print this message or the help of the given subcommand(s)",
  "",
  "Options:",
  "  -h, --help  Print help"]

def initHelp : List String := [
  "Write a sample zapgen.toml in the current directory",
  "",
  "Usage: zapgen init [NAME]",
  "",
  "Arguments:",
  "  [NAME]  Game name (defaults to directory name)",
  "",
  "Options:",
  "  -h, --help  Print help"]

def buildHelp : List String := [
  "Build the .zap files for a game manifest",
  "",
  "Usage: zapgen build [OPTIONS] [MANIFEST]",
  "",
  "Arguments:",
  "  [MANIFEST]  The manifest to build (defaults to ./zapgen.toml)",
  "",
  "Options:",
  "      --out <DIR>              Output directory (defaults to the manifest's directory)",
  "      --zversion <N>           Target Z-machine version, overriding the manifest (1-8)",
  "      --debug                  Emit debug records",
  "      --force-freq             Write the frequent-words stub even if the file exists",
  "      --dump-symbols [<FILE>]  Dump the symbol table as JSON to stderr, or to a file with " ++
    "--dump-symbols=path",
  "  -h, --help                   Print help"]

def sanitizeHelp : List String := [
  "Print the ZAP symbol for each name",
  "",
  "Usage: zapgen sanitize <NAMES>...",
  "",
  "Arguments:",
  "  <NAMES>...  ",
  "",
  "Options:",
  "  -h, --help  Print help"]

def helpHelp : List String := [
  "Print this message or the help of the given subcommand(s)",
  "",
  "Usage: zapgen help [COMMAND]...",
  "",
  "Arguments:",
  "  [COMMAND]...  Print help for the subcommand(s)"]

def Topic.text (topic : Topic) : String :=
  let lines := match topic with
    | .program => programHelp
    | .init => initHelp
    | .build => buildHelp
    | .sanitize => sanitizeHelp
    | .help => helpHelp
  String.join (lines.map (· ++ "\n"))

end StoryAsm.CommandLine
