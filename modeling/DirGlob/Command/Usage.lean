import DirGlob.Command.Options

set_option autoImplicit false

/-! # The texts of the command line

What is printed when a command line is refused, and when help is asked for. -/

namespace DirGlob.Command

/-- The name of the program. -/
def programName : String := "fsglob"

/-- How the program is called. -/
def usageText : String :=
  "usage: fsglob [-h] [--cwd CWD] [--sort] [--json] [--debug]\n" ++
  "              [--log-file LOG_FILE]\n" ++
  "              pattern\n"

/-- What the program does and what its options mean. -/
def helpText : String :=
  usageText ++ "\n" ++
  "List the entries of one directory matching a shell-style glob.\n\n" ++
  "positional arguments:\n" ++
  "  pattern              Glob pattern, e.g. '*.txt', 'src/\x7ba,b\x7d*.py' or\n" ++
  "                       '/etc/*.conf'.\n\n" ++
  "options:\n" ++
  "  -h, --help           show this help message and exit\n" ++
  "  --cwd CWD            Directory that relative patterns are resolved against.\n" ++
  "  --sort               Sort matches instead of printing them in listing order.\n" ++
  "  --json               Print matches as a JSON array.\n" ++
  "  --debug              Elevate logging verbosity to DEBUG.\n" ++
  "  --log-file LOG_FILE  Also write diagnostics to this rotating log file.\n"

/-- What is printed when a command line is refused. -/
def UsageError.report (e : UsageError) : String :=
  usageText ++ programName ++ ": error: " ++ e.message ++ "\n"

end DirGlob.Command
