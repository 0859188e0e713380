import SuiteLint.Options

/-!
# Help, version and usage errors

What the program prints when it ends before it has anything to review.
-/

namespace SuiteLint.Usage

def program : String :=
  "playwright-review"

def version : String :=
  "1.0.0"

def block (lines : List String) : String :=
  String.join (lines.map (· ++ "\n"))

def usage : String := block [
  "usage: playwright-review [-h] [--all] [--json] [--exclude PATTERN] [--jobs N]",
  "                         [--fail-under SCORE] [--debug] [--version]",
  "                         [path]"]

def help : String := usage ++ block [
  "",
  "Playwright Code Review Agent — layer and reliability lint for test suites",
  "",
  "positional arguments:",
  "  path                File or directory to review (default: current directory)",
  "",
  "options:",
  "  -h, --help          show this help message and exit",
  "  --all               Review all test files including .js",
  "  --json              Print results as JSON",
  "  --exclude PATTERN   Path pattern to exclude (component/prefix match;",
  "                      repeatable)",
  "  --jobs N            Review N files in parallel (default: 1)",
  "  --fail-under SCORE  Exit 1 when any file scores below SCORE (0-10)",
  "  --debug             Enable debug logging on stderr",
  "  --version           show program's version number and exit",
  "",
  "examples:",
  "  playwright-review tests/",
  "  playwright-review tests/login.spec.ts",
  "  playwright-review --all path/to/review",
  "  playwright-review --json --fail-under 7 tests/"]

def versionLine : String :=
  program ++ " " ++ version ++ "\n"

/-- What is printed about a wrong command line. -/
def complaint (e : UsageError) : String :=
  usage ++ program ++ ": error: " ++ e.message ++ "\n"

end SuiteLint.Usage
