import SheetSync.CommandLine.Basic
/-!
The texts that tell of the program itself.
-/
namespace SheetSync.CommandLine

/-- A headed table of what can be written and what it means. -/
structure Section where
  heading : String
  rows : List (String × String)

/-- What is told on a topic. -/
structure Page where
  summary : String
  usage : String
  sections : List Section

namespace Section

/-- Meanings start in one column, two blanks behind the longest form. -/
def lines (s : Section) : List String :=
  let width := (s.rows.map fun r => r.1.length).foldl max 0
  s!"{s.heading}:" :: s.rows.map fun (form, meaning) =>
    "  " ++ form ++ String.ofList (List.replicate (width - form.length + 2) ' ') ++ meaning

end Section

def logLevel : String × String :=
  ("    --log-level <log-level>",
    "Log filter (overrides RUST_LOG), e.g. debug or wbsync_core=trace")

def helpFlag : String × String := ("-h, --help", "Print help")

/-- The commands of the program. -/
def commands : Section where
  heading := "Commands"
  rows := [
    ("simulate", "Run the sync simulator against a local backend"),
    ("signature", "Print the cache signature a workbook file would get"),
    ("help", "Print this message or the help of the given subcommand(s)")]

def page : Topic → Page
  | .program =>
    { summary := "Workbook synchronization core"
      usage := "wbsync [OPTIONS] [COMMAND]"
      sections := [commands,
        ⟨"Options", [logLevel, helpFlag, ("-V, --version", "Print version")]⟩] }
  | .simulate =>
    { summary := "Run the sync simulator against a local backend"
      usage := "wbsync simulate [OPTIONS]"
      sections := [⟨"Options", [
        logLevel,
        ("    --ops <operations>", "Number of operations to simulate [default: 1000]"),
        ("    --seed <seed>", "Random seed for reproducibility [default: 42]"),
        ("    --dir <dir>", "Directory for saved workbooks (default: a temp dir)"),
        ("    --config <config>", "TOML sync configuration"),
        ("    --stop-on-violation", "Stop simulation on first violation"),
        helpFlag]⟩] }
  | .signature =>
    { summary := "Print the cache signature a workbook file would get"
      usage := "wbsync signature [OPTIONS] <path>"
      sections := [
        ⟨"Arguments", [("<path>", "Workbook file")]⟩,
        ⟨"Options", [logLevel, helpFlag]⟩] }
  | .help =>
    { summary := "Print this message or the help of the given subcommand(s)"
      usage := "wbsync help [COMMAND]..."
      sections := [⟨"Arguments", [("[COMMAND]...", "Print help for the subcommand(s)")]⟩] }

namespace Page

/-- The parts of a page, an empty line between them. -/
def text (p : Page) : String :=
  let parts := [[p.summary], ["Usage: " ++ p.usage]] ++ p.sections.map Section.lines
  "\n\n".intercalate (parts.map "\n".intercalate) ++ "\n"

end Page

def helpText (t : Topic) : String := (page t).text

def versionText : String := "wbsync 0.1.0\n"

end SheetSync.CommandLine
