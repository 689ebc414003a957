namespace CanonTree.Cli

inductive Topic where
  | program | convert | types | stats | help
deriving DecidableEq

namespace Topic

def ofArgs? : List String → Option Topic
  | [] => some program
  | ["convert"] => some convert
  | ["types"] => some types
  | ["stats"] => some stats
  | ["help"] => some help
  | _ => none

def about : Topic → String
  | program => "Canonical tree generator for structural diffing of Java sources"
  | convert => "Convert native tree dumps (files or directories of *.json)"
  | types => "Export the entity type registry"
  | stats => "Per-type node counts of one converted unit"
  | help => "Print this message or the help of the given subcommand(s)"

def usage : Topic → String
  | program => "jdt-treegen [OPTIONS] <COMMAND>"
  | convert => "jdt-treegen convert [OPTIONS] <INPUTS>..."
  | types => "jdt-treegen types [OPTIONS]"
  | stats => "jdt-treegen stats [OPTIONS] <INPUT>"
  | help => "jdt-treegen help [COMMAND]"

def commandLines : List String := [
  "  convert  " ++ about convert,
  "  types    " ++ about types,
  "  stats    " ++ about stats,
  "  help     " ++ about help]

def formatLine (text : String) : String := "  -f, --format <FORMAT>  " ++ text

def switchLines : List String := [
  "  -v, --verbose          Enable verbose logging",
  "  -h, --help             Print help"]

def sections : Topic → List (String × List String)
  | program => [("Commands", commandLines), ("Options", [
      "  -v, --verbose  Enable verbose logging",
      "  -h, --help     Print help",
      "  -V, --version  Print version"])]
  | convert => [("Arguments", ["  <INPUTS>..."]), ("Options", [
      "  -o, --output <OUTPUT>  Output file for a single input, output directory otherwise " ++
        "(stdout if not specified)",
      formatLine "Output format (json, text); overrides the config file",
      "  -c, --config <CONFIG>  Path to a TOML or YAML configuration file"] ++ switchLines)]
  | types => [("Options", formatLine "[default: text]" :: switchLines)]
  | stats => [("Arguments", ["  <INPUT>"]),
      ("Options", formatLine "[default: text]" :: switchLines)]
  | help => [("Arguments", ["  [COMMAND]..."])]

def sectionText (heading : String) (lines : List String) : String :=
  s!"\n{heading}:\n" ++ String.join (lines.map (· ++ "\n"))

def text (t : Topic) : String :=
  s!"{t.about}\n\nUsage: {t.usage}\n" ++
    String.join (t.sections.map fun s => sectionText s.1 s.2)

end Topic
end CanonTree.Cli
