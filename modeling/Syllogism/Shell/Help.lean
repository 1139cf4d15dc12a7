import Syllogism.Text.Basic

/-! The help texts of the commands and of the server. -/

namespace Syllogism.Shell.Help

def overview : List Text := [
  "usage: sillogismi [-h] \x7bchat,tell,query,who,dump,version\x7d ...",
  "",
  "sillogismi: a tiny natural-language front end over a fact store",
  "",
  "positional arguments:",
  "  \x7bchat,tell,query,who,dump,version\x7d",
  "    chat                Interactive session",
  "    tell                Process sentences and save",
  "    query               Everything known about a subject",
  "    who                 Every subject leading to an attribute",
  "    dump                Print the whole store",
  "    version             Show version",
  "",
  "options:",
  "  -h, --help            show this help message and exit"]

def chat : List Text := [
  "usage: sillogismi chat [-h] [--db DB] [--lexicon LEXICON] [--legacy-traversal]",
  "                       [--verbose]",
  "",
  "options:",
  "  -h, --help          show this help message and exit",
  "  --db DB, -d DB      Path to the fact store file (default: Sillogismi.js)",
  "  --lexicon LEXICON   Path to a JSON lexicon (default: bundled Italian",
  "                      lexicon)",
  "  --legacy-traversal  Use the old unbounded recursive queries (fail on cyclic",
  "                      facts)",
  "  --verbose, -v       Enable verbose logging"]

def tell : List Text := [
  "usage: sillogismi tell [-h] [--db DB] [--lexicon LEXICON] [--legacy-traversal]",
  "                       [--verbose]",
  "                       sentences [sentences ...]",
  "",
  "positional arguments:",
  "  sentences           Sentences to process, in order",
  "",
  "options:",
  "  -h, --help          show this help message and exit",
  "  --db DB, -d DB      Path to the fact store file (default: Sillogismi.js)",
  "  --lexicon LEXICON   Path to a JSON lexicon (default: bundled Italian",
  "                      lexicon)",
  "  --legacy-traversal  Use the old unbounded recursive queries (fail on cyclic",
  "                      facts)",
  "  --verbose, -v       Enable verbose logging"]

def query : List Text := [
  "usage: sillogismi query [-h] [--db DB] [--lexicon LEXICON]",
  "                        [--legacy-traversal] [--verbose] [--json]",
  "                        subject",
  "",
  "positional arguments:",
  "  subject             The subject to look up",
  "",
  "options:",
  "  -h, --help          show this help message and exit",
  "  --db DB, -d DB      Path to the fact store file (default: Sillogismi.js)",
  "  --lexicon LEXICON   Path to a JSON lexicon (default: bundled Italian",
  "                      lexicon)",
  "  --legacy-traversal  Use the old unbounded recursive queries (fail on cyclic",
  "                      facts)",
  "  --verbose, -v       Enable verbose logging",
  "  --json              Print JSON"]

def who : List Text := [
  "usage: sillogismi who [-h] [--db DB] [--lexicon LEXICON] [--legacy-traversal]",
  "                      [--verbose] [--json]",
  "                      attribute",
  "",
  "positional arguments:",
  "  attribute           The attribute to look up",
  "",
  "options:",
  "  -h, --help          show this help message and exit",
  "  --db DB, -d DB      Path to the fact store file (default: Sillogismi.js)",
  "  --lexicon LEXICON   Path to a JSON lexicon (default: bundled Italian",
  "                      lexicon)",
  "  --legacy-traversal  Use the old unbounded recursive queries (fail on cyclic",
  "                      facts)",
  "  --verbose, -v       Enable verbose logging",
  "  --json              Print JSON"]

def dump : List Text := [
  "usage: sillogismi dump [-h] [--db DB] [--lexicon LEXICON] [--legacy-traversal]",
  "                       [--verbose] [--edges]",
  "",
  "options:",
  "  -h, --help          show this help message and exit",
  "  --db DB, -d DB      Path to the fact store file (default: Sillogismi.js)",
  "  --lexicon LEXICON   Path to a JSON lexicon (default: bundled Italian",
  "                      lexicon)",
  "  --legacy-traversal  Use the old unbounded recursive queries (fail on cyclic",
  "                      facts)",
  "  --verbose, -v       Enable verbose logging",
  "  --edges             One 'SUBJECT -> attribute' per line"]

def version : List Text := [
  "usage: sillogismi version [-h]",
  "",
  "options:",
  "  -h, --help  show this help message and exit"]

def server : List Text := [
  "usage: sillogismi-mcp [-h] [--db DB] [--lexicon LEXICON] [--legacy-traversal]",
  "                      [--verbose]",
  "",
  "sillogismi MCP Server",
  "",
  "options:",
  "  -h, --help          show this help message and exit",
  "  --db DB             Path to the fact store file (default: Sillogismi.js)",
  "  --lexicon LEXICON   Path to a JSON lexicon (default: bundled Italian",
  "                      lexicon)",
  "  --legacy-traversal  Use the old unbounded recursive queries (loops on cyclic",
  "                      facts)",
  "  --verbose, -v       Enable verbose logging"]

end Syllogism.Shell.Help
