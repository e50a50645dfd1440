import InstanceResize.CommandLine.Arguments

/-!
# Help texts
-/

namespace InstanceResize.CommandLine

/-- The version of the program. -/
def versionText : String := "resize 0.1.0\n"

/-- What the switches of all levels are for. -/
def commonSwitches : String :=
  "  -c, --config <CONFIG>  Path to the TOML config file [default: resize.toml]\n" ++
  "  -h, --help             Print help\n"

/-- The help text of a topic. -/
def Topic.text : Topic → String
  | level .root =>
    "Stop, reconfigure and restart cloud instances\n\nUsage: resize [OPTIONS] [COMMAND]\n\n" ++
    "Commands:\n  init   Write a default config file\n" ++
    "  serve  Run the HTTP and WebSocket server\n" ++
    "  help   Print this message or the help of the given subcommand(s)\n\n" ++
    "Options:\n" ++ commonSwitches ++ "  -V, --version          Print version\n"
  | level .init =>
    "Write a default config file\n\nUsage: resize init [OPTIONS]\n\n" ++
    "Options:\n      --force            Overwrite an existing file\n" ++ commonSwitches
  | level .serve =>
    "Run the HTTP and WebSocket server\n\nUsage: resize serve [OPTIONS]\n\n" ++
    "Options:\n  -p, --port <PORT>      Override the configured port\n" ++ commonSwitches
  | help =>
    "Print this message or the help of the given subcommand(s)\n\n" ++
    "Usage: resize help [COMMAND]...\n\n" ++
    "Arguments:\n  [COMMAND]...  Print help for the subcommand(s)\n"

end InstanceResize.CommandLine
