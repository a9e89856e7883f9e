import Rv32i.Command.Arguments

namespace Rv32i.Command

def helpLines : Option Subcommand → List String
  | none =>
    ["RV32I instruction-set simulator",
     "",
     "Usage: rv32sim [OPTIONS] <COMMAND>",
     "",
     "Commands:",
     "  run     Load a program and run it until it reports a result, faults, or runs out of cycles",
     "  decode  Decode 32-bit instruction words and print their fields",
     "  demo    Run the built-in sum and Fibonacci programs",
     "  help    Print this message or the help of the given subcommand(s)",
     "",
     "Options:",
     "  -v, --verbose...  Raise log verbosity",
     "  -h, --help        Print help",
     "  -V, --version     Print version"]
  | some .run =>
    ["Load a program and run it until it reports a result, faults, or runs out of cycles",
     "",
     "Usage: rv32sim run [OPTIONS] [PROGRAM]",
     "",
     "Arguments:",
     "  [PROGRAM]  Program file; may instead be given as `program` in the config file",
     "",
     "Options:",
     "      --format <FORMAT>          Program format; guessed from the file extension when omitted",
     "      --config <CONFIG>          TOML configuration file; command-line flags override its values",
     "      --base <BASE>              Memory base address",
     "      --mem-size <MEM_SIZE>      Memory size in bytes",
     "      --load-addr <LOAD_ADDR>    Load address for bin and hex programs (default: memory base)",
     "      --entry <ENTRY>            Entry point override",
     "      --max-cycles <MAX_CYCLES>  Instruction budget; 0 means unlimited",
     "      --sentinel <ADDR=VALUE>    Pass when the word at ADDR equals VALUE",
     "      --tohost <TOHOST>          HTIF tohost address (overrides the ELF symbol)",
     "      --dump                     Print the register file when the run ends",
     "  -v, --verbose...               Raise log verbosity",
     "  -h, --help                     Print help"]
  | some .decode =>
    ["Decode 32-bit instruction words and print their fields",
     "",
     "Usage: rv32sim decode [OPTIONS] <WORDS>...",
     "",
     "Arguments:",
     "  <WORDS>...  Instruction words in hex, with or without a 0x prefix",
     "",
     "Options:",
     "  -v, --verbose...  Raise log verbosity",
     "  -h, --help        Print help"]
  | some .demo =>
    ["Run the built-in sum and Fibonacci programs",
     "",
     "Usage: rv32sim demo [OPTIONS]",
     "",
     "Options:",
     "  -v, --verbose...  Raise log verbosity",
     "  -h, --help        Print help"]

/-- What the program or a subcommand is for and how to call it. -/
def helpText (topic : Option Subcommand) : String :=
  String.join ((helpLines topic).map (· ++ "\n"))

end Rv32i.Command
