/-!
# Help and version

The two texts the tool prints about itself.
-/
namespace BufferedFiles.Concat.Usage

def version : String := "stdio-file 0.1.0\n"

def lines : List String := [
  "Owned buffered file handles over the C stdio primitives, with pre-bound standard streams",
  "",
  "Usage: sfcat [OPTIONS] [FILE]...",
  "",
  "Arguments:",
  "  [FILE]...  Files to read in order; `-` reads standard input [default: -]",
  "",
  "Options:",
  "  -o, --output <PATH>  Write to this file instead of standard output",
  "      --append         Append to the output file instead of truncating it",
  "  -h, --help           Print help",
  "  -V, --version        Print version",
  "",
  "I/O Options:",
  "      --buffering <BUFFERING>    Buffering for the output file: -1 default, 0 unbuffered, 1 line-buffered",
  "      --chunk-size <CHUNK_SIZE>  Bytes per read (0 = default of 4096) [default: 0]",
  "      --lines                    Read line by line instead of in fixed-size chunks",
  "",
  "Output Options:",
  "  -v, --verbose...  Verbose output (-v, -vv, -vvv)",
  "  -q, --quiet       Quiet mode (suppress all output except errors)"]

def help : String := String.join (lines.map (· ++ "\n"))

end BufferedFiles.Concat.Usage
