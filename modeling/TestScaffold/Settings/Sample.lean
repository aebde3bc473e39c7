/-
  TestScaffold/Settings/Sample.lean
  =================================
  The settings file that the program writes for its users to begin with: the
  defaults with comments, or in TOML the bare defaults.
-/
import TestScaffold.Files.Disk
import TestScaffold.Schema.Settings
import TestScaffold.Toml.Printer

namespace TestScaffold

open TestScaffold.Text

namespace Settings

/-- The lines of the sample in YAML. -/
def sampleLines : List String :=
  ["# sharpscaffold configuration",
   "# Uncomment and modify the sections you want to customize.",
   "",
   "# =============================================================================",
   "# PIPELINE PARALLELISM",
   "# =============================================================================",
   "",
   "pipeline:",
   "  max_files_reading_parallel: 3            # Concurrent file reads",
   "  max_test_classes_generating_parallel: 3  # Concurrent parse/synthesize/render workers",
   "  max_files_writing_parallel: 6            # Concurrent file writes",
   "",
   "# =============================================================================",
   "# OUTPUT",
   "# =============================================================================",
   "",
   "output:",
   "  save_path: './tests'          # Directory receiving generated test classes",
   "  file_extension: '.cs'         # Extension of generated files",
   "  collision_policy: 'overwrite' # Options: 'overwrite', 'error'",
   "  newline: 'lf'                 # Options: 'lf', 'crlf'",
   "",
   "# =============================================================================",
   "# INPUT DISCOVERY",
   "# =============================================================================",
   "",
   "discovery:",
   "  # Patterns matched below directories given on the command line",
   "  patterns:",
   "    - '**/*.cs'",
   "  exclude_dirs:",
   "    - 'bin'",
   "    - 'obj'",
   "    - '.git'",
   "    - '.vs'",
   "    - 'node_modules'",
   "",
   "# =============================================================================",
   "# LOGGING",
   "# =============================================================================",
   "",
   "logging:",
   "  suppress_modules:",
   "    - 'asyncio'",
   "",
   "# =============================================================================",
   "# ENVIRONMENT VARIABLE OVERRIDES",
   "# =============================================================================",
   "#",
   "# Any value can be overridden with an environment variable prefixed with",
   "# SHARPSCAFFOLD_. Use double underscores (__) to separate nested keys.",
   "#",
   "# Examples:",
   "#   SHARPSCAFFOLD_PIPELINE__MAX_FILES_WRITING_PARALLEL=12",
   "#   SHARPSCAFFOLD_OUTPUT__COLLISION_POLICY=error",
   "#",
   "# ============================================================================="]

/-- The sample in YAML. -/
def yamlSample : String := String.join (sampleLines.map (· ++ "\n"))

/-- The sample in TOML. -/
def tomlSample : String := Toml.render (Schema.describeSections {})

/-- The sample for a file of this name. -/
def sampleFor (p : Path) : String :=
  if lower p.extension = ".toml" then tomlSample else yamlSample

/-- Where the sample is written if no path is given. -/
def usualSamplePath : String := ".sharpscaffold.yml"

/-- Writes the sample. -/
def writeSample (d : Disk) (p : Path) : Except DiskFault Disk :=
  d.writeFile p (sampleFor p).toUTF8

end Settings

end TestScaffold
