/-!
# The settings file to start from

What `init` writes: every setting with its default and a word on what it does.
-/

namespace RenderLoop

/-- A settings file with comments. -/
def settingsTemplate : String :=
  "# hookloop configuration\n" ++
  "# Keys may also live under [tool.hookloop] in pyproject.toml.\n" ++
  "\n" ++
  "# Files to analyze, relative to this file.\n" ++
  "include_globs = [\"**/*.tsx\", \"**/*.ts\", \"**/*.jsx\", \"**/*.js\"]\n" ++
  "exclude_globs = [\"**/node_modules/**\", \"**/dist/**\", \"**/build/**\", \"**/.next/**\", \"**/.expo/**\"]\n" ++
  "\n" ++
  "# Hooks whose return value is a stable reference (exact names or regexes).\n" ++
  "stable_hooks = []\n" ++
  "stable_hook_patterns = []\n" ++
  "\n" ++
  "# Hooks that return a new object on every call.\n" ++
  "unstable_hooks = []\n" ++
  "unstable_hook_patterns = []\n" ++
  "\n" ++
  "# Detect stable hooks of known libraries from package.json.\n" ++
  "presets = true\n" ++
  "\n" ++
  "# Report filters.\n" ++
  "min_severity = \"low\"\n" ++
  "min_confidence = \"medium\"\n" ++
  "include_potential_issues = true\n" ++
  "\n" ++
  "# Flag key=\x7bindex\x7d; off by default because of its false-positive rate.\n" ++
  "warn_on_index_key = false\n" ++
  "\n" ++
  "# Per-rule overrides: \"off\" or a severity.\n" ++
  "[rules]\n" ++
  "# \"RLD-409\" = \"off\"\n" ++
  "\n" ++
  "# Per-function overrides.\n" ++
  "[custom_functions]\n" ++
  "# fetchData = \x7b stable = true \x7d\n" ++
  "# scheduleUpdate = \x7b deferred = true \x7d\n"

end RenderLoop
