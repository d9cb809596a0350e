/-!
# What is logged

The parts of the program log under names of their own. A filter says for each of them from which
level on its messages are shown.
-/

namespace Bindery.LogFilter

/-- The parts that log. -/
def parts : List String := ["sheaf", "sheaf_cli", "sheaf_bundler", "sheaf_graph", "sheaf_config"]

/-- The filter that shows messages of all parts from a level on. -/
def directives (level : String) : String :=
  String.intercalate "," (parts.map fun part => part ++ "=" ++ level)

end Bindery.LogFilter
