/-
A configuration to start from, with a rule of every kind.
-/

namespace Gleaner

def skeletonLines : List String := [
  "---",
  "# Dependencies are found in the following order:",
  "#",
  "# 1. Skip directories and files matched by 'ignore'.",
  "# 2. Determine the categories of each file with 'category'.",
  "# 3. Normalize categories with 'normalizer.category'.",
  "# 4. Find nodes (dependencies) on each line with 'node'.",
  "# 5. Normalize nodes with 'normalizer.node'.",
  "#",
  "# A matcher is a list of entries applied in order, each one to the outputs",
  "# of the previous one. An entry has one of",
  "#",
  "#   r:    regular expression, optionally with 'tmpl' or 'val'",
  "#   not:  regular expression that must not match, optionally with 'val'",
  "#   glob: shell glob",
  "#   sh:   bash script, reads the input on stdin and prints the outputs",
  "#   lua:  \x7bsrc: \"function f(s) return s end\", entry: f\x7d or \x7bfile: ..., entry: f\x7d",
  "#   val:  constant outputs",
  "#",
  "# 'tmpl' expands capture groups, e.g. \"$name\" or \"$\x7bname\x7d\".",
  "#",
  "# Paths of files and directories to skip.",
  "ignore:",
  "  - r: \"/\\\\.git$\"",
  "# Categories from the file path ('filename') or the first matching line ('text').",
  "category:",
  "  - name: shell script by extension",
  "    filename:",
  "      - r: \"\\\\.sh$\"",
  "        val:",
  "          - bash",
  "          - sh",
  "  - filename: # 'name' is optional",
  "      # the extension is the category",
  "      - r: \"\\\\.(?P<ext>\\\\w+)$\"",
  "        tmpl: \"$ext\"",
  "  - name: shell script by shebang",
  "    text:",
  "      - r: \"^#!/bin/bash\"",
  "        val:",
  "          - bash",
  "# Nodes, looked for only in files whose category matches 'category'.",
  "node:",
  "  - name: bash source",
  "    category: \"^bash$\"",
  "    matcher:",
  "      - r: \"^\\\\. (?P<v>.+)$\"",
  "        tmpl: \"$v\"",
  "  - name: binary",
  "    category: \".*\"",
  "    matcher:",
  "      - r: \"/usr/bin/\\\\w+\"",
  "# The first matching normalizer rewrites the value; otherwise it is kept as is.",
  "normalizer:",
  "  category:",
  "    - name: sh to bash",
  "      matcher:",
  "        - r: \"^sh$\"",
  "          val:",
  "            - bash",
  "  node:",
  "    - name: binary name",
  "      matcher:",
  "        - r: \"^/usr/bin/(?P<v>\\\\w+)$\"",
  "          tmpl: \"$v\""]

/-- the text of the configuration, with a line feed behind it -/
def skeleton : String := String.join (skeletonLines.map (· ++ "\n"))

end Gleaner
