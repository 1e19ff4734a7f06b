/-
Configurations from several sources. A source is the path of a file, if there is such a file, and the text of a
configuration otherwise. Each source has to mean something by itself; the lists of later ones follow those of earlier
ones.
-/
import Gleaner.Config.Document
import Gleaner.Files.Tree

namespace Gleaner

namespace Config

def ofSource (files : FileNode) (source : String) : Except ConfigError Config :=
  if files.isFile source then
    match files.readText source with
    | .ok text => foundAt source (Config.parseValid text)
    | .error _ => .error (.unreadable none)
  else Config.parseValid source

/-- adds sources to a configuration, the first of them being number `i` -/
def loadFrom (files : FileNode) (acc : Config) : Nat → List String → Except ConfigError Config
  | _, [] => .ok acc
  | i, source :: rest => do
    let c ← foundAt (indexed "config" i) (ofSource files source)
    loadFrom files (acc.merge c) (i + 1) rest

def load (files : FileNode) (sources : List String) : Except ConfigError Config :=
  if sources.isEmpty then .error .noConfig else loadFrom files {} 0 sources

end Config

end Gleaner
