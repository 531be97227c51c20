import PluginKernel.File
import PluginKernel.Log
import PluginKernel.Plugin.Error
import PluginKernel.Sha256
import PluginKernel.Text.Blank

/-!
# Checks of plugin files

Before a plugin is attached its file may be checked: either its digest is only logged, as the
version of the plugin, or it must be the one that a manifest gives. Blanks around the digest in a
manifest and the case of its letters do not count.
-/

namespace PluginKernel

/-- How the file of a plugin is checked. -/
inductive FileRule where
  /-- The digest is logged. -/
  | log
  /-- The digest must be this one, in lower case. -/
  | manifest (expected : String)
deriving DecidableEq, Repr

/-- A check of a plugin's file. -/
structure FileCheck where
  /-- The file. -/
  artifact : String
  /-- How it is checked. -/
  rule : FileRule
deriving DecidableEq, Repr

namespace FileRule

/-- The rule of a manifest with this text. -/
def ofManifest (text : String) : FileRule :=
  .manifest (String.ofList ((Text.trimBoth Text.isBlank text.toList).map Char.toLower))

end FileRule

namespace FileCheck

/-- The digest of a file, if it can be read. -/
def digestOf (content : Except FileError Text.Bytes) : Except PluginError String :=
  match content with
  | .ok bytes => .ok (Sha256.hexDigest bytes)
  | .error e => .error (.io e.message)

/-- Check a file with this content. -/
def run (check : FileCheck) (content : Except FileError Text.Bytes) :
    Except PluginError Unit :=
  match check.rule with
  | .log => .ok ()
  | .manifest expected => do
    let actual ← digestOf content
    if actual = expected then .ok () else .error (.wrongDigest check.artifact expected actual)

/-- What checking a file logs. -/
def events (check : FileCheck) (content : Except FileError Text.Bytes) : List LogEvent :=
  match check.rule, digestOf content with
  | .log, .ok digest =>
    [.info "plugin version" [("artifact", check.artifact), ("version", digest)]]
  | .log, .error e =>
    [.warn "unable to sha256 plugin" [("artifact", check.artifact), ("error", e.message)]]
  | .manifest expected, .ok actual =>
    if actual = expected then
      [.info "plugin digest matches manifest" [("artifact", check.artifact)]]
    else []
  | .manifest _, .error _ => []

/-- What a summary shows of a check. -/
def summary (check : FileCheck) : String :=
  "IntegrityCheck \x7b artifact: " ++ Text.quote check.artifact ++ ", .. \x7d"

end FileCheck

end PluginKernel
