import PluginKernel.Plugin.FileCheck

/-!
# What a host chooses

What a host may choose when it attaches a plugin: services to serve beside the health service, a
place where statistics are kept, a check of the plugin's file, and other names for the shared
certificate and key.
-/

namespace PluginKernel

/-- Where statistics are kept. -/
structure FilingPlace where
  /-- The path that all records are below. -/
  basePath : String
  /-- The name of the identifier. -/
  idName : String
deriving DecidableEq, Repr

namespace FilingPlace

/-- The usual base path. -/
def usualBasePath : String := "super-secrets/PublicIndex/hive"

/-- The usual name of the identifier. -/
def usualIdName : String := "argosId"

/-- What a summary shows. -/
def summary (p : FilingPlace) : String :=
  "Persistence \x7b base_path: " ++ Text.quote p.basePath ++ ", id_name: " ++
    Text.quote p.idName ++ ", .. \x7d"

end FilingPlace

/-- What a host chooses for a plugin. -/
structure PluginChoices where
  /-- The names of the services that are served. -/
  services : List String := []
  /-- Where statistics are kept, if they are. -/
  filingPlace : Option FilingPlace := none
  /-- The check of the plugin's file, if there is one. -/
  fileCheck : Option FileCheck := none
  /-- The names of the shared certificate and key, if they are not the usual ones. -/
  sharedNames : Option (String × String) := none
deriving DecidableEq, Repr

namespace PluginChoices

/-- What a summary shows of something that may be absent. -/
def optional {α : Type} (summary : α → String) : Option α → String
  | none => "None"
  | some x => "Some(" ++ summary x ++ ")"

/-- What a summary shows of the choices. -/
def summary (choices : PluginChoices) : String :=
  "PluginOptions \x7b services: [" ++ ", ".intercalate (choices.services.map Text.quote) ++
    "], persistence: " ++ optional FilingPlace.summary choices.filingPlace ++
    ", integrity: " ++ optional FileCheck.summary choices.fileCheck ++
    ", default_certs: " ++
    optional (fun names => "(" ++ Text.quote names.1 ++ ", " ++ Text.quote names.2 ++ ")")
      choices.sharedNames ++
    " \x7d"

end PluginChoices

end PluginKernel
