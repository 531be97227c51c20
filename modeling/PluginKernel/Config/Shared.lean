import PluginKernel.Config.Port

/-!
# The common configuration

All plugins of a host share a block of configuration. It names the host and the port to listen on;
whatever else it holds is kept for the plugins. The host has a default, the port has none.
-/

namespace PluginKernel

/-- The common configuration. -/
structure SharedConfig where
  /-- The port to listen on. -/
  port : Option PortSetting
  /-- The host to listen on. -/
  host : String
  /-- Everything else. -/
  extra : Assoc Json

namespace SharedConfig

/-- The name of the block among the things a host hands over. -/
def path : String := "./config.yml"

/-- The member that holds the port. -/
def portMember : String := "grpc_server_port"

/-- The member that holds the host. -/
def hostMember : String := "grpc_server_host"

/-- The host to listen on if none is configured: all of them. -/
def usualHost : String := "0.0.0.0"

/-- The configuration with nothing but a port. -/
def onPort (port : PortSetting) : SharedConfig := ⟨some port, usualHost, []⟩

/-- The port to listen on. -/
def listenPort (config : SharedConfig) : Except ConfigError UInt16 :=
  match config.port with
  | none => .error .missingPort
  | some port => port.resolve

/-- A configured port that may be absent. -/
def decodePort : Json → Except DecodeError (Option PortSetting)
  | .null => .ok none
  | v => (PortSetting.decode v).map some

/-- Whether a member may have this value. -/
def checkMember (name : String) (v : Json) : Except DecodeError Unit :=
  if name = hostMember then v.asText.map fun _ => ()
  else if name = portMember then (decodePort v).map fun _ => ()
  else .ok ()

/-- Whether a member is kept as it is. -/
def isExtra (name : String) : Bool := name != hostMember && name != portMember

/-- The configuration with these members. -/
def ofMembers (members : Assoc Json) : Except DecodeError SharedConfig := do
  Json.checkMembers checkMember members
  let port ← Json.optional decodePort none portMember members
  let host ← Json.optional Json.asText usualHost hostMember members
  pure ⟨port, host, members.filter fun p => isExtra p.1⟩

/-- The members of a configuration. A member that is kept as it is wins over one of its name. -/
def toMembers (config : SharedConfig) : Assoc Json :=
  let known := match config.port with
    | some port => [(portMember, port.encode)]
    | none => []
  Assoc.ofList (known ++ [(hostMember, .str config.host)] ++ config.extra)

end SharedConfig

end PluginKernel
