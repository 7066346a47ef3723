import PluginRegistry.Clients.Acprctl
import PluginRegistry.Services.PluginListing

namespace PluginRegistry.Acprctl

def exitNotFound : Nat := 4

def uuidPattern (ref : String) : Bool :=
  let parts := ref.toList.splitOn '-'
  parts.map List.length = [8, 4, 4, 4, 12] && parts.all fun part => part.all Char.isHexDigit

def pluginNotFound (ref : String) : CliError :=
  ⟨"Plugin not found: " ++ ref, 404, exitNotFound⟩

/-- `resolvePluginID`; `request` is the server's answer to `q`, `page` and `page_size`. -/
def resolvePluginID (request : String → Int → Int → List ListedPlugin) (ref : String) :
    Except CliError String :=
  if uuidPattern ref then .ok ref
  else
    match (request ref 1 100).find? fun item => item.pluginKey = ref with
    | some item => .ok item.id
    | none => .error (pluginNotFound ref)

end PluginRegistry.Acprctl
