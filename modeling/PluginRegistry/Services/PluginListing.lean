import PluginRegistry.Api.Admin
import PluginRegistry.Python.Datetime

namespace PluginRegistry

structure Collation where
  lower : Char → Char
  lower_special : ∀ special ∈ ['%', '_', '\\'], ∀ c, lower c = special ↔ c = special

/-- `LIKE`: `%` is any text, `_` any character, and a backslash takes the next character
as it is. -/
def like : List Char → List Char → Bool
  | [], text => text.isEmpty
  | '%' :: pattern, text => text.tails.any (like pattern)
  | '_' :: pattern, _ :: text => like pattern text
  | '\\' :: c :: pattern, d :: text => c = d && like pattern text
  | c :: pattern, d :: text => c = d && like pattern text
  | _ :: _, [] => false

def ilike (collation : Collation) (text pattern : String) : Bool :=
  like (pattern.toList.map collation.lower) (text.toList.map collation.lower)

/-- The columns of a plugin that `list_plugins` reads. -/
structure ListedPlugin where
  id : String
  pluginKey : String
  displayName : Option String
  description : String
  author : String
  status : PluginStatus
  createdAt : Time
  deriving DecidableEq

structure PluginTable where
  rows : List ListedPlugin
  unique : (rows.map ListedPlugin.pluginKey).Nodup

/-- The filters of `list_plugins`. -/
def ListedPlugin.matches (collation : Collation) (status q : Option String)
    (plugin : ListedPlugin) : Bool :=
  (!truthy status || some plugin.status.text = status) &&
    (!truthy q ||
      (let pattern := "%" ++ strip (q.getD "") ++ "%"
      ilike collation plugin.pluginKey pattern ||
        plugin.displayName.any (ilike collation · pattern) ||
        ilike collation plugin.description pattern || ilike collation plugin.author pattern))

/-- What `ORDER BY created_at DESC` may return: plugins of one time in any order. -/
structure PluginTable.Lists (table : PluginTable) (collation : Collation)
    (status q : Option String) (listing : List ListedPlugin) : Prop where
  rows : listing.Perm (table.rows.filter (ListedPlugin.matches collation status q))
  newest : listing.Pairwise fun a b => b.createdAt ≤ a.createdAt

/-- The page that `offset` and `limit` cut out. -/
def pageOf (listing : List ListedPlugin) (page pageSize : Int) : List ListedPlugin :=
  let page := max page 1
  let pageSize := min (max pageSize 1) 100
  (listing.drop ((page - 1) * pageSize).toNat).take pageSize.toNat

end PluginRegistry
