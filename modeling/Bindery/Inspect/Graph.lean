import Bindery.Graph.Change
import Bindery.Graph.Error
import Bindery.Inspect.Basic

/-!
# Looking into graphs
-/

namespace Bindery.Inspect

def kindName : ImportKind → String
  | .static => "static"
  | .reExport => "re-export"
  | .dynamic => "dynamic"
  | .url => "url"

def sourceKindName : SourceKind → String
  | .script => "script"
  | .style => "style"
  | .resource => "resource"

def importJson (i : Import) : Json :=
  .arr [.str i.specifier, .str (kindName i.kind), optJson idJson i.resolved]

def moduleJson (m : Module) : Json :=
  .obj [("id", idJson m.id), ("path", .str m.path), ("kind", .str (sourceKindName m.kind)),
    ("size", nat m.size), ("imports", .arr (m.imports.map importJson)), ("hash", .str m.hash),
    ("global_state", .bool m.hasGlobalState), ("stub", .bool m.isStub)]

def graphErrorName : GraphError → String
  | .emptyModuleId => "EmptyModuleId"
  | .unresolved _ _ => "Unresolved"
  | .read _ _ => "Read"
  | .task _ => "Task"

def graphErrorJson (e : GraphError) : Json :=
  .obj [("error", .str (graphErrorName e)), ("message", .str e.message)]

def edgeJson (e : ModuleId × ImportKind) : Json := .arr [idJson e.1, .str (kindName e.2)]

def dependentsJson (g : ModuleGraph) (id : ModuleId) : Json :=
  .arr ((g.dependents id).map fun d => edgeJson (d.importer, d.kind))

def entriesJson (entries : EntryMap ModuleId) : Json :=
  .arr (entries.map fun (n, ids) => .arr [.str n, idsJson ids])

def graphJson (g : ModuleGraph) : Json :=
  .obj [("len", nat g.modules.length), ("is_empty", .bool g.modules.isEmpty),
    ("entries", entriesJson g.entries), ("modules", .arr (g.modules.map moduleJson)),
    ("dependents", .arr (g.ids.map fun id => .arr [idJson id, dependentsJson g id]))]

def changesJson (c : ChangeSet) : Json :=
  .obj [("modified", idsJson c.modified), ("added", idsJson c.added), ("removed", idsJson c.removed),
    ("affected", idsJson c.affected), ("affected_count", nat c.affected.length),
    ("changed_ids", idsJson c.changedIds), ("has_changes", .bool c.hasChanges),
    ("is_structural", .bool c.isStructural)]

end Bindery.Inspect
