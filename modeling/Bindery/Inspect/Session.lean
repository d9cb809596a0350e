import Bindery.Inspect.Bundle
import Bindery.Session.Basic

/-!
# Looking into sessions
-/

namespace Bindery.Inspect

def pageJson (p : ErrorPage) : Json :=
  .obj [("messages", strs p.messages), ("modules", idsJson p.modules)]

def statusJson (s : SessionStatus) : Json :=
  let status : List Json := match s with
    | .idle => [.str "idle"]
    | .building cycle stale => [.str "building", nat cycle, .bool stale]
    | .ready page => [.str "ready", optJson pageJson page]
    | .shutDown => [.str "shut-down"]
  .obj [("status", .arr status), ("building", .bool s.isBuilding),
    ("has_overlay", .bool s.page?.isSome)]

/-- A session with the update it published last and the files on the disk. -/
def sessionJson (st : SessionState) (update : Option SessionUpdate) (d : Disk) : Json :=
  let lastGood (s : Snapshot) : Json :=
    .obj [("modules", idsJson s.graph.ids), ("files", strs (s.artifacts.map (·.file))),
      ("warnings", strs (s.warnings.map BuildError.message))]
  .obj [("update", optJson (fun u => .obj u.members) update), ("state", statusJson st.status),
    ("last_good", optJson lastGood st.lastGood), ("tree", treeJson fingerprintJson d)]

end Bindery.Inspect
