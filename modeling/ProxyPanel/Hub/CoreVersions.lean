import ProxyPanel.Common.Protocol
import ProxyPanel.Db.Entities
import ProxyPanel.Lib.Query

/-!
# The catalog of core versions

One active row for a core pins the version its nodes run.  The build identifier
is the publish time recorded for that version; it tells rebuilt binaries of a
rolling tag apart.
-/

namespace ProxyPanel.Hub

/-- A program of the hub: it reads the database and may fail. -/
abbrev Program (α : Type) := Query Db PanelError α

open Query

/-- The pinned version of a core.  Without an active row sing-box has a default
and mihomo is not pinned. -/
def effectiveCoreVersion (coreType : CoreType) : Program (Option String) :=
  read fun db =>
    ((db.coreVersions.one (fun v => v.coreType = coreType.toStr ∧ v.isActive)).map
      (·.version)).or
      (match coreType with
        | .singBox => some "v1.13.14"
        | .mihomo => none)

/-- The publish time recorded for a version, empty when there is none. -/
def coreBuildIdOf (coreType : CoreType) (version : Option String) : Program String :=
  match version.filter (fun v => v ≠ "") with
  | none => return ""
  | some version =>
    read fun db =>
      (((db.coreVersions.one (fun v => v.coreType = coreType.toStr ∧ v.version = version)).bind
        (·.publishedAt)).map (fun t => toString t.timestamp)).getD ""

end ProxyPanel.Hub
