import ProxyPanel.Agent.Upgrade
import ProxyPanel.Core.Installer

/-!
# A build upgrade that is killed

`ensure_core_build` moves the binary aside before it downloads the new one and moves it back
if the download fails, but only if it was this very call that moved it.  A call that is
killed in between leaves the old binary at the backup path, where no later call looks for
it.  `recovers_run` says which calls leave a complete binary behind, after any run of calls
that fail or are killed.
-/

namespace ProxyPanel.Agent.BuildRecovery

open Run Traced Core.Installer
open Upgrade (buildName)

/-! ### The directory -/

/-- What `bin_dir` has of one core: the binary, the one that was moved aside, and the text of
the build marker. -/
structure Dir where
  binary : Path
  backup : Path
  marker : Option String
  deriving DecidableEq, Repr

/-- How the calls of an upgrade end.  `seen` is false when `try_exists` fails, `markerPart` is
what was written of the marker before the write failed. -/
structure BuildEnv where
  hasBinDir : Bool
  markerRead : Bool
  seen : Bool
  aside : Except String Unit
  install : Core.Installer.Env
  removeBackup : Bool
  markerCreate : Except String Unit
  markerPart : Option (Nat × String)
  restore : Bool

abbrev Build := Traced String Dir

/-! ### The upgrade -/

/-- The marker, without the white space around it. -/
def currentBuild (env : BuildEnv) (d : Dir) : String :=
  Text.trim (if env.markerRead then d.marker.getD "" else "")

def moveAside (env : BuildEnv) : Build Unit := do
  lift env.aside
  Traced.step fun d => { d with binary := none, backup := d.binary }

/-- The backup is moved back over whatever is at the path. -/
def moveBack : Build Unit :=
  Traced.step fun d => match d.backup with
    | none => d
    | some file => { d with binary := some file, backup := none }

/-- The marker file is created, then its text is written. -/
def writeMarker (env : BuildEnv) (text : String) : Build Unit := do
  lift env.markerCreate
  Traced.step fun d => { d with marker := some "" }
  match env.markerPart with
  | some (n, e) => do
    Traced.step fun d => { d with marker := some (String.ofList (text.toList.take n)) }
    throw e
  | none => Traced.step fun d => { d with marker := some text }

def install (env : BuildEnv) (core : CoreType) (version : String) : Build Unit :=
  within (·.binary) (fun binary d => { d with binary })
    (ensureCoreBinary env.install core (if version = "" then none else some version))

/-- What follows the installation. -/
def finish (env : BuildEnv) (expected : String) (hasBinary : Bool) :
    Except String Unit → Build Unit
  | .ok () => do
    onlyIf env.removeBackup (Traced.step fun d => { d with backup := none })
    writeMarker env expected
  | .error e => do
    onlyIf (hasBinary && env.restore) moveBack
    throw e

/-- The upgrade itself; `hasBinary` says whether a binary was seen. -/
def upgrade (env : BuildEnv) (core : CoreType) (version expected : String) (hasBinary : Bool) :
    Build Unit := do
  onlyIf hasBinary (moveAside env)
  let result ← attempt (install env core version)
  finish env expected hasBinary result

def ensureCoreBuild (env : BuildEnv) (core : CoreType) (version buildId : String) :
    Build Unit := do
  if env.hasBinDir then do
    let d ← read
    if currentBuild env d = buildName version buildId then pure ()
    else upgrade env core version (buildName version buildId) (env.seen && d.binary.isSome)
  else pure ()

/-! ### Calls -/

/-- A call for a build; `killedAfter` is the number of its steps that are taken if it is
killed. -/
structure Call where
  env : BuildEnv
  version : String
  buildId : String
  killedAfter : Option Nat

/-- The directory after a call. -/
def after (core : CoreType) (d : Dir) (call : Call) : Dir :=
  let upgrade := ensureCoreBuild call.env core call.version call.buildId
  match call.killedAfter with
  | none => (upgrade d).state
  | some n => upgrade.cut n d

def callStep (core : CoreType) (d : Dir) (call : Call) : Option Dir := some (after core d call)

/-- All of an entry was written to the file that is there. -/
def Complete (file : Path) : Prop := file.any (·.complete) = true

instance (file : Path) : Decidable (Complete file) := inferInstanceAs (Decidable (_ = true))

/-- The call runs to its end, and moves the backup back if it has to. -/
def Completes (call : Call) : Prop := call.killedAfter = none ∧ call.env.restore = true

/-- A call that completes leaves a complete binary. -/
def Recovered (core : CoreType) (d : Dir) (call : Call) : Prop :=
  Completes call → Complete (after core d call).binary

/-! ### When an installation leaves a complete file -/

/-- An installation that finds no file succeeds. -/
def Succeeds (env : Core.Installer.Env) (core : CoreType) (version : Option String) : Prop :=
  ∃ asset ∈ assetOf env core version, installs env core asset = true ∧ env.chmod.isOk = true

/-- An installation leaves a complete file: it sees one, it extracts one, or it does not
touch the one that is there. -/
def Leaves (env : Core.Installer.Env) (core : CoreType) (version : Option String)
    (file : Path) : Prop :=
  if env.seen && file.isSome then Complete file
  else match assetOf env core version with
    | none => Complete file
    | some asset => installs env core asset = true ∨
        (begins env core asset = false ∧ Complete file)

section Install

variable {env : Core.Installer.Env} {core : CoreType} {version : Option String} {file : Path}

theorem not_seen_none : (env.seen && (none : Path).isSome) ≠ true := by
  rw [Option.isSome_none, Bool.and_false]
  exact Bool.false_ne_true

theorem ends_of_succeeds (h : Succeeds env core version) : ∃ file',
    Ends (ensureCoreBinary env core version) none (.ok ()) file' ∧ Complete file' := by
  obtain ⟨asset, hasset, hinstalls, hchmod⟩ := h
  rcases @ensureCoreBinary_cases env core version none not_seen_none with
    ⟨hnone, -⟩ | ⟨asset', hasset', ⟨-, f, hcomplete, ⟨-, hends⟩ | ⟨hfails, -⟩⟩ | ⟨hfails, -⟩⟩
  · cases hnone.symm.trans hasset
  · exact ⟨_, hends, hcomplete⟩
  · exact absurd hchmod hfails
  · cases hasset.symm.trans hasset'
    exact absurd hinstalls hfails

theorem ends_of_not_succeeds (h : ¬Succeeds env core version) : ∃ e file',
    Ends (ensureCoreBinary env core version) none (.error e) file' := by
  rcases @ensureCoreBinary_cases env core version none not_seen_none with
    ⟨-, e, he⟩ | ⟨asset, hasset, ⟨hinstalls, f, -, ⟨hchmod, -⟩ | ⟨-, e, he⟩⟩ |
      ⟨-, e, file', he, -⟩⟩
  · exact ⟨e, none, he⟩
  · exact absurd ⟨asset, hasset, hinstalls, hchmod⟩ h
  · exact ⟨e, some f, he⟩
  · exact ⟨e, file', he⟩

theorem complete_of_leaves (h : Leaves env core version file) :
    Complete (ensureCoreBinary env core version file).state := by
  unfold Leaves at h
  by_cases hseen : (env.seen && file.isSome) = true
  · rw [if_pos hseen] at h
    rw [(ends_ensureCoreBinary_of_seen hseen).2]
    exact h
  rw [if_neg hseen] at h
  rcases @ensureCoreBinary_cases env core version file hseen with
    ⟨hasset, e, he⟩ | ⟨asset, hasset, hcase⟩
  · rw [hasset] at h
    rw [he.2]
    exact h
  rw [hasset] at h
  rcases hcase with ⟨-, f, hcomplete, ⟨-, hends⟩ | ⟨-, e, he⟩⟩ | ⟨hinstalls, e, file', he, hfile⟩
  · rw [hends.2]
    exact hcomplete
  · rw [he.2]
    exact hcomplete
  · obtain ⟨hbegins, hcomplete⟩ := h.resolve_left hinstalls
    rcases hfile with ⟨rfl, -⟩ | ⟨-, hbegan⟩
    · rw [he.2]
      exact hcomplete
    · cases hbegins.symm.trans hbegan

end Install

/-! ### When a call recovers -/

/-- The version the installer is asked for. -/
def askedVersion (call : Call) : Option String :=
  if call.version = "" then none else some call.version

/-- A call that skips the upgrade finds a complete binary; one that sees a binary finds a
complete one or replaces it; one that sees none leaves one to be installed or untouched. -/
def Recovers (core : CoreType) (d : Dir) (call : Call) : Prop :=
  if call.env.hasBinDir = false ∨
      currentBuild call.env d = buildName call.version call.buildId then Complete d.binary
  else if call.env.seen && d.binary.isSome then
    Complete d.binary ∨
      (call.env.aside.isOk = true ∧ Succeeds call.env.install core (askedVersion call))
  else Leaves call.env.install core (askedVersion call) d.binary

section Finish

variable {env : BuildEnv} {d : Dir}

theorem binary_writeMarker (text : String) : (writeMarker env text d).state.binary = d.binary := by
  unfold writeMarker
  cases hcreate : env.markerCreate with
  | error e => rfl
  | ok _ =>
    cases env.markerPart with
    | none => rfl
    | some part => rfl

/-- After an installation that succeeded the binary stays. -/
theorem binary_finish_ok (expected : String) (hasBinary : Bool) :
    (finish env expected hasBinary (.ok ()) d).state.binary = d.binary := by
  obtain ⟨d', hremove, hbinary⟩ : ∃ d', Ends (onlyIf env.removeBackup
      (Traced.step fun d => { d with backup := none }) : Build Unit) d (.ok ()) d' ∧
      d'.binary = d.binary := by
    cases env.removeBackup with
    | false => exact ⟨d, ends_onlyIf_false _ d, rfl⟩
    | true => exact ⟨_, (ends_step _ d).onlyIf, rfl⟩
  have hwrite : Ends (writeMarker env expected) d' _ _ := ⟨rfl, rfl⟩
  rw [finish, (hremove.bind hwrite).2, binary_writeMarker, hbinary]

/-- After one that failed the backup is moved back. -/
theorem binary_finish_error (hrestore : env.restore = true) {f : CoreFile}
    (hbackup : d.backup = some f) (expected e : String) :
    (finish env expected true (.error e) d).state.binary = some f := by
  have hback : Ends (moveBack : Build Unit) d (.ok ())
      { d with binary := some f, backup := none } :=
    ⟨rfl, by rw [moveBack, Traced.step, hbackup]⟩
  have hends : Ends (finish env expected true (.error e)) d (.error e)
      { d with binary := some f, backup := none } := by
    rw [finish, hrestore]
    exact hback.onlyIf.bind (ends_throw e _)
  rw [hends.2]

theorem finish_error (expected e : String) :
    (finish env expected false (.error e) d).state = d := rfl

end Finish

section Recover

variable {core : CoreType} {d : Dir} {call : Call}

/-- The call's installation, started at some directory. -/
theorem ends_install {d : Dir} {result : Except String Unit} {file : Path}
    (h : Ends (ensureCoreBinary call.env.install core (askedVersion call)) d.binary result file) :
    Ends (attempt (install call.env core call.version)) d (.ok result)
      { d with binary := file } := by
  have hwithin : Ends (install call.env core call.version) d result { d with binary := file } :=
    ⟨h.1, by rw [install, within]; exact congrArg (fun binary => { d with binary }) h.2⟩
  exact hwithin.attempt

/-- With a binary moved aside the old or the new one is at the path afterwards. -/
theorem complete_upgrade_seen (hrestore : call.env.restore = true) (expected : String)
    {f : CoreFile} (hbinary : d.binary = some f)
    (h : f.complete = true ∨
      (call.env.aside.isOk = true ∧ Succeeds call.env.install core (askedVersion call))) :
    Complete (upgrade call.env core call.version expected true d).state.binary := by
  unfold upgrade
  cases haside : call.env.aside with
  | error e =>
    have hmove : Ends (moveAside call.env) d (.error e) d := (ends_lift haside d).bind_error
    rw [(hmove.onlyIf.bind_error).2, hbinary]
    refine h.resolve_right fun ⟨hok, _⟩ => ?_
    rw [haside] at hok
    cases hok
  | ok _ =>
    have hmove : Ends (moveAside call.env) d (.ok ())
        { d with binary := none, backup := d.binary } :=
      (ends_lift haside d).bind (ends_step _ d)
    by_cases hsucceeds : Succeeds call.env.install core (askedVersion call)
    · obtain ⟨file, hends, hcomplete⟩ := ends_of_succeeds hsucceeds
      have hinstall := @ends_install core call { d with binary := none, backup := d.binary } _ _
        hends
      rw [(hmove.onlyIf.bind (hinstall.bind ⟨rfl, rfl⟩)).2, binary_finish_ok]
      exact hcomplete
    · obtain ⟨e, file, hends⟩ := ends_of_not_succeeds hsucceeds
      have hinstall := @ends_install core call { d with binary := none, backup := d.binary } _ _
        hends
      rw [(hmove.onlyIf.bind (hinstall.bind ⟨rfl, rfl⟩)).2, binary_finish_error hrestore hbinary]
      exact h.resolve_right fun ⟨_, hok⟩ => hsucceeds hok

theorem complete_upgrade_unseen (expected : String)
    (h : Leaves call.env.install core (askedVersion call) d.binary) :
    Complete (upgrade call.env core call.version expected false d).state.binary := by
  have hcomplete := complete_of_leaves h
  have hinstall := @ends_install core call d _ _ ⟨rfl, rfl⟩
  unfold upgrade
  rw [((ends_onlyIf_false _ d).bind (hinstall.bind ⟨rfl, rfl⟩)).2]
  cases hresult : (ensureCoreBinary call.env.install core (askedVersion call) d.binary).result with
  | error e =>
    rw [finish_error]
    exact hcomplete
  | ok _ =>
    rw [binary_finish_ok]
    exact hcomplete

/-- **A call that recovers** leaves a complete binary if it completes. -/
theorem recovered_of_recovers (h : Recovers core d call) : Recovered core d call := by
  rintro ⟨hkilled, hrestore⟩
  unfold after
  rw [hkilled]
  unfold Recovers at h
  change Complete (ensureCoreBuild call.env core call.version call.buildId d).state.binary
  unfold ensureCoreBuild
  by_cases hdir : call.env.hasBinDir = true
  case neg =>
    rw [if_pos (Or.inl ((Bool.not_eq_true _).mp hdir))] at h
    rw [if_neg hdir]
    exact h
  rw [if_pos hdir, ((ends_read d).bind ⟨rfl, rfl⟩).2]
  by_cases hcurrent : currentBuild call.env d = buildName call.version call.buildId
  · rw [if_pos (Or.inr hcurrent)] at h
    rw [if_pos hcurrent]
    exact h
  rw [hdir, if_neg (by simp only [Bool.true_eq_false, false_or]; exact hcurrent)] at h
  rw [if_neg hcurrent]
  by_cases hseen : (call.env.seen && d.binary.isSome) = true
  · rw [if_pos hseen] at h
    rw [hseen]
    rw [Bool.and_eq_true] at hseen
    obtain ⟨f, hbinary⟩ := Option.isSome_iff_exists.mp hseen.2
    rw [hbinary] at h
    exact complete_upgrade_seen hrestore _ hbinary h
  · rw [if_neg hseen] at h
    rw [Bool.not_eq_true] at hseen
    rw [hseen]
    exact complete_upgrade_unseen _ h

/-- With a complete binary at the path, a call that sees it recovers. -/
theorem recovers_of_complete (hcomplete : Complete d.binary) (hseen : call.env.seen = true) :
    Recovers core d call := by
  have hsome : d.binary.isSome = true := by
    unfold Complete at hcomplete
    cases hbinary : d.binary with
    | none =>
      rw [hbinary] at hcomplete
      cases hcomplete
    | some f => rfl
  unfold Recovers
  rw [hseen, hsome]
  split
  · exact hcomplete
  · exact Or.inl hcomplete

end Recover

/-! ### Runs of calls -/

/-- A call that is not killed and sees the binary that is there. -/
def Uninterrupted (call : Call) : Prop := Completes call ∧ call.env.seen = true

/-- **Recovery after any run.**  Where every call that completes is one that recovers, each
leaves a complete binary, whatever was killed before it.  With no call killed all of them
do. -/
theorem recoverable_run (core : CoreType) (d : Dir) (calls : List Call) :
    (Guarded (callStep core) (fun d call => Completes call → Recovers core d call) d calls →
      Guarded (callStep core) (Recovered core) d calls) ∧
    (Complete d.binary → (∀ call ∈ calls, Uninterrupted call) →
      Guarded (callStep core) (Recovered core) d calls) := by
  constructor
  · intro h
    exact h.imp fun d call hrecovers hcompletes =>
      recovered_of_recovers (hrecovers hcompletes) hcompletes
  · intro hcomplete hcalls
    have hstep : ∀ d call, Complete d.binary → Uninterrupted call → Recovered core d call :=
      fun d call hd hcall => recovered_of_recovers (recovers_of_complete hd hcall.2)
    refine @guarded_of_inv _ _ _ _ (fun d => Complete d.binary) _
      (fun d call d' hd hcall hafter => ?_) hstep d calls hcomplete hcalls
    cases hafter
    exact hstep d call hd hcall hcall.1

namespace KilledAside

/-- No download succeeds. -/
def offline : Attempt where
  download := .error "download request failed"
  inspect := .ok ()
  openArchive := .ok ()
  create := .ok ()
  written := none
  mode := .ok ()

def env : BuildEnv where
  hasBinDir := true
  markerRead := true
  seen := true
  aside := .ok ()
  install := {
    binDir := "/var/lib/agent/bin"
    seen := true
    resolveVersion := .ok "v1.19.0"
    target := .ok ("linux-amd64", false)
    createDir := .ok ()
    first := offline
    second := offline
    chmod := .ok () }
  removeBackup := true
  markerCreate := .ok ()
  markerPart := none
  restore := true

def old : CoreFile := ⟨[0x7f, 0x45, 0x4c, 0x46], true, true⟩

def start : Dir := ⟨some old, none, some "v1.18.0|1"⟩

/-- Killed when the binary has been moved aside. -/
def killed : Call := ⟨env, "v1.19.0", "2", some 1⟩

def failing : Call := { killed with killedAfter := none }

/-- The call after the killed one fails, and there is no binary at the path: the old one is
still at the backup path. -/
theorem lost : Complete start.binary ∧ Completes failing ∧
    after .mihomo (after .mihomo start killed) failing = ⟨none, some old, some "v1.18.0|1"⟩ ∧
    ¬Complete (after .mihomo (after .mihomo start killed) failing).binary := by
  refine ⟨rfl, ⟨rfl, rfl⟩, by decide, by decide⟩

/-- A download that succeeds. -/
def delivered : Attempt := { offline with
  download := .ok {
    size := 8388608
    preview := ""
    magic := .ok [0x1f, 0x8b, 0x08, 0x00]
    tar := .ok []
    zip := .error "no end of central directory"
    gzip := ([0x7f, 0x45], .ok ()) } }

def retried : Call := { failing with
  env := { env with install := { env.install with first := delivered } } }

theorem retried_recovers :
    Guarded (callStep .mihomo) (Recovered .mihomo) start [killed, retried, failing] := by
  refine (recoverable_run .mihomo start [killed, retried, failing]).1 ⟨nofun, fun d hd => ?_⟩
  cases hd
  refine ⟨fun _ => ?_, fun d hd => ⟨fun _ => ?_, fun _ _ => trivial⟩⟩
  · have hleaves : Leaves retried.env.install .mihomo (askedVersion retried)
        (after .mihomo start killed).binary := Or.inl (by decide)
    have hcurrent : ¬(retried.env.hasBinDir = false ∨
        currentBuild retried.env (after .mihomo start killed) =
          buildName retried.version retried.buildId) := by decide
    rw [Recovers, if_neg hcurrent]
    exact hleaves
  · cases hd
    refine recovers_of_complete ?_ rfl
    decide

end KilledAside

end ProxyPanel.Agent.BuildRecovery
