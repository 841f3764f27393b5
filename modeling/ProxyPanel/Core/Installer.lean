import ProxyPanel.Common.Protocol
import ProxyPanel.Lib.Run
import ProxyPanel.Lib.Text
import ProxyPanel.Lib.Traced

/-!
# The installer of a core

`ensure_core_binary` takes a file at the path of the core as the installed core, and
otherwise downloads an archive and extracts the binary straight to that path, twice at
most.  An extraction that breaks leaves the file it has begun, and nothing removes it.
`failsClean_iff` says when a call that fails leaves no file behind.
-/

namespace ProxyPanel.Core.Installer

open Traced

/-! ### The file and the archive -/

/-- The file at the path of a core; `complete` when all of an entry was written to it. -/
structure CoreFile where
  data : List UInt8
  complete : Bool
  executable : Bool
  deriving DecidableEq, Repr

/-- An entry of an archive: the file name of its path, its data as far as they can be read
and how reading them ends, and whether it is stored as executable. -/
structure Entry where
  fileName : String
  data : List UInt8
  ends : Except String Unit
  executable : Bool

/-- What was downloaded, as the libraries read it. -/
structure Archive where
  size : Nat
  preview : String
  magic : Except String (List UInt8)
  tar : Except String (List (Except String Entry))
  zip : Except String (List (Except String Entry))
  gzip : List UInt8 × Except String Unit

/-- How the calls of one attempt end.  `download` is the direct download with its fallback,
`written` what was written before a write failed, `mode` the mode a tar entry is given. -/
structure Attempt where
  download : Except String Archive
  inspect : Except String Unit
  openArchive : Except String Unit
  create : Except String Unit
  written : Option (Nat × String)
  mode : Except String Unit

/-- How the calls of an installation end.  `seen` is false when `try_exists` fails. -/
structure Env where
  binDir : String
  seen : Bool
  resolveVersion : Except String String
  target : Except String (String × Bool)
  createDir : Except String Unit
  first : Attempt
  second : Attempt
  chmod : Except String Unit

/-! ### Names -/

def binaryName : CoreType → String
  | .singBox => "sing-box"
  | .mihomo => "mihomo"

def githubTag (version : String) : String :=
  if Text.startsWith version "v" then version else "v" ++ version

def stripV (version : String) : String :=
  if Text.startsWith version "v" then String.ofList (version.toList.drop 1) else version

/-- The asset of a version for a platform. -/
def assetName (core : CoreType) (version : String) (target : String × Bool) : String :=
  match core with
  | .singBox => "sing-box-" ++ stripV version ++ "-" ++ target.1 ++ "." ++
      if target.2 then "zip" else "tar.gz"
  | .mihomo => "mihomo-" ++ target.1 ++ "-" ++ githubTag version ++ "." ++
      if target.2 then "zip" else "gz"

/-- Owner and repository of a core on GitHub. -/
def githubRepo : CoreType → String × String
  | .singBox => ("SagerNet", "sing-box")
  | .mihomo => ("MetaCubeX", "mihomo")

def downloadUrl (core : CoreType) (version asset : String) : String :=
  "https://github.com/" ++ (githubRepo core).1 ++ "/" ++ (githubRepo core).2 ++
    "/releases/download/" ++ githubTag version ++ "/" ++ asset

def notInstalled (core : CoreType) (version asset : String) : String :=
  "failed to install " ++ core.debug ++ " from " ++ downloadUrl core version asset

def endsWith (s p : String) : Bool := p.toList.isSuffixOf s.toList

inductive Format where
  | tarGz
  | zip
  | gz
  deriving DecidableEq, Repr

/-- The extractor that is chosen by the end of the name. -/
def formatOf (asset : String) : Option Format :=
  if endsWith asset ".tar.gz" then some .tarGz
  else if endsWith asset ".zip" then some .zip
  else if endsWith asset ".gz" then some .gz
  else none

/-! ### Validation -/

/-- Two hexadecimal digits. -/
def hex (b : UInt8) : String :=
  String.ofList [Nat.digitChar (b.toNat / 16), Nat.digitChar (b.toNat % 16)]

def validateArchive (a : Attempt) (archive : Archive) (asset : String) : Except String Unit := do
  a.inspect
  if archive.size < 1024 * 1024 then
    .error ("downloaded archive " ++ asset ++ " is suspiciously small (" ++ toString archive.size ++
      " bytes): " ++ archive.preview)
  else
    let magic ← archive.magic
    let ok := if endsWith asset ".zip" then [0x50, 0x4b].isPrefixOf magic
      else [0x1f, 0x8b].isPrefixOf magic
    if ok then .ok ()
    else .error ("downloaded archive " ++ asset ++ " has unexpected magic bytes [" ++
      String.intercalate ", " (magic.map hex) ++ "]")

/-! ### Extraction -/

/-- The path of the core. -/
abbrev Path := Option CoreFile

abbrev Install := Traced String Path

/-- A new empty file; a file that is there keeps its mode when it is truncated. -/
def createFile (keepMode : Bool) : Install Unit :=
  step fun file => some ⟨[], false, keepMode && (file.map (·.executable)).getD false⟩

def setData (data : List UInt8) (complete : Bool) : Install Unit :=
  step fun file => file.map fun f => { f with data, complete }

def setMode (executable : Bool) : Install Unit :=
  step fun file => file.map fun f => { f with executable := f.executable || executable }

/-- Copy an entry to the file, as far as it can be read and written. -/
def copyEntry (a : Attempt) (data : List UInt8) (ends : Except String Unit) : Install Unit :=
  match a.written with
  | some (n, e) => do
    setData (data.take n) false
    throw e
  | none =>
    match ends with
    | .error e => do
      setData data false
      throw e
    | .ok () => setData data true

def notFound (targetName archivePath : String) : String :=
  "binary " ++ targetName ++ " not found in archive " ++ archivePath

def unpack (a : Attempt) (entry : Entry) : Install Unit := do
  lift a.create
  createFile false
  copyEntry a entry.data entry.ends
  lift a.mode
  setMode entry.executable

/-- A tar entry is the binary if it has its name. -/
def isTarget (targetName : String) (entry : Entry) : Bool :=
  entry.fileName = targetName ∨ entry.fileName = targetName ++ ".exe"

def extractTgz (a : Attempt) (archive : Archive) (targetName archivePath : String) :
    Install Unit := do
  lift a.openArchive
  let entries ← lift archive.tar
  go entries
where
  go : List (Except String Entry) → Install Unit
    | [] => throw (notFound targetName archivePath)
    | .error e :: _ => throw e
    | .ok entry :: rest => if isTarget targetName entry then unpack a entry else go rest

/-- In a zip archive case does not matter. -/
def isZipTarget (targetName : String) (entry : Entry) : Bool :=
  Text.toAsciiLowercase entry.fileName = Text.toAsciiLowercase targetName ∨
    Text.toAsciiLowercase entry.fileName = Text.toAsciiLowercase (targetName ++ ".exe")

/-- Every entry with the name is written, the last one stays. -/
def extractZip (a : Attempt) (archive : Archive) (targetName archivePath : String) :
    Install Unit := do
  lift a.openArchive
  let entries ← lift (archive.zip.mapError ("invalid zip archive: " ++ ·))
  go false entries
where
  go (found : Bool) : List (Except String Entry) → Install Unit
    | [] => if found then pure () else throw (notFound targetName archivePath)
    | .error e :: _ => throw ("zip entry error: " ++ e)
    | .ok entry :: rest =>
      if isZipTarget targetName entry then do
        lift a.create
        createFile true
        copyEntry a entry.data entry.ends
        go true rest
      else go found rest

/-- The file is created before the archive is read. -/
def extractGzip (a : Attempt) (archive : Archive) : Install Unit := do
  lift a.openArchive
  lift a.create
  createFile true
  lift archive.gzip.2
  copyEntry a archive.gzip.1 (.ok ())

def extract (a : Attempt) (archive : Archive) (asset targetName archivePath : String) :
    Install Unit :=
  match formatOf asset with
  | some .tarGz => extractTgz a archive targetName archivePath
  | some .zip => extractZip a archive targetName archivePath
  | some .gz => extractGzip a archive
  | none => throw ("unknown archive format for asset " ++ asset)

/-! ### Installation -/

/-- The attempts after one another, until one extracts the binary; otherwise the last error. -/
def attempts (asset targetName archivePath : String) :
    List Attempt → Option String → Install (Option String × Bool)
  | [], lastErr => pure (lastErr, false)
  | a :: rest, lastErr =>
    match a.download with
    | .error e => attempts asset targetName archivePath rest (some e)
    | .ok archive =>
      match validateArchive a archive asset with
      | .error e => attempts asset targetName archivePath rest (some e)
      | .ok () => do
        match ← attempt (extract a archive asset targetName archivePath) with
        | .ok () => pure (lastErr, true)
        | .error e => attempts asset targetName archivePath rest (some e)

def setExecutable (env : Env) : Install Unit := do
  lift env.chmod
  setMode true

/-- The version that was asked for, unless it is empty. -/
def chosenVersion (env : Env) (version : Option String) : Except String String :=
  match version with
  | some v => if v = "" then env.resolveVersion else .ok v
  | none => env.resolveVersion

def ensureCoreBinary (env : Env) (core : CoreType) (version : Option String) : Install Unit := do
  let onDisk ← read
  if env.seen && onDisk.isSome then pure ()
  else do
    let version ← lift (chosenVersion env version)
    let target ← lift env.target
    let asset := assetName core version target
    lift env.createDir
    let (lastErr, installed) ← attempts asset (binaryName core) (env.binDir ++ "/." ++ asset)
      [env.first, env.second] none
    if installed then setExecutable env
    else throw (lastErr.getD (notInstalled core version asset))

/-! ### What an attempt does to the path -/

/-- The first entry with the name, if everything before it can be read. -/
def firstTarget (p : Entry → Bool) : List (Except String Entry) → Option Entry
  | .ok entry :: rest => if p entry then some entry else firstTarget p rest
  | _ => none

/-- Nothing breaks while this entry is copied. -/
def copies (a : Attempt) (ends : Except String Unit) : Bool := a.written.isNone && ends.isOk

/-- Every entry of a zip archive can be read, and those with the name can be copied. -/
def allCopied (a : Attempt) (targetName : String) (entries : List (Except String Entry)) : Bool :=
  entries.all fun
    | .error _ => false
    | .ok entry => !isZipTarget targetName entry || copies a entry.ends

/-- The extraction gets as far as a file at the path of the core. -/
def opens (a : Attempt) (archive : Archive) (asset targetName : String) : Bool :=
  a.openArchive.isOk && a.create.isOk &&
    match formatOf asset with
    | some .tarGz => archive.tar.toOption.any fun entries =>
        (firstTarget (isTarget targetName) entries).isSome
    | some .zip => archive.zip.toOption.any fun entries =>
        (firstTarget (isZipTarget targetName) entries).isSome
    | some .gz => true
    | none => false

/-- Nothing breaks after that. -/
def finishes (a : Attempt) (archive : Archive) (asset targetName : String) : Bool :=
  match formatOf asset with
  | some .tarGz => a.mode.isOk && archive.tar.toOption.any fun entries =>
      (firstTarget (isTarget targetName) entries).any fun entry => copies a entry.ends
  | some .zip => archive.zip.toOption.any (allCopied a targetName)
  | some .gz => copies a archive.gzip.2
  | none => false

theorem isOk_iff {ε : Type} {r : Except ε Unit} : r.isOk = true ↔ r = .ok () := by
  cases r with
  | error e => exact ⟨nofun, nofun⟩
  | ok a => exact ⟨fun _ => rfl, fun _ => rfl⟩

theorem exists_error {ε : Type} {r : Except ε Unit} (h : r.isOk ≠ true) : ∃ e, r = .error e := by
  cases r with
  | error e => exact ⟨e, rfl⟩
  | ok a => exact absurd rfl h

section Copy

variable {a : Attempt} {data : List UInt8} {ends : Except String Unit}

theorem ends_copyEntry (h : copies a ends = true) (f : CoreFile) :
    Ends (copyEntry a data ends) (some f) (.ok ()) (some { f with data, complete := true }) := by
  rw [copies, Bool.and_eq_true, Option.isNone_iff_eq_none, isOk_iff] at h
  obtain ⟨hwritten, rfl⟩ := h
  rw [copyEntry, hwritten]
  exact ends_step _ _

/-- A copy that breaks leaves the file it has begun. -/
theorem breaks_copyEntry (h : copies a ends ≠ true) (f : CoreFile) :
    ∃ e g, Ends (copyEntry a data ends) (some f) (.error e) (some g) := by
  unfold copyEntry
  split
  · exact ⟨_, _, (ends_step _ _).bind (ends_throw _ _)⟩
  · rename_i hwritten
    split
    · exact ⟨_, _, (ends_step _ _).bind (ends_throw _ _)⟩
    · rw [copies, hwritten] at h
      exact absurd rfl h

end Copy

theorem ends_createFile (keepMode : Bool) (file : Path) : ∃ f,
    Ends (createFile keepMode) file (.ok ()) (some f) := ⟨_, ends_step _ _⟩

theorem ends_setMode (executable : Bool) (f : CoreFile) :
    Ends (setMode executable) (some f) (.ok ())
      (some { f with executable := f.executable || executable }) := ends_step _ _

theorem ends_unpack {a : Attempt} {entry : Entry} (hcreate : a.create = .ok ())
    (hcopies : copies a entry.ends = true) (hmode : a.mode = .ok ()) (file : Path) :
    ∃ f, Ends (unpack a entry) file (.ok ()) (some f) ∧ f.complete = true := by
  obtain ⟨f, hfile⟩ := ends_createFile false file
  refine ⟨_, (ends_lift hcreate _).bind (hfile.bind ((ends_copyEntry hcopies f).bind
    ((ends_lift hmode _).bind (ends_setMode _ _)))), rfl⟩

theorem breaks_unpack {a : Attempt} {entry : Entry} (hcreate : a.create = .ok ())
    (h : (a.mode.isOk && copies a entry.ends) ≠ true) (file : Path) :
    ∃ e f, Ends (unpack a entry) file (.error e) (some f) := by
  obtain ⟨f, hfile⟩ := ends_createFile false file
  by_cases hcopies : copies a entry.ends = true
  · rw [hcopies, Bool.and_true] at h
    obtain ⟨e, hmode⟩ := exists_error h
    exact ⟨e, _, (ends_lift hcreate _).bind (hfile.bind ((ends_copyEntry hcopies f).bind
      (ends_lift hmode _).bind_error))⟩
  · obtain ⟨e, g, hbreaks⟩ := @breaks_copyEntry a entry.data _ hcopies f
    exact ⟨e, g, (ends_lift hcreate _).bind (hfile.bind hbreaks.bind_error)⟩

/-! ### The three formats -/

section Extract

variable {a : Attempt} {archive : Archive} {targetName archivePath : String}

/-- The tar entries up to the binary. -/
theorem go_extractTgz (entries : List (Except String Entry)) (file : Path) :
    match firstTarget (isTarget targetName) entries with
    | some entry => extractTgz.go a targetName archivePath entries file = unpack a entry file
    | none => ∃ e, Ends (extractTgz.go a targetName archivePath entries) file (.error e) file := by
  induction entries with
  | nil => exact ⟨_, ends_throw _ _⟩
  | cons entry rest ih =>
    cases entry with
    | error e => exact ⟨_, ends_throw _ _⟩
    | ok entry =>
      rw [firstTarget, extractTgz.go]
      by_cases htarget : isTarget targetName entry = true
      · rw [if_pos htarget, if_pos htarget]
      · rw [if_neg htarget, if_neg htarget]
        exact ih

/-- The zip entries: with no file for the name the path stays as it is. -/
theorem go_extractZip_of_none {entries : List (Except String Entry)}
    (h : firstTarget (isZipTarget targetName) entries = none) (file : Path) :
    ∃ e, Ends (extractZip.go a targetName archivePath false entries) file (.error e) file := by
  induction entries with
  | nil => exact ⟨_, ends_throw _ _⟩
  | cons entry rest ih =>
    cases entry with
    | error e => exact ⟨_, ends_throw _ _⟩
    | ok entry =>
      rw [firstTarget] at h
      rw [extractZip.go]
      split at h
      · cases h
      · rename_i htarget
        rw [if_neg htarget]
        exact ih h

/-- If all entries can be copied, the last one with the name is at the path. -/
theorem ends_go_extractZip (hcreate : a.create = .ok ()) {entries : List (Except String Entry)}
    (hall : allCopied a targetName entries = true) {found : Bool} {file : Path}
    (hsome : (found = true ∧ ∃ f, file = some f ∧ f.complete = true) ∨
      (firstTarget (isZipTarget targetName) entries).isSome = true) :
    ∃ f, Ends (extractZip.go a targetName archivePath found entries) file (.ok ()) (some f) ∧
      f.complete = true := by
  induction entries generalizing found file with
  | nil =>
    rcases hsome with ⟨rfl, f, rfl, hcomplete⟩ | hnone
    · exact ⟨f, ends_pure _ _, hcomplete⟩
    · cases hnone
  | cons entry rest ih =>
    rw [allCopied, List.all_cons, Bool.and_eq_true] at hall
    obtain ⟨hfirst, hrest⟩ := hall
    cases entry with
    | error e => cases hfirst
    | ok entry =>
      rw [firstTarget] at hsome
      rw [extractZip.go]
      by_cases htarget : isZipTarget targetName entry = true
      · rw [if_pos htarget]
        simp only [htarget, Bool.not_true, Bool.false_or] at hfirst
        obtain ⟨f, hfile⟩ := ends_createFile true file
        obtain ⟨g, hgo, hcomplete⟩ := @ih hrest true (some { f with
          data := entry.data, complete := true }) (Or.inl ⟨rfl, _, rfl, rfl⟩)
        exact ⟨g, (ends_lift hcreate _).bind (hfile.bind ((ends_copyEntry hfirst f).bind hgo)),
          hcomplete⟩
      · rw [if_neg htarget]
        rw [if_neg htarget] at hsome
        exact ih hrest hsome

/-- If an entry breaks after a file was begun, that file stays. -/
theorem breaks_go_extractZip (hcreate : a.create = .ok ()) {entries : List (Except String Entry)}
    (hall : allCopied a targetName entries ≠ true) {found : Bool} {file : Path}
    (hsome : file.isSome = true ∨ (firstTarget (isZipTarget targetName) entries).isSome = true) :
    ∃ e f, Ends (extractZip.go a targetName archivePath found entries) file (.error e)
      (some f) := by
  induction entries generalizing found file with
  | nil => exact absurd rfl hall
  | cons entry rest ih =>
    rw [allCopied, List.all_cons, ← allCopied] at hall
    cases entry with
    | error e =>
      rcases hsome with hfile | hnone
      · obtain ⟨f, rfl⟩ := Option.isSome_iff_exists.mp hfile
        exact ⟨_, f, ends_throw _ _⟩
      · cases hnone
    | ok entry =>
      rw [firstTarget] at hsome
      rw [extractZip.go]
      by_cases htarget : isZipTarget targetName entry = true
      · rw [if_pos htarget]
        simp only [htarget, Bool.not_true, Bool.false_or] at hall
        obtain ⟨f, hfile⟩ := ends_createFile true file
        by_cases hcopies : copies a entry.ends = true
        · rw [hcopies, Bool.true_and] at hall
          obtain ⟨e, g, hgo⟩ := @ih hall true (some { f with
            data := entry.data, complete := true }) (Or.inl rfl)
          exact ⟨e, g, (ends_lift hcreate _).bind (hfile.bind
            ((ends_copyEntry hcopies f).bind hgo))⟩
        · obtain ⟨e, g, hbreaks⟩ := @breaks_copyEntry a entry.data _ hcopies f
          exact ⟨e, g, (ends_lift hcreate _).bind (hfile.bind hbreaks.bind_error)⟩
      · rw [if_neg htarget]
        rw [if_neg htarget] at hsome
        simp only [htarget, Bool.not_false, Bool.true_or, Bool.true_and] at hall
        exact ih hall hsome

/-- With no file that can be created the path stays as it is. -/
theorem go_extractZip_of_create {e : String} (hcreate : a.create = .error e)
    (entries : List (Except String Entry)) (file : Path) :
    ∃ e, Ends (extractZip.go a targetName archivePath false entries) file (.error e) file := by
  induction entries with
  | nil => exact ⟨_, ends_throw _ _⟩
  | cons entry rest ih =>
    cases entry with
    | error e => exact ⟨_, ends_throw _ _⟩
    | ok entry =>
      rw [extractZip.go]
      split
      · exact ⟨e, (ends_lift hcreate _).bind_error⟩
      · exact ih

theorem extractTgz_of_create {e : String} (hcreate : a.create = .error e) (file : Path) :
    ∃ e, Ends (extractTgz a archive targetName archivePath) file (.error e) file := by
  cases hopen : a.openArchive with
  | error e => exact ⟨e, (ends_lift hopen _).bind_error⟩
  | ok _ =>
    cases hentries : archive.tar with
    | error e => exact ⟨e, (ends_lift hopen _).bind (ends_lift hentries _).bind_error⟩
    | ok entries =>
      have hgo := @go_extractTgz a targetName archivePath entries file
      suffices h : ∃ e, Ends (extractTgz.go a targetName archivePath entries) file (.error e)
          file from
        h.imp fun e he => (ends_lift hopen _).bind ((ends_lift hentries _).bind he)
      split at hgo
      · refine ⟨e, ?_⟩
        rw [Ends, hgo]
        exact (ends_lift hcreate _).bind_error
      · exact hgo

theorem extractZip_of_create {e : String} (hcreate : a.create = .error e) (file : Path) :
    ∃ e, Ends (extractZip a archive targetName archivePath) file (.error e) file := by
  cases hopen : a.openArchive with
  | error e => exact ⟨e, (ends_lift hopen _).bind_error⟩
  | ok _ =>
    cases hentries : archive.zip.mapError ("invalid zip archive: " ++ ·) with
    | error e => exact ⟨e, (ends_lift hopen _).bind (ends_lift hentries _).bind_error⟩
    | ok entries =>
      obtain ⟨e, he⟩ := @go_extractZip_of_create a targetName archivePath e hcreate entries file
      exact ⟨e, (ends_lift hopen _).bind ((ends_lift hentries _).bind he)⟩

/-- How an extraction ends: before it opens a file, after all of the binary, or between. -/
structure Extracts (x : Install Unit) (opened finished : Bool) : Prop where
  untouched : opened ≠ true → ∀ file, ∃ e, Ends x file (.error e) file
  installs : opened = true → finished = true → ∀ file, ∃ f,
    Ends x file (.ok ()) (some f) ∧ f.complete = true
  breaks : opened = true → finished ≠ true → ∀ file, ∃ e f, Ends x file (.error e) (some f)

theorem Extracts.of_error {x : Install Unit} {finished : Bool}
    (h : ∀ file, ∃ e, Ends x file (.error e) file) : Extracts x false finished where
  untouched _ := h
  installs hopened := nomatch hopened
  breaks hopened := nomatch hopened

theorem extracts_unpack {entry : Entry} (hcreate : a.create = .ok ()) :
    Extracts (unpack a entry) true (a.mode.isOk && copies a entry.ends) where
  untouched h := absurd rfl h
  installs _ h file := by
    rw [Bool.and_eq_true, isOk_iff] at h
    exact ends_unpack hcreate h.2 h.1 file
  breaks _ h file := breaks_unpack hcreate h file

theorem extracts_tgz (hopen : a.openArchive = .ok ()) (hcreate : a.create = .ok ()) :
    Extracts (extractTgz a archive targetName archivePath)
      (archive.tar.toOption.any fun entries =>
        (firstTarget (isTarget targetName) entries).isSome)
      (a.mode.isOk && archive.tar.toOption.any fun entries =>
        (firstTarget (isTarget targetName) entries).any fun entry => copies a entry.ends) := by
  cases hentries : archive.tar with
  | error e =>
    exact .of_error fun file => ⟨e, (ends_lift hopen _).bind (ends_lift hentries _).bind_error⟩
  | ok entries =>
    have hgo := @go_extractTgz a targetName archivePath entries
    cases hfirst : firstTarget (isTarget targetName) entries with
    | none =>
      simp only [hfirst] at hgo
      simp only [Except.toOption, Option.any_some, hfirst, Option.isSome_none]
      refine .of_error fun file => ?_
      obtain ⟨e, he⟩ := hgo file
      exact ⟨e, (ends_lift hopen _).bind ((ends_lift hentries _).bind he)⟩
    | some entry =>
      simp only [hfirst] at hgo
      simp only [Except.toOption, Option.any_some, hfirst, Option.isSome_some]
      have hunpack := @extracts_unpack a entry hcreate
      have hends : ∀ {file result file'}, Ends (unpack a entry) file result file' →
          Ends (extractTgz a archive targetName archivePath) file result file' := by
        intro file result file' h
        refine (ends_lift hopen _).bind ((ends_lift hentries _).bind ?_)
        rw [Ends, hgo]
        exact h
      refine ⟨fun h => absurd rfl h, fun h hfinished file => ?_, fun h hfinished file => ?_⟩
      · obtain ⟨f, hf, hcomplete⟩ := hunpack.installs h hfinished file
        exact ⟨f, hends hf, hcomplete⟩
      · obtain ⟨e, f, hf⟩ := hunpack.breaks h hfinished file
        exact ⟨e, f, hends hf⟩

theorem extracts_zip (hopen : a.openArchive = .ok ()) (hcreate : a.create = .ok ()) :
    Extracts (extractZip a archive targetName archivePath)
      (archive.zip.toOption.any fun entries =>
        (firstTarget (isZipTarget targetName) entries).isSome)
      (archive.zip.toOption.any (allCopied a targetName)) := by
  cases hentries : archive.zip with
  | error e =>
    have hzip : archive.zip.mapError ("invalid zip archive: " ++ ·) =
        .error ("invalid zip archive: " ++ e) := by rw [hentries, Except.mapError]
    exact .of_error fun file => ⟨_, (ends_lift hopen _).bind (ends_lift hzip _).bind_error⟩
  | ok entries =>
    simp only [Except.toOption, Option.any_some]
    have hends : ∀ {file result file'},
        Ends (extractZip.go a targetName archivePath false entries) file result file' →
        Ends (extractZip a archive targetName archivePath) file result file' := by
      intro file result file' h
      exact (ends_lift hopen _).bind ((ends_lift (by rw [hentries, Except.mapError]) _).bind h)
    refine ⟨fun h file => ?_, fun h hall file => ?_, fun h hall file => ?_⟩
    · obtain ⟨e, he⟩ := @go_extractZip_of_none a targetName archivePath entries
        (Option.not_isSome_iff_eq_none.mp h) file
      exact ⟨e, hends he⟩
    · obtain ⟨f, hf, hcomplete⟩ := ends_go_extractZip hcreate hall (Or.inr h)
      exact ⟨f, hends hf, hcomplete⟩
    · obtain ⟨e, f, hf⟩ := breaks_go_extractZip hcreate hall (Or.inr h)
      exact ⟨e, f, hends hf⟩

theorem extracts_gzip (hopen : a.openArchive = .ok ()) (hcreate : a.create = .ok ()) :
    Extracts (extractGzip a archive) true (copies a archive.gzip.2) where
  untouched h := absurd rfl h
  installs _ h file := by
    obtain ⟨f, hfile⟩ := ends_createFile true file
    have hgzip : archive.gzip.2 = .ok () := by
      rw [copies, Bool.and_eq_true] at h
      exact isOk_iff.mp h.2
    rw [hgzip] at h
    exact ⟨_, (ends_lift hopen _).bind ((ends_lift hcreate _).bind (hfile.bind
      ((ends_lift hgzip _).bind (ends_copyEntry h f)))), rfl⟩
  breaks _ h file := by
    obtain ⟨f, hfile⟩ := ends_createFile true file
    cases hgzip : archive.gzip.2 with
    | error e =>
      exact ⟨e, f, (ends_lift hopen _).bind ((ends_lift hcreate _).bind (hfile.bind
        (ends_lift hgzip _).bind_error))⟩
    | ok _ =>
      rw [hgzip] at h
      obtain ⟨e, g, hg⟩ := @breaks_copyEntry a archive.gzip.1 _ h f
      exact ⟨e, g, (ends_lift hopen _).bind ((ends_lift hcreate _).bind (hfile.bind
        ((ends_lift hgzip _).bind hg)))⟩

/-- **What an extraction leaves**, whatever the format. -/
theorem extracts_extract (asset : String) :
    Extracts (extract a archive asset targetName archivePath)
      (opens a archive asset targetName) (finishes a archive asset targetName) := by
  rw [opens]
  by_cases hopen : a.openArchive.isOk = true
  case neg =>
    obtain ⟨e, hopen⟩ := exists_error hopen
    rw [hopen]
    refine .of_error fun file => ?_
    unfold extract
    split
    · exact ⟨e, (ends_lift hopen _).bind_error⟩
    · exact ⟨e, (ends_lift hopen _).bind_error⟩
    · exact ⟨e, (ends_lift hopen _).bind_error⟩
    · exact ⟨_, ends_throw _ _⟩
  rw [hopen, Bool.true_and]
  rw [isOk_iff] at hopen
  by_cases hcreate : a.create.isOk = true
  case neg =>
    obtain ⟨e, hcreate⟩ := exists_error hcreate
    rw [hcreate]
    refine .of_error fun file => ?_
    unfold extract
    split
    · exact extractTgz_of_create hcreate file
    · exact extractZip_of_create hcreate file
    · exact ⟨e, (ends_lift hopen _).bind (ends_lift hcreate _).bind_error⟩
    · exact ⟨_, ends_throw _ _⟩
  rw [hcreate, Bool.true_and]
  rw [isOk_iff] at hcreate
  unfold extract finishes
  split
  · exact extracts_tgz hopen hcreate
  · exact extracts_zip hopen hcreate
  · exact extracts_gzip hopen hcreate
  · exact .of_error fun file => ⟨_, ends_throw _ _⟩

end Extract

/-! ### The attempts -/

/-- The archive of an attempt, if it is downloaded and valid. -/
def delivered (asset : String) (a : Attempt) : Option Archive :=
  match a.download with
  | .error _ => none
  | .ok archive => if (validateArchive a archive asset).isOk then some archive else none

/-- The attempt begins a file at the path. -/
def opened (asset targetName : String) (a : Attempt) : Bool :=
  (delivered asset a).any fun archive => opens a archive asset targetName

/-- The attempt extracts the binary. -/
def extracted (asset targetName : String) (a : Attempt) : Bool :=
  (delivered asset a).any fun archive =>
    opens a archive asset targetName && finishes a archive asset targetName

section Attempts

variable {asset targetName archivePath : String} {a : Attempt} {rest : List Attempt}
  {lastErr : Option String} {file : Path}

/-- One attempt: nothing is delivered, or its archive is extracted. -/
theorem attempts_cons : (delivered asset a = none ∧
      ∃ e, attempts asset targetName archivePath (a :: rest) lastErr =
        attempts asset targetName archivePath rest (some e)) ∨
    ∃ archive, delivered asset a = some archive ∧
      attempts asset targetName archivePath (a :: rest) lastErr = (do
        match ← attempt (extract a archive asset targetName archivePath) with
        | .ok () => pure (lastErr, true)
        | .error e => attempts asset targetName archivePath rest (some e)) := by
  cases hdownload : a.download with
  | error e =>
    refine Or.inl ⟨by rw [delivered, hdownload], e, ?_⟩
    rw [attempts, hdownload]
  | ok archive =>
    cases hvalid : validateArchive a archive asset with
    | error e =>
      refine Or.inl ⟨by rw [delivered, hdownload]; simp only [hvalid]; rfl, e, ?_⟩
      rw [attempts, hdownload]
      simp only [hvalid]
    | ok _ =>
      refine Or.inr ⟨archive, by rw [delivered, hdownload]; simp only [hvalid]; rfl, ?_⟩
      rw [attempts, hdownload]
      simp only [hvalid]

/-- The attempt that extracts the binary is the last one. -/
theorem ends_attempts_of_extracted {as : List Attempt}
    (h : as.any (extracted asset targetName) = true) (lastErr : Option String) (file : Path) :
    ∃ err f, Ends (attempts asset targetName archivePath as lastErr) file (.ok (err, true))
      (some f) ∧ f.complete = true := by
  induction as generalizing lastErr file with
  | nil => cases h
  | cons a rest ih =>
    rw [List.any_cons, Bool.or_eq_true] at h
    rcases @attempts_cons asset targetName archivePath a rest lastErr with
      ⟨hnone, e, hrest⟩ | ⟨archive, hsome, hextract⟩
    · rw [hrest]
      refine ih (h.resolve_left fun hfirst => ?_) (some e) file
      rw [extracted, hnone] at hfirst
      cases hfirst
    · rw [hextract]
      have hcases := @extracts_extract a archive targetName archivePath asset
      by_cases hopens : opens a archive asset targetName = true
      · by_cases hfinishes : finishes a archive asset targetName = true
        · obtain ⟨f, hf, hcomplete⟩ := hcases.installs hopens hfinishes file
          exact ⟨lastErr, f, hf.attempt.bind (ends_pure _ _), hcomplete⟩
        · obtain ⟨e, g, hg⟩ := hcases.breaks hopens hfinishes file
          obtain ⟨err, f, hf, hcomplete⟩ := ih (h.resolve_left fun hfirst => by
            rw [extracted, hsome, Option.any_some, Bool.and_eq_true] at hfirst
            exact hfinishes hfirst.2) (some e) (some g)
          exact ⟨err, f, hg.attempt.bind hf, hcomplete⟩
      · obtain ⟨e, he⟩ := hcases.untouched hopens file
        obtain ⟨err, f, hf, hcomplete⟩ := ih (h.resolve_left fun hfirst => by
          rw [extracted, hsome, Option.any_some, Bool.and_eq_true] at hfirst
          exact hopens hfirst.1) (some e) file
        exact ⟨err, f, he.attempt.bind hf, hcomplete⟩

/-- If none extracts the binary, a file that was begun stays. -/
theorem ends_attempts_of_not_extracted {as : List Attempt}
    (h : as.any (extracted asset targetName) ≠ true) (lastErr : Option String) (file : Path) :
    ∃ err file', Ends (attempts asset targetName archivePath as lastErr) file (.ok (err, false))
      file' ∧ (file' = file ∧ as.any (opened asset targetName) = false ∨
        file'.isSome = true ∧ as.any (opened asset targetName) = true) := by
  induction as generalizing lastErr file with
  | nil => exact ⟨lastErr, file, ends_pure _ _, Or.inl ⟨rfl, rfl⟩⟩
  | cons a rest ih =>
    rw [List.any_cons, ne_eq, Bool.or_eq_true, not_or] at h
    obtain ⟨hfirst, hlater⟩ := h
    rw [List.any_cons]
    rcases @attempts_cons asset targetName archivePath a rest lastErr with
      ⟨hnone, e, hrest⟩ | ⟨archive, hsome, hextract⟩
    · have hopened : opened asset targetName a = false := by rw [opened, hnone]; rfl
      rw [hrest, hopened, Bool.false_or]
      exact ih hlater (some e) file
    · rw [extracted, hsome, Option.any_some, Bool.and_eq_true] at hfirst
      rw [hextract, opened, hsome, Option.any_some]
      have hcases := @extracts_extract a archive targetName archivePath asset
      by_cases hopens : opens a archive asset targetName = true
      · obtain ⟨e, g, hg⟩ := hcases.breaks hopens (fun hf => hfirst ⟨hopens, hf⟩) file
        obtain ⟨err, file', hends, hcase⟩ := ih hlater (some e) (some g)
        refine ⟨err, file', hg.attempt.bind hends, Or.inr ⟨?_, by rw [hopens, Bool.true_or]⟩⟩
        rcases hcase with ⟨rfl, -⟩ | ⟨hfile, -⟩
        · rfl
        · exact hfile
      · obtain ⟨e, he⟩ := hcases.untouched hopens file
        obtain ⟨err, file', hends, hcase⟩ := ih hlater (some e) file
        rw [Bool.not_eq_true] at hopens
        rw [hopens, Bool.false_or]
        exact ⟨err, file', he.attempt.bind hends, hcase⟩

end Attempts

/-! ### A call -/

/-- The asset a call downloads, if it gets as far. -/
def assetOf (env : Env) (core : CoreType) (version : Option String) : Option String :=
  match chosenVersion env version, env.target, env.createDir with
  | .ok v, .ok target, .ok () => some (assetName core v target)
  | _, _, _ => none

/-- One of the two attempts extracts the binary. -/
def installs (env : Env) (core : CoreType) (asset : String) : Bool :=
  [env.first, env.second].any (extracted asset (binaryName core))

/-- One of the two attempts begins a file. -/
def begins (env : Env) (core : CoreType) (asset : String) : Bool :=
  [env.first, env.second].any (opened asset (binaryName core))

/-- A binary that is extracted can be made executable, and with none extracted no file was
begun. -/
def LeavesNothing (env : Env) (core : CoreType) (version : Option String) : Prop :=
  ∀ asset ∈ assetOf env core version,
    if installs env core asset = true then env.chmod.isOk = true
    else begins env core asset = false

instance (env : Env) (core : CoreType) (version : Option String) :
    Decidable (LeavesNothing env core version) :=
  inferInstanceAs (Decidable (∀ asset ∈ assetOf env core version, _))

section Call

variable {env : Env} {core : CoreType} {version : Option String} {file : Path}

/-- A file that is seen is the installed core. -/
theorem ends_ensureCoreBinary_of_seen (h : (env.seen && file.isSome) = true) :
    Ends (ensureCoreBinary env core version) file (.ok ()) file := by
  refine (ends_read file).bind ?_
  rw [if_pos h]
  exact ends_pure _ _

/-- What a call does that does not see a file. -/
theorem ensureCoreBinary_unseen (h : (env.seen && file.isSome) ≠ true) :
    (assetOf env core version = none ∧
      ∃ e, Ends (ensureCoreBinary env core version) file (.error e) file) ∨
    ∃ asset v, assetOf env core version = some asset ∧
      ∀ result file', Ends (do
        let (lastErr, installed) ← attempts asset (binaryName core) (env.binDir ++ "/." ++ asset)
          [env.first, env.second] none
        if installed then setExecutable env
        else throw (lastErr.getD (notInstalled core v asset))) file result file' →
      Ends (ensureCoreBinary env core version) file result file' := by
  rw [assetOf]
  cases hversion : chosenVersion env version with
  | error e =>
    refine Or.inl ⟨rfl, e, (ends_read file).bind ?_⟩
    rw [if_neg h]
    exact (ends_lift hversion _).bind_error
  | ok v =>
    cases htarget : env.target with
    | error e =>
      refine Or.inl ⟨rfl, e, (ends_read file).bind ?_⟩
      rw [if_neg h]
      exact (ends_lift hversion _).bind (ends_lift htarget _).bind_error
    | ok target =>
      cases hdir : env.createDir with
      | error e =>
        refine Or.inl ⟨rfl, e, (ends_read file).bind ?_⟩
        rw [if_neg h]
        exact (ends_lift hversion _).bind ((ends_lift htarget _).bind
          (ends_lift hdir _).bind_error)
      | ok _ =>
        refine Or.inr ⟨_, v, rfl, fun result file' hrest => (ends_read file).bind ?_⟩
        rw [if_neg h]
        exact (ends_lift hversion _).bind ((ends_lift htarget _).bind
          ((ends_lift hdir _).bind hrest))

/-- **How a call ends** that does not see a file. -/
theorem ensureCoreBinary_cases (h : (env.seen && file.isSome) ≠ true) :
    (assetOf env core version = none ∧
      ∃ e, Ends (ensureCoreBinary env core version) file (.error e) file) ∨
    ∃ asset, assetOf env core version = some asset ∧
      ((installs env core asset = true ∧ ∃ f, f.complete = true ∧
        ((env.chmod.isOk = true ∧ Ends (ensureCoreBinary env core version) file (.ok ())
            (some { f with executable := true })) ∨
          env.chmod.isOk ≠ true ∧
            ∃ e, Ends (ensureCoreBinary env core version) file (.error e) (some f))) ∨
      installs env core asset ≠ true ∧
        ∃ e file', Ends (ensureCoreBinary env core version) file (.error e) file' ∧
          (file' = file ∧ begins env core asset = false ∨
            file'.isSome = true ∧ begins env core asset = true)) := by
  rcases @ensureCoreBinary_unseen env core version file h with
    hnone | ⟨asset, _, hasset, hends⟩
  · exact Or.inl hnone
  refine Or.inr ⟨asset, hasset, ?_⟩
  by_cases hinstalls : installs env core asset = true
  · obtain ⟨err, f, hf, hcomplete⟩ := @ends_attempts_of_extracted asset (binaryName core)
      (env.binDir ++ "/." ++ asset) _ hinstalls none file
    refine Or.inl ⟨hinstalls, f, hcomplete, ?_⟩
    by_cases hchmod : env.chmod.isOk = true
    · refine Or.inl ⟨hchmod, hends _ _ (hf.bind ?_)⟩
      have hset : Ends (setExecutable env) (some f) (.ok ())
          (some { f with executable := f.executable || true }) :=
        (ends_lift (isOk_iff.mp hchmod) _).bind (ends_setMode true f)
      rw [Bool.or_true] at hset
      exact hset
    · obtain ⟨e, he⟩ := exists_error hchmod
      exact Or.inr ⟨hchmod, e, hends _ _ (hf.bind (ends_lift he _).bind_error)⟩
  · obtain ⟨err, file', hf, hcase⟩ := @ends_attempts_of_not_extracted asset (binaryName core)
      (env.binDir ++ "/." ++ asset) _ hinstalls none file
    exact Or.inr ⟨hinstalls, _, file', hends _ _ (hf.bind (ends_throw _ _)), hcase⟩

/-- A file that a call has installed. -/
def Installed (file : Path) : Prop :=
  ∃ f, file = some f ∧ f.complete = true ∧ f.executable = true

/-- Every call that fails with no file before it leaves none. -/
def FailsClean (env : Env) (core : CoreType) (version : Option String) : Prop :=
  ∀ e, (ensureCoreBinary env core version none).result = .error e →
    (ensureCoreBinary env core version none).state = none

/-- **When a call that fails leaves no file.** -/
theorem failsClean_iff_leavesNothing :
    FailsClean env core version ↔ LeavesNothing env core version := by
  have hunseen : (env.seen && (none : Path).isSome) ≠ true := by
    rw [Option.isSome_none, Bool.and_false]
    exact Bool.false_ne_true
  rcases @ensureCoreBinary_cases env core version none hunseen with
    ⟨hasset, e, he⟩ | ⟨asset, hasset, hcase⟩
  · refine iff_of_true (fun _ _ => he.2) fun asset hasset' => ?_
    cases hasset.symm.trans hasset'
  have hsimp : LeavesNothing env core version ↔ if installs env core asset = true then
      env.chmod.isOk = true else begins env core asset = false := by
    refine ⟨fun h => h asset hasset, fun h asset' hasset' => ?_⟩
    cases hasset.symm.trans hasset'
    exact h
  rw [hsimp]
  rcases hcase with ⟨hinstalls, f, -, ⟨hchmod, hok⟩ | ⟨hchmod, e, he⟩⟩ |
    ⟨hinstalls, e, file', he, ⟨rfl, hbegins⟩ | ⟨hfile, hbegins⟩⟩
  · rw [if_pos hinstalls]
    exact iff_of_true (fun e he => nomatch hok.1.symm.trans he) hchmod
  · rw [if_pos hinstalls]
    exact iff_of_false (fun h => nomatch he.2.symm.trans (h e he.1)) hchmod
  · rw [if_neg hinstalls]
    exact iff_of_true (fun _ _ => he.2) hbegins
  · rw [if_neg hinstalls, hbegins]
    refine iff_of_false (fun h => ?_) Bool.true_eq_false.mp
    rw [he.2.symm.trans (h e he.1)] at hfile
    cases hfile

/-- What a call reports as installed is installed, if it was so before. -/
theorem installed_of_ok (hfile : file = none ∨ Installed file)
    (hok : (ensureCoreBinary env core version file).result = .ok ()) :
    Installed (ensureCoreBinary env core version file).state := by
  by_cases h : (env.seen && file.isSome) = true
  · rw [(ends_ensureCoreBinary_of_seen h).2]
    rw [Bool.and_eq_true] at h
    refine hfile.resolve_left fun hnone => ?_
    rw [hnone] at h
    cases h.2
  · rcases @ensureCoreBinary_cases env core version file h with
      ⟨-, e, he⟩ | ⟨asset, -, ⟨-, f, hcomplete, ⟨-, hends⟩ | ⟨-, e, he⟩⟩ | ⟨-, e, file', he, -⟩⟩
    · cases he.1.symm.trans hok
    · exact ⟨_, hends.2, hcomplete, rfl⟩
    · cases he.1.symm.trans hok
    · cases he.1.symm.trans hok

theorem ensureCoreBinary_keeps (hclean : LeavesNothing env core version)
    (hfile : file = none ∨ Installed file) :
    (ensureCoreBinary env core version file).state = none ∨
      Installed (ensureCoreBinary env core version file).state := by
  by_cases h : (env.seen && file.isSome) = true
  · rw [(ends_ensureCoreBinary_of_seen h).2]
    exact hfile
  · rcases @ensureCoreBinary_cases env core version file h with ⟨-, e, he⟩ | ⟨asset, hasset,
      ⟨hinstalls, f, hcomplete, ⟨-, hends⟩ | ⟨hchmod, -⟩⟩ | ⟨hinstalls, e, file', he, hcase⟩⟩
    · rw [he.2]
      exact hfile
    · exact Or.inr ⟨_, hends.2, hcomplete, rfl⟩
    · have hcall := hclean asset hasset
      rw [if_pos hinstalls] at hcall
      exact absurd hcall hchmod
    · have hcall := hclean asset hasset
      rw [if_neg hinstalls] at hcall
      rcases hcase with ⟨rfl, -⟩ | ⟨-, hbegins⟩
      · rw [he.2]
        exact hfile
      · cases hcall.symm.trans hbegins

end Call

/-! ### Calls after one another -/

structure Call where
  env : Env
  version : Option String

/-- The path after a call. -/
def callStep (core : CoreType) (file : Path) (call : Call) : Option Path :=
  some (ensureCoreBinary call.env core call.version file).state

/-- What the call reports as installed is a complete file that can be executed. -/
def Reports (core : CoreType) (file : Path) (call : Call) : Prop :=
  (ensureCoreBinary call.env core call.version file).result = .ok () →
    Installed (ensureCoreBinary call.env core call.version file).state

/-- **A call that fails leaves no file exactly if it `LeavesNothing`**, and after such calls
no call reports a file that is incomplete or cannot be executed. -/
theorem no_half_installed_core (core : CoreType) :
    (∀ env version, FailsClean env core version ↔ LeavesNothing env core version) ∧
      ∀ calls : List Call, (∀ call ∈ calls, LeavesNothing call.env core call.version) →
        Run.Guarded (callStep core) (Reports core) none calls := by
  refine ⟨fun env version => failsClean_iff_leavesNothing, fun calls hcalls => ?_⟩
  refine @Run.guarded_of_inv _ _ _ _ (fun file => file = none ∨ Installed file) _
    (fun file call file' hfile hclean hstep => ?_) (fun file call hfile _ hok => ?_) none calls
    (Or.inl rfl) hcalls
  · cases hstep
    exact ensureCoreBinary_keeps hclean hfile
  · exact installed_of_ok hfile hok

namespace BrokenStream

/-- A gzip stream of two bytes that breaks. -/
def archive : Archive where
  size := 8388608
  preview := ""
  magic := .ok [0x1f, 0x8b, 0x08, 0x00]
  tar := .ok []
  zip := .error "no end of central directory"
  gzip := ([0x7f, 0x45], .error "corrupt deflate stream")

def attempt : Attempt where
  download := .ok archive
  inspect := .ok ()
  openArchive := .ok ()
  create := .ok ()
  written := none
  mode := .ok ()

def env : Env where
  binDir := "/var/lib/agent/bin"
  seen := true
  resolveVersion := .ok "v1.19.0"
  target := .ok ("linux-amd64", false)
  createDir := .ok ()
  first := attempt
  second := attempt
  chmod := .ok ()

/-- What is at the path afterwards. -/
def left : Path := some ⟨[], false, false⟩

/-- The call fails and leaves an empty file; the next one reports it as installed. -/
theorem reported : ((ensureCoreBinary env .mihomo none none).result =
      .error "corrupt deflate stream" ∧
    (ensureCoreBinary env .mihomo none none).state = left) ∧
    (ensureCoreBinary env .mihomo none left).result = .ok () ∧
    (ensureCoreBinary env .mihomo none left).state = left := by
  decide

end BrokenStream

end ProxyPanel.Core.Installer
