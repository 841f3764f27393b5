import ProxyPanel.Db.Entities
import ProxyPanel.Common.Protocol
import ProxyPanel.Lib.Shell
import ProxyPanel.Lib.Text

/-!
# The install command of a node

The hub answers with a command line that an administrator pastes into the shell of a node.
Its arguments come from the request and the configuration; they are quoted by `shellQuote`
and the quotes around it.  `command_eq_write` reads the format string as a pipeline that is
written by the library of shell words, which reads it back: `nodeInstallCommand_parses`.
-/

namespace ProxyPanel.Hub.InstallCommand

/-- The fields of the configuration that the answer depends on. -/
structure HubConfig where
  grpcListen : String
  hasHttpTlsCert : Bool
  publicHttpUrl : Option String
  publicGrpcUrl : Option String

/-- The headers of the request, as far as they are there and are text. -/
structure Headers where
  host : Option String
  forwardedProto : Option String

/-- What is drawn or computed outside. -/
structure InstallEnv where
  now : DateTime
  rawToken : String
  hashSecret : String → Except String String
  pkgVersion : String

structure Answer where
  id : Uuid
  name : String
  token : String
  hubUrl : String
  scriptUrl : String
  version : String
  command : String
  wasConnected : Bool

def trimEndSlashes (s : String) : String :=
  String.ofList (s.toList.reverse.dropWhile (· = '/')).reverse

def requestHost (headers : Headers) : String := headers.host.getD "localhost:8081"

def requestScheme (config : HubConfig) (headers : Headers) : String :=
  headers.forwardedProto.getD (if config.hasHttpTlsCert then "https" else "http")

def scriptUrl (config : HubConfig) (headers : Headers) : String :=
  match config.publicHttpUrl with
  | some publicUrl => trimEndSlashes publicUrl ++ "/install.sh"
  | none => requestScheme config headers ++ "://" ++ requestHost headers ++ "/install.sh"

def hubUrl (config : HubConfig) (headers : Headers) : String :=
  match config.publicGrpcUrl with
  | some publicGrpc => publicGrpc
  | none =>
    let hostWithoutPort := (Text.split ':' (requestHost headers)).head?.getD (requestHost headers)
    let grpcPort := ((Text.split ':' config.grpcListen).getLast?.bind
      (Text.parseUnsigned 65535)).getD 50052
    requestScheme config headers ++ "://" ++ hostWithoutPort ++ ":" ++ toString grpcPort

/-- For use between single quotes. -/
def shellQuote (s : String) : String :=
  String.ofList (s.toList.flatMap fun c => if c = '\'' then "'\\''".toList else [c])

def command (scriptUrl hubUrl rawToken id name version : String) : String :=
  "curl -fsSL '" ++ shellQuote scriptUrl ++ "' | bash -s -- --hub-url '" ++ shellQuote hubUrl ++
    "' --token '" ++ shellQuote rawToken ++ "' --agent-id '" ++ shellQuote id ++
    "' --name '" ++ shellQuote name ++ "' --version '" ++ shellQuote version ++ "'"

/-- The token is drawn anew for each request. -/
def nodeInstallCommand (env : InstallEnv) (config : HubConfig) (headers : Headers) (id : Uuid)
    (db : Db) : ApiResult (Answer × Db) :=
  match db.nodes.find id with
  | none => .error (.notFound "node not found")
  | some n =>
    match env.hashSecret env.rawToken with
    | .error e => .error (.internal ("failed to hash token: " ++ e))
    | .ok tokenHash =>
      let scriptUrl := scriptUrl config headers
      let hubUrl := hubUrl config headers
      let version := "v" ++ env.pkgVersion
      .ok ({
        id := id
        name := n.name
        token := env.rawToken
        hubUrl := hubUrl
        scriptUrl := scriptUrl
        version := version
        command := command scriptUrl hubUrl env.rawToken id.toStr n.name version
        wasConnected := n.lastSeenAt.isSome },
        { db with nodes := db.nodes.update id fun n =>
          { n with tokenHash := tokenHash, updatedAt := env.now } })

/-! ### The command as a pipeline -/

open Shell

/-- What the command is meant to be. -/
def pipeline (scriptUrl hubUrl rawToken id name version : String) : List (List Arg) :=
  [[.plain "curl", .plain "-fsSL", .quoted scriptUrl],
    [.plain "bash", .plain "-s", .plain "--", .plain "--hub-url", .quoted hubUrl,
      .plain "--token", .quoted rawToken, .plain "--agent-id", .quoted id,
      .plain "--name", .quoted name, .plain "--version", .quoted version]]

theorem toList_shellQuote (s : String) : (shellQuote s).toList = escape s.toList := by
  rw [shellQuote, String.toList_ofList]
  rfl

theorem command_eq_write (scriptUrl hubUrl rawToken id name version : String) :
    command scriptUrl hubUrl rawToken id name version =
      String.ofList (writePipeline (pipeline scriptUrl hubUrl rawToken id name version)) := by
  refine String.toList_inj.mp ?_
  unfold command
  simp [pipeline, writePipeline, writeCommand, Arg.chars, toList_shellQuote]

/-- The words of the format string need no quotes. -/
theorem valid_plain {word : String} (h : word ∈ ["curl", "-fsSL", "bash", "-s", "--", "--hub-url",
    "--token", "--agent-id", "--name", "--version"]) : (Arg.plain word).Valid := by
  have hall : ∀ word ∈ ["curl", "-fsSL", "bash", "-s", "--", "--hub-url", "--token", "--agent-id",
      "--name", "--version"], (!word.toList.isEmpty && word.toList.all isPlain) = true := by
    decide
  obtain ⟨hne, hplain⟩ := Bool.and_eq_true_iff.mp (hall word h)
  refine ⟨?_, List.all_eq_true.mp hplain⟩
  rintro rfl
  cases hne

theorem valid_pipeline (scriptUrl hubUrl rawToken id name version : String) :
    ∀ args ∈ pipeline scriptUrl hubUrl rawToken id name version, ∀ a ∈ args, a.Valid := by
  have hquoted : ∀ text, (Arg.quoted text).Valid := fun _ => trivial
  simp only [pipeline, List.forall_mem_cons]
  refine ⟨⟨valid_plain (by decide), valid_plain (by decide), hquoted _, nofun⟩,
    ⟨valid_plain (by decide), valid_plain (by decide), valid_plain (by decide),
      valid_plain (by decide), hquoted _, valid_plain (by decide), hquoted _,
      valid_plain (by decide), hquoted _, valid_plain (by decide), hquoted _,
      valid_plain (by decide), hquoted _, nofun⟩, nofun⟩

/-- **The format string quotes**: whatever the arguments are, the shell reads two commands with
these words. -/
theorem parsePipeline_command (scriptUrl hubUrl rawToken id name version : String) :
    parsePipeline (command scriptUrl hubUrl rawToken id name version) =
      some [["curl", "-fsSL", scriptUrl], ["bash", "-s", "--", "--hub-url", hubUrl,
        "--token", rawToken, "--agent-id", id, "--name", name, "--version", version]] := by
  have hcommand : ∀ args ∈ pipeline scriptUrl hubUrl rawToken id name version,
      isCommand (args.map Arg.text) = true := by
    simp only [pipeline, List.forall_mem_cons]
    refine ⟨?_, ?_, nofun⟩
    · exact (decide_eq_true (by decide) : decide ("curl" ∉ reserved) = true)
    · exact (decide_eq_true (by decide) : decide ("bash" ∉ reserved) = true)
  have hvalid := valid_pipeline scriptUrl hubUrl rawToken id name version
  rw [command_eq_write]
  exact parsePipeline_write (List.cons_ne_nil _ _) hvalid hcommand

/-- **The answer of the hub is safe to paste**: the shell reads the two commands, with the name
of the node, the token and the addresses as single words. -/
theorem nodeInstallCommand_parses {env : InstallEnv} {config : HubConfig} {headers : Headers}
    {id : Uuid} {db db' : Db} {answer : Answer}
    (h : nodeInstallCommand env config headers id db = .ok (answer, db')) :
    ∃ n, db.nodes.find id = some n ∧
      parsePipeline answer.command = some [["curl", "-fsSL", scriptUrl config headers],
        ["bash", "-s", "--", "--hub-url", hubUrl config headers, "--token", env.rawToken,
          "--agent-id", id.toStr, "--name", n.name, "--version", "v" ++ env.pkgVersion]] := by
  unfold nodeInstallCommand at h
  split at h
  · cases h
  · rename_i n hn
    split at h
    · cases h
    · cases h
      exact ⟨n, hn, parsePipeline_command _ _ _ _ _ _⟩

namespace Apostrophe

def node : Node where
  id := .ofNat 1
  name := "bob's $(reboot)"
  hostname := "node"
  address := "192.0.2.1"
  domain := none
  tokenHash := "hash"
  coresAvailable := .null
  usageCoefficient := 0x3f800000
  status := "offline"
  parentId := none
  lastSeenAt := none
  updatedAt := default

def db : Db where
  nodes := .single node

def env : InstallEnv := ⟨default, "token", fun _ => .ok "hash", "0.1.0"⟩

def config : HubConfig := ⟨"0.0.0.0:50052", false, none, none⟩

def headers : Headers := ⟨some "hub.example.com'; reboot #", none⟩

end Apostrophe

theorem nodeInstallCommand_parses_apostrophe : ∃ answer db',
    nodeInstallCommand Apostrophe.env Apostrophe.config Apostrophe.headers Apostrophe.node.id
      Apostrophe.db = .ok (answer, db') ∧
    ∃ n, Apostrophe.db.nodes.find Apostrophe.node.id = some n ∧
      parsePipeline answer.command =
        some [["curl", "-fsSL", scriptUrl Apostrophe.config Apostrophe.headers],
          ["bash", "-s", "--", "--hub-url", hubUrl Apostrophe.config Apostrophe.headers,
            "--token", "token", "--agent-id", Apostrophe.node.id.toStr, "--name", n.name,
            "--version", "v" ++ "0.1.0"]] :=
  ⟨_, _, rfl, @nodeInstallCommand_parses Apostrophe.env _ _ _ _ _ _ rfl⟩

end ProxyPanel.Hub.InstallCommand
