import LandingBench.System.Step

/-!
# Starting the program

A start reads the command line and the configuration file, and writes the file
if there is none.  What it writes cannot be started from, so a start that goes
on has read what somebody else has written.
-/

namespace LandingBench

open Async Data

/-! ## The command line -/

/-- The exit code, and what is wrong with the arguments. -/
structure Usage where
  code : ℕ
  problem : Option String
  deriving DecidableEq, Repr

structure CliArgs where
  configPath : Option String
  deriving DecidableEq, Repr

/-- The loop over the arguments; `parsed` is what has been read so far. -/
def CliArgs.parse (parsed : CliArgs) : List String → Except Usage CliArgs
  | [] => .ok parsed
  | arg :: rest =>
      if arg = "--config" then
        match rest with
        | [] => .error ⟨1, some "Missing value for --config"⟩
        | value :: rest => CliArgs.parse ⟨some value⟩ rest
      else if arg = "--help" ∨ arg = "-h" then .error ⟨0, none⟩
      else .error ⟨1, some s!"Unknown argument: {arg}"⟩

def defaultConfigPath : String := "config.toml"

/-! ## The configuration file -/

/-- What stands in the file: the configuration, and the key that `main` decodes. -/
structure ConfigFile where
  toml : ConfigToml
  privateKey : String
  deriving DecidableEq

def defaultUtilityRpc : String := "https://api.mainnet-beta.solana.com"

def defaultLandingGraceMs : ℕ := 10000

def defaultPriorityFee : F64 := .finite 0

def defaultComputeUnitLimit : UInt32 := 1000000

/-- The configuration that `create_default` writes. -/
def ConfigFile.default : ConfigFile where
  toml :=
    { config :=
        { utilityRpc := defaultUtilityRpc
          transactions := 100
          delayMs := 50
          commitment := .processed
          nonceAccount := "nonceaccountgoeshere"
          landingGraceMs := defaultLandingGraceMs
          prioFee := defaultPriorityFee
          computeUnitLimit := defaultComputeUnitLimit }
      grpc := ⟨"listener", "http://fra.corvus-labs.io:10101", none, .yellowstone⟩
      endpoint :=
        [⟨"rpc-a", "https://api.mainnet-beta.solana.com", .rpc, none, none, none⟩,
          ⟨"rpc-b", "https://ssc-dao.genesysgo.net", .rpc, none, none, none⟩] }
  privateKey := "pkgoeshere"

structure Keypair where
  pubkey : Pubkey
  sign : Message → Hash → ByteArray

/-- What a start uses of other crates. -/
structure Crates where
  host : Host
  memoProgram : Pubkey
  memoProgram_eq : host.parsePubkey memoProgramId = .ok memoProgram
  fromToml : String → Except String ConfigFile
  toToml : ConfigFile → Except String String
  keypairOfBytes : List UInt8 → Except String Keypair

/-- What the program relies on in them: a key pair has 64 bytes, and what has been
serialized is read back. -/
structure Crates.Documented (crates : Crates) : Prop where
  keypair_length : ∀ bytes keypair, crates.keypairOfBytes bytes = .ok keypair → bytes.length = 64
  reads_back : ∀ file text, crates.toToml file = .ok text → crates.fromToml text = .ok file

/-- A file that can be read as text, or anything else that exists. -/
inductive DiskEntry where
  | text (content : String)
  | unreadable
  deriving DecidableEq, Repr

/-- How a start ends, or with what `main` goes on. -/
inductive Outcome where
  | usage (usage : Usage)
  | failed (err : String)
  | began (env : Env)

structure Disk where
  entries : String → Option DiskEntry
  writable : String → Bool

def Disk.write (disk : Disk) (path : String) (entry : Option DiskEntry) : Disk :=
  { disk with entries := Function.update disk.entries path entry }

namespace Crates

variable (crates : Crates)

def load (disk : Disk) (path : String) : Except String ConfigFile :=
  match disk.entries path with
  | some (.text content) => crates.fromToml content
  | _ => .error s!"Failed to read config {path}"

/-- A write that fails leaves nothing behind. -/
def createDefault (disk : Disk) (path : String) : Except String ConfigFile × Disk :=
  match crates.toToml .default with
  | .error _ => (.error "Failed to serialize default config", disk)
  | .ok text =>
      if disk.writable path then (.ok .default, disk.write path (some (.text text)))
      else (.error s!"Failed to write default config {path}", disk)

def loadOrCreate (disk : Disk) (path : String) : Except String ConfigFile × Disk :=
  if (disk.entries path).isSome then (crates.load disk path, disk)
  else crates.createDefault disk path

def decodePrivateKey (key : String) : Except String Keypair :=
  match Base58.decode (Text.trim key) with
  | none => .error "Failed to decode private key"
  | some bytes =>
      match crates.keypairOfBytes bytes with
      | .error _ => .error "Invalid private key bytes"
      | .ok keypair => .ok keypair

/-- `main` from the validator to the channels. -/
def begin (file : ConfigFile) : Outcome :=
  match hvalid : validateConfig file.toml with
  | .error err => .failed err
  | .ok () =>
      match crates.decodePrivateKey file.privateKey with
      | .error err => .failed err
      | .ok keypair =>
          match hnonce : crates.host.parsePubkey file.toml.config.nonceAccount with
          | .error _ => .failed "Invalid nonce account pubkey"
          | .ok nonceAccount =>
              .began ⟨{ crates.host with sign := keypair.sign }, file.toml, keypair.pubkey,
                nonceAccount, crates.memoProgram, hvalid, hnonce, crates.memoProgram_eq⟩

/-- `main` from the configuration file on. -/
def beginAt (disk : Disk) (path : String) : Outcome × Disk :=
  match crates.loadOrCreate disk path with
  | (.error err, disk) => (.failed err, disk)
  | (.ok file, disk) => (crates.begin file, disk)

def launch (disk : Disk) (args : List String) : Outcome × Disk :=
  match CliArgs.parse ⟨none⟩ args with
  | .error usage => (.usage usage, disk)
  | .ok cli => crates.beginAt disk (cli.configPath.getD defaultConfigPath)

end Crates

/-! ## What a start goes on with -/

/-- The arguments are flags with their values, and the last of them counts. -/
theorem CliArgs.parse_eq_ok_iff {parsed cli : CliArgs} {args : List String} :
    parsed.parse args = .ok cli ↔ ∃ values : List String,
      args = values.flatMap (fun value ↦ ["--config", value]) ∧
        cli = ⟨values.getLast?.or parsed.configPath⟩ := by
  have hcons : ∀ (first : String) (rest : List String),
      (first :: rest).getLast? = rest.getLast?.or (some first) := by
    intro first rest
    cases rest with
    | nil => rfl
    | cons second rest => simp [List.getLast?_cons]
  fun_induction CliArgs.parse parsed args with
  | case1 parsed =>
      constructor
      · rintro ⟨⟩
        exact ⟨[], rfl, rfl⟩
      · rintro ⟨values, hvalues, rfl⟩
        cases values with
        | nil => rfl
        | cons value values => cases hvalues
  | case2 parsed =>
      refine iff_of_false (by simp) ?_
      rintro ⟨values, hvalues, -⟩
      cases values with
      | nil => cases hvalues
      | cons value values => simp at hvalues
  | case3 parsed value rest ih =>
      refine Iff.trans ih ⟨?_, ?_⟩
      · rintro ⟨values, rfl, rfl⟩
        refine ⟨value :: values, rfl, ?_⟩
        rw [hcons]
        cases values.getLast? <;> rfl
      · rintro ⟨values, hvalues, rfl⟩
        cases values with
        | nil => cases hvalues
        | cons value' values =>
            simp only [List.flatMap_cons, List.cons_append, List.nil_append, List.cons.injEq,
              true_and] at hvalues
            obtain ⟨rfl, rfl⟩ := hvalues
            refine ⟨values, rfl, ?_⟩
            rw [hcons]
            cases values.getLast? <;> rfl
  | case4 parsed arg rest hflag hhelp | case5 parsed arg rest hflag hhelp =>
      refine iff_of_false (by simp) ?_
      rintro ⟨values, hvalues, -⟩
      cases values with
      | nil => cases hvalues
      | cons value values => exact hflag (List.cons.inj hvalues).1

namespace Crates

variable {crates : Crates} {disk disk' : Disk} {file : ConfigFile} {env : Env}

/-- A key pair has more bytes than the text of the default key can stand for. -/
theorem decodePrivateKey_default (hdoc : crates.Documented) :
    crates.decodePrivateKey ConfigFile.default.privateKey = .error "Invalid private key bytes" := by
  have hdecode : (Base58.decode (Text.trim ConfigFile.default.privateKey)).map List.length =
      some 8 := by decide +kernel
  obtain ⟨bytes, hbytes, hlength⟩ := Option.map_eq_some_iff.mp hdecode
  rw [decodePrivateKey, hbytes]
  cases hkeypair : crates.keypairOfBytes bytes with
  | error err => simp only [hkeypair]
  | ok keypair =>
      have hlong := hdoc.keypair_length bytes keypair hkeypair
      omega

theorem begin_default (hdoc : crates.Documented) :
    crates.begin .default = .failed "Invalid private key bytes" := by
  have hvalid : validateConfig ConfigFile.default.toml = .ok () := by decide
  unfold begin
  split
  · rename_i err herr
    rw [hvalid] at herr
    cases herr
  · simp only [decodePrivateKey_default hdoc]

/-- The file passes the validator, its key and its nonce account can be read, and
these are what the run has at hand. -/
def Provides (crates : Crates) (file : ConfigFile) (env : Env) : Prop :=
  validateConfig file.toml = .ok () ∧ ∃ keypair,
    crates.decodePrivateKey file.privateKey = .ok keypair ∧
    crates.host.parsePubkey file.toml.config.nonceAccount = .ok env.nonceAccount ∧
    env.host = { crates.host with sign := keypair.sign } ∧ env.config = file.toml ∧
    env.authority = keypair.pubkey ∧ env.memoProgram = crates.memoProgram

theorem begin_eq_began_iff : crates.begin file = .began env ↔ crates.Provides file env := by
  unfold begin Provides
  split
  · rename_i err herr
    simp [herr]
  · rename_i hvalid
    cases hkey : crates.decodePrivateKey file.privateKey with
    | error err => simp [hvalid]
    | ok keypair =>
        dsimp only
        split
        · rename_i err hnonce
          simp [hvalid, hnonce]
        · rename_i nonceAccount hnonce
          constructor
          · rintro ⟨⟩
            exact ⟨hvalid, keypair, rfl, hnonce, rfl, rfl, rfl, rfl⟩
          · rintro ⟨-, keypair', hsame, hparsed, hhost, hconfig, hauthority, hmemo⟩
            obtain rfl := Except.ok.inj hsame
            obtain rfl := Except.ok.inj (hnonce.symm.trans hparsed)
            cases env
            obtain rfl := hhost
            obtain rfl := hconfig
            obtain rfl := hauthority
            obtain rfl := hmemo
            rfl

theorem beginAt_eq_began_iff (hdoc : crates.Documented) {path : String} :
    (crates.beginAt disk path).1 = .began env ↔ ∃ content file,
      disk.entries path = some (.text content) ∧ crates.fromToml content = .ok file ∧
        crates.Provides file env := by
  simp only [← begin_eq_began_iff]
  cases hentry : disk.entries path with
  | none =>
      refine iff_of_false ?_ (by simp)
      simp only [beginAt, loadOrCreate, hentry, Option.isSome_none, createDefault]
      cases crates.toToml .default with
      | error err => simp
      | ok text =>
          by_cases hwritable : disk.writable path = true <;>
            simp [hwritable, begin_default hdoc]
  | some entry =>
      cases entry with
      | unreadable => simp [beginAt, loadOrCreate, load, hentry]
      | text content =>
          cases hread : crates.fromToml content with
          | error err => simp [beginAt, loadOrCreate, load, hentry, hread]
          | ok file => simp [beginAt, loadOrCreate, load, hentry, hread]

/-- A start writes nothing but the default configuration where there was no file. -/
theorem beginAt_snd (crates : Crates) (disk : Disk) (path : String) :
    (crates.beginAt disk path).2 = disk ∨
      disk.entries path = none ∧ ∃ text, crates.toToml .default = .ok text ∧
        (crates.beginAt disk path).2 = disk.write path (some (.text text)) := by
  cases hentry : disk.entries path with
  | some entry =>
      left
      simp only [beginAt, loadOrCreate, hentry, Option.isSome_some, if_true]
      cases crates.load disk path <;> rfl
  | none =>
      simp only [beginAt, loadOrCreate, hentry, Option.isSome_none, createDefault]
      cases crates.toToml .default with
      | error err => exact .inl rfl
      | ok text =>
          by_cases hwritable : disk.writable path = true
          · exact .inr ⟨trivial, text, rfl, by simp [hwritable]⟩
          · exact .inl (by simp [hwritable])

/-- The file of the last `--config`, or the default one. -/
def pathOf (values : List String) : String := values.getLast?.getD defaultConfigPath

theorem parse_flags {values args : List String}
    (hargs : args = values.flatMap fun value ↦ ["--config", value]) :
    CliArgs.parse ⟨none⟩ args = .ok ⟨values.getLast?⟩ :=
  CliArgs.parse_eq_ok_iff.mpr ⟨values, hargs, by simp⟩

theorem launch_flags {values args : List String}
    (hargs : args = values.flatMap fun value ↦ ["--config", value]) :
    crates.launch disk args = crates.beginAt disk (pathOf values) := by
  rw [launch, parse_flags hargs]
  rfl

/-- Either the arguments are flags with their values, or nothing is looked at. -/
theorem launch_cases (crates : Crates) (args : List String) :
    (∃ values : List String, args = values.flatMap (fun value ↦ ["--config", value]) ∧
      ∀ disk, crates.launch disk args = crates.beginAt disk (pathOf values)) ∨
    ((¬ ∃ values : List String, args = values.flatMap fun value ↦ ["--config", value]) ∧
      ∃ usage, ∀ disk, crates.launch disk args = (.usage usage, disk)) := by
  cases hparse : CliArgs.parse ⟨none⟩ args with
  | ok cli =>
      obtain ⟨values, hargs, -⟩ := CliArgs.parse_eq_ok_iff.mp hparse
      exact .inl ⟨values, hargs, fun disk ↦ launch_flags hargs⟩
  | error usage =>
      refine .inr ⟨?_, usage, fun disk ↦ by rw [launch, hparse]⟩
      rintro ⟨values, hargs⟩
      rw [parse_flags hargs] at hparse
      cases hparse

/-- A start goes on exactly when its arguments name a file that is there and can
be read, passes the validator, and has a key and a nonce account; and then with
these. -/
theorem launch_eq_began_iff (hdoc : crates.Documented) (disk : Disk) (args : List String)
    (env : Env) : (crates.launch disk args).1 = .began env ↔ ∃ values content file,
      args = values.flatMap (fun value ↦ ["--config", value]) ∧
      disk.entries (pathOf values) = some (.text content) ∧
      crates.fromToml content = .ok file ∧ crates.Provides file env := by
  constructor
  · intro hbegan
    rcases launch_cases crates args with ⟨values, hargs, hlaunch⟩ | ⟨-, usage, hlaunch⟩
    · rw [hlaunch, beginAt_eq_began_iff hdoc] at hbegan
      obtain ⟨content, file, hentry, hread, hprovides⟩ := hbegan
      exact ⟨values, content, file, hargs, hentry, hread, hprovides⟩
    · rw [hlaunch] at hbegan
      cases hbegan
  · rintro ⟨values, content, file, hargs, hentry, hread, hprovides⟩
    rw [launch_flags hargs, beginAt_eq_began_iff hdoc]
    exact ⟨content, file, hentry, hread, hprovides⟩

end Crates

namespace Outcome

def env? : Outcome → Option Env
  | began env => some env
  | usage _ | failed _ => none

theorem env?_eq_some {outcome : Outcome} {env : Env} :
    outcome.env? = some env ↔ outcome = .began env := by
  cases outcome <;> simp [env?]

end Outcome

namespace Sample

def privateKey : String :=
  "xojE7sVPYRHfiTzkqYdT9RTewLLeb5XVEFMe5LfxtL6xKk7GriZX9wawwBentxMsb1KV6pguochywi8yKD7D9y1"

def file : ConfigFile where
  toml := config 1 [rpc "rpc"]
  privateKey := privateKey

def fileText : String :=
"[config]
utility_rpc = \"https://api.mainnet-beta.solana.com\"
transactions = 1
delay_ms = 50
commitment = \"processed\"
nonce_account = \"GLAajnheyfVTTgDUDFoRa79K7hR2D6PmSwpws5Td3hSN\"
private_key = \"" ++ privateKey ++ "\"
landing_grace_ms = 10000
prio_fee = 0.0
compute_unit_limit = 1000000

[grpc]
name = \"yellowstone\"
url = \"https://grpc.example.org\"
kind = \"yellowstone\"

[[endpoint]]
name = \"rpc\"
url = \"https://api.mainnet-beta.solana.com\"
kind = \"rpc\"
"

def defaultText : String :=
"[config]
utility_rpc = \"https://api.mainnet-beta.solana.com\"
transactions = 100
delay_ms = 50
commitment = \"processed\"
nonce_account = \"nonceaccountgoeshere\"
private_key = \"pkgoeshere\"
landing_grace_ms = 10000
prio_fee = 0.0
compute_unit_limit = 1000000

[grpc]
name = \"listener\"
url = \"http://fra.corvus-labs.io:10101\"
kind = \"yellowstone\"

[[endpoint]]
name = \"rpc-a\"
url = \"https://api.mainnet-beta.solana.com\"
kind = \"rpc\"

[[endpoint]]
name = \"rpc-b\"
url = \"https://ssc-dao.genesysgo.net\"
kind = \"rpc\"
"

/-- The crates on two configurations and on key pairs of the right length. -/
def crates : Crates where
  host := host
  memoProgram := memoProgram
  memoProgram_eq := parsePubkey_memoProgramId
  fromToml text :=
    if text = fileText then .ok file
    else if text = defaultText then .ok .default
    else .error "TOML parse error"
  toToml f :=
    if f = file then .ok fileText
    else if f = .default then .ok defaultText
    else .error "unsupported value"
  keypairOfBytes bytes :=
    if h : bytes.length = 64 then .ok ⟨Sdk.pubkeyOfBytes (bytes.drop 32) (by simp [h]), sign⟩
    else .error "signature error"

theorem crates_documented : crates.Documented where
  keypair_length bytes keypair h := by
    by_contra hlength
    simp [crates, hlength] at h
  reads_back f text h := by
    have htexts : defaultText ≠ fileText := by decide +kernel
    simp only [crates] at h
    split_ifs at h with hfile hdefault
    · obtain rfl := Except.ok.inj h
      simp [crates, hfile]
    · obtain rfl := Except.ok.inj h
      simp [crates, hdefault, htexts]

/-- The sample file in the place where a start looks for it. -/
def disk : Disk where
  entries path := if path = "config.toml" then some (.text fileText) else none
  writable _ := true

end Sample

theorem Crates.launch_eq_began_iff_sample : ∃ env,
    (Sample.crates.launch Sample.disk []).1 = .began env ∧ env.authority = Sample.authority := by
  have hbegin : (Sample.crates.begin Sample.file).env?.map (·.authority) =
      some Sample.authority := by decide +kernel
  obtain ⟨env, henv, hauthority⟩ := Option.map_eq_some_iff.mp hbegin
  have hprovides := begin_eq_began_iff.mp (Outcome.env?_eq_some.mp henv)
  refine ⟨env, (launch_eq_began_iff Sample.crates_documented Sample.disk [] env).mpr
    ⟨[], Sample.fileText, Sample.file, rfl, rfl, ?_, hprovides⟩, hauthority⟩
  simp [Sample.crates]

/-! ## One start after another -/

/-- The program is started, or somebody else writes or removes a file. -/
inductive ShellAct where
  | start (args : List String)
  | edit (path : String) (entry : Option DiskEntry)

def ShellAct.isEdit : ShellAct → Bool
  | start _ => false
  | edit _ _ => true

namespace Crates

variable {crates : Crates} {disk disk' : Disk}

def shell (crates : Crates) (disk : Disk) : Machine Disk ShellAct where
  init := disk
  step disk
    | .start args => some (crates.launch disk args).2
    | .edit path entry => some (disk.write path entry)

/-- The disk is what it would be without the program, but for default
configurations in places where nothing was. -/
structure FilledFrom (crates : Crates) (plain disk : Disk) : Prop where
  writable : disk.writable = plain.writable
  entries : ∀ path, disk.entries path = plain.entries path ∨
    plain.entries path = none ∧ ∃ text, crates.toToml .default = .ok text ∧
      disk.entries path = some (.text text)

theorem FilledFrom.edit (h : crates.FilledFrom disk' disk) (path : String)
    (entry : Option DiskEntry) :
    crates.FilledFrom (disk'.write path entry) (disk.write path entry) where
  writable := h.writable
  entries other := by
    by_cases hpath : other = path
    · left
      rw [hpath]
      simp [Disk.write]
    · simpa [Disk.write, hpath] using h.entries other

theorem FilledFrom.beginAt (h : crates.FilledFrom disk' disk) (path : String) :
    crates.FilledFrom disk' (crates.beginAt disk path).2 := by
  rcases crates.beginAt_snd disk path with hsame | ⟨hnone, text, htext, hwritten⟩
  · rw [hsame]
    exact h
  · rw [hwritten]
    refine ⟨h.writable, fun other ↦ ?_⟩
    by_cases hpath : other = path
    · right
      have hplain : disk'.entries path = none := by
        rcases h.entries path with hsame | ⟨hplain, -⟩
        · rw [← hsame, hnone]
        · exact hplain
      rw [hpath]
      exact ⟨hplain, text, htext, by simp [Disk.write]⟩
    · simpa [Disk.write, hpath] using h.entries other

theorem FilledFrom.launch (h : crates.FilledFrom disk' disk) (args : List String) :
    crates.FilledFrom disk' (crates.launch disk args).2 := by
  rcases launch_cases crates args with ⟨values, -, hlaunch⟩ | ⟨-, usage, hlaunch⟩
  · rw [hlaunch]
    exact h.beginAt _
  · rw [hlaunch]
    exact h

/-- From the two disks the same can be begun. -/
theorem FilledFrom.began_iff (hdoc : crates.Documented) (h : crates.FilledFrom disk' disk)
    (args : List String) (env : Env) :
    (crates.launch disk args).1 = .began env ↔ (crates.launch disk' args).1 = .began env := by
  rcases launch_cases crates args with ⟨values, -, hlaunch⟩ | ⟨-, usage, hlaunch⟩
  · rw [hlaunch, hlaunch, beginAt_eq_began_iff hdoc, beginAt_eq_began_iff hdoc]
    constructor
    · rintro ⟨content, file, hentry, hread, hprovides⟩
      refine ⟨content, file, ?_, hread, hprovides⟩
      rcases h.entries (pathOf values) with hsame | ⟨-, text, htext, hdefault⟩
      · rw [← hsame, hentry]
      · -- nothing begins from the default configuration
        obtain rfl : text = content := by simpa [hentry] using hdefault.symm
        obtain rfl := Except.ok.inj ((hdoc.reads_back _ _ htext).symm.trans hread)
        have hbegin := begin_eq_began_iff.mpr hprovides
        rw [begin_default hdoc] at hbegin
        cases hbegin
    · rintro ⟨content, file, hentry, hread, hprovides⟩
      refine ⟨content, file, ?_, hread, hprovides⟩
      rcases h.entries (pathOf values) with hsame | ⟨hplain, -⟩
      · rw [hsame, hentry]
      · rw [hentry] at hplain
        cases hplain
  · rw [hlaunch, hlaunch]

/-- Starts leave alone what others have written, and never change with what a
later start goes on. -/
theorem starts_are_independent (crates : Crates) (hdoc : crates.Documented) (disk : Disk)
    (acts : List ShellAct) (d : Disk) (hrun : (crates.shell disk).run acts = some d) :
    ∃ plain, (crates.shell disk).run (acts.filter ShellAct.isEdit) = some plain ∧
      (∀ path entry, plain.entries path = some entry → d.entries path = some entry) ∧
      ∀ args env, (crates.launch d args).1 = .began env ↔
        (crates.launch plain args).1 = .began env := by
  have hfilled : ∃ plain, (crates.shell disk).run (acts.filter ShellAct.isEdit) = some plain ∧
      crates.FilledFrom plain d := by
    refine (crates.shell disk).run_induction (motive := fun acts d ↦ ∃ plain,
      (crates.shell disk).run (acts.filter ShellAct.isEdit) = some plain ∧
        crates.FilledFrom plain d) ?_ ?_ hrun
    · exact ⟨disk, rfl, rfl, fun path ↦ .inl rfl⟩
    · rintro acts act d d' - ⟨plain, hplain, hfilled⟩ hstep
      rw [List.filter_append]
      cases act with
      | start args =>
          obtain rfl := Option.some.inj hstep
          exact ⟨plain, by simpa [ShellAct.isEdit] using hplain, hfilled.launch args⟩
      | edit path entry =>
          obtain rfl := Option.some.inj hstep
          refine ⟨plain.write path entry, ?_, hfilled.edit path entry⟩
          exact (crates.shell disk).run_snoc_eq_some.mpr ⟨plain, hplain, rfl⟩
  obtain ⟨plain, hplain, hfilled⟩ := hfilled
  refine ⟨plain, hplain, fun path entry hentry ↦ ?_, hfilled.began_iff hdoc⟩
  rcases hfilled.entries path with hsame | ⟨hnone, -⟩
  · rw [hsame, hentry]
  · rw [hentry] at hnone
    cases hnone

/-- The program writes the default file, which is edited before the next start. -/
theorem starts_are_independent_edited : ∃ d plain,
    (Sample.crates.shell ⟨fun _ ↦ none, fun _ ↦ true⟩).run
        [.start [], .edit "config.toml" (some (.text Sample.fileText)), .start []] = some d ∧
      (Sample.crates.shell ⟨fun _ ↦ none, fun _ ↦ true⟩).run
        [.edit "config.toml" (some (.text Sample.fileText))] = some plain ∧
      ∀ args env, (Sample.crates.launch d args).1 = .began env ↔
        (Sample.crates.launch plain args).1 = .began env := by
  obtain ⟨plain, hplain, -, hsame⟩ := starts_are_independent Sample.crates
    Sample.crates_documented ⟨fun _ ↦ none, fun _ ↦ true⟩
    [.start [], .edit "config.toml" (some (.text Sample.fileText)), .start []] _ rfl
  exact ⟨_, plain, rfl, hplain, hsame⟩

end Crates

end LandingBench
