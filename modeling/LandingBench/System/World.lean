import LandingBench.Summary
import LandingBench.Transaction

/-!
# The running program

One `World` is everything that the tasks of a run share, with the place that
each of them has reached.  `main`, the gRPC listener, the memo task and the
Ctrl-C task are spawned once; the futures of `send_single_tx` are the `sends`
of the round, which `main` itself polls.  Time is what `Instant` shows, with
the start of the program at zero.
-/

namespace LandingBench

open Async Data

/-- What `main` has at hand when it creates the channels. -/
structure Env where
  host : Host
  config : ConfigToml
  authority : Pubkey
  nonceAccount : Pubkey
  memoProgram : Pubkey
  valid : validateConfig config = .ok ()
  nonceAccount_eq : host.parsePubkey config.config.nonceAccount = .ok nonceAccount
  memoProgram_eq : host.parsePubkey memoProgramId = .ok memoProgram

/-! ## Senders -/

structure RpcClient where
  url : String
  deriving DecidableEq, Repr

structure SoyasClient where
  endpointAddr : String
  apiKey : String
  deriving DecidableEq, Repr

inductive Client where
  | rpc (client : RpcClient)
  | soyas (client : SoyasClient)
  deriving DecidableEq, Repr

/-- The vector of RPC clients, by position. -/
def rpcClients (endpoints : List Endpoint) : List RpcClient :=
  endpoints.map fun ep ↦ ⟨ep.url⟩

/-! ## The listener -/

inductive ConnectStage where
  | buildFromShared
  | xToken
  | tlsConfig
  | connect
  | subscribe
  | sendRequest
  deriving DecidableEq, Repr

def connectStages (endpoint : GrpcEndpoint) : List ConnectStage :=
  let token := endpoint.xToken.filter fun token ↦ !Text.isBlank token
  [.buildFromShared] ++ (if token.isSome then [.xToken] else []) ++
    (if Text.startsWith endpoint.url "https" then [.tlsConfig] else []) ++
    [.connect, .subscribe, .sendRequest]

inductive UpdateOneof where
  | transaction (txMsg : Geyser.SubscribeUpdateTransaction)
  | ping
  | other

/-- What `stream.next()` gives. -/
inductive StreamItem where
  | update (updateOneof : Option UpdateOneof)
  | err
  | closed

inductive ListenerPc where
  | connecting (rest : List ConnectStage)
  | confirming
  | looping
  | delivering (obs : MemoObservation)
  | replying
  | exited
  deriving DecidableEq, Repr

structure Listener where
  pc : ListenerPc
  shutdownRx : ℕ
  aborted : Bool
  deriving DecidableEq, Repr

inductive MemoTask where
  | notSpawned
  | receiving
  | recording (obs : MemoObservation)
  | finished
  deriving DecidableEq, Repr

/-- After `stored` the flag is up, after `broadcasted` the value is sent too. -/
inductive CtrlC where
  | notSpawned
  | waiting
  | stored
  | broadcasted
  | failed
  deriving DecidableEq, Repr

/-! ## The futures of a round -/

inductive SendStage where
  | created
  | sending (tx : Transaction) (sendElapsed : Duration)
  | recording (signature : String) (sendElapsed : Duration)
  | waiting (pair : WaitPair) (deadline : Duration)
  | finished (result : Except String Unit)

def SendStage.isFinished : SendStage → Bool
  | finished _ => true
  | created => false
  | sending _ _ => false
  | recording _ _ => false
  | waiting _ _ => false

structure SendTask where
  index : ℕ
  endpoint : Endpoint
  rpcClient : RpcClient
  soyasClient : Option SoyasClient
  shutdownRx : ℕ
  nonceHash : Hash
  roundId : String
  stage : SendStage

/-- The sender that the endpoint's kind selects. -/
def SendTask.client (task : SendTask) : Option Client :=
  match task.endpoint.kind with
  | .soyas => task.soyasClient.map .soyas
  | .rpc => some (.rpc task.rpcClient)
  | .custom => some (.rpc task.rpcClient)

inductive WaitOutcome where
  | selfLanded
  | otherLanded
  | waiterDropped
  | timedOut
  deriving DecidableEq, Repr

/-! ## Main -/

inductive NonceReply where
  | rpcError
  | notFound
  | unparsable
  | uninitialized
  | nonce (hash : Hash)

/-- One turn of the loop in `fetch_fresh_nonce_hash`: an error, the hash that
is returned, or nothing yet. -/
def checkNonceReply (host : Host) (previous : Option Hash) (now deadline : Duration) :
    NonceReply → Except String (Option Hash)
  | .rpcError => .error "Failed to fetch nonce account with commitment"
  | .notFound => .error "Nonce account not found"
  | .unparsable => .error "Failed to parse nonce state"
  | .uninitialized => .error "Nonce account uninitialized"
  | .nonce current =>
      if previous.all (· ≠ current) then .ok (some current)
      else if deadline ≤ now then
        .error s!"Nonce hash did not advance before timeout; hash still {host.base58 current.bytes}"
      else .ok none

inductive MainPc where
  | awaitReady
  | connecting (rest : List Endpoint)
  | loopTop
  | fetching (deadline : Duration)
  | nonceSleep (deadline wake : Duration)
  | starting (nonceHash : Hash)
  | dispatching (nonceHash : Hash) (rest : List (Endpoint × ℕ))
  | collecting
  | delaying (wake : Duration)
  | graceCheck
  | graceSleep (wake : Duration)
  | signalling
  | selecting (wake : Duration)
  | aborting
  | awaitingMemo
  | finalizing
  | done (summary : LandingSummary)
  | failed (err : String)

namespace MainPc

def isCollecting : MainPc → Bool
  | collecting => true
  | _ => false

def isFinalizing : MainPc → Bool
  | finalizing => true
  | _ => false

def isDone : MainPc → Bool
  | done _ => true
  | _ => false

def isFailed : MainPc → Bool
  | failed _ => true
  | _ => false

theorem isCollecting_iff {pc : MainPc} : pc.isCollecting = true ↔ pc = .collecting := by
  cases pc <;> simp [isCollecting]

theorem isFinalizing_iff {pc : MainPc} : pc.isFinalizing = true ↔ pc = .finalizing := by
  cases pc <;> simp [isFinalizing]

theorem isDone_iff {pc : MainPc} : pc.isDone = true ↔ ∃ summary, pc = .done summary := by
  cases pc <;> simp [isDone]

theorem isFailed_iff {pc : MainPc} : pc.isFailed = true ↔ ∃ err, pc = .failed err := by
  cases pc <;> simp [isFailed]

end MainPc

structure Main where
  pc : MainPc
  shutdownRx : ℕ
  round : ℕ
  previousNonce : Option Hash
  soyasClients : HashMap String SoyasClient

/-! ## Everything -/

/-- A transaction that was given to a sender, for the endpoint at `index`. -/
structure Handed where
  index : ℕ
  endpoint : Endpoint
  client : Client
  tx : Transaction
  roundId : String

structure World where
  now : Duration
  shutdownFlag : Bool
  shutdown : Broadcast Unit
  memo : Mpsc MemoObservation
  ready : Oneshot Unit
  book : LandingBook
  randomCounter : UInt64
  main : Main
  listener : Listener
  memoTask : MemoTask
  ctrlC : CtrlC
  sends : List SendTask
  -- what has happened so far: the calls on the book in the order of the lock,
  -- the observations put into the memo channel, the transactions given away
  log : List BookOp
  delivered : List MemoObservation
  handed : List Handed

/-- The channels are made and the listener is spawned. -/
def World.init (env : Env) : World where
  now := 0
  shutdownFlag := false
  shutdown := .channel 1
  memo := .channel 1024
  ready := .channel
  book := .empty
  randomCounter := 0
  main := ⟨.awaitReady, 0, 0, none, ∅⟩
  listener := ⟨.connecting (connectStages env.config.grpc), 0, false⟩
  memoTask := .notSpawned
  ctrlC := .notSpawned
  sends := []
  log := []
  delivered := []
  handed := []

/-! ## What may happen next -/

inductive ListenerAct where
  | connect (ok : Bool)
  | next (item : StreamItem)
  | shutdown
  | deliver
  | pong (ok : Bool)
  | cancel

inductive CtrlCAct where
  | signal (ok : Bool)
  | broadcast

inductive MainAct where
  /-- The next step that waits for nobody outside the program. -/
  | go
  | connected (ok : Bool)
  | answer (reply : NonceReply)
  | timeout
  | finalize (iter : List (String × ProviderMetrics))

inductive SendAct where
  /-- The first poll; the wall clock shows `clock`. -/
  | poll (clock : Duration)
  | returned (ok : Bool)
  | record
  | wait (outcome : WaitOutcome)

inductive Act where
  | tick (d : Duration)
  | listener (act : ListenerAct)
  | memo
  | ctrlC (act : CtrlCAct)
  | main (act : MainAct)
  | send (index : ℕ) (act : SendAct)

end LandingBench
