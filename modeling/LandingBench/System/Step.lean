import LandingBench.Async.Machine
import LandingBench.Sdk
import LandingBench.System.World

/-!
# The steps of the tasks

Each function takes one task from one await to the next.  A step that has to
wait is not possible yet, so it gives nothing.
-/

namespace LandingBench

open Async Data

namespace World

/-! ## The listener -/

def setListener (w : World) (pc : ListenerPc) : World :=
  { w with listener := { w.listener with pc := pc } }

/-- The task is over, and what it owns is dropped. -/
def exitListener (w : World) : World :=
  { w with
    listener := { w.listener with pc := .exited }
    memo := w.memo.dropSender
    ready := w.ready.dropSender }

def observe (env : Env) (w : World) (txMsg : Geyser.SubscribeUpdateTransaction) :
    Option MemoObservation :=
  (Geyser.extractMemo env.host txMsg env.memoProgram).map fun found ↦
    ⟨found.1, found.2, w.now⟩

/-- The first message of the stream. -/
def confirm (w : World) : StreamItem → World
  | .update (some _) => { w.setListener .looping with ready := w.ready.send () }
  | .update none => w.setListener .looping
  | .err => w.exitListener
  | .closed => w.exitListener

/-- A message in the loop. -/
def receive (env : Env) (w : World) : StreamItem → World
  | .update (some (.transaction txMsg)) =>
      match w.observe env txMsg with
      | some obs => w.setListener (.delivering obs)
      | none => w
  | .update (some .ping) => w.setListener .replying
  | .update (some .other) => w
  | .update none => w
  | .err => w.exitListener
  | .closed => w.exitListener

def listenerStep (env : Env) (w : World) : ListenerAct → Option World
  | .connect ok =>
      match w.listener.pc with
      | .connecting (_ :: rest) =>
          if ok then some (w.setListener (if rest = [] then .confirming else .connecting rest))
          else some w.exitListener
      | _ => none
  | .next item =>
      match w.listener.pc with
      | .confirming => some (w.confirm item)
      -- the select is biased: a shutdown goes before any message
      | .looping =>
          if w.shutdown.ready w.listener.shutdownRx then none else some (w.receive env item)
      | _ => none
  | .shutdown =>
      if w.listener.pc = .looping ∧ w.shutdown.ready w.listener.shutdownRx then
        some w.exitListener
      else none
  | .deliver =>
      match w.listener.pc with
      | .delivering obs =>
          if !w.memo.receiver then some w.exitListener
          else if w.memo.hasRoom then
            some { w.setListener .looping with
              memo := w.memo.push obs
              delivered := w.delivered ++ [obs] }
          else none
      | _ => none
  | .pong ok =>
      if w.listener.pc = .replying then
        if ok then some (w.setListener .looping) else some w.exitListener
      else none
  | .cancel =>
      if w.listener.aborted ∧ w.listener.pc ≠ .exited then some w.exitListener else none

/-! ## The memo task and the Ctrl-C task -/

def memoStep (w : World) : Option World :=
  match w.memoTask with
  | .receiving =>
      match w.memo.recv with
      | some (some obs, memo) => some { w with memo := memo, memoTask := .recording obs }
      | some (none, memo) => some { w with memo := memo.dropReceiver, memoTask := .finished }
      | none => none
  | .recording obs =>
      some { w with
        book := (w.book.recordLanding obs).1
        log := w.log ++ [.recordLanding obs]
        memoTask := .receiving }
  | .notSpawned => none
  | .finished => none

def ctrlCStep (w : World) : CtrlCAct → Option World
  | .signal ok =>
      if w.ctrlC = .waiting then
        if ok then some { w with shutdownFlag := true, ctrlC := .stored }
        else some { w with ctrlC := .failed }
      else none
  | .broadcast =>
      if w.ctrlC = .stored then
        some { w with shutdown := w.shutdown.send (), ctrlC := .broadcasted }
      else none

/-! ## The futures of `send_single_tx` -/

def setSend (w : World) (i : ℕ) (task : SendTask) (stage : SendStage) : World :=
  { w with sends := w.sends.set i { task with stage := stage } }

/-- Everything up to the call of a sender. -/
def pollSend (env : Env) (w : World) (i : ℕ) (task : SendTask) (clock : Duration) : World :=
  if (w.shutdown.tryRecv task.shutdownRx).1.isOk then w.setSend i task (.finished (.ok ()))
  else
    let counted := { w with randomCounter := nextCounter env.host w.randomCounter }
    match buildTransaction env.host task.endpoint env.nonceAccount env.authority task.nonceHash
        env.config.config.prioFee env.config.config.computeUnitLimit clock w.randomCounter with
    | .error err => counted.setSend i task (.finished (.error err))
    | .ok tx =>
        match task.client with
        | none =>
            counted.setSend i task
              (.finished (.error s!"Soyas client not initialized for {task.endpoint.name}"))
        | some client =>
            { counted.setSend i task (.sending tx w.now) with
              handed := w.handed ++ [⟨task.index, task.endpoint, client, tx, task.roundId⟩] }

/-- `timeout(landing_wait_ms, select! { ack, round_rx.changed() })` is over. -/
def waitReady (w : World) (pair : WaitPair) (deadline : Duration) : WaitOutcome → Bool
  | .selfLanded => w.book.acks[pair.ack]?.any Oneshot.completed
  | .otherLanded => w.book.rounds[pair.round]?.any (Watch.changed · pair.seen)
  | .waiterDropped => w.book.rounds[pair.round]?.any (Watch.hungUp · pair.seen)
  | .timedOut =>
      -- the deadline is looked at after the two receivers
      deadline ≤ w.now && !(w.book.acks[pair.ack]?.any Oneshot.completed) &&
        !(w.book.rounds[pair.round]?.any fun c ↦ c.changed pair.seen || c.hungUp pair.seen)

def sendStep (env : Env) (w : World) (i : ℕ) (act : SendAct) : Option World :=
  match w.main.pc, w.sends[i]? with
  | .collecting, some task =>
      match act, task.stage with
      | .poll clock, .created => some (w.pollSend env i task clock)
      | .returned ok, .sending tx sendElapsed =>
          if ok then
            some (w.setSend i task (.recording (env.host.base58 tx.signature) sendElapsed))
          else some (w.setSend i task (.finished (.ok ())))
      | .record, .recording signature sendElapsed =>
          let (book, pair) :=
            w.book.recordSend signature task.endpoint.name sendElapsed task.roundId
          let deadline := w.now + Duration.fromMillis env.config.config.landingGraceMs
          some { w.setSend i task (.waiting pair deadline) with
            book := book
            log := w.log ++
              [.recordSend signature task.endpoint.name sendElapsed task.roundId] }
      | .wait outcome, .waiting pair deadline =>
          if w.waitReady pair deadline outcome then
            some { w.setSend i task (.finished (.ok ())) with book := w.book.dropPair pair }
          else none
      | _, _ => none
  | _, _ => none

/-! ## Main -/

def setMain (w : World) (pc : MainPc) : World := { w with main := { w.main with pc := pc } }

/-- `main` returns an error before the memo task owns the receiver. -/
def failEarly (w : World) (err : String) : World :=
  { w.setMain (.failed err) with memo := w.memo.dropReceiver }

/-- The client tables are complete; the two tasks are spawned. -/
def enterLoop (w : World) : World :=
  { w.setMain .loopTop with ctrlC := .waiting, memoTask := .receiving }

def topOfLoop (env : Env) (w : World) : World :=
  if w.main.round < env.config.config.transactions then
    let (received, shutdownRx) := w.shutdown.tryRecv w.main.shutdownRx
    if received.isOk then
      { w with
        shutdownFlag := true
        main := { w.main with pc := .graceCheck, shutdownRx := shutdownRx } }
    else
      { w with main := { w.main with
          pc := .fetching
            (w.now + Duration.fromMillis (max env.config.config.landingGraceMs 100))
          shutdownRx := shutdownRx } }
  else w.setMain .graceCheck

def beginRound (env : Env) (w : World) (nonceHash : Hash) : World :=
  let roundId := env.host.base58 nonceHash.bytes
  { w with
    book := w.book.startRound roundId
    log := w.log ++ [.startRound roundId]
    main := { w.main with
      pc := .dispatching nonceHash env.config.endpoint.zipIdx
      previousNonce := some nonceHash } }

/-- The closure that `buffer_unordered` maps over the endpoints. -/
def newSend (env : Env) (w : World) (nonceHash : Hash) (ep : Endpoint) (index : ℕ) : SendTask where
  index := index
  endpoint := ep
  rpcClient := ((rpcClients env.config.endpoint)[index]?).getD ⟨ep.url⟩
  soyasClient := w.main.soyasClients.lookup ep.name
  shutdownRx := w.shutdown.subscribe
  nonceHash := nonceHash
  roundId := env.host.base58 nonceHash.bytes
  stage := .created

def mainGo (env : Env) (w : World) : Option World :=
  match w.main.pc with
  | .awaitReady =>
      if w.ready.value.isSome then some (w.setMain (.connecting env.config.endpoint))
      else if w.ready.completed then some (w.failEarly "gRPC listener failed to become ready")
      else none
  | .connecting [] => some w.enterLoop
  | .connecting (ep :: rest) =>
      if ep.kind ≠ .soyas then some (w.setMain (.connecting rest))
      else if ep.apiKey.isNone then
        some (w.failEarly s!"Soyas endpoint {ep.name} requires api_key")
      else none
  | .loopTop => some (w.topOfLoop env)
  | .nonceSleep deadline wake =>
      if wake ≤ w.now then some (w.setMain (.fetching deadline)) else none
  | .starting nonceHash => some (w.beginRound env nonceHash)
  -- every future is made before the first is polled, for as many may be in flight
  | .dispatching nonceHash ((ep, index) :: rest) =>
      some { w.setMain (.dispatching nonceHash rest) with
        sends := w.sends ++ [w.newSend env nonceHash ep index] }
  | .dispatching _ [] => some (w.setMain .collecting)
  | .collecting =>
      if w.sends.all (·.stage.isFinished) then
        some { w.setMain (.delaying (w.now + Duration.fromMillis env.config.config.delayMs)) with
          sends := [] }
      else none
  | .delaying wake =>
      if wake ≤ w.now then
        some { w with main := { w.main with pc := .loopTop, round := w.main.round + 1 } }
      else none
  | .graceCheck =>
      if w.shutdownFlag then some (w.setMain .signalling)
      else some (w.setMain
        (.graceSleep (w.now + Duration.fromMillis env.config.config.landingGraceMs)))
  | .graceSleep wake => if wake ≤ w.now then some (w.setMain .signalling) else none
  | .signalling =>
      some { w.setMain (.selecting (w.now + Duration.fromMillis 2000)) with
        shutdown := w.shutdown.send () }
  | .selecting _ =>
      if w.listener.pc = .exited then some (w.setMain .awaitingMemo) else none
  | .aborting =>
      if w.listener.pc = .exited then some (w.setMain .awaitingMemo) else none
  | .awaitingMemo => if w.memoTask = .finished then some (w.setMain .finalizing) else none
  | .fetching _ => none
  | .finalizing => none
  | .done _ => none
  | .failed _ => none

def mainStep (env : Env) (w : World) : MainAct → Option World
  | .go => w.mainGo env
  | .connected ok =>
      match w.main.pc with
      | .connecting (ep :: rest) =>
          match ep.kind, ep.apiKey with
          | .soyas, some apiKey =>
              if ok then
                some { w with main := { w.main with
                  pc := .connecting rest
                  soyasClients := w.main.soyasClients.insert ep.name ⟨ep.url, apiKey⟩ } }
              else some (w.failEarly s!"Failed to connect to Soyas endpoint {ep.name}")
          | _, _ => none
      | _ => none
  | .answer reply =>
      match w.main.pc with
      | .fetching deadline =>
          match checkNonceReply env.host w.main.previousNonce w.now deadline reply with
          | .error err => some (w.setMain (.failed err))
          | .ok (some nonceHash) => some (w.setMain (.starting nonceHash))
          | .ok none =>
              some (w.setMain (.nonceSleep deadline (w.now + Duration.fromMillis 100)))
      | _ => none
  | .timeout =>
      match w.main.pc with
      | .selecting wake =>
          if wake ≤ w.now then
            some { w.setMain .aborting with listener := { w.listener with aborted := true } }
          else none
      | _ => none
  | .finalize iter =>
      match w.main.pc with
      | .finalizing =>
          if iter.isPerm w.book.records.metrics.items then
            some (w.setMain (.done (w.book.finalize iter)))
          else none
      | _ => none

def step (env : Env) (w : World) : Act → Option World
  | .tick d => some { w with now := w.now + d }
  | .listener act => w.listenerStep env act
  | .memo => w.memoStep
  | .ctrlC act => w.ctrlCStep act
  | .main act => w.mainStep env act
  | .send i act => w.sendStep env i act

end World

/-- The program as a machine: a list of actions is one interleaving. -/
def Env.machine (env : Env) : Machine World Act := ⟨World.init env, World.step env⟩

/-! ## A sample run -/

namespace Sample

def env (transactions : ℕ) (endpoint : List Endpoint)
    (valid : validateConfig (config transactions endpoint) = .ok ()) : Env where
  host := host
  config := config transactions endpoint
  authority := authority
  nonceAccount := pubkey nonceText
  memoProgram := memoProgram
  valid := valid
  nonceAccount_eq := parsePubkey_nonceText
  memoProgram_eq := parsePubkey_memoProgramId

/-- One RPC endpoint. -/
def rpcEnv (transactions : ℕ) : Env := env transactions [rpc "rpc"] rfl

/-- The stream's report of a sample transaction. -/
def report (name : String) (count : UInt64) : StreamItem :=
  match buildTransaction host (rpc name) (pubkey nonceText) authority nonce₀ (.finite 0) 1000000
      wallClock count with
  | .ok tx => .update (some (.transaction (Geyser.update tx)))
  | .error _ => .update none

/-- The listener subscribes and confirms, and `main` waits for that. -/
def startup : List Act :=
  List.replicate 5 (.listener (.connect true)) ++
    [.listener (.next (.update (some .other))), .main .go]

/-- From the top of the loop until the only endpoint's future may be polled. -/
def openRound (nonceHash : Hash) : List Act :=
  [.main .go, .main (.answer (.nonce nonceHash)), .main .go, .main .go, .main .go]

/-- A transaction is sent and recorded. -/
def sendOne : List Act :=
  [.send 0 (.poll wallClock), .send 0 (.returned true), .send 0 .record]

/-- The listener sees a transaction, and the book is told. -/
def observeOne (item : StreamItem) : List Act :=
  [.tick 5000000, .listener (.next item), .listener .deliver, .memo, .memo]

def closeRound : List Act := [.main .go, .tick 50000000, .main .go]

/-- A round in which the only sender fails. -/
def failedRound (nonceHash : Hash) : List Act :=
  openRound nonceHash ++ [.send 0 (.poll wallClock), .send 0 (.returned false)] ++ closeRound

/-- From the last look at the loop's condition to the end of the memo task. -/
def shutDown : List Act :=
  [.main .go, .main .go, .tick 10000000000, .main .go, .main .go, .listener .shutdown, .main .go,
    .memo, .main .go]

/-- One round that lands, up to `finalize`. -/
def landedRun : List Act :=
  startup ++ [.main .go, .main .go] ++ openRound nonce₀ ++ sendOne ++ observeOne (report "rpc" 0) ++
    [.send 0 (.wait .selfLanded)] ++ closeRound ++ shutDown

end Sample
end LandingBench
