import LandingBench.System.Step

/-!
# What a step can do

For every task one relation with a constructor for each way in which its step
goes, and the frame of the task: the part of the world that it never touches.
All invariants are checked against these.
-/

namespace LandingBench

open Async Data

namespace World

variable {env : Env} {w w' : World}

/-! ## The listener -/

inductive ListenerMove (env : Env) (w : World) : ListenerAct → World → Prop where
  | stagePassed (stage : ConnectStage) (rest : List ConnectStage)
      (pc : w.listener.pc = .connecting (stage :: rest)) :
      ListenerMove env w (.connect true)
        (w.setListener (if rest = [] then .confirming else .connecting rest))
  | stageFailed (stage : ConnectStage) (rest : List ConnectStage)
      (pc : w.listener.pc = .connecting (stage :: rest)) :
      ListenerMove env w (.connect false) w.exitListener
  | confirmed (update : UpdateOneof) (pc : w.listener.pc = .confirming) :
      ListenerMove env w (.next (.update (some update)))
        { w.setListener .looping with ready := w.ready.send () }
  | unconfirmed (pc : w.listener.pc = .confirming) :
      ListenerMove env w (.next (.update none)) (w.setListener .looping)
  | refused (item : StreamItem) (pc : w.listener.pc = .confirming)
      (ended : item = .err ∨ item = .closed) :
      ListenerMove env w (.next item) w.exitListener
  | observed (txMsg : Geyser.SubscribeUpdateTransaction) (obs : MemoObservation)
      (pc : w.listener.pc = .looping) (quiet : w.shutdown.ready w.listener.shutdownRx = false)
      (memo : w.observe env txMsg = some obs) :
      ListenerMove env w (.next (.update (some (.transaction txMsg))))
        (w.setListener (.delivering obs))
  | pinged (pc : w.listener.pc = .looping)
      (quiet : w.shutdown.ready w.listener.shutdownRx = false) :
      ListenerMove env w (.next (.update (some .ping))) (w.setListener .replying)
  | passed (item : StreamItem) (pc : w.listener.pc = .looping)
      (quiet : w.shutdown.ready w.listener.shutdownRx = false)
      (goesOn : item ≠ .err ∧ item ≠ .closed) :
      ListenerMove env w (.next item) w
  | ended (item : StreamItem) (pc : w.listener.pc = .looping)
      (quiet : w.shutdown.ready w.listener.shutdownRx = false)
      (ended : item = .err ∨ item = .closed) :
      ListenerMove env w (.next item) w.exitListener
  | stopped (pc : w.listener.pc = .looping) (signal : w.shutdown.ready w.listener.shutdownRx) :
      ListenerMove env w .shutdown w.exitListener
  | delivered (obs : MemoObservation) (pc : w.listener.pc = .delivering obs)
      (receiver : w.memo.receiver = true) (room : w.memo.hasRoom = true) :
      ListenerMove env w .deliver
        { w.setListener .looping with
          memo := w.memo.push obs
          delivered := w.delivered ++ [obs] }
  | undeliverable (obs : MemoObservation) (pc : w.listener.pc = .delivering obs)
      (receiver : w.memo.receiver = false) :
      ListenerMove env w .deliver w.exitListener
  | replied (pc : w.listener.pc = .replying) :
      ListenerMove env w (.pong true) (w.setListener .looping)
  | replyFailed (pc : w.listener.pc = .replying) : ListenerMove env w (.pong false) w.exitListener
  | cancelled (aborted : w.listener.aborted = true) (pc : w.listener.pc ≠ .exited) :
      ListenerMove env w .cancel w.exitListener

theorem listenerMove {act : ListenerAct} (h : w.listenerStep env act = some w') :
    ListenerMove env w act w' := by
  cases act with
  | connect ok =>
      simp only [listenerStep] at h
      split at h
      · rename_i stage rest hpc
        cases ok with
        | true =>
            cases h
            exact .stagePassed stage rest hpc
        | false =>
            cases h
            exact .stageFailed stage rest hpc
      · cases h
  | next item =>
      simp only [listenerStep] at h
      split at h
      · rename_i hpc
        cases h
        match item with
        | .update (some update) => exact .confirmed update hpc
        | .update none => exact .unconfirmed hpc
        | .err => exact .refused _ hpc (.inl rfl)
        | .closed => exact .refused _ hpc (.inr rfl)
      · rename_i hpc
        split_ifs at h with hsignal
        have hquiet : w.shutdown.ready w.listener.shutdownRx = false := by simpa using hsignal
        cases h
        match item with
        | .update (some (.transaction txMsg)) =>
            cases hobs : w.observe env txMsg with
            | none =>
                simp only [receive, hobs]
                exact .passed _ hpc hquiet (by simp)
            | some obs =>
                simp only [receive, hobs]
                exact .observed txMsg obs hpc hquiet hobs
        | .update (some .ping) => exact .pinged hpc hquiet
        | .update (some .other) => exact .passed _ hpc hquiet (by simp)
        | .update none => exact .passed _ hpc hquiet (by simp)
        | .err => exact .ended _ hpc hquiet (.inl rfl)
        | .closed => exact .ended _ hpc hquiet (.inr rfl)
      · cases h
  | shutdown =>
      simp only [listenerStep] at h
      split_ifs at h with hcond
      cases h
      exact .stopped hcond.1 hcond.2
  | deliver =>
      simp only [listenerStep] at h
      split at h
      · rename_i obs hpc
        split_ifs at h with hreceiver hroom
        · cases h
          exact .undeliverable obs hpc (by simpa using hreceiver)
        · cases h
          exact .delivered obs hpc (by simpa using hreceiver) hroom
      · cases h
  | pong ok =>
      simp only [listenerStep] at h
      split_ifs at h with hpc hok
      · subst hok
        cases h
        exact .replied hpc
      · obtain rfl : ok = false := by simpa using hok
        cases h
        exact .replyFailed hpc
  | cancel =>
      simp only [listenerStep] at h
      split_ifs at h with hcond
      cases h
      exact .cancelled hcond.1 hcond.2

theorem ListenerMove.frame {act : ListenerAct} (h : ListenerMove env w act w') :
    w' = { w with
      listener := w'.listener
      memo := w'.memo
      ready := w'.ready
      delivered := w'.delivered } := by
  cases h <;> rfl

/-! ## The memo task and the Ctrl-C task -/

inductive MemoMove (w : World) : World → Prop where
  | received (obs : MemoObservation) (rest : List MemoObservation)
      (pc : w.memoTask = .receiving) (buffer : w.memo.buffer = obs :: rest) :
      MemoMove w { w with memo := { w.memo with buffer := rest }, memoTask := .recording obs }
  | ended (pc : w.memoTask = .receiving) (buffer : w.memo.buffer = [])
      (senders : w.memo.senders = 0) :
      MemoMove w { w with memo := w.memo.dropReceiver, memoTask := .finished }
  | recorded (obs : MemoObservation) (pc : w.memoTask = .recording obs) :
      MemoMove w
        { w with
          book := (w.book.recordLanding obs).1
          log := w.log ++ [.recordLanding obs]
          memoTask := .receiving }

theorem memoMove (h : w.memoStep = some w') : MemoMove w w' := by
  unfold memoStep at h
  split at h
  · rename_i hpc
    split at h
    · rename_i obs memo hrecv
      obtain ⟨rest, hbuffer, rfl⟩ := Mpsc.recv_eq_some_some.mp hrecv
      cases h
      exact .received obs rest hpc hbuffer
    · rename_i memo hrecv
      obtain ⟨hbuffer, hsenders, rfl⟩ := Mpsc.recv_eq_some_none.mp hrecv
      cases h
      exact .ended hpc hbuffer hsenders
    · cases h
  · rename_i obs hpc
    cases h
    exact .recorded obs hpc
  · cases h
  · cases h

theorem MemoMove.frame (h : MemoMove w w') :
    w' = { w with memo := w'.memo, memoTask := w'.memoTask, book := w'.book, log := w'.log } := by
  cases h <;> rfl

inductive CtrlCMove (w : World) : CtrlCAct → World → Prop where
  | stored (pc : w.ctrlC = .waiting) :
      CtrlCMove w (.signal true) { w with shutdownFlag := true, ctrlC := .stored }
  | failed (pc : w.ctrlC = .waiting) : CtrlCMove w (.signal false) { w with ctrlC := .failed }
  | broadcasted (pc : w.ctrlC = .stored) :
      CtrlCMove w .broadcast { w with shutdown := w.shutdown.send (), ctrlC := .broadcasted }

theorem ctrlCMove {act : CtrlCAct} (h : w.ctrlCStep act = some w') : CtrlCMove w act w' := by
  cases act with
  | signal ok =>
      simp only [ctrlCStep] at h
      split_ifs at h with hpc hok
      · subst hok
        cases h
        exact .stored hpc
      · obtain rfl : ok = false := by simpa using hok
        cases h
        exact .failed hpc
  | broadcast =>
      simp only [ctrlCStep] at h
      split_ifs at h with hpc
      cases h
      exact .broadcasted hpc

theorem CtrlCMove.frame {act : CtrlCAct} (h : CtrlCMove w act w') :
    w' = { w with
      ctrlC := w'.ctrlC
      shutdownFlag := w'.shutdownFlag
      shutdown := w'.shutdown } := by
  cases h <;> rfl

/-! ## The futures of a round -/

inductive SendMove (env : Env) (w : World) (i : ℕ) : SendAct → World → Prop where
  | declined (task : SendTask) (clock : Duration) (pc : w.main.pc = .collecting)
      (get : w.sends[i]? = some task) (stage : task.stage = .created)
      (signal : (w.shutdown.tryRecv task.shutdownRx).1.isOk = true) :
      SendMove env w i (.poll clock) (w.setSend i task (.finished (.ok ())))
  | unbuilt (task : SendTask) (clock : Duration) (err : String) (pc : w.main.pc = .collecting)
      (get : w.sends[i]? = some task) (stage : task.stage = .created)
      (signal : (w.shutdown.tryRecv task.shutdownRx).1.isOk = false)
      (build : buildTransaction env.host task.endpoint env.nonceAccount env.authority
        task.nonceHash env.config.config.prioFee env.config.config.computeUnitLimit clock
          w.randomCounter = .error err) :
      SendMove env w i (.poll clock)
        { w.setSend i task (.finished (.error err)) with
          randomCounter := nextCounter env.host w.randomCounter }
  | clientless (task : SendTask) (clock : Duration) (tx : Transaction)
      (pc : w.main.pc = .collecting) (get : w.sends[i]? = some task)
      (stage : task.stage = .created)
      (signal : (w.shutdown.tryRecv task.shutdownRx).1.isOk = false)
      (build : buildTransaction env.host task.endpoint env.nonceAccount env.authority
        task.nonceHash env.config.config.prioFee env.config.config.computeUnitLimit clock
          w.randomCounter = .ok tx)
      (sender : task.client = none) :
      SendMove env w i (.poll clock)
        { w.setSend i task (.finished
            (.error s!"Soyas client not initialized for {task.endpoint.name}")) with
          randomCounter := nextCounter env.host w.randomCounter }
  | handed (task : SendTask) (clock : Duration) (tx : Transaction) (client : Client)
      (pc : w.main.pc = .collecting) (get : w.sends[i]? = some task)
      (stage : task.stage = .created)
      (signal : (w.shutdown.tryRecv task.shutdownRx).1.isOk = false)
      (build : buildTransaction env.host task.endpoint env.nonceAccount env.authority
        task.nonceHash env.config.config.prioFee env.config.config.computeUnitLimit clock
          w.randomCounter = .ok tx)
      (sender : task.client = some client) :
      SendMove env w i (.poll clock)
        { w.setSend i task (.sending tx w.now) with
          randomCounter := nextCounter env.host w.randomCounter
          handed := w.handed ++ [⟨task.index, task.endpoint, client, tx, task.roundId⟩] }
  | sent (task : SendTask) (tx : Transaction) (sendElapsed : Duration)
      (pc : w.main.pc = .collecting) (get : w.sends[i]? = some task)
      (stage : task.stage = .sending tx sendElapsed) :
      SendMove env w i (.returned true)
        (w.setSend i task (.recording (env.host.base58 tx.signature) sendElapsed))
  | unsent (task : SendTask) (tx : Transaction) (sendElapsed : Duration)
      (pc : w.main.pc = .collecting) (get : w.sends[i]? = some task)
      (stage : task.stage = .sending tx sendElapsed) :
      SendMove env w i (.returned false) (w.setSend i task (.finished (.ok ())))
  | recorded (task : SendTask) (signature : String) (sendElapsed : Duration)
      (pc : w.main.pc = .collecting) (get : w.sends[i]? = some task)
      (stage : task.stage = .recording signature sendElapsed) :
      SendMove env w i .record
        { w.setSend i task (.waiting
            (w.book.recordSend signature task.endpoint.name sendElapsed task.roundId).2
            (w.now + Duration.fromMillis env.config.config.landingGraceMs)) with
          book := (w.book.recordSend signature task.endpoint.name sendElapsed task.roundId).1
          log := w.log ++ [.recordSend signature task.endpoint.name sendElapsed task.roundId] }
  | waited (task : SendTask) (pair : WaitPair) (deadline : Duration) (outcome : WaitOutcome)
      (pc : w.main.pc = .collecting) (get : w.sends[i]? = some task)
      (stage : task.stage = .waiting pair deadline)
      (ready : w.waitReady pair deadline outcome = true) :
      SendMove env w i (.wait outcome)
        { w.setSend i task (.finished (.ok ())) with book := w.book.dropPair pair }

theorem sendMove {i : ℕ} {act : SendAct} (h : w.sendStep env i act = some w') :
    SendMove env w i act w' := by
  unfold sendStep at h
  split at h
  · rename_i task hpc hget
    split at h
    · rename_i clock hstage
      cases h
      unfold pollSend
      split_ifs with hsignal
      · exact .declined task clock hpc hget hstage hsignal
      · have hquiet : (w.shutdown.tryRecv task.shutdownRx).1.isOk = false := by simpa using hsignal
        dsimp only
        cases hbuild : buildTransaction env.host task.endpoint env.nonceAccount env.authority
            task.nonceHash env.config.config.prioFee env.config.config.computeUnitLimit clock
            w.randomCounter with
        | error err => exact .unbuilt task clock err hpc hget hstage hquiet hbuild
        | ok tx =>
            cases hsender : task.client with
            | none => exact .clientless task clock tx hpc hget hstage hquiet hbuild hsender
            | some client =>
                exact .handed task clock tx client hpc hget hstage hquiet hbuild hsender
    · rename_i ok tx sendElapsed hstage
      split_ifs at h with hok
      · subst hok
        cases h
        exact .sent task tx sendElapsed hpc hget hstage
      · obtain rfl : ok = false := by simpa using hok
        cases h
        exact .unsent task tx sendElapsed hpc hget hstage
    · rename_i signature sendElapsed hstage
      cases h
      exact .recorded task signature sendElapsed hpc hget hstage
    · rename_i outcome pair deadline hstage
      split_ifs at h with hready
      cases h
      exact .waited task pair deadline outcome hpc hget hstage hready
    · cases h
  · cases h

theorem SendMove.frame {i : ℕ} {act : SendAct} (h : SendMove env w i act w') :
    w' = { w with
      sends := w'.sends
      randomCounter := w'.randomCounter
      book := w'.book
      log := w'.log
      handed := w'.handed } := by
  cases h <;> rfl

/-- Only its own future moves, and it does not become another one. -/
theorem SendMove.sends_eq {i : ℕ} {act : SendAct} (h : SendMove env w i act w') :
    ∃ task stage, w.sends[i]? = some task ∧
      w'.sends = w.sends.set i { task with stage := stage } := by
  cases h <;> exact ⟨_, _, ‹_›, rfl⟩

/-! ## Main -/

inductive MainMove (env : Env) (w : World) : MainAct → World → Prop where
  | ready (pc : w.main.pc = .awaitReady) (value : w.ready.value.isSome = true) :
      MainMove env w .go (w.setMain (.connecting env.config.endpoint))
  | unready (pc : w.main.pc = .awaitReady) (value : w.ready.value = none)
      (sender : w.ready.sender = false) :
      MainMove env w .go (w.failEarly "gRPC listener failed to become ready")
  | skipped (ep : Endpoint) (rest : List Endpoint) (pc : w.main.pc = .connecting (ep :: rest))
      (kind : ep.kind ≠ .soyas) : MainMove env w .go (w.setMain (.connecting rest))
  | keyless (ep : Endpoint) (rest : List Endpoint) (pc : w.main.pc = .connecting (ep :: rest))
      (kind : ep.kind = .soyas) (apiKey : ep.apiKey = none) :
      MainMove env w .go (w.failEarly s!"Soyas endpoint {ep.name} requires api_key")
  | connected (ep : Endpoint) (rest : List Endpoint) (apiKey : String)
      (pc : w.main.pc = .connecting (ep :: rest)) (kind : ep.kind = .soyas)
      (key : ep.apiKey = some apiKey) :
      MainMove env w (.connected true)
        { w with main := { w.main with
            pc := .connecting rest
            soyasClients := w.main.soyasClients.insert ep.name ⟨ep.url, apiKey⟩ } }
  | unconnected (ep : Endpoint) (rest : List Endpoint)
      (pc : w.main.pc = .connecting (ep :: rest)) (kind : ep.kind = .soyas) :
      MainMove env w (.connected false)
        (w.failEarly s!"Failed to connect to Soyas endpoint {ep.name}")
  | entered (pc : w.main.pc = .connecting []) : MainMove env w .go w.enterLoop
  | exhausted (pc : w.main.pc = .loopTop)
      (round : env.config.config.transactions ≤ w.main.round) :
      MainMove env w .go (w.setMain .graceCheck)
  | stopped (pc : w.main.pc = .loopTop) (round : w.main.round < env.config.config.transactions)
      (signal : (w.shutdown.tryRecv w.main.shutdownRx).1.isOk = true) :
      MainMove env w .go
        { w with
          shutdownFlag := true
          main := { w.main with
            pc := .graceCheck
            shutdownRx := (w.shutdown.tryRecv w.main.shutdownRx).2 } }
  | fetched (pc : w.main.pc = .loopTop) (round : w.main.round < env.config.config.transactions)
      (signal : (w.shutdown.tryRecv w.main.shutdownRx).1.isOk = false) :
      MainMove env w .go
        { w with main := { w.main with
            pc := .fetching
              (w.now + Duration.fromMillis (max env.config.config.landingGraceMs 100))
            shutdownRx := (w.shutdown.tryRecv w.main.shutdownRx).2 } }
  | woken (deadline wake : Duration) (pc : w.main.pc = .nonceSleep deadline wake)
      (time : wake ≤ w.now) : MainMove env w .go (w.setMain (.fetching deadline))
  | unfetched (deadline : Duration) (reply : NonceReply) (err : String)
      (pc : w.main.pc = .fetching deadline)
      (check : checkNonceReply env.host w.main.previousNonce w.now deadline reply = .error err) :
      MainMove env w (.answer reply) (w.setMain (.failed err))
  | fresh (deadline : Duration) (reply : NonceReply) (nonceHash : Hash)
      (pc : w.main.pc = .fetching deadline)
      (check : checkNonceReply env.host w.main.previousNonce w.now deadline reply =
        .ok (some nonceHash)) :
      MainMove env w (.answer reply) (w.setMain (.starting nonceHash))
  | stale (deadline : Duration) (reply : NonceReply) (pc : w.main.pc = .fetching deadline)
      (check : checkNonceReply env.host w.main.previousNonce w.now deadline reply = .ok none) :
      MainMove env w (.answer reply)
        (w.setMain (.nonceSleep deadline (w.now + Duration.fromMillis 100)))
  | began (nonceHash : Hash) (pc : w.main.pc = .starting nonceHash) :
      MainMove env w .go (w.beginRound env nonceHash)
  | dispatched (nonceHash : Hash) (ep : Endpoint) (index : ℕ) (rest : List (Endpoint × ℕ))
      (pc : w.main.pc = .dispatching nonceHash ((ep, index) :: rest)) :
      MainMove env w .go
        { w.setMain (.dispatching nonceHash rest) with
          sends := w.sends ++ [w.newSend env nonceHash ep index] }
  | filled (nonceHash : Hash) (pc : w.main.pc = .dispatching nonceHash []) :
      MainMove env w .go (w.setMain .collecting)
  | collected (pc : w.main.pc = .collecting)
      (finished : w.sends.all (·.stage.isFinished) = true) :
      MainMove env w .go
        { w.setMain (.delaying (w.now + Duration.fromMillis env.config.config.delayMs)) with
          sends := [] }
  | delayed (wake : Duration) (pc : w.main.pc = .delaying wake) (time : wake ≤ w.now) :
      MainMove env w .go
        { w with main := { w.main with pc := .loopTop, round := w.main.round + 1 } }
  | flagged (pc : w.main.pc = .graceCheck) (flag : w.shutdownFlag = true) :
      MainMove env w .go (w.setMain .signalling)
  | unflagged (pc : w.main.pc = .graceCheck) (flag : w.shutdownFlag = false) :
      MainMove env w .go
        (w.setMain (.graceSleep (w.now + Duration.fromMillis env.config.config.landingGraceMs)))
  | graceOver (wake : Duration) (pc : w.main.pc = .graceSleep wake) (time : wake ≤ w.now) :
      MainMove env w .go (w.setMain .signalling)
  | signalled (pc : w.main.pc = .signalling) :
      MainMove env w .go
        { w.setMain (.selecting (w.now + Duration.fromMillis 2000)) with
          shutdown := w.shutdown.send () }
  | listenerOver (pc : w.main.pc = .aborting ∨ ∃ wake, w.main.pc = .selecting wake)
      (listener : w.listener.pc = .exited) : MainMove env w .go (w.setMain .awaitingMemo)
  | timedOut (wake : Duration) (pc : w.main.pc = .selecting wake) (time : wake ≤ w.now) :
      MainMove env w .timeout
        { w.setMain .aborting with listener := { w.listener with aborted := true } }
  | memoOver (pc : w.main.pc = .awaitingMemo) (memoTask : w.memoTask = .finished) :
      MainMove env w .go (w.setMain .finalizing)
  | finalized (iter : List (String × ProviderMetrics)) (pc : w.main.pc = .finalizing)
      (perm : iter.Perm w.book.records.metrics.items) :
      MainMove env w (.finalize iter) (w.setMain (.done (w.book.finalize iter)))

theorem mainGo_topOfLoop (hpc : w.main.pc = .loopTop) :
    MainMove env w .go (w.topOfLoop env) := by
  unfold topOfLoop
  split_ifs with hround
  · dsimp only
    split_ifs with hsignal
    · exact .stopped hpc hround hsignal
    · exact .fetched hpc hround (by simpa using hsignal)
  · exact .exhausted hpc (by omega)

theorem mainGo_move (h : w.mainGo env = some w') : MainMove env w .go w' := by
  unfold mainGo at h
  split at h
  case h_1 hpc =>
    split_ifs at h with hvalue hcompleted
    · cases h
      exact .ready hpc hvalue
    · cases h
      have hnone : w.ready.value = none := by simpa using hvalue
      exact .unready hpc hnone (by simpa [Oneshot.completed, hnone] using hcompleted)
  case h_2 hpc =>
    cases h
    exact .entered hpc
  case h_3 ep rest hpc =>
    split_ifs at h with hkind hkey
    · cases h
      exact .skipped ep rest hpc hkind
    · cases h
      exact .keyless ep rest hpc (by simpa using hkind) (by simpa using hkey)
  case h_4 hpc =>
    cases h
    exact mainGo_topOfLoop hpc
  case h_5 deadline wake hpc =>
    split_ifs at h with htime
    cases h
    exact .woken deadline wake hpc htime
  case h_6 nonceHash hpc =>
    cases h
    exact .began nonceHash hpc
  case h_7 nonceHash ep index rest hpc =>
    cases h
    exact .dispatched nonceHash ep index rest hpc
  case h_8 nonceHash hpc =>
    cases h
    exact .filled nonceHash hpc
  case h_9 hpc =>
    split_ifs at h with hfinished
    cases h
    exact .collected hpc hfinished
  case h_10 wake hpc =>
    split_ifs at h with htime
    cases h
    exact .delayed wake hpc htime
  case h_11 hpc =>
    split_ifs at h with hflag
    · cases h
      exact .flagged hpc hflag
    · cases h
      exact .unflagged hpc (by simpa using hflag)
  case h_12 wake hpc =>
    split_ifs at h with htime
    cases h
    exact .graceOver wake hpc htime
  case h_13 hpc =>
    cases h
    exact .signalled hpc
  case h_14 wake hpc =>
    split_ifs at h with hexited
    cases h
    exact .listenerOver (.inr ⟨wake, hpc⟩) hexited
  case h_15 hpc =>
    split_ifs at h with hexited
    cases h
    exact .listenerOver (.inl hpc) hexited
  case h_16 hpc =>
    split_ifs at h with hfinished
    cases h
    exact .memoOver hpc hfinished
  all_goals cases h

theorem mainMove {act : MainAct} (h : w.mainStep env act = some w') : MainMove env w act w' := by
  cases act with
  | go => exact mainGo_move h
  | connected ok =>
      simp only [mainStep] at h
      split at h
      · rename_i ep rest hpc
        split at h
        · rename_i apiKey hkind hkey
          split_ifs at h with hok
          · subst hok
            cases h
            exact .connected ep rest apiKey hpc hkind hkey
          · obtain rfl : ok = false := by simpa using hok
            cases h
            exact .unconnected ep rest hpc hkind
        · cases h
      · cases h
  | answer reply =>
      simp only [mainStep] at h
      split at h
      · rename_i deadline hpc
        split at h
        · rename_i err hcheck
          cases h
          exact .unfetched deadline reply err hpc hcheck
        · rename_i nonceHash hcheck
          cases h
          exact .fresh deadline reply nonceHash hpc hcheck
        · rename_i hcheck
          cases h
          exact .stale deadline reply hpc hcheck
      · cases h
  | timeout =>
      simp only [mainStep] at h
      split at h
      · rename_i wake hpc
        split_ifs at h with htime
        cases h
        exact .timedOut wake hpc htime
      · cases h
  | finalize iter =>
      simp only [mainStep] at h
      split at h
      · rename_i hpc
        split_ifs at h with hperm
        cases h
        exact .finalized iter hpc (List.isPerm_iff.mp hperm)
      · cases h

theorem MainMove.frame {act : MainAct} (h : MainMove env w act w') :
    w' = { w with
      main := w'.main
      shutdownFlag := w'.shutdownFlag
      shutdown := w'.shutdown
      memo := w'.memo
      book := w'.book
      listener := w'.listener
      memoTask := w'.memoTask
      ctrlC := w'.ctrlC
      sends := w'.sends
      log := w'.log } := by
  cases h <;> rfl

/-! ## Any step -/

inductive Move (env : Env) (w : World) : Act → World → Prop where
  | tick (d : Duration) : Move env w (.tick d) { w with now := w.now + d }
  | listener {act : ListenerAct} {w' : World} (move : ListenerMove env w act w') :
      Move env w (.listener act) w'
  | memo {w' : World} (move : MemoMove w w') : Move env w .memo w'
  | ctrlC {act : CtrlCAct} {w' : World} (move : CtrlCMove w act w') : Move env w (.ctrlC act) w'
  | main {act : MainAct} {w' : World} (move : MainMove env w act w') : Move env w (.main act) w'
  | send {i : ℕ} {act : SendAct} {w' : World} (move : SendMove env w i act w') :
      Move env w (.send i act) w'

theorem move {act : Act} (h : env.machine.step w act = some w') : Move env w act w' := by
  change w.step env act = some w' at h
  cases act with
  | tick d =>
      cases h
      exact .tick d
  | listener act => exact .listener (listenerMove h)
  | memo => exact .memo (memoMove h)
  | ctrlC act => exact .ctrlC (ctrlCMove h)
  | main act => exact .main (mainMove h)
  | send i act => exact .send (sendMove h)

/-- Whoever is not `main` leaves it where it is. -/
theorem Move.main_eq {act : Act} (h : Move env w act w') :
    (∃ mainAct, act = .main mainAct ∧ MainMove env w mainAct w') ∨
      (w'.main = w.main ∧ ∀ mainAct, act ≠ .main mainAct) := by
  cases h with
  | main move => exact .inl ⟨_, rfl, move⟩
  | tick d => exact .inr ⟨rfl, by simp⟩
  | listener move => exact .inr ⟨by rw [move.frame], by simp⟩
  | memo move => exact .inr ⟨by rw [move.frame], by simp⟩
  | ctrlC move => exact .inr ⟨by rw [move.frame], by simp⟩
  | send move => exact .inr ⟨by rw [move.frame], by simp⟩

/-- Whoever is not `main` makes no future, and at most takes one to another stage. -/
theorem Move.mem_sends {act : Act} (h : Move env w act w')
    (hother : ∀ mainAct, act ≠ .main mainAct) {task : SendTask} (hmem : task ∈ w'.sends) :
    ∃ old ∈ w.sends, ∃ stage, task = { old with stage := stage } := by
  have hsame : w'.sends = w.sends → ∃ old ∈ w.sends, ∃ stage, task = { old with stage := stage } :=
    fun heq ↦ ⟨task, heq ▸ hmem, task.stage, rfl⟩
  cases h with
  | tick d => exact hsame rfl
  | listener move => exact hsame (by rw [move.frame])
  | memo move => exact hsame (by rw [move.frame])
  | ctrlC move => exact hsame (by rw [move.frame])
  | main move => exact absurd rfl (hother _)
  | send move =>
      obtain ⟨old, stage, hold, hsends⟩ := move.sends_eq
      rw [hsends] at hmem
      rcases List.mem_or_eq_of_mem_set hmem with hmem | rfl
      · exact ⟨task, hmem, task.stage, rfl⟩
      · exact ⟨old, List.mem_of_getElem? hold, stage, rfl⟩

end World
end LandingBench
