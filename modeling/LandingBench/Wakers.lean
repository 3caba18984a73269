import LandingBench.Ledger
import LandingBench.Wakeups

/-!
# What ends a wait

A wait ends with a landing that was accepted, and with nothing else: nobody
takes a sender out of `waiters` or `round_notifiers` without firing it.  What
each call on the book leaves of the acks is added here to what it leaves of the
round channels, also where a notifier is made again after its round has landed.
-/

namespace LandingBench

open Async Data Ledger

/-! ## Round channels -/

theorem LandingBook.Alerts.landed {book : LandingBook} {waiting : Waiting}
    (h : book.Alerts waiting)
    (hchanged : book.rounds[waiting.pair.round]?.any (Watch.changed · waiting.pair.seen) = true) :
    waiting.roundId ∈ book.records.landedRounds := by
  obtain ⟨c, hc, ⟨-, hlanded⟩ | ⟨hseen, -⟩⟩ := h
  · exact hlanded
  · simp [hc, Watch.changed, hseen] at hchanged

/-- A channel that an alerted pair waits for is not hung up. -/
theorem Subscribed.not_hungUp {book : LandingBook} {pairs : List Waiting} {waiting : Waiting}
    (h : Subscribed book pairs) (hmem : waiting ∈ pairs) :
    book.rounds[waiting.pair.round]?.any (Watch.hungUp · waiting.pair.seen) = false := by
  obtain ⟨c, hc, ⟨hseen, -⟩ | ⟨-, hnotifier⟩⟩ := h.alerts waiting hmem
  · simp [hc, Watch.hungUp, Watch.changed, Nat.ne_of_gt hseen]
  · obtain ⟨c', hc', hsenders⟩ := h.alive _ _ hnotifier
    obtain rfl := Option.some.inj (hc.symm.trans hc')
    simp [hc, Watch.hungUp, Nat.ne_of_gt hsenders]

/-! ## Acks -/

/-- The acks are those of the recorded signatures, in this order.  A waiter is
the ack of its signature, and no ack is over whose signature has not landed. -/
structure Acked (book : LandingBook) (log : List BookOp) : Prop where
  length : book.acks.length = (recordedSignatures log).length
  waiters : ∀ signature tx, book.records.waiters.lookup signature = some tx →
    (recordedSignatures log)[tx]? = some signature
  landed : ∀ (tx : ℕ) (c : Oneshot Unit) (signature : String), book.acks[tx]? = some c →
    c.completed = true → (recordedSignatures log)[tx]? = some signature →
      ∃ landing ∈ landings log, landing.obs.signature = signature

theorem acked_empty : Acked .empty [] where
  length := rfl
  waiters signature tx h := by cases h
  landed tx c signature h := by simp [LandingBook.empty] at h

section Step

variable {book book' : LandingBook} {log : List BookOp}

/-- A call that touches no ack. -/
theorem Acked.idle (h : Acked book log) {op : BookOp} (hop : op.recorded? = none)
    (hacks : book'.acks = book.acks) (hwaiters : book'.records.waiters = book.records.waiters) :
    Acked book' (log ++ [op]) := by
  have hrecorded : recordedSignatures (log ++ [op]) = recordedSignatures log := by
    rw [recordedSignatures_snoc, hop, Option.toList_none, List.append_nil]
  refine ⟨?_, ?_, ?_⟩
  · rw [hacks, hrecorded]
    exact h.length
  · rw [hwaiters, hrecorded]
    exact h.waiters
  · rw [hacks, hrecorded]
    intro tx c signature hc hcompleted hsignature
    obtain ⟨landing, hmem, hsame⟩ := h.landed tx c signature hc hcompleted hsignature
    refine ⟨landing, ?_, hsame⟩
    rw [landings_snoc]
    exact List.mem_append_left _ hmem

theorem Acked.recordSend (h : Acked book log) {signature : String} (provider : String)
    (sentElapsed : Duration) (roundId : String) (hfresh : signature ∉ recordedSignatures log) :
    Acked (book.recordSend signature provider sentElapsed roundId).1
      (log ++ [.recordSend signature provider sentElapsed roundId]) := by
  have hnone : book.records.waiters.lookup signature = none := by
    rw [Option.eq_none_iff_forall_ne_some]
    intro tx htx
    exact hfresh (List.mem_of_getElem? (h.waiters signature tx htx))
  have hrecorded : recordedSignatures
      (log ++ [.recordSend signature provider sentElapsed roundId]) =
        recordedSignatures log ++ [signature] := recordedSignatures_snoc log _
  have hold : ∀ (tx : ℕ) (s : String), (recordedSignatures log)[tx]? = some s →
      (recordedSignatures log ++ [signature])[tx]? = some s := by
    intro tx s hs
    have hlt := (List.getElem?_eq_some_iff.mp hs).1
    rw [List.getElem?_append_left hlt, hs]
  refine ⟨?_, ?_, ?_⟩
  · rw [LandingBook.acks_recordSend _ _ _ _ _ hnone, hrecorded, List.length_append,
      List.length_append, h.length]
    rfl
  · intro s tx htx
    rw [LandingBook.waiters_recordSend] at htx
    rw [hrecorded]
    rcases HashMap.eq_or_of_lookup_insert htx with ⟨rfl, rfl⟩ | ⟨-, htx⟩
    · simp [h.length]
    · exact hold tx s (h.waiters s tx htx)
  · intro tx c s hc hcompleted hs
    rw [LandingBook.acks_recordSend _ _ _ _ _ hnone] at hc
    rw [hrecorded] at hs
    rcases Nat.lt_or_ge tx book.acks.length with hlt | hge
    · rw [List.getElem?_append_left hlt] at hc
      rw [List.getElem?_append_left (h.length ▸ hlt)] at hs
      obtain ⟨landing, hmem, hsame⟩ := h.landed tx c s hc hcompleted hs
      refine ⟨landing, ?_, hsame⟩
      rw [landings_snoc]
      exact List.mem_append_left _ hmem
    · rw [List.getElem?_append_right hge] at hc
      obtain rfl := List.mem_singleton.mp (List.mem_of_getElem? hc)
      cases hcompleted

/-- An ack that is over after an accepted observation was over before, or is the
one of its signature. -/
theorem LandingBook.waiter_or_completed {obs : MemoObservation} {send : SendRecord}
    (hlookup : book.records.sent.lookup obs.signature = some send)
    (htag : observedProvider obs.memo = send.provider) {tx : ℕ} {c : Oneshot Unit}
    (hc : (book.recordLanding obs).1.acks[tx]? = some c) (hcompleted : c.completed = true) :
    book.records.waiters.lookup obs.signature = some tx ∨
      ∃ c', book.acks[tx]? = some c' ∧ c'.completed = true := by
  rw [LandingBook.acks_recordLanding hlookup htag] at hc
  cases hwaiter : book.records.waiters.lookup obs.signature with
  | none =>
      rw [hwaiter] at hc
      exact .inr ⟨c, hc, hcompleted⟩
  | some tx' =>
      rw [hwaiter] at hc
      rcases eq_or_ne tx' tx with rfl | hne
      · exact .inl rfl
      · rw [List.getElem?_modify_ne _ _ hne] at hc
        exact .inr ⟨c, hc, hcompleted⟩

theorem LandingBook.length_acks_recordLanding {obs : MemoObservation} {send : SendRecord}
    (hlookup : book.records.sent.lookup obs.signature = some send)
    (htag : observedProvider obs.memo = send.provider) :
    (book.recordLanding obs).1.acks.length = book.acks.length := by
  rw [LandingBook.acks_recordLanding hlookup htag]
  cases book.records.waiters.lookup obs.signature with
  | none => rfl
  | some tx => exact List.length_modify _ _ _

/-- An accepted observation is over with the ack of its own signature. -/
theorem Acked.recordLanding (h : Acked book log)
    (hsent : ∀ signature, book.records.sent.lookup signature = openSend log signature)
    (obs : MemoObservation) :
    Acked (book.recordLanding obs).1 (log ++ [.recordLanding obs]) := by
  cases hlookup : book.records.sent.lookup obs.signature with
  | none =>
      rw [LandingBook.recordLanding_of_none hlookup]
      exact h.idle rfl rfl rfl
  | some send =>
      by_cases htag : observedProvider obs.memo = send.provider
      · have hopen : openSend log obs.signature = some send := (hsent _).symm.trans hlookup
        have hlanding : landingOf log (.recordLanding obs) = some ⟨send, obs⟩ :=
          landingOf_eq_some_iff.mpr ⟨rfl, hopen, (observedProvider_eq obs.memo) ▸ htag⟩
        have hrecorded : recordedSignatures (log ++ [.recordLanding obs]) =
            recordedSignatures log := by
          rw [recordedSignatures_snoc, BookOp.recorded?, Option.toList_none, List.append_nil]
        have hlandings : landings (log ++ [.recordLanding obs]) =
            landings log ++ [⟨send, obs⟩] := by
          rw [landings_snoc, hlanding, Option.toList_some]
        refine ⟨?_, ?_, ?_⟩
        · rw [LandingBook.length_acks_recordLanding hlookup htag, hrecorded]
          exact h.length
        · intro signature tx htx
          rw [LandingBook.lookup_waiters_recordLanding hlookup htag] at htx
          split_ifs at htx
          rw [hrecorded]
          exact h.waiters signature tx htx
        · intro tx c signature hc hcompleted hsignature
          rw [hrecorded] at hsignature
          rw [hlandings]
          rcases LandingBook.waiter_or_completed hlookup htag hc hcompleted with
            hwaiter | ⟨c', hc', hcompleted'⟩
          · have hown := h.waiters obs.signature tx hwaiter
            have hsame : obs.signature = signature := Option.some.inj (hown.symm.trans hsignature)
            exact ⟨⟨send, obs⟩, by simp, hsame⟩
          · obtain ⟨landing, hmem, hsame⟩ := h.landed tx c' signature hc' hcompleted' hsignature
            exact ⟨landing, List.mem_append_left _ hmem, hsame⟩
      · rw [LandingBook.recordLanding_of_ne hlookup htag]
        exact h.idle rfl rfl rfl

theorem Acked.dropPair (h : Acked book log) (pair : WaitPair) : Acked (book.dropPair pair) log where
  length := by
    rw [← h.length]
    exact List.length_modify _ _ _
  waiters := h.waiters
  landed tx c signature hc hcompleted hsignature := by
    have hget : (book.dropPair pair).acks[tx]? =
        (book.acks[tx]?).map fun c ↦ if pair.ack = tx then c.dropReceiver else c := by
      simp [LandingBook.dropPair, List.getElem?_modify]
    rw [hget] at hc
    obtain ⟨c', hc', rfl⟩ := Option.map_eq_some_iff.mp hc
    refine h.landed tx c' signature hc' ?_ hsignature
    split_ifs at hcompleted <;> exact hcompleted

end Step

/-! ## Both together -/

/-- A book with the pairs that are still waited for, and the calls that made it. -/
structure Sound (book : LandingBook) (pairs : List Waiting) (log : List BookOp) : Prop where
  accounts : book.accounts = (LandingBook.replay log).accounts
  subscribed : Subscribed book pairs
  acked : Acked book log

theorem sound_empty : Sound .empty [] [] := ⟨rfl, subscribed_empty, acked_empty⟩

section Step

variable {book : LandingBook} {pairs : List Waiting} {log : List BookOp}

theorem Sound.replayed (h : Sound book pairs log) (op : BookOp) :
    (book.apply op).accounts = (LandingBook.replay (log ++ [op])).accounts := by
  rw [LandingBook.replay_snoc]
  exact LandingBook.accounts_apply_congr h.accounts op

theorem Sound.lookup_sent (h : Sound book pairs log) (signature : String) :
    book.records.sent.lookup signature = openSend log signature := by
  have hsent : book.records.sent = (LandingBook.replay log).records.sent :=
    congrArg Accounts.sent h.accounts
  rw [hsent]
  exact (exact_replay log).sent signature

theorem Sound.mem_landedRounds (h : Sound book pairs log) {roundId : String}
    (hmem : roundId ∈ book.records.landedRounds) :
    ∃ landing ∈ LandingBook.accepted log, landing.record.roundId = roundId := by
  have hlanded : book.records.landedRounds = (LandingBook.replay log).records.landedRounds :=
    congrArg Accounts.landedRounds h.accounts
  rw [LandingBook.accepted_eq_landings]
  exact (mem_landedRounds_iff log roundId).mp (hlanded ▸ hmem)

theorem Sound.startRound (h : Sound book pairs log) (roundId : String) :
    Sound (book.startRound roundId) pairs (log ++ [.startRound roundId]) where
  accounts := h.replayed (.startRound roundId)
  subscribed := h.subscribed.startRound roundId
  acked := h.acked.idle rfl (LandingBook.acks_startRound book roundId)
    (LandingBook.waiters_startRound book roundId)

theorem Sound.recordSend (h : Sound book pairs log) {signature : String} (provider : String)
    (sentElapsed : Duration) (roundId : String) (hfresh : signature ∉ recordedSignatures log) :
    Sound (book.recordSend signature provider sentElapsed roundId).1
      (pairs ++ [⟨roundId, (book.recordSend signature provider sentElapsed roundId).2⟩])
      (log ++ [.recordSend signature provider sentElapsed roundId]) where
  accounts := h.replayed (.recordSend signature provider sentElapsed roundId)
  subscribed := h.subscribed.recordSend signature provider sentElapsed roundId
  acked := h.acked.recordSend provider sentElapsed roundId hfresh

theorem Sound.recordLanding (h : Sound book pairs log) (obs : MemoObservation) :
    Sound (book.recordLanding obs).1 pairs (log ++ [.recordLanding obs]) where
  accounts := h.replayed (.recordLanding obs)
  subscribed := h.subscribed.recordLanding obs
  acked := h.acked.recordLanding h.lookup_sent obs

theorem Sound.perm (h : Sound book pairs log) {pairs' : List Waiting} (hperm : pairs.Perm pairs') :
    Sound book pairs' log := ⟨h.accounts, h.subscribed.perm hperm, h.acked⟩

theorem Sound.dropPair {waiting : Waiting} (h : Sound book (waiting :: pairs) log) :
    Sound (book.dropPair waiting.pair) pairs log :=
  ⟨h.accounts, h.subscribed.dropPair, h.acked.dropPair waiting.pair⟩

/-- The next ack belongs to the signature that is recorded next. -/
theorem Sound.getElem?_ack (h : Sound book pairs log) (signature provider : String)
    (sentElapsed : Duration) (roundId : String) :
    (recordedSignatures (log ++ [.recordSend signature provider sentElapsed roundId]))[
      (book.recordSend signature provider sentElapsed roundId).2.ack]? = some signature := by
  rw [LandingBook.ack_recordSend, h.acked.length, recordedSignatures_snoc]
  simp

/-- An ack that is over is one of a signature that was accepted. -/
theorem Sound.landed_of_completed (h : Sound book pairs log) {ack : ℕ} {signature : String}
    (hsignature : (recordedSignatures log)[ack]? = some signature)
    (hcompleted : book.acks[ack]?.any Oneshot.completed = true) :
    ∃ landing ∈ LandingBook.accepted log, landing.obs.signature = signature := by
  obtain ⟨c, hc, hover⟩ := (Option.any_eq_true _ _).mp hcompleted
  rw [LandingBook.accepted_eq_landings]
  exact h.acked.landed ack c signature hc hover hsignature

end Step

namespace WaitRoom

/-- The calls on the book among the operations. -/
def calls (ops : List WaitOp) : List BookOp :=
  ops.filterMap fun op ↦
    match op with
    | .call op => some op
    | .consume _ => none

theorem sound_step {room room' : WaitRoom} {op : WaitOp} {log : List BookOp}
    (h : Sound room.book room.pairs log)
    (hdistinct : (recordedSignatures (log ++ calls [op])).Nodup)
    (hstep : room.step op = some room') : Sound room'.book room'.pairs (log ++ calls [op]) := by
  cases op with
  | consume index =>
      obtain ⟨waiting, hget, rfl⟩ := Option.map_eq_some_iff.mp hstep
      obtain ⟨hlt, rfl⟩ := List.getElem?_eq_some_iff.mp hget
      have hperm := (List.getElem_cons_eraseIdx_perm hlt).symm
      have hnone : calls [.consume index] = [] := rfl
      rw [hnone, List.append_nil]
      exact (h.perm hperm).dropPair
  | call op =>
      cases op with
      | startRound roundId =>
          obtain rfl := Option.some.inj hstep
          exact h.startRound roundId
      | recordSend signature provider sentElapsed roundId =>
          obtain rfl := Option.some.inj hstep
          have hfresh : signature ∉ recordedSignatures log := notMem_recorded_of_nodup hdistinct
          exact h.recordSend provider sentElapsed roundId hfresh
      | recordLanding obs =>
          obtain rfl := Option.some.inj hstep
          exact h.recordLanding obs

theorem nodup_recorded_of_append {pre post : List WaitOp}
    (h : (recordedSignatures (calls (pre ++ post))).Nodup) :
    (recordedSignatures (calls pre)).Nodup := by
  rw [calls, List.filterMap_append] at h
  exact nodup_recorded_left h

/-- In a run that records no signature twice, nobody is woken for nothing. -/
theorem sound {ops : List WaitOp} {room : WaitRoom} (hrun : machine.run ops = some room)
    (hdistinct : (recordedSignatures (calls ops)).Nodup) :
    Sound room.book room.pairs (calls ops) := by
  refine machine.run_induction
    (motive := fun ops room ↦ (recordedSignatures (calls ops)).Nodup →
      Sound room.book room.pairs (calls ops)) (fun _ ↦ sound_empty) ?_ hrun hdistinct
  intro ops op room room' _ ih hstep hdistinct
  have hold := ih (nodup_recorded_of_append hdistinct)
  rw [calls, List.filterMap_append] at hdistinct ⊢
  exact sound_step hold hdistinct hstep

end WaitRoom
end LandingBench
