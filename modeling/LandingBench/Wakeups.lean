import LandingBench.Async.Machine
import LandingBench.Book

/-!
# Who is woken when a round lands

The book together with the wait pairs that `record_send` has handed out and
that no `send_single_tx` has consumed yet.  A pair has seen all that the notifier
of its round has been sent; firing and removing that notifier leaves every such
pair with an unseen change.  A pair handed out after its round has landed
subscribes to a fresh notifier, which nobody may ever fire.
-/

namespace LandingBench

open Async Data

structure Waiting where
  roundId : String
  pair : WaitPair
  deriving DecidableEq, Repr

structure WaitRoom where
  book : LandingBook
  pairs : List Waiting

inductive WaitOp where
  | call (op : BookOp)
  | consume (index : ℕ)
  deriving DecidableEq, Repr

/-- Awaiting the pair ends: the ack has its value, or the round an unseen one. -/
def WaitPair.ready (pair : WaitPair) (book : LandingBook) : Bool :=
  (book.acks[pair.ack]?.any fun c ↦ c.value.isSome) ||
    book.rounds[pair.round]?.any fun c ↦ c.changed pair.seen

/-! ## Receivers -/

/-- Every waiting pair has a receiver of its own. -/
def HoldReceivers (rounds : List (Watch Bool)) (pairs : List Waiting) : Prop :=
  ∀ round c, rounds[round]? = some c → pairs.countP (·.pair.round = round) ≤ c.receivers

namespace HoldReceivers

variable {rounds : List (Watch Bool)} {pairs : List Waiting}

theorem perm (h : HoldReceivers rounds pairs) {pairs' : List Waiting} (hperm : pairs.Perm pairs') :
    HoldReceivers rounds pairs' := by
  intro round c hc
  rw [← hperm.countP_eq]
  exact h round c hc

theorem create (h : HoldReceivers rounds pairs)
    (hlt : ∀ waiting ∈ pairs, waiting.pair.round < rounds.length) (c : Watch Bool) :
    HoldReceivers (rounds ++ [c]) pairs := by
  intro round c' hc'
  rcases Nat.lt_or_ge round rounds.length with hold | hnew
  · rw [List.getElem?_append_left hold] at hc'
    exact h round c' hc'
  · have hnone : pairs.countP (·.pair.round = round) = 0 := by
      apply List.countP_eq_zero.mpr
      intro waiting hmem hround
      have hlt' := hlt waiting hmem
      have heq : waiting.pair.round = round := by simpa using hround
      omega
    omega

theorem subscribe (h : HoldReceivers rounds pairs) (waiting : Waiting) {c : Watch Bool}
    (hget : rounds[waiting.pair.round]? = some c) :
    HoldReceivers (rounds.set waiting.pair.round c.cloneSender.subscribe.1.dropSender)
      (pairs ++ [waiting]) := by
  have hlt := (List.getElem?_eq_some_iff.mp hget).1
  intro round c' hc'
  rw [List.countP_append, List.countP_singleton]
  rcases eq_or_ne waiting.pair.round round with rfl | hne
  · rw [List.getElem?_set_self hlt] at hc'
    obtain rfl := Option.some.inj hc'
    have hcount := h _ c hget
    simpa [Watch.subscribe, Watch.cloneSender, Watch.dropSender] using hcount
  · rw [List.getElem?_set_ne hne] at hc'
    have hcount := h round c' hc'
    simpa [hne] using hcount

theorem fire (h : HoldReceivers rounds pairs) (tx : ℕ) :
    HoldReceivers (rounds.modify tx fun c ↦ (c.send true).dropSender) pairs := by
  intro round c hc
  rw [List.getElem?_modify] at hc
  obtain ⟨c', hc', rfl⟩ := Option.map_eq_some_iff.mp hc
  have hcount := h round c' hc'
  split_ifs
  · exact hcount.trans_eq (Watch.receivers_send true c').symm
  · exact hcount

theorem drop {waiting : Waiting} (h : HoldReceivers rounds (waiting :: pairs)) :
    HoldReceivers (rounds.modify waiting.pair.round Watch.dropReceiver) pairs := by
  intro round c hc
  rw [List.getElem?_modify] at hc
  obtain ⟨c', hc', rfl⟩ := Option.map_eq_some_iff.mp hc
  have hcount := h round c' hc'
  rw [List.countP_cons] at hcount
  split_ifs at hcount ⊢ with hround heq heq
  · simp only [Watch.dropReceiver]
    omega
  · simp_all
  · simp_all
  · omega

/-- A pair that holds a receiver is there to be sent to. -/
theorem receivers_ne (h : HoldReceivers rounds pairs) {waiting : Waiting} (hmem : waiting ∈ pairs)
    {c : Watch Bool} (hc : rounds[waiting.pair.round]? = some c) : c.receivers ≠ 0 := by
  have hpos : 0 < pairs.countP (·.pair.round = waiting.pair.round) :=
    List.countP_pos_iff.mpr ⟨waiting, hmem, by simp⟩
  have hcount := h _ c hc
  omega

end HoldReceivers

/-! ## Round channels -/

namespace LandingBook

/-- Every channel is still there, with its senders and what it has been sent. -/
def Keeps (book book' : LandingBook) : Prop :=
  ∀ (i : ℕ) (c : Watch Bool), book.rounds[i]? = some c →
    ∃ c', book'.rounds[i]? = some c' ∧ c'.version = c.version ∧ c'.senders = c.senders

theorem keeps_of_rounds_eq {book book' : LandingBook} (h : book'.rounds = book.rounds) :
    book.Keeps book' :=
  fun _ c hc ↦ ⟨c, h ▸ hc, rfl, rfl⟩

theorem Keeps.trans {book book' book'' : LandingBook} (h : book.Keeps book')
    (h' : book'.Keeps book'') : book.Keeps book'' := by
  intro i c hc
  obtain ⟨c', hc', hversion, hsenders⟩ := h i c hc
  obtain ⟨c'', hc'', hversion', hsenders'⟩ := h' i c' hc'
  exact ⟨c'', hc'', hversion'.trans hversion, hsenders'.trans hsenders⟩

theorem keeps_notifier (book : LandingBook) (roundId : String) :
    book.Keeps (book.notifier roundId).1 := by
  cases hlookup : book.records.roundNotifiers.lookup roundId with
  | some tx =>
      rw [notifier_of_some hlookup]
      exact keeps_of_rounds_eq rfl
  | none =>
      rw [notifier_of_none hlookup]
      intro i c hc
      have hlt := (List.getElem?_eq_some_iff.mp hc).1
      exact ⟨c, (List.getElem?_append_left hlt).trans hc, rfl, rfl⟩

theorem keeps_subscribe (book : LandingBook) (round : ℕ) :
    book.Keeps (book.subscribe round).1 := by
  cases hget : book.rounds[round]? with
  | none =>
      rw [subscribe, hget]
      exact keeps_of_rounds_eq rfl
  | some c =>
      have hlt := (List.getElem?_eq_some_iff.mp hget).1
      rw [subscribe_of_some hget]
      intro i c' hc'
      rcases eq_or_ne i round with rfl | hi
      · obtain rfl := Option.some.inj (hget.symm.trans hc')
        exact ⟨_, List.getElem?_set_self hlt, rfl, rfl⟩
      · exact ⟨c', (List.getElem?_set_ne hi.symm).trans hc', rfl, rfl⟩

theorem keeps_startRound (book : LandingBook) (roundId : String) :
    book.Keeps (book.startRound roundId) :=
  (keeps_of_rounds_eq rfl).trans (keeps_notifier { book with records := { book.records with
    roundsAttempted := book.records.roundsAttempted + 1 } } roundId)

theorem keeps_recordSend (book : LandingBook) (signature provider : String)
    (sentElapsed : Duration) (roundId : String) :
    book.Keeps (book.recordSend signature provider sentElapsed roundId).1 := by
  refine (book.keeps_notifier roundId).trans (Keeps.trans ?_ (keeps_subscribe _ _))
  exact keeps_of_rounds_eq rfl

theorem keeps_dropPair (book : LandingBook) (pair : WaitPair) :
    book.Keeps (book.dropPair pair) := by
  intro i c hc
  have hget : (book.dropPair pair).rounds[i]? =
      some (if pair.round = i then c.dropReceiver else c) := by
    simp [dropPair, List.getElem?_modify, hc]
  refine ⟨_, hget, ?_⟩
  split_ifs <;> exact ⟨rfl, rfl⟩

/-- Firing a notifier leaves what its channel has been sent, and adds to it. -/
theorem version_fireNotifier (book : LandingBook) (roundId : String) {i : ℕ} {c : Watch Bool}
    (hc : book.rounds[i]? = some c) :
    ∃ c', (book.fireNotifier roundId).rounds[i]? = some c' ∧ c.version ≤ c'.version := by
  cases hlookup : book.records.roundNotifiers.lookup roundId with
  | none =>
      rw [fireNotifier_of_none hlookup]
      exact ⟨c, hc, le_rfl⟩
  | some tx =>
      rw [fireNotifier_of_some hlookup]
      have hget : (book.rounds.modify tx fun c ↦ (c.send true).dropSender)[i]? =
          some (if tx = i then (c.send true).dropSender else c) := by
        simp [List.getElem?_modify, hc]
      refine ⟨_, hget, ?_⟩
      split_ifs
      · exact c.version_le_send true
      · exact le_rfl

theorem lookup_fireNotifier (book : LandingBook) (roundId : String) :
    (book.fireNotifier roundId).records.roundNotifiers.lookup roundId = none := by
  cases hlookup : book.records.roundNotifiers.lookup roundId with
  | none => rw [fireNotifier_of_none hlookup, hlookup]
  | some tx =>
      rw [fireNotifier_of_some hlookup]
      exact AList.lookup_erase roundId _

/-- The pair has a change that a landing of its round has made, or it has seen
everything and the notifier of its round is still there. -/
def Alerts (book : LandingBook) (waiting : Waiting) : Prop :=
  ∃ c, book.rounds[waiting.pair.round]? = some c ∧
    ((waiting.pair.seen < c.version ∧ waiting.roundId ∈ book.records.landedRounds) ∨
      (c.version = waiting.pair.seen ∧
        book.records.roundNotifiers.lookup waiting.roundId = some waiting.pair.round))

/-- If its round has landed, the pair has a change. -/
def Woken (book : LandingBook) (waiting : Waiting) : Prop :=
  waiting.roundId ∈ book.records.landedRounds →
    ∃ c, book.rounds[waiting.pair.round]? = some c ∧ waiting.pair.seen < c.version

end LandingBook

/-- Notifiers own channels with a sender, and every pair is alerted by its own. -/
structure Subscribed (book : LandingBook) (pairs : List Waiting) : Prop where
  alive : ∀ roundId round, book.records.roundNotifiers.lookup roundId = some round →
    ∃ c, book.rounds[round]? = some c ∧ 0 < c.senders
  owned : ∀ r r' round, book.records.roundNotifiers.lookup r = some round →
    book.records.roundNotifiers.lookup r' = some round → r = r'
  alerts : ∀ waiting ∈ pairs, book.Alerts waiting
  counted : HoldReceivers book.rounds pairs

/-- Nobody waits for the notifier of a round that has landed already. -/
structure Attached (book : LandingBook) (pairs : List Waiting) : Prop
    extends Subscribed book pairs where
  woken : ∀ waiting ∈ pairs, book.Woken waiting

theorem subscribed_empty : Subscribed .empty [] where
  alive roundId round h := by cases h
  owned r r' round h := by cases h
  alerts waiting hmem := by cases hmem
  counted round c h := by simp [LandingBook.empty] at h

section Step

variable {book book' : LandingBook} {pairs : List Waiting} {waiting : Waiting}

/-- A pair stays alerted where no notifier is taken away and every channel is kept. -/
theorem LandingBook.Alerts.carry (h : book.Alerts waiting)
    (hnotifiers : ∀ r round, book.records.roundNotifiers.lookup r = some round →
      book'.records.roundNotifiers.lookup r = some round)
    (hlanded : book.records.landedRounds ⊆ book'.records.landedRounds)
    (hkeeps : book.Keeps book') : book'.Alerts waiting := by
  obtain ⟨c, hc, h⟩ := h
  obtain ⟨c', hc', heq, -⟩ := hkeeps _ c hc
  refine ⟨c', hc', ?_⟩
  rcases h with ⟨hseen, hmem⟩ | ⟨hseen, hnotifier⟩
  · exact .inl ⟨heq ▸ hseen, hlanded hmem⟩
  · exact .inr ⟨heq.trans hseen, hnotifiers _ _ hnotifier⟩

theorem LandingBook.Woken.carry (h : book.Woken waiting)
    (hlanded : book'.records.landedRounds = book.records.landedRounds)
    (hkeeps : book.Keeps book') : book'.Woken waiting := by
  intro hmem
  obtain ⟨c, hc, hseen⟩ := h (hlanded ▸ hmem)
  obtain ⟨c', hc', heq, -⟩ := hkeeps _ c hc
  exact ⟨c', hc', heq ▸ hseen⟩

theorem LandingBook.Woken.ready (h : book.Woken waiting)
    (hlanded : waiting.roundId ∈ book.records.landedRounds) : waiting.pair.ready book = true := by
  obtain ⟨c, hc, hseen⟩ := h hlanded
  simp [WaitPair.ready, hc, Watch.changed, Nat.ne_of_gt hseen]

/-- Who still listens after a notifier was fired listens to another one. -/
theorem LandingBook.Woken.fireNotifier {roundId : String}
    (h : waiting.roundId ≠ roundId → book.Woken waiting)
    (halerts : (book.fireNotifier roundId).Alerts waiting) :
    (book.fireNotifier roundId).Woken waiting := by
  intro hlanded
  obtain ⟨c, hc, ⟨hseen, -⟩ | ⟨hseen, hnotifier⟩⟩ := halerts
  · exact ⟨c, hc, hseen⟩
  · have hne : waiting.roundId ≠ roundId := by
      rintro heq
      rw [heq, book.lookup_fireNotifier] at hnotifier
      cases hnotifier
    have hbefore : waiting.roundId ∈ (book.fireNotifier roundId).accounts.landedRounds := hlanded
    rw [LandingBook.accounts_fireNotifier] at hbefore
    obtain ⟨old, hold, hless⟩ := h hne hbefore
    obtain ⟨c', hc', hle⟩ := book.version_fireNotifier roundId hold
    obtain rfl := Option.some.inj (hc.symm.trans hc')
    exact ⟨c, hc, hless.trans_le hle⟩

namespace Subscribed

theorem congr (h : Subscribed book pairs)
    (hnotifiers : book'.records.roundNotifiers = book.records.roundNotifiers)
    (hlanded : book.records.landedRounds ⊆ book'.records.landedRounds)
    (hrounds : book'.rounds = book.rounds) : Subscribed book' pairs where
  alive := by simpa only [hnotifiers, hrounds] using h.alive
  owned := by simpa only [hnotifiers] using h.owned
  alerts waiting hmem := by
    refine (h.alerts waiting hmem).carry (fun r round hr ↦ ?_) hlanded
      (LandingBook.keeps_of_rounds_eq hrounds)
    rw [hnotifiers]
    exact hr
  counted := by simpa only [hrounds] using h.counted

theorem perm (h : Subscribed book pairs) {pairs' : List Waiting} (hperm : pairs.Perm pairs') :
    Subscribed book pairs' where
  alive := h.alive
  owned := h.owned
  alerts waiting hmem := h.alerts waiting (hperm.mem_iff.mpr hmem)
  counted := HoldReceivers.perm h.counted hperm

theorem round_lt (h : Subscribed book pairs) (hmem : waiting ∈ pairs) :
    waiting.pair.round < book.rounds.length := by
  obtain ⟨c, hc, -⟩ := h.alerts waiting hmem
  exact (List.getElem?_eq_some_iff.mp hc).1

theorem notifier_lt (h : Subscribed book pairs) {roundId : String} {round : ℕ}
    (hround : book.records.roundNotifiers.lookup roundId = some round) :
    round < book.rounds.length := by
  obtain ⟨c, hc, -⟩ := h.alive roundId round hround
  exact (List.getElem?_eq_some_iff.mp hc).1

/-- `entry(round_id).or_insert_with(..)`: a new notifier has a channel of its own. -/
theorem notifier (h : Subscribed book pairs) (roundId : String) :
    Subscribed (book.notifier roundId).1 pairs := by
  have hkeeps := book.keeps_notifier roundId
  cases hlookup : book.records.roundNotifiers.lookup roundId with
  | some tx =>
      rw [LandingBook.notifier_of_some hlookup]
      exact h
  | none =>
      rw [LandingBook.notifier_of_none hlookup] at hkeeps ⊢
      refine ⟨?_, ?_, ?_, ?_⟩
      · intro r round hr
        rcases HashMap.eq_or_of_lookup_insert hr with ⟨-, rfl⟩ | ⟨-, hr⟩
        · exact ⟨(Watch.channel false).dropReceiver, by simp, Nat.one_pos⟩
        · obtain ⟨c, hc, hsenders⟩ := h.alive r round hr
          obtain ⟨c', hc', -, heq⟩ := hkeeps round c hc
          exact ⟨c', hc', heq ▸ hsenders⟩
      · apply HashMap.OneKey.insert h.owned
        exact fun r hr ↦ Nat.lt_irrefl _ (h.notifier_lt hr)
      · intro waiting hmem
        refine (h.alerts waiting hmem).carry (fun r round hr ↦ ?_) (Finset.Subset.refl _) hkeeps
        have hne : r ≠ roundId := by
          rintro rfl
          rw [hlookup] at hr
          cases hr
        exact (AList.lookup_insert_ne hne).trans hr
      · exact HoldReceivers.create h.counted (fun waiting hmem ↦ h.round_lt hmem) _

/-- A new pair listens to the notifier of its round. -/
theorem subscribe (h : Subscribed book pairs) {roundId : String} {round : ℕ}
    (ack : ℕ) (hround : book.records.roundNotifiers.lookup roundId = some round) :
    Subscribed (book.subscribe round).1
      (pairs ++ [⟨roundId, ⟨ack, round, (book.subscribe round).2⟩⟩]) := by
  obtain ⟨c, hget, hsenders⟩ := h.alive roundId round hround
  have hkeeps := book.keeps_subscribe round
  rw [LandingBook.subscribe_of_some hget] at hkeeps ⊢
  refine ⟨?_, h.owned, ?_, ?_⟩
  · intro r i hr
    obtain ⟨c', hc', hsenders'⟩ := h.alive r i hr
    obtain ⟨c'', hc'', -, heq⟩ := hkeeps i c' hc'
    exact ⟨c'', hc'', heq ▸ hsenders'⟩
  · intro waiting hmem
    rcases List.mem_append.mp hmem with hmem | hmem
    · exact (h.alerts waiting hmem).carry (fun _ _ hr ↦ hr) (Finset.Subset.refl _) hkeeps
    · obtain rfl := List.mem_singleton.mp hmem
      obtain ⟨c', hc', hversion, -⟩ := hkeeps round c hget
      exact ⟨c', hc', .inr ⟨hversion, hround⟩⟩
  · exact HoldReceivers.subscribe h.counted ⟨roundId, ⟨ack, round, c.version⟩⟩ hget

/-- Firing the notifier of a landed round gives its listeners their change. -/
theorem fireNotifier (h : Subscribed book pairs) {roundId : String}
    (hlanded : roundId ∈ book.records.landedRounds) :
    Subscribed (book.fireNotifier roundId) pairs := by
  cases hlookup : book.records.roundNotifiers.lookup roundId with
  | none =>
      rw [LandingBook.fireNotifier_of_none hlookup]
      exact h
  | some tx =>
      rw [LandingBook.fireNotifier_of_some hlookup]
      have hget : ∀ i, (book.rounds.modify tx fun c ↦ (c.send true).dropSender)[i]? =
          (book.rounds[i]?).map fun c ↦ if tx = i then (c.send true).dropSender else c := by
        intro i
        simp [List.getElem?_modify]
      have hapart : ∀ r round, r ≠ roundId →
          book.records.roundNotifiers.lookup r = some round → tx ≠ round := by
        rintro r round hne hr rfl
        exact hne (h.owned r roundId tx hr hlookup)
      refine ⟨?_, ?_, ?_, ?_⟩
      · intro r round hr
        obtain ⟨hne, hr⟩ := HashMap.of_lookup_erase hr
        obtain ⟨c, hc, hsenders⟩ := h.alive r round hr
        refine ⟨c, ?_, hsenders⟩
        rw [hget, hc]
        simp [hapart r round hne hr]
      · exact HashMap.OneKey.erase h.owned roundId
      · intro waiting hmem
        obtain ⟨c, hc, ⟨hseen, hmem'⟩ | ⟨hseen, hnotifier⟩⟩ := h.alerts waiting hmem
        · refine ⟨_, by rw [hget, hc]; rfl, .inl ⟨?_, hmem'⟩⟩
          split_ifs
          · exact hseen.trans_le (c.version_le_send true)
          · exact hseen
        · rcases eq_or_ne waiting.roundId roundId with heq | hne
          · obtain rfl : tx = waiting.pair.round :=
              Option.some.inj (hlookup.symm.trans (heq ▸ hnotifier))
            -- the pair itself holds a receiver, so that the value is not refused
            have hreceivers := HoldReceivers.receivers_ne h.counted hmem hc
            refine ⟨_, by rw [hget, hc]; rfl, .inl ⟨?_, heq ▸ hlanded⟩⟩
            simp [Watch.version_send hreceivers, hseen]
          · refine ⟨c, ?_, .inr ⟨hseen, (AList.lookup_erase_ne hne).trans hnotifier⟩⟩
            rw [hget, hc]
            simp [hapart _ _ hne hnotifier]
      · exact HoldReceivers.fire h.counted tx

/-- The end of a wait takes away one receiver, which was its own. -/
theorem dropPair (h : Subscribed book (waiting :: pairs)) :
    Subscribed (book.dropPair waiting.pair) pairs where
  alive r round hr := by
    obtain ⟨c, hc, hsenders⟩ := h.alive r round hr
    obtain ⟨c', hc', -, heq⟩ := book.keeps_dropPair waiting.pair round c hc
    exact ⟨c', hc', heq ▸ hsenders⟩
  owned := h.owned
  alerts other hmem :=
    (h.alerts other (List.mem_cons_of_mem _ hmem)).carry (fun _ _ hr ↦ hr)
      (Finset.Subset.refl _) (book.keeps_dropPair waiting.pair)
  counted := HoldReceivers.drop h.counted

theorem startRound (h : Subscribed book pairs) (roundId : String) :
    Subscribed (book.startRound roundId) pairs := by
  have hcounted : Subscribed { book with records := { book.records with
      roundsAttempted := book.records.roundsAttempted + 1 } } pairs :=
    h.congr rfl (Finset.Subset.refl _) rfl
  exact hcounted.notifier roundId

theorem recordSend (h : Subscribed book pairs) (signature provider : String)
    (sentElapsed : Duration) (roundId : String) :
    Subscribed (book.recordSend signature provider sentElapsed roundId).1
      (pairs ++
        [⟨roundId, (book.recordSend signature provider sentElapsed roundId).2⟩]) := by
  have hnotifier := h.notifier roundId
  have hround := LandingBook.lookup_notifier book roundId
  generalize hbook : ({ (book.notifier roundId).1 with
      records := { (book.notifier roundId).1.records with
        sent := (book.notifier roundId).1.records.sent.insert signature
          ⟨provider, sentElapsed, roundId⟩
        metrics := (book.notifier roundId).1.records.metrics.orInsert provider default } } :
      LandingBook).addWaiter signature = book'
  have hmid : Subscribed book' pairs := by
    subst hbook
    exact hnotifier.congr rfl (Finset.Subset.refl _) rfl
  subst hbook
  exact hmid.subscribe (book.notifier roundId).1.acks.length hround

theorem recordLanding (h : Subscribed book pairs) (obs : MemoObservation) :
    Subscribed (book.recordLanding obs).1 pairs := by
  cases hsent : book.records.sent.lookup obs.signature with
  | none =>
      rw [LandingBook.recordLanding_of_none hsent]
      exact h
  | some send =>
      by_cases htag : observedProvider obs.memo = send.provider
      · simp only [LandingBook.recordLanding, hsent, htag, ne_eq, not_true_eq_false, if_false]
        apply Subscribed.fireNotifier
        · apply h.congr
          · rw [LandingBook.fireWaiter_roundNotifiers]
          · rw [LandingBook.fireWaiter_landedRounds]
            exact Finset.subset_insert _ _
          · rw [LandingBook.fireWaiter_rounds]
        · rw [LandingBook.fireWaiter_landedRounds]
          exact Finset.mem_insert_self _ _
      · rw [LandingBook.recordLanding_of_ne hsent htag]
        exact h.congr rfl (Finset.Subset.refl _) rfl

end Subscribed

namespace Attached

theorem startRound (h : Attached book pairs) (roundId : String) :
    Attached (book.startRound roundId) pairs where
  toSubscribed := h.toSubscribed.startRound roundId
  woken waiting hmem :=
    (h.woken waiting hmem).carry (congrArg Accounts.landedRounds (book.accounts_startRound roundId))
      (book.keeps_startRound roundId)

/-- A new pair of a round that has not landed waits for nothing that has passed. -/
theorem recordSend (h : Attached book pairs) (signature provider : String)
    (sentElapsed : Duration) {roundId : String} (hopen : roundId ∉ book.records.landedRounds) :
    Attached (book.recordSend signature provider sentElapsed roundId).1
      (pairs ++
        [⟨roundId, (book.recordSend signature provider sentElapsed roundId).2⟩]) where
  toSubscribed := h.toSubscribed.recordSend signature provider sentElapsed roundId
  woken waiting hmem := by
    have hlanded : (book.recordSend signature provider sentElapsed roundId).1.records.landedRounds =
        book.records.landedRounds :=
      congrArg Accounts.landedRounds (book.accounts_recordSend _ _ _ _)
    rcases List.mem_append.mp hmem with hmem | hnew
    · have hkeeps : book.Keeps (book.recordSend signature provider sentElapsed roundId).1 :=
        book.keeps_recordSend signature provider sentElapsed roundId
      exact (h.woken waiting hmem).carry hlanded hkeeps
    · obtain rfl := List.mem_singleton.mp hnew
      exact fun hmem ↦ absurd (hlanded ▸ hmem) hopen

theorem recordLanding (h : Attached book pairs) (obs : MemoObservation) :
    Attached (book.recordLanding obs).1 pairs := by
  have hsubscribed := h.toSubscribed.recordLanding obs
  refine ⟨hsubscribed, fun waiting hmem ↦ ?_⟩
  have halerts := hsubscribed.alerts waiting hmem
  have hwoken := h.woken waiting hmem
  cases hsent : book.records.sent.lookup obs.signature with
  | none =>
      rw [LandingBook.recordLanding_of_none hsent]
      exact hwoken
  | some send =>
      by_cases htag : observedProvider obs.memo = send.provider
      · simp only [LandingBook.recordLanding, hsent, htag, ne_eq, not_true_eq_false,
          if_false] at halerts ⊢
        refine LandingBook.Woken.fireNotifier (fun hne hlanded ↦ ?_) halerts
        rw [LandingBook.fireWaiter_landedRounds] at hlanded
        rw [LandingBook.fireWaiter_rounds]
        exact hwoken ((Finset.mem_insert.mp hlanded).resolve_left hne)
      · rw [LandingBook.recordLanding_of_ne hsent htag]
        exact hwoken

theorem dropPair (h : Attached book (waiting :: pairs)) :
    Attached (book.dropPair waiting.pair) pairs where
  toSubscribed := h.toSubscribed.dropPair
  woken other hmem :=
    (h.woken other (List.mem_cons_of_mem _ hmem)).carry rfl (book.keeps_dropPair waiting.pair)

theorem perm (h : Attached book pairs) {pairs' : List Waiting} (hperm : pairs.Perm pairs') :
    Attached book pairs' :=
  ⟨h.toSubscribed.perm hperm, fun waiting hmem ↦ h.woken waiting (hperm.mem_iff.mpr hmem)⟩

end Attached

end Step

/-! ## The steps -/

namespace WaitRoom

def step (room : WaitRoom) : WaitOp → Option WaitRoom
  | .call (.recordSend signature provider sentElapsed roundId) =>
      let (book, pair) := room.book.recordSend signature provider sentElapsed roundId
      some ⟨book, room.pairs ++ [⟨roundId, pair⟩]⟩
  | .call op => some { room with book := room.book.apply op }
  | .consume index =>
      (room.pairs[index]?).map fun waiting ↦
        ⟨room.book.dropPair waiting.pair, room.pairs.eraseIdx index⟩

def machine : Machine WaitRoom WaitOp := ⟨⟨LandingBook.empty, []⟩, step⟩

/-- Whoever waits in a landed round is ready to go on. -/
def NoMissedWakeup (room : WaitRoom) : Prop :=
  ∀ waiting ∈ room.pairs, waiting.roundId ∈ room.book.records.landedRounds →
    waiting.pair.ready room.book = true

/-- The step does not record a send of a round that has landed. -/
def SendsBeforeLanding (room : WaitRoom) (op : WaitOp) : Prop :=
  ∀ signature provider sentElapsed roundId,
    op = .call (.recordSend signature provider sentElapsed roundId) →
      roundId ∉ room.book.records.landedRounds

theorem attached_step {room room' : WaitRoom} {op : WaitOp} (h : Attached room.book room.pairs)
    (hgood : room.SendsBeforeLanding op) (hstep : room.step op = some room') :
    Attached room'.book room'.pairs := by
  cases op with
  | consume index =>
      obtain ⟨waiting, hget, rfl⟩ := Option.map_eq_some_iff.mp hstep
      obtain ⟨hlt, rfl⟩ := List.getElem?_eq_some_iff.mp hget
      exact (h.perm (List.getElem_cons_eraseIdx_perm hlt).symm).dropPair
  | call op =>
      cases op with
      | startRound roundId =>
          obtain rfl := Option.some.inj hstep
          exact h.startRound roundId
      | recordSend signature provider sentElapsed roundId =>
          obtain rfl := Option.some.inj hstep
          exact h.recordSend signature provider sentElapsed (hgood _ _ _ _ rfl)
      | recordLanding obs =>
          obtain rfl := Option.some.inj hstep
          exact h.recordLanding obs

theorem addWaiter_acks (book : LandingBook) (signature : String) :
    (book.addWaiter signature).acks[book.acks.length]? = some Oneshot.channel := by
  unfold LandingBook.addWaiter
  cases book.records.waiters.lookup signature with
  | none => simp
  | some old => simp

/-- A subscriber has seen everything there is. -/
theorem subscribe_changed (book : LandingBook) (round : ℕ) :
    ((book.subscribe round).1.rounds[round]?.any fun c ↦
      c.changed (book.subscribe round).2) = false := by
  cases hget : book.rounds[round]? with
  | none => simp [LandingBook.subscribe, hget]
  | some c =>
      have hlt := (List.getElem?_eq_some_iff.mp hget).1
      simp [LandingBook.subscribe, hlt, Watch.subscribe, Watch.cloneSender, Watch.changed]

theorem recordSend_not_ready (book : LandingBook) (signature provider : String)
    (sentElapsed : Duration) (roundId : String) :
    (book.recordSend signature provider sentElapsed roundId).2.ready
      (book.recordSend signature provider sentElapsed roundId).1 = false := by
  simp only [WaitPair.ready, LandingBook.recordSend, LandingBook.acks_subscribe,
    Bool.or_eq_false_iff]
  refine ⟨?_, subscribe_changed _ _⟩
  rw [addWaiter_acks]
  rfl

/-- A pair of a round that has landed before is not ready when it is handed out. -/
theorem not_noMissedWakeup_recordSend {room : WaitRoom} (signature provider : String)
    (sentElapsed : Duration) {roundId : String}
    (hlanded : roundId ∈ room.book.records.landedRounds) :
    ¬ WaitRoom.NoMissedWakeup ⟨(room.book.recordSend signature provider sentElapsed roundId).1,
      room.pairs ++ [⟨roundId,
        (room.book.recordSend signature provider sentElapsed roundId).2⟩]⟩ := by
  intro h
  have hstill : roundId ∈
      (room.book.recordSend signature provider sentElapsed roundId).1.accounts.landedRounds := by
    rw [LandingBook.accounts_recordSend]
    exact hlanded
  have hready := h ⟨roundId, (room.book.recordSend signature provider sentElapsed roundId).2⟩
    (by simp) hstill
  rw [recordSend_not_ready] at hready
  cases hready

/-- Nobody misses the landing of a round, in any state of a run, exactly when
the run records no send of a round that has already landed. -/
theorem noMissedWakeup_iff (ops : List WaitOp) :
    (∀ pre room, pre <+: ops → machine.run pre = some room → room.NoMissedWakeup) ↔
      machine.Along SendsBeforeLanding ops := by
  constructor
  · rintro h pre op post room rfl hrun signature provider sentElapsed roundId rfl hlanded
    have hnext : machine.run
        (pre ++ [.call (.recordSend signature provider sentElapsed roundId)]) = some _ :=
      machine.run_snoc_eq_some.mpr ⟨room, hrun, rfl⟩
    exact not_noMissedWakeup_recordSend signature provider sentElapsed hlanded
      (h _ _ ⟨post, by simp⟩ hnext)
  · rintro h pre room ⟨post, rfl⟩ hrun waiting hmem hlanded
    have hattached := machine.invariant_of_along
      (P := fun room ↦ Attached room.book room.pairs) ⟨subscribed_empty, fun _ hmem ↦ by cases hmem⟩
      (fun room op room' ↦ attached_step) h.left hrun
    exact (hattached.woken waiting hmem).ready hlanded

/-- The second endpoint's send is recorded after the first one's has landed. -/
def slowEndpoint : List WaitOp :=
  [.call (.startRound "r"), .call (.recordSend "s" "rpc" 0 "r"),
    .call (.recordLanding ⟨"s", "rpc|7", 5000000⟩), .call (.recordSend "t" "jito" 0 "r")]

theorem slowEndpoint_misses_wakeup :
    ¬ ∀ ops room, machine.run ops = some room → room.NoMissedWakeup := by
  intro h
  have hrun : machine.run slowEndpoint = some _ := rfl
  have hready := h slowEndpoint _ hrun ⟨"r", ⟨1, 1, 0⟩⟩ (by decide) (by decide)
  exact absurd hready (by decide)

end WaitRoom
end LandingBench
