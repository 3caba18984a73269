import LandingBench.Ledger

/-!
# Rejected observations

`record_landing` takes the send record out before it compares the tags, so an
observation with a foreign tag is rejected with half of the work done.
-/

namespace LandingBench

open Data Ledger

namespace LandingBook

/-- The same signatures are open as are waited for. -/
def KeysAgree (book : LandingBook) : Prop :=
  ∀ signature, (book.records.sent.lookup signature).isSome =
    (book.records.waiters.lookup signature).isSome

theorem keysAgree_empty : KeysAgree empty := fun _ ↦ rfl

theorem sent_startRound (book : LandingBook) (roundId : String) :
    (book.startRound roundId).records.sent = book.records.sent :=
  congrArg Accounts.sent (accounts_startRound book roundId)

theorem sent_recordSend (book : LandingBook) (signature provider : String)
    (sentElapsed : Duration) (roundId : String) :
    (book.recordSend signature provider sentElapsed roundId).1.records.sent =
      book.records.sent.insert signature ⟨provider, sentElapsed, roundId⟩ :=
  congrArg Accounts.sent (accounts_recordSend book signature provider sentElapsed roundId)

theorem sent_recordLanding {book : LandingBook} {obs : MemoObservation} {send : SendRecord}
    (h : book.records.sent.lookup obs.signature = some send)
    (htag : observedProvider obs.memo = send.provider) :
    (book.recordLanding obs).1.records.sent = book.records.sent.erase obs.signature :=
  congrArg Accounts.sent (recordLanding_of_eq h htag).2

theorem KeysAgree.startRound {book : LandingBook} (h : book.KeysAgree) (roundId : String) :
    (book.startRound roundId).KeysAgree := by
  intro signature
  rw [sent_startRound, waiters_startRound]
  exact h signature

theorem KeysAgree.recordSend {book : LandingBook} (h : book.KeysAgree)
    (signature provider : String) (sentElapsed : Duration) (roundId : String) :
    (book.recordSend signature provider sentElapsed roundId).1.KeysAgree := by
  intro other
  rw [sent_recordSend, waiters_recordSend]
  rcases eq_or_ne other signature with rfl | hne
  · rw [AList.lookup_insert, AList.lookup_insert]
    rfl
  · rw [AList.lookup_insert_ne hne, AList.lookup_insert_ne hne]
    exact h other

/-- A rejection for an unknown signature does nothing. -/
theorem recordLanding_eq_self {book : LandingBook} {obs : MemoObservation}
    (hreject : (book.recordLanding obs).2 = false)
    (htag : ∀ send, book.records.sent.lookup obs.signature = some send →
      observedProvider obs.memo = send.provider) : (book.recordLanding obs).1 = book := by
  cases hsent : book.records.sent.lookup obs.signature with
  | none => rw [recordLanding_of_none hsent]
  | some send =>
      rw [(recordLanding_of_eq hsent (htag send hsent)).1] at hreject
      cases hreject

/-- A rejection for a foreign tag loses the send record. -/
theorem recordLanding_ne_self {book : LandingBook} {obs : MemoObservation} {send : SendRecord}
    (hsent : book.records.sent.lookup obs.signature = some send)
    (hne : observedProvider obs.memo ≠ send.provider) :
    (book.recordLanding obs).2 = false ∧ (book.recordLanding obs).1 ≠ book := by
  rw [recordLanding_of_ne hsent hne]
  refine ⟨rfl, fun heq ↦ ?_⟩
  have hsame : book.records.sent.erase obs.signature = book.records.sent :=
    congrArg (fun b : LandingBook ↦ b.records.sent) heq
  have hlost : (book.records.sent.erase obs.signature).lookup obs.signature = some send := by
    rw [hsame, hsent]
  rw [AList.lookup_erase] at hlost
  cases hlost

theorem KeysAgree.recordLanding {book : LandingBook} (h : book.KeysAgree) {obs : MemoObservation}
    (htag : ∀ send, book.records.sent.lookup obs.signature = some send →
      observedProvider obs.memo = send.provider) : (book.recordLanding obs).1.KeysAgree := by
  cases hsent : book.records.sent.lookup obs.signature with
  | none =>
      rw [recordLanding_of_none hsent]
      exact h
  | some send =>
      intro signature
      rw [sent_recordLanding hsent (htag send hsent),
        lookup_waiters_recordLanding hsent (htag send hsent)]
      split_ifs with heq
      · rw [heq, AList.lookup_erase]
        rfl
      · rw [AList.lookup_erase_ne heq]
        exact h signature

end LandingBook

namespace Ledger

/-- Every observation of a signature that is open has the tag that it was sent with. -/
def SeenWithOwnTag (history : List BookOp) : Prop :=
  ∀ pre obs post, history = pre ++ .recordLanding obs :: post →
    ∀ send, openSend pre obs.signature = some send → observedProvider obs.memo = send.provider

/-- Whatever is rejected leaves the book as it was, so that the maps keep the
same keys and the right observation may still come. -/
structure RejectionsHarmless (history : List BookOp) : Prop where
  untouched : ∀ pre obs post, history = pre ++ .recordLanding obs :: post →
    ((LandingBook.replay pre).recordLanding obs).2 = false →
      ((LandingBook.replay pre).recordLanding obs).1 = LandingBook.replay pre
  keys : ∀ pre, pre <+: history → (LandingBook.replay pre).KeysAgree
  accepted : ∀ pre signature provider sentElapsed roundId since obs post,
    history = pre ++ .recordSend signature provider sentElapsed roundId :: since ++
      .recordLanding obs :: post →
    signature ∉ recordedSignatures since →
    obs.signature = signature → observedProvider obs.memo = provider →
    (∀ earlier other later, since = earlier ++ .recordLanding other :: later →
      other.signature = signature →
        ((LandingBook.replay (pre ++ .recordSend signature provider sentElapsed roundId ::
          earlier)).recordLanding other).2 = false) →
    ((LandingBook.replay (pre ++ .recordSend signature provider sentElapsed roundId ::
      since)).recordLanding obs).2 = true

theorem seenWithOwnTag_snoc {history : List BookOp} {op : BookOp} :
    SeenWithOwnTag (history ++ [op]) ↔ SeenWithOwnTag history ∧
      ∀ obs, op = .recordLanding obs → ∀ send, openSend history obs.signature = some send →
        observedProvider obs.memo = send.provider := by
  constructor
  · intro h
    refine ⟨?_, fun obs hop send hopen ↦ h history obs [] (by rw [hop]) send hopen⟩
    rintro pre obs post rfl send hopen
    exact h pre obs (post ++ [op]) (by simp) send hopen
  · rintro ⟨hhistory, hop⟩ pre obs post heq send hopen
    rcases Data.Lists.snoc_eq_append_cons_iff.mp heq with ⟨-, rfl, hlast⟩ | ⟨post, -, rfl⟩
    · exact hop obs hlast send hopen
    · exact hhistory pre obs post rfl send hopen

theorem SeenWithOwnTag.left {history later : List BookOp} (h : SeenWithOwnTag (history ++ later)) :
    SeenWithOwnTag history := by
  rintro pre obs post rfl
  exact h pre obs (post ++ later) (by simp)

theorem lookup_sent_replay (history : List BookOp) (signature : String) :
    (LandingBook.replay history).records.sent.lookup signature = openSend history signature :=
  (exact_replay history).sent signature

theorem SeenWithOwnTag.keysAgree {history : List BookOp} (h : SeenWithOwnTag history) :
    (LandingBook.replay history).KeysAgree := by
  induction history using List.reverseRecOn with
  | nil => exact LandingBook.keysAgree_empty
  | append_singleton history op ih =>
      obtain ⟨hhistory, hlast⟩ := seenWithOwnTag_snoc.mp h
      have hold := ih hhistory
      rw [LandingBook.replay_snoc]
      cases op with
      | startRound roundId => exact hold.startRound roundId
      | recordSend signature provider sentElapsed roundId =>
          exact hold.recordSend signature provider sentElapsed roundId
      | recordLanding obs =>
          apply hold.recordLanding
          intro send hsend
          rw [lookup_sent_replay] at hsend
          exact hlast obs rfl send hsend

/-- A send stays open as long as all observations of it are rejected. -/
theorem SeenWithOwnTag.openSend_eq {pre since : List BookOp} {signature : String}
    {send : SendRecord}
    (h : SeenWithOwnTag (pre ++ .recordSend signature send.provider send.sentElapsed
      send.roundId :: since))
    (hsince : signature ∉ recordedSignatures since)
    (hrejected : ∀ earlier other later, since = earlier ++ .recordLanding other :: later →
      other.signature = signature →
        ((LandingBook.replay (pre ++ .recordSend signature send.provider send.sentElapsed
          send.roundId :: earlier)).recordLanding other).2 = false) :
    openSend (pre ++ .recordSend signature send.provider send.sentElapsed send.roundId :: since)
      signature = some send := by
  induction since using List.reverseRecOn with
  | nil => simp [openStep]
  | append_singleton since op ih =>
      have hsplit : pre ++ .recordSend signature send.provider send.sentElapsed send.roundId ::
          (since ++ [op]) =
        (pre ++ .recordSend signature send.provider send.sentElapsed send.roundId :: since) ++
          [op] := by simp
      rw [hsplit] at h ⊢
      obtain ⟨hhistory, hlast⟩ := seenWithOwnTag_snoc.mp h
      rw [recordedSignatures_snoc, List.mem_append, not_or] at hsince
      have hopen := ih hhistory hsince.1 fun earlier other later heq ↦
        hrejected earlier other (later ++ [op]) (by simp [heq])
      rw [openSend_snoc, hopen]
      cases op with
      | startRound roundId => rfl
      | recordSend other provider sentElapsed roundId =>
          have hne : other ≠ signature := fun heq ↦ hsince.2 (by simp [heq])
          simp [openStep, hne]
      | recordLanding other =>
          have hne : other.signature ≠ signature := by
            rintro rfl
            have htag := hlast other rfl send hopen
            have hreject := hrejected since other [] rfl rfl
            rw [(recordLanding_replay_iff _ other).mpr
              ⟨send, hopen, (observedProvider_eq other.memo) ▸ htag⟩] at hreject
            cases hreject
          simp [openStep, hne]

/-- Rejections are harmless exactly in those histories in which nothing that is
open is seen with a foreign tag. -/
theorem rejectionsHarmless_iff (history : List BookOp) :
    RejectionsHarmless history ↔ SeenWithOwnTag history := by
  constructor
  · rintro h pre obs post rfl send hopen
    by_contra hne
    rw [← lookup_sent_replay] at hopen
    obtain ⟨hreject, hchanged⟩ := LandingBook.recordLanding_ne_self hopen hne
    exact hchanged (h.untouched pre obs post rfl hreject)
  · intro h
    refine ⟨?_, ?_, ?_⟩
    · rintro pre obs post rfl hreject
      apply LandingBook.recordLanding_eq_self hreject
      intro send hsend
      rw [lookup_sent_replay] at hsend
      exact h pre obs post rfl send hsend
    · rintro pre ⟨later, rfl⟩
      exact h.left.keysAgree
    · rintro pre signature provider sentElapsed roundId since obs post rfl hfresh hsame htag
        hrejected
      let send : SendRecord := ⟨provider, sentElapsed, roundId⟩
      have hopen : openSend (pre ++ .recordSend signature send.provider send.sentElapsed
          send.roundId :: since) signature = some send :=
        h.left.openSend_eq hfresh hrejected
      refine (recordLanding_replay_iff _ obs).mpr
        ⟨send, ?_, (observedProvider_eq obs.memo) ▸ htag⟩
      rw [hsame]
      exact hopen

/-- An endpoint whose name has the separator in it is seen by its own transaction. -/
def barredSighting : List BookOp :=
  [.startRound "r", .recordSend "s" "fra|rpc" 2000000 "r",
    .recordLanding ⟨"s", "fra|rpc|7", 5000000⟩]

/-- The right observation of it is rejected, and takes the send record away. -/
theorem barredSighting_touches_book :
    ¬ ∀ history, (recordedSignatures history).Nodup → RejectionsHarmless history := by
  intro h
  have hkeys := (h barredSighting (by decide)).keys barredSighting (List.prefix_refl _) "s"
  exact absurd hkeys (by decide)

end Ledger
end LandingBench
