import OnlineAuction.Market.SettlesOnce

/-! Settlement and the committed deadline. `complete_auction` compares the
clock with the deadline of the copy its session loaded before the lock, so a
deadline extended in between goes unnoticed. -/

namespace OnlineAuction

open RowLocks

/-- Every settlement's clock reading had reached the deadline that the row held
when its lock was granted. -/
def DeadlinesKept (d : Db) : Prop := ∀ s ∈ d.settlements, s.storedEnd ≤ s.reading

/-- A settlement that reads its deadline as past may be recorded. -/
theorem DeadlinesKept.record {d : Db} (h : DeadlinesKept d) {s : Settlement}
    (hDeadline : s.storedEnd ≤ s.reading) : DeadlinesKept (d.recordSettlement s) := by
  intro other hOther
  rcases List.mem_append.mp hOther with hOld | hNew
  · exact h other hOld
  · rw [List.mem_singleton.mp hNew]
    exact hDeadline

/-- Every commit keeps the deadlines of the settlements made so far. -/
theorem DeadlinesKept.commit {percent : CommissionPercent} {A : Assumptions} {request : Request}
    {held : Held market} {d d' : Db} (hKept : A.deadlineKept) (h : DeadlinesKept d)
    (hCommit : Commit percent A request held d d') : DeadlinesKept d' := by
  have hPosts (e : Db) (hSame : e.settlements = d.settlements) (postings : List Posting) :
      DeadlinesKept (e.postAll postings) := by
    unfold DeadlinesKept
    rw [Db.postAll_settlements, hSame]
    exact h
  cases hCommit with
  | deposit _ _ _ _ => exact hPosts d rfl [_]
  | withdraw _ _ _ _ => exact hPosts d rfl [_]
  | purchase auctionId old buyer user price now =>
      exact hPosts (d.setAuction auctionId (soldTo old price buyer now)) rfl _
  | close auctionId old new settlement _ _ _ _ hDeadline =>
      exact DeadlinesKept.record (d := d.setAuction auctionId new) h (hDeadline hKept)
  | settle auctionId old new lastBid seller bought sold settlement _ _ _ _ _ _ _ _ _ _ hDeadline =>
      exact (hPosts (d.setAuction auctionId new) rfl _).record (hDeadline hKept)
  | _ => exact h

/-- As long as every tick is granted the lock while the stored deadline is not
later than the one it loaded, no lot is settled before its stored deadline. -/
theorem settles_after_deadline {percent : CommissionPercent} {categories : List Nat}
    {c : Config market} (run : Reaches (handle percent) DeadlineKept (Db.initial categories) c) :
    DeadlinesKept c.db := by
  have run' : Reaches (handle percent) (Assumptions.ok ⟨False, False, True⟩)
      (Db.initial categories) c := run.weaken fun _ _ _ h => ⟨nofun, nofun, fun _ => h⟩
  exact invariant_of_commits (by simp [DeadlinesKept, Db.initial])
    (fun _ hKept hCommit => hKept.commit trivial hCommit) run'

/-- The first sale settles exactly at the deadline of its lot. -/
theorem settles_after_deadline_firstSale : ∃ c : Config market,
    c.db.settlements = [⟨0, minutes 10, minutes 10⟩] ∧ DeadlinesKept c.db := by
  obtain ⟨c, run, hSettled⟩ := exists_reaches (handle defaultCommission) DeadlineKept (Db.initial [])
    firstSale (fun c => c.db.settlements = [⟨0, minutes 10, minutes 10⟩]) (by decide +kernel)
  exact ⟨c, hSettled, settles_after_deadline run⟩

/-- User 2 bids a second before the deadline and extends it, while a tick that
fires at the old deadline has loaded the lot but not locked it. -/
def lateBid : List (Action market Request) :=
  firstBid ++ [.start 4 .register, .step 4] ++
    [.start 5 (.placeBid 2 ⟨0, ⟨30000, by decide⟩⟩)] ++ steps 5 2 ++ [.clock 5 (seconds 599)] ++
    steps 5 4 ++ [.clock 5 (seconds 599), .clock 5 (seconds 599)] ++
    [.start 6 (.tick 0), .step 6, .clock 6 (seconds 600)] ++ [.step 5] ++
    [.step 6, .clock 6 (seconds 600)] ++ steps 6 4

/-- The extension to 719 s is committed before the tick has the lock; the tick
settles at 600 s. -/
theorem settles_before_deadline : ¬∀ c : Config market,
    Reaches (handle defaultCommission) (fun _ _ _ => True) (Db.initial []) c →
      DeadlinesKept c.db := by
  intro hKept
  obtain ⟨c, run, hEarly⟩ := exists_reaches (handle defaultCommission) (fun _ _ _ => True)
    (Db.initial []) lateBid (fun c => c.db.settlements = [⟨0, seconds 719, seconds 600⟩])
    (by decide +kernel)
  have hLe := hKept c run ⟨0, seconds 719, seconds 600⟩ (by simp [hEarly])
  simp [seconds] at hLe

end OnlineAuction
