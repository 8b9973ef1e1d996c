import SctpStack.EventLoop
import SctpStack.Lib.Polled

/-!
# Idle decay

`decay_idle_cwnd` halves a path's cwnd once for every RTO without DATA, and carries what
is left of the last RTO in `data_sent_at`. The send loop calls it before every packet,
however many those are, and a timer may call it at any time: it makes no difference.

* `decayIdleCwnd_absorbs`: a call does all that an earlier one did.
* `decay_unpolled`: so any number of calls leave what the last one alone would, none of
  them raises cwnd, and none takes it below four PMDCS.
-/

namespace SctpStack

/-! ## Halving -/

section Halving

variable {floor : Nat}

theorem halveTo_of_le (periods : Nat) {cwnd : Nat} (low : cwnd ≤ floor) :
    halveTo floor periods cwnd = cwnd := by
  cases periods with
  | zero => rfl
  | succ periods => rw [halveTo, if_neg (Nat.not_lt.mpr low)]

theorem halveTo_add (m n cwnd : Nat) :
    halveTo floor (m + n) cwnd = halveTo floor n (halveTo floor m cwnd) := by
  induction m generalizing cwnd with
  | zero => rw [Nat.zero_add, halveTo]
  | succ m ih =>
    rw [Nat.succ_add, halveTo, halveTo]
    by_cases above : cwnd > floor
    · rw [if_pos above, if_pos above]
      exact ih _
    · rw [if_neg above, if_neg above, halveTo_of_le n (Nat.not_lt.mp above)]

theorem le_halveTo (periods : Nat) {cwnd : Nat} (above : floor ≤ cwnd) :
    floor ≤ halveTo floor periods cwnd := by
  induction periods generalizing cwnd with
  | zero => exact above
  | succ periods ih =>
    unfold halveTo
    split
    · exact ih (Nat.le_max_right _ _)
    · exact above

theorem halveTo_le (periods cwnd : Nat) : halveTo floor periods cwnd ≤ cwnd := by
  induction periods generalizing cwnd with
  | zero => exact Nat.le_refl cwnd
  | succ periods ih =>
    unfold halveTo
    split
    · next above =>
      -- the floor is below cwnd here, so taking the larger of it and the half raises nothing
      exact Nat.le_trans (ih _) (Nat.max_le.mpr ⟨Nat.div_le_self cwnd 2, Nat.le_of_lt above⟩)
    · exact Nat.le_refl cwnd

end Halving

/-! ## Whole periods -/

/-- The path after a number of whole RTOs without DATA. -/
def decayBy (pmdcs periods : Nat) (path : PeerPath) : PeerPath :=
  { path with
    dataSentAt := path.dataSentAt + periods * usec path.rto
    ssthresh := if 4 * pmdcs < path.cwnd ∧ path.idleDecaying = false then path.cwnd
      else path.ssthresh
    idleDecaying := path.idleDecaying || decide (4 * pmdcs < path.cwnd)
    cwnd := halveTo (4 * pmdcs) periods path.cwnd }

/-- The RTOs that have passed since DATA went out, when at least one has. -/
def idlePeriods (now : Time) (path : PeerPath) : Nat :=
  ((now - path.dataSentAt) / usec path.rto).toNat

variable {pmdcs : Nat} {path : PeerPath}

theorem decayIdleCwnd_early {now : Time}
    (early : path.rto ≤ 0 ∨ now - path.dataSentAt < usec path.rto) :
    decayIdleCwnd pmdcs now path = path := by
  rw [decayIdleCwnd, if_pos early]

theorem decayIdleCwnd_due {now : Time} (positive : 0 < path.rto)
    (due : usec path.rto ≤ now - path.dataSentAt) :
    decayIdleCwnd pmdcs now path = decayBy pmdcs (idlePeriods now path) path := by
  have notEarly : ¬(path.rto ≤ 0 ∨ now - path.dataSentAt < usec path.rto) :=
    not_or.mpr ⟨Int.not_le.mpr positive, Int.not_lt.mpr due⟩
  rw [decayIdleCwnd, if_neg notEarly, idlePeriods]
  generalize ((now - path.dataSentAt) / usec path.rto).toNat = periods
  by_cases low : path.cwnd ≤ 4 * pmdcs
  · -- `data_sent_at` moves on, but a small cwnd is not decayed
    simp [decayBy, low, halveTo_of_le periods low]
  · cases decaying : path.idleDecaying <;> simp [decayBy, low, decaying, Nat.lt_of_not_le low]

/-- Decaying by some periods and then by some more is decaying by all of them: ssthresh is
set by the first call only. -/
theorem decayBy_decayBy (m n : Nat) :
    decayBy pmdcs n (decayBy pmdcs m path) = decayBy pmdcs (m + n) path := by
  have time : path.dataSentAt + (m : Int) * usec path.rto + (n : Int) * usec path.rto
      = path.dataSentAt + ((m + n : Nat) : Int) * usec path.rto := by
    rw [Int.natCast_add, Int.add_mul, Int.add_assoc]
  simp only [decayBy, time, ← halveTo_add]
  by_cases low : path.cwnd ≤ 4 * pmdcs
  · simp [halveTo_of_le _ low, Nat.not_lt.mpr low]
  · simp [Nat.lt_of_not_le low]

theorem usec_pos {d : Micros} (positive : 0 < d) : 0 < usec d := Int.mul_pos positive (by decide)

/-- Periods counted from a whole number of periods later are fewer by that number. -/
theorem idlePeriods_decayBy (pmdcs : Nat) {early late : Time} (positive : 0 < path.rto)
    (due : 0 ≤ early - path.dataSentAt) (ordered : early ≤ late) :
    idlePeriods early path + idlePeriods late (decayBy pmdcs (idlePeriods early path) path)
      = idlePeriods late path := by
  have unit := usec_pos positive
  have first : 0 ≤ (early - path.dataSentAt) / usec path.rto :=
    Int.ediv_nonneg due (Int.le_of_lt unit)
  have more : (early - path.dataSentAt) / usec path.rto
      ≤ (late - path.dataSentAt) / usec path.rto :=
    Int.ediv_le_ediv unit (Int.sub_le_sub_right ordered _)
  have rest : (late - (path.dataSentAt + (early - path.dataSentAt) / usec path.rto * usec path.rto))
      / usec path.rto
      = (late - path.dataSentAt) / usec path.rto - (early - path.dataSentAt) / usec path.rto := by
    rw [← Int.sub_sub, Int.sub_eq_add_neg, ← Int.neg_mul,
      Int.add_mul_ediv_right _ _ (Int.ne_of_gt unit)]
    rfl
  have split : ∀ m n : Int, 0 ≤ m → m ≤ n → m.toNat + (n - m).toNat = n.toNat := by omega
  simp only [idlePeriods, decayBy, Int.toNat_of_nonneg first, rest]
  exact split _ _ first more

/-- No period counted reaches past the time of the call. -/
theorem dataSentAt_decayBy_le (pmdcs : Nat) {now : Time} (positive : 0 < path.rto)
    (due : 0 ≤ now - path.dataSentAt) :
    (decayBy pmdcs (idlePeriods now path) path).dataSentAt ≤ now := by
  have unit := usec_pos positive
  have whole : ((idlePeriods now path : Nat) : Int) * usec path.rto ≤ now - path.dataSentAt := by
    rw [idlePeriods, Int.toNat_of_nonneg (Int.ediv_nonneg due (Int.le_of_lt unit))]
    exact Int.ediv_mul_le _ (Int.ne_of_gt unit)
  exact Int.add_le_of_le_sub_left whole

/-! ## Calls -/

theorem decayIdleCwnd_absorbs (pmdcs : Nat) : Polled.Absorbs (decayIdleCwnd pmdcs) := by
  intro early late path ordered
  by_cases idle : path.rto ≤ 0 ∨ early - path.dataSentAt < usec path.rto
  · rw [decayIdleCwnd_early idle]
  · obtain ⟨positive, due⟩ := not_or.mp idle
    have positive : 0 < path.rto := Int.not_le.mp positive
    have due : usec path.rto ≤ early - path.dataSentAt := Int.not_lt.mp due
    have dueLate : usec path.rto ≤ late - path.dataSentAt :=
      Int.le_trans due (Int.sub_le_sub_right ordered _)
    have started : 0 ≤ early - path.dataSentAt :=
      Int.le_trans (Int.le_of_lt (usec_pos positive)) due
    have reached := Int.le_trans (dataSentAt_decayBy_le pmdcs positive started) ordered
    rw [decayIdleCwnd_due positive due, decayIdleCwnd_due positive dueLate,
      ← idlePeriods_decayBy pmdcs positive started ordered, ← decayBy_decayBy]
    have positive' : 0 < (decayBy pmdcs (idlePeriods early path) path).rto := positive
    generalize decayed : decayBy pmdcs (idlePeriods early path) path = path' at positive' reached ⊢
    by_cases left : late - path'.dataSentAt < usec path'.rto
    · -- less than a period is left: the second call does nothing, and no period is left to decay by
      have none : idlePeriods late path' = 0 := by
        rw [idlePeriods, Int.ediv_eq_zero_of_lt (Int.sub_nonneg_of_le reached) left, Int.toNat_zero]
      rw [decayIdleCwnd_early (Or.inr left), none, ← decayed, decayBy_decayBy, Nat.add_zero]
    · exact decayIdleCwnd_due positive' (Int.not_lt.mp left)

/-- A call does nothing, or decays the path by some periods. -/
theorem decayIdleCwnd_cases (pmdcs : Nat) (now : Time) (path : PeerPath) :
    decayIdleCwnd pmdcs now path = path ∨ ∃ periods, decayIdleCwnd pmdcs now path
      = decayBy pmdcs periods path := by
  by_cases idle : path.rto ≤ 0 ∨ now - path.dataSentAt < usec path.rto
  · exact Or.inl (decayIdleCwnd_early idle)
  · obtain ⟨positive, due⟩ := not_or.mp idle
    exact Or.inr ⟨_, decayIdleCwnd_due (Int.not_le.mp positive) (Int.not_lt.mp due)⟩

theorem cwnd_decayIdleCwnd_le (pmdcs : Nat) (now : Time) (path : PeerPath) :
    (decayIdleCwnd pmdcs now path).cwnd ≤ path.cwnd := by
  rcases decayIdleCwnd_cases pmdcs now path with same | ⟨periods, decayed⟩
  · rw [same]
  · rw [decayed]
    exact halveTo_le periods path.cwnd

theorem le_cwnd_decayIdleCwnd (now : Time) (above : 4 * pmdcs ≤ path.cwnd) :
    4 * pmdcs ≤ (decayIdleCwnd pmdcs now path).cwnd := by
  rcases decayIdleCwnd_cases pmdcs now path with same | ⟨periods, decayed⟩
  · rw [same]
    exact above
  · rw [decayed]
    exact le_halveTo periods above

/-- However often `decay_idle_cwnd` was called before, a call leaves the path as the only
call would; no call raises cwnd, and calls never take a cwnd above four PMDCS below that. -/
theorem decay_unpolled (pmdcs : Nat) (path : PeerPath) (times : List Time) (last : Time)
    (ordered : (times ++ [last]).Pairwise (· ≤ ·)) :
    decayIdleCwnd pmdcs last (Polled.polled (decayIdleCwnd pmdcs) times path)
      = decayIdleCwnd pmdcs last path
      ∧ (∀ (earlier : List Time) (now : Time),
        (decayIdleCwnd pmdcs now (Polled.polled (decayIdleCwnd pmdcs) earlier path)).cwnd
          ≤ (Polled.polled (decayIdleCwnd pmdcs) earlier path).cwnd)
      ∧ (4 * pmdcs < path.cwnd →
        ∀ earlier : List Time, 4 * pmdcs
          ≤ (Polled.polled (decayIdleCwnd pmdcs) earlier path).cwnd) := by
  have before : ∀ now ∈ times, now ≤ last := by
    intro now member
    exact (List.pairwise_append.mp ordered).2.2 now member last (List.mem_singleton.mpr rfl)
  refine ⟨(decayIdleCwnd_absorbs pmdcs).polled before path, fun earlier now => ?_,
    fun above earlier => ?_⟩
  · exact cwnd_decayIdleCwnd_le pmdcs now _
  · have keeps : ∀ (now : Time) (p : PeerPath), 4 * pmdcs ≤ p.cwnd →
      4 * pmdcs ≤ (decayIdleCwnd pmdcs now p).cwnd :=
      fun now _ low => le_cwnd_decayIdleCwnd now low
    exact Polled.polled_keeps keeps earlier (Nat.le_of_lt above)

/-- A path idle since time 0, its RTO a second and its cwnd 20000. -/
def idlePath : PeerPath := { makePath ⟨0x7F000001#32, 9899#16⟩ true defaultPmdcs
    with cwnd := 20000, dataSentAt := 0 }

/-- Polled after 1.5, 2.5 and 2.6 seconds, it has been halved twice. -/
theorem idlePath_polled :
    (decayIdleCwnd defaultPmdcs (msec 2600)
        (Polled.polled (decayIdleCwnd defaultPmdcs) [msec 1500, msec 2500] idlePath)).cwnd = 5000
      ∧ 4 * defaultPmdcs ≤ (Polled.polled (decayIdleCwnd defaultPmdcs) [msec 9000]
        idlePath).cwnd := by
  obtain ⟨same, _, low⟩ := decay_unpolled defaultPmdcs idlePath [msec 1500, msec 2500] (msec 2600)
    (by decide)
  refine ⟨?_, low (by decide) [msec 9000]⟩
  rw [same]
  decide

/-! ## The send loop -/

theorem decayPaths_absorbs : Polled.Absorbs decayPaths := by
  intro early late assoc ordered
  have each := decayIdleCwnd_absorbs assoc.pmdcs early late
  simp only [decayPaths, List.map_map]
  congr 1
  exact List.map_congr_left fun path _ => each path ordered

/-- Taking the allowances again, later, finds the socket and its windows as if they had
not been taken before. -/
theorem Socket.sendAllowances_absorbs (s : Socket) {early late : Time} (ordered : early ≤ late) :
    (s.sendAllowances early).1.sendAllowances late = s.sendAllowances late := by
  have paths : (s.sendAllowances early).1.associations.mapVals (fun _ assoc =>
      if transmitsData assoc.state then decayPaths late assoc else assoc)
        = s.associations.mapVals fun _ assoc => if transmitsData assoc.state
          then decayPaths late assoc else assoc := by
    simp only [Socket.sendAllowances, KeyMap.mapVals_mapVals]
    congr
    funext key assoc
    by_cases sends : transmitsData assoc.state = true
    · have still : transmitsData (decayPaths early assoc).state = true := sends
      rw [if_pos sends, if_pos still, if_pos sends, decayPaths_absorbs early late assoc ordered]
    · rw [if_neg sends, if_neg sends]
  rw [Socket.sendAllowances, paths]
  rfl

end SctpStack
