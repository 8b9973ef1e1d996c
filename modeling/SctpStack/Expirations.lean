import Mathlib.Data.Int.Order.Basic
import Mathlib.Data.List.Induction
import SctpStack.ExpirationQueue
import SctpStack.Lib.Alarm

/-!
# What the timer heap stands for

Under any interleaving of its operations the heap with its dead entries is a map from
keys to their latest deadlines (`alarms`): every operation does to the heap what the
operation of the same name does to the map.
-/

namespace SctpStack

/-- What an entry is to the map: its deadline, its stamp and what to retry. -/
def ExpirationFallback.alarm (entry : ExpirationFallback) : Time × Nat × Deliverable :=
  (entry.expiration, entry.generation, entry.retry)

namespace ExpirationQueue

/-! ## The heap -/

theorem popTop_eq_none {queue : List ExpirationFallback} : popTop queue = none ↔ queue = [] := by
  cases queue with
  | nil => exact ⟨fun _ => rfl, fun _ => rfl⟩
  | cons entry rest =>
    refine ⟨fun popped => ?_, fun empty => absurd empty (List.cons_ne_nil _ _)⟩
    unfold popTop at popped
    cases later : popTop rest with
    | none => simp [later] at popped
    | some pair => simp only [later] at popped; split at popped <;> cases popped

/-- What is popped is the rest of the heap's earliest. -/
theorem popTop_perm {queue rest : List ExpirationFallback} {top : ExpirationFallback}
    (popped : popTop queue = some (top, rest)) :
    queue.Perm (top :: rest) ∧ ∀ entry ∈ queue, top.expiration ≤ entry.expiration := by
  induction queue generalizing top rest with
  | nil => cases popped
  | cons entry later ih =>
    unfold popTop at popped
    cases beyond : popTop later with
    | none =>
      rw [beyond] at popped
      cases popped
      cases popTop_eq_none.mp beyond
      exact ⟨List.Perm.refl _, by simp⟩
    | some pair =>
      obtain ⟨perm, first⟩ : later.Perm (pair.1 :: pair.2) ∧ _ := ih beyond
      simp only [beyond] at popped
      split at popped
      · next earlier =>
        cases popped
        exact ⟨List.Perm.refl _, List.forall_mem_cons.mpr ⟨le_refl _, fun x inside =>
          earlier.trans (first x inside)⟩⟩
      · next notEarlier =>
        cases popped
        exact ⟨(perm.cons entry).trans (List.Perm.swap _ _ _),
          List.forall_mem_cons.mpr ⟨(not_le.mp notEarlier).le, first⟩⟩

/-! ## The map -/

/-- An entry of the heap that has been neither cancelled nor replaced. -/
def Live (q : ExpirationQueue) (entry : ExpirationFallback) : Prop :=
  entry ∈ q.queue ∧ q.active.get? entry.key = some entry.generation

/-- The latest deadline of every key. -/
def alarms (q : ExpirationQueue) : Alarms ExpirationKey Time (Nat × Deliverable) := fun key =>
  (q.queue.find? fun entry => decide (entry.key = key ∧ q.active.get? key
    = some entry.generation)).map ExpirationFallback.alarm

/-- Every entry is stamped, none like another, and whatever is active has its entry. -/
structure Sound (q : ExpirationQueue) : Prop where
  stamped : ∀ entry ∈ q.queue, entry.generation < q.nextGeneration
  distinct : (q.queue.map ExpirationFallback.generation).Nodup
  backed : ∀ key generation, q.active.get? key = some generation →
    ∃ entry ∈ q.queue, entry.key = key ∧ entry.generation = generation

namespace Sound

variable {q : ExpirationQueue}

theorem alarms_eq_some (sound : Sound q) {key : ExpirationKey} {x : Time × Nat × Deliverable} :
    q.alarms key = some x ↔ Live q ⟨key, x.1, x.2.1, x.2.2⟩ := by
  unfold alarms
  rw [Option.map_eq_some_iff]
  constructor
  · rintro ⟨entry, found, rfl⟩
    have here := List.find?_some found
    rw [decide_eq_true_eq] at here
    obtain ⟨rfl, live⟩ := here
    exact ⟨List.mem_of_find?_eq_some found, live⟩
  · rintro ⟨inside, live⟩
    cases found : q.queue.find? fun entry =>
      decide (entry.key = key ∧ q.active.get? key = some entry.generation) with
    | none =>
      have missing := List.find?_eq_none.mp found _ inside
      exact absurd (decide_eq_true ⟨rfl, live⟩) missing
    | some entry =>
      -- two entries with the stamp that is live are one
      have here := List.find?_some found
      rw [decide_eq_true_eq, live] at here
      have same := List.inj_on_of_nodup_map sound.distinct (List.mem_of_find?_eq_some found) inside
        (Option.some.inj here.2).symm
      exact ⟨entry, rfl, by rw [same]; rfl⟩

theorem alarms_eq_none (sound : Sound q) {key : ExpirationKey} :
    q.alarms key = none ↔ q.active.get? key = none := by
  cases live : q.active.get? key with
  | none => simp [alarms, live]
  | some generation =>
    obtain ⟨entry, inside, rfl, rfl⟩ := sound.backed key generation live
    have set : q.alarms entry.key = some entry.alarm := sound.alarms_eq_some.mpr ⟨inside, live⟩
    simp [set]

theorem isActive_iff (sound : Sound q) {key : ExpirationKey} :
    q.isActive key = true ↔ ∃ x, q.alarms key = some x := by
  rw [isActive, KeyMap.contains_eq_true, ← Option.isSome_iff_exists, ← Option.isSome_iff_exists,
    ← not_iff_not, Option.not_isSome_iff_eq_none, Option.not_isSome_iff_eq_none,
    sound.alarms_eq_none]

/-- Fewer live entries, told apart by their keys, are the map with those keys unset. -/
theorem alarms_without {q' : ExpirationQueue} (sound : Sound q) (sound' : Sound q')
    (p : ExpirationKey → Prop) [DecidablePred p] (live : ∀ entry, Live q' entry ↔ Live q entry
      ∧ ¬p entry.key) :
    q'.alarms = q.alarms.without p := by
  funext key
  apply Option.ext
  intro x
  rw [sound'.alarms_eq_some, live, Alarms.without_eq_some, ← sound.alarms_eq_some]
  exact And.comm

theorem alarms_congr {q' : ExpirationQueue} (sound : Sound q) (sound' : Sound q')
    (live : ∀ entry, Live q' entry ↔ Live q entry) : q'.alarms = q.alarms := by
  rw [sound.alarms_without sound' (fun _ => False) fun entry => by
    rw [live, and_iff_left not_false]]
  funext key
  simp

/-! ## One operation -/

theorem fresh : Sound ExpirationQueue.fresh where
  stamped _ inside := absurd inside List.not_mem_nil
  distinct := List.nodup_nil
  backed _ _ live := by cases live

theorem schedule (sound : Sound q) (key : ExpirationKey) (expiration : Time) (retry : Deliverable) :
    Sound (q.schedule key expiration retry) where
  stamped entry inside := by
    rcases List.mem_append.mp inside with before | new
    · exact Nat.lt_succ_of_lt (sound.stamped entry before)
    · cases List.mem_singleton.mp new
      exact Nat.lt_succ_self _
  distinct := by
    simp only [ExpirationQueue.schedule, List.map_append, List.map_cons, List.map_nil]
    refine List.Nodup.append sound.distinct (List.nodup_singleton _) fun generation before new => ?_
    obtain ⟨entry, inside, rfl⟩ := List.mem_map.mp before
    exact absurd (List.mem_singleton.mp new) (Nat.ne_of_lt (sound.stamped entry inside))
  backed key' generation live := by
    simp only [ExpirationQueue.schedule, KeyMap.get?_put] at live ⊢
    split at live
    · next same =>
      cases live
      exact ⟨_, List.mem_append_right _ (List.mem_singleton_self _), same.symm, rfl⟩
    · obtain ⟨entry, inside, owned⟩ := sound.backed key' generation live
      exact ⟨entry, List.mem_append_left _ inside, owned⟩

/-- Unsetting keys leaves the heap sound. -/
theorem unset {q' : ExpirationQueue} (sound : Sound q) (queue : q'.queue = q.queue)
    (stamp : q'.nextGeneration = q.nextGeneration)
    (fewer : ∀ key generation, q'.active.get? key = some generation → q.active.get? key
      = some generation) :
    Sound q' where
  stamped := by rw [queue, stamp]; exact sound.stamped
  distinct := by rw [queue]; exact sound.distinct
  backed key generation live := by
    rw [queue]; exact sound.backed key generation (fewer key generation live)

/-- A dead entry is taken off without a trace. -/
theorem discard (sound : Sound q) {top : ExpirationFallback} {rest : List ExpirationFallback}
    (perm : q.queue.Perm (top :: rest)) (dead : q.active.get? top.key ≠ some top.generation) :
    Sound { q with queue := rest } ∧ alarms { q with queue := rest } = q.alarms := by
  have sub : ∀ entry ∈ rest, entry ∈ q.queue := fun entry inside =>
    perm.mem_iff.mpr (List.mem_cons_of_mem _ inside)
  have sound' : Sound { q with queue := rest } := by
    refine ⟨fun entry inside => sound.stamped entry (sub entry inside), ?_,
      fun key generation live => ?_⟩
    · exact (List.nodup_cons.mp ((perm.map ExpirationFallback.generation).nodup_iff.mp
        sound.distinct)).2
    · obtain ⟨entry, inside, rfl, rfl⟩ := sound.backed key generation live
      rcases List.mem_cons.mp (perm.mem_iff.mp inside) with rfl | later
      · exact absurd live dead
      · exact ⟨entry, later, rfl, rfl⟩
  refine ⟨sound', sound.alarms_congr sound' fun entry =>
    ⟨fun h => ⟨sub entry h.1, h.2⟩, fun h => ⟨?_, h.2⟩⟩⟩
  rcases List.mem_cons.mp (perm.mem_iff.mp h.1) with rfl | later
  · exact absurd h.2 dead
  · exact later

/-- A live entry is taken off with its key. -/
theorem fire (sound : Sound q) {top : ExpirationFallback} {rest : List ExpirationFallback}
    (perm : q.queue.Perm (top :: rest)) :
    Sound (cancel { q with queue := rest } top.key)
      ∧ (cancel { q with queue := rest } top.key).alarms = q.alarms.without (· = top.key) := by
  have cancelled : Sound (q.cancel top.key) := sound.unset rfl rfl fun key generation live => by
    simp only [cancel, KeyMap.get?_erase] at live
    split at live
    · cases live
    · exact live
  have dead : (q.cancel top.key).active.get? top.key ≠ some top.generation := by simp [cancel]
  obtain ⟨sound', same⟩ := cancelled.discard perm dead
  refine ⟨sound', same.trans (sound.alarms_without cancelled _ fun entry => ?_)⟩
  unfold Live
  simp only [cancel, KeyMap.get?_erase]
  by_cases here : entry.key = top.key <;> simp [here]

end Sound

theorem alarms_schedule {q : ExpirationQueue} (sound : Sound q) (key : ExpirationKey)
    (expiration : Time) (retry : Deliverable) : (q.schedule key expiration retry).alarms
      = Function.update q.alarms key (some (expiration, q.nextGeneration, retry)) := by
  funext key'
  apply Option.ext
  intro x
  rw [(sound.schedule key expiration retry).alarms_eq_some]
  by_cases same : key' = key
  · subst same
    -- the new stamp is no older entry's
    rw [Function.update_self]
    simp only [Live, schedule, KeyMap.get?_put, if_pos, Option.some.injEq, List.mem_append,
      List.mem_singleton]
    constructor
    · rintro ⟨before | new, stamp⟩
      · exact absurd stamp (Nat.ne_of_gt (sound.stamped _ before))
      · obtain ⟨deadline, generation, payload⟩ := x
        cases new
        rfl
    · rintro rfl
      exact ⟨Or.inr rfl, rfl⟩
  · rw [Function.update_of_ne same, sound.alarms_eq_some]
    simp [Live, schedule, same]

theorem drainExpiredFrom_fires {q : ExpirationQueue} (sound : Sound q) (now : Time) {fuel : Nat}
    (enough : q.queue.length ≤ fuel) :
    Sound (drainExpiredFrom now fuel q).2
      ∧ Alarms.Fires q.alarms now ((drainExpiredFrom now fuel q).1.map fun entry =>
        (entry.key, entry.alarm))
      ∧ (drainExpiredFrom now fuel q).2.alarms = q.alarms.after now := by
  induction fuel generalizing q with
  | zero =>
    have empty : q.queue = [] := List.eq_nil_of_length_eq_zero (Nat.le_zero.mp enough)
    have unset : ∀ key x, q.alarms key = some x → now < x.1 := fun key x set => by
      simp [alarms, empty] at set
    exact ⟨sound, .nil unset, (Alarms.after_of_not_due unset).symm⟩
  | succ fuel ih =>
    unfold drainExpiredFrom
    cases popped : popTop q.queue with
    | none =>
      have unset : ∀ key x, q.alarms key = some x → now < x.1 := fun key x set => by
        simp [alarms, popTop_eq_none.mp popped] at set
      exact ⟨sound, .nil unset, (Alarms.after_of_not_due unset).symm⟩
    | some pair =>
      obtain ⟨top, rest⟩ := pair
      obtain ⟨perm, first⟩ := popTop_perm popped
      have shorter : rest.length ≤ fuel := by simpa [perm.length_eq] using enough
      have earliest : ∀ key x, q.alarms key = some x → top.expiration ≤ x.1 := fun key x set =>
        first _ (sound.alarms_eq_some.mp set).1
      simp only
      split
      · next due =>
        split
        · next live =>
          obtain ⟨sound', taken⟩ := sound.fire perm
          obtain ⟨kept, fires, left⟩ := ih sound' shorter
          have set : q.alarms top.key = some top.alarm :=
            sound.alarms_eq_some.mpr ⟨perm.mem_iff.mpr List.mem_cons_self, live⟩
          rw [taken] at fires left
          exact ⟨kept, .cons set due earliest fires, left.trans (Alarms.after_without set due)⟩
        · next dead =>
          obtain ⟨sound', same⟩ := sound.discard perm dead
          obtain ⟨kept, fires, left⟩ := ih sound' shorter
          rw [same] at fires left
          exact ⟨kept, fires, left⟩
      · next early =>
        have unset : ∀ key x, q.alarms key = some x → now < x.1 := fun key x set =>
          (not_le.mp early).trans_le (earliest key x set)
        exact ⟨sound, .nil unset, (Alarms.after_of_not_due unset).symm⟩

/-- What goes off is what is due, each key once, by deadline. -/
theorem drainExpired_fires {q : ExpirationQueue} (sound : Sound q) (now : Time) :
    Sound (q.drainExpired now).2
      ∧ Alarms.Fires q.alarms now ((q.drainExpired now).1.map fun entry => (entry.key, entry.alarm))
      ∧ (q.drainExpired now).2.alarms = q.alarms.after now :=
        drainExpiredFrom_fires sound now (Nat.le_refl _)

theorem nextDeadlineFrom_earliest {q : ExpirationQueue} (sound : Sound q) {fuel : Nat}
    (enough : q.queue.length ≤ fuel) :
    Sound (nextDeadlineFrom fuel q).2 ∧ (nextDeadlineFrom fuel q).2.alarms = q.alarms
      ∧ Alarms.Earliest q.alarms (nextDeadlineFrom fuel q).1 := by
  induction fuel generalizing q with
  | zero =>
    have empty : q.queue = [] := List.eq_nil_of_length_eq_zero (Nat.le_zero.mp enough)
    exact ⟨sound, rfl, fun key => by simp [alarms, empty]⟩
  | succ fuel ih =>
    unfold nextDeadlineFrom
    cases popped : popTop q.queue with
    | none => exact ⟨sound, rfl, fun key => by simp [alarms, popTop_eq_none.mp popped]⟩
    | some pair =>
      obtain ⟨top, rest⟩ := pair
      obtain ⟨perm, first⟩ := popTop_perm popped
      simp only
      split
      · next live =>
        have set : q.alarms top.key = some top.alarm :=
          sound.alarms_eq_some.mpr ⟨perm.mem_iff.mpr List.mem_cons_self, live⟩
        exact ⟨sound, rfl, ⟨top.key, top.alarm, set, rfl⟩, fun key x set =>
          first _ (sound.alarms_eq_some.mp set).1⟩
      · next dead =>
        obtain ⟨sound', same⟩ := sound.discard perm dead
        obtain ⟨kept, left, earliest⟩ := ih sound' (by simpa [perm.length_eq] using enough)
        rw [same] at left earliest
        exact ⟨kept, left, earliest⟩

/-- The dead entries on top are discarded, and what is found is the earliest deadline. -/
theorem nextDeadline_earliest {q : ExpirationQueue} (sound : Sound q) :
    Sound q.nextDeadline.2 ∧ q.nextDeadline.2.alarms = q.alarms
      ∧ Alarms.Earliest q.alarms q.nextDeadline.1 :=
  nextDeadlineFrom_earliest sound (Nat.le_refl _)

theorem nextDeadline_eq_none {q : ExpirationQueue} (sound : Sound q) :
    q.nextDeadline.1 = none ↔ ∀ key, q.isActive key = false := by
  have earliest := (nextDeadline_earliest sound).2.2
  have inactive : ∀ key, q.isActive key = false ↔ q.alarms key = none := fun key => by
    rw [← Bool.not_eq_true, sound.isActive_iff, ← Option.isSome_iff_exists,
      Option.not_isSome_iff_eq_none]
  simp only [inactive]
  exact ⟨fun none => by rwa [none] at earliest, fun unset =>
    earliest.unique (show Alarms.Earliest q.alarms none from unset)⟩

end ExpirationQueue

/-! ## Runs -/

/-- The operations that change the queue, `next_deadline` among them. -/
inductive ExpirationOp where
  | schedule (key : ExpirationKey) (expiration : Time) (retry : Deliverable)
  | cancel (key : ExpirationKey)
  | cancelAll (location : AssociationKey)
  | cancelAllOfType (location : AssociationKey) (type : ExpirationTimerType)
  | nextDeadline
  | drainExpired (now : Time)
  | clear
deriving DecidableEq

namespace ExpirationQueue

def perform (q : ExpirationQueue) : ExpirationOp → ExpirationQueue
  | .schedule key expiration retry => q.schedule key expiration retry
  | .cancel key => q.cancel key
  | .cancelAll location => q.cancelAll location
  | .cancelAllOfType location type => q.cancelAllOfType location type
  | .nextDeadline => q.nextDeadline.2
  | .drainExpired now => (q.drainExpired now).2
  | .clear => q.clear

/-- The queue after any operations, in any order. -/
def performAll (ops : List ExpirationOp) : ExpirationQueue := ops.foldl perform fresh

theorem performAll_snoc (ops : List ExpirationOp) (op : ExpirationOp) :
    performAll (ops ++ [op]) = (performAll ops).perform op := by simp [performAll]

end ExpirationQueue

/-- What an operation does to the map; a schedule is stamped. -/
def ExpirationOp.toAlarms (stamp : Nat) (m : Alarms ExpirationKey Time (Nat × Deliverable)) :
    ExpirationOp → Alarms ExpirationKey Time (Nat × Deliverable)
  | .schedule key expiration retry => Function.update m key (some (expiration, stamp, retry))
  | .cancel key => m.without (· = key)
  | .cancelAll location => m.without (·.location = location)
  | .cancelAllOfType location type => m.without fun key => key.location = location ∧ key.type = type
  | .nextDeadline => m
  | .drainExpired now => m.after now
  | .clear => fun _ => none

/-- Whether an operation replaces, cancels, clears or fires what is set for a key. -/
def ExpirationOp.ends (q : ExpirationQueue) (key : ExpirationKey) : ExpirationOp → Prop
  | .schedule key' _ _ => key = key'
  | .cancel key' => key = key'
  | .cancelAll location => key.location = location
  | .cancelAllOfType location type => key.location = location ∧ key.type = type
  | .nextDeadline => False
  | .drainExpired now => ∃ entry ∈ (q.drainExpired now).1, entry.key = key
  | .clear => True

/-- The latest schedule of a key in a history, with nothing since that ended it. -/
inductive Scheduled : List ExpirationOp → ExpirationFallback → Prop where
  | here (ops : List ExpirationOp) (key : ExpirationKey) (expiration : Time) (retry : Deliverable) :
      Scheduled (ops ++ [.schedule key expiration retry])
        ⟨key, expiration, (ExpirationQueue.performAll ops).nextGeneration, retry⟩
  | later {ops : List ExpirationOp} {op : ExpirationOp} {entry : ExpirationFallback} :
      Scheduled ops entry → ¬op.ends (ExpirationQueue.performAll ops) entry.key →
        Scheduled (ops ++ [op]) entry

namespace ExpirationQueue

/-- Each operation does to the map what the operation of its name does. -/
theorem Sound.perform {q : ExpirationQueue} (sound : Sound q) (op : ExpirationOp) :
    Sound (q.perform op) ∧ (q.perform op).alarms = op.toAlarms q.nextGeneration q.alarms := by
  cases op with
  | schedule key expiration retry =>
    exact ⟨sound.schedule key expiration retry, alarms_schedule sound key expiration retry⟩
  | cancel key =>
    have kept : Sound (q.cancel key) := sound.unset rfl rfl fun key' generation live => by
      simp only [ExpirationQueue.cancel, KeyMap.get?_erase, Option.ite_none_left_eq_some] at live
      exact live.2
    refine ⟨kept, sound.alarms_without kept _ fun entry => ?_⟩
    by_cases same : entry.key = key <;> simp [Live, ExpirationQueue.cancel, same]
  | cancelAll location =>
    have kept : Sound (q.cancelAll location) := sound.unset rfl rfl fun key' generation live => by
      simp only [ExpirationQueue.cancelAll, KeyMap.get?_filterMap] at live
      cases set : q.active.get? key' <;> simp_all
    refine ⟨kept, sound.alarms_without kept _ fun entry => ?_⟩
    cases set : q.active.get? entry.key <;> by_cases same : entry.key.location = location <;>
      simp [Live, ExpirationQueue.cancelAll, set, same]
  | cancelAllOfType location type =>
    have kept : Sound (q.cancelAllOfType location type) :=
      sound.unset rfl rfl fun key' generation live => by
      simp only [ExpirationQueue.cancelAllOfType, KeyMap.get?_filterMap] at live
      cases set : q.active.get? key' <;> simp_all
    refine ⟨kept, sound.alarms_without kept _ fun entry => ?_⟩
    cases set : q.active.get? entry.key <;> by_cases same : entry.key.location = location
      ∧ entry.key.type = type <;>
      simp [Live, ExpirationQueue.cancelAllOfType, set, same]
  | nextDeadline => exact ⟨(nextDeadline_earliest sound).1, (nextDeadline_earliest sound).2.1⟩
  | drainExpired now => exact ⟨(drainExpired_fires sound now).1, (drainExpired_fires sound now).2.2⟩
  | clear =>
    refine ⟨⟨fun entry inside => absurd inside List.not_mem_nil, List.nodup_nil,
      fun key generation live => ?_⟩, ?_⟩
    · cases live
    · rfl

theorem sound_performAll (ops : List ExpirationOp) : Sound (performAll ops) := by
  induction ops using List.reverseRecOn with
  | nil => exact .fresh
  | append_singleton ops op ih =>
    rw [performAll_snoc]
    exact (ih.perform op).1

theorem alarms_performAll_snoc (ops : List ExpirationOp) (op : ExpirationOp) :
    (performAll (ops ++ [op])).alarms
      = op.toAlarms (performAll ops).nextGeneration (performAll ops).alarms := by
  rw [performAll_snoc]
  exact ((sound_performAll ops).perform op).2

/-! ## History -/

/-- Among what is set, an operation ends what it fires, cancels, clears or replaces. -/
theorem toAlarms_eq_some {q : ExpirationQueue} (sound : Sound q) (op : ExpirationOp)
    {key : ExpirationKey} {x : Time × Nat × Deliverable} :
    op.toAlarms q.nextGeneration q.alarms key = some x
      ↔ (op = .schedule key x.1 x.2.2 ∧ x.2.1 = q.nextGeneration)
      ∨ (q.alarms key = some x ∧ ¬op.ends q key) := by
  cases op with
  | schedule key' expiration retry =>
    by_cases same : key = key'
    · subst same
      simp only [ExpirationOp.toAlarms, Function.update_self, ExpirationOp.ends, Option.some.injEq,
        not_true, and_false, or_false, ExpirationOp.schedule.injEq, true_and]
      constructor
      · rintro rfl
        exact ⟨⟨rfl, rfl⟩, rfl⟩
      · rintro ⟨⟨rfl, rfl⟩, stamp⟩
        rw [← stamp]
    · have other : key' ≠ key := Ne.symm same
      simp [ExpirationOp.toAlarms, ExpirationOp.ends, same, other]
  | cancel key' => simp [ExpirationOp.toAlarms, ExpirationOp.ends, and_comm]
  | cancelAll location => simp [ExpirationOp.toAlarms, ExpirationOp.ends, and_comm]
  | cancelAllOfType location type => simp [ExpirationOp.toAlarms, ExpirationOp.ends, and_comm]
  | nextDeadline => simp [ExpirationOp.toAlarms, ExpirationOp.ends]
  | clear => simp [ExpirationOp.toAlarms, ExpirationOp.ends]
  | drainExpired now =>
    have fires := (drainExpired_fires sound now).2.1
    rw [ExpirationOp.toAlarms, Alarms.after_eq_some]
    simp only [reduceCtorEq, false_and, false_or]
    refine and_congr_right fun set => ?_
    rw [ExpirationOp.ends, ← not_le, not_iff_not]
    constructor
    · intro due
      obtain ⟨entry, inside, same⟩ := List.mem_map.mp ((fires.due key x).mpr ⟨set, due⟩)
      exact ⟨entry, inside, congrArg Prod.fst same⟩
    · rintro ⟨entry, inside, rfl⟩
      obtain ⟨set', due⟩ := (fires.due entry.key entry.alarm).mp
        (List.mem_map.mpr ⟨entry, inside, rfl⟩)
      rw [set] at set'
      cases set'
      exact due

end ExpirationQueue

theorem Scheduled.ne_nil {ops : List ExpirationOp} {entry : ExpirationFallback}
    (scheduled : Scheduled ops entry) :
    ops ≠ [] := by
  cases scheduled with
  | here ops => simp
  | later before => simp

theorem Scheduled.snoc_iff {ops : List ExpirationOp} {op : ExpirationOp}
    {entry : ExpirationFallback} :
    Scheduled (ops ++ [op]) entry
      ↔ (op = .schedule entry.key entry.expiration entry.retry
          ∧ entry.generation = (ExpirationQueue.performAll ops).nextGeneration)
        ∨ (Scheduled ops entry ∧ ¬op.ends (ExpirationQueue.performAll ops) entry.key) := by
  constructor
  · intro scheduled
    generalize history : ops ++ [op] = all at scheduled
    cases scheduled with
    | here ops' key expiration retry =>
      obtain ⟨rfl, last⟩ := List.append_inj' history rfl
      cases last
      exact Or.inl ⟨rfl, rfl⟩
    | later before kept =>
      obtain ⟨rfl, last⟩ := List.append_inj' history rfl
      cases last
      exact Or.inr ⟨before, kept⟩
  · rintro (⟨rfl, stamp⟩ | ⟨before, kept⟩)
    · obtain ⟨key, expiration, generation, retry⟩ := entry
      simp only at stamp
      subst stamp
      exact .here ops key expiration retry
    · exact before.later kept

namespace ExpirationQueue

/-- The map of a history: the latest schedules that nothing ended. -/
theorem alarms_performAll {ops : List ExpirationOp} {key : ExpirationKey}
    {x : Time × Nat × Deliverable} :
    (performAll ops).alarms key = some x ↔ Scheduled ops ⟨key, x.1, x.2.1, x.2.2⟩ := by
  induction ops using List.reverseRecOn generalizing x with
  | nil =>
    have unset : (performAll []).alarms key = none := rfl
    rw [unset]
    exact ⟨fun set => absurd set (by simp), fun scheduled => absurd rfl scheduled.ne_nil⟩
  | append_singleton ops op ih =>
    rw [alarms_performAll_snoc, toAlarms_eq_some (sound_performAll ops), Scheduled.snoc_iff, ih]

/-! ## What has ended stays ended -/

theorem nextGeneration_drainExpiredFrom (now : Time) (fuel : Nat) (q : ExpirationQueue) :
    (drainExpiredFrom now fuel q).2.nextGeneration = q.nextGeneration := by
  induction fuel generalizing q with
  | zero => rfl
  | succ fuel ih =>
    unfold drainExpiredFrom
    cases popTop q.queue with
    | none => rfl
    | some pair =>
      simp only
      split
      · split
        · exact ih _
        · exact ih _
      · rfl

theorem nextGeneration_nextDeadlineFrom (fuel : Nat) (q : ExpirationQueue) :
    (nextDeadlineFrom fuel q).2.nextGeneration = q.nextGeneration := by
  induction fuel generalizing q with
  | zero => rfl
  | succ fuel ih =>
    unfold nextDeadlineFrom
    cases popTop q.queue with
    | none => rfl
    | some pair =>
      simp only
      split
      · rfl
      · exact ih _

/-- A stamp is given out once. -/
theorem nextGeneration_perform (q : ExpirationQueue) (op : ExpirationOp) :
    q.nextGeneration ≤ (q.perform op).nextGeneration := by
  cases op with
  | schedule key expiration retry => exact Nat.le_succ _
  | nextDeadline => exact Nat.le_of_eq (nextGeneration_nextDeadlineFrom _ q).symm
  | drainExpired now => exact Nat.le_of_eq (nextGeneration_drainExpiredFrom now _ q).symm
  | cancel key => exact Nat.le_refl _
  | cancelAll location => exact Nat.le_refl _
  | cancelAllOfType location type => exact Nat.le_refl _
  | clear => exact Nat.le_refl _

/-- A stamp given out that only the key it was given for may be set under. -/
def Owned (q : ExpirationQueue) (key : ExpirationKey) (stamp : Nat) : Prop :=
  stamp < q.nextGeneration ∧ ∀ key' x, q.alarms key' = some x → x.2.1 = stamp → key' = key

/-- A stamp given out that nothing is set under any more. -/
def Spent (q : ExpirationQueue) (stamp : Nat) : Prop :=
  stamp < q.nextGeneration ∧ ∀ key x, q.alarms key = some x → x.2.1 ≠ stamp

variable {q : ExpirationQueue} {key : ExpirationKey} {stamp : Nat}

theorem Owned.perform (owned : Owned q key stamp) (sound : Sound q) (op : ExpirationOp) :
    Owned (q.perform op) key stamp := by
  refine ⟨Nat.lt_of_lt_of_le owned.1 (nextGeneration_perform q op), fun key' x set same => ?_⟩
  rw [(sound.perform op).2, toAlarms_eq_some sound] at set
  rcases set with ⟨-, new⟩ | ⟨before, -⟩
  · exact absurd (same.symm.trans new) (Nat.ne_of_lt owned.1)
  · exact owned.2 key' x before same

theorem Spent.perform (spent : Spent q stamp) (sound : Sound q) (op : ExpirationOp) :
    Spent (q.perform op) stamp := by
  refine ⟨Nat.lt_of_lt_of_le spent.1 (nextGeneration_perform q op), fun key x set same => ?_⟩
  rw [(sound.perform op).2, toAlarms_eq_some sound] at set
  rcases set with ⟨-, new⟩ | ⟨before, -⟩
  · exact absurd (same.symm.trans new) (Nat.ne_of_lt spent.1)
  · exact spent.2 key x before same

theorem Owned.spent (owned : Owned q key stamp) (sound : Sound q) {op : ExpirationOp}
    (ends : op.ends q key) :
    Spent (q.perform op) stamp := by
  refine ⟨Nat.lt_of_lt_of_le owned.1 (nextGeneration_perform q op), fun key' x set same => ?_⟩
  rw [(sound.perform op).2, toAlarms_eq_some sound] at set
  rcases set with ⟨-, new⟩ | ⟨before, kept⟩
  · exact absurd (same.symm.trans new) (Nat.ne_of_lt owned.1)
  · cases owned.2 key' x before same
    exact kept ends

theorem owned_schedule (sound : Sound q) (expiration : Time) (retry : Deliverable) :
    Owned (q.schedule key expiration retry) key q.nextGeneration := by
  refine ⟨Nat.lt_succ_self _, fun key' x set same => ?_⟩
  rw [alarms_schedule sound] at set
  by_cases here : key' = key
  · exact here
  · rw [Function.update_of_ne here, sound.alarms_eq_some] at set
    exact absurd same (Nat.ne_of_lt (sound.stamped _ set.1))

/-- What a schedule set is gone for good once something has ended it. -/
theorem spent_performAll {earlier middle later : List ExpirationOp} {key : ExpirationKey}
    {expiration : Time} {retry : Deliverable} {op : ExpirationOp}
    (ends : op.ends (performAll (earlier ++ .schedule key expiration retry :: middle)) key) :
    Spent (performAll (earlier ++ .schedule key expiration retry :: middle ++ op :: later))
      (performAll earlier).nextGeneration := by
  have owned : Owned (performAll (earlier ++ .schedule key expiration retry :: middle)) key
      (performAll earlier).nextGeneration := by
    clear ends
    induction middle using List.reverseRecOn with
    | nil =>
      rw [performAll_snoc]
      exact owned_schedule (sound_performAll earlier) expiration retry
    | append_singleton middle op' ih =>
      rw [← List.cons_append, ← List.append_assoc, performAll_snoc]
      exact ih.perform (sound_performAll _) op'
  induction later using List.reverseRecOn with
  | nil =>
    rw [performAll_snoc]
    exact owned.spent (sound_performAll _) ends
  | append_singleton later op' ih =>
    rw [← List.cons_append, ← List.append_assoc, performAll_snoc]
    exact ih.perform (sound_performAll _) op'

/-! ## The whole queue -/

theorem scheduled_iff {ops : List ExpirationOp} {entry : ExpirationFallback} :
    Scheduled ops entry ↔ (performAll ops).alarms entry.key = some entry.alarm := by
  rw [alarms_performAll]
  exact Iff.rfl

theorem isActive_performAll (ops : List ExpirationOp) (key : ExpirationKey) :
    (performAll ops).isActive key = true ↔ ∃ entry, Scheduled ops entry ∧ entry.key = key := by
  rw [(sound_performAll ops).isActive_iff]
  constructor
  · rintro ⟨x, set⟩
    exact ⟨_, alarms_performAll.mp set, rfl⟩
  · rintro ⟨entry, scheduled, rfl⟩
    exact ⟨_, scheduled_iff.mp scheduled⟩

/-- What goes off is what was scheduled last and nothing has ended, if it is due. -/
theorem mem_drainExpired (ops : List ExpirationOp) (now : Time) (entry : ExpirationFallback) :
    entry ∈ ((performAll ops).drainExpired now).1 ↔ Scheduled ops entry
      ∧ entry.expiration ≤ now := by
  rw [scheduled_iff]
  refine Iff.trans ?_ ((drainExpired_fires (sound_performAll ops) now).2.1.due entry.key
    entry.alarm)
  constructor
  · exact fun inside => List.mem_map.mpr ⟨entry, inside, rfl⟩
  · intro inside
    obtain ⟨⟨key, expiration, generation, retry⟩, member, same⟩ := List.mem_map.mp inside
    obtain ⟨key', expiration', generation', retry'⟩ := entry
    cases same
    exact member

/-- Under any interleaving the queue is the map from keys to their latest deadlines: a
key is active while its latest schedule stands, what goes off is what stands and is due,
what has been replaced, cancelled, fired or cleared never goes off, and the next
deadline is the earliest that stands. -/
theorem refines_latest_deadlines (ops : List ExpirationOp) :
    (∀ key, (performAll ops).isActive key = true ↔ ∃ entry, Scheduled ops entry ∧ entry.key = key)
      ∧ (∀ now,
          (∀ entry, entry ∈ ((performAll ops).drainExpired now).1 ↔ Scheduled ops entry
            ∧ entry.expiration ≤ now)
          ∧ (((performAll ops).drainExpired now).1.map ExpirationFallback.key).Nodup
          ∧ ((performAll ops).drainExpired now).1.Pairwise (fun first later => first.expiration
            ≤ later.expiration)
          ∧ ∀ key, ((performAll ops).drainExpired now).2.isActive key = true
              ↔ ∃ entry, Scheduled ops entry ∧ entry.key = key ∧ now < entry.expiration)
      ∧ (∀ earlier key expiration retry middle op later,
          ops = earlier ++ .schedule key expiration retry :: middle ++ op :: later →
          op.ends (performAll (earlier ++ .schedule key expiration retry :: middle)) key →
          ∀ now, ∀ entry ∈ ((performAll ops).drainExpired now).1,
            entry.generation ≠ (performAll earlier).nextGeneration)
      ∧ match (performAll ops).nextDeadline.1 with
        | none => ∀ key, (performAll ops).isActive key = false
        | some deadline => (∃ entry, Scheduled ops entry ∧ entry.expiration = deadline)
            ∧ ∀ entry, Scheduled ops entry → deadline ≤ entry.expiration := by
  have sound := sound_performAll ops
  refine ⟨isActive_performAll ops, fun now => ⟨mem_drainExpired ops now, ?_, ?_, fun key => ?_⟩,
    ?_, ?_⟩
  · have once := (drainExpired_fires sound now).2.1.once
    rwa [List.map_map] at once
  · have ordered := (drainExpired_fires sound now).2.1.ordered
    rwa [List.pairwise_map] at ordered
  · obtain ⟨kept, -, left⟩ := drainExpired_fires sound now
    rw [kept.isActive_iff, left]
    constructor
    · rintro ⟨x, set⟩
      obtain ⟨before, early⟩ := Alarms.after_eq_some.mp set
      exact ⟨_, alarms_performAll.mp before, rfl, early⟩
    · rintro ⟨entry, scheduled, rfl, early⟩
      exact ⟨entry.alarm, Alarms.after_eq_some.mpr ⟨scheduled_iff.mp scheduled, early⟩⟩
  · rintro earlier key expiration retry middle op later rfl ends now entry inside
    have set := scheduled_iff.mp ((mem_drainExpired _ now entry).mp inside).1
    exact (spent_performAll ends).2 entry.key entry.alarm set
  · have earliest := (nextDeadline_earliest sound).2.2
    cases next : (performAll ops).nextDeadline.1 with
    | none => exact (nextDeadline_eq_none sound).mp next
    | some deadline =>
      rw [next] at earliest
      obtain ⟨⟨key, x, set, same⟩, first⟩ := earliest
      exact ⟨⟨_, alarms_performAll.mp set, same⟩, fun entry scheduled =>
        first _ _ (scheduled_iff.mp scheduled)⟩

end ExpirationQueue

end SctpStack
