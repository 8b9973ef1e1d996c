import SctpStack.Kept

/-!
# What a pass of the send loop leaves as it was

Before a packet goes out, the loop decays idle windows, queues marked chunks, cuts new
DATA and bundles a SACK. What an association shows none of that (`PassView`) it shows
unchanged when `next_packet` returns (`SameView.nextPacket`).
-/

namespace SctpStack

/-- Every association is there before and after, and shows the same. -/
def SameView {α : Type} (view : Association → α) (s s' : Socket) : Prop :=
  ∀ k, (s'.find? k).map view = (s.find? k).map view

namespace SameView

variable {α : Type} {view : Association → α} {s s' s'' : Socket} {key : AssociationKey}

theorem refl (s : Socket) : SameView view s s := fun _ => rfl

theorem trans (first : SameView view s s') (second : SameView view s' s'') : SameView view s s'' :=
  fun k => (second k).trans (first k)

theorem symm (same : SameView view s s') : SameView view s' s := fun k => (same k).symm

theorem of_find? (same : ∀ k, s'.find? k = s.find? k) : SameView view s s' := fun k => by rw [same]

theorem set {a b : Association} (found : s.find? key = some a) (same : view b = view a) :
    SameView view s (s.setAssociation key b) := by
  intro k
  rw [Socket.find?_setAssociation]
  split
  · next here => rw [here, found, Option.map_some, Option.map_some, same]
  · rfl

theorem update (s : Socket) (key : AssociationKey) {f : Association → Association}
    (same : ∀ a, view (f a) = view a) :
    SameView view s (s.updateAssociation key f) := by
  intro k
  rw [Socket.find?_updateAssociation]
  split
  · next here =>
    rw [here]
    cases s.find? key with
    | none => rfl
    | some a => exact congrArg some (same a)
  · rfl

theorem mapVals (s : Socket) {f : AssociationKey → Association → Association}
    (same : ∀ k a, view (f k a) = view a) :
    SameView view s { s with associations := s.associations.mapVals f } := by
  intro k
  change (KeyMap.get? (s.associations.mapVals f) k).map view = (s.find? k).map view
  rw [KeyMap.get?_mapVals]
  change ((s.find? k).map (f k)).map view = (s.find? k).map view
  cases s.find? k with
  | none => rfl
  | some a => exact congrArg some (same k a)

theorem foldl {β : Type} {f : Socket → β → Socket} (same : ∀ s x, SameView view s (f s x))
    (l : List β) (s : Socket) :
    SameView view s (l.foldl f s) :=
  List.foldlRecOn (motive := fun s' => SameView view s s') l f (.refl s) fun s' before x _ =>
    before.trans (same s' x)

theorem found {b : Association} (same : SameView view s s') (after : s'.find? key = some b) :
    ∃ a, s.find? key = some a ∧ view a = view b := by
  have here := same key
  rw [after, Option.map_some, eq_comm, Option.map_eq_some_iff] at here
  exact here

end SameView

/-! ## A pass -/

/-- A view that shows nothing of what is done before a packet goes out. -/
structure PassView {α : Type} (view : Association → α) : Prop where
  decay : ∀ now a, view (decayPaths now a) = view a
  unmark : ∀ a tsns, view (unmark a tsns) = view a
  cut : ∀ {a b}, CutOnly a b → view b = view a
  sack : ∀ s key a, view (Socket.makeSack s key a).2 = view a

theorem armZeroWindowProbes_find? (s : Socket) (now : Time) (allowances : SendAllowances)
    (k : AssociationKey) :
    (s.armZeroWindowProbes now allowances).find? k = s.find? k := by
  refine List.foldlRecOn (motive := fun s' : Socket => s'.find? k = s.find? k) allowances.entries
    _ rfl fun s' same entry _ => ?_
  refine Eq.trans ?_ same
  unfold Socket.armZeroWindowProbe
  simp only
  (repeat' split) <;> rfl

namespace SameView

variable {α : Type}

theorem schedulePending {view : Association → α}
    (unmarked : ∀ a tsns, view (unmark a tsns) = view a) (s : Socket) (key : AssociationKey)
    (gated : Bool) :
    SameView view s (s.schedulePendingRetransmission key gated) := by
  cases found : s.find? key with
  | none =>
    unfold Socket.schedulePendingRetransmission
    simp only [found]
    exact .refl s
  | some a =>
    rcases schedulePendingRetransmission_cases found gated with ⟨same, -⟩ | ⟨target, bundle, -,
      made⟩
    · rw [same]
      exact .refl s
    · rw [made]
      exact .update s key fun a => unmarked a _

variable {view : Association → α} (pass : PassView view) (s : Socket)

include pass

theorem sendAllowances (now : Time) : SameView view s (s.sendAllowances now).1 := by
  refine .mapVals s fun k a => ?_
  split
  · exact pass.decay now a
  · rfl

theorem refillRetransmissions (allowances : SendAllowances) :
    SameView view s (s.refillRetransmissions allowances) := by
  refine List.foldlRecOn (motive := fun s' : Socket => SameView view s s') allowances.keys _
    (.refl s) fun s' held key _ => ?_
  split
  · exact held
  · exact held.trans (schedulePending pass.unmark s' key true)

theorem refillNewDataFor (r : Socket.Refill) (key : AssociationKey) :
    SameView view r.socket (Socket.refillNewDataFor r key).socket := by
  rcases refillNewDataFor_cases r key with same | ⟨allowance, a, -, found, -, -, -, -, done⟩
  · rw [same]
    exact .refl _
  · have set := SameView.set found
      (pass.cut (cutNewDataFrom_spec allowance (a.pmdcs + 1) a 0 true).1)
    rcases done with ⟨-, socket, -⟩ | ⟨-, socket, -⟩
    · rw [socket]
      exact set
    · rw [socket]
      exact set

theorem refilled (now : Time) : SameView view s (s.refilled now).socket := by
  refine List.foldlRecOn (motive := fun r : Socket.Refill => SameView view s r.socket)
    (s.sendAllowances now).2.keys Socket.refillNewDataFor ?_ fun r held key _ =>
      held.trans (refillNewDataFor pass r key)
  exact (sendAllowances pass s now).trans (refillRetransmissions pass _ _)

theorem armed (now : Time) : SameView view s (s.armed now) :=
  (refilled pass s now).trans (.of_find? fun k => armZeroWindowProbes_find? _ now _ k)

theorem prepareDataPacket (d : Deliverable) (newData : Bool) :
    SameView view s (s.prepareDataPacket d newData).1 := by
  unfold Socket.prepareDataPacket
  simp only
  split
  · exact .refl s
  · cases found : s.find? d.location with
    | none => exact .refl s
    | some a =>
      have sacked : SameView view s (s.setAssociation d.location (s.makeSack d.location a).2) :=
        .set found (pass.sack s d.location a)
      simp only
      (repeat' split) <;> first | exact .refl s | exact sacked

/-- What `next_packet` leaves of a view. -/
theorem nextPacket (now : Time) : SameView view s (s.nextPacket now).socket := by
  rw [nextPacket_eq]
  split
  · exact armed pass s now
  · split
    · exact armed pass s now
    · exact (armed pass s now).trans (prepareDataPacket pass _ _ _)

end SameView

end SctpStack
