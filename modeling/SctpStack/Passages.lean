import SctpStack.Tags
import SctpStack.Views

/-!
# A run, handler by handler

An event of the loop calls several handlers: one for each chunk of a packet, one for each
timer that is due. `System.passages` lists them in their order, each with the socket it
finds and the socket it leaves, and a `History` is a run with all its passages. What holds
until something else comes to hold is followed along them (`Passes.keeps_or`).
-/

namespace SctpStack

/-! ## Passages -/

/-- One handler at work: the timer it is called for, if any, and the socket before and
after. -/
structure Passage where
  timer : Option ExpirationFallback
  before : Socket
  after : Socket

/-- The handlers of the timers that are due, one after the other. -/
def timerPassages (now : Time) (draws : Nat → Draws) :
    List (ExpirationFallback × Nat) → Socket → List Passage
  | [], _ => []
  | (f, i) :: rest, s =>
    let after := s.handleExpiration now (draws i) f
    ⟨some f, s, after⟩ :: timerPassages now draws rest after

namespace System

/-- The handlers an event calls. -/
def passages (σ : System) (event : Event) : List Passage :=
  match event with
  | .recv now draws packet src => (σ.socket.turns now draws packet src).map fun turn =>
      ⟨none, turn.before, turn.after⟩
  | .expire now draws =>
    let (expired, expirations) := σ.socket.expirations.drainExpired now
    let drained : Socket := { σ.socket with expirations := expirations }
    ⟨none, σ.socket, drained⟩ :: timerPassages now draws expired.zipIdx drained
  | .send now accepted =>
    let next := σ.socket.nextPacket now
    ⟨none, σ.socket, next.socket⟩
      :: match next.pending with
        | none => []
        | some p =>
          [⟨none, next.socket, if accepted then next.socket.packetSent now p
            else next.socket.packetRefused now p⟩]
  | event =>
    match σ.step event with
    | none => []
    | some σ' => [⟨none, σ.socket, σ'.socket⟩]

/-- A run and its passages. -/
inductive History : System → List Passage → Prop where
  | start {σ : System} : σ.Initial → History σ []
  | next {σ σ' : System} {event : Event} {passed : List Passage} :
      History σ passed → σ.step event = some σ' → History σ' (passed ++ σ.passages event)

theorem History.reached {σ : System} {passed : List Passage} (history : History σ passed) :
    Reached (fun _ _ => True) σ := by
  induction history with
  | start initial => exact .start initial
  | next _ stepped ih => exact .next ih trivial stepped

/-- A step that lists its passages. -/
def stepPassing (w : System × List Passage) (event : Event) : Option (System × List Passage) :=
  (w.1.step event).map fun σ' => (σ', w.2 ++ w.1.passages event)

theorem History.replay {σ σ' : System} {passed passed' : List Passage} {events : List Event}
    (history : History σ passed) (played : Run.replay stepPassing (σ, passed) events
      = some (σ', passed')) : History σ' passed' := by
  induction events generalizing σ passed with
  | nil =>
    cases played
    exact history
  | cons event rest ih =>
    obtain ⟨w, stepped, later⟩ := Option.bind_eq_some_iff.mp played
    obtain ⟨σ₁, step, rfl⟩ := Option.map_eq_some_iff.mp stepped
    exact ih (history.next step) later

end System

/-- A run from the start whose passages, and the state it ends in, have a property. -/
theorem Opened.exists_history (run : List Event) {p : System × List Passage → Bool}
    (ends : (Run.replay System.stepPassing (start, []) run).any p = true) :
    ∃ σ passed, System.History σ passed ∧ p (σ, passed) = true := by
  obtain ⟨w, played, holds⟩ := (Option.any_eq_true _ _).mp ends
  exact ⟨w.1, w.2, System.History.replay (.start ⟨own, rfl⟩) played, holds⟩

/-- The passages take one socket to the other, each from where the one before left it. -/
inductive Passes : Socket → List Passage → Socket → Prop where
  | nil (s : Socket) : Passes s [] s
  | cons (p : Passage) {rest : List Passage} {s' : Socket} :
      Passes p.after rest s' → Passes p.before (p :: rest) s'

namespace Passes

variable {s s' s'' : Socket} {passed more : List Passage}

theorem single (timer : Option ExpirationFallback) (s s' : Socket) : Passes s [⟨timer, s, s'⟩] s' :=
  .cons ⟨timer, s, s'⟩ (.nil s')

theorem eq_of_nil (linked : Passes s [] s') : s = s' := by
  cases linked
  rfl

theorem head {p : Passage} (linked : Passes s (p :: passed) s') : p.before = s := by
  cases linked
  rfl

theorem append (first : Passes s passed s') (second : Passes s' more s'') :
    Passes s (passed ++ more) s'' := by
  induction first with
  | nil => exact second
  | cons p _ ih => exact .cons p (ih second)

theorem split (linked : Passes s (passed ++ more) s'') :
    ∃ s', Passes s passed s' ∧ Passes s' more s'' := by
  induction passed generalizing s with
  | nil => exact ⟨s, .nil s, linked⟩
  | cons p rest ih =>
    cases linked with
    | cons _ linked =>
      obtain ⟨s', first, second⟩ := ih linked
      exact ⟨s', .cons p first, second⟩

/-- What lies between two passages. -/
theorem between {p q : Passage} {later : List Passage}
    (linked : Passes s (passed ++ p :: more ++ q :: later) s') :
    Passes p.after more q.before := by
  obtain ⟨s₁, first, last⟩ := linked.split
  obtain ⟨s₂, -, here⟩ := first.split
  cases last
  cases here with
  | cons _ here => exact here

/-- What each passage keeps unless something else comes of it, holds at the end unless
that came of one of them. -/
theorem keeps_or {P Q : Socket → Prop} (linked : Passes s passed s')
    (each : ∀ p ∈ passed, P p.before → P p.after ∨ Q p.after) (start : P s) :
    P s' ∨ ∃ p ∈ passed, Q p.after := by
  induction linked with
  | nil => exact Or.inl start
  | cons p _ ih =>
    rcases each p List.mem_cons_self start with still | came
    · rcases ih (fun q member => each q (List.mem_cons_of_mem p member)) still
        with still | ⟨q, member, came⟩
      · exact Or.inl still
      · exact Or.inr ⟨q, List.mem_cons_of_mem p member, came⟩
    · exact Or.inr ⟨p, List.mem_cons_self, came⟩

end Passes

/-! ## The passages of an event -/

theorem passes_turns {s s' : Socket} {turns : List Turn} (chained : Chained s turns s') :
    Passes s (turns.map fun turn => ⟨none, turn.before, turn.after⟩) s' := by
  induction chained with
  | nil s => exact .nil s
  | cons turn _ ih => exact .cons ⟨none, turn.before, turn.after⟩ ih

theorem passes_timers (now : Time) (draws : Nat → Draws) (expired : List (ExpirationFallback × Nat))
    (s : Socket) :
    Passes s (timerPassages now draws expired s)
      (expired.foldl (fun s (pair : ExpirationFallback × Nat) =>
        s.handleExpiration now (draws pair.2) pair.1) s) := by
  induction expired generalizing s with
  | nil => exact .nil s
  | cons pair rest ih => exact .cons ⟨some pair.1, s,
      s.handleExpiration now (draws pair.2) pair.1⟩ (ih _)

theorem mem_timerPassages {now : Time} {draws : Nat → Draws}
    {expired : List (ExpirationFallback × Nat)} {s : Socket} {p : Passage}
    (member : p ∈ timerPassages now draws expired s) :
    ∃ pair ∈ expired, p = ⟨some pair.1, p.before,
      p.before.handleExpiration now (draws pair.2) pair.1⟩ := by
  induction expired generalizing s with
  | nil => cases member
  | cons pair rest ih =>
    rcases List.mem_cons.mp member with rfl | later
    · exact ⟨pair, List.mem_cons_self, rfl⟩
    · obtain ⟨other, inside, same⟩ := ih later
      exact ⟨other, List.mem_cons_of_mem _ inside, same⟩

/-- The passages of an event make up its step. -/
theorem System.passes_passages {σ σ' : System} {event : Event} (stepped : σ.step event = some σ') :
    Passes σ.socket (σ.passages event) σ'.socket := by
  rcases step_cases stepped with ⟨now, draws, packet, src, rfl, -, rfl⟩ | ⟨now, draws, rfl, -,
    rfl⟩ | ⟨rfl, -, -⟩
    | ⟨now, accepted, left, rfl, -, rfl⟩ | ⟨s, called, rfl⟩
  · exact passes_turns (chained_turns σ.socket)
  · exact .cons ⟨none, σ.socket, _⟩ (passes_timers now draws _ _)
  · simp only [passages, stepped]
    exact .single none _ _
  · unfold passages sendOne
    simp only
    cases (σ.socket.nextPacket now).pending with
    | none => exact .single none _ _
    | some p =>
      refine .cons ⟨none, σ.socket, (σ.socket.nextPacket now).socket⟩ ?_
      cases accepted with
      | true => exact .single none _ _
      | false => exact .single none _ _
  · cases event with
    | recv | expire | startSending | send => cases called
    | _ =>
      simp only [passages, stepped]
      exact .single none _ _

theorem System.History.passes {σ : System} {passed : List Passage} (history : History σ passed) :
    ∃ σ₀ : System, σ₀.Initial ∧ Passes σ₀.socket passed σ.socket := by
  induction history with
  | start initial => exact ⟨_, initial, .nil _⟩
  | next _ stepped ih =>
    obtain ⟨σ₀, initial, linked⟩ := ih
    exact ⟨σ₀, initial, linked.append (passes_passages stepped)⟩

/-! ## The handlers of a packet -/

section Turns

variable {now : Time} {draws : Nat → Draws} {packet : Packet} {key : AssociationKey}
    {src : SockAddr} {turn : Turn}
  {s : Socket}

/-- A chunk's handler, or a calm step. -/
def Turn.Plain (turn : Turn) (now : Time) (src : SockAddr) : Prop :=
  Calm False turn.before turn.after
    ∨ ∃ (draws : Draws) (header : CommonHeader) (chunk : Chunk),
      turn.chunks = (if dispatched chunk then [chunk] else [])
      ∧ turn.after = turn.before.handleChunk now draws header turn.key src chunk

theorem plain_chunkTurns {header : CommonHeader} {chunks : List Chunk} {i : Nat} {leads : Bool}
    (member : turn ∈ Socket.chunkTurns now draws header key src i leads chunks s) :
    turn.Plain now src := by
  obtain ⟨chunk, -, draws₁, -, here, acts, after⟩ :=
    mem_chunkTurns (fun _ => True) (fun _ _ _ _ _ => trivial) trivial member
  exact Or.inr ⟨draws₁, header, chunk, acts, here ▸ after⟩

theorem plain_restTurns {carried : Bool}
    (member : turn ∈ s.restTurns now draws packet key src carried) :
    turn.Plain now src := by
  unfold Socket.restTurns Socket.loopTurns at member
  rcases List.mem_cons.mp member with rfl | member
  · refine Or.inl ?_
    unfold Socket.beforeChunks
    refine Calm.trans ?_ (Calm.extendShutdown _ key now)
    split
    · exact .refl s
    · exact .recordEncapsulationPort s key src
  rcases List.mem_append.mp member with loop | rest
  · exact plain_chunkTurns loop
  · split at rest
    · cases rest
    · next s₁ _ =>
      simp only [List.mem_cons, List.not_mem_nil, or_false] at rest
      rcases rest with rfl | rfl
      · exact Or.inl (.handleDataPacket s₁ key now _ src carried)
      · refine Or.inl ?_
        simp only
        split
        · exact .refl _
        · exact .reportUnrecognizedChunks _ key _ _ _

theorem plain_turns (empty : ∀ k, s.find? k = none → NothingQueued s k)
    (member : turn ∈ s.turns now draws packet src) :
    turn.Plain now src := by
  unfold Socket.turns at member
  simp only at member
  split at member
  · split at member
    · next flag cookieData rest chunks =>
      have echoed : Calm False s _ := .handleCookieEcho s (s.packetKey packet src) now (draws 0)
        packet.header cookieData src empty
      rcases List.mem_cons.mp member with rfl | later
      · exact Or.inl echoed
      · split at later
        · exact plain_restTurns later
        · cases later
    · exact plain_restTurns member
  · next refused =>
    rw [List.mem_singleton] at member
    subst member
    refine Or.inl ?_
    rcases handlePacket_cases False s now draws packet src empty with ⟨-, calm⟩ | ⟨s', key, carried,
      dispatched, -⟩
    · exact calm
    · unfold Socket.dispatch at dispatched
      split at dispatched
      · next accepted => exact absurd accepted refused
      · cases dispatched

end Turns

end SctpStack
