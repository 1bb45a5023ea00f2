import CodexKeyboard.Keyboard.Debounce

/-! `GpioInputScanner`: the interrupts that queue snapshots of the inputs, and the poll that gives them to the
    debouncers. Interrupts, levels and time may change between any two steps of the poll. The times are those of
    the clock; the firmware has their stamps. -/

namespace CodexKeyboard.Keyboard

/-- The eight keys and the press of the encoder, by their bits in a mask. -/
abbrev Key := Fin 9

abbrev Mask := Key → Bool

structure InputEdgeSnapshot where
  time : Nat
  activeMask : Mask
  deriving DecidableEq

def kInputEdgeQueueCapacity : Nat := 64
def kInputPressDebounceMs : UInt32 := 5
def kInputReleaseDebounceMs : UInt32 := 3

/-- Where the main loop is in `poll`, with the time the poll was called with. -/
inductive Phase where
  | idle
  /-- Before a `take_input_edge_snapshot`. -/
  | draining (now : Nat)
  /-- Before the read of the active mask. -/
  | sampling (now : Nat)
  /-- The keys that are left of a snapshot, which may be the settle sample. -/
  | processing (now : Nat) (snapshot : InputEdgeSnapshot) (keys : List Key) (settle : Bool)
  deriving DecidableEq

structure GpioInputScanner where
  clock : Nat
  levels : Mask
  queue : List InputEdgeSnapshot
  debouncers : Key → DebouncedInput
  phase : Phase
  /-- When the last poll was made. -/
  polledAt : Nat
  /-- What the debouncers were given, and the events of the callback. -/
  samples : Key → List Sample
  emitted : List (Key × Bool)

inductive Step where
  | pass (ms : Nat)
  | level (key : Key) (down : Bool)
  | edge
  | poll
  | take
  | readMask
  | update
  deriving DecidableEq, Repr

namespace GpioInputScanner

/-- `begin`: the debouncers start at the levels of the inputs. -/
def boot (now : Nat) (levels : Mask) : GpioInputScanner where
  clock := now
  levels := levels
  queue := []
  debouncers key := DebouncedInput.reset ⟨kInputPressDebounceMs, kInputReleaseDebounceMs, false, false, false, 0⟩
    (levels key) (stamp now)
  phase := .idle
  polledAt := now
  samples key := [⟨now, levels key⟩]
  emitted := []

/-- `handle_input_edge_from_isr`: the oldest snapshot makes room. -/
def handleInputEdgeFromIsr (s : GpioInputScanner) : GpioInputScanner :=
  let queue := if s.queue.length = kInputEdgeQueueCapacity then s.queue.tail else s.queue
  { s with queue := queue ++ [⟨s.clock, s.levels⟩] }

/-- `process_input_snapshot` for one key, with the callback. -/
def updateKey (s : GpioInputScanner) (snapshot : InputEdgeSnapshot) (key : Key) : GpioInputScanner :=
  let result := (s.debouncers key).update (snapshot.activeMask key) (stamp snapshot.time)
  { s with
    debouncers := Function.update s.debouncers key result.2
    samples := Function.update s.samples key (s.samples key ++ [⟨snapshot.time, snapshot.activeMask key⟩])
    emitted := if result.1.changed then s.emitted ++ [(key, result.1.state)] else s.emitted }

/-- Behind the last key of a snapshot: the next one, or the end of the poll. -/
def finish (s : GpioInputScanner) (now : Nat) (settle : Bool) : GpioInputScanner :=
  if settle then { s with phase := .idle, polledAt := now } else { s with phase := .draining now }

def step (s : GpioInputScanner) : Step → Option GpioInputScanner
  | .pass ms => some { s with clock := s.clock + ms }
  | .level key down => some { s with levels := Function.update s.levels key down }
  | .edge => some s.handleInputEdgeFromIsr
  | .poll =>
    match s.phase with
    | .idle => some { s with phase := .draining s.clock }
    | _ => none
  | .take =>
    match s.phase, s.queue with
    | .draining now, [] => some { s with phase := .sampling now }
    | .draining now, snapshot :: rest =>
      some { s with queue := rest, phase := .processing now snapshot (List.finRange 9) false }
    | _, _ => none
  | .readMask =>
    match s.phase with
    | .sampling now => some { s with phase := .processing now ⟨now, s.levels⟩ (List.finRange 9) true }
    | _ => none
  | .update =>
    match s.phase with
    | .processing now snapshot (key :: keys) settle =>
      some { s.updateKey snapshot key with phase := .processing now snapshot keys settle }
    | .processing now _ [] settle => some (s.finish now settle)
    | _ => none

/-- The events of one key. -/
def eventsOf (s : GpioInputScanner) (key : Key) : List Bool := (s.emitted.filter (·.1 = key)).map Prod.snd

/-- A poll takes only snapshots that are not later than itself. -/
def InOrder (s : GpioInputScanner) : Step → Prop
  | .take => ∀ now snapshot rest, s.phase = .draining now → s.queue = snapshot :: rest → snapshot.time ≤ now
  | _ => True

/-- A poll comes before the stamps of the last one wrap around. -/
def InTime (s : GpioInputScanner) : Step → Prop
  | .poll => s.clock + 5 ≤ s.polledAt + 2 ^ 32
  | _ => True

/-- The levels do not change. -/
def Quiet (_ : GpioInputScanner) : Step → Prop
  | .level _ _ => False
  | _ => True

/-- The runs whose steps all meet a condition. -/
inductive Run (cond : GpioInputScanner → Step → Prop) (s : GpioInputScanner) : GpioInputScanner → Prop
  | refl : Run cond s s
  | step {t u : GpioInputScanner} (run : Run cond s t) (label : Step) (meets : cond t label)
      (next : t.step label = some u) :
    Run cond s u

/-! ### What a step does -/

/-- The cases of a step. -/
inductive Moves (s : GpioInputScanner) : Step → GpioInputScanner → Prop
  | pass (ms : Nat) : Moves s (.pass ms) { s with clock := s.clock + ms }
  | level (key : Key) (down : Bool) : Moves s (.level key down) { s with levels := Function.update s.levels key down }
  | edge : Moves s .edge s.handleInputEdgeFromIsr
  | poll (phase : s.phase = .idle) : Moves s .poll { s with phase := .draining s.clock }
  | empty {now : Nat} (phase : s.phase = .draining now) (queue : s.queue = []) :
    Moves s .take { s with phase := .sampling now }
  | take {now : Nat} {snapshot : InputEdgeSnapshot} {rest : List InputEdgeSnapshot} (phase : s.phase = .draining now)
    (queue : s.queue = snapshot :: rest) :
    Moves s .take { s with queue := rest, phase := .processing now snapshot (List.finRange 9) false }
  | readMask {now : Nat} (phase : s.phase = .sampling now) :
    Moves s .readMask { s with phase := .processing now ⟨now, s.levels⟩ (List.finRange 9) true }
  | update {now : Nat} {snapshot : InputEdgeSnapshot} {key : Key} {keys : List Key} {settle : Bool}
    (phase : s.phase = .processing now snapshot (key :: keys) settle) :
    Moves s .update { s.updateKey snapshot key with phase := .processing now snapshot keys settle }
  | finish {now : Nat} {snapshot : InputEdgeSnapshot} {settle : Bool}
      (phase : s.phase = .processing now snapshot [] settle) :
    Moves s .update (s.finish now settle)

variable {s t : GpioInputScanner} {label : Step}

theorem step_moves (h : s.step label = some t) : Moves s label t := by
  cases label with
  | pass ms =>
    cases h
    exact .pass ms
  | level key down =>
    cases h
    exact .level key down
  | edge =>
    cases h
    exact .edge
  | poll =>
    rw [step] at h
    split at h
    next hphase =>
      cases h
      exact .poll hphase
    next => cases h
  | take =>
    rw [step] at h
    split at h
    next hphase hqueue =>
      cases h
      exact .empty hphase hqueue
    next hphase hqueue =>
      cases h
      exact .take hphase hqueue
    next => cases h
  | readMask =>
    rw [step] at h
    split at h
    next hphase =>
      cases h
      exact .readMask hphase
    next => cases h
  | update =>
    rw [step] at h
    split at h
    next hphase =>
      cases h
      exact .update hphase
    next hphase =>
      cases h
      exact .finish hphase
    next => cases h

end GpioInputScanner

end CodexKeyboard.Keyboard
