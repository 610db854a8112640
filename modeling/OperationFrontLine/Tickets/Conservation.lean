import OperationFrontLine.Tickets.Queue

/-!
# Ticket conservation

The entries ever appended are those that were applied followed by those still pending.
What the queue looks like for the pending entries depends on the statement that comes next;
an append adds to the end of the queue at any of them.
-/

namespace OperationFrontLine.Tickets

open OperationFrontLine.Library
open OperationFrontLine.Zones (Side)

def Entry.amount (entry : Entry) (side : Side) : ℤ :=
  if entry.side = side then if entry.gains then 1 else -1 else 0

def balance (side : Side) (entries : List Entry) : ℤ :=
  (entries.map fun entry => entry.amount side).sum

theorem balance_append (side : Side) (first second : List Entry) :
    balance side (first ++ second) = balance side first + balance side second := by
  simp [balance]

theorem balance_eq_count (side : Side) (entries : List Entry) :
    balance side entries = entries.count ⟨side, true⟩ - entries.count ⟨side, false⟩ := by
  induction entries with
  | nil => rfl
  | cons entry rest inductionHypothesis =>
      obtain ⟨entrySide, gains⟩ := entry
      have split : balance side (⟨entrySide, gains⟩ :: rest) =
          (⟨entrySide, gains⟩ : Entry).amount side + balance side rest := by simp [balance]
      rw [split, inductionHypothesis]
      by_cases same : entrySide = side
      · cases gains <;> simp [Entry.amount, same] <;> ring
      · simp [Entry.amount, same]

/-- The queue when these entries have not been applied and this statement comes next. -/
def Clock.Awaits (queue : List (Option Entry)) (pending : List Entry) : Clock → Prop
  | start | check | test | ended => queue = pending.map some
  | select => queue = pending.map some ∧ pending ≠ []
  | dispatch executeState =>
      queue = pending.map some ∧ ∃ entry, executeState = some entry ∧ pending.head? = some entry
  | change entry => queue = pending.map some ∧ pending.head? = some entry
  | publish _ | mark => ∃ entry, queue = some entry :: pending.map some
  | filter => queue = none :: pending.map some
  | stopped => False

theorem Clock.Awaits.append {clock : Clock} {queue : List (Option Entry)} {pending : List Entry}
    (awaits : clock.Awaits queue pending) (entry : Entry) :
    clock.Awaits (queue ++ [some entry]) (pending ++ [entry]) := by
  have head (first : Entry) (isHead : pending.head? = some first) :
      (pending ++ [entry]).head? = some first := by
    simp [List.head?_append, isHead]
  cases clock with
  | start | check | test | ended =>
      obtain rfl : queue = pending.map some := awaits
      simp [Awaits]
  | select => exact ⟨by simp [awaits.1], by simp⟩
  | dispatch executeState =>
      obtain ⟨same, first, isFirst, isHead⟩ := awaits
      exact ⟨by simp [same], first, isFirst, head first isHead⟩
  | change first => exact ⟨by simp [awaits.1], head first awaits.2⟩
  | publish _ | mark =>
      obtain ⟨first, rfl⟩ := awaits
      exact ⟨first, by simp⟩
  | filter =>
      obtain rfl : queue = none :: pending.map some := awaits
      simp [Awaits]
  | stopped => exact awaits

namespace State

variable {startingTickets : ℤ} {state before after : State}

/-- No entry is lost or applied twice, and the totals are those of the applied entries. -/
structure Conserved (startingTickets : ℤ) (state : State) : Prop where
  pending : ∃ pending, state.appended = state.applied ++ pending ∧
    state.clock.Awaits state.queue pending
  tickets : ∀ side, state.tickets side = startingTickets + balance side state.applied

theorem conserved_initial : (initial startingTickets).Conserved startingTickets where
  pending := ⟨[], rfl, rfl⟩
  tickets side := by simp [initial, balance]

theorem Conserved.append (conserved : state.Conserved startingTickets) (entry : Entry) :
    (state.append entry).Conserved startingTickets where
  pending := by
    obtain ⟨pending, appended, awaits⟩ := conserved.pending
    exact ⟨pending ++ [entry], by simp [State.append, appended], awaits.append entry⟩
  tickets := conserved.tickets

/-- A statement of the clock thread that applies no entry changes only what the queue
looks like. -/
theorem Conserved.of_awaits {pending : List Entry}
    (conserved : before.Conserved startingTickets)
    (appended : before.appended = before.applied ++ pending)
    (awaits : after.clock.Awaits after.queue pending)
    (sameTickets : after.tickets = before.tickets)
    (sameAppended : after.appended = before.appended)
    (sameApplied : after.applied = before.applied) : after.Conserved startingTickets where
  pending := ⟨pending, by rw [sameAppended, sameApplied, appended], awaits⟩
  tickets side := by rw [sameTickets, sameApplied, conserved.tickets]

/-- Changing a total by the first pending entry moves that entry to the applied ones. -/
theorem Conserved.apply {entry : Entry} {rest : List Entry}
    (conserved : state.Conserved startingTickets)
    (appended : state.appended = state.applied ++ entry :: rest)
    (queued : state.queue = some entry :: rest.map some) :
    { state.apply entry with clock := .publish entry.side }.Conserved startingTickets where
  pending := ⟨rest, by simp [State.apply, appended], entry, queued⟩
  tickets side := by
    have total := conserved.tickets
    by_cases same : entry.side = side
    · subst same
      cases gains : entry.gains <;>
        simp [State.apply, balance, Entry.amount, gains, total] <;> ring
    · have other : side ≠ entry.side := fun isSide => same isSide.symm
      simp [State.apply, balance, Entry.amount, same, other, total]

/-- One statement of the clock thread: the queue is the pending entries again when the mark
that took the place of the applied entry is filtered out. -/
theorem Conserved.clockStep (conserved : before.Conserved startingTickets) {holds : Bool}
    (stepped : before.clockStep holds = some after) : after.Conserved startingTickets := by
  obtain ⟨pending, appended, awaits⟩ := conserved.pending
  cases clock : before.clock with
  | start =>
      simp only [State.clockStep, clock] at stepped awaits
      split at stepped
      · cases stepped
        exact conserved.of_awaits appended awaits rfl rfl rfl
      · cases stepped
  | check =>
      simp only [State.clockStep, clock] at stepped awaits
      have queued : before.queue = pending.map some := awaits
      split at stepped
      · rename_i present
        cases stepped
        have nonempty : pending ≠ [] := by
          rintro rfl
          simp [queued] at present
        exact conserved.of_awaits appended ⟨queued, nonempty⟩ rfl rfl rfl
      · cases stepped
        exact conserved.of_awaits appended awaits rfl rfl rfl
  | select =>
      simp only [State.clockStep, clock] at stepped awaits
      obtain ⟨queued, nonempty⟩ := awaits
      obtain ⟨entry, rest, rfl⟩ := List.exists_cons_of_ne_nil nonempty
      have chosen : after = { before with clock := .dispatch (some entry) } := by
        simp only [queued, List.map_cons, Option.some.injEq] at stepped
        rw [← stepped, queued, List.map_cons]
      subst chosen
      exact conserved.of_awaits appended ⟨queued, entry, rfl, rfl⟩ rfl rfl rfl
  | dispatch executeState =>
      simp only [clock] at awaits
      obtain ⟨queued, entry, rfl, isHead⟩ := awaits
      simp only [State.clockStep, clock] at stepped
      cases stepped
      exact conserved.of_awaits appended ⟨queued, isHead⟩ rfl rfl rfl
  | change entry =>
      simp only [State.clockStep, clock] at stepped awaits
      obtain ⟨queued, isHead⟩ := awaits
      obtain ⟨rest, rfl⟩ := List.head?_eq_some_iff.mp isHead
      cases stepped
      exact conserved.apply appended queued
  | publish side =>
      simp only [State.clockStep, clock] at stepped awaits
      cases stepped
      exact conserved.of_awaits appended awaits rfl rfl rfl
  | mark =>
      simp only [State.clockStep, clock] at stepped awaits
      obtain ⟨entry, queued⟩ := awaits
      cases stepped
      have marked : none :: before.queue.tail = none :: pending.map some := by rw [queued]; rfl
      exact conserved.of_awaits appended marked rfl rfl rfl
  | filter =>
      simp only [State.clockStep, clock] at stepped awaits
      have queued : before.queue = none :: pending.map some := awaits
      cases stepped
      have filtered : before.queue.filter (· ≠ none) = pending.map some := by
        rw [queued, List.filter_cons_of_neg (by simp), List.filter_eq_self]
        intro cell member
        obtain ⟨entry, -, rfl⟩ := List.mem_map.mp member
        simp
      exact conserved.of_awaits appended filtered rfl rfl rfl
  | test =>
      simp only [State.clockStep, clock] at stepped awaits
      cases stepped
      cases holds <;> exact conserved.of_awaits appended awaits rfl rfl rfl
  | ended =>
      simp only [State.clockStep, clock] at stepped
      cases stepped
  | stopped =>
      simp only [State.clockStep, clock] at stepped
      cases stepped

end State

/-- Every step keeps the totals and the queue in balance with what was appended. -/
theorem step_conserved {startingTickets : ℤ} {before after : State} {event : Event}
    (conserved : before.Conserved startingTickets) (stepped : step before event = some after) :
    after.Conserved startingTickets := by
  cases event with
  | ticketGain side =>
      cases stepped
      exact conserved.append _
  | death isWest =>
      cases stepped
      exact conserved.append _
  | hostRespawn isWest =>
      cases stepped
      exact conserved.append _
  | clock holds => exact conserved.clockStep stepped

theorem run_conserved {startingTickets : ℤ} {events : List Event} {state : State}
    (ran : run step (State.initial startingTickets) events = some state) :
    state.Conserved startingTickets :=
  run_invariant (State.Conserved startingTickets)
    (fun _ _ _ conserved stepped => step_conserved conserved stepped)
    State.conserved_initial ran

theorem Clock.Awaits.queued {clock : Clock} {queue : List (Option Entry)}
    {pending : List Entry} (awaits : clock.Awaits queue pending) (outside : clock.outside) :
    queue = pending.map some := by
  cases clock with
  | start | check | test | ended => exact awaits
  | select | dispatch | change | publish | mark | filter | stopped => cases outside

/-- Wherever the clock thread is outside the consumer's body, the entries in the queue are
those that were appended and not yet applied, in order, and each side's total with its
pending gains and losses is what it started with and all the gains and losses ever
appended. -/
theorem tickets_conserved (startingTickets : ℤ) {events : List Event} {state : State}
    (ran : run step (State.initial startingTickets) events = some state)
    (outside : state.clock.outside) :
    (∀ side, state.tickets side + state.queue.count (some ⟨side, true⟩)
        - state.queue.count (some ⟨side, false⟩) =
      startingTickets + state.appended.count ⟨side, true⟩
        - state.appended.count ⟨side, false⟩) ∧
    ∃ pending, state.queue = pending.map some ∧ state.appended = state.applied ++ pending := by
  have conserved := run_conserved ran
  obtain ⟨pending, appended, awaits⟩ := conserved.pending
  have queued := awaits.queued outside
  refine ⟨fun side => ?_, pending, queued, appended⟩
  have inQueue (entry : Entry) :
      state.queue.count (some entry) = pending.count entry := by
    rw [queued, List.count_map_of_injective _ _ (Option.some_injective _)]
  have total := conserved.tickets side
  have ever : balance side state.appended =
      balance side state.applied + balance side pending := by rw [appended, balance_append]
  rw [balance_eq_count side state.appended, balance_eq_count side pending] at ever
  rw [inQueue, inQueue]
  omega

/-- A gain of the west is applied; a gain of the east comes while the thread is inside the
consumer, and a death of the west between its two removal statements. -/
def appendsInside : List Event :=
  [.ticketGain .west, .clock true, .clock false, .clock false, .clock false, .ticketGain .east,
    .clock false, .clock false, .clock false, .death true, .clock false]

theorem appendsInside_ran : (run step (State.initial 0) appendsInside).isSome := by
  decide

/-- After these steps the west has its ticket and two entries are pending. -/
theorem tickets_conserved_appendsInside :
    ∃ state, run step (State.initial 0) appendsInside = some state ∧
      state.tickets .west = 1 ∧ state.queue = [some ⟨.east, true⟩, some ⟨.west, false⟩] ∧
      (∀ side, state.tickets side + state.queue.count (some ⟨side, true⟩)
          - state.queue.count (some ⟨side, false⟩) =
        0 + state.appended.count ⟨side, true⟩ - state.appended.count ⟨side, false⟩) :=
  ⟨(run step (State.initial 0) appendsInside).get appendsInside_ran,
    (Option.some_get appendsInside_ran).symm, by decide, by decide,
    (tickets_conserved 0 (Option.some_get appendsInside_ran).symm (by decide)).1⟩

end OperationFrontLine.Tickets
