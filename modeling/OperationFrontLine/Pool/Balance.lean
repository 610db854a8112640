import Mathlib
import OperationFrontLine.Pool.Safety

/-!
# Handing back what was borrowed

A worker that gets its two connections at the first attempt hands both back.
When the second `borrow` throws, the first connection is overwritten by the
next attempt, or leaves with its pointer: nobody ever hands it to `unborrow`.
-/

namespace OperationFrontLine.Pool

open OperationFrontLine.Library

/-- `borrow` finds a free connection, or an abandoned one that is replaced. -/
def ConnectionPool.Serves (this : ConnectionPool) (unique : Connection → Bool)
    (created : Option Connection) : Prop :=
  this.pool ≠ [] ∨ created ≠ none ∧ ∃ connection ∈ this.borrowed, unique connection = true

instance (this : ConnectionPool) (unique : Connection → Bool) (created : Option Connection) :
    Decidable (this.Serves unique created) :=
  inferInstanceAs (Decidable (_ ∨ _ ∧ ∃ connection ∈ this.borrowed, unique connection = true))

theorem PoolWorld.serves_of_ok {world next : PoolWorld ℕ} {index : ℕ}
    {created : Option Connection} {connection : Connection}
    (lent : world.borrow index created = (.ok connection, next)) :
    world.pool.Serves world.unique created := by
  unfold borrow at lent
  rcases world.pool.borrow_cases world.unique created with
    ⟨other, rest, deque, result⟩ | ⟨abandoned, other, deque, member, unique, rfl, result⟩ |
    ⟨error, deque, result, -⟩
  · exact .inl (by simp [deque])
  · exact .inr ⟨by simp, abandoned, member, unique⟩
  · rw [result] at lent
    cases lent

theorem PoolWorld.not_serves_of_error {world next : PoolWorld ℕ} {index : ℕ}
    {created : Option Connection} {error : BorrowError}
    (thrown : world.borrow index created = (.error error, next)) :
    ¬world.pool.Serves world.unique created := by
  unfold borrow at thrown
  rcases world.pool.borrow_cases world.unique created with
    ⟨other, rest, deque, result⟩ | ⟨abandoned, other, deque, member, unique, rfl, result⟩ |
    ⟨other, deque, result, none⟩
  · rw [result] at thrown
    cases thrown
  · rw [result] at thrown
    cases thrown
  · rintro (free | ⟨some, connection, member, unique⟩)
    · exact free deque
    · rcases none with noneUnique | noneCreated
      · simp [noneUnique connection member] at unique
      · exact some noneCreated

namespace Callback

def kept (callback : Callback) : List Connection :=
  match callback.statement with
  | .idle | .borrowFirst | .post | .lastThreadEnd => []
  | .borrowSecond => callback.opflcon.toList
  | .poll =>
      if callback.retry = true then []
      else callback.opflcon2.toList ++ callback.opflcon.toList
  | .leave | .done => callback.handed
  | _ => callback.opflcon2.toList ++ callback.opflcon.toList

def handedBack (callback : Callback) : List Connection :=
  match callback.statement with
  | .earlyUnborrow | .threadEnd | .commitData | .unborrow => callback.opflcon2.toList
  | .leave | .done => callback.handed
  | _ => []

/-- What a worker has received and handed back, when the database does not fail. -/
structure Accounted (callback : Callback) : Prop where
  handed : callback.handed = callback.handedBack
  received : ∃ lost, callback.received.Perm (callback.kept ++ lost)
  second : callback.statement = .borrowSecond → callback.opflcon.isSome
  retrying : callback.statement = .idle ∨ callback.statement = .borrowFirst ∨
    callback.statement = .borrowSecond → callback.retry = true
  steady : callback.statement = .idle ∨ callback.statement = .borrowFirst ∨
    callback.statement = .borrowSecond ∨ callback.statement = .threadInit ∨
      callback.statement = .poll ∧ callback.retry = false → callback.stable = true

def Lost (callback : Callback) : Prop := callback.kept.length < callback.received.length

theorem Accounted.initial : Accounted initial where
  handed := rfl
  received := ⟨[], .nil⟩
  second here := by simp [Callback.initial] at here
  retrying _ := rfl
  steady _ := rfl

theorem Accounted.length_le {callback : Callback} (accounted : callback.Accounted) :
    callback.kept.length ≤ callback.received.length := by
  obtain ⟨lost, same⟩ := accounted.received
  rw [same.length_eq, List.length_append]
  exact Nat.le_add_right _ _

/-- One statement keeps the account, and loses a connection when it has to. -/
def Moves (before after : Callback) (loses : Prop) : Prop :=
  after.Accounted ∧ (after.Lost ↔ before.Lost ∨ loses)

variable {callback : Callback}

theorem Accounted.goOn (accounted : callback.Accounted) {after : Callback}
    (received : after.received = callback.received) (handed : after.handed = callback.handed)
    (kept : after.kept = callback.kept) (handedBack : after.handedBack = callback.handedBack)
    (second : after.statement ≠ .borrowSecond)
    (retrying : after.statement = .idle ∨ after.statement = .borrowFirst → after.retry = true)
    (steady : after.statement = .idle ∨ after.statement = .borrowFirst ∨
      after.statement = .threadInit ∨ after.statement = .poll ∧ after.retry = false →
        after.stable = true) : Moves callback after False := by
  refine ⟨⟨?_, ?_, fun here => absurd here second, ?_, ?_⟩, ?_⟩
  · rw [handed, handedBack]
    exact accounted.handed
  · rw [received, kept]
    exact accounted.received
  · rintro (idle | first | here)
    · exact retrying (.inl idle)
    · exact retrying (.inr first)
    · exact absurd here second
  · rintro (idle | first | here | init | poll)
    · exact steady (.inl idle)
    · exact steady (.inr (.inl first))
    · exact absurd here second
    · exact steady (.inr (.inr (.inl init)))
    · exact steady (.inr (.inr (.inr poll)))
  · rw [Lost, Lost, received, kept, or_false]

theorem Accounted.connect (accounted : callback.Accounted) (idle : callback.statement = .idle)
    (rejoin : Bool) : Moves callback (callback.connect rejoin) False := by
  refine accounted.goOn rfl rfl ?_ ?_ ?_ ?_ ?_
  · simp [kept, Callback.connect, idle]
  · simp [handedBack, Callback.connect, idle]
  · simp [Callback.connect]
  · exact fun _ => accounted.retrying (.inl idle)
  · exact fun _ => accounted.steady (.inl idle)

theorem Accounted.receiveFirst (accounted : callback.Accounted)
    (here : callback.statement = .borrowFirst) (connection : Connection) :
    Moves callback (callback.receiveFirst connection) False := by
  obtain ⟨handed, ⟨lost, received⟩, second, retrying, steady⟩ := accounted
  simp only [handedBack, kept, here] at handed received
  refine ⟨⟨handed, ⟨lost, received.cons connection⟩, fun _ => rfl,
    fun _ => retrying (.inr (.inl here)), fun _ => steady (.inr (.inl here))⟩, ?_⟩
  simp [Lost, kept, here, Callback.receiveFirst]

theorem Accounted.receiveSecond (accounted : callback.Accounted)
    (here : callback.statement = .borrowSecond) (connection : Connection) :
    Moves callback (callback.receiveSecond connection) False := by
  obtain ⟨handed, ⟨lost, received⟩, second, retrying, steady⟩ := accounted
  simp only [handedBack, kept, here] at handed received
  refine ⟨⟨handed, ⟨lost, received.cons connection⟩, ?_, ?_,
    fun _ => steady (.inr (.inr (.inl here)))⟩, ?_⟩
  · simp [Callback.receiveSecond]
  · simp [Callback.receiveSecond]
  · simp [Lost, kept, here, Callback.receiveSecond]

theorem Accounted.refusedFirst (accounted : callback.Accounted)
    (here : callback.statement = .borrowFirst) (error : BorrowError) :
    Moves callback (callback.catchError error) False := by
  have retry := accounted.retrying (.inr (.inl here))
  refine accounted.goOn rfl rfl ?_ ?_ ?_ ?_ ?_
  · simp [kept, Callback.catchError, here, retry]
  · simp [handedBack, Callback.catchError, here]
  · simp [Callback.catchError]
  · simp [Callback.catchError]
  · simp [Callback.catchError, retry]

theorem Accounted.refusedSecond (accounted : callback.Accounted)
    (here : callback.statement = .borrowSecond) (error : BorrowError) :
    Moves callback (callback.catchError error) True := by
  have retry := accounted.retrying (.inr (.inr here))
  obtain ⟨connection, stored⟩ := Option.isSome_iff_exists.mp (accounted.second here)
  obtain ⟨handed, ⟨lost, received⟩, second, retrying, steady⟩ := accounted
  simp only [handedBack, kept, here] at handed received
  have none : (callback.catchError error).kept = [] := by
    simp [kept, Callback.catchError, retry]
  refine ⟨⟨handed, ⟨callback.opflcon.toList ++ lost, ?_⟩, ?_, ?_, ?_⟩, ?_⟩
  · rw [none]
    exact received
  · simp [Callback.catchError]
  · simp [Callback.catchError]
  · simp [Callback.catchError, retry]
  · rw [Lost, none, or_true, iff_true]
    change 0 < callback.received.length
    rw [received.length_eq, stored]
    simp

theorem Accounted.polled (accounted : callback.Accounted) (here : callback.statement = .poll)
    (message : PolledMessage) : Moves callback (callback.polled message) False := by
  have handed := accounted.handed
  simp only [handedBack, here] at handed
  have steady := accounted.steady
  cases retry : callback.retry with
  | true =>
      by_cases commit : message = .commit
      · apply accounted.goOn <;>
          simp [Callback.polled, commit, kept, handedBack, here, retry, handed]
      · cases stable : callback.stable <;> apply accounted.goOn <;>
          simp [Callback.polled, commit, kept, handedBack, here, retry, stable]
  | false =>
      have stable := steady (.inr (.inr (.inr (.inr ⟨here, retry⟩))))
      by_cases commit : message = .commit <;> apply accounted.goOn <;>
        simp [Callback.polled, commit, kept, handedBack, here, retry, stable]

theorem Accounted.called (accounted : callback.Accounted) {pointer : Variable}
    (here : callback.statement.receiver = some pointer) :
    Moves callback (callback.called true) False := by
  have handed := accounted.handed
  have steady := accounted.steady
  cases state : callback.statement <;> rw [state] at here <;> cases here <;>
    simp only [handedBack, state] at handed <;> cases rejoin : callback.rejoin <;>
    apply accounted.goOn <;> simp_all [Callback.called, kept, handedBack, Statement.afterCall]

theorem Accounted.handBack (accounted : callback.Accounted) {pointer : Variable}
    {connection : Connection} (here : callback.statement.returned = some pointer)
    (stored : callback.pointer pointer = some connection) :
    Moves callback (callback.handBack connection) False := by
  cases pointer with
  | opflcon2 =>
      -- the first of the two; the other one is still to come
      have opflcon2 : callback.opflcon2 = some connection := stored
      have behind : callback.statement = .earlyUnborrow2 ∨ callback.statement = .unborrow2 := by
        cases state : callback.statement <;> rw [state] at here <;> cases here <;> simp
      obtain ⟨handed, ⟨lost, received⟩, second, retrying, steady⟩ := accounted
      have kept : (callback.handBack connection).kept = callback.kept := by
        rcases behind with state | state <;>
          simp [Callback.kept, Callback.handBack, state, Statement.afterUnborrow]
      refine ⟨⟨?_, ⟨lost, by rw [kept]; exact received⟩, ?_, ?_, ?_⟩, ?_⟩
      · rcases behind with state | state <;> simp only [handedBack, state] at handed <;>
          simp [handedBack, Callback.handBack, state, Statement.afterUnborrow, handed, opflcon2]
      · rcases behind with state | state <;>
          simp [Callback.handBack, state, Statement.afterUnborrow]
      · rcases behind with state | state <;>
          simp [Callback.handBack, state, Statement.afterUnborrow]
      · rcases behind with state | state <;>
          simp [Callback.handBack, state, Statement.afterUnborrow]
      · rw [Lost, Lost, kept, or_false]
        rfl
  | opflcon =>
      have opflcon : callback.opflcon = some connection := stored
      have behind : callback.statement = .earlyUnborrow ∨ callback.statement = .unborrow := by
        cases state : callback.statement <;> rw [state] at here <;> cases here <;> simp
      obtain ⟨handed, ⟨lost, received⟩, second, retrying, steady⟩ := accounted
      have leaves : (callback.handBack connection).statement = .leave := by
        rcases behind with state | state <;>
          simp [Callback.handBack, state, Statement.afterUnborrow]
      have before : callback.handed = callback.opflcon2.toList := by
        rcases behind with state | state <;> simpa only [handedBack, state] using handed
      have both : callback.kept = callback.opflcon2.toList ++ [connection] := by
        rcases behind with state | state <;> simp [kept, state, opflcon]
      have kept : (callback.handBack connection).kept =
          connection :: callback.opflcon2.toList := by
        simp only [Callback.kept, leaves]
        rw [← before]
        rfl
      have moved : (callback.kept ++ lost).Perm
          (connection :: callback.opflcon2.toList ++ lost) := by
        rw [both]
        exact (List.perm_append_singleton _ _).append_right lost
      refine ⟨⟨?_, ⟨lost, ?_⟩, ?_, ?_, ?_⟩, ?_⟩
      · simp [handedBack, leaves]
      · rw [kept]
        exact received.trans moved
      · simp [leaves]
      · simp [leaves]
      · simp [leaves]
      · rw [Lost, Lost, kept, both, or_false]
        simp [Callback.handBack]

theorem Accounted.receiveMsg (accounted : callback.Accounted)
    (here : callback.statement = .receive) (message : SessionMessage) :
    Moves callback (callback.receiveMsg message) False := by
  rcases message with _ | ⟨_ | _⟩ <;> apply accounted.goOn <;>
    simp [Callback.receiveMsg, kept, handedBack, here]

theorem Accounted.replied (accounted : callback.Accounted) (here : callback.statement = .reply) :
    Moves callback { callback with statement := .receive } False := by
  apply accounted.goOn <;> simp [kept, handedBack, here]

theorem Accounted.posted (accounted : callback.Accounted) (here : callback.statement = .post) :
    Moves callback { callback with statement := .lastThreadEnd } False := by
  apply accounted.goOn <;> simp [kept, handedBack, here]

theorem Accounted.left (accounted : callback.Accounted) (here : callback.statement = .leave) :
    Moves callback { callback with statement := .done, opflcon := none, opflcon2 := none }
      False := by
  apply accounted.goOn <;> simp [kept, handedBack, here]

end Callback

namespace CallbackSystem

def Served (index : ℕ) (system : CallbackSystem) : CallbackLabel → CallbackSystem → Prop
  | .borrow other created, _ =>
      other = index → (system.callback index).statement = .borrowSecond →
        system.world.pool.Serves system.world.unique created
  | _, _ => True

instance Served.decidable (index : ℕ) (system : CallbackSystem) :
    ∀ (label : CallbackLabel) (next : CallbackSystem), Decidable (system.Served index label next)
  | .borrow other created, _ =>
      inferInstanceAs (Decidable (other = index →
        (system.callback index).statement = .borrowSecond →
          system.world.pool.Serves system.world.unique created))
  | .install _, _ | .connect _ _, _ | .poll _ _, _ | .call _ _, _ | .unborrow _, _
  | .reply _, _ | .receive _ _, _ | .post _, _ | .leave _, _ => .isTrue trivial

structure Balanced (index : ℕ) (system : CallbackSystem) : Prop where
  accounted : (system.callback index).Accounted
  installed : (system.callback index).statement = .borrowSecond → system.installed = true

def Keeps (index : ℕ) (system next : CallbackSystem) (loses : Prop) : Prop :=
  Balanced index next ∧
    ((next.callback index).Lost ↔ (system.callback index).Lost ∨ loses)

variable {index : ℕ} {system : CallbackSystem}

theorem Balanced.start : Balanced index start where
  accounted := .initial
  installed here := by simp [CallbackSystem.start, Callback.initial] at here

theorem Balanced.update (balanced : Balanced index system) {world : PoolWorld ℕ} {own : ℕ}
    {callback : Callback} {loses : Prop}
    (moves : own = index → (system.callback index).Moves callback loses)
    (installed : own = index → callback.statement = .borrowSecond → system.installed = true)
    (others : own ≠ index → ¬loses) :
    Keeps index system (system.update world own callback) loses := by
  by_cases same : own = index
  · subst same
    obtain ⟨accounted, lost⟩ := moves rfl
    refine ⟨⟨by simpa using accounted, fun here => ?_⟩, by simpa using lost⟩
    rw [update_callback, Function.update_self] at here
    exact installed rfl here
  · have kept : (system.update world own callback).callback index = system.callback index :=
      Function.update_of_ne (Ne.symm same) ..
    refine ⟨⟨by rw [kept]; exact balanced.accounted, fun here => ?_⟩, ?_⟩
    · rw [kept] at here
      exact balanced.installed here
    · rw [kept]
      exact ⟨.inl, fun either => either.resolve_right (others same)⟩

theorem Balanced.step (balanced : Balanced index system) {label : CallbackLabel}
    {next : CallbackSystem} (succeeds : label ≠ .call index false)
    (effect : Effect system label next) :
    Keeps index system next (¬system.Served index label next) := by
  have own := balanced.accounted
  -- a statement other than `borrow`
  have goOn : ∀ {label : CallbackLabel} {world : PoolWorld ℕ} {worker : ℕ} {callback : Callback},
      (system.Served index label (system.update world worker callback)) →
      (worker = index → (system.callback index).Moves callback False) →
      callback.statement ≠ .borrowSecond →
      Keeps index system (system.update world worker callback)
        (¬system.Served index label (system.update world worker callback)) := by
    intro label world worker callback served moves other
    rw [eq_false (not_not_intro served)]
    exact balanced.update moves (fun _ here => absurd here other) fun _ => id
  cases effect with
  | @aside label next callbacks posts references installed noPool =>
      have served : system.Served index label next := by
        cases label with
        | borrow other created =>
            intro _ here
            have pool := balanced.installed here
            rw [noPool other created rfl] at pool
            cases pool
        | _ => trivial
      have kept : next.callback index = system.callback index := by rw [callbacks]
      refine ⟨⟨by rw [kept]; exact own, fun here => ?_⟩, ?_⟩
      · rw [kept] at here
        exact installed (balanced.installed here)
      · simp [kept, served]
  | connect idle =>
      exact goOn trivial (by rintro rfl; exact own.connect idle _) (by simp [Callback.connect])
  | @first worker created connection world here installed lent =>
      have served : system.Served index (.borrow worker created)
          (system.update (world.overwrite worker (system.callback worker).opflcon) worker
            ((system.callback worker).receiveFirst connection)) := by
        rintro rfl second
        simp [here] at second
      rw [eq_false (not_not_intro served)]
      exact balanced.update (by rintro rfl; exact own.receiveFirst here _)
        (fun _ _ => installed) fun _ => id
  | @second worker created connection world here lent =>
      refine goOn ?_ (by rintro rfl; exact own.receiveSecond here _)
        (by simp [Callback.receiveSecond])
      exact fun _ _ => PoolWorld.serves_of_ok lent
  | @refused worker created error world here thrown =>
      have lost := PoolWorld.not_serves_of_error thrown
      rcases here with first | second
      · refine goOn ?_ (by rintro rfl; exact own.refusedFirst first _)
          (by simp [Callback.catchError])
        rintro rfl here
        simp [first] at here
      · have loses : ¬system.Served index (.borrow worker created)
            (system.update world worker ((system.callback worker).catchError error)) ↔
              worker = index := by
          constructor
          · intro unserved
            by_contra other
            exact unserved fun same => absurd same other
          · rintro rfl served
            exact lost (served rfl second)
        rw [propext loses]
        refine balanced.update ?_ (by simp [Callback.catchError]) id
        rintro rfl
        simpa using own.refusedSecond second error
  | @poll worker message here =>
      refine goOn trivial (by rintro rfl; exact own.polled here _) ?_
      unfold Callback.polled
      cases (system.callback worker).retry <;> cases (system.callback worker).stable <;>
        cases message <;> simp
  | @call worker result pointer here =>
      refine goOn trivial ?_ (Statement.afterCall_cases here _ _).2.2.2
      rintro rfl
      cases result with
      | false => exact absurd rfl succeeds
      | true => exact own.called here
  | unborrow here stored =>
      refine goOn trivial (by rintro rfl; exact own.handBack here stored) fun second => ?_
      rcases Statement.afterUnborrow_cases (system.callback _).statement with same | same | same <;>
        cases second.symm.trans same
  | reply here => exact goOn trivial (by rintro rfl; exact own.replied here) (by simp)
  | @receive worker message here =>
      refine goOn trivial (by rintro rfl; exact own.receiveMsg here _) ?_
      rcases message with _ | ⟨_ | _⟩ <;> simp [Callback.receiveMsg]
  | @post worker here =>
      have same : Keeps index system (system.update system.world worker
          { system.callback worker with statement := .lastThreadEnd }) False :=
        balanced.update (by rintro rfl; exact own.posted here) (by simp) (by simp)
      have served : ∀ next, system.Served index (.post worker) next := fun _ => trivial
      rw [eq_false (not_not_intro (served _))]
      exact ⟨⟨same.1.accounted, same.1.installed⟩, same.2⟩
  | leave here => exact goOn trivial (by rintro rfl; exact own.left here) (by simp)

end CallbackSystem

open CallbackSystem

/-- A worker that returned, its calls to the database all successful, has handed
back everything it received exactly when the pool always served its second
`borrow`. -/
theorem borrowing_balanced_iff {index : ℕ} {labels : List CallbackLabel}
    {system : CallbackSystem} (ran : run callbackStep start labels = some system)
    (returned : (system.callback index).statement = .done)
    (succeeded : .call index false ∉ labels) :
    (system.callback index).handed.Perm (system.callback index).received ↔
      Along callbackStep (Served index) start labels := by
  have succeeds : Along callbackStep (fun _ label _ => label ≠ .call index false) start labels :=
    along_of_forall_mem (fun label member before after stepped =>
      ne_of_mem_of_not_mem member succeeded) start
  have keeps : ∀ before label after, Balanced index before → label ≠ .call index false →
      callbackStep before label = some after →
        Keeps index before after (¬before.Served index label after) :=
    fun before label after balanced succeeds stepped =>
      balanced.step succeeds (callbackStep_effect stepped)
  have balanced : Balanced index system :=
    run_invariant_of_along (Balanced index)
      (fun before label after balanced succeeds stepped =>
        (keeps before label after balanced succeeds stepped).1) .start succeeds ran
  have served := along_iff_of_flag (Balanced index)
    (fun system => (system.callback index).Lost)
    (fun before label after balanced succeeds stepped =>
      (keeps before label after balanced succeeds stepped).1)
    (fun before label after balanced succeeds stepped =>
      (keeps before label after balanced succeeds stepped).2)
    .start (by simp [Callback.Lost, Callback.kept, start, Callback.initial]) succeeds ran
  rw [← served]
  obtain ⟨lost, received⟩ := balanced.accounted.received
  have kept : (system.callback index).kept = (system.callback index).handed := by
    simp [Callback.kept, returned]
  rw [Callback.Lost, kept]
  rw [kept] at received
  constructor
  · intro same
    rw [same.length_eq]
    exact lt_irrefl _
  · intro none
    have empty : lost = [] := by
      rw [received.length_eq, List.length_append] at none
      apply List.eq_nil_of_length_eq_zero
      omega
    rw [empty, List.append_nil] at received
    exact received.symm

theorem borrowing_balanced_iff_session :
    ∃ system, run callbackStep start (.install (List.range 50) :: session 0) = some system ∧
      (system.callback 0).handed.Perm (system.callback 0).received := by
  have ends : (run callbackStep start (.install (List.range 50) :: session 0)).map
      (fun system => (system.callback 0).statement) = some .done := by decide +kernel
  obtain ⟨system, ran, done⟩ := Option.map_eq_some_iff.mp ends
  have served : Along callbackStep (Served 0) start
      (.install (List.range 50) :: session 0) := by decide +kernel
  exact ⟨system, ran, (borrowing_balanced_iff ran done (by decide)).mpr served⟩

/-- The last free connection goes to another worker between the two `borrow`s
of worker 24, which tries again once worker 0 has left. -/
def contention : List CallbackLabel :=
  .install (List.range 50) :: (List.range 24).flatMap acquisition ++
    [.connect 24 false, .borrow 24 none, .connect 25 false, .borrow 25 none, .borrow 24 none,
      .poll 24 .none] ++
    (session 0).drop 5 ++ (session 24).drop 1

/-- Worker 24 received three connections and handed back two. -/
theorem retried_connection_kept :
    ¬∀ (labels : List CallbackLabel) (system : CallbackSystem) (index : ℕ),
      run callbackStep start labels = some system →
        (system.callback index).statement = .done → (system.callback index).consumed = 1 →
          .call index false ∉ labels →
            (system.callback index).handed.Perm (system.callback index).received := by
  intro balanced
  have ends : (run callbackStep start contention).map (fun system =>
      ((system.callback 24).statement, (system.callback 24).consumed,
        (system.callback 24).handed.length, (system.callback 24).received.length)) =
        some (.done, 1, 2, 3) := by decide +kernel
  obtain ⟨system, ran, here⟩ := Option.map_eq_some_iff.mp ends
  simp only [Prod.mk.injEq] at here
  have same := balanced contention system 24 ran here.1 here.2.1 (by decide)
  have lengths := same.length_eq
  rw [here.2.2.1, here.2.2.2] at lengths
  cases lengths

end OperationFrontLine.Pool
